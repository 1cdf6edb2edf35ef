import ComparisonRules.Proofs.Rule.Storable

/-!
# Decoding nodes

A rule that is decoded can be stored, if the numbers in its nodes are finite. The nodes of a
rule are decoded as that rule or not at all, since a literal that was lost is missed.
-/

namespace ComparisonRules.Node

/-! ## Any nodes -/

theorem require_eq_ok {α : Type} {part : Part} {given : Option α} {value : α}
    (h : require part given = .ok value) : given = some value := by
  cases given with
  | none => cases h
  | some v =>
      cases h
      rfl

theorem isStorable_of_comparisonOfText {text : String} {rule : Rule}
    (h : comparisonOfText text = .ok rule) : ∃ c, rule = .leaf c ∧ c.literal.IsStorable := by
  unfold comparisonOfText at h
  cases hcompile : Rule.compile text with
  | error e =>
      rw [hcompile] at h
      cases h
  | ok found =>
      rw [hcompile] at h
      cases found with
      | join left connective right => cases h
      | leaf c =>
          cases h
          have hrule := Rule.isStorable_of_compile hcompile
          exact ⟨c, rfl, hrule.literals c (by simp [Rule.comparisons])⟩

theorem comparisonOfParts_eq_ok {value : String} {field : Option String}
    {literal : Option Value} {rule : Rule} (h : comparisonOfParts value field literal = .ok rule) :
    ∃ c, rule = .leaf c ∧ Comparator.ofSymbol? value = some c.comparator ∧ field = some c.field ∧
      literal = some c.literal ∧ c.literal.isQuotable = true := by
  unfold comparisonOfParts at h
  cases hcomparator : Comparator.ofSymbol? value with
  | none =>
      rw [hcomparator] at h
      cases h
  | some comparator =>
      rw [hcomparator] at h
      obtain ⟨name, hname, h⟩ := bind_eq_ok.mp h
      obtain ⟨v, hv, h⟩ := bind_eq_ok.mp h
      have hfield := require_eq_ok hname
      have hliteral := require_eq_ok hv
      cases v with
      | number n =>
          cases h
          exact ⟨_, rfl, rfl, hfield, hliteral, rfl⟩
      | string s =>
          dsimp only at h
          by_cases hquotable : (Value.string s).isQuotable = true
          · rw [if_pos hquotable] at h
            cases h
            exact ⟨_, rfl, rfl, hfield, hliteral, hquotable⟩
          · rw [if_neg hquotable] at h
            cases h

theorem decodeOperand_eq_ok {value : Option String} {hasChildren : Bool}
    {field : Option String} {literal : Option Value} {rule : Rule}
    (h : decodeOperand value hasChildren field literal = .ok rule) :
    ∃ c, rule = .leaf c ∧ c.literal.isQuotable = true ∧
      (literal = some c.literal ∨ c.literal.IsStorable) := by
  unfold decodeOperand at h
  cases hasChildren with
  | true => cases h
  | false =>
      obtain ⟨text, -, h⟩ := bind_eq_ok.mp h
      split at h
      · obtain ⟨c, hrule, hc⟩ := isStorable_of_comparisonOfText h
        exact ⟨c, hrule, hc.quotable, .inr hc⟩
      · obtain ⟨c, hrule, -, -, hliteral, hquotable⟩ := comparisonOfParts_eq_ok h
        exact ⟨c, hrule, hquotable, .inl hliteral⟩

theorem decodeAt_operator {level : Nat} {value : Option String} {left right : Option Node}
    {field : Option String} {literal : Option Value} {rule : Rule}
    (h : decodeAt level ⟨.operator, value, left, right, field, literal⟩ = .ok rule) :
    level ≠ Rule.maxDepth ∧ ∃ connective l r leftRule rightRule,
      connectiveOf value = .ok connective ∧ left = some l ∧ right = some r ∧
      decodeAt (level + 1) l = .ok leftRule ∧ decodeAt (level + 1) r = .ok rightRule ∧
      rule = .join leftRule connective rightRule := by
  rw [decodeAt.eq_def] at h
  dsimp only at h
  by_cases hlevel : level = Rule.maxDepth
  · rw [if_pos hlevel] at h
    cases h
  · rw [if_neg hlevel] at h
    refine ⟨hlevel, ?_⟩
    obtain ⟨connective, hconnective, h⟩ := bind_eq_ok.mp h
    cases left with
    | none => cases h
    | some l =>
        cases right with
        | none => cases h
        | some r =>
            obtain ⟨leftRule, hleft, h⟩ := bind_eq_ok.mp h
            obtain ⟨rightRule, hright, h⟩ := bind_eq_ok.mp h
            cases h
            exact ⟨connective, l, r, leftRule, rightRule, hconnective, rfl, rfl, hleft, hright,
              rfl⟩

theorem isDecodable_of_decodeAt {level : Nat} {node : Node} {rule : Rule}
    (hlevel : level ≤ Rule.maxDepth) (h : node.decodeAt level = .ok rule) :
    rule.IsDecodable ∧ rule.depth + level ≤ Rule.maxDepth := by
  -- along the decoder, which passes an operator only where one more is allowed
  induction level, node using decodeAt.induct generalizing rule with
  | case1 value left right field literal =>
      obtain ⟨hne, -⟩ := decodeAt_operator h
      exact absurd rfl hne
  | case2 level value left right field literal hne ih =>
      obtain ⟨-, connective, l, r, leftRule, rightRule, -, rfl, rfl, hleft, hright, rfl⟩ :=
        decodeAt_operator h
      obtain ⟨hleftRule, hleftDepth⟩ := ih.1 (by omega) hleft
      obtain ⟨hrightRule, hrightDepth⟩ := ih.2 (by omega) hright
      have hdepth : (Rule.join leftRule connective rightRule).depth + level ≤ Rule.maxDepth := by
        rw [Rule.depth]
        omega
      refine ⟨⟨by omega, ?_⟩, hdepth⟩
      rw [Rule.comparisons, List.forall_mem_append]
      exact ⟨hleftRule.quotable, hrightRule.quotable⟩
  | case3 level value left right field literal =>
      rw [decodeAt.eq_def] at h
      obtain ⟨c, rfl, hquotable, -⟩ := decodeOperand_eq_ok h
      refine ⟨⟨Nat.zero_le _, ?_⟩, by rw [Rule.depth]; omega⟩
      rw [Rule.comparisons, List.forall_mem_singleton]
      exact hquotable

theorem isDecodable_of_toRule {node : Node} {rule : Rule} (h : node.toRule = .ok rule) :
    rule.IsDecodable :=
  (isDecodable_of_decodeAt (Nat.zero_le _) h).1

theorem isFinite_of_decodeAt {level : Nat} {node : Node} {rule : Rule}
    (hnode : node.FiniteLiterals) (h : node.decodeAt level = .ok rule) :
    ∀ c ∈ rule.comparisons, c.literal.isFinite = true := by
  induction hnode generalizing level rule with
  | @node kind value left right field literal _ _ hfinite ihLeft ihRight =>
      cases kind with
      | operand =>
          rw [decodeAt.eq_def] at h
          obtain ⟨c, rfl, -, hliteral⟩ := decodeOperand_eq_ok h
          rw [Rule.comparisons, List.forall_mem_singleton]
          rcases hliteral with hliteral | hc
          · exact hfinite _ hliteral
          · exact hc.finite
      | operator =>
          obtain ⟨-, connective, l, r, leftRule, rightRule, -, hl, hr, hleft, hright, rfl⟩ :=
            decodeAt_operator h
          rw [Rule.comparisons, List.forall_mem_append]
          exact ⟨ihLeft l hl hleft, ihRight r hr hright⟩

theorem isStorable_of_toRule {node : Node} {rule : Rule} (hnode : node.FiniteLiterals)
    (h : node.toRule = .ok rule) : rule.IsStorable := by
  have hrule := isDecodable_of_toRule h
  exact ⟨hrule.depth_le, fun c hc => ⟨isFinite_of_decodeAt hnode h c hc, hrule.quotable c hc⟩⟩

/-! ## The nodes of a rule -/

theorem ofComparison_injective {c c' : Comparison} (h : ofComparison c = ofComparison c') :
    c = c' := by
  obtain ⟨field, comparator, literal⟩ := c
  obtain ⟨field', comparator', literal'⟩ := c'
  injection h with _ hsymbol _ _ hfield hliteral
  have hcomparator := congrArg Comparator.ofSymbol? (Option.some.inj hsymbol)
  rw [Comparator.ofSymbol?_symbol, Comparator.ofSymbol?_symbol] at hcomparator
  cases hcomparator
  cases hfield
  cases hliteral
  rfl

theorem connectiveOf_text (connective : Connective) :
    connectiveOf (some connective.text) = .ok connective := by
  cases connective <;> rfl

theorem ofRule_injective {rule rule' : Rule} (h : ofRule rule = ofRule rule') :
    rule = rule' := by
  induction rule generalizing rule' with
  | leaf c =>
      cases rule' with
      | leaf c' => rw [ofComparison_injective h]
      | join _ _ _ => cases h
  | join left connective right ihLeft ihRight =>
      cases rule' with
      | leaf c' => cases h
      | join left' connective' right' =>
          injection h with _ hvalue hleft hright
          have hconnective := congrArg connectiveOf hvalue
          rw [connectiveOf_text, connectiveOf_text] at hconnective
          cases hconnective
          rw [ihLeft (Option.some.inj hleft), ihRight (Option.some.inj hright)]

theorem levels_ofRule (rule : Rule) : (ofRule rule).levels = rule.depth + 1 := by
  induction rule with
  | leaf c =>
      rw [ofRule, ofComparison, levels_eq]
      rfl
  | join left connective right ihLeft ihRight =>
      rw [ofRule, ofJoint, levels_eq, childLevels, childLevels, Option.map_some, Option.map_some,
        Option.getD_some, Option.getD_some, ihLeft, ihRight, Rule.depth]
      omega

theorem stored_ofJoint (left : Node) (connective : Connective) (right : Node) :
    (ofJoint left connective right).stored = ofJoint left.stored connective right.stored := by
  rw [ofJoint, stored_eq]
  rfl

theorem stored_ofComparison (c : Comparison) :
    (ofComparison c).stored = ⟨.operand, some c.comparator.symbol, none, none, some c.field,
      (some c.literal).filter Value.isFinite⟩ := by
  rw [ofComparison, stored_eq]
  rfl

theorem comparisonOfParts_symbol (comparator : Comparator) (field : String) (value : Value) :
    comparisonOfParts comparator.symbol (some field) (some value)
      = match value with
        | .string s =>
            if (Value.string s).isQuotable then .ok (.leaf ⟨field, comparator, .string s⟩)
            else .error (.unquotableLiteral s)
        | .number n => .ok (.leaf ⟨field, comparator, .number n⟩) := by
  rw [comparisonOfParts, Comparator.ofSymbol?_symbol]
  rfl

/-- A stored comparison is decoded as itself if its literal can be stored. Otherwise the literal
is missed, because JSON has no number for it, or refused for its quotes. -/
theorem decodeAt_stored_ofComparison (level : Nat) (c : Comparison) :
    (c.literal.IsStorable → decodeAt level (ofComparison c).stored = .ok (.leaf c)) ∧
    (¬ c.literal.IsStorable → ∃ e, decodeAt level (ofComparison c).stored = .error e) := by
  obtain ⟨field, comparator, literal⟩ := c
  rw [stored_ofComparison]
  change (literal.IsStorable → comparisonOfParts comparator.symbol (some field)
      (if literal.isFinite then some literal else none) = _) ∧
    (¬ literal.IsStorable → ∃ e, comparisonOfParts comparator.symbol (some field)
      (if literal.isFinite then some literal else none) = .error e)
  by_cases hfinite : literal.isFinite = true
  · rw [if_pos hfinite, comparisonOfParts_symbol]
    cases literal with
    | number n => exact ⟨fun _ => rfl, fun h => absurd ⟨hfinite, rfl⟩ h⟩
    | string s =>
        dsimp only
        by_cases hquotable : (Value.string s).isQuotable = true
        · rw [if_pos hquotable]
          exact ⟨fun _ => rfl, fun h => absurd ⟨hfinite, hquotable⟩ h⟩
        · rw [if_neg hquotable]
          exact ⟨fun h => absurd h.quotable hquotable, fun _ => ⟨_, rfl⟩⟩
  · rw [if_neg hfinite]
    refine ⟨fun h => absurd h.finite hfinite, fun _ => ?_⟩
    rw [comparisonOfParts, Comparator.ofSymbol?_symbol]
    exact ⟨_, rfl⟩

theorem decodeAt_ofJoint {level : Nat} {left right : Node} {connective : Connective}
    (h : level ≠ Rule.maxDepth) :
    decodeAt level (ofJoint left connective right) = (do
      let leftRule ← decodeAt (level + 1) left
      let rightRule ← decodeAt (level + 1) right
      return .join leftRule connective rightRule) := by
  rw [ofJoint, decodeAt.eq_def]
  dsimp only
  rw [if_neg h, connectiveOf_text, ok_bind]

theorem decodeAt_stored_ofRule {level : Nat} {rule : Rule}
    (hliterals : ∀ c ∈ rule.comparisons, c.literal.IsStorable)
    (hdepth : rule.depth + level ≤ Rule.maxDepth) :
    decodeAt level (ofRule rule).stored = .ok rule := by
  induction rule generalizing level with
  | leaf c =>
      have hliteral := hliterals c (by simp [Rule.comparisons])
      exact (decodeAt_stored_ofComparison level c).1 hliteral
  | join left connective right ihLeft ihRight =>
      rw [Rule.depth] at hdepth
      have hleft := @ihLeft (level + 1) (fun c hc => hliterals c (List.mem_append_left _ hc))
        (by omega)
      have hright := @ihRight (level + 1) (fun c hc => hliterals c (List.mem_append_right _ hc))
        (by omega)
      rw [ofRule, stored_ofJoint, decodeAt_ofJoint (by omega), hleft, hright]
      rfl

end ComparisonRules.Node
