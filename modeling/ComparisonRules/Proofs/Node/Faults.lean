import ComparisonRules.Proofs.Node.Forms

/-!
# Faults of nodes

Which nodes are valid where they stand, and what is wrong with a node that is not. A tree is decoded
if and only if every node that is reached through operators is valid. Otherwise the error is the
fault of the first one that is not, an operator before its children and the left child before the
right.
-/

namespace ComparisonRules

namespace Node

/-- The node is valid below so many operators, as far as it does not depend on its children. -/
inductive ValidAt (level : Nat) : Node → Prop where
  | operator {connective : Connective} {word : String} {left right : Node}
      {field : Option String} {literal : Option Value} :
      level < Rule.maxDepth → connective.IsSpelling word →
      ValidAt level ⟨.operator, some word, some left, some right, field, literal⟩
  | parts {comparator : Comparator} {symbol field : String} {literal : Value} :
      comparator.symbol = symbol → literal.isQuotable = true →
      ValidAt level ⟨.operand, some symbol, none, none, some field, some literal⟩
  | text {source : String} {c : Comparison} :
      (∀ comparator : Comparator, comparator.symbol ≠ source) →
      Rule.compile source = .ok (.leaf c) →
      ValidAt level ⟨.operand, some source, none, none, none, none⟩

/-- What is wrong with a node below so many operators. The conditions of a fault leave out those
that are looked for before it: the depth, the word of the connective, the left child and the right
one of an operator; the children, the text, the comparator, the field, the literal and its quotes
of an operand. -/
inductive FaultAt (level : Nat) : Node → DecodeError → Prop where
  | tooDeep {value : Option String} {left right : Option Node} {field : Option String}
      {literal : Option Value} :
      Rule.maxDepth ≤ level →
      FaultAt level ⟨.operator, value, left, right, field, literal⟩ .tooDeep
  | noWord {left right : Option Node} {field : Option String} {literal : Option Value} :
      level < Rule.maxDepth →
      FaultAt level ⟨.operator, none, left, right, field, literal⟩ (.missingPart .value)
  | unknownOperator {word : String} {left right : Option Node} {field : Option String}
      {literal : Option Value} :
      level < Rule.maxDepth → (∀ connective : Connective, ¬ connective.IsSpelling word) →
      FaultAt level ⟨.operator, some word, left, right, field, literal⟩ (.unknownOperator word)
  | noLeft {connective : Connective} {word : String} {right : Option Node}
      {field : Option String} {literal : Option Value} :
      level < Rule.maxDepth → connective.IsSpelling word →
      FaultAt level ⟨.operator, some word, none, right, field, literal⟩ (.missingChild word .left)
  | noRight {connective : Connective} {word : String} {left : Node}
      {field : Option String} {literal : Option Value} :
      level < Rule.maxDepth → connective.IsSpelling word →
      FaultAt level ⟨.operator, some word, some left, none, field, literal⟩
        (.missingChild word .right)
  | children {value : Option String} {left right : Option Node} {field : Option String}
      {literal : Option Value} :
      left ≠ none ∨ right ≠ none →
      FaultAt level ⟨.operand, value, left, right, field, literal⟩ .unexpectedChildren
  | noText {field : Option String} {literal : Option Value} :
      FaultAt level ⟨.operand, none, none, none, field, literal⟩ (.missingPart .value)
  | notARule {source : String} {e : CompileError} :
      (∀ comparator : Comparator, comparator.symbol ≠ source) → Rule.compile source = .error e →
      FaultAt level ⟨.operand, some source, none, none, none, none⟩
        (.invalidOperandText source (.notARule e))
  | notSingle {source : String} {left right : Rule} {connective : Connective} :
      (∀ comparator : Comparator, comparator.symbol ≠ source) →
      Rule.compile source = .ok (.join left connective right) →
      FaultAt level ⟨.operand, some source, none, none, none, none⟩
        (.invalidOperandText source .notSingle)
  | unknownComparator {symbol : String} {field : Option String} {literal : Option Value} :
      (∀ comparator : Comparator, comparator.symbol ≠ symbol) → field ≠ none ∨ literal ≠ none →
      FaultAt level ⟨.operand, some symbol, none, none, field, literal⟩
        (.unknownComparator symbol)
  | noField {comparator : Comparator} {symbol : String} {literal : Option Value} :
      comparator.symbol = symbol →
      FaultAt level ⟨.operand, some symbol, none, none, none, literal⟩ (.missingPart .field)
  | noLiteral {comparator : Comparator} {symbol field : String} :
      comparator.symbol = symbol →
      FaultAt level ⟨.operand, some symbol, none, none, some field, none⟩ (.missingPart .literal)
  | unquotable {comparator : Comparator} {symbol field s : String} :
      comparator.symbol = symbol → (Value.string s).isQuotable = false →
      FaultAt level ⟨.operand, some symbol, none, none, some field, some (.string s)⟩
        (.unquotableLiteral s)

/-- The nodes that are reached through operators, each with the number of operators above it, an
operator before its children and the left child before the right. -/
def reached (level : Nat) : Node → List (Nat × Node)
  | ⟨.operator, value, left, right, field, literal⟩ =>
      (level, ⟨.operator, value, left, right, field, literal⟩) ::
        ((match left with
          | none => []
          | some child => child.reached (level + 1)) ++
        match right with
          | none => []
          | some child => child.reached (level + 1))
  | ⟨.operand, value, left, right, field, literal⟩ =>
      [(level, ⟨.operand, value, left, right, field, literal⟩)]

/-! ## One node -/

theorem connectiveOf_of_isSpelling {connective : Connective} {word : String}
    (h : connective.IsSpelling word) : connectiveOf (some word) = .ok connective := by
  rw [connectiveOf, require, ok_bind, h.ofWord?]

theorem ofWord?_eq_none {word : String}
    (h : ∀ connective : Connective, ¬ connective.IsSpelling word) :
    Connective.ofWord? word = none := by
  cases hword : Connective.ofWord? word with
  | none => rfl
  | some connective => exact absurd (Connective.isSpelling_of_ofWord? hword) (h connective)

theorem ofSymbol?_eq_none {text : String}
    (h : ∀ comparator : Comparator, comparator.symbol ≠ text) :
    Comparator.ofSymbol? text = none := by
  cases hsymbol : Comparator.ofSymbol? text with
  | none => rfl
  | some comparator => exact absurd (Comparator.symbol_of_ofSymbol? hsymbol) (h comparator)

section

variable {level : Nat} {node : Node} {e : DecodeError}

theorem FaultAt.not_validAt (h : FaultAt level node e) : ¬ ValidAt level node := by
  intro hvalid
  cases hvalid with
  | operator hlevel hword =>
      cases h with
      | tooDeep hdeep => omega
      | unknownOperator _ hnone => exact hnone _ hword
  | parts hsymbol hquotable =>
      cases h with
      | children hchildren => simp at hchildren
      | unknownComparator hsource _ => exact hsource _ hsymbol
      | unquotable _ hquotes => simp [hquotes] at hquotable
  | text hsource hcompile =>
      cases h with
      | children hchildren => simp at hchildren
      | notARule _ herror => simp [hcompile] at herror
      | notSingle _ hjoin => simp [hcompile] at hjoin
      | unknownComparator _ hparts => simp at hparts
      | noField hsymbol => exact hsource _ hsymbol

theorem operator_validAt_or_faultAt (level : Nat) (value : Option String)
    (left right : Option Node) (field : Option String) (literal : Option Value) :
    ValidAt level ⟨.operator, value, left, right, field, literal⟩ ∨
      ∃ e, FaultAt level ⟨.operator, value, left, right, field, literal⟩ e := by
  by_cases hlevel : level < Rule.maxDepth
  · cases value with
    | none => exact .inr ⟨_, .noWord hlevel⟩
    | some word =>
        by_cases hword : ∃ connective : Connective, connective.IsSpelling word
        · obtain ⟨connective, hword⟩ := hword
          cases left with
          | none => exact .inr ⟨_, .noLeft hlevel hword⟩
          | some left =>
              cases right with
              | none => exact .inr ⟨_, .noRight hlevel hword⟩
              | some right => exact .inl (.operator hlevel hword)
        · exact .inr ⟨_, .unknownOperator hlevel (not_exists.mp hword)⟩
  · exact .inr ⟨_, .tooDeep (Nat.le_of_not_lt hlevel)⟩

theorem parts_validAt_or_faultAt (level : Nat) {comparator : Comparator} {symbol : String}
    (hsymbol : comparator.symbol = symbol) (field : Option String) (literal : Option Value) :
    ValidAt level ⟨.operand, some symbol, none, none, field, literal⟩ ∨
      ∃ e, FaultAt level ⟨.operand, some symbol, none, none, field, literal⟩ e := by
  cases field with
  | none => exact .inr ⟨_, .noField hsymbol⟩
  | some field =>
      cases literal with
      | none => exact .inr ⟨_, .noLiteral hsymbol⟩
      | some literal =>
          cases hquotable : literal.isQuotable with
          | true => exact .inl (.parts hsymbol hquotable)
          | false =>
              cases literal with
              | number n => cases hquotable
              | string s => exact .inr ⟨_, .unquotable hsymbol hquotable⟩

theorem source_validAt_or_faultAt (level : Nat) {source : String}
    (hsource : ∀ comparator : Comparator, comparator.symbol ≠ source) :
    ValidAt level ⟨.operand, some source, none, none, none, none⟩ ∨
      ∃ e, FaultAt level ⟨.operand, some source, none, none, none, none⟩ e := by
  cases hcompile : Rule.compile source with
  | error e => exact .inr ⟨_, .notARule hsource hcompile⟩
  | ok rule =>
      cases rule with
      | leaf c => exact .inl (.text hsource hcompile)
      | join left connective right => exact .inr ⟨_, .notSingle hsource hcompile⟩

theorem validAt_or_faultAt (level : Nat) (node : Node) :
    ValidAt level node ∨ ∃ e, FaultAt level node e := by
  obtain ⟨kind, value, left, right, field, literal⟩ := node
  cases kind with
  | operator => exact operator_validAt_or_faultAt level value left right field literal
  | operand =>
      by_cases hchildren : left ≠ none ∨ right ≠ none
      · exact .inr ⟨_, .children hchildren⟩
      · obtain ⟨rfl, rfl⟩ : left = none ∧ right = none := by simpa using hchildren
        cases value with
        | none => exact .inr ⟨_, .noText⟩
        | some text =>
            by_cases hsymbol : ∃ comparator : Comparator, comparator.symbol = text
            · obtain ⟨comparator, hsymbol⟩ := hsymbol
              exact parts_validAt_or_faultAt level hsymbol field literal
            · have hsource := not_exists.mp hsymbol
              by_cases hparts : field ≠ none ∨ literal ≠ none
              · exact .inr ⟨_, .unknownComparator hsource hparts⟩
              · obtain ⟨rfl, rfl⟩ : field = none ∧ literal = none := by simpa using hparts
                exact source_validAt_or_faultAt level hsource

/-! ## Decoding one node -/

theorem decodeAt_operator_eq {value : Option String} {left right : Option Node}
    {field : Option String} {literal : Option Value} (h : level < Rule.maxDepth) :
    decodeAt level ⟨.operator, value, left, right, field, literal⟩ = (do
      let connective ← connectiveOf value
      match left, right with
      | none, _ => .error (.missingChild (value.getD "") .left)
      | some _, none => .error (.missingChild (value.getD "") .right)
      | some left, some right => do
          let leftRule ← decodeAt (level + 1) left
          let rightRule ← decodeAt (level + 1) right
          return .join leftRule connective rightRule) :=
  (decodeAt.eq_1 ..).trans (if_neg (Nat.ne_of_lt h))

theorem decodeAt_source {source : String}
    (h : ∀ comparator : Comparator, comparator.symbol ≠ source) :
    decodeAt level ⟨.operand, some source, none, none, none, none⟩ = comparisonOfText source := by
  simp [decodeAt.eq_2, decodeOperand, require, ofSymbol?_eq_none h]

theorem decodeAt_parts {symbol : String} {field : Option String} {literal : Option Value}
    (h : (field ≠ none ∨ literal ≠ none) ∨ Comparator.ofSymbol? symbol ≠ none) :
    decodeAt level ⟨.operand, some symbol, none, none, field, literal⟩
      = comparisonOfParts symbol field literal := by
  have hparts :
      ¬ (field.isNone && literal.isNone && (Comparator.ofSymbol? symbol).isNone) = true := by
    simp only [Bool.and_eq_true, Option.isNone_iff_eq_none]
    rintro ⟨⟨hfield, hliteral⟩, hsymbol⟩
    exact h.elim (·.elim (· hfield) (· hliteral)) (· hsymbol)
  rw [decodeAt.eq_2]
  exact if_neg hparts

theorem decodeAt_symbol (comparator : Comparator) (field : Option String)
    (literal : Option Value) :
    decodeAt level ⟨.operand, some comparator.symbol, none, none, field, literal⟩
      = comparisonOfParts comparator.symbol field literal :=
  decodeAt_parts (.inr (by simp [Comparator.ofSymbol?_symbol]))

theorem FaultAt.decodeAt_eq (hlevel : level ≤ Rule.maxDepth) (h : FaultAt level node e) :
    node.decodeAt level = .error e := by
  cases h with
  | tooDeep hdeep => rw [decodeAt.eq_1, if_pos (Nat.le_antisymm hlevel hdeep)]
  | noWord hwithin =>
      rw [decodeAt_operator_eq hwithin]
      rfl
  | unknownOperator hwithin hword =>
      rw [decodeAt_operator_eq hwithin, connectiveOf, require, ok_bind, ofWord?_eq_none hword]
      rfl
  | noLeft hwithin hword =>
      rw [decodeAt_operator_eq hwithin, connectiveOf_of_isSpelling hword]
      rfl
  | noRight hwithin hword =>
      rw [decodeAt_operator_eq hwithin, connectiveOf_of_isSpelling hword]
      rfl
  | @children value left right field literal hchildren =>
      have hpresent : (left.isSome || right.isSome) = true := by
        cases left <;> cases right <;> simp_all
      rw [decodeAt.eq_2, hpresent]
      rfl
  | noText => rfl
  | notARule hsource hcompile => rw [decodeAt_source hsource, comparisonOfText, hcompile]
  | notSingle hsource hcompile => rw [decodeAt_source hsource, comparisonOfText, hcompile]
  | unknownComparator hsource hparts =>
      rw [decodeAt_parts (.inl hparts), comparisonOfParts, ofSymbol?_eq_none hsource]
  | noField hsymbol =>
      rw [← hsymbol, decodeAt_symbol, comparisonOfParts, Comparator.ofSymbol?_symbol]
      rfl
  | noLiteral hsymbol =>
      rw [← hsymbol, decodeAt_symbol, comparisonOfParts, Comparator.ofSymbol?_symbol]
      rfl
  | unquotable hsymbol hquotes =>
      rw [← hsymbol, decodeAt_symbol, comparisonOfParts_symbol]
      exact if_neg (by simp [hquotes])

theorem ValidAt.decodeAt_operand {value : Option String} {left right : Option Node}
    {field : Option String} {literal : Option Value}
    (h : ValidAt level ⟨.operand, value, left, right, field, literal⟩) :
    ∃ c, decodeAt level ⟨.operand, value, left, right, field, literal⟩ = .ok (.leaf c) ∧
      Represents ⟨.operand, value, left, right, field, literal⟩ (.leaf c) := by
  cases h with
  | @parts comparator _ field literal hsymbol hquotable =>
      subst hsymbol
      have hdecode := @decodeAt_ofComparison level ⟨field, comparator, literal⟩ hquotable
      exact ⟨_, hdecode, @Represents.parts ⟨field, comparator, literal⟩⟩
  | text hsource hcompile => exact ⟨_, decodeAt_text level hcompile, .text hcompile⟩

end

/-! ## Trees of nodes -/

theorem exists_reached_eq_cons (level : Nat) (node : Node) :
    ∃ others, node.reached level = (level, node) :: others := by
  obtain ⟨kind, value, left, right, field, literal⟩ := node
  cases kind <;> rw [reached.eq_def] <;> exact ⟨_, rfl⟩

/-- Of the nodes that are reached from the root, this one is the first that is not valid. -/
def FirstInvalid (level : Nat) (root : Node) (place : Nat) (node : Node) : Prop :=
  ∃ front back, root.reached level = front ++ (place, node) :: back ∧
    (∀ entry ∈ front, ValidAt entry.1 entry.2) ∧ ¬ ValidAt place node

theorem firstInvalid_root {level : Nat} {root : Node} (h : ¬ ValidAt level root) :
    FirstInvalid level root level root := by
  obtain ⟨others, hreached⟩ := exists_reached_eq_cons level root
  exact ⟨[], others, hreached, by simp, h⟩

open Classical in
theorem FirstInvalid.find?_eq {level place : Nat} {root node : Node}
    (h : FirstInvalid level root place node) :
    (root.reached level).find? (fun entry => ¬ ValidAt entry.1 entry.2) = some (place, node) := by
  obtain ⟨front, back, hreached, hfront, hnode⟩ := h
  rw [List.find?_eq_some_iff_append]
  exact ⟨by simpa using hnode, front, back, hreached, by simpa using hfront⟩

theorem FirstInvalid.unique {level place place' : Nat} {root node node' : Node}
    (h : FirstInvalid level root place node) (h' : FirstInvalid level root place' node') :
    place = place' ∧ node = node' := by
  have heq := h.find?_eq.symm.trans h'.find?_eq
  rwa [Option.some.injEq, Prod.mk.injEq] at heq

theorem FirstInvalid.not_forall {level place : Nat} {root node : Node}
    (h : FirstInvalid level root place node) :
    ¬ ∀ entry ∈ root.reached level, ValidAt entry.1 entry.2 := by
  obtain ⟨front, back, hreached, -, hnode⟩ := h
  intro hvalid
  exact hnode (hvalid (place, node) (by simp [hreached]))

section

variable {level place : Nat} {word : String} {left right node : Node} {field : Option String}
  {literal : Option Value}

theorem reached_operator :
    reached level ⟨.operator, some word, some left, some right, field, literal⟩
      = (level, ⟨.operator, some word, some left, some right, field, literal⟩)
        :: (left.reached (level + 1) ++ right.reached (level + 1)) := by
  rw [reached]

theorem FirstInvalid.of_left
    (hroot : ValidAt level ⟨.operator, some word, some left, some right, field, literal⟩)
    (h : FirstInvalid (level + 1) left place node) :
    FirstInvalid level ⟨.operator, some word, some left, some right, field, literal⟩ place
      node := by
  obtain ⟨front, back, hreached, hfront, hnode⟩ := h
  refine ⟨(level, ⟨.operator, some word, some left, some right, field, literal⟩) :: front,
    back ++ right.reached (level + 1), ?_, List.forall_mem_cons.mpr ⟨hroot, hfront⟩, hnode⟩
  rw [reached_operator, hreached, List.append_assoc]
  rfl

theorem FirstInvalid.of_right
    (hroot : ValidAt level ⟨.operator, some word, some left, some right, field, literal⟩)
    (hleft : ∀ entry ∈ left.reached (level + 1), ValidAt entry.1 entry.2)
    (h : FirstInvalid (level + 1) right place node) :
    FirstInvalid level ⟨.operator, some word, some left, some right, field, literal⟩ place
      node := by
  obtain ⟨front, back, hreached, hfront, hnode⟩ := h
  refine ⟨(level, ⟨.operator, some word, some left, some right, field, literal⟩)
      :: (left.reached (level + 1) ++ front), back, ?_,
    List.forall_mem_cons.mpr ⟨hroot, List.forall_mem_append.mpr ⟨hleft, hfront⟩⟩, hnode⟩
  rw [reached_operator, hreached, List.cons_append, List.append_assoc]

end

/-- What comes of decoding a tree: a rule that it represents if every node that is reached is
valid, and otherwise the fault of the first one that is not. -/
def Outcome (level : Nat) (root : Node) : Prop :=
  (∃ rule, root.decodeAt level = .ok rule ∧ root.Represents rule ∧
    ∀ entry ∈ root.reached level, ValidAt entry.1 entry.2) ∨
  ∃ e place node, root.decodeAt level = .error e ∧ FirstInvalid level root place node ∧
    place ≤ Rule.maxDepth ∧ FaultAt place node e

theorem outcome_of_faultAt {level : Nat} {root : Node} {e : DecodeError}
    (hlevel : level ≤ Rule.maxDepth) (h : FaultAt level root e) : Outcome level root :=
  .inr ⟨e, level, root, h.decodeAt_eq hlevel, firstInvalid_root h.not_validAt, hlevel, h⟩

theorem outcome_operator {level : Nat} {connective : Connective} {word : String}
    {left right : Node} {field : Option String} {literal : Option Value}
    (hlevel : level < Rule.maxDepth) (hword : connective.IsSpelling word)
    (hleft : Outcome (level + 1) left) (hright : Outcome (level + 1) right) :
    Outcome level ⟨.operator, some word, some left, some right, field, literal⟩ := by
  have hroot : ValidAt level ⟨.operator, some word, some left, some right, field, literal⟩ :=
    .operator hlevel hword
  have hdecode := @decodeAt_joint level connective word left right field literal
    (Nat.ne_of_lt hlevel) hword
  rcases hleft with ⟨leftRule, hleftRule, hleftForm, hleftValid⟩ |
    ⟨e, place, node, herror, hfirst, hfault⟩
  · rcases hright with ⟨rightRule, hrightRule, hrightForm, hrightValid⟩ |
      ⟨e, place, node, herror, hfirst, hfault⟩
    · refine .inl ⟨.join leftRule connective rightRule, ?_, .joint hword hleftForm hrightForm, ?_⟩
      · rw [hdecode, hleftRule, hrightRule]
        rfl
      · rw [reached_operator, List.forall_mem_cons, List.forall_mem_append]
        exact ⟨hroot, hleftValid, hrightValid⟩
    · refine .inr ⟨e, place, node, ?_, hfirst.of_right hroot hleftValid, hfault⟩
      rw [hdecode, hleftRule, herror]
      rfl
  · refine .inr ⟨e, place, node, ?_, hfirst.of_left hroot, hfault⟩
    rw [hdecode, herror]
    rfl

theorem outcome_of_le {level : Nat} {root : Node} (hlevel : level ≤ Rule.maxDepth) :
    Outcome level root := by
  -- along the decoder, which passes valid operators only
  induction level, root using decodeAt.induct with
  | case1 value left right field literal =>
      exact outcome_of_faultAt hlevel (.tooDeep (Nat.le_refl _))
  | case2 level value left right field literal hne ih =>
      rcases validAt_or_faultAt level ⟨.operator, value, left, right, field, literal⟩ with
        hvalid | ⟨e, hfault⟩
      · cases hvalid with
        | operator hwithin hword =>
            exact outcome_operator hwithin hword (ih.1 hwithin) (ih.2 hwithin)
      · exact outcome_of_faultAt hlevel hfault
  | case3 level value left right field literal =>
      rcases validAt_or_faultAt level ⟨.operand, value, left, right, field, literal⟩ with
        hvalid | ⟨e, hfault⟩
      · obtain ⟨c, hdecode, hform⟩ := hvalid.decodeAt_operand
        refine .inl ⟨_, hdecode, hform, ?_⟩
        rw [reached, List.forall_mem_singleton]
        exact hvalid
      · exact outcome_of_faultAt hlevel hfault

/-- A tree of nodes is decoded if and only if every node that is reached through operators is valid
where it stands, and then as a rule of the same shape with the same connectives and comparisons. It
is refused with an error if and only if that is the fault of the first node that is not valid. -/
theorem toRule_iff_valid_or_firstInvalid (root : Node) :
    ((∃ rule, root.toRule = .ok rule) ↔
      ∀ entry ∈ root.reached 0, ValidAt entry.1 entry.2) ∧
    (∀ rule, root.toRule = .ok rule → root.Represents rule) ∧
    ∀ e, root.toRule = .error e ↔
      ∃ place node, FirstInvalid 0 root place node ∧ FaultAt place node e := by
  have houtcome : Outcome 0 root := outcome_of_le (Nat.zero_le _)
  unfold toRule
  rcases houtcome with ⟨rule, hrule, hform, hvalid⟩ |
    ⟨e, place, node, herror, hfirst, hplace, hfault⟩
  · refine ⟨⟨fun _ => hvalid, fun _ => ⟨rule, hrule⟩⟩, ?_, ?_⟩
    · intro found hfound
      rw [hrule] at hfound
      cases hfound
      exact hform
    · intro e
      constructor
      · intro herror
        rw [hrule] at herror
        cases herror
      · rintro ⟨place, node, hfirst, -⟩
        exact absurd hvalid hfirst.not_forall
  · have hnone (rule : Rule) : root.decodeAt 0 ≠ .ok rule := by
      rw [herror]
      exact nofun
    refine ⟨⟨?_, fun hvalid => absurd hvalid hfirst.not_forall⟩,
      fun rule hrule => absurd hrule (hnone rule), ?_⟩
    · rintro ⟨rule, hrule⟩
      exact absurd hrule (hnone rule)
    · intro e'
      constructor
      · intro herror'
        rw [herror] at herror'
        cases herror'
        exact ⟨place, node, hfirst, hfault⟩
      · rintro ⟨place', node', hfirst', hfault'⟩
        obtain ⟨rfl, rfl⟩ := hfirst.unique hfirst'
        have hsame := (hfault.decodeAt_eq hplace).symm.trans (hfault'.decodeAt_eq hplace)
        cases hsame
        exact herror

/-- Two nodes at fault, a comparator without a field and an unknown operator: the one on the left
is told of, though it lies deeper. Alone, the text beside it is a comparison. -/
theorem toRule_iff_valid_or_firstInvalid_two_faults :
    toRule ⟨.operator, some "oR", some ⟨.operator, some "and",
        some ⟨.operand, some "'x' == a", none, none, none, none⟩,
        some ⟨.operand, some "==", none, none, none, none⟩, none, none⟩,
      some ⟨.operator, some "xor", none, none, none, none⟩, some "unread", none⟩
      = .error (.missingPart .field) ∧
    ∃ rule, toRule ⟨.operand, some "'x' == a", none, none, none, none⟩ = .ok rule ∧
      Represents ⟨.operand, some "'x' == a", none, none, none, none⟩ rule := by
  have hsource : ∀ comparator : Comparator, comparator.symbol ≠ "'x' == a" := by
    intro comparator
    cases comparator <;> decide
  have hcompile : Rule.compile "'x' == a" = .ok (.leaf ⟨"a", .equal, .string "x"⟩) := by
    decide +kernel
  have htext (level : Nat) :
      ∀ entry ∈ reached level ⟨.operand, some "'x' == a", none, none, none, none⟩,
        ValidAt entry.1 entry.2 := by
    rw [reached, List.forall_mem_singleton]
    exact .text hsource hcompile
  have hfault : FaultAt 2 ⟨.operand, some "==", none, none, none, none⟩ (.missingPart .field) :=
    @FaultAt.noField 2 .equal "==" none rfl
  constructor
  · have hinner := (firstInvalid_root hfault.not_validAt).of_right
      (@ValidAt.operator 1 .and "and" _ _ none none (by decide) (by decide)) (htext 2)
    have hroot := hinner.of_left (@ValidAt.operator 0 .or "oR" _
      ⟨.operator, some "xor", none, none, none, none⟩ (some "unread") none (by decide)
        (by decide))
    exact ((toRule_iff_valid_or_firstInvalid _).2.2 _).mpr ⟨_, _, hroot, hfault⟩
  · obtain ⟨hiff, hform, -⟩ := toRule_iff_valid_or_firstInvalid
      ⟨.operand, some "'x' == a", none, none, none, none⟩
    obtain ⟨rule, hrule⟩ := hiff.mpr (htext 0)
    exact ⟨rule, hrule, hform rule hrule⟩

end Node

end ComparisonRules
