import ComparisonRules.Proofs.Node.Decode
import ComparisonRules.Proofs.Rule.Order

/-!
# Forms of stored rules

A rule is stored in more than one form: a connective is a word in any case, and a comparison may
be kept as a text. All forms of a rule are decoded as that rule, as long as it has the limits that
every decoded rule has.
-/

namespace ComparisonRules.Node

/-- The nodes that a rule may be stored as. What an operator has beside its word and its children
does not matter. -/
inductive Represents : Node → Rule → Prop where
  | parts {c : Comparison} : Represents (ofComparison c) (.leaf c)
  | text {source : String} {c : Comparison} : Rule.compile source = .ok (.leaf c) →
      Represents ⟨.operand, some source, none, none, none, none⟩ (.leaf c)
  | joint {connective : Connective} {word : String} {left right : Node}
      {leftRule rightRule : Rule} {field : Option String} {literal : Option Value} :
      connective.IsSpelling word → Represents left leftRule → Represents right rightRule →
      Represents ⟨.operator, some word, some left, some right, field, literal⟩
        (.join leftRule connective rightRule)

theorem represents_ofRule (rule : Rule) : (ofRule rule).Represents rule := by
  induction rule with
  | leaf c => exact .parts
  | join left connective right ihLeft ihRight =>
      exact .joint connective.isSpelling_text ihLeft ihRight

/-! ## Decoding of forms -/

theorem decodeAt_ofComparison (level : Nat) {c : Comparison}
    (h : c.literal.isQuotable = true) : decodeAt level (ofComparison c) = .ok (.leaf c) := by
  obtain ⟨field, comparator, literal⟩ := c
  change comparisonOfParts comparator.symbol (some field) (some literal) = _
  rw [comparisonOfParts_symbol]
  cases literal with
  | number n => rfl
  | string s => exact if_pos h

theorem decodeAt_text (level : Nat) {source : String} {c : Comparison}
    (h : Rule.compile source = .ok (.leaf c)) :
    decodeAt level ⟨.operand, some source, none, none, none, none⟩ = .ok (.leaf c) := by
  rw [decodeAt.eq_def]
  change (if (true && true && (Comparator.ofSymbol? source).isNone) = true then
    comparisonOfText source else comparisonOfParts source none none) = _
  rw [Rule.ofSymbol?_of_compile h]
  change comparisonOfText source = _
  rw [comparisonOfText, h]

theorem decodeAt_joint {level : Nat} {connective : Connective} {word : String}
    {left right : Node} (field : Option String) (literal : Option Value)
    (hlevel : level ≠ Rule.maxDepth) (hword : connective.IsSpelling word) :
    decodeAt level ⟨.operator, some word, some left, some right, field, literal⟩ = (do
      let leftRule ← decodeAt (level + 1) left
      let rightRule ← decodeAt (level + 1) right
      return .join leftRule connective rightRule) := by
  have hconnective : connectiveOf (some word) = .ok connective := by
    rw [connectiveOf, require, ok_bind, hword.ofWord?]
  rw [decodeAt.eq_def]
  dsimp only
  rw [if_neg hlevel, hconnective, ok_bind]

theorem Represents.decodeAt_eq {node : Node} {rule : Rule} (h : node.Represents rule)
    {level : Nat} (hdepth : rule.depth + level ≤ Rule.maxDepth)
    (hquotable : ∀ c ∈ rule.comparisons, c.literal.isQuotable = true) :
    node.decodeAt level = .ok rule := by
  induction h generalizing level with
  | parts => exact decodeAt_ofComparison level (hquotable _ List.mem_cons_self)
  | text hcompile => exact decodeAt_text level hcompile
  | @joint connective word left right leftRule rightRule field literal hword _ _ ihLeft ihRight =>
      rw [Rule.depth] at hdepth
      rw [Rule.comparisons, List.forall_mem_append] at hquotable
      rw [decodeAt_joint field literal (by omega) hword, ihLeft (by omega) hquotable.1,
        ihRight (by omega) hquotable.2]
      rfl

theorem Represents.toRule_eq {node : Node} {rule : Rule} (h : node.Represents rule)
    (hrule : rule.IsDecodable) : node.toRule = .ok rule :=
  h.decodeAt_eq hrule.depth_le hrule.quotable

end ComparisonRules.Node
