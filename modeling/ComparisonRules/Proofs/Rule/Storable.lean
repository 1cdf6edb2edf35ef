import ComparisonRules.Proofs.Node.Json
import ComparisonRules.Proofs.Rule.Text
import ComparisonRules.Rule.Combine

/-!
# Rules that can be stored

JSON has no numbers that are not finite, a stored tree is not deeper than a rule may be, and a
string literal must have a quote to be written with. Compiling and joining keep to all three.
Unlike the text of a rule, its stored tree takes any field name and numbers of either sign.
-/

namespace ComparisonRules

/-- A literal that is stored and read back. -/
structure Value.IsStorable (value : Value) : Prop where
  finite : value.isFinite = true
  quotable : value.isQuotable = true

/-- A rule that is stored and read back: it is not too deep, and all its literals are. -/
structure Rule.IsStorable (rule : Rule) : Prop where
  depth_le : rule.depth ≤ Rule.maxDepth
  literals : ∀ c ∈ rule.comparisons, c.literal.IsStorable

/-- A rule within the limits of decoding, which does not look at its names and numbers. -/
structure Rule.IsDecodable (rule : Rule) : Prop where
  depth_le : rule.depth ≤ Rule.maxDepth
  quotable : ∀ c ∈ rule.comparisons, c.literal.isQuotable = true

theorem Rule.IsStorable.isDecodable {rule : Rule} (h : rule.IsStorable) : rule.IsDecodable :=
  ⟨h.depth_le, fun c hc => (h.literals c hc).quotable⟩

theorem Value.IsWritable.isStorable {value : Value} (h : value.IsWritable) :
    value.IsStorable := by
  cases value with
  | number n =>
      refine ⟨?_, rfl⟩
      cases n with
      | nan => cases h
      | signed negative m =>
          cases negative with
          | true => cases h
          | false => exact h
  | string s =>
      refine ⟨rfl, ?_⟩
      change ¬ (Text.singleQuote ∈ s.toList ∧ Text.doubleQuote ∈ s.toList) at h
      by_cases hsingle : Text.singleQuote ∈ s.toList
      · have hdouble : Text.doubleQuote ∉ s.toList := fun hmem => h ⟨hsingle, hmem⟩
        simp [isQuotable, mentions, hdouble]
      · simp [isQuotable, mentions, hsingle]

namespace Rule

theorem isStorable_leaf {c : Comparison} (h : c.literal.IsStorable) : (leaf c).IsStorable := by
  refine ⟨Nat.zero_le _, ?_⟩
  intro c' hc'
  rw [List.mem_singleton.mp hc']
  exact h

theorem isStorable_join {left right : Rule} {connective : Connective} (hleft : left.IsStorable)
    (hright : right.IsStorable) (hdepth : (join left connective right).depth ≤ maxDepth) :
    (join left connective right).IsStorable := by
  refine ⟨hdepth, ?_⟩
  intro c hc
  rcases List.mem_append.mp hc with hc | hc
  · exact hleft.literals c hc
  · exact hright.literals c hc

theorem isStorable_of_compile {text : String} {rule : Rule} (h : compile text = .ok rule) :
    rule.IsStorable := by
  have hrule := isRepresentable_of_compile h
  exact ⟨hrule.depth_le, fun c hc => (hrule.writable c hc).literal.isStorable⟩

theorem isStorable_of_combineOnto {connective : Connective} {combined result : Rule}
    {index : Nat} {rules : List Rule} (hcombined : combined.IsStorable)
    (hrules : ∀ rule ∈ rules, rule.IsStorable)
    (h : combineOnto connective combined combined.depth index rules = .ok result) :
    result.IsStorable := by
  -- the depth carried along is that of what has been joined, so the limit holds for the rule
  induction rules generalizing combined index with
  | nil =>
      cases h
      exact hcombined
  | cons rule rest ih =>
      rw [combineOnto] at h
      by_cases hdeep : maxDepth < 1 + max combined.depth rule.depth
      · rw [if_pos hdeep] at h
        cases h
      · rw [if_neg hdeep] at h
        have hrule := hrules rule List.mem_cons_self
        have hdepth : (join combined connective rule).depth ≤ maxDepth := by
          rw [depth]
          omega
        refine ih (isStorable_join hcombined hrule hdepth) ?_ h
        intro other hother
        exact hrules other (List.mem_cons_of_mem _ hother)

theorem isStorable_of_combineAll {connective : Connective} {rules : List Rule} {result : Rule}
    (hrules : ∀ rule ∈ rules, rule.IsStorable) (h : combineAll connective rules = .ok result) :
    result.IsStorable := by
  cases rules with
  | nil => cases h
  | cons first rest =>
      refine isStorable_of_combineOnto (hrules first List.mem_cons_self) ?_ h
      intro rule hrule
      exact hrules rule (List.mem_cons_of_mem _ hrule)

end Rule

end ComparisonRules
