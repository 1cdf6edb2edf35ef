import ComparisonRules.Proofs.Outcome
import ComparisonRules.Rule.Evaluate

/-!
# Evaluation and Boolean value

Evaluation goes from left to right, leaves out what the left side settles, and stops at the
first comparison that fails. The Boolean value of a rule knows neither order nor failure: it
needs a truth value for every comparison. A result of evaluation is the Boolean value under
every choice of truth values for the comparisons that fail, so rewriting a rule as Boolean
logic allows can make a failure come up or go away, but cannot change a result.
-/

namespace ComparisonRules

/-! ## Equal comparisons -/

theorem Number.position?_of_equals {a b : Number} (h : a.equals b = true) :
    a.position? = b.position? := by
  unfold equals compare? at h
  split at h
  · rename_i p q ha hb
    have hcompare : compare p q = .eq := by simpa using h
    rw [ha, hb, Std.LawfulEqCmp.eq_of_compare hcompare]
  · cases h

theorem Value.compare?_of_equals {a b : Value} (h : a.equals b = true) (value : Value) :
    value.compare? a = value.compare? b := by
  cases a with
  | number n =>
      cases b with
      | string _ => cases h
      | number m =>
          have hposition : n.position? = m.position? := Number.position?_of_equals h
          cases value with
          | string _ => rfl
          | number k => simp only [compare?, Number.compare?, hposition]
  | string s =>
      cases b with
      | number _ => cases h
      | string t =>
          have hst : s = t := by simpa [equals] using h
          rw [hst]

theorem Value.typeName_of_equals {a b : Value} (h : a.equals b = true) :
    a.typeName = b.typeName := by
  cases a <;> cases b <;> first | rfl | cases h

theorem Comparison.holds_of_equals {c d : Comparison} (h : c.equals d = true)
    (record : Record) : c.holds record = d.holds record := by
  obtain ⟨field, comparator, literal⟩ := c
  obtain ⟨field', comparator', literal'⟩ := d
  simp only [equals, Bool.and_eq_true, beq_iff_eq] at h
  obtain ⟨⟨rfl, rfl⟩, hliteral⟩ := h
  simp only [holds, Value.compare?_of_equals hliteral, Value.typeName_of_equals hliteral]

/-! ## Comparisons on a record -/

namespace Comparison

section

variable {record : Record} {field : String} {value literal : Value}

theorem holds_of_missing (h : record.get? field = none) (comparator : Comparator) :
    holds ⟨field, comparator, literal⟩ record = .error (.unknownField field) := by
  simp only [holds, h]

theorem holds_of_compare?_eq_some {found : Option Ordering} (h : record.get? field = some value)
    (hcompare : value.compare? literal = some found) (comparator : Comparator) :
    holds ⟨field, comparator, literal⟩ record = .ok (comparator.accepts found) := by
  simp only [holds, h, hcompare]

theorem holds_of_compare?_eq_none (h : record.get? field = some value)
    (hcompare : value.compare? literal = none) (comparator : Comparator) :
    holds ⟨field, comparator, literal⟩ record =
      if comparator.isOrdering then
        .error (.typeMismatch field comparator literal.typeName value.typeName)
      else .ok (comparator.accepts none) := by
  simp only [holds, h, hcompare]

end

end Comparison

namespace Rule

/-! ## Evaluation, step by step -/

section

variable {record : Record} {traced : Bool}

theorem evaluate_leaf (c : Comparison) :
    (leaf c).evaluate record traced = (do
      let result ← c.holds record
      return ⟨result, if traced then [c.traceLine result] else []⟩) := by
  unfold evaluate evaluateTraced
  cases c.holds record <;> rfl

theorem evaluate_join (left right : Rule) (connective : Connective) :
    (join left connective right).evaluate record traced = (do
      let first ← left.evaluate record traced
      if connective.settledBy first.matched then return first
      let second ← right.evaluate record traced
      return ⟨second.matched, first.trace ++ second.trace⟩) := by
  unfold evaluate
  rw [evaluateTraced]
  cases left.evaluateTraced record with
  | error e => rfl
  | ok first =>
      simp only [ok_bind, pure_eq_ok]
      by_cases hsettled : connective.settledBy first.matched = true
      · simp [hsettled]
      · cases right.evaluateTraced record with
        | error e => simp [hsettled]
        | ok second => cases traced <;> simp [hsettled]

theorem evaluate_leaf_eq_ok {c : Comparison} {evaluation : Evaluation} :
    (leaf c).evaluate record traced = .ok evaluation ↔
      ∃ result, c.holds record = .ok result ∧
        evaluation = ⟨result, if traced then [c.traceLine result] else []⟩ := by
  rw [evaluate_leaf, bind_eq_ok]
  simp only [pure_eq_ok, Except.ok.injEq, eq_comm (a := evaluation)]

theorem evaluate_leaf_eq_error {c : Comparison} {e : EvalError} :
    (leaf c).evaluate record traced = .error e ↔ c.holds record = .error e := by
  rw [evaluate_leaf]
  cases c.holds record <;> simp

theorem evaluate_join_eq_ok {left right : Rule} {connective : Connective}
    {evaluation : Evaluation} :
    (join left connective right).evaluate record traced = .ok evaluation ↔
      ∃ first, left.evaluate record traced = .ok first ∧
        ((connective.settledBy first.matched = true ∧ evaluation = first) ∨
          (connective.settledBy first.matched = false ∧
            ∃ second, right.evaluate record traced = .ok second ∧
              evaluation = ⟨second.matched, first.trace ++ second.trace⟩)) := by
  rw [evaluate_join, bind_eq_ok]
  refine exists_congr fun first => and_congr_right fun _ => ?_
  cases hsettled : connective.settledBy first.matched with
  | true => simp [eq_comm]
  | false => simp [bind_eq_ok, eq_comm (b := evaluation)]

theorem evaluate_join_eq_error {left right : Rule} {connective : Connective} {e : EvalError} :
    (join left connective right).evaluate record traced = .error e ↔
      left.evaluate record traced = .error e ∨
        ∃ first, left.evaluate record traced = .ok first ∧
          connective.settledBy first.matched = false ∧
          right.evaluate record traced = .error e := by
  rw [evaluate_join]
  cases left.evaluate record traced with
  | error e' => simp
  | ok first =>
      by_cases hsettled : connective.settledBy first.matched = true
      · simp [hsettled]
      · cases right.evaluate record traced <;> simp [hsettled]

end

/-! ## Boolean values -/

/-- The Boolean value of a rule whose comparisons have the given truth values. -/
def value (assignment : Comparison → Bool) : Rule → Bool
  | leaf c => assignment c
  | join left connective right =>
      connective.apply (left.value assignment) (right.value assignment)

/-- The assignment has the result of every comparison of the rule that has one on the record.
It may have anything for a comparison that fails. -/
def Completes (record : Record) (assignment : Comparison → Bool) (rule : Rule) : Prop :=
  ∀ c ∈ rule.comparisons, ∀ result, c.holds record = .ok result → assignment c = result

/-- The rules have the same Boolean value however truth values are given to comparisons, as
long as equal comparisons have equal ones. -/
def Equivalent (rule other : Rule) : Prop :=
  ∀ assignment : Comparison → Bool,
    (∀ c d, c.equals d = true → assignment c = assignment d) →
    rule.value assignment = other.value assignment

section

variable {record : Record} {traced : Bool} {assignment : Comparison → Bool}

theorem Completes.left {left right : Rule} {connective : Connective}
    (h : Completes record assignment (join left connective right)) :
    Completes record assignment left :=
  fun c hc => h c (List.mem_append_left _ hc)

theorem Completes.right {left right : Rule} {connective : Connective}
    (h : Completes record assignment (join left connective right)) :
    Completes record assignment right :=
  fun c hc => h c (List.mem_append_right _ hc)

theorem value_eq_of_evaluate {rule : Rule} {evaluation : Evaluation}
    (h : rule.evaluate record traced = .ok evaluation)
    (hcompletes : Completes record assignment rule) :
    rule.value assignment = evaluation.matched := by
  induction rule generalizing evaluation with
  | leaf c =>
      obtain ⟨result, hresult, rfl⟩ := evaluate_leaf_eq_ok.mp h
      exact hcompletes c (by simp [comparisons]) result hresult
  | join left connective right ihLeft ihRight =>
      obtain ⟨first, hfirst, hrest⟩ := evaluate_join_eq_ok.mp h
      have hleft := ihLeft hfirst hcompletes.left
      rw [value, hleft]
      rcases hrest with ⟨hsettled, rfl⟩ | ⟨hsettled, second, hsecond, rfl⟩
      · exact Connective.apply_of_settledBy hsettled _
      · have hright := ihRight hsecond hcompletes.right
        rw [Connective.apply_of_not_settledBy hsettled]
        exact hright

theorem exists_evaluate_eq_ok {rule : Rule}
    (h : ∀ c ∈ rule.comparisons, ∃ result, c.holds record = .ok result) :
    ∃ evaluation, rule.evaluate record traced = .ok evaluation := by
  induction rule with
  | leaf c =>
      obtain ⟨result, hresult⟩ := h c (by simp [comparisons])
      exact ⟨_, evaluate_leaf_eq_ok.mpr ⟨result, hresult, rfl⟩⟩
  | join left connective right ihLeft ihRight =>
      obtain ⟨first, hfirst⟩ := ihLeft fun c hc => h c (List.mem_append_left _ hc)
      obtain ⟨second, hsecond⟩ := ihRight fun c hc => h c (List.mem_append_right _ hc)
      cases hsettled : connective.settledBy first.matched with
      | true => exact ⟨first, evaluate_join_eq_ok.mpr ⟨first, hfirst, .inl ⟨hsettled, rfl⟩⟩⟩
      | false =>
          exact ⟨_, evaluate_join_eq_ok.mpr
            ⟨first, hfirst, .inr ⟨hsettled, second, hsecond, rfl⟩⟩⟩

theorem exists_holds_eq_error {rule : Rule} {e : EvalError}
    (h : rule.evaluate record traced = .error e) :
    ∃ c ∈ rule.comparisons, c.holds record = .error e := by
  induction rule with
  | leaf c => exact ⟨c, by simp [comparisons], evaluate_leaf_eq_error.mp h⟩
  | join left connective right ihLeft ihRight =>
      rcases evaluate_join_eq_error.mp h with hleft | ⟨_, _, _, hright⟩
      · obtain ⟨c, hc, hfails⟩ := ihLeft hleft
        exact ⟨c, List.mem_append_left _ hc, hfails⟩
      · obtain ⟨c, hc, hfails⟩ := ihRight hright
        exact ⟨c, List.mem_append_right _ hc, hfails⟩

end

/-- The results of comparisons on a record as truth values; a comparison that fails counts as
false. -/
def truthOn (record : Record) (c : Comparison) : Bool :=
  match c.holds record with
  | .ok result => result
  | .error _ => false

theorem completes_truthOn (record : Record) (rule : Rule) :
    Completes record (truthOn record) rule := by
  intro c _ result h
  rw [truthOn, h]

theorem truthOn_of_equals (record : Record) {c d : Comparison} (h : c.equals d = true) :
    truthOn record c = truthOn record d := by
  rw [truthOn, truthOn, Comparison.holds_of_equals h]

/-- Where a rule has a result, it is the Boolean value of the rule for all truth values of the
comparisons that fail. So equivalent rules never have different results. A rule whose
comparisons all have results has one, and a rule that fails does so by one of its
comparisons. -/
theorem evaluate_sound (record : Record) (traced : Bool) :
    (∀ rule evaluation, evaluate rule record traced = .ok evaluation →
      ∀ assignment, Completes record assignment rule →
        rule.value assignment = evaluation.matched) ∧
    (∀ rule other, Equivalent rule other → ∀ evaluation evaluation',
      evaluate rule record traced = .ok evaluation →
      evaluate other record traced = .ok evaluation' →
      evaluation.matched = evaluation'.matched) ∧
    (∀ rule, (∀ c ∈ comparisons rule, ∃ result, c.holds record = .ok result) →
      ∃ evaluation, rule.evaluate record traced = .ok evaluation ∧
        ∀ assignment, Completes record assignment rule →
          evaluation.matched = rule.value assignment) ∧
    ∀ rule e, evaluate rule record traced = .error e →
      ∃ c ∈ rule.comparisons, c.holds record = .error e := by
  refine ⟨?_, ?_, ?_, ?_⟩
  · intro rule evaluation h assignment hcompletes
    exact value_eq_of_evaluate h hcompletes
  · intro rule other hequivalent evaluation evaluation' h h'
    rw [← value_eq_of_evaluate h (completes_truthOn record rule),
      ← value_eq_of_evaluate h' (completes_truthOn record other)]
    exact hequivalent _ fun _ _ hequals => truthOn_of_equals record hequals
  · intro rule hrule
    obtain ⟨evaluation, h⟩ := exists_evaluate_eq_ok hrule
    exact ⟨evaluation, h, fun assignment hcompletes => (value_eq_of_evaluate h hcompletes).symm⟩
  · intro rule e h
    exact exists_holds_eq_error h

/-- A comparison that fails behind one that settles the result: the result holds for both truth
values of it. In front, its failure comes up. -/
theorem evaluate_sound_unknown_field :
    value (fun c => c.field == "age") (join (leaf ⟨"team", .less, .string "b"⟩) .and
      (leaf ⟨"age", .equal, .string "x"⟩)) = false ∧
    ∃ c ∈ comparisons (join (leaf ⟨"age", .equal, .string "x"⟩) .and
        (leaf ⟨"team", .less, .string "b"⟩)),
      c.holds (Record.ofList [("team", .string "b")]) = .error (.unknownField "age") := by
  have hteam : Comparison.holds ⟨"team", .less, .string "b"⟩
      (Record.ofList [("team", .string "b")]) = .ok false := rfl
  have hage : Comparison.holds ⟨"age", .equal, .string "x"⟩
      (Record.ofList [("team", .string "b")]) = .error (.unknownField "age") := rfl
  have hsound := evaluate_sound (Record.ofList [("team", .string "b")]) true
  refine ⟨hsound.1 _ ⟨false, ["team < 'b' => false"]⟩ ?_ _ ?_, hsound.2.2.2 _ _ ?_⟩
  · exact evaluate_join_eq_ok.mpr ⟨_, evaluate_leaf_eq_ok.mpr ⟨false, hteam, rfl⟩,
      .inl ⟨rfl, by decide +kernel⟩⟩
  · intro c hc result h
    rcases List.mem_cons.mp hc with rfl | hc
    · rw [hteam] at h
      cases h
      decide
    · rw [List.mem_singleton.mp hc, hage] at h
      cases h
  · exact evaluate_join_eq_error.mpr (.inl (evaluate_leaf_eq_error.mpr hage))

end Rule

end ComparisonRules
