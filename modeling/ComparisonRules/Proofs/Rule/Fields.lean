import Mathlib.Data.List.Basic
import ComparisonRules.Rule.Basic

/-!
# Fields in order of first use

The fields of a rule are the names in its comparisons, from left to right, each where it stands
first. Duplicates in the parts of a list may be left out before those of the whole list are.
-/

namespace ComparisonRules

section

variable {α : Type} [BEq α] [LawfulBEq α]

theorem eraseDups_filter (keep : α → Bool) :
    ∀ names : List α, (names.filter keep).eraseDups = names.eraseDups.filter keep
  | [] => rfl
  | name :: rest => by
      have hrest := eraseDups_filter keep (rest.filter fun other => !other == name)
      rw [List.eraseDups_cons]
      by_cases hkeep : keep name = true
      · rw [List.filter_cons_of_pos hkeep, List.filter_cons_of_pos hkeep, List.eraseDups_cons,
          ← hrest, List.filter_filter, List.filter_filter]
        simp only [Bool.and_comm]
      · have hothers : (rest.filter fun other => !other == name).filter keep
            = rest.filter keep := by
          rw [List.filter_filter]
          refine List.filter_congr fun other _ => ?_
          by_cases hother : other = name <;> simp [hother, hkeep]
        rw [List.filter_cons_of_neg hkeep, List.filter_cons_of_neg hkeep, ← hrest, hothers]
termination_by names => names.length
decreasing_by exact Nat.lt_succ_of_le (List.length_filter_le _ _)

theorem eraseDups_eraseDups : ∀ names : List α, names.eraseDups.eraseDups = names.eraseDups
  | [] => rfl
  | name :: rest => by
      have hrest := eraseDups_eraseDups (rest.filter fun other => !other == name)
      rw [List.eraseDups_cons, List.eraseDups_cons, ← eraseDups_filter, List.filter_filter]
      simp only [Bool.and_self, hrest]
termination_by names => names.length
decreasing_by exact Nat.lt_succ_of_le (List.length_filter_le _ _)

theorem eraseDups_removeAll (names known : List α) :
    (names.removeAll known).eraseDups = names.eraseDups.removeAll known :=
  eraseDups_filter _ names

theorem removeAll_eraseDups (names known : List α) :
    names.removeAll known.eraseDups = names.removeAll known := by
  refine List.filter_congr fun name _ => ?_
  rw [Bool.eq_iff_iff]
  simp

theorem eraseDups_flatMap {β : Type} (names : β → List α) (parts : List β) :
    (parts.flatMap fun part => (names part).eraseDups).eraseDups
      = (parts.flatMap names).eraseDups := by
  induction parts with
  | nil => rfl
  | cons part rest ih =>
      rw [List.flatMap_cons, List.flatMap_cons, List.eraseDups_append, List.eraseDups_append,
        eraseDups_eraseDups, removeAll_eraseDups, eraseDups_removeAll, eraseDups_removeAll, ih]

theorem idxOf_cons_self_lt {name other : α} (h : name ≠ other) (names : List α) :
    (name :: names).idxOf name < (name :: names).idxOf other := by
  rw [List.idxOf_cons_self, List.idxOf_cons_ne _ h]
  exact Nat.succ_pos _

theorem idxOf_cons_lt_cons {name first second : α} (hfirst : name ≠ first)
    (hsecond : name ≠ second) (names : List α) :
    (name :: names).idxOf first < (name :: names).idxOf second ↔
      names.idxOf first < names.idxOf second := by
  rw [List.idxOf_cons_ne _ hfirst, List.idxOf_cons_ne _ hsecond]
  exact Nat.succ_lt_succ_iff

theorem idxOf_lt_of_filter {keep : α → Bool} {first second : α} {names : List α}
    (hsecond : keep second = true)
    (h : (names.filter keep).idxOf first < (names.filter keep).idxOf second) :
    names.idxOf first < names.idxOf second := by
  induction names with
  | nil => exact h
  | cons name rest ih =>
      by_cases hname : name = second
      · rw [hname, List.filter_cons_of_pos hsecond, List.idxOf_cons_self] at h
        exact absurd h (Nat.not_lt_zero _)
      by_cases hname' : name = first
      · rw [hname'] at hname ⊢
        exact idxOf_cons_self_lt hname rest
      rw [idxOf_cons_lt_cons hname' hname]
      by_cases hkeep : keep name = true
      · rw [List.filter_cons_of_pos hkeep, idxOf_cons_lt_cons hname' hname] at h
        exact ih h
      · rw [List.filter_cons_of_neg hkeep] at h
        exact ih h

theorem pairwise_idxOf_eraseDups : ∀ names : List α,
    names.eraseDups.Pairwise fun name later => names.idxOf name < names.idxOf later
  | [] => List.Pairwise.nil
  | name :: rest => by
      have hrest := pairwise_idxOf_eraseDups (rest.filter fun other => !other == name)
      have hmem : ∀ other ∈ (rest.filter fun other => !other == name).eraseDups,
          name ≠ other ∧ (!other == name) = true := fun other h => by
        rw [List.mem_eraseDups, List.mem_filter] at h
        exact ⟨by rintro rfl; simp at h, h.2⟩
      rw [List.eraseDups_cons, List.pairwise_cons]
      refine ⟨fun other h => idxOf_cons_self_lt (hmem other h).1 rest, ?_⟩
      refine hrest.imp_of_mem fun {other later} hother hlater hlt => ?_
      rw [idxOf_cons_lt_cons (hmem other hother).1 (hmem later hlater).1]
      exact @idxOf_lt_of_filter _ _ _ (fun other => !other == name) _ _ _
        (hmem later hlater).2 hlt
termination_by names => names.length
decreasing_by exact Nat.lt_succ_of_le (List.length_filter_le _ _)

end

namespace Rule

theorem fields_eq_eraseDups (rule : Rule) :
    rule.fields = (rule.comparisons.map Comparison.field).eraseDups := by
  induction rule with
  | leaf c => rfl
  | join left connective right ihLeft ihRight =>
      rw [comparisons, List.map_append, List.eraseDups_append, eraseDups_removeAll,
        ← removeAll_eraseDups, ← ihLeft, ← ihRight]
      rfl

theorem mem_fields {rule : Rule} {field : String} :
    field ∈ rule.fields ↔ ∃ c ∈ rule.comparisons, c.field = field := by
  rw [fields_eq_eraseDups, List.mem_eraseDups, List.mem_map]

end Rule

end ComparisonRules
