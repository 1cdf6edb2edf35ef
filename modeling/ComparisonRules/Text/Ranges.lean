/-!
# Ranges of code points

Properties of characters are given as ascending ranges of code points. The search in such
a table stops at the first range that starts beyond the code point.
-/

namespace ComparisonRules.Text

/-- Ascending ranges of code points, both ends included. -/
abbrev Ranges := List (Nat × Nat)

def Ranges.contains : Ranges → Nat → Bool
  | [], _ => false
  | (low, high) :: rest, n =>
      decide (low ≤ n) && (decide (n ≤ high) || Ranges.contains rest n)

theorem Ranges.exists_range_of_contains {ranges : Ranges} {n : Nat}
    (h : ranges.contains n = true) : ∃ range ∈ ranges, range.1 ≤ n ∧ n ≤ range.2 := by
  induction ranges with
  | nil => simp [Ranges.contains] at h
  | cons range rest ih =>
      simp only [Ranges.contains, Bool.and_eq_true, Bool.or_eq_true, decide_eq_true_eq] at h
      rcases h with ⟨hlow, hhigh | hrest⟩
      · exact ⟨range, List.mem_cons_self, hlow, hhigh⟩
      · rcases ih hrest with ⟨found, hmem, hin⟩
        exact ⟨found, List.mem_cons_of_mem _ hmem, hin⟩

end ComparisonRules.Text
