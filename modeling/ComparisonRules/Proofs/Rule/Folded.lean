import Mathlib.Algebra.Ring.Nat
import ComparisonRules.Proofs.Rule.Fields
import ComparisonRules.Rule.Combine

/-!
# Folds from the left

What combining gives, read off the parts: the fold of the parts from the left, whose depth is the
greatest of the depths of the parts with the joints above them. Combining fails where the fold
first becomes too deep. The first rule is joined to nothing, so its own depth is never refused.
-/

namespace ComparisonRules.Rule

/-- Rules joined by one connective from left to right. -/
def folded (connective : Connective) (first : Rule) (rest : List Rule) : Rule :=
  rest.foldl (fun combined rule => join combined connective rule) first

/-- The depth of a fold from the left: above the first rule there is a joint for every further
one, and above each further one there are its own joint and those behind it. -/
def foldDepth (first : Rule) (rest : List Rule) : Nat :=
  max (first.depth + rest.length)
    ((rest.mapIdx fun place rule => rule.depth + (rest.length - place)).foldr max 0)

section

variable {connective : Connective}

@[simp] theorem folded_nil (first : Rule) : folded connective first [] = first := rfl

@[simp] theorem folded_cons (first rule : Rule) (rest : List Rule) :
    folded connective first (rule :: rest) = folded connective (join first connective rule) rest :=
  rfl

@[simp] theorem foldDepth_nil (first : Rule) : foldDepth first [] = first.depth := by
  simp [foldDepth]

theorem foldDepth_cons (first rule : Rule) (rest : List Rule) :
    foldDepth first (rule :: rest) = foldDepth (join first connective rule) rest := by
  unfold foldDepth
  simp only [List.mapIdx_cons, List.foldr_cons, List.length_cons, Nat.add_sub_add_right, depth]
  omega

theorem depth_folded (first : Rule) (rest : List Rule) :
    (folded connective first rest).depth = foldDepth first rest := by
  induction rest generalizing first with
  | nil => rw [folded_nil, foldDepth_nil]
  | cons rule rest ih => rw [folded_cons, ih, ← foldDepth_cons]

theorem comparisons_folded (first : Rule) (rest : List Rule) :
    (folded connective first rest).comparisons = (first :: rest).flatMap comparisons := by
  induction rest generalizing first with
  | nil => simp
  | cons rule rest ih =>
      rw [folded_cons, ih, List.flatMap_cons, comparisons, List.flatMap_cons, List.flatMap_cons,
        List.append_assoc]

theorem comparisonCount_folded (first : Rule) (rest : List Rule) :
    (folded connective first rest).comparisonCount
      = ((first :: rest).map comparisonCount).sum := by
  rw [comparisonCount_eq_length, comparisons_folded, List.length_flatMap]
  exact congrArg List.sum
    (List.map_congr_left fun rule _ => (comparisonCount_eq_length rule).symm)

theorem fields_folded (first : Rule) (rest : List Rule) :
    (folded connective first rest).fields = ((first :: rest).flatMap fields).eraseDups := by
  have hparts : (first :: rest).flatMap fields = (first :: rest).flatMap fun rule =>
      (rule.comparisons.map Comparison.field).eraseDups :=
    List.flatMap_congr fun rule _ => fields_eq_eraseDups rule
  rw [fields_eq_eraseDups, comparisons_folded, List.map_flatMap, hparts, eraseDups_flatMap]

/-! ## Combining is folding -/

theorem depth_le_foldDepth (first : Rule) (rest : List Rule) :
    first.depth + rest.length ≤ foldDepth first rest :=
  Nat.le_max_left _ _

theorem combineOnto_eq_ok {combined : Rule} {index : Nat} {rest : List Rule}
    (h : foldDepth combined rest ≤ maxDepth) :
    combineOnto connective combined combined.depth index rest
      = .ok (folded connective combined rest) := by
  -- the depth that is carried along is that of the rule combined so far
  induction rest generalizing combined index with
  | nil => rfl
  | cons rule rest ih =>
      rw [@foldDepth_cons connective] at h
      have hjoined := depth_le_foldDepth (join combined connective rule) rest
      rw [combineOnto, if_neg (by rw [depth] at hjoined; omega)]
      exact ih h

/-- Combining fails at the first rule whose joint is too deep. If the first rule of all is too
deep already, that is the one behind it. -/
theorem combineOnto_eq_tooDeep {combined : Rule} {index : Nat} {rest : List Rule}
    (hrest : rest ≠ []) (h : maxDepth < foldDepth combined rest) :
    ∃ place < rest.length,
      combineOnto connective combined combined.depth index rest
        = .error (.tooDeep (index + place)) ∧
      maxDepth < foldDepth combined (rest.take (place + 1)) ∧
      ∀ earlier < place, foldDepth combined (rest.take (earlier + 1)) ≤ maxDepth := by
  induction rest generalizing combined index with
  | nil => exact absurd rfl hrest
  | cons rule rest ih =>
      rw [combineOnto]
      by_cases hdeep : maxDepth < 1 + max combined.depth rule.depth
      · rw [if_pos hdeep]
        refine ⟨0, Nat.succ_pos _, rfl, ?_, fun earlier hearlier => absurd hearlier (by omega)⟩
        rw [List.take_succ_cons, List.take_zero, @foldDepth_cons connective, foldDepth_nil, depth]
        exact hdeep
      · rw [if_neg hdeep]
        rw [@foldDepth_cons connective] at h
        have hbehind : rest ≠ [] := by
          rintro rfl
          rw [foldDepth_nil, depth] at h
          omega
        obtain ⟨place, hplace, hcombine, htoo, hbefore⟩ := @ih _ (index + 1) hbehind h
        refine ⟨place + 1, Nat.succ_lt_succ hplace, ?_, ?_, ?_⟩
        · rw [← Nat.add_assoc, Nat.add_right_comm]
          exact hcombine
        · rw [List.take_succ_cons, @foldDepth_cons connective]
          exact htoo
        · intro earlier hearlier
          rw [List.take_succ_cons, @foldDepth_cons connective]
          cases earlier with
          | zero =>
              rw [List.take_zero, foldDepth_nil, depth]
              omega
          | succ earlier => exact hbefore earlier (by omega)

end

/-- Combining folds from the left. Nothing to combine is a missing rule, and a single rule stays
as it is. Two or more are combined if and only if the depth of their fold is within the limit, and
give that fold; otherwise the error names the first rule, behind the first of all, whose joint is
too deep. -/
theorem combineAll_eq_folded (connective : Connective) :
    combineAll connective [] = .error (.missingOperand 0) ∧
    (∀ rule, combineAll connective [rule] = .ok rule) ∧
    ∀ first rest, rest ≠ [] →
      ((∃ combined, combineAll connective (first :: rest) = .ok combined) ↔
        foldDepth first rest ≤ maxDepth) ∧
      (∀ combined, combineAll connective (first :: rest) = .ok combined →
        combined = folded connective first rest ∧
        combined.depth = foldDepth first rest ∧
        combined.comparisonCount = ((first :: rest).map comparisonCount).sum ∧
        combined.fields = ((first :: rest).flatMap fields).eraseDups) ∧
      (maxDepth < foldDepth first rest → ∃ place,
        combineAll connective (first :: rest) = .error (.tooDeep place) ∧
        1 ≤ place ∧ place ≤ rest.length ∧
        maxDepth < (folded connective first (rest.take place)).depth ∧
        ∀ earlier, 1 ≤ earlier → earlier < place →
          (folded connective first (rest.take earlier)).depth ≤ maxDepth) := by
  refine ⟨rfl, fun rule => rfl, ?_⟩
  intro first rest hrest
  have hfails (h : maxDepth < foldDepth first rest) :=
    @combineOnto_eq_tooDeep connective first 1 rest hrest h
  have hiff : (∃ combined, combineAll connective (first :: rest) = .ok combined) ↔
      foldDepth first rest ≤ maxDepth := by
    constructor
    · rintro ⟨combined, hcombined⟩
      by_contra hdeep
      obtain ⟨place, -, herror, -⟩ := hfails (Nat.lt_of_not_le hdeep)
      rw [combineAll, herror] at hcombined
      cases hcombined
    · exact fun h => ⟨_, combineOnto_eq_ok h⟩
  refine ⟨hiff, ?_, ?_⟩
  · intro combined hcombined
    have hwithin := hiff.mp ⟨combined, hcombined⟩
    rw [combineAll, combineOnto_eq_ok hwithin] at hcombined
    cases hcombined
    exact ⟨rfl, depth_folded first rest, comparisonCount_folded first rest,
      fields_folded first rest⟩
  · intro hdeep
    obtain ⟨place, hplace, herror, htoo, hbefore⟩ := hfails hdeep
    refine ⟨1 + place, herror, by omega, by omega, ?_, ?_⟩
    · rw [depth_folded, Nat.add_comm]
      exact htoo
    · intro earlier hone hearlier
      obtain ⟨before, rfl⟩ := Nat.exists_eq_add_of_le' hone
      rw [depth_folded]
      exact hbefore before (by omega)

/-- A second rule of depth 99 reaches the limit, and a third one goes beyond it. -/
theorem combineAll_eq_folded_limit :
    (∃ combined, combineAll .or [leaf ⟨"a", .equal, .string "x"⟩,
        folded .and (leaf ⟨"b", .equal, .string "x"⟩)
          (List.replicate 99 (leaf ⟨"a", .equal, .string "x"⟩))] = .ok combined ∧
      combined.depth = 100 ∧ combined.fields = ["a", "b"]) ∧
    combineAll .or [leaf ⟨"a", .equal, .string "x"⟩,
        folded .and (leaf ⟨"b", .equal, .string "x"⟩)
          (List.replicate 99 (leaf ⟨"a", .equal, .string "x"⟩)), leaf ⟨"c", .equal, .string "x"⟩]
      = .error (.tooDeep 2) := by
  constructor
  · obtain ⟨hiff, hok, -⟩ := (combineAll_eq_folded .or).2.2 (leaf ⟨"a", .equal, .string "x"⟩)
      [folded .and (leaf ⟨"b", .equal, .string "x"⟩)
        (List.replicate 99 (leaf ⟨"a", .equal, .string "x"⟩))] (by simp)
    obtain ⟨combined, hcombined⟩ := hiff.mpr (by decide +kernel)
    obtain ⟨-, hdepth, -, hfields⟩ := hok combined hcombined
    refine ⟨combined, hcombined, ?_, ?_⟩
    · rw [hdepth]
      decide +kernel
    · rw [hfields]
      decide +kernel
  · obtain ⟨-, -, hfails⟩ := (combineAll_eq_folded .or).2.2 (leaf ⟨"a", .equal, .string "x"⟩)
      [folded .and (leaf ⟨"b", .equal, .string "x"⟩)
        (List.replicate 99 (leaf ⟨"a", .equal, .string "x"⟩)), leaf ⟨"c", .equal, .string "x"⟩]
      (by simp)
    obtain ⟨place, herror, hone, htwo, hdeep, -⟩ := hfails (by decide +kernel)
    have hplace : place = 1 ∨ place = 2 := by
      rw [List.length_cons, List.length_singleton] at htwo
      omega
    rcases hplace with rfl | rfl
    · exact absurd hdeep (by decide +kernel)
    · exact herror

/-- A first rule that is too deep on its own is still not the one that the error names. -/
theorem combineAll_first_too_deep :
    maxDepth < (folded .and (folded .and (leaf ⟨"a", .greater, .string "x"⟩)
      (List.replicate 101 (leaf ⟨"a", .greater, .string "x"⟩)))
      ([leaf ⟨"a", .greater, .string "x"⟩].take 0)).depth ∧
    combineAll .and [folded .and (leaf ⟨"a", .greater, .string "x"⟩)
        (List.replicate 101 (leaf ⟨"a", .greater, .string "x"⟩)),
        leaf ⟨"a", .greater, .string "x"⟩]
      = .error (.tooDeep 1) := by
  decide +kernel

end ComparisonRules.Rule
