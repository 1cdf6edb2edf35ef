import Mathlib.Algebra.Ring.Nat
import ComparisonRules.Number.Decimal

/-!
# Ranks and their values

The values of the ranks grow strictly, and the last rank not above the value of a rank is that
rank. Rounding a quotient looks at nothing but its value, and leaves alone what already is the
value of a rank.
-/

namespace ComparisonRules.Magnitude

theorem binade_pos : 0 < binade := by decide

theorem unitsPerOne_pos : 0 < unitsPerOne := by
  unfold unitsPerOne
  generalize 1074 = exponent
  exact Nat.pow_pos (by decide)

/-! ## Values of ranks -/

theorem rank_cases (rank : Nat) :
    rank < binade ∨ ∃ shift place, place < binade ∧ rank = (shift + 1) * binade + place := by
  have hbinade := binade_pos
  by_cases hlt : rank < binade
  · exact Or.inl hlt
  · have hquotient : 1 ≤ rank / binade := (Nat.le_div_iff_mul_le hbinade).mpr (by omega)
    refine Or.inr ⟨rank / binade - 1, rank % binade, Nat.mod_lt _ hbinade, ?_⟩
    rw [Nat.sub_add_cancel hquotient, Nat.mul_comm, Nat.div_add_mod]

theorem unitsOfRank_of_lt {rank : Nat} (h : rank < 2 * binade) : unitsOfRank rank = rank :=
  if_pos h

theorem unitsOfRank_mul_add {shift place : Nat} (h : place < binade) :
    unitsOfRank ((shift + 1) * binade + place) = (binade + place) * 2 ^ shift := by
  have hbinade := binade_pos
  cases shift with
  | zero =>
      rw [Nat.zero_add, Nat.one_mul, unitsOfRank_of_lt (by omega), Nat.pow_zero, Nat.mul_one]
  | succ shift =>
      have hmul : (shift + 1 + 1) * binade = shift * binade + 2 * binade := by
        rw [Nat.add_assoc, Nat.add_mul]
      have hdiv : ((shift + 1 + 1) * binade + place) / binade = shift + 1 + 1 := by
        rw [Nat.mul_comm, Nat.mul_add_div hbinade, Nat.div_eq_of_lt h, Nat.add_zero]
      have hmod : ((shift + 1 + 1) * binade + place) % binade = place := by
        rw [Nat.mul_comm, Nat.mul_add_mod, Nat.mod_eq_of_lt h]
      rw [unitsOfRank, if_neg (by omega), hdiv, hmod]
      rfl

theorem binade_mul_pow (shift : Nat) : binade * 2 ^ shift = 2 ^ (shift + 52) := by
  rw [Nat.pow_add, Nat.mul_comm]
  rfl

theorem log2_mul_pow {shift place : Nat} (h : place < binade) :
    ((binade + place) * 2 ^ shift).log2 = shift + 52 := by
  have hpow : 0 < 2 ^ shift := Nat.pow_pos (by decide)
  have hlow : binade * 2 ^ shift ≤ (binade + place) * 2 ^ shift :=
    Nat.mul_le_mul_right _ (by omega)
  have hhigh : (binade + place) * 2 ^ shift < (2 * binade) * 2 ^ shift :=
    Nat.mul_lt_mul_of_pos_right (by omega) hpow
  have hne : (binade + place) * 2 ^ shift ≠ 0 :=
    Nat.ne_of_gt (Nat.lt_of_lt_of_le (Nat.mul_pos binade_pos hpow) hlow)
  have hnext : 2 ^ (shift + 52 + 1) = 2 * binade * 2 ^ shift := by
    rw [Nat.pow_succ, ← binade_mul_pow, Nat.mul_comm, ← Nat.mul_assoc]
  rw [Nat.log2_eq_iff hne, hnext, ← binade_mul_pow]
  exact ⟨hlow, hhigh⟩

theorem rankOfUnits_unitsOfRank (rank : Nat) : rankOfUnits (unitsOfRank rank) = rank := by
  by_cases hlt : rank < 2 * binade
  · rw [unitsOfRank_of_lt hlt, rankOfUnits, if_pos hlt]
  · rcases rank_cases rank with hfirst | ⟨shift, place, hplace, rfl⟩
    · omega
    · have hpow : 0 < 2 ^ shift := Nat.pow_pos (by decide)
      have hlarge : ¬ (binade + place) * 2 ^ shift < 2 * binade := by
        cases shift with
        | zero => omega
        | succ shift =>
            have hone : 1 ≤ 2 ^ shift := Nat.pow_pos (by decide)
            have hmul : binade * 1 ≤ (binade + place) * 2 ^ shift :=
              Nat.mul_le_mul (by omega) hone
            rw [Nat.pow_succ, ← Nat.mul_assoc]
            omega
      rw [unitsOfRank_mul_add hplace, rankOfUnits, if_neg hlarge, log2_mul_pow hplace,
        Nat.add_sub_cancel]
      change shift * binade + (binade + place) * 2 ^ shift / 2 ^ shift = _
      rw [Nat.mul_div_cancel _ hpow, Nat.add_mul, Nat.one_mul, Nat.add_assoc]

theorem unitsOfRank_lt_succ (rank : Nat) : unitsOfRank rank < unitsOfRank (rank + 1) := by
  have hbinade := binade_pos
  rcases rank_cases rank with hfirst | ⟨shift, place, hplace, rfl⟩
  · rw [unitsOfRank_of_lt (by omega), unitsOfRank_of_lt (by omega)]
    omega
  · have hpow : 0 < 2 ^ shift := Nat.pow_pos (by decide)
    rw [unitsOfRank_mul_add hplace, Nat.add_assoc]
    by_cases hnext : place + 1 < binade
    · rw [unitsOfRank_mul_add hnext]
      exact Nat.mul_lt_mul_of_pos_right (by omega) hpow
    · -- the last rank of a binade is followed by the first one of the next
      have hcarry : (shift + 1) * binade + (place + 1) = (shift + 1 + 1) * binade + 0 := by
        rw [Nat.add_mul (shift + 1)]
        omega
      rw [hcarry, unitsOfRank_mul_add hbinade, Nat.pow_succ, Nat.mul_comm (2 ^ shift),
        ← Nat.mul_assoc]
      exact Nat.mul_lt_mul_of_pos_right (by omega) hpow

theorem unitsOfRank_strictMono {rank rank' : Nat} (h : rank < rank') :
    unitsOfRank rank < unitsOfRank rank' := by
  induction h with
  | refl => exact unitsOfRank_lt_succ rank
  | step _ ih => exact Nat.lt_trans ih (unitsOfRank_lt_succ _)

theorem unitsOfRank_lt_iff {rank rank' : Nat} :
    unitsOfRank rank < unitsOfRank rank' ↔ rank < rank' := by
  refine ⟨fun h => Nat.lt_of_not_le fun hle => ?_, unitsOfRank_strictMono⟩
  rcases Nat.lt_or_eq_of_le hle with hlt | rfl
  · exact Nat.lt_asymm h (unitsOfRank_strictMono hlt)
  · exact Nat.lt_irrefl _ h

theorem unitsOfRank_pos {rank : Nat} (h : 0 < rank) : 0 < unitsOfRank rank :=
  Nat.lt_of_le_of_lt (Nat.zero_le _) (unitsOfRank_strictMono h)

theorem log2_unitsOfRank_lt {rank : Nat} (h : rank < infiniteRank) :
    (unitsOfRank rank).log2 < 1024 + 1074 := by
  have hlast : infiniteRank = 2047 * binade := rfl
  rcases rank_cases rank with hfirst | ⟨shift, place, hplace, rfl⟩
  · rw [unitsOfRank_of_lt (by omega)]
    by_cases hzero : rank = 0
    · subst hzero
      decide
    · have hlog : rank.log2 < 52 := (Nat.log2_lt hzero).mpr hfirst
      omega
  · have hshift : shift + 1 < 2047 := by
      refine Nat.lt_of_mul_lt_mul_right (a := binade) ?_
      omega
    rw [unitsOfRank_mul_add hplace, log2_mul_pow hplace]
    omega

theorem unitsOfRank_lt_mul {rank : Nat} (h : rank < infiniteRank) :
    unitsOfRank rank < Nat.pow 2 1024 * unitsPerOne := by
  have hpow : Nat.pow 2 (1024 + 1074) = Nat.pow 2 1024 * unitsPerOne := by decide +kernel
  have hlog := log2_unitsOfRank_lt h
  rw [← hpow]
  generalize 1024 + 1074 = bits at hlog ⊢
  by_cases hzero : unitsOfRank rank = 0
  · rw [hzero]
    exact Nat.pow_pos (by decide)
  · exact (Nat.log2_lt hzero).mp hlog

theorem exists_unitsOfRank_eq {rank : Nat} (h : rank < infiniteRank) :
    ∃ significand shift, significand < 2 * binade ∧ shift < 1074 + 972 ∧
      unitsOfRank rank = significand * 2 ^ shift := by
  have hlast : infiniteRank = 2047 * binade := rfl
  cases rank_cases rank with
  | inl hfirst =>
      refine ⟨rank, 0, by omega, by omega, ?_⟩
      rw [unitsOfRank_of_lt (by omega), Nat.pow_zero, Nat.mul_one]
  | inr hplace =>
      obtain ⟨shift, place, hplace, rfl⟩ := hplace
      have hshift : shift + 1 < 2047 := by
        apply Nat.lt_of_mul_lt_mul_right (a := binade)
        omega
      exact ⟨binade + place, shift, by omega, by omega, unitsOfRank_mul_add hplace⟩

/-! ## Rounding -/

theorem nearestRank_mul_right (numerator denominator : Nat) {factor : Nat} (h : 0 < factor) :
    nearestRank (numerator * factor) (denominator * factor)
      = nearestRank numerator denominator := by
  have hscaled : numerator * factor * unitsPerOne = numerator * unitsPerOne * factor :=
    Nat.mul_right_comm _ _ _
  have hlow : numerator * unitsPerOne * factor / (denominator * factor)
      = numerator * unitsPerOne / denominator := Nat.mul_div_mul_right _ _ h
  have hbelow : ∀ a b, 2 * (a * factor) < b * (denominator * factor) ↔ 2 * a < b * denominator := by
    intro a b
    rw [← Nat.mul_assoc, ← Nat.mul_assoc, Nat.mul_lt_mul_right h]
  have habove : ∀ a b, b * (denominator * factor) < 2 * (a * factor) ↔ b * denominator < 2 * a := by
    intro a b
    rw [← Nat.mul_assoc, ← Nat.mul_assoc, Nat.mul_lt_mul_right h]
  unfold nearestRank
  dsimp only
  rw [hscaled, hlow]
  simp only [hbelow, habove]

theorem nearestRank_unitsOfRank (rank : Nat) :
    nearestRank (unitsOfRank rank) unitsPerOne = rank := by
  have hlow : rankOfUnits (unitsOfRank rank * unitsPerOne / unitsPerOne) = rank := by
    rw [Nat.mul_div_cancel _ unitsPerOne_pos, rankOfUnits_unitsOfRank]
  have hmiddle : 2 * (unitsOfRank rank * unitsPerOne)
      < (unitsOfRank rank + unitsOfRank (rank + 1)) * unitsPerOne := by
    rw [← Nat.mul_assoc]
    have hlt := unitsOfRank_lt_succ rank
    exact Nat.mul_lt_mul_of_pos_right (by omega) unitsPerOne_pos
  unfold nearestRank
  dsimp only
  rw [hlow, if_pos hmiddle]

end ComparisonRules.Magnitude
