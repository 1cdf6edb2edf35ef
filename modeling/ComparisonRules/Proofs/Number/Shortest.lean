import ComparisonRules.Number.Shortest
import ComparisonRules.Proofs.Number.Digits
import ComparisonRules.Proofs.Number.Rank

/-!
# Shortest decimals read back

The magnitude of a decimal depends on its value only: zeros may move from the significand to
the exponent. So what is written for a finite magnitude has exactly that magnitude, whether
the search on the grids found it or the exact decimal stands in.
-/

namespace ComparisonRules

namespace Decimal

/-! ## Trailing zeros -/

theorem top_mul_pow {significand : Nat} (h : 0 < significand) (count : Nat) (exponent : Int) :
    top ⟨significand * 10 ^ count, exponent⟩ = top ⟨significand, exponent + count⟩ := by
  unfold top
  dsimp only
  rw [length_digits_mul_pow h]
  omega

theorem nearest_mul_pow (significand count : Nat) (exponent : Int) :
    Magnitude.nearest (significand * 10 ^ count * 10 ^ exponent.toNat) (10 ^ (-exponent).toNat)
      = Magnitude.nearest (significand * 10 ^ (exponent + count).toNat)
          (10 ^ (-(exponent + count)).toNat) := by
  obtain ⟨extra, hextra⟩ := Nat.exists_eq_add_of_le
    (show (-(exponent + count)).toNat ≤ (-exponent).toNat by omega)
  have hplaces : count + exponent.toNat = (exponent + count).toNat + extra := by omega
  have hnumerator : significand * 10 ^ count * 10 ^ exponent.toNat
      = significand * 10 ^ (exponent + count).toNat * 10 ^ extra := by
    rw [Nat.mul_assoc, Nat.mul_assoc, ← Nat.pow_add, ← Nat.pow_add, hplaces]
  unfold Magnitude.nearest
  rw [hnumerator, hextra, Nat.pow_add,
    Magnitude.nearestRank_mul_right _ _ (Nat.pow_pos (by decide))]

theorem magnitude_mul_pow (significand count : Nat) (exponent : Int) :
    magnitude ⟨significand * 10 ^ count, exponent⟩
      = magnitude ⟨significand, exponent + count⟩ := by
  by_cases hzero : significand = 0
  · subst hzero
    simp [magnitude]
  · have hpow : 0 < 10 ^ count := Nat.pow_pos (by decide)
    have hne : significand * 10 ^ count ≠ 0 := Nat.mul_ne_zero hzero (Nat.ne_of_gt hpow)
    unfold magnitude
    rw [if_neg hne, if_neg hzero, top_mul_pow (Nat.pos_of_ne_zero hzero)]
    simp only [Nat.pow_eq, nearest_mul_pow]

theorem magnitude_neg {significand places denominator : Nat} (hpos : 0 < significand)
    (hplaces : Nat.pow 10 places = denominator)
    (hlow : -400 ≤ top ⟨significand, -places⟩) (hhigh : top ⟨significand, -places⟩ ≤ 400) :
    magnitude ⟨significand, -places⟩ = Magnitude.nearest significand denominator := by
  have hwhole : (-(places : Int)).toNat = 0 := by omega
  have hnegative : (- -(places : Int)).toNat = places := by omega
  unfold magnitude
  rw [if_neg (Nat.ne_of_gt hpos), if_neg (Int.not_lt.mpr hhigh), if_neg (Int.not_lt.mpr hlow)]
  dsimp only
  rw [hwhole, hnegative, hplaces]
  change Magnitude.nearest (significand * 1) _ = _
  rw [Nat.mul_one]

theorem significand_reduced_le (d : Decimal) : d.reduced.significand ≤ d.significand := by
  fun_induction reduced d with
  | case1 d h ih => exact Nat.le_trans ih (Nat.div_le_self _ _)
  | case2 d h => exact Nat.le_refl _

theorem reduced_mul_pow {significand : Nat} (hpos : 0 < significand) (count : Nat)
    (exponent : Int) :
    reduced ⟨significand * 10 ^ count, exponent⟩ = reduced ⟨significand, exponent + count⟩ := by
  induction count generalizing exponent with
  | zero => simp
  | succ count ih =>
      have hpos' : 0 < significand * 10 ^ count := Nat.mul_pos hpos (Nat.pow_pos (by decide))
      have hexponent : exponent + 1 + (count : Nat) = exponent + (count + 1 : Nat) := by omega
      rw [Nat.pow_succ, ← Nat.mul_assoc, reduced, dif_pos ⟨Nat.mul_pos hpos' (by decide),
        Nat.mul_mod_left _ _⟩]
      dsimp only
      rw [Nat.mul_div_cancel _ (by decide), ih, hexponent]

theorem magnitude_reduced (d : Decimal) : d.reduced.magnitude = d.magnitude := by
  fun_induction reduced d with
  | case1 d h ih =>
      have htens : d.significand = d.significand / 10 * 10 ^ 1 := by omega
      have hzeros := magnitude_mul_pow (d.significand / 10) 1 d.exponent
      rw [← htens] at hzeros
      rw [ih]
      exact hzeros.symm
  | case2 d h => rfl

end Decimal

namespace Magnitude

/-! ## What is written -/

theorem isFinite_iff {m : Magnitude} : m.isFinite = true ↔ m.rank < infiniteRank := by
  rw [isFinite, decide_eq_true_eq]

theorem unitsOfRank_pos_of_ne {m : Magnitude} (h : m.rank ≠ 0) : 0 < unitsOfRank m.rank :=
  unitsOfRank_pos (Nat.pos_of_ne_zero h)

theorem top_exactDecimal {m : Magnitude} (hfinite : m.isFinite = true) (hne : m.rank ≠ 0) :
    -400 ≤ m.exactDecimal.top ∧ m.exactDecimal.top ≤ 400 := by
  have hlow : Nat.pow 10 674 ≤ Nat.pow 5 1074 := by decide +kernel
  have hhigh : Nat.pow 2 1024 * unitsPerOne * Nat.pow 5 1074 < Nat.pow 10 1474 := by
    decide +kernel
  have hunits := unitsOfRank_pos_of_ne hne
  have hbound := unitsOfRank_lt_mul (isFinite_iff.mp hfinite)
  unfold exactDecimal Decimal.top
  dsimp only
  generalize Nat.pow 2 1024 * unitsPerOne = bound at hhigh hbound
  generalize Nat.pow 5 1074 = fives at hlow hhigh ⊢
  have hmore : ∀ places, Nat.pow 10 places ≤ fives →
      places < (Decimal.digits (unitsOfRank m.rank * fives)).length := fun places hle =>
    Decimal.lt_length_digits (Nat.le_trans hle (Nat.le_mul_of_pos_left _ hunits))
  have hplaces := hmore 674 hlow
  have hless : ∀ places, 0 < places → bound * fives < Nat.pow 10 places →
      (Decimal.digits (unitsOfRank m.rank * fives)).length ≤ places := fun places hpos hlt =>
    (Decimal.length_digits_le_iff hpos).mpr
      (Nat.lt_of_le_of_lt (Nat.mul_le_mul_right _ (Nat.le_of_lt hbound)) hlt)
  have hplaces' := hless 1474 (by decide) hhigh
  omega

theorem magnitude_exactDecimal {m : Magnitude} (hfinite : m.isFinite = true)
    (hne : m.rank ≠ 0) : m.exactDecimal.magnitude = m := by
  obtain ⟨hlow, hhigh⟩ := top_exactDecimal hfinite hne
  have hunits := unitsOfRank_pos_of_ne hne
  have hfives : 0 < Nat.pow 5 1074 := by decide +kernel
  have htens : Nat.pow 10 1074 = unitsPerOne * Nat.pow 5 1074 := by decide +kernel
  unfold exactDecimal at hlow hhigh ⊢
  generalize Nat.pow 5 1074 = fives at hfives htens hlow hhigh ⊢
  have hexact := Decimal.magnitude_neg (Nat.mul_pos hunits hfives) htens hlow hhigh
  rw [nearest, nearestRank_mul_right _ _ hfives, nearestRank_unitsOfRank, ofRank_rank] at hexact
  exact hexact

theorem nearerWhole_eq (tie : TieRule) (numerator denominator low : Nat) :
    nearerWhole tie numerator denominator low = low ∨
      nearerWhole tie numerator denominator low = low + 1 := by
  unfold nearerWhole
  dsimp only
  cases tie <;> grind

theorem onGrid?_eq_some {tie : TieRule} {m : Magnitude} {exponent : Int} {d : Decimal}
    (h : m.onGrid? tie exponent = some d) :
    d.magnitude = m ∧
      (d.significand = (m.quotient exponent).1 / (m.quotient exponent).2 ∨
        d.significand = (m.quotient exponent).1 / (m.quotient exponent).2 + 1) := by
  unfold onGrid? at h
  dsimp only at h
  split at h
  · rename_i hlow hhigh
    rw [← Option.some.inj h]
    rcases nearerWhole_eq tie (m.quotient exponent).1 (m.quotient exponent).2
      ((m.quotient exponent).1 / (m.quotient exponent).2) with heq | heq
    · rw [heq]
      exact ⟨beq_iff_eq.mp hlow, Or.inl rfl⟩
    · rw [heq]
      exact ⟨beq_iff_eq.mp hhigh, Or.inr rfl⟩
  · rename_i hlow _
    rw [← Option.some.inj h]
    exact ⟨beq_iff_eq.mp hlow, Or.inl rfl⟩
  · rename_i _ hhigh
    rw [← Option.some.inj h]
    exact ⟨beq_iff_eq.mp hhigh, Or.inr rfl⟩
  · cases h

/-- The shortest decimal of a finite magnitude has that magnitude. -/
theorem magnitude_shortest (tie : TieRule) {m : Magnitude} (hfinite : m.isFinite = true) :
    (m.shortest tie).magnitude = m := by
  unfold shortest
  by_cases hzero : m.rank = 0
  · rw [if_pos hzero]
    change ofRank 0 = m
    rw [← hzero, ofRank_rank]
  · rw [if_neg hzero]
    dsimp only
    rw [Decimal.magnitude_reduced]
    cases hfound : List.findSome? (m.onGrid? tie) _ with
    | none => exact magnitude_exactDecimal hfinite hzero
    | some d =>
        obtain ⟨exponent, -, hgrid⟩ := List.exists_of_findSome?_eq_some hfound
        exact (onGrid?_eq_some hgrid).1

/-! ## How many digits are written -/

theorem significand_le_of_onGrid? {tie : TieRule} {m : Magnitude} {exponent : Int} {d : Decimal}
    (hfinite : m.isFinite = true) (h : m.onGrid? tie exponent = some d) :
    d.significand ≤ Nat.pow 2 1024 * Nat.pow 10 (-exponent).toNat := by
  have hunits := unitsOfRank_lt_mul (isFinite_iff.mp hfinite)
  have hpow : 0 < Nat.pow 10 (-exponent).toNat := Nat.pow_pos (by decide)
  have hpow' : 0 < Nat.pow 10 exponent.toNat := Nat.pow_pos (by decide)
  have hquotient : (m.quotient exponent).1 / (m.quotient exponent).2
      < Nat.pow 2 1024 * Nat.pow 10 (-exponent).toNat := by
    unfold quotient
    dsimp only
    generalize Nat.pow 2 1024 = bound at hunits ⊢
    apply Nat.div_lt_of_lt_mul
    calc unitsOfRank m.rank * Nat.pow 10 (-exponent).toNat
        < bound * unitsPerOne * Nat.pow 10 (-exponent).toNat :=
          Nat.mul_lt_mul_of_pos_right hunits hpow
      _ = unitsPerOne * 1 * (bound * Nat.pow 10 (-exponent).toNat) := by
          rw [Nat.mul_one, Nat.mul_comm bound, Nat.mul_assoc]
      _ ≤ unitsPerOne * Nat.pow 10 exponent.toNat * (bound * Nat.pow 10 (-exponent).toNat) :=
          Nat.mul_le_mul_right _ (Nat.mul_le_mul_left _ hpow')
  cases (onGrid?_eq_some h).2 with
  | inl heq => omega
  | inr heq => omega

theorem mul_pow_two_mul_pow_five (significand shift places : Nat) :
    significand * 2 ^ shift * 5 ^ places
      = significand * 2 ^ (shift - places) * 5 ^ (places - shift) * 10 ^ min shift places := by
  have htwos : 2 ^ shift = 2 ^ (shift - places) * 2 ^ min shift places := by
    rw [← Nat.pow_add]
    congr 1
    omega
  have hfives : 5 ^ places = 5 ^ (places - shift) * 5 ^ min shift places := by
    rw [← Nat.pow_add]
    congr 1
    omega
  have htens : 10 ^ min shift places = 2 ^ min shift places * 5 ^ min shift places := by
    rw [← Nat.mul_pow]
  rw [htwos, hfives, htens]
  simp only [Nat.mul_assoc, Nat.mul_left_comm]

theorem significand_reduced_lt {significand shift places extra width limit : Nat}
    (exponent : Int) (hpos : 0 < significand) (hwidth : significand < width)
    (hshift : shift < places + extra) (hfives : width * Nat.pow 5 places < limit)
    (htwos : width * Nat.pow 2 extra < limit) :
    (Decimal.reduced ⟨significand * 2 ^ shift * Nat.pow 5 places, exponent⟩).significand
      < limit := by
  have hodd : 0 < significand * 2 ^ (shift - places) * 5 ^ (places - shift) :=
    Nat.mul_pos (Nat.mul_pos hpos (Nat.pow_pos (by decide))) (Nat.pow_pos (by decide))
  rw [Nat.pow_eq, mul_pow_two_mul_pow_five, Decimal.reduced_mul_pow hodd]
  -- twos and fives meet in tens, so that only what is left of one of them stays
  apply Nat.lt_of_le_of_lt (Decimal.significand_reduced_le _)
  dsimp only
  by_cases hfew : shift ≤ places
  · have hpow : 5 ^ (places - shift) ≤ 5 ^ places :=
      Nat.pow_le_pow_right (by decide) (Nat.sub_le _ _)
    rw [Nat.sub_eq_zero_of_le hfew, Nat.pow_zero, Nat.mul_one]
    exact Nat.lt_of_le_of_lt (Nat.mul_le_mul (Nat.le_of_lt hwidth) hpow) hfives
  · have hpow : 2 ^ (shift - places) ≤ 2 ^ extra :=
      Nat.pow_le_pow_right (by decide) (by omega)
    rw [Nat.sub_eq_zero_of_le (Nat.le_of_not_le hfew), Nat.pow_zero, Nat.mul_one]
    exact Nat.lt_of_le_of_lt (Nat.mul_le_mul (Nat.le_of_lt hwidth) hpow) htwos

theorem significand_reduced_exactDecimal {m : Magnitude} (hfinite : m.isFinite = true)
    (hne : m.rank ≠ 0) : m.exactDecimal.reduced.significand < 10 ^ 768 := by
  have hfives : 2 * binade * Nat.pow 5 1074 < 10 ^ 768 := by decide +kernel
  have htwos : 2 * binade * Nat.pow 2 972 < 10 ^ 768 := by decide +kernel
  have hunits := unitsOfRank_pos_of_ne hne
  obtain ⟨significand, shift, hwidth, hshift, heq⟩ :=
    exists_unitsOfRank_eq (isFinite_iff.mp hfinite)
  rw [heq] at hunits
  rw [exactDecimal, heq]
  generalize 1074 = places at hfives hshift ⊢
  generalize 972 = extra at htwos hshift
  generalize 10 ^ 768 = limit at hfives htwos ⊢
  exact significand_reduced_lt _ (Nat.pos_of_mul_pos_right hunits) hwidth hshift hfives htwos

theorem neg_le_top (m : Magnitude) : -323 ≤ m.top := by
  unfold top
  dsimp only
  split
  · omega
  · omega

theorem length_digits_shortest (tie : TieRule) {m : Magnitude} (hfinite : m.isFinite = true) :
    (Decimal.digits (m.shortest tie).significand).length ≤ 768 := by
  unfold shortest
  by_cases hzero : m.rank = 0
  · rw [if_pos hzero]
    decide
  · rw [if_neg hzero, Decimal.length_digits_le_iff (by decide)]
    dsimp only
    cases hfound : List.findSome? (m.onGrid? tie) _ with
    | none => exact significand_reduced_exactDecimal hfinite hzero
    | some d =>
        obtain ⟨exponent, hmem, hgrid⟩ := List.exists_of_findSome?_eq_some hfound
        have hplaces : (-exponent).toNat ≤ 340 := by
          obtain ⟨n, hn, rfl⟩ := List.mem_map.mp hmem
          have hlt := List.mem_range.mp hn
          have htop := m.neg_le_top
          omega
        have hbound : Nat.pow 2 1024 * Nat.pow 10 340 < 10 ^ 768 := by decide +kernel
        have hle := significand_le_of_onGrid? hfinite hgrid
        generalize 340 = places at hplaces hbound
        generalize Nat.pow 2 1024 = bound at hbound hle
        generalize 10 ^ 768 = limit at hbound ⊢
        have hpow : Nat.pow 10 (-exponent).toNat ≤ Nat.pow 10 places :=
          Nat.pow_le_pow_right (by decide) hplaces
        exact Nat.lt_of_le_of_lt (Decimal.significand_reduced_le d)
          (Nat.lt_of_le_of_lt (Nat.le_trans hle (Nat.mul_le_mul_left _ hpow)) hbound)

end Magnitude

end ComparisonRules
