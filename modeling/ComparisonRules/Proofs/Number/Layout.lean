import ComparisonRules.Number.Layout
import ComparisonRules.Proofs.Number.Reading
import ComparisonRules.Proofs.Number.Shortest

/-!
# Spelled-out decimals read back

A decimal with all its digits spelled out is a plain numeral, and the numeral has the
magnitude of the decimal. So a finite number without a sign is read back as it was written.
-/

namespace ComparisonRules

/-- The digits before and behind the point spell the decimal: no zero stands in front of
other digits, and the digits give its value, with a positive exponent multiplied out. -/
structure Decimal.Spells (d : Decimal) (whole fraction : List Char) : Prop where
  whole_ne : whole ≠ []
  isDigit_whole : ∀ c ∈ whole, c.isDigit = true
  isDigit_fraction : ∀ c ∈ fraction, c.isDigit = true
  leading : whole.head? = some '0' → whole = ['0']
  value : Decimal.ofParts whole fraction 0
    = ⟨d.significand * 10 ^ d.exponent.toNat, d.exponent - d.exponent.toNat⟩

namespace Decimal

theorem Spells.magnitude_eq {d : Decimal} {whole fraction : List Char}
    (h : d.Spells whole fraction) : (ofParts whole fraction 0).magnitude = d.magnitude := by
  rw [h.value, magnitude_mul_pow, Int.sub_add_cancel]

theorem spells_below_one {d : Decimal} (hexponent : d.exponent < 0) (h : d.top ≤ 0) :
    d.Spells ['0'] (List.replicate (-d.top).toNat '0' ++ digits d.significand) := by
  have htop : d.top = d.exponent + (digits d.significand).length := rfl
  have hshift : d.exponent.toNat = 0 := by omega
  refine ⟨by simp, by simp, ?_, by simp, ?_⟩
  · intro c hc
    rcases List.mem_append.mp hc with hc | hc
    · exact isDigit_of_mem_zeros c hc
    · exact isDigit_of_mem_digits c hc
  · have hvalue : ofDigits (['0'] ++ (List.replicate (-d.top).toNat '0' ++ digits d.significand))
        = d.significand := by
      rw [← List.append_assoc, List.singleton_append, ← List.replicate_succ,
        ofDigits_zeros_append, ofDigits_digits]
    unfold ofParts
    rw [hvalue, hshift, List.length_append, List.length_replicate]
    simp only [Nat.pow_zero, Nat.mul_one, mk.injEq, true_and]
    omega

theorem spells_whole {d : Decimal} (hpos : 0 < d.significand) (h : 0 ≤ d.exponent) :
    d.Spells (digits d.significand ++ List.replicate d.exponent.toNat '0') [] := by
  have hne := digits_ne_nil d.significand
  refine ⟨by simp [hne], ?_, by simp, ?_, ?_⟩
  · intro c hc
    rcases List.mem_append.mp hc with hc | hc
    · exact isDigit_of_mem_digits c hc
    · exact isDigit_of_mem_zeros c hc
  · intro hhead
    obtain ⟨c, cs, hcons⟩ := List.exists_cons_of_ne_nil hne
    have hfirst := head?_digits_ne_zero hpos
    rw [hcons] at hhead hfirst
    exact absurd hhead hfirst
  · unfold ofParts
    rw [List.append_nil, ofDigits_append_zeros, ofDigits_digits]
    simp only [mk.injEq, true_and, List.length_nil]
    omega

theorem spells_pointed {d : Decimal} (hpos : 0 < d.significand) (hexponent : d.exponent < 0)
    (htop : 0 < d.top) :
    d.Spells ((digits d.significand).take d.top.toNat)
      ((digits d.significand).drop d.top.toNat) := by
  have htop' : d.top = d.exponent + (digits d.significand).length := rfl
  have hshift : d.exponent.toNat = 0 := by omega
  refine ⟨?_, ?_, ?_, ?_, ?_⟩
  · rw [← List.length_pos_iff, List.length_take]
    omega
  · intro c hc
    exact isDigit_of_mem_digits c (List.mem_of_mem_take hc)
  · intro c hc
    exact isDigit_of_mem_digits c (List.mem_of_mem_drop hc)
  · intro hhead
    rw [List.head?_take, if_neg (by omega)] at hhead
    exact absurd hhead (head?_digits_ne_zero hpos)
  · unfold ofParts
    rw [List.take_append_drop, ofDigits_digits, hshift, List.length_drop]
    simp only [Nat.pow_zero, Nat.mul_one, mk.injEq, true_and]
    omega

theorem exists_spells {d : Decimal} (hpos : 0 < d.significand) :
    ∃ whole fraction, d.Spells whole fraction ∧
      ((0 ≤ d.exponent ∧ fraction = [] ∧ d.spelledOut = whole) ∨
        (d.exponent < 0 ∧ fraction ≠ [] ∧ d.spelledOut = whole ++ '.' :: fraction)) := by
  have hlength := List.length_pos_iff.mpr (digits_ne_nil d.significand)
  have htop : d.top = d.exponent + (digits d.significand).length := rfl
  unfold spelledOut
  rw [if_neg (Nat.ne_of_gt hpos), spelledAt]
  by_cases hwhole : 0 ≤ d.exponent
  · have hzeros : d.top.toNat - (digits d.significand).length = d.exponent.toNat := by omega
    refine ⟨_, [], spells_whole hpos hwhole, Or.inl ⟨hwhole, rfl, ?_⟩⟩
    rw [if_neg (by omega), if_pos (by omega), hzeros]
  · by_cases hbelow : d.top ≤ 0
    · refine ⟨_, _, spells_below_one (by omega) hbelow, Or.inr ⟨by omega, ?_, ?_⟩⟩
      · simp [digits_ne_nil]
      · rw [if_pos hbelow]
        rfl
    · refine ⟨_, _, spells_pointed hpos (by omega) (by omega), Or.inr ⟨by omega, ?_, ?_⟩⟩
      · rw [← List.length_pos_iff, List.length_drop]
        omega
      · rw [if_neg hbelow, if_neg (by omega)]

/-- Every decimal is spelled out as a plain numeral of its magnitude. -/
theorem spelledOut_spec (d : Decimal) :
    IsPlain d.spelledOut ∧
      Number.ofText? (String.ofList d.spelledOut) = some (.signed false d.magnitude) := by
  by_cases hzero : d.significand = 0
  · have hdigits : ∀ c ∈ ['0'], c.isDigit = true := by simp
    have hmagnitude : (ofParts ['0'] [] 0).magnitude = d.magnitude := by
      unfold magnitude
      rw [if_pos hzero]
      exact if_pos rfl
    rw [spelledOut, if_pos hzero, Number.ofText?_whole (by simp) hdigits, hmagnitude]
    exact ⟨.whole (by simp) hdigits, rfl⟩
  · obtain ⟨whole, fraction, hspells, ⟨-, rfl, heq⟩ | ⟨-, hne, heq⟩⟩ :=
      exists_spells (Nat.pos_of_ne_zero hzero)
    · rw [heq, Number.ofText?_whole hspells.whole_ne hspells.isDigit_whole, hspells.magnitude_eq]
      exact ⟨.whole hspells.whole_ne hspells.isDigit_whole, rfl⟩
    · rw [heq, Number.ofText?_pointed hspells.whole_ne hspells.isDigit_whole
        hspells.isDigit_fraction, hspells.magnitude_eq]
      exact ⟨.pointed hspells.whole_ne hspells.isDigit_whole hne hspells.isDigit_fraction, rfl⟩

end Decimal

end ComparisonRules
