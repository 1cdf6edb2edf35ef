import Mathlib.Algebra.Ring.Nat
import ComparisonRules.Number.Decimal
import ComparisonRules.Proofs.Text.Class

/-!
# Digits

The digits of a whole number spell the number, and zeros behind them are powers of ten. The
number of digits tells between which powers of ten the number lies.
-/

namespace ComparisonRules.Decimal

theorem ofDigits_eq (ds : List Char) : ofDigits ds = Nat.ofDigitChars 10 ds 0 := rfl

@[simp] theorem ofDigits_digits (n : Nat) : ofDigits (digits n) = n := by
  rw [ofDigits_eq, digits, Nat.ofDigitChars_ten_toDigits]

theorem ofDigits_append_zeros (ds : List Char) (count : Nat) :
    ofDigits (ds ++ List.replicate count '0') = ofDigits ds * 10 ^ count := by
  rw [ofDigits_eq, Nat.ofDigitChars_append, Nat.ofDigitChars_replicate_zero, Nat.mul_comm]
  rfl

theorem ofDigits_zeros_append (count : Nat) (ds : List Char) :
    ofDigits (List.replicate count '0' ++ ds) = ofDigits ds := by
  rw [ofDigits_eq, Nat.ofDigitChars_append, Nat.ofDigitChars_replicate_zero, Nat.mul_zero]
  rfl

theorem isDigit_of_mem_digits {n : Nat} : ∀ d ∈ digits n, d.isDigit = true := by
  intro d hd
  exact Nat.isDigit_of_mem_toDigits (by decide) (by decide) hd

theorem isDigit_of_mem_zeros {count : Nat} :
    ∀ d ∈ List.replicate count '0', d.isDigit = true := by
  intro d hd
  rw [List.eq_of_mem_replicate hd]
  rfl

theorem digits_ne_nil (n : Nat) : digits n ≠ [] :=
  Nat.toDigits_ne_nil

theorem ofDigits_cons (d : Char) (ds : List Char) :
    ofDigits (d :: ds) = 10 ^ ds.length * (d.toNat - '0'.toNat) + ofDigits ds := by
  rw [ofDigits_eq, Nat.ofDigitChars_cons, Nat.ofDigitChars_eq_ofDigitChars_zero, Nat.mul_zero,
    Nat.zero_add]
  rfl

theorem ofDigits_lt {ds : List Char} (h : ∀ d ∈ ds, d.isDigit = true) :
    ofDigits ds < 10 ^ ds.length := by
  induction ds with
  | nil => decide
  | cons d ds ih =>
      have hrest := ih fun c hc => h c (List.mem_cons_of_mem _ hc)
      have hdigit := (Token.toNat_of_isDigit (h d List.mem_cons_self)).2
      have hzero : '0'.toNat = 48 := rfl
      have hle : 10 ^ ds.length * (d.toNat - '0'.toNat) ≤ 10 ^ ds.length * 9 :=
        Nat.mul_le_mul_left _ (by omega)
      rw [ofDigits_cons, List.length_cons, Nat.pow_succ]
      omega

/-! ## Numbers of digits -/

theorem length_digits_le_iff {n places : Nat} (h : 0 < places) :
    (digits n).length ≤ places ↔ n < 10 ^ places :=
  Nat.length_toDigits_le_iff (by decide) h

theorem lt_pow_length_digits (n : Nat) : n < 10 ^ (digits n).length :=
  (length_digits_le_iff Nat.length_toDigits_pos).mp (Nat.le_refl _)

theorem lt_length_digits {n places : Nat} (h : 10 ^ places ≤ n) :
    places < (digits n).length := by
  have hlt := lt_pow_length_digits n
  exact (Nat.pow_lt_pow_iff_right (by decide)).mp (Nat.lt_of_le_of_lt h hlt)

theorem length_digits_mul_ten {n : Nat} (h : 0 < n) :
    (digits (n * 10)).length = (digits n).length + 1 := by
  have happend := Nat.toDigits_append_toDigits (b := 10) (n := n) (d := 0) (by decide) h (by decide)
  rw [Nat.add_zero, Nat.mul_comm] at happend
  rw [digits, ← happend, List.length_append, Nat.toDigits_zero]
  rfl

theorem length_digits_mul_pow {n : Nat} (h : 0 < n) (count : Nat) :
    (digits (n * 10 ^ count)).length = (digits n).length + count := by
  induction count with
  | zero => simp
  | succ count ih =>
      have hpos : 0 < n * 10 ^ count := Nat.mul_pos h (Nat.pow_pos (by decide))
      rw [Nat.pow_succ, ← Nat.mul_assoc, length_digits_mul_ten hpos, ih, Nat.add_assoc]

theorem head?_digits_ne_zero {n : Nat} (h : 0 < n) : (digits n).head? ≠ some '0' := by
  intro hhead
  obtain ⟨rest, hrest⟩ := List.head?_eq_some_iff.mp hhead
  have hvalue : ofDigits rest = n := by
    have hall := ofDigits_digits n
    rw [hrest] at hall
    exact hall
  have hlt : ofDigits rest < 10 ^ rest.length := by
    refine ofDigits_lt fun d hd => isDigit_of_mem_digits (n := n) d ?_
    rw [hrest]
    exact List.mem_cons_of_mem _ hd
  rw [hvalue] at hlt
  cases rest with
  | nil => simp at hlt; omega
  | cons d ds =>
      have hle := (length_digits_le_iff (Nat.succ_pos _)).mpr hlt
      rw [hrest] at hle
      simp only [List.length_cons] at hle
      omega

end ComparisonRules.Decimal
