import Mathlib.Algebra.Ring.Nat
import Mathlib.Data.List.Basic
import ComparisonRules.Proofs.Text.Class

/-!
# The order of texts

Texts stand in the order of their characters. A code that writes smaller characters smaller,
whatever is behind them, keeps that order. UTF-8 is such a code: the first byte grows with the
number of bytes, and behind it stand six bits in each byte, the highest ones first.
-/

namespace ComparisonRules.Text

/-! ## Codes that keep the order -/

section

variable {β : Type} [LT β] {code : Char → List β}

/-- The code of a smaller character is smaller, whatever is behind the two. -/
def KeepsOrder (code : Char → List β) : Prop :=
  (∀ c, code c ≠ []) ∧
    ∀ c d : Char, c < d → ∀ rest others, code c ++ rest < code d ++ others

theorem KeepsOrder.flatMap_lt (h : KeepsOrder code) {chars others : List Char}
    (hlt : chars < others) : chars.flatMap code < others.flatMap code := by
  induction hlt with
  | @nil c cs =>
      obtain ⟨b, bs, hcode⟩ := List.exists_cons_of_ne_nil (h.1 c)
      rw [List.flatMap_nil, List.flatMap_cons, hcode]
      exact List.nil_lt_cons _ _
  | @cons c cs ds _ ih =>
      rw [List.flatMap_cons, List.flatMap_cons]
      exact List.append_left_lt ih
  | @rel c cs d ds hcd =>
      rw [List.flatMap_cons, List.flatMap_cons]
      exact h.2 c d hcd _ _

theorem KeepsOrder.flatMap_lt_iff [Std.Asymm (α := β) (· < ·)] (h : KeepsOrder code)
    {s t : String} : s.toList.flatMap code < t.toList.flatMap code ↔ s < t := by
  refine ⟨fun hlt => ?_, h.flatMap_lt⟩
  by_contra hnot
  by_cases hne : t = s
  · rw [hne] at hlt
    exact List.lt_irrefl _ hlt
  · have hless : t < s := Std.lt_of_le_of_ne (String.not_lt.mp hnot) hne
    exact List.lt_asymm (h.flatMap_lt hless) hlt

end

/-- The code points of a text. -/
def codePoints (s : String) : List Nat :=
  s.toList.map Char.toNat

theorem codePoints_lt_iff {s t : String} : codePoints s < codePoints t ↔ s < t := by
  have hkeeps : KeepsOrder fun c : Char => [c.toNat] :=
    ⟨fun c => List.cons_ne_nil _ _, fun c d hcd rest others =>
      List.cons_lt_cons_iff.mpr (.inl hcd)⟩
  unfold codePoints
  rw [List.map_eq_flatMap, List.map_eq_flatMap]
  exact hkeeps.flatMap_lt_iff

/-! ## UTF-8 -/

/-- The bytes of a text in UTF-8. -/
def bytes (s : String) : List UInt8 :=
  s.toUTF8.data.toList

theorem bytes_eq_flatMap (s : String) : bytes s = s.toList.flatMap String.utf8EncodeChar := by
  show s.toByteArray.data.toList = _
  rw [← String.utf8Encode_toList, List.utf8Encode, List.toList_data_toByteArray]

/-- The given number of bytes behind the first one, with the lowest bits of a number. -/
def lowBytes : Nat → Nat → List UInt8
  | 0, _ => []
  | n + 1, v => UInt8.ofNat (v / 64 ^ n % 64 + 0x80) :: lowBytes n v

/-- How many bytes stand behind the first one of a code point, and the bits that mark it. -/
inductive LeadOf (v : Nat) : Nat → Nat → Prop where
  | one (h : v ≤ 0x7f) : LeadOf v 0 0
  | two (hlow : 0x7f < v) (hhigh : v ≤ 0x7ff) : LeadOf v 1 0xc0
  | three (hlow : 0x7ff < v) (hhigh : v ≤ 0xffff) : LeadOf v 2 0xe0
  | four (hlow : 0xffff < v) (hhigh : v ≤ 0x10ffff) : LeadOf v 3 0xf0

theorem utf8EncodeChar_eq_cons (c : Char) :
    ∃ n mark, LeadOf c.toNat n mark ∧ String.utf8EncodeChar c
      = UInt8.ofNat (c.toNat / 64 ^ n + mark) :: lowBytes n c.toNat := by
  have hmax : c.toNat ≤ 0x10ffff := by
    have hvalid : c.toNat < 0xd800 ∨ 0xdfff < c.toNat ∧ c.toNat < 0x110000 := c.valid
    omega
  simp only [String.utf8EncodeChar, Char.toNat_val]
  split
  · rename_i h
    exact ⟨0, 0, .one h, by simp [lowBytes]⟩
  split
  · rename_i hlow h
    have hlead : c.toNat / 64 % 0x20 = c.toNat / 64 := Nat.mod_eq_of_lt (by omega)
    refine ⟨1, 0xc0, .two (by omega) h, ?_⟩
    simp [lowBytes, hlead]
  split
  · rename_i hlow h
    have hlead : c.toNat / 4096 % 0x10 = c.toNat / 4096 := Nat.mod_eq_of_lt (by omega)
    refine ⟨2, 0xe0, .three (by omega) h, ?_⟩
    simp [lowBytes, hlead]
  · rename_i hlow
    have hlead : c.toNat / 262144 % 0x08 = c.toNat / 262144 := Nat.mod_eq_of_lt (by omega)
    refine ⟨3, 0xf0, .four (by omega) hmax, ?_⟩
    simp [lowBytes, hlead]

theorem ofNat_cons_lt {a b : Nat} (ha : a < 256) (hb : b < 256) (rest others : List UInt8) :
    UInt8.ofNat a :: rest < UInt8.ofNat b :: others ↔ a < b ∨ a = b ∧ rest < others := by
  rw [List.cons_lt_cons_iff, UInt8.lt_iff_toNat_lt, ← UInt8.toNat_inj, UInt8.toNat_ofNat',
    UInt8.toNat_ofNat', Nat.mod_eq_of_lt ha, Nat.mod_eq_of_lt hb]

theorem lowBytes_lt {n v w : Nat} (h : v % 64 ^ n < w % 64 ^ n) (rest others : List UInt8) :
    lowBytes n v ++ rest < lowBytes n w ++ others := by
  induction n with
  | zero => omega
  | succ n ih =>
      rw [Nat.pow_succ, Nat.mod_mul, Nat.mod_mul] at h
      have hv : v % 64 ^ n < 64 ^ n := Nat.mod_lt _ (Nat.pow_pos (by decide))
      have hw : w % 64 ^ n < 64 ^ n := Nat.mod_lt _ (Nat.pow_pos (by decide))
      refine (ofNat_cons_lt (by omega) (by omega) _ _).mpr ?_
      -- The first byte has the six highest bits. Only if they are equal do the others count.
      rcases Nat.lt_trichotomy (v / 64 ^ n % 64) (w / 64 ^ n % 64) with hlt | heq | hgt
      · exact .inl (by omega)
      · rw [heq] at h ⊢
        exact .inr ⟨rfl, ih (by omega)⟩
      · have hle : 64 ^ n * (w / 64 ^ n % 64 + 1) ≤ 64 ^ n * (v / 64 ^ n % 64) :=
          Nat.mul_le_mul_left _ hgt
        rw [Nat.mul_add] at hle
        omega

theorem LeadOf.lt {v w n m mark mark' : Nat} (hv : LeadOf v n mark) (hw : LeadOf w m mark')
    (h : v < w) :
    v / 64 ^ n + mark < 256 ∧ w / 64 ^ m + mark' < 256 ∧
      (v / 64 ^ n + mark < w / 64 ^ m + mark' ∨
        n = m ∧ v / 64 ^ n + mark = w / 64 ^ m + mark' ∧ v % 64 ^ n < w % 64 ^ m) := by
  cases hv <;> cases hw <;> omega

theorem keepsOrder_utf8EncodeChar : KeepsOrder String.utf8EncodeChar := by
  refine ⟨fun c hnil => ?_, fun c d hcd rest others => ?_⟩
  · obtain ⟨n, mark, -, hcode⟩ := utf8EncodeChar_eq_cons c
    rw [hnil] at hcode
    cases hcode
  · obtain ⟨n, mark, hlead, hcode⟩ := utf8EncodeChar_eq_cons c
    obtain ⟨m, mark', hlead', hcode'⟩ := utf8EncodeChar_eq_cons d
    -- the first byte decides, unless both codes have as many bytes and the same high bits
    obtain ⟨hbyte, hbyte', hlt⟩ := hlead.lt hlead' hcd
    rw [hcode, hcode']
    refine (ofNat_cons_lt hbyte hbyte' _ _).mpr (hlt.imp_right ?_)
    rintro ⟨rfl, heq, hlow⟩
    exact ⟨heq, lowBytes_lt hlow rest others⟩

theorem bytes_lt_iff {s t : String} : bytes s < bytes t ↔ s < t := by
  rw [bytes_eq_flatMap, bytes_eq_flatMap]
  exact keepsOrder_utf8EncodeChar.flatMap_lt_iff

end ComparisonRules.Text
