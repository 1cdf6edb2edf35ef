import ComparisonRules.Json.Cut
import ComparisonRules.Proofs.Number.Layout
import ComparisonRules.Proofs.Outcome

/-!
# Written numbers read back

The text of a finite number is cut off as one numeral, whatever follows it, and the numeral
stands for the number. Digits beyond those that count one by one are never written.
-/

namespace ComparisonRules.Json

/-- No number goes on with the text. -/
def EndsNumber (rest : List Char) : Prop :=
  Text.StopsAt (fun c => c.isDigit || c == '.' || c == 'e' || c == 'E') rest

theorem EndsNumber.stopsAt_isDigit {rest : List Char} (h : EndsNumber rest) :
    Text.StopsAt Char.isDigit rest := by
  intro c hc
  have hstop := h c hc
  simp only [Bool.or_eq_false_iff] at hstop
  exact hstop.1.1.1

/-! ## Digits that count -/

theorem ofDigits_dropWhile_zero (ds : List Char) :
    Decimal.ofDigits (ds.dropWhile fun d => d == '0') = Decimal.ofDigits ds := by
  induction ds with
  | nil => rfl
  | cons d ds ih =>
      by_cases hzero : d = '0'
      · subst hzero
        rw [List.dropWhile_cons_of_pos rfl, ih, Decimal.ofDigits_cons, Nat.sub_self,
          Nat.mul_zero, Nat.zero_add]
      · rw [List.dropWhile_cons_of_neg (by simpa using hzero)]

theorem pow_le_ofDigits {d : Char} {ds : List Char} (hdigit : d.isDigit = true) (hne : d ≠ '0') :
    10 ^ ds.length ≤ Decimal.ofDigits (d :: ds) := by
  have hlow := (Token.toNat_of_isDigit hdigit).1
  have hzero : '0'.toNat = 48 := rfl
  have hcode : d.toNat ≠ 48 := by
    intro heq
    exact hne (Char.toNat_inj.mp heq)
  have hle : 10 ^ ds.length * 1 ≤ 10 ^ ds.length * (d.toNat - '0'.toNat) :=
    Nat.mul_le_mul_left _ (by omega)
  rw [Decimal.ofDigits_cons]
  omega

namespace Numeral

theorem exists_fraction_eq (n : Numeral) :
    ∃ count, n.fraction = n.trimmedFraction ++ List.replicate count '0' := by
  refine ⟨(n.fraction.reverse.takeWhile fun d => d == '0').length, ?_⟩
  have hzeros : (n.fraction.reverse.takeWhile fun d => d == '0')
      = List.replicate (n.fraction.reverse.takeWhile fun d => d == '0').length '0' := by
    refine List.eq_replicate_of_mem ?_
    intro d hd
    simpa using Text.of_mem_takeWhile hd
  have hsplit := List.takeWhile_append_dropWhile (p := fun d => d == '0') (l := n.fraction.reverse)
  have hreverse := congrArg List.reverse hsplit
  rw [List.reverse_append, List.reverse_reverse] at hreverse
  rw [← List.reverse_replicate, ← hzeros]
  exact hreverse.symm

theorem length_digits_le {n : Numeral} {places : Nat}
    (hdigits : ∀ c ∈ n.whole ++ n.fraction, c.isDigit = true)
    (hvalue : Decimal.ofDigits (n.whole ++ n.fraction) < 10 ^ places) :
    n.digits.length ≤ places := by
  obtain ⟨count, hfraction⟩ := n.exists_fraction_eq
  have hle : Decimal.ofDigits n.digits ≤ Decimal.ofDigits (n.whole ++ n.fraction) := by
    rw [hfraction, ← List.append_assoc, Decimal.ofDigits_append_zeros, digits,
      ofDigits_dropWhile_zero]
    exact Nat.le_mul_of_pos_right _ (Nat.pow_pos (by decide))
  cases hcount : n.digits with
  | nil => exact Nat.zero_le _
  | cons d ds =>
      have hmem : d ∈ n.whole ++ n.fraction := by
        have hd : d ∈ n.digits := by rw [hcount]; exact List.mem_cons_self
        have hd' := (List.dropWhile_sublist _).mem hd
        rw [hfraction, ← List.append_assoc]
        exact List.mem_append_left _ hd'
      have hne : d ≠ '0' := by
        have hhead := List.head?_dropWhile_not (fun d => d == '0') (n.whole ++ n.trimmedFraction)
        rw [← digits, hcount] at hhead
        simpa using hhead
      have hpow := @pow_le_ofDigits d ds (hdigits d hmem) hne
      rw [hcount] at hle
      have hlt : 10 ^ ds.length < 10 ^ places := by omega
      exact (Nat.pow_lt_pow_iff_right (by decide)).mp hlt

end Numeral

/-! ## Cutting off -/

theorem cutDigits_append {digits rest : List Char} (hne : digits ≠ [])
    (hdigits : ∀ d ∈ digits, d.isDigit = true) (hrest : Text.StopsAt Char.isDigit rest) :
    cutDigits (digits ++ rest) = .ok ⟨digits, rest⟩ := by
  obtain ⟨d, ds, rfl⟩ := List.exists_cons_of_ne_nil hne
  rw [cutDigits, Decimal.splitDigits_append_of_stopsAt hdigits hrest]

theorem cutWhole_append {whole rest : List Char} (hne : whole ≠ [])
    (hdigits : ∀ d ∈ whole, d.isDigit = true) (hleading : whole.head? = some '0' → whole = ['0'])
    (hrest : Text.StopsAt Char.isDigit rest) :
    cutWhole (whole ++ rest) = .ok ⟨whole, rest⟩ := by
  rw [cutWhole, cutDigits_append hne hdigits hrest, ok_bind]
  dsimp only
  split
  · cases hleading rfl
  · rfl

theorem cutFraction_pointed {fraction rest : List Char} (hne : fraction ≠ [])
    (hdigits : ∀ d ∈ fraction, d.isDigit = true) (hrest : Text.StopsAt Char.isDigit rest) :
    cutFraction ('.' :: (fraction ++ rest)) = .ok ⟨fraction, rest⟩ :=
  cutDigits_append hne hdigits hrest

theorem cutExponent_of_endsNumber {rest : List Char} (h : EndsNumber rest) :
    cutExponent rest = .ok ⟨none, rest⟩ := by
  cases rest with
  | nil => rfl
  | cons c rest =>
      have hstop := h c rfl
      simp only [Bool.or_eq_false_iff, beq_eq_false_iff_ne] at hstop
      have hmark : ¬ (c = 'e' ∨ c = 'E') := by
        intro hc
        cases hc with
        | inl hc => exact hstop.1.2 hc
        | inr hc => exact hstop.2 hc
      rw [cutExponent.eq_def]
      exact if_neg hmark

theorem cutExponent_signed {digits rest : List Char} (power : Int)
    (hne : digits ≠ []) (hdigits : ∀ d ∈ digits, d.isDigit = true)
    (hvalue : Decimal.ofDigits digits = power.natAbs) (hrest : Text.StopsAt Char.isDigit rest) :
    cutExponent ('e' :: (if power < 0 then '-' else '+') :: (digits ++ rest))
      = .ok ⟨some power, rest⟩ := by
  by_cases hnegative : power < 0
  · rw [if_pos hnegative, cutExponent, if_pos (Or.inl rfl)]
    dsimp only
    rw [cutDigits_append hne hdigits hrest, ok_bind]
    dsimp only
    rw [hvalue, if_pos rfl, Int.ofNat_natAbs_of_nonpos (by omega), Int.neg_neg]
    rfl
  · rw [if_neg hnegative, cutExponent, if_pos (Or.inl rfl)]
    dsimp only
    rw [cutDigits_append hne hdigits hrest, ok_bind]
    dsimp only
    rw [hvalue, if_neg (by simp), Int.natAbs_of_nonneg (by omega)]
    rfl

/-! ## Numerals -/

theorem cutNumeral_eq_ok (negative : Bool) {cs rest rest' rest'' whole fraction : List Char}
    {exponent : Option Int} (hwhole : cutWhole cs = .ok ⟨whole, rest⟩)
    (hfraction : cutFraction rest = .ok ⟨fraction, rest'⟩)
    (hexponent : cutExponent rest' = .ok ⟨exponent, rest''⟩) :
    cutNumeral negative cs = .ok ⟨⟨negative, whole, fraction, exponent.getD 0,
      fraction.isEmpty && exponent.isNone⟩, rest''⟩ := by
  rw [cutNumeral, hwhole, ok_bind]
  dsimp only
  rw [hfraction, ok_bind]
  dsimp only
  rw [hexponent, ok_bind]
  rfl

theorem cutNumeral_pointed (negative : Bool) {whole fraction rest : List Char}
    (hwhole : whole ≠ []) (hdigits : ∀ c ∈ whole, c.isDigit = true)
    (hleading : whole.head? = some '0' → whole = ['0'])
    (hfraction : fraction ≠ []) (hdigits' : ∀ c ∈ fraction, c.isDigit = true)
    (hrest : EndsNumber rest) :
    cutNumeral negative (whole ++ '.' :: (fraction ++ rest))
      = .ok ⟨⟨negative, whole, fraction, 0, false⟩, rest⟩ := by
  have hpoint : Text.StopsAt Char.isDigit ('.' :: (fraction ++ rest)) :=
    Text.stopsAt_cons (by decide)
  have hcut := cutNumeral_eq_ok negative (cutWhole_append hwhole hdigits hleading hpoint)
    (cutFraction_pointed hfraction hdigits' hrest.stopsAt_isDigit)
    (cutExponent_of_endsNumber hrest)
  rw [List.isEmpty_eq_false_iff.mpr hfraction] at hcut
  exact hcut

theorem cutNumeral_scientific (negative : Bool) {first : Char} {fraction digits rest : List Char}
    (power : Int) (hfirst : first.isDigit = true) (hfraction : ∀ c ∈ fraction, c.isDigit = true)
    (hne : digits ≠ []) (hdigits : ∀ c ∈ digits, c.isDigit = true)
    (hvalue : Decimal.ofDigits digits = power.natAbs) (hrest : EndsNumber rest) :
    cutNumeral negative (first :: ((if fraction.isEmpty then [] else '.' :: fraction)
        ++ ('e' :: (if power < 0 then '-' else '+') :: (digits ++ rest))))
      = .ok ⟨⟨negative, [first], fraction, power, false⟩, rest⟩ := by
  have hmark : Text.StopsAt Char.isDigit
      ('e' :: (if power < 0 then '-' else '+') :: (digits ++ rest)) :=
    Text.stopsAt_cons (by decide)
  have hexponent := cutExponent_signed power hne hdigits hvalue hrest.stopsAt_isDigit
  have hwhole : ∀ d ∈ [first], d.isDigit = true := by simp [hfirst]
  have hleading : [first].head? = some '0' → [first] = ['0'] := by simp
  by_cases hempty : fraction = []
  · subst hempty
    exact cutNumeral_eq_ok negative (cutWhole_append (by simp) hwhole hleading hmark) rfl hexponent
  · have hpoint : Text.StopsAt Char.isDigit
        ('.' :: (fraction ++ 'e' :: (if power < 0 then '-' else '+') :: (digits ++ rest))) :=
      Text.stopsAt_cons (by decide)
    have hcut := cutNumeral_eq_ok negative (cutWhole_append (by simp) hwhole hleading hpoint)
      (cutFraction_pointed hempty hfraction hmark) hexponent
    rw [List.isEmpty_eq_false_iff.mpr hempty] at hcut ⊢
    exact hcut

theorem Numeral.number_eq {n : Numeral} {places : Nat}
    (hdigits : ∀ c ∈ n.whole ++ n.fraction, c.isDigit = true)
    (hvalue : Decimal.ofDigits (n.whole ++ n.fraction) < 10 ^ places)
    (hplaces : places ≤ maxDigits) :
    n.number = .signed n.negative (Decimal.ofParts n.whole n.fraction n.exponent).magnitude := by
  have hle := Nat.le_trans (length_digits_le hdigits hvalue) hplaces
  rw [number, decimal, if_pos hle]

/-- Whatever follows that cannot belong to it, the text is cut off as a numeral of the
magnitude. -/
def IsNumeralOf (negative : Bool) (text : List Char) (m : Magnitude) : Prop :=
  ∃ numeral : Numeral, numeral.number = .signed negative m ∧
    ∀ rest, EndsNumber rest → cutNumeral negative (text ++ rest) = .ok ⟨numeral, rest⟩

theorem isNumeralOf_pointed (negative : Bool) {whole fraction : List Char} {places : Nat}
    (hwhole : whole ≠ []) (hdigits : ∀ c ∈ whole, c.isDigit = true)
    (hleading : whole.head? = some '0' → whole = ['0'])
    (hfraction : fraction ≠ []) (hdigits' : ∀ c ∈ fraction, c.isDigit = true)
    (hvalue : Decimal.ofDigits (whole ++ fraction) < 10 ^ places)
    (hplaces : places ≤ Numeral.maxDigits) :
    IsNumeralOf negative (whole ++ '.' :: fraction)
      (Decimal.ofParts whole fraction 0).magnitude := by
  have hall : ∀ c ∈ whole ++ fraction, c.isDigit = true := by
    intro c hc
    cases List.mem_append.mp hc with
    | inl hc => exact hdigits c hc
    | inr hc => exact hdigits' c hc
  refine ⟨⟨negative, whole, fraction, 0, false⟩, Numeral.number_eq hall hvalue hplaces, ?_⟩
  intro rest hrest
  rw [List.append_assoc]
  exact cutNumeral_pointed negative hwhole hdigits hleading hfraction hdigits' hrest

theorem isNumeralOf_spelledOut (negative : Bool) {d : Decimal} (hpos : 0 < d.significand)
    (hlength : (Decimal.digits d.significand).length ≤ Numeral.maxDigits) (htop : d.top ≤ 16) :
    IsNumeralOf negative (d.spelledOut ++ if 0 ≤ d.exponent then ['.', '0'] else [])
      d.magnitude := by
  have hlt := Decimal.lt_pow_length_digits d.significand
  have htop' : d.top = d.exponent + (Decimal.digits d.significand).length := rfl
  obtain ⟨whole, fraction, hspells, hcases⟩ := Decimal.exists_spells hpos
  have hsignificand : Decimal.ofDigits (whole ++ fraction)
      = d.significand * 10 ^ d.exponent.toNat := congrArg Decimal.significand hspells.value
  cases hcases with
  | inl hwhole =>
      obtain ⟨hexponent, rfl, htext⟩ := hwhole
      have hdigits : ∀ c ∈ ['0'], c.isDigit = true := by simp
      have hvalue : Decimal.ofDigits (whole ++ ['0'])
          = d.significand * 10 ^ (d.exponent.toNat + 1) := by
        have happend := Decimal.ofDigits_append_zeros whole 1
        rw [List.append_nil] at hsignificand
        rw [hsignificand, Nat.mul_assoc, ← Nat.pow_add] at happend
        exact happend
      have hmagnitude : (Decimal.ofParts whole ['0'] 0).magnitude = d.magnitude := by
        have hexponent' : (0 : Int) - (1 : Nat) + (d.exponent.toNat + 1 : Nat) = d.exponent := by
          omega
        rw [Decimal.ofParts, hvalue, Decimal.magnitude_mul_pow, List.length_singleton, hexponent']
      have hbound : Decimal.ofDigits (whole ++ ['0'])
          < 10 ^ ((Decimal.digits d.significand).length + (d.exponent.toNat + 1)) := by
        have hpow : 0 < 10 ^ (d.exponent.toNat + 1) := Nat.pow_pos (by decide)
        rw [hvalue, Nat.pow_add 10 (Decimal.digits d.significand).length]
        exact Nat.mul_lt_mul_of_pos_right hlt hpow
      have hplaces : (Decimal.digits d.significand).length + (d.exponent.toNat + 1)
          ≤ Numeral.maxDigits := by
        have hmax : Numeral.maxDigits = 768 := rfl
        omega
      rw [if_pos hexponent, htext, ← hmagnitude]
      exact isNumeralOf_pointed negative hspells.whole_ne hspells.isDigit_whole hspells.leading
        (by simp) hdigits hbound hplaces
  | inr hpointed =>
      obtain ⟨hexponent, hne, htext⟩ := hpointed
      have hzero : d.exponent.toNat = 0 := by omega
      have hbound : Decimal.ofDigits (whole ++ fraction)
          < 10 ^ (Decimal.digits d.significand).length := by
        rw [hsignificand, hzero, Nat.pow_zero, Nat.mul_one]
        exact hlt
      rw [if_neg (by omega), List.append_nil, htext, ← hspells.magnitude_eq]
      exact isNumeralOf_pointed negative hspells.whole_ne hspells.isDigit_whole hspells.leading
        hne hspells.isDigit_fraction hbound hlength

theorem isNumeralOf_scientific (negative : Bool) {d : Decimal}
    (hlength : (Decimal.digits d.significand).length ≤ Numeral.maxDigits) :
    IsNumeralOf negative d.scientific d.magnitude := by
  obtain ⟨first, fraction, hdigits⟩ :=
    List.exists_cons_of_ne_nil (Decimal.digits_ne_nil d.significand)
  have hall : ∀ c ∈ first :: fraction, c.isDigit = true := by
    rw [← hdigits]
    exact Decimal.isDigit_of_mem_digits
  have hvalue : Decimal.ofDigits ([first] ++ fraction) = d.significand := by
    rw [List.singleton_append, ← hdigits, Decimal.ofDigits_digits]
  have hbound : Decimal.ofDigits ([first] ++ fraction)
      < 10 ^ (Decimal.digits d.significand).length := by
    rw [hvalue]
    exact Decimal.lt_pow_length_digits _
  have hparts : Decimal.ofParts [first] fraction (d.top - 1) = d := by
    have hexponent : d.top - 1 - fraction.length = d.exponent := by
      unfold Decimal.top
      rw [hdigits, List.length_cons]
      omega
    rw [Decimal.ofParts, hvalue, hexponent]
  have hnumber := @Numeral.number_eq ⟨negative, [first], fraction, d.top - 1, false⟩ _ hall
    hbound hlength
  refine ⟨⟨negative, [first], fraction, d.top - 1, false⟩, ?_, ?_⟩
  · rw [hnumber, hparts]
  · intro rest hrest
    have hcut := cutNumeral_scientific negative (d.top - 1) (hall first List.mem_cons_self)
      (fun c hc => hall c (List.mem_cons_of_mem _ hc)) (Decimal.digits_ne_nil _)
      Decimal.isDigit_of_mem_digits (Decimal.ofDigits_digits _) hrest
    unfold Decimal.scientific
    dsimp only
    rw [hdigits, List.take_succ_cons, List.take_zero, List.drop_succ_cons, List.drop_zero]
    simpa using hcut

/-- The text of a decimal is a numeral that has its magnitude, as long as no more digits are
written than count. -/
theorem isNumeralOf_jsonText (negative : Bool) {d : Decimal}
    (hlength : (Decimal.digits d.significand).length ≤ Numeral.maxDigits) :
    IsNumeralOf negative d.jsonText d.magnitude := by
  unfold Decimal.jsonText
  by_cases hzero : d.significand = 0
  · have hdigits : ∀ c ∈ ['0'], c.isDigit = true := by simp
    have hmagnitude : (Decimal.ofParts ['0'] ['0'] 0).magnitude = d.magnitude := by
      rw [Decimal.magnitude, Decimal.magnitude, if_pos hzero]
      exact if_pos rfl
    have hbound : Decimal.ofDigits (['0'] ++ ['0']) < 10 ^ 1 := by decide
    rw [if_pos hzero, ← hmagnitude]
    exact isNumeralOf_pointed negative (by simp) hdigits (by simp) (by simp) hdigits hbound
      (by decide)
  · have hpos := Nat.pos_of_ne_zero hzero
    rw [if_neg hzero]
    by_cases hsmall : -5 ≤ d.top - 1 ∧ d.top - 1 < 16
    · rw [if_pos hsmall]
      exact isNumeralOf_spelledOut negative hpos hlength (by omega)
    · rw [if_neg hsmall]
      exact isNumeralOf_scientific negative hlength

end ComparisonRules.Json
