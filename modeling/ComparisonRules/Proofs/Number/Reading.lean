import ComparisonRules.Number.Reading
import ComparisonRules.Proofs.Text.Class

/-!
# Reading plain numerals

A plain numeral is digits, or digits, a point and digits. Read on its own it gives the value
of its decimal; there is no sign, no exponent and no word in it.
-/

namespace ComparisonRules

/-- Digits, or digits on both sides of a point. -/
inductive Decimal.IsPlain : List Char → Prop where
  | whole {digits : List Char} :
      digits ≠ [] → (∀ d ∈ digits, d.isDigit = true) → IsPlain digits
  | pointed {whole fraction : List Char} :
      whole ≠ [] → (∀ d ∈ whole, d.isDigit = true) →
      fraction ≠ [] → (∀ d ∈ fraction, d.isDigit = true) →
      IsPlain (whole ++ '.' :: fraction)

namespace Decimal

theorem splitDigits_append_of_stopsAt {digits rest : List Char}
    (hdigits : ∀ d ∈ digits, d.isDigit = true) (hrest : Text.StopsAt Char.isDigit rest) :
    splitDigits (digits ++ rest) = (digits, rest) := by
  unfold splitDigits
  rw [Text.takeWhile_append_of_stopsAt hdigits hrest,
    Text.dropWhile_append_of_stopsAt hdigits hrest]

theorem splitDigits_of_forall {digits : List Char} (h : ∀ d ∈ digits, d.isDigit = true) :
    splitDigits digits = (digits, []) := by
  simpa using splitDigits_append_of_stopsAt h (Text.stopsAt_nil _)

theorem splitDigits_pointed {whole rest : List Char} (h : ∀ d ∈ whole, d.isDigit = true) :
    splitDigits (whole ++ '.' :: rest) = (whole, '.' :: rest) :=
  splitDigits_append_of_stopsAt h (Text.stopsAt_cons (by decide))

theorem IsPlain.exists_head {chars : List Char} (h : IsPlain chars) :
    ∃ d rest, chars = d :: rest ∧ d.isDigit = true := by
  cases h with
  | whole hne hdigits =>
      obtain ⟨d, rest, rfl⟩ := List.exists_cons_of_ne_nil hne
      exact ⟨d, rest, rfl, hdigits d List.mem_cons_self⟩
  | @pointed whole fraction hne hdigits _ _ =>
      obtain ⟨d, rest, rfl⟩ := List.exists_cons_of_ne_nil hne
      exact ⟨d, rest ++ '.' :: fraction, rfl, hdigits d List.mem_cons_self⟩

theorem IsPlain.isDigit_or_eq {chars : List Char} (h : IsPlain chars) :
    ∀ c ∈ chars, c.isDigit = true ∨ c = '.' := by
  intro c hc
  cases h with
  | whole _ hdigits => exact Or.inl (hdigits c hc)
  | pointed _ hwhole _ hfraction =>
      rcases List.mem_append.mp hc with hc | hc
      · exact Or.inl (hwhole c hc)
      · rcases List.mem_cons.mp hc with hc | hc
        · exact Or.inr hc
        · exact Or.inl (hfraction c hc)

end Decimal

namespace Number

theorem ofText?_of_isDigit {d : Char} {rest : List Char} (h : d.isDigit = true) :
    ofText? (String.ofList (d :: rest)) =
      (decimal? (d :: rest)).map fun decimal => signed false decimal.magnitude := by
  obtain ⟨hlow, hhigh⟩ := Token.toNat_of_isDigit h
  have hsign : splitSign (d :: rest) = (false, d :: rest) := by
    unfold splitSign
    split
    · rename_i heq
      cases heq
      exact absurd hlow (by decide)
    · rename_i heq
      cases heq
      exact absurd hlow (by decide)
    · rfl
  have hlower : d.toLower = d := by
    unfold Char.toLower
    rw [dif_neg]
    intro hupper
    have hcode : 65 ≤ d.toNat := hupper.1
    omega
  have hword (first : Char) (more : List Char) (hfirst : 57 < first.toNat) :
      String.ofList ((d :: rest).map Char.toLower) ≠ String.ofList (first :: more) := by
    intro heq
    have hlist := String.ofList_injective heq
    rw [List.map_cons, hlower] at hlist
    obtain ⟨rfl, -⟩ := List.cons.inj hlist
    omega
  unfold ofText?
  rw [String.toList_ofList, hsign]
  dsimp only
  rw [if_neg (hword 'n' ['a', 'n'] (by decide)), if_neg]
  rintro (heq | heq)
  · exact hword 'i' ['n', 'f'] (by decide) heq
  · exact hword 'i' ['n', 'f', 'i', 'n', 'i', 't', 'y'] (by decide) heq

theorem decimal?_whole {digits : List Char} (hne : digits ≠ [])
    (hdigits : ∀ d ∈ digits, d.isDigit = true) :
    decimal? digits = some (Decimal.ofParts digits [] 0) := by
  simp [decimal?, Decimal.splitDigits_of_forall hdigits, exponent?, hne]

theorem decimal?_pointed {whole fraction : List Char} (hne : whole ≠ [])
    (hwhole : ∀ d ∈ whole, d.isDigit = true)
    (hfraction : ∀ d ∈ fraction, d.isDigit = true) :
    decimal? (whole ++ '.' :: fraction) = some (Decimal.ofParts whole fraction 0) := by
  simp [decimal?, Decimal.splitDigits_pointed hwhole, Decimal.splitDigits_of_forall hfraction,
    exponent?, hne]

theorem ofText?_whole {digits : List Char} (hne : digits ≠ [])
    (hdigits : ∀ d ∈ digits, d.isDigit = true) :
    ofText? (String.ofList digits)
      = some (signed false (Decimal.ofParts digits [] 0).magnitude) := by
  obtain ⟨d, rest, rfl⟩ := List.exists_cons_of_ne_nil hne
  rw [ofText?_of_isDigit (hdigits d List.mem_cons_self), decimal?_whole hne hdigits]
  rfl

theorem ofText?_pointed {whole fraction : List Char} (hne : whole ≠ [])
    (hwhole : ∀ d ∈ whole, d.isDigit = true)
    (hfraction : ∀ d ∈ fraction, d.isDigit = true) :
    ofText? (String.ofList (whole ++ '.' :: fraction))
      = some (signed false (Decimal.ofParts whole fraction 0).magnitude) := by
  have hdecimal := decimal?_pointed hne hwhole hfraction
  obtain ⟨d, rest, rfl⟩ := List.exists_cons_of_ne_nil hne
  rw [List.cons_append] at hdecimal ⊢
  rw [ofText?_of_isDigit (hwhole d List.mem_cons_self), hdecimal]
  rfl

theorem ofText?_of_isPlain {chars : List Char} (h : Decimal.IsPlain chars) :
    ∃ m, ofText? (String.ofList chars) = some (signed false m) := by
  cases h with
  | whole hne hdigits => exact ⟨_, ofText?_whole hne hdigits⟩
  | pointed hne hwhole _ hfraction => exact ⟨_, ofText?_pointed hne hwhole hfraction⟩

end Number

end ComparisonRules
