import ComparisonRules.Json.Cut
import ComparisonRules.Json.Data
import ComparisonRules.Proofs.Outcome

/-!
# Written strings read back

Every character of a written string is cut off as one unit, and the units give the string
again. Only control characters without a short escape are written as codes.
-/

namespace ComparisonRules.Json

/-- The control characters that are written as a backslash and a letter. -/
def shortEscapes : List Char := ['\x08', '\x0c', '\n', '\r', '\t']

/-- The unit that a written character is cut off as. -/
def StringUnit.ofChar (c : Char) : StringUnit :=
  if c.toNat < 0x20 ∧ c ∉ shortEscapes then .code c.toNat else .char c

/-- A string as it is written. -/
def Quotation.ofString (s : String) : Quotation :=
  ⟨s.toList.map .ofChar, none⟩

/-! ## Characters -/

theorem hexCode?_control : ∀ n < 0x20,
    hexCode? '0' '0' (Nat.digitChar (n / 16)) (Nat.digitChar (n % 16)) = some n := by
  decide

theorem cutString_controlEscape {c : Char} (h : c.toNat < 0x20) (rest : List Char) :
    cutString (controlEscape c ++ rest) = Quotation.cons (.code c.toNat) (cutString rest) := by
  have hcode := hexCode?_control c.toNat h
  simp [controlEscape, cutString, Text.backslash, Text.doubleQuote, hcode]

theorem cutString_quote {c : Char} (h : c = Text.doubleQuote ∨ c = Text.backslash)
    (rest : List Char) :
    cutString (Text.backslash :: c :: rest) = Quotation.cons (.char c) (cutString rest) := by
  rcases h with rfl | rfl <;>
    simp [cutString, unescape?, Text.backslash, Text.doubleQuote]

theorem cutString_shortEscape {c : Char} (h : c ∈ shortEscapes) (rest : List Char) :
    cutString (escape c ++ rest) = Quotation.cons (.char c) (cutString rest) := by
  simp only [shortEscapes, List.mem_cons, List.not_mem_nil, or_false] at h
  rcases h with rfl | rfl | rfl | rfl | rfl <;>
    simp [escape, cutString, unescape?, Text.backslash, Text.doubleQuote]

theorem cutString_escape (c : Char) (rest : List Char) :
    cutString (escape c ++ rest) = Quotation.cons (.ofChar c) (cutString rest) := by
  unfold StringUnit.ofChar
  by_cases hshort : c ∈ shortEscapes
  · rw [if_neg (fun h => h.2 hshort), cutString_shortEscape hshort]
  · by_cases hquote : c = Text.doubleQuote ∨ c = Text.backslash
    · have hprintable : ¬ c.toNat < 0x20 := by
        rcases hquote with rfl | rfl <;> decide
      rw [if_neg (fun h => hprintable h.1), escape, if_pos hquote]
      exact cutString_quote hquote rest
    · have hescape : escape c = if c.toNat < 0x20 then controlEscape c else [c] := by
        simp only [shortEscapes, List.mem_cons, List.not_mem_nil, or_false, not_or] at hshort
        obtain ⟨h1, h2, h3, h4, h5⟩ := hshort
        rw [escape, if_neg hquote, if_neg h1, if_neg h2, if_neg h3, if_neg h4, if_neg h5]
      rw [hescape]
      by_cases hcontrol : c.toNat < 0x20
      · rw [if_pos hcontrol, if_pos ⟨hcontrol, hshort⟩, cutString_controlEscape hcontrol]
      · rw [if_neg hcontrol, if_neg (fun h => hcontrol h.1), List.singleton_append,
          cutString.eq_def]
        dsimp only
        rw [if_neg (fun h => hquote (Or.inl h)), if_neg (fun h => hquote (Or.inr h)),
          if_neg hcontrol]

/-! ## Strings -/

theorem cutString_flatMap (cs rest : List Char) :
    cutString (cs.flatMap escape ++ Text.doubleQuote :: rest)
      = ⟨⟨cs.map .ofChar, none⟩, rest⟩ := by
  induction cs with
  | nil =>
      rw [List.flatMap_nil, List.nil_append, cutString.eq_def]
      rfl
  | cons c cs ih =>
      rw [List.flatMap_cons, List.append_assoc, cutString_escape, ih]
      rfl

theorem charsOf_ofChar (cs : List Char) :
    Quotation.charsOf none (cs.map .ofChar) = .ok cs := by
  induction cs with
  | nil => rfl
  | cons c cs ih =>
      rw [List.map_cons, StringUnit.ofChar]
      by_cases hcode : c.toNat < 0x20 ∧ c ∉ shortEscapes
      · have htrail : Quotation.isTrail c.toNat = false := decide_eq_false (by omega)
        have hlead : Quotation.isLead c.toNat = false := decide_eq_false (by omega)
        rw [if_pos hcode, Quotation.charsOf.eq_def]
        simp [htrail, hlead, ih, Char.ofNat_toNat]
      · rw [if_neg hcode]
        simp [Quotation.charsOf, ih]

@[simp] theorem text_ofString (s : String) : (Quotation.ofString s).text = .ok s := by
  unfold Quotation.text Quotation.ofString
  rw [charsOf_ofChar, ok_bind, String.ofList_toList]
  rfl

end ComparisonRules.Json
