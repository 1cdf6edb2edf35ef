import Mathlib.Data.List.Forall2
import ComparisonRules.Proofs.Token.Moved

/-!
# Layouts of tokens

The same tokens can be written in more than one way: with other white space between them, with a
connective in another case, or with a string between other quotes. The scanner finds the tokens
again in every layout, and what they mean stays.
-/

namespace ComparisonRules.Token

/-- The tokens are of one kind, and have the same name or value if they are of a kind that has
one. -/
structure Alike (t u : Token) : Prop where
  kind : t.kind = u.kind
  name : t.kind = .identifier → t.lexeme = u.lexeme
  value : t.kind.isLiteral = true → ∃ value, t.literal = some value ∧ u.literal = some value

/-- The characters that a token may be written with. -/
inductive WrittenAs : Token → List Char → Prop where
  | same {t : Token} : WrittenAs t t.lexeme.toList
  | word {t : Token} {connective : Connective} {chars : List Char} :
      t.kind = .connective connective → connective.IsSpelling (String.ofList chars) →
      WrittenAs t chars
  | quoted {t : Token} {quote : Char} {body : List Char} :
      t.kind = .string → t.literal = some (.string (String.ofList body)) →
      quote = Text.singleQuote ∨ quote = Text.doubleQuote → quote ∉ body →
      WrittenAs t (quote :: (body ++ [quote]))

/-- The characters are the tokens in order, with white space between them. White space may also
stand in front of the first token and behind the last one. -/
inductive LaidOut : List Token → List Char → Prop where
  | blanks {gap : List Char} : (∀ c ∈ gap, Text.isBlank c = true) → LaidOut [] gap
  | token {t : Token} {tokens : List Token} {gap chars rest : List Char} :
      (∀ c ∈ gap, Text.isBlank c = true) → t.WrittenAs chars →
      (∀ c, rest.head? = some c → Text.isBlank c = true) → LaidOut tokens rest →
      LaidOut (t :: tokens) (gap ++ (chars ++ rest))

theorem alike_endAt (offset other : Nat) : Alike (endAt offset) (endAt other) :=
  ⟨rfl, fun _ => rfl, by simp [endAt, Kind.isLiteral]⟩

/-! ## Scans of layouts -/

section

variable {t : Token} {chars behind rest : List Char}

theorem WrittenAs.fits (h : t.WrittenAs chars)
    (hfits : Fits t.kind t.lexeme.toList t.literal behind)
    (hrest : ∀ c, rest.head? = some c → Text.isBlank c = true) :
    Fits t.kind chars t.literal rest := by
  have hends : ∀ c, rest.head? = some c → EndsToken c :=
    fun c hc => endsToken_of_isBlank (hrest c hc)
  cases h with
  | same => exact hfits.of_endsToken hends
  | @word connective _ hkind hword =>
      have hliteral : t.literal = none := by
        have hsome : t.literal.isSome = false := by rw [hfits.isSome_literal, hkind]; rfl
        simpa using hsome
      rw [hkind, hliteral]
      exact fits_of_isSpelling hword fun c hc => (hends c hc).name
  | quoted hkind hliteral hquote hbody =>
      rw [hkind, hliteral]
      exact .string hquote hbody

theorem WrittenAs.alike (h : t.WrittenAs chars)
    (hfits : Fits t.kind t.lexeme.toList t.literal behind) (offset : Nat) :
    Alike t ⟨t.kind, String.ofList chars, t.literal, offset⟩ := by
  refine ⟨rfl, ?_, ?_⟩
  · intro hkind
    cases h with
    | same => exact String.ofList_toList.symm
    | word hconnective _ => cases hkind.symm.trans hconnective
    | quoted hstring _ _ _ => cases hkind.symm.trans hstring
  · intro hkind
    obtain ⟨value, hvalue⟩ := Option.isSome_iff_exists.mp (hfits.isSome_literal.trans hkind)
    exact ⟨value, hvalue, hvalue⟩

end

theorem LaidOut.scansAs {tokens : List Token} {chars : List Char} (h : LaidOut tokens chars)
    (hfits : ∀ t ∈ tokens, ∃ behind, Fits t.kind t.lexeme.toList t.literal behind)
    (offset : Nat) :
    ∃ tokens', ScansAs offset chars [] tokens' ∧ List.Forall₂ Alike tokens tokens' := by
  induction h generalizing offset with
  | blanks hblank => exact ⟨[], .blanks hblank offset [], .nil⟩
  | @token t tokens gap chars rest hblank hwritten hrest _ ih =>
      obtain ⟨⟨behind, hfirst⟩, hothers⟩ := List.forall_mem_cons.mp hfits
      obtain ⟨tokens', hscan, halike⟩ :=
        ih hothers (offset + Text.byteLength gap + Text.byteLength chars)
      have hgap : ScansAs offset gap (chars ++ rest ++ []) [] := .blanks hblank offset _
      have htoken : ScansAs (offset + Text.byteLength gap) chars (rest ++ [])
          [⟨t.kind, String.ofList chars, t.literal, offset + Text.byteLength gap⟩] := by
        rw [List.append_nil]
        exact .of_fits (hwritten.fits hfirst hrest)
      exact ⟨_, hgap.append (htoken.append hscan), .cons (hwritten.alike hfirst _) halike⟩

theorem scan_of_laidOut {text other : String} {tokens : List Token}
    (h : scan text = .ok tokens) (hother : LaidOut tokens.dropLast other.toList) :
    ∃ tokens', scan other = .ok tokens' ∧ List.Forall₂ Alike tokens tokens' := by
  obtain ⟨pieces, rfl, hcuts⟩ := cuts_of_scanFrom h
  rw [List.dropLast_concat] at hother
  have hfits : ∀ t ∈ pieces, ∃ behind, Fits t.kind t.lexeme.toList t.literal behind := by
    intro t ht
    obtain ⟨-, behind, -, -, hfits⟩ := hcuts.placed t ht
    exact ⟨behind, hfits⟩
  obtain ⟨tokens', hscan, halike⟩ := hother.scansAs hfits 0
  exact ⟨_, hscan.scan_eq, List.rel_append halike (.cons (alike_endAt _ _) .nil)⟩

end ComparisonRules.Token
