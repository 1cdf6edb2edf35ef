import ComparisonRules.Json.Lexeme

/-!
# Cutting a JSON text

Each part is cut off the front of the text, with what is left behind it. White space
between the parts is dropped.
-/

namespace ComparisonRules.Json

/-- White space of JSON. -/
def isBlank (c : Char) : Bool :=
  c == ' ' || c == '\n' || c == '\r' || c == '\t'

def unescape? (c : Char) : Option Char :=
  if c = Text.doubleQuote ∨ c = Text.backslash ∨ c = '/' then some c
  else if c = 'b' then some '\x08'
  else if c = 'f' then some '\x0c'
  else if c = 'n' then some '\n'
  else if c = 'r' then some '\r'
  else if c = 't' then some '\t'
  else none

def hexCode? (a b c d : Char) : Option Nat := do
  let a ← Text.hexDigit? a
  let b ← Text.hexDigit? b
  let c ← Text.hexDigit? c
  let d ← Text.hexDigit? d
  return ((a * 16 + b) * 16 + c) * 16 + d

/-- A part that was cut off the front of a text, and what is left behind it. -/
structure Cut (α : Type) where
  part : α
  rest : List Char

def Quotation.cons (unit : StringUnit) (cut : Cut Quotation) : Cut Quotation :=
  ⟨⟨unit :: cut.part.units, cut.part.unclosed⟩, cut.rest⟩

def Quotation.broken (b : Break) : Cut Quotation :=
  ⟨⟨[], some b⟩, []⟩

/-- Cuts a string off a text that starts behind its opening quote. A code needs four bytes
behind it to be looked at. -/
def cutString : List Char → Cut Quotation
  | [] => Quotation.broken .ended
  | c :: rest =>
      if c = Text.doubleQuote then ⟨⟨[], none⟩, rest⟩
      else if c = Text.backslash then
        match rest with
        | [] => Quotation.broken .ended
        | 'u' :: a :: b :: c :: d :: behind =>
            match hexCode? a b c d with
            | some n => Quotation.cons (.code n) (cutString behind)
            | none => Quotation.broken .malformed
        | 'u' :: behind =>
            if Text.byteLength behind < 4 then Quotation.broken .ended
            else Quotation.broken .malformed
        | e :: behind =>
            match unescape? e with
            | some d => Quotation.cons (.char d) (cutString behind)
            | none => Quotation.broken .malformed
      else if c.toNat < 0x20 then Quotation.broken .malformed
      else Quotation.cons (.char c) (cutString rest)

/-- Cuts digits off, of which there must be at least one. -/
def cutDigits (cs : List Char) : Except Break (Cut (List Char)) :=
  match Decimal.splitDigits cs with
  | ([], []) => .error .ended
  | ([], _) => .error .malformed
  | (ds, rest) => .ok ⟨ds, rest⟩

/-- Cuts off the digits before the point. A number that starts with zero has no others. -/
def cutWhole (cs : List Char) : Except Break (Cut (List Char)) := do
  let cut ← cutDigits cs
  match cut.part with
  | '0' :: _ :: _ => .error .malformed
  | _ => .ok cut

/-- Cuts off the point and the digits behind it, if there is a point. -/
def cutFraction : List Char → Except Break (Cut (List Char))
  | '.' :: rest => cutDigits rest
  | cs => .ok ⟨[], cs⟩

/-- Cuts off the exponent, if there is one. -/
def cutExponent : List Char → Except Break (Cut (Option Int))
  | [] => .ok ⟨none, []⟩
  | e :: rest =>
      if e = 'e' ∨ e = 'E' then do
        let (negative, digits) := match rest with
          | '-' :: more => (true, more)
          | '+' :: more => (false, more)
          | _ => (false, rest)
        let cut ← cutDigits digits
        let power : Int := Decimal.ofDigits cut.part
        return ⟨some (if negative then -power else power), cut.rest⟩
      else .ok ⟨none, e :: rest⟩

/-- Cuts a number off a text that starts behind its sign. -/
def cutNumeral (negative : Bool) (cs : List Char) : Except Break (Cut Numeral) := do
  let whole ← cutWhole cs
  let fraction ← cutFraction whole.rest
  let exponent ← cutExponent fraction.rest
  return ⟨⟨negative, whole.part, fraction.part, exponent.part.getD 0,
    fraction.part.isEmpty && exponent.part.isNone⟩, exponent.rest⟩

def cutWord (word : Lexeme) : List Char → List Char → Cut Lexeme
  | [], cs => ⟨word, cs⟩
  | _ :: _, [] => ⟨.brokenWord .ended, []⟩
  | expected :: more, c :: rest =>
      if c = expected then cutWord word more rest else ⟨.brokenWord .malformed, []⟩

def cutNumber (negative : Bool) (cs : List Char) : Cut Lexeme :=
  match cutNumeral negative cs with
  | .ok cut => ⟨.number cut.part, cut.rest⟩
  | .error b => ⟨.brokenNumber b, []⟩

/-- Cuts off the part that starts with the character `c`. -/
def cutLexeme (c : Char) (rest : List Char) : Cut Lexeme :=
  match c with
  | '[' => ⟨.openArray, rest⟩
  | ']' => ⟨.closeArray, rest⟩
  | '\x7b' => ⟨.openObject, rest⟩
  | '\x7d' => ⟨.closeObject, rest⟩
  | ',' => ⟨.comma, rest⟩
  | ':' => ⟨.colon, rest⟩
  | 'n' => cutWord .null ['u', 'l', 'l'] rest
  | 't' => cutWord (.bool true) ['r', 'u', 'e'] rest
  | 'f' => cutWord (.bool false) ['a', 'l', 's', 'e'] rest
  | '-' => cutNumber true rest
  | _ =>
      if c = Text.doubleQuote then
        let cut := cutString rest
        ⟨.string cut.part, cut.rest⟩
      else if c.isDigit then cutNumber false (c :: rest)
      else ⟨.stray, []⟩

theorem length_rest_cutString (cs : List Char) : (cutString cs).rest.length ≤ cs.length := by
  fun_induction cutString cs <;>
    simp_all [Quotation.broken, Quotation.cons] <;> omega

theorem length_rest_cutDigits {cs : List Char} {cut : Cut (List Char)}
    (h : cutDigits cs = .ok cut) : cut.rest.length < cs.length := by
  unfold cutDigits at h
  split at h
  · contradiction
  · contradiction
  · rename_i digits rest hne _ hsplit
    cases h
    have happend := Decimal.splitDigits_append cs
    rw [hsplit] at happend
    have hlength := congrArg List.length happend
    cases digits with
    | nil => simp_all
    | cons d ds =>
        simp only [List.cons_append, List.length_cons, List.length_append] at hlength
        simp only
        omega

theorem length_rest_cutWhole {cs : List Char} {cut : Cut (List Char)}
    (h : cutWhole cs = .ok cut) : cut.rest.length < cs.length := by
  unfold cutWhole at h
  cases hdigits : cutDigits cs with
  | error b => simp [hdigits, bind, Except.bind] at h
  | ok found =>
      simp only [hdigits, bind, Except.bind] at h
      split at h
      · contradiction
      · cases h
        exact length_rest_cutDigits hdigits

theorem length_rest_cutFraction {cs : List Char} {cut : Cut (List Char)}
    (h : cutFraction cs = .ok cut) : cut.rest.length ≤ cs.length := by
  unfold cutFraction at h
  split at h
  · have := length_rest_cutDigits h
    simp only [List.length_cons]
    omega
  · cases h
    exact Nat.le_refl _

theorem length_rest_cutExponent {cs : List Char} {cut : Cut (Option Int)}
    (h : cutExponent cs = .ok cut) : cut.rest.length ≤ cs.length := by
  unfold cutExponent at h
  split at h
  · cases h
    exact Nat.le_refl _
  · rename_i e rest
    split at h
    · simp only [bind, Except.bind] at h
      split at h
      · contradiction
      · rename_i digits hdigits
        cases h
        have hlength := length_rest_cutDigits hdigits
        split at hlength <;> simp_all <;> omega
    · cases h
      exact Nat.le_refl _

theorem length_rest_cutNumeral {negative : Bool} {cs : List Char} {cut : Cut Numeral}
    (h : cutNumeral negative cs = .ok cut) : cut.rest.length < cs.length := by
  unfold cutNumeral at h
  cases hwhole : cutWhole cs with
  | error b => simp [hwhole, bind, Except.bind] at h
  | ok whole =>
      cases hfraction : cutFraction whole.rest with
      | error b => simp [hwhole, hfraction, bind, Except.bind] at h
      | ok fraction =>
          cases hexponent : cutExponent fraction.rest with
          | error b => simp [hwhole, hfraction, hexponent, bind, Except.bind] at h
          | ok exponent =>
              simp only [hwhole, hfraction, hexponent, bind, Except.bind] at h
              cases h
              have h1 := length_rest_cutWhole hwhole
              have h2 := length_rest_cutFraction hfraction
              have h3 := length_rest_cutExponent hexponent
              simp only
              omega

theorem length_rest_cutNumber (negative : Bool) (cs : List Char) :
    (cutNumber negative cs).rest.length ≤ cs.length - 1 := by
  unfold cutNumber
  split
  · rename_i cut hcut
    have := length_rest_cutNumeral hcut
    simp only
    omega
  · simp

theorem length_rest_cutWord (word : Lexeme) (expected cs : List Char) :
    (cutWord word expected cs).rest.length ≤ cs.length := by
  fun_induction cutWord word expected cs <;> simp_all
  omega

theorem length_rest_cutLexeme (c : Char) (rest : List Char) :
    (cutLexeme c rest).rest.length ≤ rest.length := by
  unfold cutLexeme
  split
  all_goals try exact Nat.le_refl _
  all_goals try exact length_rest_cutWord _ _ _
  · exact Nat.le_trans (length_rest_cutNumber true rest) (Nat.sub_le _ _)
  · split
    · exact length_rest_cutString rest
    · split
      · simpa using length_rest_cutNumber false (c :: rest)
      · simp

/-- The parts of a text, up to the first that it breaks off with. -/
def lexemesFrom : List Char → List Lexeme
  | [] => []
  | c :: rest =>
      if isBlank c then lexemesFrom rest
      else (cutLexeme c rest).part :: lexemesFrom (cutLexeme c rest).rest
termination_by cs => cs.length
decreasing_by
  · simp
  · have := length_rest_cutLexeme c rest
    simp only [List.length_cons]
    omega

def lexemes (text : String) : List Lexeme :=
  lexemesFrom text.toList

end ComparisonRules.Json
