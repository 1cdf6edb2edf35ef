import ComparisonRules.Token.Basic

/-!
# Scanning

A rule text is cut into tokens from left to right. Every token takes as many characters as
it can, white space between tokens is dropped, and the last token stands at the end of the
text. A text that cannot be cut is refused at its first character that starts no token.
-/

namespace ComparisonRules

/-- Why a text cannot be cut into tokens. -/
inductive LexError where
  | unexpectedChar (position : Nat) (found : Char)
  | unterminatedString (position : Nat)
  | numberTooLarge (position length : Nat)
deriving DecidableEq

namespace LexError

def position : LexError → Nat
  | unexpectedChar position _ => position
  | unterminatedString position => position
  | numberTooLarge position _ => position

/-- The bytes that the error is about, from the first one to the one behind the last. -/
def span : LexError → Nat × Nat
  | unexpectedChar position found => (position, position + found.utf8Size)
  | unterminatedString position => (position, position + 1)
  | numberTooLarge position length => (position, position + length)

def message : LexError → String
  | unexpectedChar position found =>
      "unexpected character '" ++ found.toString ++ "' at offset " ++ Nat.repr position
  | unterminatedString position =>
      "unterminated string starting at offset " ++ Nat.repr position
  | numberTooLarge position _ =>
      "number at offset " ++ Nat.repr position ++ " is too large"

end LexError

namespace Token

/-- A name starts with an alphabetic character or an underscore. -/
def isNameStart (c : Char) : Bool :=
  c == '_' || Text.isAlphabetic c

/-- A name goes on with alphanumeric characters and underscores. -/
def isNamePart (c : Char) : Bool :=
  c == '_' || Text.isAlphanumeric c

def isQuote (c : Char) : Bool :=
  c == Text.singleQuote || c == Text.doubleQuote

/-- A token that has no place in a text yet. -/
structure Piece where
  kind : Kind
  chars : List Char
  literal : Option Value

/-- The piece as a token at the given offset. -/
def Piece.placedAt (piece : Piece) (offset : Nat) : Token :=
  ⟨piece.kind, String.ofList piece.chars, piece.literal, offset⟩

/-- The comparator that starts with the character. Two characters go before one. -/
def comparatorAt? (c : Char) (rest : List Char) : Option Comparator :=
  if rest.head? = some '=' then
    match c with
    | '=' => some .equal
    | '!' => some .notEqual
    | '<' => some .lessOrEqual
    | '>' => some .greaterOrEqual
    | _ => none
  else
    match c with
    | '<' => some .less
    | '>' => some .greater
    | _ => none

/-- A name is a connective if it is one of the two words, and otherwise an identifier. -/
def wordPiece (chars : List Char) : Piece :=
  match Connective.ofWord? (String.ofList chars) with
  | some c => ⟨.connective c, chars, none⟩
  | none => ⟨.identifier, chars, none⟩

/-- The digits behind a decimal point at the start of the text, if there are any. -/
def fractionOf : List Char → List Char
  | '.' :: rest => (Decimal.splitDigits rest).1
  | _ => []

/-- The characters of the number at the start of a text that starts with a digit. A point
belongs to the number only if a digit follows it. -/
def numberChars (cs : List Char) : List Char :=
  let (whole, rest) := Decimal.splitDigits cs
  if (fractionOf rest).isEmpty then whole else whole ++ '.' :: fractionOf rest

/-- The magnitude of the number at the start of a text that starts with a digit. -/
def numberMagnitude (cs : List Char) : Magnitude :=
  let (whole, rest) := Decimal.splitDigits cs
  (Decimal.ofParts whole (fractionOf rest) 0).magnitude

/-- The piece that starts with the character `c`, with `rest` behind it, at the given
offset. -/
def pieceAt (offset : Nat) (c : Char) (rest : List Char) : Except LexError Piece :=
  if c = '(' then .ok ⟨.leftParen, [c], none⟩
  else if c = ')' then .ok ⟨.rightParen, [c], none⟩
  else if isQuote c then
    let body := rest.takeWhile fun d => d != c
    if body.length < rest.length then
      .ok ⟨.string, c :: body ++ [c], some (.string (String.ofList body))⟩
    else .error (.unterminatedString offset)
  else if c.isDigit then
    let magnitude := numberMagnitude (c :: rest)
    let chars := numberChars (c :: rest)
    if magnitude.isFinite then .ok ⟨.number, chars, some (.number (.signed false magnitude))⟩
    else .error (.numberTooLarge offset (Text.byteLength chars))
  else if isNameStart c then .ok (wordPiece (c :: rest.takeWhile isNamePart))
  else match comparatorAt? c rest with
    | some comparator => .ok ⟨.comparator comparator, comparator.symbol.toList, none⟩
    | none => .error (.unexpectedChar offset c)

/-- Cuts the characters into tokens; the first one stands at the given offset. -/
def scanFrom (offset : Nat) : List Char → Except LexError (List Token)
  | [] => .ok [endAt offset]
  | c :: rest =>
      if Text.isBlank c then scanFrom (offset + c.utf8Size) rest
      else
        match pieceAt offset c rest with
        | .error e => .error e
        | .ok piece =>
            match scanFrom (offset + Text.byteLength piece.chars)
                (rest.drop (piece.chars.length - 1)) with
            | .error e => .error e
            | .ok tokens => .ok (piece.placedAt offset :: tokens)
termination_by cs => cs.length
decreasing_by
  · simp
  · simp only [List.length_drop, List.length_cons]
    omega

/-- The tokens of a text, the end of input as the last. -/
def scan (text : String) : Except LexError (List Token) :=
  scanFrom 0 text.toList

end Token

end ComparisonRules
