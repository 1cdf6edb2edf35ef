import ComparisonRules.Text.Class

/-!
# Quoted text

A text quoted for a message stands between double quotes, with everything escaped that
would be mistaken for something else or not be seen.
-/

namespace ComparisonRules.Text

def singleQuote : Char := '\x27'

def doubleQuote : Char := '\x22'

def backslash : Char := '\x5c'

/-- A code point in hexadecimal between braces, after a backslash and `u`. -/
def escapedCodePoint (c : Char) : List Char :=
  [backslash, 'u', '\x7b'] ++ Nat.toDigits 16 c.toNat ++ ['\x7d']

/-- One character of a quoted text. Quotes of the other kind stay as they are. -/
def quotedChar (c : Char) : List Char :=
  if c = '\x00' then [backslash, '0']
  else if c = '\t' then [backslash, 't']
  else if c = '\r' then [backslash, 'r']
  else if c = '\n' then [backslash, 'n']
  else if c = backslash ∨ c = doubleQuote then [backslash, c]
  else if isCombining c || !isPrintable c then escapedCodePoint c
  else [c]

/-- The text between double quotes, escaped. -/
def quoted (text : String) : String :=
  String.ofList (doubleQuote :: text.toList.flatMap quotedChar ++ [doubleQuote])

end ComparisonRules.Text
