import ComparisonRules.Text.Alphabetic
import ComparisonRules.Text.Numeric
import ComparisonRules.Text.GraphemeExtend
import ComparisonRules.Text.Unprintable

/-!
# Classes of characters

Which characters are blank, may stand in a name, or can be shown as they are. All classes
are those of the Unicode standard and cover every character, not only ASCII.
-/

namespace ComparisonRules.Text

def blankRanges : Ranges := [
  (0x9, 0xd), (0x20, 0x20), (0x85, 0x85), (0xa0, 0xa0), (0x1680, 0x1680), (0x2000, 0x200a),
  (0x2028, 0x2029), (0x202f, 0x202f), (0x205f, 0x205f), (0x3000, 0x3000)]

/-- White space separates tokens and means nothing else. -/
def isBlank (c : Char) : Bool :=
  blankRanges.contains c.toNat

/-- Letters and everything else that makes up words. -/
def isAlphabetic (c : Char) : Bool :=
  alphabeticRanges.contains c.toNat

/-- Alphabetic characters and numbers of every script. -/
def isAlphanumeric (c : Char) : Bool :=
  isAlphabetic c || numericRanges.contains c.toNat

/-- Sound marks of halfwidth katakana. They belong to the character before them, but take up
room of their own. -/
def halfwidthSoundMarkRanges : Ranges := [(0xff9e, 0xff9f)]

/-- Combining marks and other characters that are drawn onto the one before them. -/
def isCombining (c : Char) : Bool :=
  graphemeExtendRanges.contains c.toNat && !halfwidthSoundMarkRanges.contains c.toNat

/-- Fillers of Hangul. They are letters, but stand where a letter is left out. -/
def hangulFillerRanges : Ranges := [(0x115f, 0x1160), (0x3164, 0x3164), (0xffa0, 0xffa0)]

/-- Characters that show something when written, the plain space among them. -/
def isPrintable (c : Char) : Bool :=
  !unprintableRanges.contains c.toNat && !hangulFillerRanges.contains c.toNat

def hexDigit? (c : Char) : Option Nat :=
  if c.isDigit then some (c.toNat - 48)
  else if 'a' ≤ c ∧ c ≤ 'f' then some (c.toNat - 87)
  else if 'A' ≤ c ∧ c ≤ 'F' then some (c.toNat - 55)
  else none

def isBlankText (text : String) : Bool :=
  text.toList.all isBlank

/-- Number of bytes that the characters take in UTF-8. -/
def byteLength : List Char → Nat
  | [] => 0
  | c :: cs => c.utf8Size + byteLength cs

@[simp] theorem byteLength_nil : byteLength [] = 0 := rfl

@[simp] theorem byteLength_cons (c : Char) (cs : List Char) :
    byteLength (c :: cs) = c.utf8Size + byteLength cs := rfl

@[simp] theorem byteLength_append (cs ds : List Char) :
    byteLength (cs ++ ds) = byteLength cs + byteLength ds := by
  induction cs with
  | nil => simp
  | cons c cs ih => simp [ih, Nat.add_assoc]

end ComparisonRules.Text
