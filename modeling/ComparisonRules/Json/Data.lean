import ComparisonRules.Number.Layout
import ComparisonRules.Text.Quoted

/-!
# Writing JSON

JSON data with its members in the order in which they are written, and the text for it.
Compact text has no spaces; pretty text puts every item on a line of its own, indented by
two spaces for each level.
-/

namespace ComparisonRules.Json

/-- Data to be written as JSON. -/
inductive Data where
  | null
  | bool (b : Bool)
  | number (n : Number)
  | string (s : String)
  | array (items : List Data)
  | object (members : List (String × Data))

/-- What is put before an item at a level, and between a name and its value. -/
structure Style where
  lineBreak : Nat → List Char
  separator : List Char

def Style.compact : Style :=
  ⟨fun _ => [], [':']⟩

def Style.pretty : Style :=
  ⟨fun level => '\n' :: List.replicate (2 * level) ' ', [':', ' ']⟩

/-- A control character as four hexadecimal digits after a backslash and `u`. -/
def controlEscape (c : Char) : List Char :=
  [Text.backslash, 'u', '0', '0', Nat.digitChar (c.toNat / 16), Nat.digitChar (c.toNat % 16)]

/-- One character inside a JSON string. Everything but quotes, backslashes and control
characters stands for itself. -/
def escape (c : Char) : List Char :=
  if c = Text.doubleQuote ∨ c = Text.backslash then [Text.backslash, c]
  else if c = '\x08' then [Text.backslash, 'b']
  else if c = '\x0c' then [Text.backslash, 'f']
  else if c = '\n' then [Text.backslash, 'n']
  else if c = '\r' then [Text.backslash, 'r']
  else if c = '\t' then [Text.backslash, 't']
  else if c.toNat < 0x20 then controlEscape c
  else [c]

def stringText (s : String) : List Char :=
  Text.doubleQuote :: s.toList.flatMap escape ++ [Text.doubleQuote]

def boolText (b : Bool) : List Char :=
  if b then ['t', 'r', 'u', 'e'] else ['f', 'a', 'l', 's', 'e']

namespace Data

mutual

/-- The text of data that stands at the given level. -/
def write (style : Style) (level : Nat) : Data → List Char
  | null => ['n', 'u', 'l', 'l']
  | bool b => boolText b
  | number n => n.jsonText
  | string s => stringText s
  | array [] => ['[', ']']
  | array (first :: rest) =>
      '[' :: style.lineBreak (level + 1) ++ write style (level + 1) first
        ++ writeItems style level rest
  | object [] => ['\x7b', '\x7d']
  | object ((name, first) :: rest) =>
      '\x7b' :: style.lineBreak (level + 1) ++ stringText name ++ style.separator
        ++ write style (level + 1) first ++ writeMembers style level rest

/-- The items behind the first one, and the end of the array. -/
def writeItems (style : Style) (level : Nat) : List Data → List Char
  | [] => style.lineBreak level ++ [']']
  | item :: rest =>
      ',' :: style.lineBreak (level + 1) ++ write style (level + 1) item
        ++ writeItems style level rest

/-- The members behind the first one, and the end of the object. -/
def writeMembers (style : Style) (level : Nat) : List (String × Data) → List Char
  | [] => style.lineBreak level ++ ['\x7d']
  | (name, item) :: rest =>
      ',' :: style.lineBreak (level + 1) ++ stringText name ++ style.separator
        ++ write style (level + 1) item ++ writeMembers style level rest

end

def compactText (data : Data) : String :=
  String.ofList (data.write .compact 0)

def prettyText (data : Data) : String :=
  String.ofList (data.write .pretty 0)

end Data

end ComparisonRules.Json
