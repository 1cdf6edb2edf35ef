import ComparisonRules.Json.Lexeme

/-!
# Faults of JSON texts

A text is refused because it breaks off, or because what it holds has the wrong shape. Of
several faults the first one in the text counts.
-/

namespace ComparisonRules.Json

/-- How a value differs from what should stand there. -/
inductive Mismatch where
  | wrongType (found expected : String)
  | missingField (name : String)
  | duplicateField (name : String)
  | unknownVariant (found : String) (known : List String)
  | noAlternative (type : String)
  | tooShort (length : Nat) (expected : String)
deriving DecidableEq

def ticked (name : String) : String :=
  "`" ++ name ++ "`"

def alternatives : List String → String
  | [] => "there are no variants"
  | [a] => "expected " ++ ticked a
  | [a, b] => "expected " ++ ticked a ++ " or " ++ ticked b
  | names => "expected one of " ++ ", ".intercalate (names.map ticked)

def Mismatch.message : Mismatch → String
  | wrongType found expected => "invalid type: " ++ found ++ ", expected " ++ expected
  | missingField name => "missing field " ++ ticked name
  | duplicateField name => "duplicate field " ++ ticked name
  | unknownVariant found known => "unknown variant " ++ ticked found ++ ", " ++ alternatives known
  | noAlternative type => "data did not match any variant of untagged enum " ++ type
  | tooShort length expected =>
      "invalid length " ++ Nat.repr length ++ ", expected " ++ expected

/-- Why a text is refused. -/
inductive Fault where
  | breaksOff (b : Break)
  | mismatch (m : Mismatch)
deriving DecidableEq

/-- The fault of a text that holds something that cannot stand there. -/
def Fault.malformed : Fault := .breaksOff .malformed

end ComparisonRules.Json
