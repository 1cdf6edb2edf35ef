import ComparisonRules.Json.Data
import ComparisonRules.Json.Shape
import ComparisonRules.Node.Decode
import ComparisonRules.Record

/-!
# Stored nodes, values and records as JSON

How nodes, values and records are written and read. A value has no mark of its type: a JSON
number is a number and a JSON string is a string, and anything else is refused once it has
been read in full.
-/

namespace ComparisonRules

namespace Value

def toData : Value → Json.Data
  | number n => .number n
  | string s => .string s

def read (levels : Nat) : Json.Shape Value := fun document => do
  Json.checkWhole levels document
  match document with
  | .number n => .ok (.number n.number)
  | .string q => do
      let s ← Json.readQuotation q
      return .string s
  | _ => .error (.mismatch (.noAlternative "Value"))

end Value

namespace Record

/-- A record as a JSON object, with the fields in ascending order. -/
def toData (record : Record) : Json.Data :=
  .object (record.entries.map fun e => (e.1, e.2.toData))

/-- Reads a record. Of members with the same name the last one counts. -/
def read (levels : Nat) : Json.Shape Record := fun document => do
  let pairs ← Json.readMap levels Value.read document
  return .ofList pairs

end Record

namespace Comparator

def toData (c : Comparator) : Json.Data :=
  .string c.symbol

def read (levels : Nat) : Json.Shape Comparator :=
  Json.readVariant (all.map fun c => (c.symbol, c)) levels

end Comparator

namespace Connective

def toData (c : Connective) : Json.Data :=
  .string c.text

/-- Reads a connective, which in JSON stands in capitals. -/
def read (levels : Nat) : Json.Shape Connective :=
  Json.readVariant ([and, or].map fun c => (c.text, c)) levels

end Connective

namespace Node

def Kind.toData (kind : Kind) : Json.Data :=
  .string kind.text

def Kind.read (levels : Nat) : Json.Shape Kind :=
  Json.readVariant ([operator, operand].map fun kind => (kind.text, kind)) levels

/-- A member that is left out if it has no value. -/
def optionalMember (name : String) : Option Json.Data → List (String × Json.Data)
  | none => []
  | some data => [(name, data)]

/-- A node as a JSON object. Field and literal are left out where there are none; a missing
value or child is written as null. -/
def toData : Node → Json.Data
  | ⟨kind, value, left, right, field, literal⟩ =>
      .object (
        [("type", kind.toData),
          ("value", match value with | none => .null | some s => .string s),
          ("left", match left with | none => .null | some child => child.toData),
          ("right", match right with | none => .null | some child => child.toData)]
        ++ optionalMember "field" (field.map .string)
        ++ optionalMember "literal" (literal.map Value.toData))

/-- The part of a node that has been read. -/
structure Draft where
  kind : Option Kind
  value : Option (Option String)
  left : Option (Option Node)
  right : Option (Option Node)
  field : Option (Option String)
  literal : Option (Option Value)

def Draft.empty : Draft := ⟨none, none, none, none, none, none⟩

/-- The node that has been read. Only its kind must be given. -/
def Draft.finish (draft : Draft) : Except Json.Fault Node := do
  let kind ← Json.required "type" draft.kind
  return ⟨kind, draft.value.join, draft.left.join, draft.right.join, draft.field.join,
    draft.literal.join⟩

/-- The fields of a node, whose children are read by the given shape. -/
def jsonFields (levels : Nat) (child : Json.Shape Node) : List (Json.Field Draft) :=
  [⟨"type", false, fun d => d.kind.isSome, fun document d => do
      let kind ← Kind.read levels document
      return { d with kind := some kind }⟩,
    ⟨"value", true, fun d => d.value.isSome, fun document d => do
      let value ← Json.readOptional Json.readString document
      return { d with value := some value }⟩,
    ⟨"left", true, fun d => d.left.isSome, fun document d => do
      let left ← Json.readOptional child document
      return { d with left := some left }⟩,
    ⟨"right", true, fun d => d.right.isSome, fun document d => do
      let right ← Json.readOptional child document
      return { d with right := some right }⟩,
    ⟨"field", true, fun d => d.field.isSome, fun document d => do
      let field ← Json.readOptional Json.readString document
      return { d with field := some field }⟩,
    ⟨"literal", true, fun d => d.literal.isSome, fun document d => do
      let literal ← Json.readOptional (Value.read levels) document
      return { d with literal := some literal }⟩]

def read : Nat → Json.Shape Node
  | 0 => Json.refuseDeep "struct Node"
  | levels + 1 =>
      Json.readStructure "struct Node" (jsonFields levels (read levels)) .empty Draft.finish

end Node

end ComparisonRules
