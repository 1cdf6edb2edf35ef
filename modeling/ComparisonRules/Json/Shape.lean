import ComparisonRules.Json.Document
import ComparisonRules.Json.Fault

/-!
# Shapes

A shape says what a document should hold, and reads it. Documents are read from left to
right, so the first fault in the text is the one that is found. At most 127 arrays and
objects may be open at once where values are read. Members that no shape asks for are only
looked at to find their end, and may be nested deeper.
-/

namespace ComparisonRules.Json

abbrev Shape (α : Type) := Document → Except Fault α

/-- How many arrays and objects may be open at once. -/
def maxLevels : Nat := 127

/-- A number as messages show it: by its digits if it is a whole number of 64 bits, with a
sign or without, and otherwise as JSON text. -/
def Numeral.description (n : Numeral) : Except Fault String :=
  let digits := n.decimal.significand
  if n.isWhole && !n.negative && decide (digits < UInt64.size) then
    .ok ("integer " ++ ticked (Nat.repr digits))
  else if n.isWhole && n.negative && decide (0 < digits ∧ digits ≤ UInt64.size / 2) then
    .ok ("integer " ++ ticked ("-" ++ Nat.repr digits))
  else if n.number.isFinite then
    .ok ("floating point " ++ ticked (String.ofList n.number.jsonText))
  else .error .malformed

/-- The string that is written, if it is written in full. -/
def readQuotation (q : Quotation) : Except Fault String :=
  match q.text with
  | .ok s => .ok s
  | .error b => .error (.breaksOff b)

/-- What a document holds, in words. It is read as far as that takes. -/
def Document.description : Document → Except Fault String
  | null => .ok "null"
  | bool b => .ok ("boolean " ++ ticked (if b then "true" else "false"))
  | number n => n.description
  | string q => do
      let s ← readQuotation q
      return "string " ++ Text.quoted s
  | array _ => .ok "sequence"
  | object _ => .ok "map"
  | brokenWord b => .error (.breaksOff b)
  | brokenNumber b => .error (.breaksOff b)
  | missing b => .error (.breaksOff b)

/-- Refuses a document that should hold something else. -/
def refuse {α : Type} (expected : String) : Shape α := fun document => do
  let found ← document.description
  .error (.mismatch (.wrongType found expected))

/-- Refuses a document at a place where no more arrays and objects may be opened. -/
def refuseDeep {α : Type} (expected : String) : Shape α
  | .array _ => .error .malformed
  | .object _ => .error .malformed
  | document => refuse expected document

/-- Reads with one level less, if there is a level left. -/
def inside {α : Type} (levels : Nat) (expected : String) (shape : Nat → Shape α) : Shape α :=
  match levels with
  | 0 => refuseDeep expected
  | levels + 1 => shape levels

def readString : Shape String
  | .string q => readQuotation q
  | document => refuse "a string" document

def readBool : Shape Bool
  | .bool b => .ok b
  | document => refuse "a boolean" document

def readOptional {α : Type} (shape : Shape α) : Shape (Option α)
  | .null => .ok none
  | document => do
      let value ← shape document
      return some value

/-- The end of an array, where it should be. -/
def readEnd : Items → Except Fault Unit
  | .closed => .ok ()
  | .broken b => .error (.breaksOff b)
  | .item _ _ => .error .malformed

def readItems {α : Type} (shape : Shape α) : Items → Except Fault (List α)
  | .closed => .ok []
  | .broken b => .error (.breaksOff b)
  | .item document rest => do
      let value ← shape document
      let values ← readItems shape rest
      return value :: values

def readList {α : Type} (levels : Nat) (shape : Nat → Shape α) : Shape (List α) :=
  inside levels "a sequence" fun levels document =>
    match document with
    | .array items => readItems (shape levels) items
    | document => refuse "a sequence" document

def readName : Name → Except Fault String
  | .written q => readQuotation q
  | .missing b => .error (.breaksOff b)

/-- All members of an object, with every name that is given. -/
def readPairs {α : Type} (shape : Shape α) : Members → Except Fault (List (String × α))
  | .closed => .ok []
  | .broken b => .error (.breaksOff b)
  | .member name document rest => do
      let name ← readName name
      let value ← shape document
      let pairs ← readPairs shape rest
      return (name, value) :: pairs

def readMap {α : Type} (levels : Nat) (shape : Nat → Shape α) : Shape (List (String × α)) :=
  inside levels "a map" fun levels document =>
    match document with
    | .object members => readPairs (shape levels) members
    | document => refuse "a map" document

def chooseVariant {α : Type} (variants : List (String × α)) (name : String) :
    Except Fault α :=
  match variants.lookup name with
  | some value => .ok value
  | none => .error (.mismatch (.unknownVariant name (variants.map Prod.fst)))

/-- Null in the place of a value that is not there. -/
def readNothing : Shape Unit
  | .null => .ok ()
  | document => refuse "unit" document

/-- The end of an object with a single member, where it should be. -/
def readSingleEnd : Members → Except Fault Unit
  | .closed => .ok ()
  | .broken b => .error (.breaksOff b)
  | .member _ _ _ => .error .malformed

/-- One of several names: a string, or an object with the name and null. -/
def readVariant {α : Type} (variants : List (String × α)) (levels : Nat) : Shape α
  | .string q => do
      let name ← readQuotation q
      chooseVariant variants name
  | .object members =>
      match levels, members with
      | 0, _ => .error .malformed
      | _, .member name value rest => do
          let name ← readName name
          let chosen ← chooseVariant variants name
          readNothing value
          readSingleEnd rest
          return chosen
      | _, .closed => .error .malformed
      | _, .broken b => .error (.breaksOff b)
  | .missing b => .error (.breaksOff b)
  | _ => .error .malformed

/-- Passes over a string, which may hold halves of characters. -/
def skipQuotation (q : Quotation) : Except Fault Unit :=
  match q.unclosed with
  | none => .ok ()
  | some b => .error (.breaksOff b)

def skipName : Name → Except Fault Unit
  | .written q => skipQuotation q
  | .missing b => .error (.breaksOff b)

mutual

/-- Passes over a value without reading it. Numbers may be too large here. -/
def skip : Document → Except Fault Unit
  | .array items => skipItems items
  | .object members => skipMembers members
  | .string q => skipQuotation q
  | .brokenWord b => .error (.breaksOff b)
  | .brokenNumber _ => .error .malformed
  | .missing b => .error (.breaksOff b)
  | _ => .ok ()

def skipItems : Items → Except Fault Unit
  | .closed => .ok ()
  | .broken b => .error (.breaksOff b)
  | .item document rest => do
      skip document
      skipItems rest

def skipMembers : Members → Except Fault Unit
  | .closed => .ok ()
  | .broken b => .error (.breaksOff b)
  | .member name document rest => do
      skipName name
      skip document
      skipMembers rest

end

/-- Checks that a value can be read in full, whatever it is. -/
def checkWhole : Nat → Shape Unit
  | levels, .array items =>
      match levels with
      | 0 => .error .malformed
      | levels + 1 => do
          let _ ← readItems (checkWhole levels) items
  | levels, .object members =>
      match levels with
      | 0 => .error .malformed
      | levels + 1 => do
          let _ ← readPairs (checkWhole levels) members
  | _, .number n => if n.number.isFinite then .ok () else .error .malformed
  | _, .string q => do
      let _ ← readQuotation q
  | _, .brokenWord b => .error (.breaksOff b)
  | _, .brokenNumber b => .error (.breaksOff b)
  | _, .missing b => .error (.breaksOff b)
  | _, _ => .ok ()

/-- A field of a structure of which `σ` is the part that has been read. -/
structure Field (σ : Type) where
  name : String
  mayBeMissing : Bool
  isGiven : σ → Bool
  read : Document → σ → Except Fault σ

/-- Reads the members of an object into a structure. Members that are not fields are passed
over, and a field may be given only once. -/
def readMembers {σ : Type} (fields : List (Field σ)) : Members → σ → Except Fault σ
  | .closed, part => .ok part
  | .broken b, _ => .error (.breaksOff b)
  | .member name document rest, part => do
      let name ← readName name
      match fields.find? fun f => f.name == name with
      | none => do
          skip document
          readMembers fields rest part
      | some field =>
          if field.isGiven part then .error (.mismatch (.duplicateField name))
          else do
            let more ← field.read document part
            readMembers fields rest more

/-- Reads the items of an array into the fields of a structure, in their order. Fields that
may be missing may be left out at the end. -/
def readFields {σ : Type} (expected : String) :
    List (Field σ) → Nat → Items → σ → Except Fault σ
  | [], _, items, part => do
      readEnd items
      return part
  | field :: fields, index, .item document rest, part => do
      let more ← field.read document part
      readFields expected fields (index + 1) rest more
  | field :: fields, index, .closed, part =>
      if field.mayBeMissing then readFields expected fields (index + 1) .closed part
      else .error (.mismatch (.tooShort index expected))
  | _ :: _, _, .broken b, _ => .error (.breaksOff b)

def countedFields (expected : String) (count : Nat) : String :=
  expected ++ " with " ++ Nat.repr count ++ if count = 1 then " element" else " elements"

/-- A structure: an object with its fields, or an array of them. -/
def readStructure {σ α : Type} (expected : String) (fields : List (Field σ)) (empty : σ)
    (finish : σ → Except Fault α) : Shape α
  | .object members => do
      let part ← readMembers fields members empty
      finish part
  | .array items => do
      let part ← readFields (countedFields expected fields.length) fields 0 items empty
      finish part
  | document => refuse expected document

def required {α : Type} (name : String) : Option α → Except Fault α
  | some value => .ok value
  | none => .error (.mismatch (.missingField name))

/-- What a text holds, and nothing else may follow. -/
def readText {α : Type} (shape : Nat → Shape α) (text : String) : Except Fault α := do
  let (document, rest) := Document.ofText text
  let value ← shape maxLevels document
  match rest with
  | [] => return value
  | _ :: _ => .error .malformed

end ComparisonRules.Json
