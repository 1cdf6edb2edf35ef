import ComparisonRules.Json.Cut

/-!
# JSON documents

A document is what a JSON text holds, complete or not: where the text breaks off, the
document says how. It is put together from the parts of the text in one pass, with a stack
of the arrays and objects that are still open.
-/

namespace ComparisonRules.Json

/-- The name of a member, which is a string. -/
inductive Name where
  | written (q : Quotation)
  | missing (b : Break)

mutual

/-- What a text holds in the place of a value. -/
inductive Document where
  | null
  | bool (b : Bool)
  | number (n : Numeral)
  | string (q : Quotation)
  | array (items : Items)
  | object (members : Members)
  | brokenWord (b : Break)
  | brokenNumber (b : Break)
  | missing (b : Break)

/-- The items of an array. After the last one the array is closed or breaks off. -/
inductive Items where
  | closed
  | broken (b : Break)
  | item (value : Document) (rest : Items)

/-- The members of an object. After the last one the object is closed or breaks off. -/
inductive Members where
  | closed
  | broken (b : Break)
  | member (name : Name) (value : Document) (rest : Members)

end

/-- An array or object that is still open, with what it holds so far, the last first. -/
inductive Frame where
  | array (before : List Document)
  | object (before : List (Name × Document)) (name : Name)

namespace Items

/-- Puts items before others; the last of the list comes first. -/
def prepend (before : List Document) (items : Items) : Items :=
  before.foldl (fun rest value => .item value rest) items

end Items

namespace Members

/-- Puts members before others; the last of the list comes first. -/
def prepend (before : List (Name × Document)) (members : Members) : Members :=
  before.foldl (fun rest pair => .member pair.1 pair.2 rest) members

end Members

/-- The array or object with a last value and the end that follows it. -/
def Frame.close (last : Document) (arrayEnd : Items) (objectEnd : Members) :
    Frame → Document
  | array before => .array (.prepend before (.item last arrayEnd))
  | object before name => .object (.prepend before (.member name last objectEnd))

namespace Document

/-- The document when the text breaks off in the given value: all that is open stays
open. -/
def abandon (value : Document) (b : Break) (stack : List Frame) : Document :=
  stack.foldl (fun last frame => frame.close last (.broken b) (.broken b)) value

/-- The document when the text breaks off at the name of a member, or behind it. -/
def abandonMember (before : List (Name × Document)) (name : Name) (b : Break)
    (stack : List Frame) : Document :=
  abandon (object (.prepend before (.member name (missing b) (.broken b)))) b stack

mutual

/-- Goes on where a value should stand. An array may be closed right behind its opening. -/
def atValue (stack : List Frame) : List Lexeme → Document × List Lexeme
  | [] => (abandon (missing .ended) .ended stack, [])
  | .null :: rest => behindValue stack null rest
  | .bool b :: rest => behindValue stack (bool b) rest
  | .number n :: rest => behindValue stack (number n) rest
  | .string q :: rest => behindValue stack (string q) rest
  | .brokenWord b :: rest => behindValue stack (brokenWord b) rest
  | .brokenNumber b :: rest => behindValue stack (brokenNumber b) rest
  | .openArray :: rest => atValue (.array [] :: stack) rest
  | .openObject :: rest => atName stack [] rest
  | .closeArray :: rest =>
      match stack with
      | .array [] :: outer => behindValue outer (array .closed) rest
      | _ => (abandon (missing .malformed) .malformed stack, [])
  | _ :: _ => (abandon (missing .malformed) .malformed stack, [])

/-- Goes on where the name of a member should stand. An object may be closed right behind
its opening. -/
def atName (stack : List Frame) (before : List (Name × Document)) :
    List Lexeme → Document × List Lexeme
  | [] => (abandonMember before (.missing .ended) .ended stack, [])
  | .string q :: .colon :: rest => atValue (.object before (.written q) :: stack) rest
  | [.string q] => (abandonMember before (.written q) .ended stack, [])
  | .string q :: _ :: _ => (abandonMember before (.written q) .malformed stack, [])
  | .closeObject :: rest =>
      match before with
      | [] => behindValue stack (object .closed) rest
      | _ :: _ => (abandonMember before (.missing .malformed) .malformed stack, [])
  | _ :: _ => (abandonMember before (.missing .malformed) .malformed stack, [])

def behindValue (stack : List Frame) (value : Document) :
    List Lexeme → Document × List Lexeme
  | [] => (abandon value .ended stack, [])
  | lexeme :: rest =>
      match stack with
      | [] => (value, lexeme :: rest)
      | .array before :: outer =>
          match lexeme with
          | .comma => atValue (.array (value :: before) :: outer) rest
          | .closeArray =>
              behindValue outer (array (.prepend before (.item value .closed))) rest
          | _ => (abandon value .malformed stack, [])
      | .object before name :: outer =>
          match lexeme with
          | .comma => atName outer ((name, value) :: before) rest
          | .closeObject =>
              behindValue outer (object (.prepend before (.member name value .closed))) rest
          | _ => (abandon value .malformed stack, [])

end

/-- What a text holds, and the parts behind it. -/
def ofText (text : String) : Document × List Lexeme :=
  atValue [] (lexemes text)

end Document

end ComparisonRules.Json
