import ComparisonRules.CommandLine.Pattern
import ComparisonRules.Number.Reading

/-!
# Log filters

A log filter is a list of directives between commas. A directive is a level, or it names a
target, a span in brackets, or both, with a level behind an equals sign. A span may list a
field in braces, which may have a value.

White space around a directive does not count when its parts are told apart. The parts are
then cut out of the text with its white space, at the byte positions found without it. With
blanks ahead every part is cut too early, and a cut may fall into the middle of a character.
-/

namespace ComparisonRules.CommandLine

/-- Levels are numbered from none to all. -/
def isLevelNumber (digits : List Char) : Bool :=
  !digits.isEmpty && digits.all Char.isDigit
    && decide (digits.foldl (fun n d => 10 * n + (d.toNat - 48)) 0 ≤ 5)

/-- A level is a word in any case, or its number. No level at all means the highest. -/
def isLevel (cs : List Char) : Bool :=
  let word := String.ofList (cs.map Char.toLower)
  ["", "off", "error", "warn", "info", "debug", "trace"].contains word
    || isLevelNumber (if cs.head? = some '+' then cs.drop 1 else cs)

def isFieldValue (cs : List Char) : Bool :=
  (Number.ofText? (String.ofList cs)).isSome || isPattern cs

/-- A field has a name and may have a value behind an equals sign. Behind another one
anything goes. -/
def isField (cs : List Char) : Bool :=
  !cs.isEmpty && match cs.dropWhile fun c => c != '=' with
    | [] => true
    | _ :: value => isFieldValue (value.takeWhile fun c => c != '=')

/-- Why a text cannot be used as a log filter. -/
inductive LogFilterFault where
  | malformed
  | splitCharacter
deriving DecidableEq

/-- The text from a byte position, unless that lies inside a character. -/
def fromByte : List Char → Nat → Except LogFilterFault (List Char)
  | cs, 0 => .ok cs
  | [], _ => .error .splitCharacter
  | c :: rest, position =>
      if c.utf8Size ≤ position then fromByte rest (position - c.utf8Size)
      else .error .splitCharacter

/-- So many bytes of a text, unless they end inside a character. -/
def takeBytes : List Char → Nat → Except LogFilterFault (List Char)
  | _, 0 => .ok []
  | [], _ => .error .splitCharacter
  | c :: rest, count =>
      if c.utf8Size ≤ count then do
        let more ← takeBytes rest (count - c.utf8Size)
        return c :: more
      else .error .splitCharacter

def betweenBytes (text : List Char) (start stop : Nat) : Except LogFilterFault (List Char) := do
  let behind ← fromByte text start
  takeBytes behind (stop - start)

/-- Where reading a directive stands: in one of its parts, with the byte position that the
part starts at, or behind one. -/
inductive DirectivePart where
  | target
  | span (start : Nat)
  | behindSpan
  | field (start : Nat)
  | behindField
  | level (start : Nat)

/-- Refuses a directive unless a part of it is as it should be. -/
def demand (holds : Bool) : Except LogFilterFault Unit :=
  if holds then .ok () else .error .malformed

/-- Where reading a directive stands behind a character. The byte positions at which the
character starts and ends are given. -/
def DirectivePart.next (text : List Char) (start stop : Nat) (c : Char) :
    DirectivePart → Except LogFilterFault DirectivePart
  | target =>
      if c = '=' then do
        let _ ← betweenBytes text 0 start
        return level stop
      else if c = '[' then do
        let _ ← betweenBytes text 0 start
        return span stop
      else .ok target
  | span spanStart =>
      if c = ']' then do
        let _ ← betweenBytes text spanStart start
        return behindSpan
      else if c = '\x7b' then do
        let _ ← betweenBytes text spanStart start
        return field stop
      else .ok (span spanStart)
  | behindSpan => if c = '=' then .ok (level stop) else .error .malformed
  | field fieldStart =>
      if c = '\x7d' then do
        let part ← betweenBytes text fieldStart start
        demand (isField part)
        return behindField
      else .ok (field fieldStart)
  | behindField => if c = ']' then .ok behindSpan else .error .malformed
  | level levelStart => .ok (level levelStart)

def DirectivePart.finish (text : List Char) : DirectivePart → Except LogFilterFault Unit
  | target => .ok ()
  | behindSpan => .ok ()
  | level start => do
      let part ← fromByte text start
      demand (isLevel part)
  | _ => .error .malformed

def checkFrom (text : List Char) (position : Nat) (part : DirectivePart) :
    List Char → Except LogFilterFault Unit
  | [] => part.finish text
  | c :: rest => do
      let next ← part.next text position (position + c.utf8Size) c
      checkFrom text (position + c.utf8Size) next rest

/-- What a level or a target starts with. -/
def isTargetStart (c : Char) : Bool :=
  c == '-' || c == ':' || c == '_' || Text.isAlphanumeric c

def trimmed (cs : List Char) : List Char :=
  ((cs.dropWhile Text.isBlank).reverse.dropWhile Text.isBlank).reverse

def checkDirective (text : List Char) : Except LogFilterFault Unit :=
  match trimmed text with
  | [] => .error .malformed
  | c :: rest =>
      if c = '[' then checkFrom text 1 (.span 1) rest
      else if isTargetStart c then checkFrom text c.utf8Size .target rest
      else .error .malformed

def betweenCommas : List Char → List (List Char)
  | [] => [[]]
  | c :: rest =>
      if c = ',' then [] :: betweenCommas rest
      else match betweenCommas rest with
        | first :: more => (c :: first) :: more
        | [] => [[c]]

/-- Checks a log filter. Directives are checked in their order; empty ones do not count. -/
def checkLogFilter (text : String) : Except LogFilterFault Unit :=
  ((betweenCommas text.toList).filter fun directive => !directive.isEmpty).forM checkDirective

end ComparisonRules.CommandLine
