import ComparisonRules.Text.Class

/-!
# Patterns

A pattern is a regular expression. Here it only matters whether a text is one. It is read
from left to right with the groups and bracketed classes that are open, and with the height
of what has been read, which is limited.

A pattern reads characters unless it is switched to bytes, where it must not reach beyond
ASCII. There are no tables of letters, digits or cases: the classes that need them, and
letters in any case, are there for bytes only. Counts in braces are not known.
-/

namespace ComparisonRules.CommandLine

/-- How a part of a pattern is read. Where it is spaced, blanks do not count, and a hash
hides the rest of its line. -/
structure PatternMode where
  ignoresCase : Bool
  spaced : Bool
  inBytes : Bool

/-- Parts side by side: how many there are, and how high the highest is. A part that holds
no other has no height. -/
structure PatternRow where
  count : Nat
  height : Nat

namespace PatternRow

def empty : PatternRow := ⟨0, 0⟩

def add (row : PatternRow) (height : Nat) : PatternRow :=
  ⟨row.count + 1, max row.height height⟩

/-- The height of the parts as one. Several parts are one higher than the highest. -/
def joined (row : PatternRow) : Nat :=
  if row.count ≤ 1 then row.height else row.height + 1

end PatternRow

/-- What one branch of a group holds so far. The last part may be repeated if its height is
given. -/
structure PatternBranch where
  parts : PatternRow
  last : Option Nat

def PatternBranch.empty : PatternBranch := ⟨.empty, none⟩

/-- A branch with one more part, which may be repeated. -/
def PatternBranch.add (branch : PatternBranch) (height : Nat) : PatternBranch :=
  ⟨branch.parts.add height, some height⟩

/-- A branch with one more part that only switches the mode. -/
def PatternBranch.addSwitches (branch : PatternBranch) : PatternBranch :=
  ⟨branch.parts.add 0, none⟩

def PatternBranch.repeatLast (branch : PatternBranch) : Option PatternBranch :=
  branch.last.map fun height =>
    ⟨⟨branch.parts.count, max branch.parts.height (height + 1)⟩, some (height + 1)⟩

/-- What a group holds so far: the branches that are done, and the one being read. -/
structure PatternGroup where
  done : PatternRow
  branch : PatternBranch

def PatternGroup.empty : PatternGroup := ⟨.empty, .empty⟩

def PatternGroup.height (group : PatternGroup) : Nat :=
  (group.done.add group.branch.parts.joined).joined

def PatternGroup.add (group : PatternGroup) (height : Nat) : PatternGroup :=
  { group with branch := group.branch.add height }

/-- What a bracketed class holds so far: its last members, and the height of what stands
before the operation ahead of them, if there is one. At its opening dashes stand for
themselves. -/
structure PatternClass where
  members : PatternRow
  left : Option Nat
  atOpening : Bool

def PatternClass.empty : PatternClass := ⟨.empty, none, true⟩

def PatternClass.height (cls : PatternClass) : Nat :=
  match cls.left with
  | none => cls.members.joined
  | some left => max left cls.members.joined + 1

def PatternClass.add (cls : PatternClass) (height : Nat) : PatternClass :=
  { cls with members := cls.members.add height, atOpening := false }

def PatternClass.addDash (cls : PatternClass) : PatternClass :=
  { cls with members := cls.members.add 0 }

def PatternClass.operate (cls : PatternClass) : PatternClass :=
  ⟨.empty, some cls.height, false⟩

/-- The pattern as far as it has been read: the mode, the groups that are open around the
one being read, each with the mode that it goes on in, and the classes that are open, the
innermost first. -/
structure PatternState where
  mode : PatternMode
  group : PatternGroup
  outer : List (PatternMode × PatternGroup)
  classes : List PatternClass
  names : List String

/-- What goes on behind a part of a pattern, and what is left of the text. -/
abbrev PatternStep := Option (PatternState × List Char)

def PatternState.start : PatternState :=
  ⟨⟨false, false, false⟩, .empty, [], [], []⟩

def maxPatternHeight : Nat := 250

/-- The text behind blanks and comments. -/
def skipComments (inComment : Bool) : List Char → List Char
  | [] => []
  | c :: rest =>
      if inComment then skipComments (c != '\n') rest
      else if Text.isBlank c then skipComments false rest
      else if c = '#' then skipComments true rest
      else c :: rest

/-- The text behind what does not count at its start. -/
def PatternMode.skip (mode : PatternMode) (cs : List Char) : List Char :=
  if mode.spaced then skipComments false cs else cs

/-- The first character that is neither a blank nor the first hash. -/
def firstShown (inComment : Bool) : List Char → Option Char
  | [] => none
  | c :: rest =>
      if Text.isBlank c then firstShown inComment rest
      else if c = '#' ∧ !inComment then firstShown true rest
      else some c

/-- The character that a dash is judged by: the next one that counts. It may be the start of
a comment. -/
def PatternMode.next? (mode : PatternMode) (cs : List Char) : Option Char :=
  if mode.spaced then firstShown false cs else cs.head?

/-- What a backslash and the characters behind it stand for. -/
inductive Escape where
  | literal (c : Char) (asByte : Bool)
  | kind (negated : Bool)
  | wordEdge
  | textEdge
deriving DecidableEq

def isPatternMark (c : Char) : Bool :=
  ['\\', '.', '+', '*', '?', '(', ')', '|', '[', ']', '\x7b', '\x7d', '^', '$', '#', '&', '-',
    '~'].contains c

def controlOf? : Char → Option Char
  | 'a' => some '\x07'
  | 't' => some '\x09'
  | 'n' => some '\x0a'
  | 'v' => some '\x0b'
  | 'f' => some '\x0c'
  | 'r' => some '\x0d'
  | _ => none

/-- Whether an escaped character stands for itself. -/
def standsForItself (c : Char) : Bool :=
  isPatternMark c || (decide (c.toNat < 128) && !c.isAlphanum && c != '<' && c != '>')

/-- Reads so many hexadecimal digits behind those of the given value. -/
def readHexDigits (mode : PatternMode) : Nat → Nat → List Char → Option (Nat × List Char)
  | 0, value, cs => some (value, cs)
  | count + 1, value, cs =>
      match mode.skip cs with
      | [] => none
      | d :: rest => do
          let digit ← Text.hexDigit? d
          readHexDigits mode count (16 * value + digit) rest

def readCodePoint (mode : PatternMode) (count : Nat) (asByte : Bool) (cs : List Char) :
    Option (Escape × List Char) := do
  let (n, rest) ← readHexDigits mode count 0 cs
  if n.isValidChar then some (.literal (Char.ofNat n) asByte, rest) else none

def readEscape (mode : PatternMode) : List Char → Option (Escape × List Char)
  | [] => none
  | 'x' :: rest => readCodePoint mode 2 true rest
  | 'u' :: rest => readCodePoint mode 4 false rest
  | 'U' :: rest => readCodePoint mode 8 false rest
  | c :: rest =>
      if standsForItself c then some (.literal c false, rest)
      else if ['d', 's', 'w'].contains c then some (.kind false, rest)
      else if ['D', 'S', 'W'].contains c then some (.kind true, rest)
      else if ['b', 'B', '<', '>'].contains c then some (.wordEdge, rest)
      else if ['A', 'z'].contains c then some (.textEdge, rest)
      else (controlOf? c).map fun control => (.literal control false, rest)

/-- Whether a pattern may hold what is escaped, outside of classes. -/
def PatternMode.allows (mode : PatternMode) : Escape → Bool
  | .literal c asByte =>
      if mode.inBytes then !(asByte && decide (128 ≤ c.toNat)) else !mode.ignoresCase
  | .kind negated => mode.inBytes && !negated
  | .wordEdge => mode.inBytes
  | .textEdge => true

def PatternMode.allowsInClass (mode : PatternMode) : Escape → Bool
  | .literal c _ => if mode.inBytes then decide (c.toNat < 128) else !mode.ignoresCase
  | .kind negated => mode.inBytes && !negated
  | .wordEdge => false
  | .textEdge => false

def isGroupName : List Char → Bool
  | [] => false
  | first :: rest =>
      (first == '_' || Text.isAlphabetic first)
        && rest.all fun c => ['_', '.', '[', ']'].contains c || Text.isAlphanumeric c

/-- Whether switches are well formed: known letters, a minus that something follows, and
nothing twice. -/
def areSwitches : List Char → Bool
  | [] => true
  | c :: rest =>
      !rest.contains c && areSwitches rest
        && if c = '-' then !rest.isEmpty
          else ['i', 'm', 's', 'U', 'u', 'R', 'x'].contains c

def PatternMode.switch (mode : PatternMode) (on : Bool) : Char → PatternMode
  | 'i' => { mode with ignoresCase := on }
  | 'x' => { mode with spaced := on }
  | 'u' => { mode with inBytes := !on }
  | _ => mode

/-- The mode when all switches have been turned; those behind a minus are turned off. -/
def PatternMode.switchAll (mode : PatternMode) (on : Bool) : List Char → PatternMode
  | [] => mode
  | c :: rest =>
      if c = '-' then mode.switchAll false rest else (mode.switch on c).switchAll on rest

def asciiClassNames : List String :=
  ["alnum", "alpha", "ascii", "blank", "cntrl", "digit", "graph", "lower", "print", "punct",
    "space", "upper", "word", "xdigit"]

/-- Reads an ASCII class behind its bracket: whether it is negated, and what is left. -/
def readAsciiClass : List Char → Option (Bool × List Char)
  | ':' :: rest =>
      let negated := rest.head? = some '^'
      let inner := if negated then rest.drop 1 else rest
      let name := inner.takeWhile fun c => c != ':'
      match inner.drop name.length with
      | ':' :: ']' :: behind =>
          if asciiClassNames.contains (String.ofList name) then some (negated, behind) else none
      | _ => none
  | _ => none

/-- Reads a member of a class that starts with the given character. -/
def readClassMember (mode : PatternMode) (c : Char) (rest : List Char) :
    Option (Escape × List Char) :=
  if c = '\\' then readEscape mode rest else some (.literal c false, rest)

/-- Reads the end of a range that starts with the given member. The ends are characters in
ascending order. -/
def readRangeEnd (mode : PatternMode) (first : Escape) (cs : List Char) :
    Option (List Char) :=
  match mode.skip cs with
  | [] => none
  | d :: rest => do
      let (last, behind) ← readClassMember mode d rest
      match first, last with
      | .literal low _, .literal high _ =>
          if mode.allowsInClass last && decide (low ≤ high) then some behind else none
      | _, _ => none

/-- Reads a member of a class or a range of them. A dash before the closing bracket or
before another dash starts no range. -/
def readClassRange (mode : PatternMode) (c : Char) (rest : List Char) :
    Option (List Char) := do
  let (first, behind) ← readClassMember mode c rest
  if mode.allowsInClass first then
    match mode.skip behind with
    | '-' :: more =>
        if [some ']', some '-'].contains (mode.next? more) then some ('-' :: more)
        else readRangeEnd mode first more
    | behind => some behind
  else none

namespace PatternState

/-- Goes on behind a part without height. -/
def behindPart (s : PatternState) (rest : List Char) : PatternStep :=
  some ({ s with group := s.group.add 0 }, rest)

def openGroup (s : PatternState) (inner : PatternMode) (rest : List Char) : PatternStep :=
  some ({ s with mode := inner, group := .empty, outer := (s.mode, s.group) :: s.outer }, rest)

/-- Closes a group, which is one higher than what it holds. -/
def closeGroup (s : PatternState) (rest : List Char) : PatternStep :=
  match s.outer with
  | [] => none
  | (mode, group) :: outer =>
      some ({ s with mode := mode, group := group.add (s.group.height + 1), outer := outer }, rest)

def endBranch (s : PatternState) (rest : List Char) : PatternStep :=
  some ({ s with group := ⟨s.group.done.add s.group.branch.parts.joined, .empty⟩ }, rest)

/-- Repeats the last part. A question mark right behind belongs to the repetition. -/
def repeatLast (s : PatternState) (rest : List Char) : PatternStep := do
  let branch ← s.group.branch.repeatLast
  let behind := match rest with
    | '?' :: more => more
    | _ => rest
  return ({ s with group := { s.group with branch := branch } }, behind)

/-- Opens a named group of which the name is read. Two groups need two names. -/
def openNamed (s : PatternState) (cs : List Char) : PatternStep :=
  let name := cs.takeWhile fun c => c != '>'
  let word := String.ofList name
  match cs.drop name.length with
  | _ :: rest =>
      if isGroupName name && !s.names.contains word then
        { s with names := word :: s.names }.openGroup s.mode rest
      else none
  | [] => none

/-- Reads switches, which hold for a group or for the rest of the group they stand in. -/
def readSwitches (s : PatternState) (cs : List Char) : PatternStep :=
  let switches := cs.takeWhile fun c => c != ')' && c != ':'
  let mode := s.mode.switchAll true switches
  if areSwitches switches then
    match cs.drop switches.length with
    | [] => none
    | ':' :: rest => s.openGroup mode rest
    | _ :: rest =>
        if switches.isEmpty then none
        else
          let group := { s.group with branch := s.group.branch.addSwitches }
          some ({ s with mode := mode, group := group }, rest)
  else none

def readGroup (s : PatternState) (rest : List Char) : PatternStep :=
  match s.mode.skip rest with
  | '?' :: 'P' :: '<' :: more => s.openNamed more
  | '?' :: '<' :: more => s.openNamed more
  | '?' :: more => s.readSwitches more
  | more => s.openGroup s.mode more

/-- Opens a class, which may be negated. -/
def openClass (s : PatternState) (rest : List Char) : PatternStep :=
  let inner := { s with classes := .empty :: s.classes }
  match s.mode.skip rest with
  | '^' :: more => if s.mode.inBytes then none else some (inner, s.mode.skip more)
  | more => some (inner, more)

/-- Closes the innermost class, which is one higher than what it holds. -/
def closeClass (s : PatternState) (cls : PatternClass) (outer : List PatternClass)
    (rest : List Char) : PatternStep :=
  match outer with
  | [] => some ({ s with group := s.group.add (cls.height + 1), classes := [] }, rest)
  | next :: more => some ({ s with classes := next.add (cls.height + 1) :: more }, rest)

/-- Goes on with another state of the innermost class. -/
def withClass (s : PatternState) (cls : PatternClass) (outer : List PatternClass)
    (rest : List Char) : PatternStep :=
  some ({ s with classes := cls :: outer }, rest)

/-- Reads on inside a class. A closing bracket that would leave the class empty stands for
itself. -/
def readInClass (s : PatternState) (cls : PatternClass) (outer : List PatternClass) (c : Char)
    (rest : List Char) : PatternStep :=
  let allowsMarks := s.mode.allowsInClass (.literal c false)
  if cls.atOpening && c == '-' then
    if allowsMarks then s.withClass cls.addDash outer rest else none
  else if cls.atOpening && cls.members.count == 0 && c == ']' then
    if allowsMarks then s.withClass (cls.add 0) outer rest else none
  else if c = '[' then
    match readAsciiClass rest with
    | some (negated, behind) =>
        if if s.mode.inBytes then negated else s.mode.ignoresCase then none
        else s.withClass (cls.add 0) outer behind
    | none => s.openClass rest
  else if c = ']' then s.closeClass cls outer rest
  else if ['&', '-', '~'].contains c && rest.head? == some c then
    s.withClass cls.operate outer (rest.drop 1)
  else do
    let behind ← readClassRange s.mode c rest
    s.withClass (cls.add 0) outer behind

def readOutside (s : PatternState) (c : Char) (rest : List Char) : PatternStep :=
  match c with
  | '(' => s.readGroup rest
  | ')' => s.closeGroup rest
  | '|' => s.endBranch rest
  | '[' => s.openClass rest
  | '?' => s.repeatLast rest
  | '*' => s.repeatLast rest
  | '+' => s.repeatLast rest
  | '\x7b' => none
  | '.' => if s.mode.inBytes then none else s.behindPart rest
  | '^' => s.behindPart rest
  | '$' => s.behindPart rest
  | '\\' => do
      let (escape, behind) ← readEscape s.mode rest
      if s.mode.allows escape then s.behindPart behind else none
  | _ => if s.mode.allows (.literal c false) then s.behindPart rest else none

def read (s : PatternState) (c : Char) (rest : List Char) : PatternStep :=
  match s.classes with
  | [] => s.readOutside c rest
  | cls :: outer => s.readInClass cls outer c rest

/-- Whether the pattern may end: nothing is open, and it is not too high. -/
def mayEnd (s : PatternState) : Bool :=
  s.outer.isEmpty && s.classes.isEmpty && decide (s.group.height ≤ maxPatternHeight)

/-- Whether the rest of a pattern can be read when so many of its characters have been. -/
def accepts (s : PatternState) : List Char → Nat → Bool
  | [], _ => s.mayEnd
  | _ :: rest, count + 1 => s.accepts rest count
  | c :: rest, 0 =>
      match s.mode.skip (c :: rest) with
      | [] => s.mayEnd
      | d :: behind =>
          match s.read d behind with
          | some (next, left) => next.accepts rest (rest.length - left.length)
          | none => false

end PatternState

def isPattern (cs : List Char) : Bool :=
  PatternState.start.accepts cs 0

end ComparisonRules.CommandLine
