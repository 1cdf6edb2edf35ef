import ComparisonRules.Rule.Basic
import ComparisonRules.Token.Basic

/-!
# Reading rules from tokens

The grammar has three levels: a disjunction joins conjunctions by OR, a conjunction joins
terms by AND, and a term is a comparison or a disjunction in parentheses. Chains of one
connective lean to the left. A comparison has a field on one side and a literal on the
other, and is kept with the field on the left. Reading stops at the first token that cannot
go on, and the error describes that token.
-/

namespace ComparisonRules

/-- What would have been right in the place of a token. -/
inductive Expectation where
  | operand
  | comparator
  | literal
  | field
  | closingParen
  | endOrConnective
  | fewerGroups
  | fewerJoints
deriving DecidableEq

def Expectation.text : Expectation → String
  | operand => "field name, literal or '('"
  | comparator => "one of '>', '>=', '<', '<=', '==', '!='"
  | literal => "number or string literal"
  | field => "field name"
  | closingParen => "')'"
  | endOrConnective => "AND, OR or end of input"
  | fewerGroups => "at most " ++ Nat.repr Rule.maxDepth ++ " nested groups"
  | fewerJoints => "at most " ++ Nat.repr Rule.maxDepth ++ " nested operators"

/-- A token that does not belong where it stands. -/
structure ParseError where
  expected : Expectation
  found : String
  position : Nat
  width : Nat
deriving DecidableEq

namespace ParseError

/-- The error that something else was expected in the place of a token. -/
def describing (token : Token) (expected : Expectation) : ParseError :=
  ⟨expected, token.description, token.offset, token.width⟩

/-- The bytes of the token, from the first one to the one behind the last. -/
def span (e : ParseError) : Nat × Nat :=
  (e.position, e.position + e.width)

def message (e : ParseError) : String :=
  "expected " ++ e.expected.text ++ ", found " ++ e.found ++ " at offset "
    ++ Nat.repr e.position

end ParseError

namespace Rule

/-- A reading of the start of a token list: the rule read, and the tokens behind it. -/
abbrev Reading := Except ParseError (Rule × List Token)

/-- Joins two rules, unless the rule would become too deep. The error describes the token
of the connective. -/
def joinAt (token : Token) (left : Rule) (connective : Connective) (right : Rule) :
    Except ParseError Rule :=
  let joined := join left connective right
  if maxDepth < joined.depth then .error (.describing token .fewerJoints) else .ok joined

/-- The value of a literal token; a token without a value stands for its own text. -/
def literalOf (token : Token) : Value :=
  token.literal.getD (.string token.lexeme)

section

variable (stop : Token)

/-- The refusal of the first of the tokens, or of the token that ends them. -/
def refuse (tokens : List Token) (expected : Expectation) : Reading :=
  .error (.describing (tokens.headD stop) expected)

def readRightSide (left : Token) (comparator : Comparator) (tokens : List Token) : Reading :=
  if left.kind = .identifier then
    match tokens with
    | right :: rest =>
        if right.kind.isLiteral then
          .ok (leaf ⟨left.lexeme, comparator, literalOf right⟩, rest)
        else refuse stop tokens .literal
    | [] => refuse stop tokens .literal
  else
    match tokens with
    | right :: rest =>
        if right.kind = .identifier then
          .ok (leaf ⟨right.lexeme, comparator.flip, literalOf left⟩, rest)
        else refuse stop tokens .field
    | [] => refuse stop tokens .field

def readComparison (tokens : List Token) : Reading :=
  match tokens with
  | left :: afterLeft =>
      if left.kind = .identifier ∨ left.kind.isLiteral then
        match afterLeft with
        | ⟨.comparator comparator, _, _, _⟩ :: rest =>
            readRightSide stop left comparator rest
        | _ => refuse stop afterLeft .comparator
      else refuse stop tokens .operand
  | [] => refuse stop tokens .operand

end

/-- Reads on after the first operand of a chain, as long as the connective follows. Every
link takes at least its connective from the tokens, so there are no more links than
tokens. -/
def readLinks (connective : Connective) (operand : List Token → Reading) :
    Nat → Rule → List Token → Reading
  | 0, left, tokens => .ok (left, tokens)
  | links + 1, left, tokens =>
      match tokens with
      | [] => .ok (left, [])
      | token :: afterToken =>
          if token.kind = .connective connective then do
            let (right, rest) ← operand afterToken
            let joined ← joinAt token left connective right
            readLinks connective operand links joined rest
          else .ok (left, tokens)

/-- Reads operands joined by one connective, from left to right. -/
def readChain (connective : Connective) (operand : List Token → Reading)
    (tokens : List Token) : Reading := do
  let (first, rest) ← operand tokens
  readLinks connective operand rest.length first rest

/-- Reads a disjunction of conjunctions of terms. -/
def readDisjunction (term : List Token → Reading) (tokens : List Token) : Reading :=
  readChain .or (readChain .and term) tokens

/-- Reads a term in which at most the given number of parentheses may be open at once. -/
def readTerm (stop : Token) : Nat → List Token → Reading
  | groups, ⟨.leftParen, lexeme, literal, offset⟩ :: rest =>
      match groups with
      | 0 => refuse stop (⟨.leftParen, lexeme, literal, offset⟩ :: rest) .fewerGroups
      | inner + 1 => do
          let (rule, afterRule) ← readDisjunction (readTerm stop inner) rest
          match afterRule with
          | ⟨.rightParen, _, _, _⟩ :: behind => .ok (rule, behind)
          | _ => refuse stop afterRule .closingParen
  | _, tokens => readComparison stop tokens

/-- Whether a token does not end the input. -/
def isWithinInput (token : Token) : Bool :=
  token.kind != .endOfInput

/-- The token that ends the input: the first that says so, or else one put behind the last
token. The offsets are those of tokens of a text, so the place behind the last token is one of
the text as well, and the sum cannot overflow a machine word. -/
def stopOf (tokens : List Token) : Token :=
  ((tokens.find? fun t => !isWithinInput t).or
    (tokens.getLast?.map fun last => .endAt (last.offset + last.width))).getD (.endAt 0)

/-- The rule that the tokens up to the end of input spell. -/
def ofTokens (tokens : List Token) : Except ParseError Rule := do
  let stop := stopOf tokens
  let (rule, rest) ← readDisjunction (readTerm stop maxDepth) (tokens.takeWhile isWithinInput)
  match rest with
  | [] => .ok rule
  | token :: _ => .error (.describing token .endOrConnective)

end Rule

end ComparisonRules
