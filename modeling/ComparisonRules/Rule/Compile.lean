import ComparisonRules.Rule.Parse
import ComparisonRules.Token.Scan

/-!
# Compiling rule texts

A rule text is scanned and then read as a rule. Either step may refuse it.
-/

namespace ComparisonRules

/-- Why a text is not a rule. -/
inductive CompileError where
  | lex (e : LexError)
  | parse (e : ParseError)
deriving DecidableEq

namespace CompileError

def message : CompileError → String
  | lex e => e.message
  | parse e => e.message

def span : CompileError → Nat × Nat
  | lex e => e.span
  | parse e => e.span

end CompileError

namespace Rule

/-- The rule that a text spells. -/
def compile (text : String) : Except CompileError Rule :=
  match Token.scan text with
  | .error e => .error (.lex e)
  | .ok tokens =>
      match ofTokens tokens with
      | .error e => .error (.parse e)
      | .ok rule => .ok rule

end Rule

end ComparisonRules
