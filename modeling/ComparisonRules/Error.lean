import ComparisonRules.Json.Fault
import ComparisonRules.Node.Decode
import ComparisonRules.Rule.Combine
import ComparisonRules.Rule.Evaluate

/-!
# Errors

Everything that can go wrong between a rule text and a result, with the words for it.
-/

namespace ComparisonRules

/-- Why a request has no answer. -/
inductive RuleError where
  | compile (e : CompileError)
  | combine (e : CombineError)
  | eval (e : EvalError)
  | decode (e : DecodeError)
  | json (fault : Json.Fault)
deriving DecidableEq

namespace RuleError

def heading : RuleError → String
  | compile (.lex _) => "Lexing error"
  | compile (.parse _) => "Parsing error"
  | combine _ => "Combine error"
  | eval _ => "Evaluation error"
  | decode _ => "Invalid input"
  | json _ => "Invalid input"

/-- What is said of every text that is not JSON of the right shape. -/
def jsonMessage : String := "invalid JSON"

def faultMessage : Json.Fault → String
  | .breaksOff .malformed => jsonMessage ++ ": malformed text"
  | .breaksOff .ended => jsonMessage ++ ": unexpected end of text"
  | .mismatch m => jsonMessage ++ ": " ++ m.message

def message : RuleError → String
  | compile e => e.message
  | combine e => e.message
  | eval e => e.message
  | decode e => e.message
  | json fault => faultMessage fault

/-- The bytes of the rule text that the error is about, if it is about any. -/
def span : RuleError → Option (Nat × Nat)
  | compile e => some e.span
  | _ => none

end RuleError

/-- A result of an inner step as a result of a request. -/
def liftError {ε α : Type} (wrap : ε → RuleError) : Except ε α → Except RuleError α
  | .ok value => .ok value
  | .error e => .error (wrap e)

end ComparisonRules
