import ComparisonRules.CommandLine.Arguments
import ComparisonRules.CommandLine.LogFilter
import ComparisonRules.Service.Json

/-!
# Running commands

A command prints a response as pretty JSON or fails with an error. Where a rule is wanted,
an argument that starts with a brace is taken for a stored tree and any other for rule text.
-/

namespace ComparisonRules.CommandLine

def looksLikeTree (argument : String) : Bool :=
  (argument.toList.dropWhile Text.isBlank).head? = some '\x7b'

def sourceOf (argument : String) : Except RuleError Service.RuleSource :=
  if looksLikeTree argument then do
    let node ← liftError .json (Json.readText Node.read argument)
    return .tree node
  else .ok (.text argument)

/-- The rule of an argument that stands at the given place. -/
def ruleOf (index : Nat) (argument : String) : Except RuleError Rule := do
  let source ← sourceOf argument
  source.toRule index

/-- An error with the text that it points into, which is empty if there is none. -/
structure Failure where
  source : String
  error : RuleError
deriving DecidableEq

/-- A result of a step on a text, whose error points into that text. -/
def inText {α : Type} (source : String) (result : Except RuleError α) : Except Failure α :=
  result.mapError (Failure.mk source)

/-- The rules of arguments, the first of which stands at the given place. -/
def rulesOf (index : Nat) : List String → Except Failure (List Rule)
  | [] => .ok []
  | argument :: rest => do
      let rule ← inText argument (ruleOf index argument)
      let rules ← rulesOf (index + 1) rest
      return rule :: rules

def EvaluationSource.toNode : EvaluationSource → Except Failure Node
  | rule text => do
      let rule ← inText text (liftError .compile (Rule.compile text))
      return .ofRule rule
  | tree json => inText json (liftError .json (Json.readText Node.read json))

/-- What a command prints. -/
def execute : Command → Except Failure String
  | .parse rule => do
      let response ← inText rule (Service.create ⟨rule⟩)
      return response.toData.prettyText
  | .combine connective arguments => do
      let rules ← rulesOf 0 arguments
      let combined ← inText "" (liftError .combine (Rule.combineAll connective rules))
      let response : Service.CombineResponse := ⟨.ofRule combined⟩
      return response.toData.prettyText
  | .evaluate source data traced => do
      let ast ← source.toNode
      let record ← inText data (liftError .json (Json.readText Record.read data))
      let response ← inText "" (Service.evaluate ⟨ast, record, traced⟩)
      return response.toData.prettyText

/-- What is said of a failure: a first line, and the rest. -/
structure Report where
  headline : String
  details : String

/-- The characters of the first line of a text. A carriage return at its end belongs to the
line break. -/
def firstLineChars : List Char → List Char
  | [] => []
  | '\n' :: _ => []
  | '\r' :: '\n' :: _ => []
  | c :: rest => c :: firstLineChars rest

/-- How many characters a color of the terminal takes at the start of a text: an escape, an
opening bracket, numbers between semicolons, and the letter m. -/
def colorLength : List Char → Nat
  | '\x1b' :: '[' :: rest =>
      let count := (rest.takeWhile fun c => c.isDigit || c == ';').length
      if (rest.drop count).head? = some 'm' then count + 3 else 0
  | _ => 0

/-- The text without colors, when so many characters of a color are still to be left out. -/
def withoutColors : Nat → List Char → List Char
  | _, [] => []
  | count + 1, _ :: rest => withoutColors count rest
  | 0, c :: rest =>
      match colorLength (c :: rest) with
      | 0 => c :: withoutColors 0 rest
      | count + 1 => withoutColors count rest

/-- The first line of a text, without colors. -/
def firstLine (text : String) : String :=
  String.ofList (firstLineChars (withoutColors 0 text.toList))

/-- The report of an error. Errors that point into a rule text say so under their heading;
for the others the heading and the message are one line. -/
def reportOf (e : RuleError) : Report :=
  match e with
  | .compile _ => ⟨"Error: " ++ e.heading, e.message⟩
  | .json _ => ⟨e.heading ++ ": " ++ RuleError.jsonMessage, e.message⟩
  | _ => ⟨firstLine (e.heading ++ ": " ++ e.message), e.message⟩

def logFilterReport : Report :=
  ⟨"Failed to set up logging", "invalid filter directive"⟩

def versionText : String := "rule-engine 0.1.0"

def helpText : Option CommandName → String
  | none =>
      "Compile, combine and evaluate rules such as \"age > 30 AND department == 'Sales'\".\n\n"
        ++ "Usage: rule-engine [OPTIONS] <COMMAND>\n\n"
        ++ "Commands:\n"
        ++ "  parse     Compile a rule and print its tree as JSON\n"
        ++ "  combine   Combine rules under one operator, folding left in the given order\n"
        ++ "  evaluate  Evaluate a rule against a JSON record\n"
        ++ "  help      Print this message or the help of the given subcommand(s)\n\n"
        ++ "Options:\n"
        ++ "      --log-level <LEVEL>  Set log level (trace, debug, info, warn, error) or a "
        ++ "filter directive\n"
        ++ "  -h, --help               Print help\n"
        ++ "  -V, --version            Print version"
  | some .parse =>
      "Compile a rule and print its tree as JSON\n\n"
        ++ "Usage: rule-engine parse [OPTIONS] <RULE>"
  | some .combine =>
      "Combine rules under one operator, folding left in the given order\n\n"
        ++ "Usage: rule-engine combine [OPTIONS] <RULE>..."
  | some .evaluate =>
      "Evaluate a rule against a JSON record\n\n"
        ++ "Usage: rule-engine evaluate [OPTIONS] --data <JSON> [RULE]"

/-- How a run ends. It is aborted where a log filter is cut inside a character. -/
inductive Outcome where
  | printed (text : String)
  | failed (report : Report)
  | refused
  | aborted

def Outcome.exitCode : Outcome → Nat
  | printed _ => 0
  | failed _ => 1
  | refused => 2
  | aborted => 101

/-- What a run writes, with a line break at its end. -/
def Outcome.output : Outcome → String
  | printed text => text ++ "\n"
  | _ => ""

def runCommand (command : Command) : Outcome :=
  match execute command with
  | .ok text => .printed text
  | .error failure => .failed (reportOf failure.error)

/-- Runs the program on its arguments. A log filter is checked before the command runs. -/
def run (arguments : List String) : Outcome :=
  match readArguments arguments with
  | .refused => .refused
  | .version => .printed versionText
  | .help command => .printed (helpText command)
  | .run none command => runCommand command
  | .run (some logFilter) command =>
      match checkLogFilter logFilter with
      | .ok _ => runCommand command
      | .error .malformed => .failed logFilterReport
      | .error .splitCharacter => .aborted

end ComparisonRules.CommandLine
