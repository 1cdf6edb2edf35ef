import ComparisonRules.Connective

/-!
# Command line arguments

Arguments that start with a dash are options, everything else is an operand, and behind a
double dash everything is. Options are read from left to right; the first one that is wrong
settles that the arguments are refused, and the first one that asks for help or for the
version settles that instead.
-/

namespace ComparisonRules.CommandLine

/-- The options of all commands. -/
inductive OptionName where
  | help
  | version
  | logLevel
  | operator
  | ast
  | data
  | trace
deriving DecidableEq

/-- How an option is given. -/
structure OptionForm where
  name : OptionName
  long : String
  short : Option Char
  takesValue : Bool

/-- A piece of the arguments. -/
inductive Piece where
  | operand (text : String) (escaped : Bool)
  | flag (name : OptionName)
  | setting (name : OptionName) (value : String)
  | wrong

/-- The commands. -/
inductive CommandName where
  | parse
  | combine
  | evaluate
deriving DecidableEq

def CommandName.word : CommandName → String
  | parse => "parse"
  | combine => "combine"
  | evaluate => "evaluate"

def CommandName.all : List CommandName := [parse, combine, evaluate]

def helpForm : OptionForm := ⟨.help, "help", some 'h', false⟩

/-- The option for the log filter, which every command takes. -/
def logLevelForm : OptionForm := ⟨.logLevel, "log-level", none, true⟩

def generalForms : List OptionForm :=
  [logLevelForm, helpForm, ⟨.version, "version", some 'V', false⟩]

def CommandName.forms : CommandName → List OptionForm
  | parse => [logLevelForm, helpForm]
  | combine => [⟨.operator, "operator", some 'o', true⟩, logLevelForm, helpForm]
  | evaluate =>
      [⟨.ast, "ast", none, true⟩, ⟨.data, "data", some 'd', true⟩,
        ⟨.trace, "trace", none, false⟩, logLevelForm, helpForm]

/-- Whether an argument cannot be the value of the option before it. -/
def looksLikeOption (argument : String) : Bool :=
  argument.startsWith "-" && argument != "-"

/-- The short options of one argument. The last of them may take what is left as its value,
or be left without one. -/
def shortPieces (forms : List OptionForm) : List Char → List Piece × Option OptionName
  | [] => ([], none)
  | c :: rest =>
      match forms.find? fun form => form.short == some c with
      | none => ([.wrong], none)
      | some form =>
          if form.takesValue then
            match rest with
            | [] => ([], some form.name)
            | '=' :: value => ([.setting form.name (String.ofList value)], none)
            | value => ([.setting form.name (String.ofList value)], none)
          else
            let (pieces, open?) := shortPieces forms rest
            (.flag form.name :: pieces, open?)

/-- The option of one argument that starts with two dashes. -/
def longPieces (forms : List OptionForm) (body : List Char) :
    List Piece × Option OptionName :=
  let name := String.ofList (body.takeWhile fun c => c != '=')
  let value? := match body.dropWhile fun c => c != '=' with
    | _ :: value => some (String.ofList value)
    | [] => none
  match forms.find? fun form => form.long == name with
  | none => ([.wrong], none)
  | some form =>
      match form.takesValue, value? with
      | true, some value => ([.setting form.name value], none)
      | true, none => ([], some form.name)
      | false, none => ([.flag form.name], none)
      | false, some _ => ([.wrong], none)

/-- The pieces of one argument, and the option that still wants a value. -/
def argumentPieces (forms : List OptionForm) (argument : String) :
    List Piece × Option OptionName :=
  match argument.toList with
  | '-' :: '-' :: body => longPieces forms body
  | '-' :: c :: body => shortPieces forms (c :: body)
  | _ => ([.operand argument false], none)

/-- The pieces of arguments behind a double dash. -/
def escapedPieces (arguments : List String) : List (Piece × List String) :=
  arguments.map fun argument => (.operand argument true, [])

/-- The pieces of all arguments, each with the arguments behind it. -/
def piecesOf (forms : List OptionForm) : List String → List (Piece × List String)
  | [] => []
  | argument :: rest =>
      if argument = "--" then escapedPieces rest
      else
        match argumentPieces forms argument with
        | (pieces, none) => pieces.map (fun piece => (piece, rest)) ++ piecesOf forms rest
        | (pieces, some name) =>
            pieces.map (fun piece => (piece, rest)) ++
              match rest with
              | [] => [(.wrong, [])]
              | value :: more =>
                  if looksLikeOption value then [(.wrong, [])]
                  else (.setting name value, more) :: piecesOf forms more

/-- What the operand of an evaluation is. -/
inductive EvaluationSource where
  | rule (text : String)
  | tree (json : String)

/-- A command with its arguments. -/
inductive Command where
  | parse (rule : String)
  | combine (connective : Connective) (rules : List String)
  | evaluate (source : EvaluationSource) (data : String) (traced : Bool)

/-- What the arguments ask for. -/
inductive Request where
  | run (logFilter : Option String) (command : Command)
  | version
  | help (command : Option CommandName)
  | refused

/-- The arguments of a command as far as they have been read. -/
structure Draft where
  operands : List String
  settings : List (OptionName × String)
  flags : List OptionName

/-- How reading goes on: with more of the arguments, or not at all. -/
inductive Progress where
  | going (draft : Draft)
  | settled (request : Request)

/-- How many operands a command takes at most; there may be no limit. -/
def CommandName.mostOperands : CommandName → Option Nat
  | combine => none
  | _ => some 1

def isValidSetting : OptionName → String → Bool
  | .operator, value => (Connective.ofWord? value).isSome
  | _, _ => true

def Draft.read (command : CommandName) (draft : Draft) : Piece → Progress
  | .wrong => .settled .refused
  | .flag .help => .settled (.help (some command))
  | .flag name =>
      if draft.flags.contains name then .settled .refused
      else .going { draft with flags := name :: draft.flags }
  | .setting name value =>
      if (draft.settings.lookup name).isSome || !isValidSetting name value then
        .settled .refused
      else .going { draft with settings := (name, value) :: draft.settings }
  | .operand text _ =>
      if command.mostOperands.any fun most => decide (most ≤ draft.operands.length) then
        .settled .refused
      else .going { draft with operands := draft.operands ++ [text] }

def Draft.readAll (command : CommandName) (draft : Draft) : List Piece → Progress
  | [] => .going draft
  | piece :: rest =>
      match draft.read command piece with
      | .settled request => .settled request
      | .going more => more.readAll command rest

/-- The command that has been read, if nothing is missing. -/
def Draft.command? (draft : Draft) : CommandName → Option Command
  | .parse => draft.operands.head?.map .parse
  | .combine =>
      if draft.operands.isEmpty then none
      else
        let word := (draft.settings.lookup .operator).getD Connective.and.text
        (Connective.ofWord? word).map fun connective => .combine connective draft.operands
  | .evaluate =>
      let traced := draft.flags.contains .trace
      match draft.operands.head?, draft.settings.lookup .ast, draft.settings.lookup .data with
      | some rule, none, some data => some (.evaluate (.rule rule) data traced)
      | none, some json, some data => some (.evaluate (.tree json) data traced)
      | _, _, _ => none

/-- Reads the arguments of a command. A log filter given with the command goes before one
given ahead of it. -/
def readCommand (logFilter : Option String) (command : CommandName)
    (arguments : List String) : Request :=
  let pieces := (piecesOf command.forms arguments).map Prod.fst
  match Draft.readAll command ⟨[], [], []⟩ pieces with
  | .settled request => request
  | .going draft =>
      match draft.command? command with
      | some found => .run ((draft.settings.lookup .logLevel).or logFilter) found
      | none => .refused

def CommandName.ofWord? (word : String) : Option CommandName :=
  all.find? fun command => command.word == word

def helpRequest : List String → Request
  | [] => .help none
  | [word] =>
      if word = "help" then .help none
      else match CommandName.ofWord? word with
        | some command => .help (some command)
        | none => .refused
  | _ => .refused

/-- Reads the pieces ahead of a command and then the command. -/
def readGeneral (logFilter : Option String) : List (Piece × List String) → Request
  | [] => .refused
  | (.flag .help, _) :: _ => .help none
  | (.flag .version, _) :: _ => .version
  | (.setting _ value, _) :: rest =>
      if logFilter.isSome then .refused else readGeneral (some value) rest
  | (.operand word false, behind) :: _ =>
      if word = "help" then helpRequest behind
      else match CommandName.ofWord? word with
        | some command => readCommand logFilter command behind
        | none => .refused
  | _ => .refused

def readArguments (arguments : List String) : Request :=
  readGeneral none (piecesOf generalForms arguments)

end ComparisonRules.CommandLine
