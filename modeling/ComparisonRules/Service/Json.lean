import ComparisonRules.Node.Json
import ComparisonRules.Service.Basic

/-!
# Requests and responses as JSON

How the requests and responses of the service are written and read.
-/

namespace ComparisonRules.Service

namespace RuleSource

/-- A rule source as JSON: a string or a node. -/
def toData : RuleSource → Json.Data
  | text s => .string s
  | tree node => node.toData

/-- Reads a rule source. It is read in full before it is taken for a text or a tree. -/
def read (levels : Nat) : Json.Shape RuleSource := fun document => do
  Json.checkWhole levels document
  match document with
  | .string q => do
      let s ← Json.readQuotation q
      return .text s
  | document =>
      match Node.read levels document with
      | .ok node => .ok (.tree node)
      | .error _ => .error (.mismatch (.noAlternative "RuleSource"))

end RuleSource

/-- A structure with a single field, which must be given. -/
def readSingle {α β : Type} (levels : Nat) (expected name : String) (shape : Nat → Json.Shape α)
    (make : α → β) : Json.Shape β :=
  Json.inside levels expected fun levels =>
    let field : Json.Field (Option α) := ⟨name, false, Option.isSome, fun document _ => do
      let value ← shape levels document
      return some value⟩
    Json.readStructure expected [field] none fun part => do
      let value ← Json.required name part
      return make value

/-- A structure with two fields, which must be given. -/
def readPair {α β γ : Type} (levels : Nat) (expected first second : String)
    (firstShape : Nat → Json.Shape α) (secondShape : Nat → Json.Shape β)
    (make : α → β → γ) : Json.Shape γ :=
  Json.inside levels expected fun levels =>
    let firstField : Json.Field (Option α × Option β) :=
      ⟨first, false, fun part => part.1.isSome, fun document part => do
        let value ← firstShape levels document
        return (some value, part.2)⟩
    let secondField : Json.Field (Option α × Option β) :=
      ⟨second, false, fun part => part.2.isSome, fun document part => do
        let value ← secondShape levels document
        return (part.1, some value)⟩
    Json.readStructure expected [firstField, secondField] (none, none) fun part => do
      let a ← Json.required first part.1
      let b ← Json.required second part.2
      return make a b

namespace CreateRequest

def toData (request : CreateRequest) : Json.Data :=
  .object [("rule", .string request.rule)]

def read (levels : Nat) : Json.Shape CreateRequest :=
  readSingle levels "struct CreateRuleRequest" "rule" (fun _ => Json.readString) mk

end CreateRequest

namespace CreateResponse

def toData (response : CreateResponse) : Json.Data :=
  .object [("rule", .string response.rule), ("ast", response.ast.toData)]

def read (levels : Nat) : Json.Shape CreateResponse :=
  readPair levels "struct CreateRuleResponse" "rule" "ast" (fun _ => Json.readString)
    Node.read mk

end CreateResponse

namespace CombineRequest

def toData (request : CombineRequest) : Json.Data :=
  .object [("rules", .array (request.rules.map RuleSource.toData)),
    ("operator", request.connective.toData)]

def read (levels : Nat) : Json.Shape CombineRequest :=
  readPair levels "struct CombineRulesRequest" "rules" "operator"
    (fun levels => Json.readList levels RuleSource.read) Connective.read mk

end CombineRequest

namespace CombineResponse

def toData (response : CombineResponse) : Json.Data :=
  .object [("combinedAST", response.combined.toData)]

def read (levels : Nat) : Json.Shape CombineResponse :=
  readSingle levels "struct CombineRulesResponse" "combinedAST" Node.read mk

end CombineResponse

namespace EvaluateRequest

def toData (request : EvaluateRequest) : Json.Data :=
  .object [("ast", request.ast.toData), ("data", request.data.toData),
    ("trace", .bool request.traced)]

/-- The part of a request that has been read. -/
structure Draft where
  ast : Option Node
  data : Option Record
  traced : Option Bool

/-- The request that has been read. No trace is made unless it is asked for. -/
def Draft.finish (draft : Draft) : Except Json.Fault EvaluateRequest := do
  let ast ← Json.required "ast" draft.ast
  let data ← Json.required "data" draft.data
  return ⟨ast, data, draft.traced.getD false⟩

def jsonFields (levels : Nat) : List (Json.Field Draft) :=
  [⟨"ast", false, fun d => d.ast.isSome, fun document d => do
      let ast ← Node.read levels document
      return { d with ast := some ast }⟩,
    ⟨"data", false, fun d => d.data.isSome, fun document d => do
      let data ← Record.read levels document
      return { d with data := some data }⟩,
    ⟨"trace", true, fun d => d.traced.isSome, fun document d => do
      let traced ← Json.readBool document
      return { d with traced := some traced }⟩]

def read (levels : Nat) : Json.Shape EvaluateRequest :=
  Json.inside levels "struct EvaluateRuleRequest" fun levels =>
    Json.readStructure "struct EvaluateRuleRequest" (jsonFields levels) ⟨none, none, none⟩
      Draft.finish

end EvaluateRequest

namespace EvaluateResponse

/-- The response as JSON. The trace is left out where there is none. -/
def toData (response : EvaluateResponse) : Json.Data :=
  .object (("result", .bool response.result) ::
    Node.optionalMember "trace" (response.trace.map fun lines => .array (lines.map .string)))

/-- The part of a response that has been read. -/
structure Draft where
  result : Option Bool
  trace : Option (Option (List String))

def Draft.finish (draft : Draft) : Except Json.Fault EvaluateResponse := do
  let result ← Json.required "result" draft.result
  return ⟨result, draft.trace.join⟩

def jsonFields (levels : Nat) : List (Json.Field Draft) :=
  [⟨"result", false, fun d => d.result.isSome, fun document d => do
      let result ← Json.readBool document
      return { d with result := some result }⟩,
    ⟨"trace", true, fun d => d.trace.isSome, fun document d => do
      let trace ← Json.readOptional
        (Json.readList levels fun _ => Json.readString) document
      return { d with trace := some trace }⟩]

def read (levels : Nat) : Json.Shape EvaluateResponse :=
  Json.inside levels "struct EvaluateRuleResponse" fun levels =>
    Json.readStructure "struct EvaluateRuleResponse" (jsonFields levels) ⟨none, none⟩
      Draft.finish

end EvaluateResponse

end ComparisonRules.Service
