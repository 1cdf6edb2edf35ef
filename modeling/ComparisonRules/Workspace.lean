import ComparisonRules.Node.Stored

/-!
# Workspaces

A workspace keeps rules under names and one record to evaluate them on. A step that fails
leaves the workspace as it was.
-/

namespace ComparisonRules

/-- Rules under names, the newest first, and a record. -/
structure Workspace where
  slots : List (String × Rule)
  record : Record

/-- Why a step cannot be done. -/
inductive WorkspaceError where
  | noSlot (name : String)
  | rule (e : RuleError)
deriving DecidableEq

namespace Workspace

/-- The workspace without rules and with the record without fields. -/
def empty : Workspace := ⟨[], .empty⟩

/-- The rule under a name, if there is one. -/
def rule? (workspace : Workspace) (slot : String) : Option Rule :=
  workspace.slots.lookup slot

def rule (workspace : Workspace) (slot : String) : Except WorkspaceError Rule :=
  match workspace.rule? slot with
  | some rule => .ok rule
  | none => .error (.noSlot slot)

/-- The rules under several names. The first name without a rule counts. -/
def rules (workspace : Workspace) : List String → Except WorkspaceError (List Rule)
  | [] => .ok []
  | slot :: rest => do
      let rule ← workspace.rule slot
      let rules ← workspace.rules rest
      return rule :: rules

/-- Puts a rule under a name, in the place of the one that was there. -/
def store (workspace : Workspace) (slot : String) (rule : Rule) : Workspace :=
  { workspace with slots := (slot, rule) :: workspace.slots }

def load (workspace : Workspace) (record : Record) : Workspace :=
  { workspace with record := record }

/-- Sets a field of the record, and gives the value that it had before. -/
def insert (workspace : Workspace) (field : String) (value : Value) :
    Option Value × Workspace :=
  (workspace.record.get? field, workspace.load (workspace.record.insert field value))

def liftRule {α : Type} : Except RuleError α → Except WorkspaceError α
  | .ok value => .ok value
  | .error e => .error (.rule e)

/-- Joins the rules under two names, where a name without a rule is a missing operand. -/
def join (workspace : Workspace) (left : String) (connective : Connective) (right : String) :
    Except WorkspaceError Rule :=
  liftRule (liftError .combine
    (Rule.joinOptional (workspace.rule? left) connective (workspace.rule? right)))

/-- The rule under a name after it went through its stored nodes. -/
def reencode (workspace : Workspace) (slot : String) : Except WorkspaceError Rule := do
  let rule ← workspace.rule slot
  liftRule (liftError .decode (Node.ofRule rule).toRule)

/-- The rule under a name after it went through its stored text. -/
def reload (workspace : Workspace) (slot : String) : Except WorkspaceError Rule := do
  let rule ← workspace.rule slot
  liftRule (Rule.ofStoredText rule.storedText)

/-- The rule under a name after it went through its rule text. -/
def recompile (workspace : Workspace) (slot : String) : Except WorkspaceError Rule := do
  let rule ← workspace.rule slot
  liftRule (liftError .compile (Rule.compile rule.text))

def evaluate (workspace : Workspace) (slot : String) (traced : Bool) :
    Except WorkspaceError Evaluation := do
  let rule ← workspace.rule slot
  liftRule (liftError .eval (rule.evaluate workspace.record traced))

end Workspace

end ComparisonRules
