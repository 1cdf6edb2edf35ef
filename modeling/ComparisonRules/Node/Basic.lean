import ComparisonRules.Rule.Basic

/-!
# Stored nodes

A rule is stored as a tree of uniform nodes. An operator node names a connective and has two
children; an operand node has a comparator, a field and a literal. A node as such may lack
any of these: what is read from storage is a tree of nodes, and only some of them are rules.
-/

namespace ComparisonRules

/-- What a node stands for. -/
inductive Node.Kind where
  | operator
  | operand
deriving DecidableEq

def Node.Kind.text : Node.Kind → String
  | operator => "operator"
  | operand => "operand"

/-- A stored node. -/
structure Node where
  kind : Node.Kind
  value : Option String
  left : Option Node
  right : Option Node
  field : Option String
  literal : Option Value

namespace Node

/-- The children that are present, the left one first. -/
def children (node : Node) : List Node :=
  node.left.toList ++ node.right.toList

/-- How a node is labelled in a view of the tree: by its value, or else by its kind. -/
def label (node : Node) : String :=
  node.value.getD node.kind.text

def ofJoint (left : Node) (connective : Connective) (right : Node) : Node :=
  ⟨.operator, some connective.text, some left, some right, none, none⟩

def ofComparison (c : Comparison) : Node :=
  ⟨.operand, some c.comparator.symbol, none, none, some c.field, some c.literal⟩

/-- The tree of nodes that stores a rule. -/
def ofRule : Rule → Node
  | .leaf c => ofComparison c
  | .join left connective right => ofJoint (ofRule left) connective (ofRule right)

/-- A view of a tree of nodes: only labels and children. -/
inductive View where
  | node (label : String) (children : List View)

def view : Node → View
  | ⟨kind, value, left, right, _, _⟩ =>
      let shown := match left, right with
        | none, none => []
        | some l, none => [l.view]
        | none, some r => [r.view]
        | some l, some r => [l.view, r.view]
      .node (value.getD kind.text) shown

end Node

end ComparisonRules
