import CodeGraph.Syntax.Kind

/-!
# Syntax trees

* `Place` — a position in a text: how many characters and how many line ends lie before it.
* `Node` — one node of a syntax tree: its label and its children in source order.
* `Node.hasDefect` — the flag every node carries about the error and missing nodes in its subtree;
  `Node.branch` and `Node.leaf` set it from the children.
-/

namespace CodeGraph.Syntax

/-- A position in a text: how many characters and how many line ends lie before it. -/
structure Place where
  offset : Nat
  row : Nat
  deriving DecidableEq, Repr, Inhabited

/-- What can be wrong with a node: its text fits nowhere, or it stands for absent text. -/
inductive Defect where
  | unexpected
  | missing
  deriving DecidableEq, Repr, Inhabited

/-- All that is known of a node apart from its children. -/
structure Label where
  kind : Kind
  field : Option Field
  start : Place
  stop : Place
  defect : Option Defect
  hasDefect : Bool
  deriving DecidableEq, Repr, Inhabited

/-- A node of a syntax tree. -/
inductive Node where
  | node (label : Label) (children : List Node)
  deriving Inhabited

namespace Node

def label : Node → Label
  | node l _ => l

def children : Node → List Node
  | node _ cs => cs

def kind (n : Node) : Kind := n.label.kind
def field (n : Node) : Option Field := n.label.field
def start (n : Node) : Place := n.label.start
def stop (n : Node) : Place := n.label.stop

/-- Whether the node itself is an error or missing node. -/
def isDefect (n : Node) : Bool := n.label.defect.isSome

/-- The node's own flag on defects in its subtree. -/
def hasDefect (n : Node) : Bool := n.label.hasDefect

/-- Line of the node's first character, counted from one. -/
def startLine (n : Node) : Nat := n.start.row + 1

/-- Line of the node's last character, counted from one. -/
def stopLine (n : Node) : Nat := n.stop.row + 1

/-- A leaf that spans the given places. -/
def leaf (kind : Kind) (start stop : Place) : Node :=
  node ⟨kind, none, start, stop, none, false⟩ []

/-- A node over children that are there; it spans from the first to the last of them. -/
def branch (kind : Kind) (cs : List Node) : Node :=
  let start := (cs.head?.map Node.start).getD ⟨0, 0⟩
  let stop := (cs.getLast?.map Node.stop).getD start
  node ⟨kind, none, start, stop, none, cs.any Node.hasDefect⟩ cs

/-- The same node in the given role. -/
def inField (f : Field) : Node → Node
  | node l cs => node { l with field := some f } cs

/-- The same node under another kind. -/
def withKind (k : Kind) : Node → Node
  | node l cs => node { l with kind := k } cs

/-- An error node around the given children, at a place of its own. -/
def defective (start stop : Place) (cs : List Node) : Node :=
  node ⟨.error, none, start, stop, some .unexpected, true⟩ cs

/-- Keywords, operators and punctuation are anonymous, all else is named. -/
def isNamed (n : Node) : Bool := n.kind != .token

/-- The named children, in order. -/
def namedChildren (n : Node) : List Node := n.children.filter isNamed

/-- The children in a role, in order. -/
def childrenIn (f : Field) (n : Node) : List Node := n.children.filter (·.field == some f)

/-- The first child in a role. -/
def child? (f : Field) (n : Node) : Option Node := n.children.find? (·.field == some f)

/-- The first child of a kind. -/
def childOfKind? (k : Kind) (n : Node) : Option Node := n.children.find? (·.kind == k)

mutual
/-- Number of nodes in the tree. -/
def size : Node → Nat
  | node _ cs => forestSize cs + 1

/-- Number of nodes in the trees of a list. -/
def forestSize : List Node → Nat
  | [] => 0
  | n :: ns => size n + forestSize ns
end

end Node

/-- A text with its characters in an array, so that a node's own text can be cut out. -/
structure SourceText where
  chars : Array Char
  deriving Inhabited

namespace SourceText

def ofString (s : String) : SourceText := ⟨s.toList.toArray⟩

/-- The characters from one place up to another. -/
def slice (s : SourceText) (start stop : Nat) : String :=
  String.ofList (s.chars.extract start stop).toList

/-- The text a node spans. -/
def textOf (s : SourceText) (n : Node) : String := s.slice n.start.offset n.stop.offset

end SourceText

end CodeGraph.Syntax
