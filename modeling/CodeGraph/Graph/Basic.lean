import CodeGraph.Graph.Label
import CodeGraph.Hash.Uuid
import CodeGraph.Source.Declaration
import CodeGraph.Time.Instant

/-!
# The graph of a project

* `GraphNode`, `GraphRelationship` — a labelled node, and a labelled relationship between two nodes,
  with properties that depend on the label.
* `Summary` — the figures that are kept with a graph.
* `Graph` — nodes and relationships, in the order in which they are written.
-/

namespace CodeGraph

open Hash (Uuid)

/-- What is known of a function or method. -/
structure FunctionProperties where
  package : String
  file : String
  receiver : Option String
  pointerReceiver : Bool
  signature : String
  visibility : Visibility
  span : Span
  complexity : Nat
  /-- Number of calls to the outside for which there is no node to point at. -/
  externalCalls : Nat
  unresolvedCalls : Nat
  deriving DecidableEq, Repr, Inhabited

/-- What is known of a struct or interface. -/
structure TypeProperties where
  package : String
  file : String
  visibility : Visibility
  span : Span
  fieldCount : Nat
  /-- The methods of an interface as they are declared. -/
  methods : List String
  embeds : List String
  deriving DecidableEq, Repr, Inhabited

/-- What is known of a constant or variable. -/
structure ValueProperties where
  package : String
  file : String
  typeName : Option String
  visibility : Visibility
  line : Nat
  deriving DecidableEq, Repr, Inhabited

/-- What is known of a node. -/
inductive NodeProperties where
  | project (root : String) (modulePath : Option String) (parseErrors : Nat)
  | package (importPath name folder : String) (fileCount : Nat)
  | file (package contentHash : String) (lineCount : Nat)
  | function (p : FunctionProperties)
  | type (p : TypeProperties)
  | field (package owner typeName : String) (visibility : Visibility) (embedded : Bool) (line : Nat)
  | value (p : ValueProperties)
  | importPath (path : String) (standardLibrary : Bool)
  deriving DecidableEq, Repr, Inhabited

/-- The import path of the package that a node belongs to. -/
def NodeProperties.package? : NodeProperties → Option String
  | project _ _ _ => none
  | package path _ _ _ => some path
  | file owner _ _ => some owner
  | function p => some p.package
  | type p => some p.package
  | field owner _ _ _ _ _ => some owner
  | value p => some p.package
  | importPath _ _ => none

/-- What is known of a relationship. -/
inductive RelationshipProperties where
  | contains
  | imports (givenName : Option String) (line : Nat)
  | calls (kind : CallKind) (line : Nat) (nameMatched : Bool)
  | implements (pointerReceiver : Bool)
  | hasMethod (pointerReceiver : Bool)
  | hasField (embedded : Bool)
  | dependsOn (weight : Nat) (inCycle : Bool)
  deriving DecidableEq, Repr, Inhabited

/-- The label that goes with the properties. -/
def RelationshipProperties.label : RelationshipProperties → RelationshipType
  | contains => .contains
  | imports _ _ => .imports
  | calls _ _ _ => .calls
  | implements _ => .implements
  | hasMethod _ => .hasMethod
  | hasField _ => .hasField
  | dependsOn _ _ => .dependsOn

/-- A node of a graph. -/
structure GraphNode where
  id : Uuid
  projectId : String
  label : NodeType
  name : String
  path : Option String
  properties : NodeProperties
  createdAt : Instant
  deriving DecidableEq, Repr, Inhabited

/-- A relationship from one node of a graph to another. -/
structure GraphRelationship where
  id : Uuid
  projectId : String
  label : RelationshipType
  source : Uuid
  target : Uuid
  properties : RelationshipProperties
  createdAt : Instant
  deriving DecidableEq, Repr, Inhabited

/-- The figures that are kept with a graph. -/
structure Summary where
  files : Nat
  packages : Nat
  functions : Nat
  methods : Nat
  structs : Nat
  interfaces : Nat
  externalImports : Nat
  implementations : Nat
  resolvedCalls : Nat
  unresolvedCalls : Nat
  cycles : Nat
  parseErrors : Nat
  deriving DecidableEq, Repr, Inhabited

/-- The graph of a project. -/
structure Graph where
  projectId : String
  nodes : List GraphNode
  relationships : List GraphRelationship
  summary : Summary
  analyzedAt : Instant
  deriving DecidableEq, Repr, Inhabited

namespace Graph

/-- Number of nodes with a label. -/
def nodeCount (g : Graph) (label : NodeType) : Nat := g.nodes.countP (·.label = label)

/-- Number of relationships with a label. -/
def relationshipCount (g : Graph) (label : RelationshipType) : Nat :=
  g.relationships.countP (·.label = label)

end Graph

end CodeGraph
