/-!
# Labels of nodes and relationships

* `NodeType`, `RelationshipType` — what a node stands for and what a relationship says.
* `NodeType.ofText?`, `RelationshipType.ofText?` — the label of a word in either case.
-/

namespace CodeGraph

/-- What a node stands for. -/
inductive NodeType where
  | project | package | file | function | method | struct | interface | field | constant | variable
  | importPath
  deriving DecidableEq, Repr, Inhabited

namespace NodeType

/-- All labels, in their order. -/
def all : List NodeType :=
  [.project, .package, .file, .function, .method, .struct, .interface, .field, .constant,
   .variable, .importPath]

def word : NodeType → String
  | .project => "Project"
  | .package => "Package"
  | .file => "File"
  | .function => "Function"
  | .method => "Method"
  | .struct => "Struct"
  | .interface => "Interface"
  | .field => "Field"
  | .constant => "Constant"
  | .variable => "Variable"
  | .importPath => "Import"

/-- The label of a word in either case. -/
def ofText? (s : String) : Option NodeType :=
  all.find? fun t => t.word.map Char.toLower == s.map Char.toLower

end NodeType

/-- What a relationship says. -/
inductive RelationshipType where
  | contains | imports | calls | implements | hasMethod | hasField | dependsOn
  deriving DecidableEq, Repr, Inhabited

namespace RelationshipType

/-- All labels, in their order. -/
def all : List RelationshipType :=
  [.contains, .imports, .calls, .implements, .hasMethod, .hasField, .dependsOn]

def word : RelationshipType → String
  | .contains => "CONTAINS"
  | .imports => "IMPORTS"
  | .calls => "CALLS"
  | .implements => "IMPLEMENTS"
  | .hasMethod => "HAS_METHOD"
  | .hasField => "HAS_FIELD"
  | .dependsOn => "DEPENDS_ON"

/-- The label of a word in either case. -/
def ofText? (s : String) : Option RelationshipType :=
  all.find? fun t => t.word.map Char.toLower == s.map Char.toLower

end RelationshipType

end CodeGraph
