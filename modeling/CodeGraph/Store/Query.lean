import CodeGraph.Exchange.Graph
import CodeGraph.Hash.Hex
import CodeGraph.Store.Session

/-!
# Queries

* `Cell` — a value in a row of a result.
* `Query` — the queries that a store answers; `Query.text` is how they are written.
* `Session.query` — the rows of a query, for parameters that are bound by name.
-/

namespace CodeGraph

/-! ### Values -/

/-- A value in a row of a result. -/
inductive Cell where
  | null
  | integer (n : Int)
  | real (x : Float)
  | text (s : String)
  | bytes (bs : List UInt8)
  deriving Inhabited

namespace Cell

/-- An object with its members in the order of their keys; of members with the same key the last one
counts. -/
def insertMember (key : String) (j : Json) : List (String × Json) → List (String × Json)
  | [] => [(key, j)]
  | (k, v) :: rest =>
    if key = k then (key, j) :: rest
    else if key < k then (key, j) :: (k, v) :: rest
    else (k, v) :: insertMember key j rest

/-- The members of an object in the order of their keys. -/
def sortedMembers (members : List (String × Json)) : List (String × Json) :=
  members.foldl (fun sorted (k, j) => insertMember k j sorted) []

mutual
/-- A value with the members of all objects in the order of their keys. -/
def sortedJson : Json → Json
  | .object members => .object (sortedMembers (sortedPairs members))
  | .list items => .list (sortedItems items)
  | .null => .null
  | .bool b => .bool b
  | .int n => .int n
  | .real x => .real x
  | .text s => .text s

def sortedPairs : List (String × Json) → List (String × Json)
  | [] => []
  | (k, j) :: rest => (k, sortedJson j) :: sortedPairs rest

def sortedItems : List Json → List Json
  | [] => []
  | j :: rest => sortedJson j :: sortedItems rest
end

/-- The cell that a parameter is bound to: truth values are numbers, what does not fit a signed
number of sixty-four bits is a double-precision number, and lists and objects are their text. -/
def ofJson : Json → Cell
  | .null => null
  | .bool b => integer (if b then 1 else 0)
  | .int n => if -0x8000000000000000 ≤ n && n < 0x8000000000000000 then integer n else real (Float.ofInt n)
  | .real x => real x
  | .text s => text s
  | .list items => text (sortedJson (.list items)).compact
  | .object members => text (sortedJson (.object members)).compact

def toJson : Cell → Json
  | null => .null
  | integer n => .int n
  | real x => if x.isFinite then .real x else .null
  | text s => .text s
  | bytes bs => .text (Hash.hexText bs)

/-- The name of a cell's type. -/
def typeWord : Cell → String
  | null => "null"
  | integer _ => "integer"
  | real _ => "real"
  | text _ => "text"
  | bytes _ => "blob"

/-- Whether a cell equals a column of texts; numbers are compared by their texts. -/
def equalsText (c : Cell) (s : String) : Bool :=
  match c with
  | text t => t = s
  | integer n => toString n = s
  | real x => Json.numberText x = s
  | null | bytes _ => false

def optionalText : Option String → Cell
  | some s => text s
  | none => null

/-- A number in a column of sixty-four bits. -/
def nat (n : Nat) : Cell := integer ((n : Int).bmod 0x10000000000000000)

end Cell

/-- A row of a result. -/
abbrev Row := List (String × Cell)

/-- A row as an object; of columns with the same name the last one counts. -/
def Row.toJson (r : Row) : Json :=
  .object (Cell.sortedMembers (r.map fun (name, c) => (name, c.toJson)))

/-! ### Queries -/

/-- The queries that a store answers. -/
inductive Query where
  | nodes
  | relationships
  | metadata
  | names
  | namesOfLabel
  | echo
  | echoMarked
  | repeatedColumns
  | literals
  | missingTable
  | misspelt
  | empty
  | deleteNode
  | spoilSummary
  | spoilTime
  deriving DecidableEq, Repr

namespace Query

def all : List Query :=
  [nodes, relationships, metadata, names, namesOfLabel, echo, echoMarked, repeatedColumns, literals,
   missingTable, misspelt, empty, deleteNode, spoilSummary, spoilTime]

/-- How a query is written. -/
def text : Query → String
  | nodes => "SELECT id, project_id, node_type, name, path, package, properties, created_at " ++
      "FROM graph_nodes ORDER BY id"
  | relationships => "SELECT id, project_id, rel_type, source_id, target_id, properties, created_at " ++
      "FROM graph_relationships ORDER BY id"
  | metadata => "SELECT project_id, files, packages, functions, structs, node_count, " ++
      "relationship_count, summary, analyzed_at FROM project_metadata ORDER BY project_id"
  | names => "SELECT node_type, name FROM graph_nodes WHERE project_id = :project " ++
      "ORDER BY node_type, name, path"
  | namesOfLabel => "SELECT name FROM graph_nodes WHERE project_id = :project " ++
      "AND node_type = :kind ORDER BY name"
  | echo => "SELECT :v AS v, typeof(:v) AS t"
  | echoMarked => "SELECT @v AS v, $w AS w"
  | repeatedColumns => "SELECT 1 AS a, 2 AS a, 3 AS b"
  | literals => "SELECT x'00ff10' AS b, CAST(x'41ff42' AS TEXT) AS t, 9e999 AS inf, NULL AS n"
  | missingTable => "SELECT * FROM no_such_table"
  | misspelt => "SELEC 1"
  | empty => ""
  | deleteNode => "DELETE FROM graph_nodes WHERE name = :name"
  | spoilSummary => "UPDATE project_metadata SET summary = '\x7b'"
  | spoilTime => "UPDATE project_metadata SET analyzed_at = 'yesterday'"

/-- The query of a text. -/
def ofText? (s : String) : Option Query := all.find? (·.text = s)

/-- Parameters by the names under which they are bound, with their marks; of two parameters for one
name the one with the greater key counts. -/
def bind (params : List (String × Json)) : List (String × Cell) :=
  (Cell.sortedMembers params).reverse.map fun (key, j) =>
    let marked := match key.toList.head? with
      | some c => c = ':' || c = '@' || c = '$'
      | none => false
    (if marked then key else ":" ++ key, Cell.ofJson j)

def nodeRow (n : GraphNode) : Row :=
  [("id", .text n.id.toText), ("project_id", .text n.projectId), ("node_type", .text n.label.word),
    ("name", .text n.name), ("path", .optionalText n.path),
    ("package", .optionalText n.properties.package?), ("properties", .text n.properties.toJson.compact),
    ("created_at", .text n.createdAt.columnText)]

def relationshipRow (r : GraphRelationship) : Row :=
  [("id", .text r.id.toText), ("project_id", .text r.projectId), ("rel_type", .text r.label.word),
    ("source_id", .text r.source.toText), ("target_id", .text r.target.toText),
    ("properties", .text r.properties.toJson.compact), ("created_at", .text r.createdAt.columnText)]

def metadataRow (m : MetadataRow) : Row :=
  [("project_id", .text m.projectId), ("files", .nat m.files), ("packages", .nat m.packages),
    ("functions", .nat m.functions), ("structs", .nat m.structs), ("node_count", .nat m.nodeCount),
    ("relationship_count", .nat m.relationshipCount), ("summary", .text m.summary),
    ("analyzed_at", .text m.analyzedAt)]

/-- Whether a node comes before another by label, name and path, all of them as texts. -/
def nodeBefore (a b : GraphNode) : Bool :=
  ((compare a.label.word b.label.word).then
    ((compare a.name b.name).then (compare a.path b.path))).isLE

/-- The rows of a query, with the value of every parameter, and the tables that it leaves. -/
def answer (value : String → Cell) (t : Tables) : Query → Except DatabaseFault (List Row × Tables)
  | nodes => .ok ((t.nodes.mergeSort fun a b => a.id.toText ≤ b.id.toText).map nodeRow, t)
  | relationships =>
    .ok ((t.relationships.mergeSort fun a b => a.id.toText ≤ b.id.toText).map relationshipRow, t)
  | metadata =>
    .ok ((t.metadata.mergeSort fun a b => a.projectId ≤ b.projectId).map metadataRow, t)
  | names =>
    let found := t.nodes.filter fun n => (value ":project").equalsText n.projectId
    .ok ((found.mergeSort nodeBefore).map fun n =>
      [("node_type", .text n.label.word), ("name", .text n.name)], t)
  | namesOfLabel =>
    let found := t.nodes.filter fun n =>
      (value ":project").equalsText n.projectId && (value ":kind").equalsText n.label.word
    .ok ((found.mergeSort fun a b => a.name ≤ b.name).map fun n => [("name", .text n.name)], t)
  | echo => .ok ([[("v", value ":v"), ("t", .text (value ":v").typeWord)]], t)
  | echoMarked => .ok ([[("v", value "@v"), ("w", value "$w")]], t)
  | repeatedColumns => .ok ([[("a", .integer 1), ("a", .integer 2), ("b", .integer 3)]], t)
  | literals => .ok ([[("b", .bytes [0x00, 0xff, 0x10]), ("t", .text "A\ufffdB"),
      ("inf", .real (1.0 / 0.0)), ("n", .null)]], t)
  | missingTable => .error (.noTable "no_such_table")
  | misspelt => .error (.badStatement misspelt.text)
  | empty => .error .noStatement
  | deleteNode => .ok ([], (t.deleteNodes fun n => (value ":name").equalsText n.name).2)
  | spoilSummary =>
    .ok ([], { t with metadata := t.metadata.map fun m => { m with summary := "\x7b" } })
  | spoilTime =>
    .ok ([], { t with metadata := t.metadata.map fun m => { m with analyzedAt := "yesterday" } })

/-- The table that a query is about. -/
def table? : Query → Option Table
  | nodes | names | namesOfLabel | deleteNode => some .nodes
  | relationships => some .relationships
  | metadata | spoilSummary | spoilTime => some .metadata
  | _ => none

end Query

/-- The rows of a query. -/
def Session.query (q : Query) (params : List (String × Json)) : Session StoreError (List Row) :=
  let bound := Query.bind params
  let value (name : String) : Cell := (bound.lookup name).getD .null
  mapError .query <|
    match q.table? with
    | some table => statement table fun t => q.answer value t
    | none => ofExcept ((q.answer value .empty).map (·.1))

end CodeGraph
