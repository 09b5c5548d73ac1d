import CodeGraph.Exchange.Graph
import CodeGraph.Json.Reader
import CodeGraph.Names.Order
import CodeGraph.Store.Tables
import CodeGraph.Time.Reader

/-!
# What a store says of its projects

* `Store.countNodes`, `Store.countRelationships` — numbers of rows of a project.
* `Store.projectFigures` — the figures of one project, read back from their columns.
* `Store.projects` — the figures of all projects, the latest analysis first.
-/

namespace CodeGraph

/-- The figures of a project as they are read back. -/
structure ProjectFigures where
  projectId : String
  nodeCount : Nat
  relationshipCount : Nat
  summary : Summary
  analyzedAt : Instant
  updatedAt : Instant
  deriving DecidableEq, Repr, Inhabited

/-- The time that a column holds. -/
def timeInColumn (column : Nat) (text : String) : Except DatabaseFault Instant :=
  (Instant.read text).mapError fun f => .unreadable column f.message

/-- The summary that a column holds.  No statement puts any other unreadable text there than an
opening brace alone. -/
def summaryInColumn (column : Nat) (text : String) : Except DatabaseFault Summary :=
  match (Json.read? text).bind Summary.ofJson? with
  | some s => .ok s
  | none => .error (.unreadable column "EOF while parsing an object at line 1 column 1")

/-- The figures of a row, of which the columns are read from left to right. -/
def MetadataRow.figures (m : MetadataRow) : Except DatabaseFault ProjectFigures := do
  let summary ← summaryInColumn 3 m.summary
  let analyzedAt ← timeInColumn 4 m.analyzedAt
  let updatedAt ← timeInColumn 5 m.updatedAt
  pure ⟨m.projectId, m.nodeCount, m.relationshipCount, summary, analyzedAt, updatedAt⟩

namespace Store

def countNodes (s : Store) (projectId : String) (label : Option NodeType) :
    Except StoreError Nat :=
  ((s.require .nodes).map (·.nodeCount projectId label)).mapError .database

def countRelationships (s : Store) (projectId : String) (label : Option RelationshipType) :
    Except StoreError Nat :=
  ((s.require .relationships).map (·.relationshipCount projectId label)).mapError .database

/-- The figures of a project, if it is there. -/
def projectFigures (s : Store) (projectId : String) :
    Except StoreError (Option ProjectFigures) :=
  (do match (← s.require .metadata).metadata? projectId with
    | some m => pure (some (← m.figures))
    | none => pure none).mapError .database

/-- Rows by the text of their time, the greatest first; rows of the same time keep their order. -/
def latestFirst (rows : List MetadataRow) : List MetadataRow :=
  rows.mergeSort fun a b => (compare b.analyzedAt a.analyzedAt).isLE

/-- The figures of all projects, the latest analysis first. -/
def projects (s : Store) : Except StoreError (List ProjectFigures) :=
  (do (latestFirst (← s.require .metadata).metadata).mapM MetadataRow.figures).mapError .database

/-! ### Indexes -/

/-- The indexes of a store, each with the table it is on: two for every label of nodes, and a few
over all rows. -/
def indexes : List (String × Table) :=
  (NodeType.all.flatMap fun t =>
    let word := t.word.map Char.toLower
    [("uq_" ++ word ++ "_id", .nodes), ("idx_" ++ word ++ "_name", .nodes)]) ++
  [("idx_nodes_package_name", .nodes), ("idx_nodes_project", .nodes),
    ("idx_rels_project", .relationships), ("idx_rels_source", .relationships),
    ("idx_rels_target", .relationships)]

/-- The indexes that can be created, and those that cannot with the reason. -/
def indexReport (s : Store) : List String × List (String × String) :=
  match s.tables with
  | some _ => (indexes.map (·.1), [])
  | none => ([], indexes.map fun (name, table) =>
      (name, (DatabaseFault.noTable ("main." ++ table.word)).message))

end Store

end CodeGraph
