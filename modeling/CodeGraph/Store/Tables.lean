import CodeGraph.Graph.Basic
import CodeGraph.Store.Fault

/-!
# Tables

* `Tables` — the rows of a store: nodes, relationships and one row of figures for every project.
* `Tables.insertNode`, `Tables.insertRelationship` — keys are not repeated, and the ends of a
  relationship are stored nodes.
* `Tables.deleteNodes`, `Tables.deleteRelationships` — a node takes its relationships along.
* `Tables.putMetadata`, `Tables.deleteMetadata` — the figures of a project.
* `Store` — tables, or nothing yet.
-/

namespace CodeGraph

open Hash (Uuid)

/-- The figures of a project. -/
structure MetadataRow where
  projectId : String
  files : Nat
  packages : Nat
  functions : Nat
  structs : Nat
  nodeCount : Nat
  relationshipCount : Nat
  /-- The text of the summary. -/
  summary : String
  /-- The text of the time of the analysis. -/
  analyzedAt : String
  /-- The text of the time when the row was written. -/
  updatedAt : String
  deriving DecidableEq, Repr, Inhabited

/-- The rows of a store, in the order in which they were inserted. -/
structure Tables where
  nodes : List GraphNode
  relationships : List GraphRelationship
  metadata : List MetadataRow
  deriving DecidableEq, Repr, Inhabited

namespace Tables

def empty : Tables := ⟨[], [], []⟩

def hasNode (t : Tables) (id : Uuid) : Bool := t.nodes.any (·.id = id)

def hasRelationship (t : Tables) (id : Uuid) : Bool := t.relationships.any (·.id = id)

/-- Insert a node with a new key. -/
def insertNode (t : Tables) (n : GraphNode) : Except DatabaseFault Tables :=
  if t.hasNode n.id then .error (.repeatedKey .nodes)
  else .ok { t with nodes := t.nodes ++ [n] }

/-- Insert a relationship with a new key between stored nodes. -/
def insertRelationship (t : Tables) (r : GraphRelationship) : Except DatabaseFault Tables :=
  if t.hasRelationship r.id then .error (.repeatedKey .relationships)
  else if t.hasNode r.source && t.hasNode r.target then
    .ok { t with relationships := t.relationships ++ [r] }
  else .error .missingEnd

/-- Delete relationships. -/
def deleteRelationships (t : Tables) (which : GraphRelationship → Bool) : Nat × Tables :=
  (t.relationships.countP which, { t with relationships := t.relationships.filter (!which ·) })

/-- Delete nodes, and with them the relationships that start or end at one of them. -/
def deleteNodes (t : Tables) (which : GraphNode → Bool) : Nat × Tables :=
  let gone := (t.nodes.filter which).map (·.id)
  (t.nodes.countP which,
    { t with
      nodes := t.nodes.filter (!which ·)
      relationships := t.relationships.filter fun r =>
        !(gone.contains r.source || gone.contains r.target) })

/-- Delete the figures of projects. -/
def deleteMetadata (t : Tables) (which : MetadataRow → Bool) : Tables :=
  { t with metadata := t.metadata.filter (!which ·) }

/-- Put the figures of a project in the place of those that are there. -/
def putMetadata (t : Tables) (m : MetadataRow) : Tables :=
  if t.metadata.any (·.projectId = m.projectId) then
    { t with metadata := t.metadata.map fun old => if old.projectId = m.projectId then m else old }
  else { t with metadata := t.metadata ++ [m] }

/-- The figures of a project. -/
def metadata? (t : Tables) (projectId : String) : Option MetadataRow :=
  t.metadata.find? (·.projectId = projectId)

/-- Number of nodes of a project, with a label if one is given. -/
def nodeCount (t : Tables) (projectId : String) (label : Option NodeType) : Nat :=
  t.nodes.countP fun n => n.projectId = projectId && label.all (n.label = ·)

/-- Number of relationships of a project, with a label if one is given. -/
def relationshipCount (t : Tables) (projectId : String) (label : Option RelationshipType) : Nat :=
  t.relationships.countP fun r => r.projectId = projectId && label.all (r.label = ·)

end Tables

/-- A store; before its schema is created it has no tables. -/
structure Store where
  tables : Option Tables
  deriving DecidableEq, Repr, Inhabited

namespace Store

/-- A new store. -/
def blank : Store := ⟨none⟩

/-- Create the tables that are missing. -/
def withSchema (s : Store) : Store := ⟨some (s.tables.getD .empty)⟩

/-- The tables, for a statement that needs one of them. -/
def require (s : Store) (table : Table) : Except DatabaseFault Tables :=
  match s.tables with
  | some t => .ok t
  | none => .error (.noTable table.word)

end Store

end CodeGraph
