import CodeGraph.Exchange.Graph
import CodeGraph.Store.Session

/-!
# Importing graphs

* `Graph.checkEnds` — every part of a graph belongs to its project, and every relationship joins two
  of its nodes.
* `Session.clearProject`, `Session.clearAll` — delete the data of one project or of all.
* `Session.importGraph` — replaces the data of a project by a graph, in batches of one label each; a
  failure at any point leaves the store as it was.
-/

namespace CodeGraph

open Hash (Uuid)

/-- The numbers of rows deleted. -/
structure ClearFigures where
  nodes : Nat
  relationships : Nat
  deriving DecidableEq, Repr, Inhabited

/-- The figures of an import. -/
structure ImportFigures where
  cleared : ClearFigures
  nodesWritten : Nat
  relationshipsWritten : Nat
  nodeBatches : Nat
  relationshipBatches : Nat
  deriving DecidableEq, Repr, Inhabited

/-- Numbers of rows and batches written. -/
structure WriteFigures where
  rows : Nat
  batches : Nat
  deriving DecidableEq, Repr, Inhabited

namespace Graph

/-- The nodes belong to the project. -/
def checkNodes (projectId : String) : List GraphNode → Except StoreError Unit
  | [] => .ok ()
  | n :: rest =>
    if n.projectId = projectId then checkNodes projectId rest
    else .error (.projectMismatch .node n.id projectId n.projectId)

/-- The relationships belong to the project and join nodes among those given. -/
def checkRelationships (projectId : String) (ids : List Uuid) :
    List GraphRelationship → Except StoreError Unit
  | [] => .ok ()
  | r :: rest =>
    if r.projectId ≠ projectId then
      .error (.projectMismatch .relationship r.id projectId r.projectId)
    else if !ids.contains r.source then .error (.danglingRelationship r.id r.source)
    else if !ids.contains r.target then .error (.danglingRelationship r.id r.target)
    else checkRelationships projectId ids rest

/-- Every part belongs to the project, and every relationship joins two nodes of the graph. -/
def checkEnds (g : Graph) : Except StoreError Unit := do
  checkNodes g.projectId g.nodes
  checkRelationships g.projectId (g.nodes.map (·.id)) g.relationships

/-- The row of figures for a graph. -/
def metadata (g : Graph) (now : Instant) : MetadataRow :=
  { projectId := g.projectId
    files := g.summary.files
    packages := g.summary.packages
    functions := g.summary.functions
    structs := g.summary.structs
    nodeCount := g.nodes.length
    relationshipCount := g.relationships.length
    summary := g.summary.toJson.compact
    analyzedAt := g.analyzedAt.columnText
    updatedAt := now.columnText }

end Graph

/-- Cut a list into batches of a size, each with the place of its first member. -/
def batches (size first : Nat) (as : List α) : List (Nat × List α) :=
  if as.isEmpty then []
  else (first, as.take (max 1 size)) ::
    batches size (first + (as.take (max 1 size)).length) (as.drop (max 1 size))
termination_by as.length
decreasing_by
  cases as with
  | nil => simp_all
  | cons a rest => simp only [List.length_drop, List.length_cons]; omega

/-- The nodes of a graph in batches, label by label. -/
def Graph.nodeBatches (g : Graph) (size : Nat) : List (NodeType × List (Nat × List GraphNode)) :=
  NodeType.all.map fun label => (label, batches size 0 (g.nodes.filter (·.label = label)))

/-- The relationships of a graph in batches, label by label. -/
def Graph.relationshipBatches (g : Graph) (size : Nat) :
    List (RelationshipType × List (Nat × List GraphRelationship)) :=
  RelationshipType.all.map fun label =>
    (label, batches size 0 (g.relationships.filter (·.label = label)))

namespace Session

/-- Delete the data of a project. -/
def clearRows (projectId : String) : Session DatabaseFault ClearFigures := do
  let relationships ← statement .relationships fun t =>
    .ok (t.deleteRelationships (·.projectId = projectId))
  let nodes ← statement .nodes fun t => .ok (t.deleteNodes (·.projectId = projectId))
  statement .metadata fun t => .ok ((), t.deleteMetadata (·.projectId = projectId))
  pure ⟨nodes, relationships⟩

/-- Delete the data of a project, all or nothing. -/
def clearProject (projectId : String) : Session StoreError ClearFigures :=
  transaction .database ((clearRows projectId).mapError .database)

/-- Delete the data of all projects, all or nothing. -/
def clearAll : Session StoreError ClearFigures :=
  transaction .database (mapError .database do
    let relationships ← statement .relationships fun t => .ok (t.deleteRelationships fun _ => true)
    let nodes ← statement .nodes fun t => .ok (t.deleteNodes fun _ => true)
    statement .metadata fun t => .ok ((), t.deleteMetadata fun _ => true)
    pure ⟨nodes, relationships⟩)

/-- Write a row into a table. -/
def writeRow (table : Table) (insert : Tables → α → Except DatabaseFault Tables) (a : α) :
    Session DatabaseFault Unit :=
  statement table fun t => (insert t a).map fun t => ((), t)

def writeNode : GraphNode → Session DatabaseFault Unit := writeRow .nodes Tables.insertNode

def writeRelationship : GraphRelationship → Session DatabaseFault Unit :=
  writeRow .relationships Tables.insertRelationship

/-- Write rows one after the other. -/
def writeRows (write : α → Session DatabaseFault Unit) : List α → Session DatabaseFault Unit
  | [] => pure ()
  | a :: rest => do
    write a
    writeRows write rest

/-- Write batches, each all or nothing; the session can be cancelled before each of them.  `done` is
what has been written before. -/
def writeBatches (kind : EntityKind) (label : String) (write : α → Session DatabaseFault Unit)
    (done : WriteFigures) : List (Nat × List α) → Session StoreError WriteFigures
  | [] => pure done
  | (first, rows) :: rest => do
    check .cancelled
    (transaction id (writeRows write rows)).mapError
      (.write kind label first (first + rows.length))
    writeBatches kind label write ⟨done.rows + rows.length, done.batches + 1⟩ rest

/-- Write the batches of several labels. -/
def writeGroups (kind : EntityKind) (word : κ → String) (write : α → Session DatabaseFault Unit)
    (done : WriteFigures) : List (κ × List (Nat × List α)) → Session StoreError WriteFigures
  | [] => pure done
  | (label, group) :: rest => do
    let done ← writeBatches kind (word label) write done group
    writeGroups kind word write done rest

/-- Delete the data of a graph's project, write the graph and put down its figures. -/
def importSteps (batchSize : Nat) (now : Instant) (g : Graph) :
    Session StoreError ImportFigures := do
  let cleared ← (clearRows g.projectId).mapError .database
  let nodes ← writeGroups .node NodeType.word writeNode ⟨0, 0⟩ (g.nodeBatches batchSize)
  let relationships ← writeGroups .relationship RelationshipType.word writeRelationship ⟨0, 0⟩
    (g.relationshipBatches batchSize)
  mapError .database
    (statement .metadata fun t => .ok ((), t.putMetadata (g.metadata now)))
  pure
    { cleared
      nodesWritten := nodes.rows
      relationshipsWritten := relationships.rows
      nodeBatches := nodes.batches
      relationshipBatches := relationships.batches }

/-- Replace the data of a graph's project by the graph, all or nothing. -/
def importGraph (batchSize : Nat) (now : Instant) (g : Graph) :
    Session StoreError ImportFigures := do
  ofExcept g.checkEnds
  check .cancelled
  transaction .database (importSteps batchSize now g)

end Session

end CodeGraph
