import CodeGraph.Hash.Uuid

/-!
# Faults of the store

* `DatabaseFault` — what the tables refuse to do.
* `StoreError` — why an operation on the store has no result; `StoreError.message` and
  `StoreError.fault?` are what it says and what it is due to.
-/

namespace CodeGraph

open Hash (Uuid)

/-- The tables of a store. -/
inductive Table where
  | nodes
  | relationships
  | metadata
  deriving DecidableEq, Repr

/-- The tables in the order in which they are created. -/
def Table.all : List Table := [.nodes, .relationships, .metadata]

def Table.word : Table → String
  | .nodes => "graph_nodes"
  | .relationships => "graph_relationships"
  | .metadata => "project_metadata"

/-- What a database refuses to do. -/
inductive DatabaseFault where
  /-- There is no table of this name. -/
  | noTable (name : String)
  /-- A row with the same key is already there. -/
  | repeatedKey (table : Table)
  /-- A relationship has an end that is no stored node. -/
  | missingEnd
  | unopenable (path : String)
  /-- A statement that is none. -/
  | badStatement (text : String)
  /-- An empty statement. -/
  | noStatement
  /-- A column holds a text that cannot be read. -/
  | unreadable (column : Nat) (reason : String)
  /-- A statement is turned down for reasons of the database's own. -/
  | refused (reason : String)
  deriving DecidableEq, Repr

namespace DatabaseFault

def message : DatabaseFault → String
  | noTable name => "no such table: " ++ name
  | repeatedKey table => "UNIQUE constraint failed: " ++ table.word ++ ".id"
  | missingEnd => "FOREIGN KEY constraint failed"
  | unopenable path => "unable to open database file: " ++ path
  | badStatement text =>
    let word := String.ofList (text.toList.takeWhile (!·.isWhitespace))
    "near \"" ++ word ++ "\": syntax error in " ++ text ++ " at offset 0"
  | noStatement => "not an error"
  | unreadable column reason =>
    "Conversion error from type Text at index: " ++ toString column ++ ", " ++ reason
  | refused reason => reason

/-- What a fault is due to. -/
def cause : DatabaseFault → String
  | noTable _ | badStatement _ => "Error code 1: SQL error or missing database"
  | repeatedKey _ => "Error code 1555: A PRIMARY KEY constraint failed"
  | missingEnd => "Error code 787: A foreign key constraint failed"
  | unopenable _ => "Error code 14: Unable to open the database file"
  | noStatement => "Error code 21: Library used incorrectly"
  | unreadable _ reason | refused reason => reason

end DatabaseFault

/-- What a project's data consists of. -/
inductive EntityKind where
  | node
  | relationship
  deriving DecidableEq, Repr

def EntityKind.word : EntityKind → String
  | .node => "node"
  | .relationship => "relationship"

/-- Why an operation on the store has no result. -/
inductive StoreError where
  | notConfigured
  | connection (address : String) (attempts : Nat) (fault : DatabaseFault)
  /-- The tables could not be created. -/
  | schema (fault : DatabaseFault)
  /-- A batch could not be written; `label` is that of its rows, which are counted from `first` up to
  `stop` within the rows of their label. -/
  | write (kind : EntityKind) (label : String) (first stop : Nat) (fault : DatabaseFault)
  | danglingRelationship (relationship missing : Uuid)
  | projectMismatch (kind : EntityKind) (id : Uuid) (expected found : String)
  | query (fault : DatabaseFault)
  | database (fault : DatabaseFault)
  | cancelled
  deriving DecidableEq, Repr

namespace StoreError

def message : StoreError → String
  | notConfigured => "store endpoint not configured"
  | connection address attempts fault =>
    "could not connect to " ++ address ++ " after " ++ toString attempts ++ " attempt(s): " ++
      fault.message
  | schema fault => "failed to initialize schema: " ++ fault.message
  | write kind label first stop fault =>
    "failed to write " ++ label ++ " " ++ kind.word ++ "s batch [" ++ toString first ++ ".." ++
      toString stop ++ "): " ++ fault.message
  | danglingRelationship relationship missing =>
    "relationship " ++ relationship.toText ++ " references missing node " ++ missing.toText
  | projectMismatch kind id expected found =>
    kind.word ++ " " ++ id.toText ++ " belongs to project '" ++ found ++ "', expected '" ++
      expected ++ "'"
  | query fault => fault.message
  | database fault => "database error: " ++ fault.message
  | cancelled => "store operation cancelled"

/-- The fault of the database behind an error. -/
def fault? : StoreError → Option DatabaseFault
  | connection _ _ fault | schema fault | write _ _ _ _ fault | query fault | database fault =>
    some fault
  | _ => none

end StoreError

end CodeGraph
