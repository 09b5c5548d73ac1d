import CodeGraph.Project.FileTree
import CodeGraph.Store.Connection
import CodeGraph.Store.Session

/-!
# Stores in a file system

* `Disk` — a file tree and the stores that are kept in files of it.
* `Disk.opened` — what comes of opening the store of an endpoint.
* `Handle` — an open store: where it is, and how large its batches are.
-/

namespace CodeGraph

/-- A file tree and the stores that are kept in it, by their places. -/
structure Disk where
  tree : FileTree
  stores : List (List FileName × Store)
  deriving Inhabited

namespace Disk

/-- The place of the file of a store: its folder must be open, and what is there must be neither a folder
nor locked. -/
def placeOf (d : Disk) (path : String) : Except DatabaseFault (List FileName) :=
  match d.tree.resolve (Path.parent path), Path.fileName? path with
  | .ok folder, some name =>
    let place := folder ++ [FileName.ofText name]
    match d.tree.at? folder, d.tree.at? place with
    | some (.folder _), none | some (.folder _), some (.file _) | some (.folder _), some (.link _) =>
      .ok place
    | _, _ => .error (.unopenable path)
  | _, _ => .error (.unopenable path)

/-- The store at a place; where none is kept a new one is made. -/
def storeAt (d : Disk) (place : List FileName) : Store := (d.stores.lookup place).getD .blank

/-- Keep a store at a place. -/
def keep (d : Disk) (place : List FileName) (s : Store) : Disk :=
  { d with stores := (place, s) :: d.stores.filter (·.1 ≠ place) }

/-- Where the store of an endpoint is kept; one in memory is kept nowhere. -/
def opened (d : Disk) : Endpoint → Except DatabaseFault (Option (List FileName))
  | .memory => .ok none
  | .file path => (d.placeOf path).map some

end Disk

/-- An open store. -/
structure Handle where
  /-- The address it was opened by. -/
  address : String
  batchSize : Nat
  /-- Where it is kept. -/
  place : Option (List FileName)
  store : Store
  deriving Inhabited

namespace Handle

/-- The handle of some settings, when the store was opened. -/
def ofSettings (d : Disk) (s : StoreSettings) (place : Option (List FileName)) : Handle :=
  ⟨s.address, max 1 s.batchSize, place, (place.map d.storeAt).getD .blank⟩

/-- Open the store of some settings. -/
def connect (d : Disk) (s : StoreSettings) (cancelled : Nat → Bool) : Except StoreError Handle :=
  (CodeGraph.connect s (fun endpoint _ => d.opened endpoint) cancelled).1.map (ofSettings d s)

/-- The handle with its store changed, and the disk that keeps it. -/
def update (h : Handle) (d : Disk) (s : Store) : Handle × Disk :=
  ({ h with store := s }, match h.place with
    | some place => d.keep place s
    | none => d)

end Handle

end CodeGraph
