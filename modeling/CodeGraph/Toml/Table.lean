import CodeGraph.Json.Basic

/-!
# Tables of a TOML document

* `Item` — a value, a table, or a list of tables.  A table knows how it came to be, which decides
  whether it may be written to again.
* `Members.assign?` — gives a value to a dotted key.
* `Members.openTable?`, `Members.openElement?` — what a header with single or double brackets does.
* `Members.edit?` — changes the table that a header has opened.
-/

namespace CodeGraph.Toml

/-- How a table came to be. -/
inductive Origin where
  /-- By a header of its own. -/
  | header
  /-- By the header of a table within it. -/
  | implied
  /-- By a dotted key. -/
  | dotted
  deriving DecidableEq, Repr

/-- What stands under a key. -/
inductive Item where
  | value (j : Json)
  | table (origin : Origin) (members : List (String × Item))
  | tables (elements : List (List (String × Item)))

/-- The members of a table, in their order. -/
abbrev Members := List (String × Item)

namespace Members

/-- Put an item under a key, in the place of the one that stands there. -/
def put (ms : Members) (key : String) (item : Item) : Members :=
  match ms with
  | [] => [(key, item)]
  | (k, i) :: rest => if k = key then (key, item) :: rest else (k, i) :: put rest key item

/-- Give a value to a dotted key, whose last part comes apart.  Tables on the way must have come from
dotted keys, and the key must be new. -/
def assign? (ms : Members) : (path : List String) → (key : String) → Json → Option Members
  | [], key, j => if (ms.lookup key).isSome then none else some (ms.put key (.value j))
  | p :: path, key, j =>
    match ms.lookup p with
    | none => do pure (ms.put p (.table .dotted (← assign? [] path key j)))
    | some (.table origin inner) =>
      if origin = .dotted || (origin = .implied && !path.isEmpty) then do
        pure (ms.put p (.table origin (← assign? inner path key j)))
      else none
    | some (.tables elements) =>
      if path.isEmpty then none
      else match elements.reverse with
        | last :: before => do
          pure (ms.put p (.tables (before.reverse ++ [← assign? last path key j])))
        | [] => none
    | some (.value _) => none

/-- Change the members that a path leads to; of a list of tables it leads to the last one, and
missing tables are implied. -/
def edit? (change : Members → Option Members) (ms : Members) : List String → Option Members
  | [] => change ms
  | p :: path =>
    match ms.lookup p with
    | none => do pure (ms.put p (.table .implied (← edit? change [] path)))
    | some (.table origin inner) => do pure (ms.put p (.table origin (← edit? change inner path)))
    | some (.tables elements) =>
      match elements.reverse with
      | last :: before => do
        pure (ms.put p (.tables (before.reverse ++ [← edit? change last path])))
      | [] => none
    | some (.value _) => none

/-- A header opens a table that is new, or that other headers have implied. -/
def openTable? (ms : Members) (path : List String) (key : String) : Option Members :=
  ms.edit? (fun inner =>
    match inner.lookup key with
    | none => some (inner.put key (.table .header []))
    | some (.table .implied members) => some (inner.put key (.table .header members))
    | some _ => none) path

/-- A header with double brackets opens another table of a list. -/
def openElement? (ms : Members) (path : List String) (key : String) : Option Members :=
  ms.edit? (fun inner =>
    match inner.lookup key with
    | none => some (inner.put key (.tables [[]]))
    | some (.tables elements) => some (inner.put key (.tables (elements ++ [[]])))
    | some _ => none) path

end Members

mutual
/-- The value that an item stands for. -/
def Item.toJson : Item → Json
  | .value j => j
  | .table _ members => .object (membersJson members)
  | .tables elements => .list (elementsJson elements)

def membersJson : List (String × Item) → List (String × Json)
  | [] => []
  | (k, i) :: rest => (k, i.toJson) :: membersJson rest

def elementsJson : List (List (String × Item)) → List Json
  | [] => []
  | ms :: rest => .object (membersJson ms) :: elementsJson rest
end

end CodeGraph.Toml
