/-!
# JSON values

* `Json` — a value; the members of an object keep their order.
* `Json.member?`, `Json.ofOption`, `Json.ofList` — reading and building values.
-/

namespace CodeGraph

/-- A JSON value.  Whole numbers and other numbers are told apart. -/
inductive Json where
  | null
  | bool (b : Bool)
  | int (n : Int)
  | real (x : Float)
  | text (s : String)
  | list (items : List Json)
  | object (members : List (String × Json))
  deriving Inhabited

namespace Json

/-- The value of a member. -/
def member? (key : String) : Json → Option Json
  | object members => members.lookup key
  | _ => none

def nat (n : Nat) : Json := int n

def ofOption (f : α → Json) : Option α → Json
  | some a => f a
  | none => null

def ofList (f : α → Json) (as : List α) : Json := list (as.map f)

def texts (ss : List String) : Json := ofList text ss

def optionalText (s : Option String) : Json := ofOption text s

end Json

end CodeGraph
