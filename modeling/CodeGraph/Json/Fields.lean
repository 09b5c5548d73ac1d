import CodeGraph.Json.Basic

/-!
# Taking JSON values apart

* `asText?`, `asBool?`, `asNat?`, `asInt64?`, `asFloat?`, `asList?` — the value of the expected type.
* `field?` — a member that must be there; `optional?` — one that may be absent or null;
  `fieldOr?` — one with a default.
-/

namespace CodeGraph.Json

def asText? : Json → Option String
  | text s => some s
  | _ => none

def asBool? : Json → Option Bool
  | bool b => some b
  | _ => none

/-- A whole number from zero up to a bound. -/
def asNat? (bound : Nat) : Json → Option Nat
  | int n => if 0 ≤ n && n.toNat < bound then some n.toNat else none
  | _ => none

/-- A number of thirty-two bits. -/
def asNat32? : Json → Option Nat := asNat? 0x100000000

/-- A number of sixty-four bits. -/
def asNat64? : Json → Option Nat := asNat? 0x10000000000000000

/-- A signed number of sixty-four bits. -/
def asInt64? : Json → Option Int
  | int n => if -0x8000000000000000 ≤ n && n < 0x8000000000000000 then some n else none
  | _ => none

/-- Any number. -/
def asFloat? : Json → Option Float
  | real x => some x
  | int n => some (Float.ofInt n)
  | _ => none

def asList? (item : Json → Option α) : Json → Option (List α)
  | list items => items.mapM item
  | _ => none

/-- A list of texts. -/
def asTexts? : Json → Option (List String) := asList? asText?

/-- The value itself where it is not null. -/
def asOptional? (value : Json → Option α) : Json → Option (Option α)
  | null => some none
  | j => (value j).map some

/-- A member that must be there. -/
def field? (key : String) (value : Json → Option α) (j : Json) : Option α :=
  (j.member? key).bind value

/-- A member that may be absent or null. -/
def optional? (key : String) (value : Json → Option α) (j : Json) : Option (Option α) :=
  match j.member? key with
  | none => some none
  | some v => asOptional? value v

/-- A member that may be absent. -/
def fieldOr? (key : String) (default : α) (value : Json → Option α) (j : Json) : Option α :=
  match j.member? key with
  | none => some default
  | some v => value v

/-- The value as it is, if it is an object. -/
def asObject? : Json → Option Json
  | object members => some (object members)
  | _ => none

/-- One of several words. -/
def asWord? (words : List (String × α)) (j : Json) : Option α := j.asText?.bind fun w => words.lookup w

end CodeGraph.Json
