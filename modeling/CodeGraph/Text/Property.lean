/-!
# Properties of characters

* `CharProperty` — a set of code points, given by the points at which membership changes: below the
  first boundary a point is outside, from the first up to the second it is inside, and so on.
* `CharProperty.holds` — membership of a character.
-/

namespace CodeGraph.Text

/-- A set of code points as the rising list of the points at which membership changes. -/
structure CharProperty where
  boundaries : List Nat

namespace CharProperty

/-- Whether `inside` flips an odd number of times up to the point. -/
def flips (point : Nat) : Bool → List Nat → Bool
  | inside, [] => inside
  | inside, b :: bs => if point < b then inside else flips point (!inside) bs

/-- Membership of a character. -/
def holds (p : CharProperty) (c : Char) : Bool := flips c.toNat false p.boundaries

end CharProperty

end CodeGraph.Text
