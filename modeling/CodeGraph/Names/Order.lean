/-!
# Lists in order

* `textsLessOrEqual` — the order of lists of texts, member by member.
* `sortedBy` — a list in the order of a key; equal keys keep their order.
* `firstOfEach` — of neighbours with the same key only the first.
* `sortedDistinct` — the members of a list, each once, in their order.
* `sumOf` — the sum of a figure over a list.
-/

namespace CodeGraph

/-- The order of lists of texts, member by member. -/
def textsLessOrEqual : List String → List String → Bool
  | [], _ => true
  | _ :: _, [] => false
  | a :: as, b :: bs => if a = b then textsLessOrEqual as bs else a < b

/-- The sum of a figure over a list. -/
def sumOf (figure : α → Nat) : List α → Nat
  | [] => 0
  | a :: as => figure a + sumOf figure as

/-- A list in the order of a key; members with the same key keep their order. -/
def sortedBy [Ord κ] (key : α → κ) (as : List α) : List α :=
  as.mergeSort fun a b => (compare (key a) (key b)).isLE

/-- The members of a list that do not repeat the key of the member before them. -/
def skipRepeats [BEq κ] (key : α → κ) (last : κ) : List α → List α
  | [] => []
  | a :: as =>
    if key a == last then skipRepeats key last as else a :: skipRepeats key (key a) as

/-- Of neighbours with the same key only the first. -/
def firstOfEach [BEq κ] (key : α → κ) : List α → List α
  | [] => []
  | a :: as => a :: skipRepeats key (key a) as

/-- The members of a list, each once, in their order. -/
def sortedDistinct [Ord α] [BEq α] (as : List α) : List α := firstOfEach id (sortedBy id as)

end CodeGraph
