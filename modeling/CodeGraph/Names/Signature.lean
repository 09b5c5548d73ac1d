import CodeGraph.Source.Declaration
import CodeGraph.Text.Property.Alphabetic
import CodeGraph.Text.Property.Numeric

/-!
# Signatures without packages

* `stripQualifiers` — a type text without the names of packages in front of names.
* `signaturesMatch` — whether two methods agree in name, parameters and results, packages left
  aside.
-/

namespace CodeGraph

/-- Whether a character can start a name. -/
def startsName (c : Char) : Bool := Text.isAlphabetic c || c = '_'

/-- Whether a character can go on a name. -/
def continuesName (c : Char) : Bool := Text.isAlphabetic c || Text.isNumeric c || c = '_'

/-- Strip the rest of a text, of which a name in progress has been read in reverse. -/
def stripFrom : (name : List Char) → List Char → List Char
  | name, [] => name.reverse
  | [], c :: cs => if startsName c then stripFrom [c] cs else c :: stripFrom [] cs
  | n :: name, c :: cs =>
    if continuesName c then stripFrom (c :: n :: name) cs
    else if c = '.' && (cs.head?.map startsName).getD false then stripFrom [] cs
    else (n :: name).reverse ++ c :: stripFrom [] cs

/-- A type text without every name that a dot and another name follow, and without those dots. -/
def stripQualifiers (s : String) : String := String.ofList (stripFrom [] s.toList)

/-- Whether two lists of type texts agree, packages left aside. -/
def typesMatch (as bs : List String) : Bool := as.map stripQualifiers = bs.map stripQualifiers

/-- Whether two methods agree, packages left aside. -/
def signaturesMatch (required provided : MethodSignature) : Bool :=
  required.name = provided.name && typesMatch required.params provided.params &&
    typesMatch required.results provided.results

end CodeGraph
