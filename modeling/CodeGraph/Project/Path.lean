import CodeGraph.Names.Order

/-!
# Paths

* `Path.parts` — the components of a path; empty and `.` components do not count.
* `Path.fileName?`, `Path.extension?` — the last component and what follows its last dot.
* `Path.parent`, `Path.lessOrEqual` — the folder a path lies in, and the order of paths by their
  components.
-/

namespace CodeGraph.Path

/-- The pieces of a text between separators, with the piece in progress in reverse. -/
def splitFrom (separator : Char) : List Char → List Char → List String
  | piece, [] => [String.ofList piece.reverse]
  | piece, c :: cs =>
    if c = separator then String.ofList piece.reverse :: splitFrom separator [] cs
    else splitFrom separator (c :: piece) cs

/-- The components of a path. -/
def parts (path : String) : List String :=
  (splitFrom '/' [] path.toList).filter fun p => p != "" && p != "."

/-- Components joined to a path. -/
def join (ps : List String) : String := "/".intercalate ps

/-- The last component, unless it stands for the parent folder. -/
def fileName? (path : String) : Option String :=
  match (parts path).getLast? with
  | some ".." => none
  | name => name

/-- What follows the last dot of a file name; a name that only starts with a dot has none. -/
def extensionOfName? (name : String) : Option String :=
  let back := name.toList.reverse
  let after := back.takeWhile (· ≠ '.')
  match back.drop after.length with
  | _ :: _ :: _ => some (String.ofList after.reverse)
  | _ => none

/-- The extension of a path's last component. -/
def extension? (path : String) : Option String := (fileName? path).bind extensionOfName?

/-- Whether a text ends with another. -/
def endsWith (s ending : String) : Bool := ending.toList.reverse.isPrefixOf s.toList.reverse

/-- Everything before the last slash, or nothing. -/
def parent (path : String) : String :=
  String.ofList ((path.toList.reverse.dropWhile (· ≠ '/')).drop 1).reverse

/-- The path of what lies below a folder. -/
def below (folder path : String) : String :=
  if endsWith folder "/" then folder ++ path else folder ++ "/" ++ path

/-- The order of paths, component by component. -/
def lessOrEqual (a b : String) : Bool := textsLessOrEqual (parts a) (parts b)

end CodeGraph.Path
