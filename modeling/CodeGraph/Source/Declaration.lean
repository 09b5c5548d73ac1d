import CodeGraph.Text.Property.Uppercase

/-!
# Declarations

What one source file declares, free of its syntax.

* `FunctionDecl`, `TypeDecl`, `ValueDecl`, `ImportDecl` — functions and methods, structs and
  interfaces, constants and variables, imports.
* `CallSite` — a call found in a body, with what can be said of its target from the file alone.
* `SourceFile` — everything one file declares.
-/

namespace CodeGraph

/-- Whether other packages see a name. -/
inductive Visibility where
  | exported
  | unexported
  deriving DecidableEq, Repr, Inhabited

/-- A name is exported if it starts with an upper-case character. -/
def Visibility.ofName (name : String) : Visibility :=
  match name.toList with
  | c :: _ => if Text.isUppercase c then .exported else .unexported
  | [] => .unexported

def Visibility.word : Visibility → String
  | .exported => "exported"
  | .unexported => "unexported"

/-- First and last line of a declaration, counted from one. -/
structure Span where
  first : Nat
  last : Nat
  deriving DecidableEq, Repr, Inhabited

/-- Number of lines; a span that ends before it starts counts as one line. -/
def Span.lineCount (s : Span) : Nat := s.last - s.first + 1

/-- How a call reaches its target. -/
inductive CallKind where
  /-- A function by its name. -/
  | direct
  /-- A method of a concrete or unknown receiver. -/
  | method
  /-- A method of an interface value. -/
  | interfaceDispatch
  /-- A function value. -/
  | dynamic
  deriving DecidableEq, Repr, Inhabited

def CallKind.word : CallKind → String
  | .direct => "direct"
  | .method => "method"
  | .interfaceDispatch => "interface_dispatch"
  | .dynamic => "dynamic"

/-- The position of a kind in the order of kinds. -/
def CallKind.rank : CallKind → Nat
  | .direct => 0
  | .method => 1
  | .interfaceDispatch => 2
  | .dynamic => 3

/-- A call in the body of a function. -/
structure CallSite where
  /-- Name of the function or method called. -/
  callee : String
  /-- Import path of the package that the function, or the receiver's type, belongs to. -/
  qualifier : Option String
  /-- Name of the receiver's type where the file shows it. -/
  receiverType : Option String
  kind : CallKind
  line : Nat
  deriving DecidableEq, Repr, Inhabited

/-- A function or method. -/
structure FunctionDecl where
  name : String
  /-- The heading, with its white space normalised. -/
  signature : String
  /-- Name of the receiver's type, empty for a function. -/
  receiver : String
  pointerReceiver : Bool
  params : List String
  results : List String
  visibility : Visibility
  span : Span
  complexity : Nat
  calls : List CallSite
  deriving DecidableEq, Repr, Inhabited

def FunctionDecl.isMethod (f : FunctionDecl) : Bool := f.receiver != ""

/-- A method that an interface asks for. -/
structure MethodSignature where
  name : String
  params : List String
  results : List String
  deriving DecidableEq, Repr, Inhabited

/-- The signature as it is written in an interface. -/
def MethodSignature.text (m : MethodSignature) : String :=
  m.name ++ "(" ++ ", ".intercalate m.params ++ ")" ++
    match m.results with
    | [] => ""
    | [r] => " " ++ r
    | rs => " (" ++ ", ".intercalate rs ++ ")"

/-- A field of a struct. -/
structure FieldDecl where
  name : String
  typeName : String
  visibility : Visibility
  embedded : Bool
  line : Nat
  deriving DecidableEq, Repr, Inhabited

/-- The types that are recorded. -/
inductive TypeForm where
  | struct
  | interface
  deriving DecidableEq, Repr, Inhabited

/-- A struct or interface. -/
structure TypeDecl where
  name : String
  form : TypeForm
  visibility : Visibility
  span : Span
  fields : List FieldDecl
  methods : List MethodSignature
  /-- What an interface embeds, as it is written. -/
  embeds : List String
  deriving DecidableEq, Repr, Inhabited

/-- Whether a value can change. -/
inductive ValueForm where
  | constant
  | variable
  deriving DecidableEq, Repr, Inhabited

/-- A constant or variable of a package. -/
structure ValueDecl where
  name : String
  form : ValueForm
  typeName : Option String
  visibility : Visibility
  line : Nat
  deriving DecidableEq, Repr, Inhabited

/-- An import. -/
structure ImportDecl where
  path : String
  /-- The name it is given, `_` and `.` included. -/
  givenName : Option String
  line : Nat
  deriving DecidableEq, Repr, Inhabited

/-- The last of the parts between separators. -/
def lastPart (separator : Char) (s : String) : String :=
  String.ofList (s.toList.reverse.takeWhile (· ≠ separator)).reverse

/-- The name that an import goes by in its file: the name it is given or the last part of its
path. -/
def ImportDecl.localName (i : ImportDecl) : String := i.givenName.getD (lastPart '/' i.path)

/-- Everything one file declares. -/
structure SourceFile where
  /-- The path below the root of the project, with `/` between its parts. -/
  path : String
  /-- The name in the package clause, empty if there is none. -/
  package : String
  imports : List ImportDecl
  functions : List FunctionDecl
  types : List TypeDecl
  values : List ValueDecl
  contentHash : String
  lineCount : Nat
  deriving DecidableEq, Repr, Inhabited

end CodeGraph
