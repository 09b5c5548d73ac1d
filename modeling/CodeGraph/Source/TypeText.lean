import CodeGraph.Syntax.Walk
import CodeGraph.Source.Declaration
import CodeGraph.Text.Blank

/-!
# Types as they are written

What declarations say about types, read off their syntax trees.

* `ImportNames` — the import path behind every name an import goes by.
* `TypeName`, `typeName?` — the named type that a type expression is about.
* `baseTypeName` — the name of a receiver's or an embedded field's type.
* `parameterTypes`, `resultTypes` — the types of a parameter list, one per parameter.
-/

namespace CodeGraph.Source

open Syntax

/-- The import path behind every name an import goes by, the latest first. -/
abbrev ImportNames := List (String × String)

/-- A type with the import path of its package, if another package declares it. -/
structure TypeName where
  qualifier : Option String
  name : String
  deriving DecidableEq, Repr, Inhabited

/-- The text of a node with its white space normalised. -/
def normalText (text : SourceText) (n : Node) : String := Text.normalize (text.textOf n)

/-- The texts of the children in a role. -/
def textsIn (text : SourceText) (f : Field) (n : Node) : List String :=
  (n.childrenIn f).map text.textOf

mutual
/-- The named type that a type expression is about: what a pointer points to, what parentheses
hold, what a generic type applies. -/
def typeName? (text : SourceText) (names : ImportNames) : Node → Option TypeName
  | .node l cs =>
    match l.kind with
    | .typeIdentifier => some ⟨none, text.textOf (.node l cs)⟩
    | .qualifiedType => do
      let package ← (Node.node l cs).child? .package
      let name ← (Node.node l cs).child? .name
      let path ← names.lookup (text.textOf package)
      pure ⟨some path, text.textOf name⟩
    | .pointerType => typeNameOfNamed? text names cs
    | .parenthesizedType => typeNameOfNamed? text names cs
    | .genericType => typeNameOfType? text names cs
    | _ => none

/-- The same for the first named child. -/
def typeNameOfNamed? (text : SourceText) (names : ImportNames) : List Node → Option TypeName
  | [] => none
  | c :: cs => if c.isNamed then typeName? text names c else typeNameOfNamed? text names cs

/-- The same for the first child in the role of the type. -/
def typeNameOfType? (text : SourceText) (names : ImportNames) : List Node → Option TypeName
  | [] => none
  | c :: cs => if c.field = some .type then typeName? text names c else typeNameOfType? text names cs
end

mutual
/-- The bare name of a type: no pointer, parentheses, type arguments or package. -/
def baseTypeName (text : SourceText) : Node → String
  | .node l cs =>
    match l.kind with
    | .pointerType => baseNameOfNamed text l cs cs
    | .parenthesizedType => baseNameOfNamed text l cs cs
    | .genericType => baseNameOfType text l cs cs
    | .qualifiedType =>
      text.textOf (((Node.node l cs).child? .name).getD (.node l cs))
    | _ => text.textOf (.node l cs)

/-- The same for the first named child, or the node's own text if there is none. -/
def baseNameOfNamed (text : SourceText) (l : Label) (all : List Node) : List Node → String
  | [] => text.textOf (.node l all)
  | c :: cs => if c.isNamed then baseTypeName text c else baseNameOfNamed text l all cs

/-- The same for the first child in the role of the type. -/
def baseNameOfType (text : SourceText) (l : Label) (all : List Node) : List Node → String
  | [] => text.textOf (.node l all)
  | c :: cs =>
    if c.field = some .type then baseTypeName text c else baseNameOfType text l all cs
end

/-- The types of a parameter list, each as often as it has names, and once if it has none. -/
def parameterTypes (text : SourceText) (list : Node) : List String :=
  list.namedChildren.flatMap fun param =>
    match param.child? .type with
    | none => []
    | some type =>
      let written := normalText text type
      let shown := if param.kind = .variadicParameterDeclaration then "..." ++ written else written
      List.replicate (max 1 (param.childrenIn .name).length) shown

/-- The types a function gives back. -/
def resultTypes (text : SourceText) (result : Node) : List String :=
  if result.kind = .parameterList then parameterTypes text result else [normalText text result]

/-- The types of the parameters and results of a function or method. -/
def parameterAndResultTypes (text : SourceText) (n : Node) : List String × List String :=
  (((n.child? .parameters).map (parameterTypes text)).getD [],
   ((n.child? .result).map (resultTypes text)).getD [])

end CodeGraph.Source
