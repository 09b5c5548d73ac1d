import CodeGraph.Source.Body

/-!
# The declarations of a syntax tree

* `functionDecl?`, `typeDecl?`, `valueDecls`, `importDecl?` — one declaration each.
* `outline` — everything a file declares, read off its syntax tree.  Package clauses and imports are
  read first, since calls are told apart by the names of imports.
-/

namespace CodeGraph.Source

open Syntax

/-! ### Imports -/

/-- One import. -/
def importDecl? (text : SourceText) (spec : Node) : Option ImportDecl :=
  (spec.child? .path).map fun path =>
    ⟨Text.trimBy (fun c => c = '"' || c = '\x60') (text.textOf path),
     (spec.child? .name).map text.textOf, spec.startLine⟩

/-- The specifications of an import declaration, in a group or alone. -/
def importSpecs (n : Node) : List Node :=
  n.children.flatMap fun c =>
    if c.kind = .importSpecList then c.children.filter (·.kind = .importSpec)
    else if c.kind = .importSpec then [c]
    else []

/-- The names that imports go by; `_` and `.` are no names. -/
def importNames (imports : List ImportDecl) : ImportNames :=
  (imports.filterMap fun i =>
    if i.localName = "_" || i.localName = "." then none else some (i.localName, i.path)).reverse

/-! ### Functions -/

/-- What the heading of a method says of its receiver. -/
structure Receiver where
  typeName : String
  pointer : Bool
  names : List String

/-- The receiver in a receiver list: of several, the last. -/
def receiver? (text : SourceText) (list : Node) : Option Receiver :=
  (list.namedChildren.filterMap fun param =>
    if param.kind = .parameterDeclaration then
      (param.child? .type).map fun type =>
        ⟨baseTypeName text type, type.kind = .pointerType, textsIn text .name param⟩
    else none).getLast?

/-- The variables of a receiver list. -/
def receiverBindings (text : SourceText) (list : Node) : List (String × Option TypeName) :=
  list.namedChildren.flatMap fun param =>
    match if param.kind = .parameterDeclaration then param.child? .type else none with
    | some type =>
      (textsIn text .name param).map fun name => (name, some ⟨none, baseTypeName text type⟩)
    | none => []

/-- A function or method. -/
def functionDecl? (text : SourceText) (names : ImportNames) (n : Node) : Option FunctionDecl :=
  (n.child? .name).map fun nameNode =>
    let name := text.textOf nameNode
    let receiverList := n.child? .receiver
    let receiver := receiverList.bind (receiver? text)
    let scope := Scope.empty.bindAll ((receiverList.map (receiverBindings text)).getD [])
    let scope := match n.child? .parameters with
      | some list => scope.bindParameters text names list
      | none => scope
    let body := n.child? .body
    let facts := bodyFacts text names scope body
    let headingStop := (body.map (·.start.offset)).getD n.stop.offset
    let (params, results) := parameterAndResultTypes text n
    { name
      signature := Text.normalize (text.slice n.start.offset headingStop)
      receiver := (receiver.map Receiver.typeName).getD ""
      pointerReceiver := (receiver.map Receiver.pointer).getD false
      params, results
      visibility := .ofName name
      span := ⟨n.startLine, n.stopLine⟩
      complexity := facts.branches + 1
      calls := facts.calls.reverse }

/-! ### Types -/

/-- The fields of one line of a struct: one for every name, or an embedded one. -/
def fieldDecls (text : SourceText) (n : Node) : List FieldDecl :=
  match n.child? .type with
  | none => []
  | some type =>
    let typeName := normalText text type
    match textsIn text .name n with
    | [] =>
      let stars := String.ofList (typeName.toList.dropWhile (· = '*'))
      let typeName := if (text.textOf n).toList.head? = some '*' then "*" ++ stars else typeName
      let name := baseTypeName text type
      [⟨name, typeName, .ofName name, true, n.startLine⟩]
    | names => names.map fun name => ⟨name, typeName, .ofName name, false, n.startLine⟩

/-- The fields of a struct. -/
def structFields (text : SourceText) (n : Node) : List FieldDecl :=
  (n.children.filter (·.kind = .fieldDeclarationList)).flatMap fun list =>
    (list.namedChildren.filter (·.kind = .fieldDeclaration)).flatMap (fieldDecls text)

/-- A method of an interface. -/
def methodSignature? (text : SourceText) (n : Node) : Option MethodSignature :=
  if n.kind = .methodElem then
    (n.child? .name).map fun name =>
      let (params, results) := parameterAndResultTypes text n
      ⟨text.textOf name, params, results⟩
  else none

/-- What an interface embeds. -/
def embed? (text : SourceText) (n : Node) : Option String :=
  match n.kind with
  | .typeElem => some (normalText text n)
  | .typeIdentifier | .qualifiedType => some (text.textOf n)
  | _ => none

/-- A struct or interface; other types are not recorded. -/
def typeDecl? (text : SourceText) (spec : Node) : Option TypeDecl := do
  let name := text.textOf (← spec.child? .name)
  let type ← spec.child? .type
  let span : Span := ⟨spec.startLine, spec.stopLine⟩
  match type.kind with
  | .structType => some ⟨name, .struct, .ofName name, span, structFields text type, [], []⟩
  | .interfaceType =>
    some ⟨name, .interface, .ofName name, span, [],
      type.namedChildren.filterMap (methodSignature? text),
      type.namedChildren.filterMap (embed? text)⟩
  | _ => none

/-! ### Constants and variables -/

/-- The values of one specification; `_` is none. -/
def specValues (text : SourceText) (form : ValueForm) (spec : Node) : List ValueDecl :=
  let typeName := (spec.child? .type).map (normalText text)
  ((textsIn text .name spec).filter (· ≠ "_")).map fun name =>
    ⟨name, form, typeName, .ofName name, spec.startLine⟩

/-- The kind of the specifications of a form. -/
def specKind : ValueForm → Kind
  | .constant => .constSpec
  | .variable => .varSpec

mutual
/-- The values of a declaration, those in nested groups of variables included. -/
def valueDecls (text : SourceText) (form : ValueForm) : Node → List ValueDecl
  | .node _ cs => valuesOfChildren text form cs

/-- The same over the children of a declaration or group. -/
def valuesOfChildren (text : SourceText) (form : ValueForm) : List Node → List ValueDecl
  | [] => []
  | c :: cs =>
    (if c.kind = specKind form then specValues text form c
     else if c.kind = .varSpecList then valueDecls text form c
     else []) ++ valuesOfChildren text form cs
end

/-! ### Files -/

/-- The name in a package clause. -/
def packageName? (text : SourceText) (n : Node) : Option String :=
  (n.childOfKind? .packageIdentifier).map text.textOf

/-- Everything a file declares, but for its path and the hash of its content. -/
def outline (text : SourceText) (root : Node) : SourceFile :=
  let top := root.children
  let ofKind (k : Kind) := top.filter (·.kind = k)
  let imports := (ofKind .importDeclaration).flatMap fun n =>
    (importSpecs n).filterMap (importDecl? text)
  { path := ""
    package := ((ofKind .packageClause).filterMap (packageName? text)).getLast?.getD ""
    imports
    functions := (top.filter fun n =>
      n.kind = .functionDeclaration || n.kind = .methodDeclaration).filterMap
        (functionDecl? text (importNames imports))
    types := (ofKind .typeDeclaration).flatMap fun n =>
      (n.children.filter (·.kind = .typeSpec)).filterMap (typeDecl? text)
    values := top.flatMap fun n =>
      if n.kind = .constDeclaration then valueDecls text .constant n
      else if n.kind = .varDeclaration then valueDecls text .variable n
      else []
    contentHash := ""
    lineCount := 0 }

end CodeGraph.Source
