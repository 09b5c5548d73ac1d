import CodeGraph.Json.Fields
import CodeGraph.Source.Declaration

/-!
# Declarations as JSON

* For every type of `CodeGraph.Source.Declaration`: its JSON form and the value of such a form.
-/

namespace CodeGraph

open Json

def Visibility.toJson (v : Visibility) : Json := .text v.word

def Visibility.ofJson? : Json → Option Visibility :=
  asWord? [("exported", .exported), ("unexported", .unexported)]

def Span.toJson (s : Span) : Json := object [("start_line", nat s.first), ("end_line", nat s.last)]

def Span.ofJson? (j : Json) : Option Span := do
  pure ⟨← j.field? "start_line" asNat32?, ← j.field? "end_line" asNat32?⟩

def CallKind.toJson (k : CallKind) : Json := .text k.word

def CallKind.ofJson? : Json → Option CallKind :=
  asWord? ([CallKind.direct, .method, .interfaceDispatch, .dynamic].map fun k => (k.word, k))

def CallSite.toJson (c : CallSite) : Json :=
  object [("callee", .text c.callee), ("qualifier", optionalText c.qualifier),
    ("receiver_type", optionalText c.receiverType), ("call_type", c.kind.toJson),
    ("line", nat c.line)]

def CallSite.ofJson? (j : Json) : Option CallSite := do
  pure ⟨← j.field? "callee" asText?, ← j.optional? "qualifier" asText?,
    ← j.optional? "receiver_type" asText?, ← j.field? "call_type" CallKind.ofJson?,
    ← j.field? "line" asNat32?⟩

def FunctionDecl.toJson (f : FunctionDecl) : Json :=
  object [("name", .text f.name), ("signature", .text f.signature), ("receiver", .text f.receiver),
    ("pointer_receiver", bool f.pointerReceiver), ("params", texts f.params),
    ("results", texts f.results), ("visibility", f.visibility.toJson), ("span", f.span.toJson),
    ("complexity", nat f.complexity), ("calls", ofList CallSite.toJson f.calls)]

def FunctionDecl.ofJson? (j : Json) : Option FunctionDecl := do
  pure
    { name := ← j.field? "name" asText?
      signature := ← j.field? "signature" asText?
      receiver := ← j.field? "receiver" asText?
      pointerReceiver := ← j.field? "pointer_receiver" asBool?
      params := ← j.field? "params" asTexts?
      results := ← j.field? "results" asTexts?
      visibility := ← j.field? "visibility" Visibility.ofJson?
      span := ← j.field? "span" Span.ofJson?
      complexity := ← j.field? "complexity" asNat32?
      calls := ← j.field? "calls" (asList? CallSite.ofJson?) }

def MethodSignature.toJson (m : MethodSignature) : Json :=
  object [("name", .text m.name), ("params", texts m.params), ("results", texts m.results)]

def MethodSignature.ofJson? (j : Json) : Option MethodSignature := do
  pure ⟨← j.field? "name" asText?, ← j.field? "params" asTexts?, ← j.field? "results" asTexts?⟩

def FieldDecl.toJson (f : FieldDecl) : Json :=
  object [("name", .text f.name), ("type_name", .text f.typeName),
    ("visibility", f.visibility.toJson), ("embedded", bool f.embedded), ("line", nat f.line)]

def FieldDecl.ofJson? (j : Json) : Option FieldDecl := do
  pure ⟨← j.field? "name" asText?, ← j.field? "type_name" asText?,
    ← j.field? "visibility" Visibility.ofJson?, ← j.field? "embedded" asBool?,
    ← j.field? "line" asNat32?⟩

def TypeForm.word : TypeForm → String
  | .struct => "struct"
  | .interface => "interface"

def TypeForm.ofJson? : Json → Option TypeForm :=
  asWord? [("struct", .struct), ("interface", .interface)]

def TypeDecl.toJson (t : TypeDecl) : Json :=
  object [("name", .text t.name), ("kind", .text t.form.word), ("visibility", t.visibility.toJson),
    ("span", t.span.toJson), ("fields", ofList FieldDecl.toJson t.fields),
    ("methods", ofList MethodSignature.toJson t.methods), ("embeds", texts t.embeds)]

def TypeDecl.ofJson? (j : Json) : Option TypeDecl := do
  pure ⟨← j.field? "name" asText?, ← j.field? "kind" TypeForm.ofJson?,
    ← j.field? "visibility" Visibility.ofJson?, ← j.field? "span" Span.ofJson?,
    ← j.field? "fields" (asList? FieldDecl.ofJson?),
    ← j.field? "methods" (asList? MethodSignature.ofJson?), ← j.field? "embeds" asTexts?⟩

def ValueForm.word : ValueForm → String
  | .constant => "constant"
  | .variable => "variable"

def ValueForm.ofJson? : Json → Option ValueForm :=
  asWord? [("constant", .constant), ("variable", .variable)]

def ValueDecl.toJson (v : ValueDecl) : Json :=
  object [("name", .text v.name), ("kind", .text v.form.word),
    ("type_name", optionalText v.typeName), ("visibility", v.visibility.toJson),
    ("line", nat v.line)]

def ValueDecl.ofJson? (j : Json) : Option ValueDecl := do
  pure ⟨← j.field? "name" asText?, ← j.field? "kind" ValueForm.ofJson?,
    ← j.optional? "type_name" asText?, ← j.field? "visibility" Visibility.ofJson?,
    ← j.field? "line" asNat32?⟩

def ImportDecl.toJson (i : ImportDecl) : Json :=
  object [("path", .text i.path), ("alias", optionalText i.givenName), ("line", nat i.line)]

def ImportDecl.ofJson? (j : Json) : Option ImportDecl := do
  pure ⟨← j.field? "path" asText?, ← j.optional? "alias" asText?, ← j.field? "line" asNat32?⟩

def SourceFile.toJson (f : SourceFile) : Json :=
  object [("path", .text f.path), ("package", .text f.package),
    ("imports", ofList ImportDecl.toJson f.imports),
    ("functions", ofList FunctionDecl.toJson f.functions),
    ("types", ofList TypeDecl.toJson f.types), ("values", ofList ValueDecl.toJson f.values),
    ("content_hash", .text f.contentHash), ("line_count", nat f.lineCount)]

def SourceFile.ofJson? (j : Json) : Option SourceFile := do
  pure
    { path := ← j.field? "path" asText?
      package := ← j.field? "package" asText?
      imports := ← j.field? "imports" (asList? ImportDecl.ofJson?)
      functions := ← j.field? "functions" (asList? FunctionDecl.ofJson?)
      types := ← j.field? "types" (asList? TypeDecl.ofJson?)
      values := ← j.field? "values" (asList? ValueDecl.ofJson?)
      contentHash := ← j.field? "content_hash" asText?
      lineCount := ← j.field? "line_count" asNat32? }

end CodeGraph
