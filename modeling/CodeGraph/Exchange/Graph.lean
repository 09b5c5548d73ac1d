import CodeGraph.Exchange.Declarations
import CodeGraph.Graph.Basic
import CodeGraph.Json.Writer
import CodeGraph.Time.Reader

/-!
# Graphs as JSON

* For every type of `CodeGraph.Graph.Basic`: its JSON form and the value of such a form.
* The properties of a node or relationship bear their case in the member `kind`, which comes first.
-/

namespace CodeGraph

open Json
open Hash (Uuid)

/-- The value of a case of something that bears its case in the member `kind`. -/
def Json.kind? (j : Json) : Option String := j.field? "kind" asText?

/-- Members behind the case that they belong to. -/
def Json.tagged (kind : String) (members : List (String × Json)) : Json :=
  object (("kind", .text kind) :: members)

def Hash.Uuid.toJson (u : Uuid) : Json := .text u.toText

def Hash.Uuid.ofJson? (j : Json) : Option Uuid := j.asText?.bind Uuid.ofText?

def Instant.ofJson? (j : Json) : Option Instant := j.asText?.bind Instant.readFreely?

def NodeType.ofJson? : Json → Option NodeType := asWord? (NodeType.all.map fun t => (t.word, t))

def RelationshipType.ofJson? : Json → Option RelationshipType :=
  asWord? (RelationshipType.all.map fun t => (t.word, t))

/-! ### Properties -/

def FunctionProperties.members (p : FunctionProperties) : List (String × Json) :=
  [("package", .text p.package), ("file", .text p.file), ("receiver", optionalText p.receiver),
    ("pointer_receiver", bool p.pointerReceiver), ("signature", .text p.signature),
    ("visibility", p.visibility.toJson), ("start_line", nat p.span.first),
    ("end_line", nat p.span.last), ("complexity", nat p.complexity),
    ("external_calls", nat p.externalCalls), ("unresolved_calls", nat p.unresolvedCalls)]

def FunctionProperties.ofJson? (j : Json) : Option FunctionProperties := do
  pure
    { package := ← j.field? "package" asText?
      file := ← j.field? "file" asText?
      receiver := ← j.optional? "receiver" asText?
      pointerReceiver := ← j.field? "pointer_receiver" asBool?
      signature := ← j.field? "signature" asText?
      visibility := ← j.field? "visibility" Visibility.ofJson?
      span := ← Span.ofJson? j
      complexity := ← j.field? "complexity" asNat32?
      externalCalls := ← j.field? "external_calls" asNat32?
      unresolvedCalls := ← j.field? "unresolved_calls" asNat32? }

def TypeProperties.members (p : TypeProperties) : List (String × Json) :=
  [("package", .text p.package), ("file", .text p.file), ("visibility", p.visibility.toJson),
    ("start_line", nat p.span.first), ("end_line", nat p.span.last),
    ("field_count", nat p.fieldCount), ("methods", texts p.methods), ("embeds", texts p.embeds)]

def TypeProperties.ofJson? (j : Json) : Option TypeProperties := do
  pure ⟨← j.field? "package" asText?, ← j.field? "file" asText?,
    ← j.field? "visibility" Visibility.ofJson?, ← Span.ofJson? j,
    ← j.field? "field_count" asNat64?, ← j.field? "methods" asTexts?,
    ← j.field? "embeds" asTexts?⟩

def ValueProperties.members (p : ValueProperties) : List (String × Json) :=
  [("package", .text p.package), ("file", .text p.file), ("type_name", optionalText p.typeName),
    ("visibility", p.visibility.toJson), ("line", nat p.line)]

def ValueProperties.ofJson? (j : Json) : Option ValueProperties := do
  pure ⟨← j.field? "package" asText?, ← j.field? "file" asText?,
    ← j.optional? "type_name" asText?, ← j.field? "visibility" Visibility.ofJson?,
    ← j.field? "line" asNat32?⟩

def NodeProperties.toJson : NodeProperties → Json
  | project root modulePath parseErrors => tagged "project"
      [("root", .text root), ("module_path", optionalText modulePath),
        ("parse_errors", nat parseErrors)]
  | package path name folder fileCount => tagged "package"
      [("import_path", .text path), ("name", .text name), ("dir", .text folder),
        ("file_count", nat fileCount)]
  | file owner hash lineCount => tagged "file"
      [("package", .text owner), ("content_hash", .text hash), ("line_count", nat lineCount)]
  | function p => tagged "function" p.members
  | type p => tagged "type" p.members
  | field owner struct typeName visibility embedded line => tagged "field"
      [("package", .text owner), ("owner", .text struct), ("type_name", .text typeName),
        ("visibility", visibility.toJson), ("embedded", bool embedded), ("line", nat line)]
  | value p => tagged "value" p.members
  | importPath path standard => tagged "import"
      [("path", .text path), ("standard_library", bool standard)]

def NodeProperties.ofJson? (j : Json) : Option NodeProperties := do
  match ← j.kind? with
  | "project" => pure (project (← j.field? "root" asText?) (← j.optional? "module_path" asText?)
      (← j.field? "parse_errors" asNat64?))
  | "package" => pure (package (← j.field? "import_path" asText?) (← j.field? "name" asText?)
      (← j.field? "dir" asText?) (← j.field? "file_count" asNat64?))
  | "file" => pure (file (← j.field? "package" asText?) (← j.field? "content_hash" asText?)
      (← j.field? "line_count" asNat32?))
  | "function" => (FunctionProperties.ofJson? j).map function
  | "type" => (TypeProperties.ofJson? j).map type
  | "field" => pure (field (← j.field? "package" asText?) (← j.field? "owner" asText?)
      (← j.field? "type_name" asText?) (← j.field? "visibility" Visibility.ofJson?)
      (← j.field? "embedded" asBool?) (← j.field? "line" asNat32?))
  | "value" => (ValueProperties.ofJson? j).map value
  | "import" => pure (importPath (← j.field? "path" asText?)
      (← j.field? "standard_library" asBool?))
  | _ => none

def RelationshipProperties.toJson : RelationshipProperties → Json
  | contains => tagged "contains" []
  | imports givenName line => tagged "imports" [("alias", optionalText givenName), ("line", nat line)]
  | calls kind line nameMatched => tagged "calls"
      [("call_type", kind.toJson), ("line", nat line), ("name_matched", bool nameMatched)]
  | implements pointer => tagged "implements" [("pointer_receiver", bool pointer)]
  | hasMethod pointer => tagged "has_method" [("pointer_receiver", bool pointer)]
  | hasField embedded => tagged "has_field" [("embedded", bool embedded)]
  | dependsOn weight inCycle => tagged "depends_on"
      [("weight", nat weight), ("in_cycle", bool inCycle)]

def RelationshipProperties.ofJson? (j : Json) : Option RelationshipProperties := do
  match ← j.kind? with
  | "contains" => pure contains
  | "imports" => pure (imports (← j.optional? "alias" asText?) (← j.field? "line" asNat32?))
  | "calls" => pure (calls (← j.field? "call_type" CallKind.ofJson?)
      (← j.field? "line" asNat32?) (← j.field? "name_matched" asBool?))
  | "implements" => pure (implements (← j.field? "pointer_receiver" asBool?))
  | "has_method" => pure (hasMethod (← j.field? "pointer_receiver" asBool?))
  | "has_field" => pure (hasField (← j.field? "embedded" asBool?))
  | "depends_on" => pure (dependsOn (← j.field? "weight" asNat64?)
      (← j.field? "in_cycle" asBool?))
  | _ => none

/-! ### Nodes, relationships and graphs -/

def GraphNode.ofJson? (j : Json) : Option GraphNode := do
  pure
    { id := ← j.field? "id" Uuid.ofJson?
      projectId := ← j.field? "project_id" asText?
      label := ← j.field? "node_type" NodeType.ofJson?
      name := ← j.field? "name" asText?
      path := ← j.optional? "path" asText?
      properties := ← j.field? "properties" NodeProperties.ofJson?
      createdAt := ← j.field? "created_at" Instant.ofJson? }

def GraphRelationship.ofJson? (j : Json) : Option GraphRelationship := do
  pure
    { id := ← j.field? "id" Uuid.ofJson?
      projectId := ← j.field? "project_id" asText?
      label := ← j.field? "rel_type" RelationshipType.ofJson?
      source := ← j.field? "source_id" Uuid.ofJson?
      target := ← j.field? "target_id" Uuid.ofJson?
      properties := ← j.field? "properties" RelationshipProperties.ofJson?
      createdAt := ← j.field? "created_at" Instant.ofJson? }

def Summary.toJson (s : Summary) : Json :=
  object [("files", nat s.files), ("packages", nat s.packages), ("functions", nat s.functions),
    ("methods", nat s.methods), ("structs", nat s.structs), ("interfaces", nat s.interfaces),
    ("external_imports", nat s.externalImports), ("implementations", nat s.implementations),
    ("resolved_calls", nat s.resolvedCalls), ("unresolved_calls", nat s.unresolvedCalls),
    ("cycles", nat s.cycles), ("parse_errors", nat s.parseErrors)]

def Summary.ofJson? (j : Json) : Option Summary := do
  let count key := j.field? key asNat64?
  pure
    { files := ← count "files"
      packages := ← count "packages"
      functions := ← count "functions"
      methods := ← count "methods"
      structs := ← count "structs"
      interfaces := ← count "interfaces"
      externalImports := ← count "external_imports"
      implementations := ← count "implementations"
      resolvedCalls := ← count "resolved_calls"
      unresolvedCalls := ← count "unresolved_calls"
      cycles := ← count "cycles"
      parseErrors := ← count "parse_errors" }

def Graph.ofJson? (j : Json) : Option Graph := do
  pure
    { projectId := ← j.field? "project_id" asText?
      nodes := ← j.field? "nodes" (asList? GraphNode.ofJson?)
      relationships := ← j.field? "relationships" (asList? GraphRelationship.ofJson?)
      summary := ← j.field? "summary" Summary.ofJson?
      analyzedAt := ← j.field? "analyzed_at" Instant.ofJson? }

/-- How nodes are named in an answer: by their identifiers or by their places. -/
inductive NodeNaming where
  | identifiers
  | places
  deriving DecidableEq

/-- A graph with the number of nodes and relationships of every label. -/
def Graph.toJson (naming : NodeNaming) (g : Graph) : Json :=
  let own (id : Uuid) := if naming = .identifiers then [("id", id.toJson)] else []
  let ids := g.nodes.map (·.id)
  let endText (id : Uuid) := if naming = .identifiers then id.toJson else nat (ids.idxOf id)
  object [("project_id", .text g.projectId),
    ("nodes", ofList (fun n => object ([("type", .text n.label.word), ("name", .text n.name),
      ("path", optionalText n.path), ("package", optionalText n.properties.package?),
      ("properties", n.properties.toJson)] ++ own n.id)) g.nodes),
    ("relationships", ofList (fun r => object ([("type", .text r.label.word),
      ("source", endText r.source), ("target", endText r.target),
      ("properties", r.properties.toJson)] ++ own r.id)) g.relationships),
    ("node_counts", object (NodeType.all.map fun t => (t.word, nat (g.nodeCount t)))),
    ("relationship_counts",
      object (RelationshipType.all.map fun t => (t.word, nat (g.relationshipCount t)))),
    ("distinct_ids", nat ids.eraseDups.length),
    ("summary", g.summary.toJson)]

end CodeGraph
