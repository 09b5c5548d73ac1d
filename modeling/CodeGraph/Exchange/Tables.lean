import CodeGraph.Exchange.Graph
import CodeGraph.Store.Tables

/-!
# Stores as JSON

* `Store.toJson`, `Store.ofJson?` — the form in which the rows of a store are kept in a file, and
  the store of such a form.
-/

namespace CodeGraph

open Json
open Hash (Uuid)

def GraphNode.toJson (n : GraphNode) : Json :=
  object [("id", n.id.toJson), ("project_id", .text n.projectId), ("node_type", .text n.label.word),
    ("name", .text n.name), ("path", optionalText n.path), ("properties", n.properties.toJson),
    ("created_at", .text n.createdAt.text)]

def GraphRelationship.toJson (r : GraphRelationship) : Json :=
  object [("id", r.id.toJson), ("project_id", .text r.projectId), ("rel_type", .text r.label.word),
    ("source_id", r.source.toJson), ("target_id", r.target.toJson),
    ("properties", r.properties.toJson), ("created_at", .text r.createdAt.text)]

def MetadataRow.toJson (m : MetadataRow) : Json :=
  object [("project_id", .text m.projectId), ("files", nat m.files), ("packages", nat m.packages),
    ("functions", nat m.functions), ("structs", nat m.structs), ("node_count", nat m.nodeCount),
    ("relationship_count", nat m.relationshipCount), ("summary", .text m.summary),
    ("analyzed_at", .text m.analyzedAt), ("updated_at", .text m.updatedAt)]

def MetadataRow.ofJson? (j : Json) : Option MetadataRow := do
  pure
    { projectId := ← j.field? "project_id" asText?
      files := ← j.field? "files" asNat64?
      packages := ← j.field? "packages" asNat64?
      functions := ← j.field? "functions" asNat64?
      structs := ← j.field? "structs" asNat64?
      nodeCount := ← j.field? "node_count" asNat64?
      relationshipCount := ← j.field? "relationship_count" asNat64?
      summary := ← j.field? "summary" asText?
      analyzedAt := ← j.field? "analyzed_at" asText?
      updatedAt := ← j.field? "updated_at" asText? }

def Tables.toJson (t : Tables) : Json :=
  object [("nodes", ofList GraphNode.toJson t.nodes),
    ("relationships", ofList GraphRelationship.toJson t.relationships),
    ("metadata", ofList MetadataRow.toJson t.metadata)]

def Tables.ofJson? (j : Json) : Option Tables := do
  pure ⟨← j.field? "nodes" (asList? GraphNode.ofJson?),
    ← j.field? "relationships" (asList? GraphRelationship.ofJson?),
    ← j.field? "metadata" (asList? MetadataRow.ofJson?)⟩

/-- The form of a store; without tables it is null. -/
def Store.toJson (s : Store) : Json := (s.tables.map Tables.toJson).getD .null

def Store.ofJson? (j : Json) : Option Store := (asOptional? Tables.ofJson? j).map Store.mk

end CodeGraph
