import CodeGraph.Exchange.Graph
import CodeGraph.Graph.Draft
import CodeGraph.Settings.Basic

/-!
# Identities

* `Identities` — how nodes and relationships get their identifiers.
* `Identities.contentAddressed` — from what they are, so that the same project gets the same
  identifiers again.
* `Identities.drawn` — from a seed, each place another.
-/

namespace CodeGraph

open Hash (Uuid)

/-- How nodes and relationships get their identifiers; relationships are also told apart by their
places in the graph. -/
structure Identities where
  node : Draft → Uuid
  relationship : (place : Nat) → (source target : Uuid) → RelationshipProperties → Uuid

namespace Identities

/-- The namespace of all graphs. -/
def space : Uuid := .named .urlNamespace "gograph"

/-- What tells a relationship from others of the same project by its content. -/
def relationshipKey (source target : Uuid) (p : RelationshipProperties) : String :=
  "\x00".intercalate [p.label.word, source.toText, target.toText, p.toJson.compact]

/-- Identifiers from the content of nodes and relationships, within one project. -/
def contentAddressed (projectId : String) : Identities :=
  let ofKey (key : String) : Uuid := .named space (projectId ++ "\x00" ++ key)
  { node := fun d => ofKey d.key
    relationship := fun _ source target p => ofKey (relationshipKey source target p) }

/-- Identifiers drawn from a seed. -/
def drawn (seed : List UInt8) : Identities :=
  { node := fun d => .drawn seed d.site.text
    relationship := fun place _ _ _ => .drawn seed ("relationship " ++ toString place) }

/-- The identities that a policy asks for. -/
def ofPolicy (seed : List UInt8) (projectId : String) : IdentityPolicy → Identities
  | .random => drawn seed
  | .contentAddressed => contentAddressed projectId

end Identities

end CodeGraph
