import CodeGraph.Exchange.Graph
import CodeGraph.Store.Import
import CodeGraph.Store.Overview

/-!
# Figures of the store as JSON

* For the figures of imports, deletions and projects: their members in the order in which they are
  written.
-/

namespace CodeGraph

open Json

def ClearFigures.toJson (c : ClearFigures) : Json :=
  object [("nodes", nat c.nodes), ("relationships", nat c.relationships)]

/-- The figures of an import. -/
def ImportFigures.members (f : ImportFigures) : List (String × Json) :=
  [("cleared", f.cleared.toJson), ("nodes_written", nat f.nodesWritten),
    ("relationships_written", nat f.relationshipsWritten), ("node_batches", nat f.nodeBatches),
    ("relationship_batches", nat f.relationshipBatches)]

/-- The figures of a project but for the time when they were written. -/
def ProjectFigures.members (p : ProjectFigures) : List (String × Json) :=
  [("project_id", .text p.projectId), ("node_count", nat p.nodeCount),
    ("relationship_count", nat p.relationshipCount), ("summary", p.summary.toJson),
    ("analyzed_at", .text p.analyzedAt.text)]

end CodeGraph
