import CodeGraph.Exchange.Project
import CodeGraph.Toml.Reader
import CodeGraph.Toml.Writer

/-!
# Settings as a TOML document

* `Settings.ofToml?` — the settings of a document; what it leaves out keeps its default.
* `Settings.toToml` — the document of settings, one table for every section.
-/

namespace CodeGraph

namespace Settings

/-- The settings of a document. -/
def ofToml? (text : String) : Option Settings := (Toml.read? text).bind ofJson?

/-- A table with a header and its keys. -/
def table (header : String) (entries : List (String × String)) : String :=
  "[" ++ header ++ "]\n" ++ String.join (entries.map fun (k, v) => k ++ " = " ++ v ++ "\n")

def boolText (b : Bool) : String := if b then "true" else "false"

/-- A key that may be left out. -/
def optionalEntry (key : String) : Option String → List (String × String)
  | some s => [(key, Toml.textLiteral s)]
  | none => []

def identityWord : IdentityPolicy → String
  | .random => "random"
  | .contentAddressed => "content_addressed"

/-- The document of settings. -/
def toToml (s : Settings) : String :=
  "\n".intercalate
    [table "parser"
      [("ignore_dirs", Toml.textsLiteral s.reading.ignoredFolders),
        ("ignore_patterns", Toml.textsLiteral s.reading.ignoredPatterns),
        ("include_tests", boolText s.reading.includeTests),
        ("include_vendor", boolText s.reading.includeVendor),
        ("max_workers", toString s.reading.workers)],
    table "analyzer"
      [("max_call_depth", toString s.analysis.chainDepth),
        ("compute_metrics", boolText s.analysis.metrics),
        ("detect_cycles", boolText s.analysis.cycles),
        ("resolve_interface_dispatch", boolText s.analysis.dispatch)],
    table "graph" [("identity", Toml.textLiteral (identityWord s.identity))],
    table "store"
      ([("uri", Toml.textLiteral s.store.address)] ++
        optionalEntry "username" s.store.username ++ optionalEntry "password" s.store.password ++
        [("batch_size", toString s.store.batchSize)]),
    table "store.retry"
      [("max_attempts", toString s.store.retry.attempts),
        ("initial_delay_ms", toString s.store.retry.initialDelay),
        ("multiplier", Toml.realLiteral s.store.retry.multiplier),
        ("max_delay_ms", toString s.store.retry.maxDelay)],
    table "logging"
      [("level", Toml.textLiteral s.logging.level), ("format", Toml.textLiteral s.logging.format)]]

end Settings

end CodeGraph
