import CodeGraph.Exchange.Declarations
import CodeGraph.Project.Basic

/-!
# Projects as JSON

* Projects, packages and files left out, in their JSON forms and back.
* The sections of the settings; every member that is absent has its default.
-/

namespace CodeGraph

open Json

def FileIssue.toJson (i : FileIssue) : Json :=
  object [("path", .text i.path), ("kind", .text i.kind.word), ("message", .text i.message)]

def FileIssue.ofJson? (j : Json) : Option FileIssue := do
  pure ⟨← j.field? "path" asText?,
    ← j.field? "kind"
      (asWord? [("io", .io), ("syntax", .syntaxError), ("unsupported", .unsupported)]),
    ← j.field? "message" asText?⟩

def Package.toJson (p : Package) : Json :=
  object [("import_path", .text p.importPath), ("name", .text p.name), ("dir", .text p.folder),
    ("files", ofList SourceFile.toJson p.files)]

def Package.ofJson? (j : Json) : Option Package := do
  pure ⟨← j.field? "import_path" asText?, ← j.field? "name" asText?, ← j.field? "dir" asText?,
    ← j.field? "files" (asList? SourceFile.ofJson?)⟩

/-- The members of a project's JSON form. -/
def Project.members (p : Project) : List (String × Json) :=
  [("root", .text p.root), ("module_path", optionalText p.modulePath),
    ("packages", ofList Package.toJson p.packages), ("errors", ofList FileIssue.toJson p.issues)]

def Project.toJson (p : Project) : Json := object p.members

def Project.ofJson? (j : Json) : Option Project := do
  pure ⟨← j.field? "root" asText?, ← j.optional? "module_path" asText?,
    ← j.field? "packages" (asList? Package.ofJson?),
    ← j.field? "errors" (asList? FileIssue.ofJson?)⟩

/-! ### Settings -/

def ReadingSettings.ofJson? (j : Json) : Option ReadingSettings := do
  let _ ← j.asObject?
  let d : ReadingSettings := {}
  pure ⟨← j.fieldOr? "ignore_dirs" d.ignoredFolders asTexts?,
    ← j.fieldOr? "ignore_patterns" d.ignoredPatterns asTexts?,
    ← j.fieldOr? "include_tests" d.includeTests asBool?,
    ← j.fieldOr? "include_vendor" d.includeVendor asBool?,
    ← j.fieldOr? "max_workers" d.workers asNat64?⟩

def AnalysisSettings.ofJson? (j : Json) : Option AnalysisSettings := do
  let _ ← j.asObject?
  let d : AnalysisSettings := {}
  pure ⟨← j.fieldOr? "max_call_depth" d.chainDepth asInt64?,
    ← j.fieldOr? "compute_metrics" d.metrics asBool?,
    ← j.fieldOr? "detect_cycles" d.cycles asBool?,
    ← j.fieldOr? "resolve_interface_dispatch" d.dispatch asBool?⟩

def IdentityPolicy.ofJson? : Json → Option IdentityPolicy :=
  asWord? [("random", .random), ("content_addressed", .contentAddressed)]

def RetrySettings.ofJson? (j : Json) : Option RetrySettings := do
  let _ ← j.asObject?
  let d : RetrySettings := {}
  pure ⟨← j.fieldOr? "max_attempts" d.attempts asNat32?,
    ← j.fieldOr? "initial_delay_ms" d.initialDelay asNat64?,
    ← j.fieldOr? "multiplier" d.multiplier asFloat?,
    ← j.fieldOr? "max_delay_ms" d.maxDelay asNat64?⟩

def StoreSettings.ofJson? (j : Json) : Option StoreSettings := do
  let _ ← j.asObject?
  let d : StoreSettings := {}
  pure ⟨← j.fieldOr? "uri" d.address asText?, ← j.optional? "username" asText?,
    ← j.optional? "password" asText?, ← j.fieldOr? "batch_size" d.batchSize asNat64?,
    ← j.fieldOr? "retry" d.retry RetrySettings.ofJson?⟩

def LoggingSettings.ofJson? (j : Json) : Option LoggingSettings := do
  let _ ← j.asObject?
  let d : LoggingSettings := {}
  pure ⟨← j.fieldOr? "level" d.level asText?, ← j.fieldOr? "format" d.format asText?⟩

/-- The section of the settings that says where identities come from. -/
def identityOfJson? (j : Json) : Option IdentityPolicy := do
  let _ ← j.asObject?
  j.fieldOr? "identity" .random IdentityPolicy.ofJson?

def Settings.ofJson? (j : Json) : Option Settings := do
  let _ ← j.asObject?
  pure ⟨← j.fieldOr? "parser" {} ReadingSettings.ofJson?,
    ← j.fieldOr? "analyzer" {} AnalysisSettings.ofJson?,
    ← j.fieldOr? "graph" .random identityOfJson?,
    ← j.fieldOr? "store" {} StoreSettings.ofJson?,
    ← j.fieldOr? "logging" {} LoggingSettings.ofJson?⟩

end CodeGraph
