import CodeGraph.Exchange.Store
import CodeGraph.Json.Writer
import CodeGraph.Pipeline.Basic

/-!
# Texts of the command line

* `errorText` — an error with its causes.
* `StoreError.chain`, `PipelineError.chain` — an error, what it wraps, and so on to the innermost
  cause.
* `Report.lines` — what is printed of an analysis.
* `ProjectFigures.lines` — what is printed of a stored project.
-/

namespace CodeGraph

/-! ### Errors -/

/-- An error with its causes; several causes are numbered. -/
def errorText : List String → String
  | [] => ""
  | [e] => "Error: " ++ e
  | [e, cause] => "Error: " ++ e ++ "\n\nCaused by:\n    " ++ cause
  | e :: causes =>
    "Error: " ++ e ++ "\n\nCaused by:" ++
      String.join (causes.zipIdx.map fun (c, i) => "\n    " ++ toString i ++ ": " ++ c)

def StoreError.chain (e : StoreError) : List String :=
  e.message :: match e.fault? with
    | some f => [f.message, f.cause]
    | none => []

def ReadError.chain (e : ReadError) : List String :=
  e.message :: match e with
    | .invalidPath _ f => [f.message]
    | _ => []

def PipelineError.chain (e : PipelineError) : List String :=
  e.message :: match e with
    | .settings _ => []
    | .read e => e.chain
    | .analysis e => [e.message]
    | .store e => e.chain

/-! ### Reports -/

/-- A word, followed by blanks up to ten characters. -/
def labelColumn (word : String) : String :=
  word ++ String.ofList (List.replicate (10 - word.length) ' ')

/-- The lines of a report, with the functions that are at least so complex. -/
def Report.lines (threshold : Nat) (r : Report) : List String :=
  let externals := r.dependencies.externals
  let chainCount := sumOf (·.2.length) r.entryChains
  r.cycles.map (fun c => "cycle: " ++ c.text) ++
  r.degradations.map (fun d =>
    "degraded: " ++ d.package ++ " " ++ d.subject ++ " (" ++ d.reason ++ ")") ++
  ["external imports: " ++ toString externals.length] ++
  externals.map ("  " ++ ·) ++
  ["entry points: " ++ toString r.entryChains.length ++ " (" ++ toString chainCount ++
    " call chains)"] ++
  (r.longestChain?.toList.map fun c =>
    "longest chain: " ++ " -> ".intercalate (c.map FunctionId.text)) ++
  match r.metrics with
  | some m => (m.complex threshold).map fun f =>
      "complex: " ++ f.function.text ++ " complexity " ++ toString f.complexity ++ " (" ++ f.file ++
        ")"
  | none => []

/-- The lines of a value. -/
def jsonLines (j : Json) : List String := j.pretty.splitOn "\n"

/-- The lines of an import's figures. -/
def ImportFigures.lines (elapsed : Nat) (f : ImportFigures) : List String :=
  jsonLines (.object (f.members ++ [("duration_ms", .nat elapsed)]))

/-- The lines of a project's figures. -/
def ProjectFigures.lines (p : ProjectFigures) : List String :=
  jsonLines (.object (p.members ++ [("updated_at", .text p.updatedAt.text)]))

/-- The text of an instant for readers. -/
def Instant.plainText (t : Instant) : String :=
  ((t.stamp "").map fun c => if c = 'T' then ' ' else c) ++ " UTC"

/-- The line of a project in a list. -/
def ProjectFigures.line (p : ProjectFigures) : String :=
  "  - " ++ p.projectId ++ " (" ++ toString p.nodeCount ++ " nodes, " ++
    toString p.relationshipCount ++ " relationships, analyzed " ++ p.analyzedAt.plainText ++ ")"

/-- The lines of a list of projects. -/
def projectLines : List ProjectFigures → List String
  | [] => ["No projects found."]
  | ps => "Projects:" :: ps.map ProjectFigures.line

end CodeGraph
