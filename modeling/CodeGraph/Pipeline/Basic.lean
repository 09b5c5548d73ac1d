import CodeGraph.Graph.Build
import CodeGraph.Store.Import

/-!
# Runs

* `PipelineError` — why a run has no outcome; the error of a stage is wrapped in the stage's words.
* `analyzeProject` — reads, analyses and builds the graph of a project; no store is involved.
* `Session.persist` — writes a graph to a store.
* `Session.pipeline` — all of it.
-/

namespace CodeGraph

/-- Why a run has no outcome. -/
inductive PipelineError where
  | settings (fault : SettingsFault)
  | read (error : ReadError)
  | analysis (error : AnalysisError)
  | store (error : StoreError)
  deriving DecidableEq, Repr

namespace PipelineError

def message : PipelineError → String
  | settings f => f.message
  | read e => "parse failed: " ++ e.message
  | analysis e => "analysis failed: " ++ e.message
  | store e => "persist failed: " ++ e.message

/-- Whether a run was cancelled. -/
def isCancelled : PipelineError → Bool
  | read .cancelled | analysis (.cancelled _) | store .cancelled => true
  | _ => false

end PipelineError

/-- What a run finds out about a project. -/
structure Analysis where
  project : Project
  report : Report
  graph : Graph
  deriving Inhabited

/-- What a run on a project starts from. -/
structure Job where
  projectId : String
  /-- The files, and the path of the project among them. -/
  tree : FileTree
  path : String
  settings : Settings
  /-- What identifiers are drawn from. -/
  seed : List UInt8
  /-- The time of the analysis. -/
  now : Instant

/-- Read, analyse and build the graph of a project. -/
def analyzeProject (j : Job) : Run PipelineError Analysis := do
  Run.ofExcept (j.settings.check.mapError .settings)
  let project ← (Project.read Languages.standard j.settings.reading j.tree j.path).mapError .read
  Run.report .analyze 0 1 "analyzing relationships"
  let report ← (Report.ofProject j.settings.analysis project).mapError .analysis
  Run.report .analyze 1 1
    (toString report.cycles.length ++ " cycles, " ++ toString report.implementations.length ++
      " implementations, " ++ toString report.calls.length ++ " calls")
  Run.report .build 0 1 "building graph model"
  let ids := Identities.ofPolicy j.seed j.projectId j.settings.identity
  let graph := Graph.ofReport ids j.now j.projectId project report
  Run.report .build 1 1
    (toString graph.nodes.length ++ " nodes, " ++ toString graph.relationships.length ++
      " relationships")
  pure ⟨project, report, graph⟩

namespace Session

/-- Report an event. -/
def report (phase : Phase) (done total : Nat) (detail : String) : Session ε Unit :=
  ofRun (Run.report phase done total detail)

/-- Write a graph to a store, whose tables are created where they are missing. -/
def persist (batchSize : Nat) (now : Instant) (g : Graph) :
    Session PipelineError ImportFigures := do
  report .persist 0 1 "preparing store"
  createTables.mapError .store
  report .persist 1 10 "importing"
  let figures ← (importGraph batchSize now g).mapError .store
  report .persist 1 1
    (toString figures.nodesWritten ++ " nodes, " ++ toString figures.relationshipsWritten ++
      " relationships written")
  pure figures

/-- Read, analyse and build the graph of a project, and write it to a store. -/
def pipeline (batchSize : Nat) (j : Job) : Session PipelineError (Analysis × ImportFigures) := do
  let analysis ← ofRun (analyzeProject j)
  let figures ← persist batchSize j.now analysis.graph
  pure (analysis, figures)

end Session

end CodeGraph
