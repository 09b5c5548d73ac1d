import CodeGraph.Calls.Resolution
import CodeGraph.Imports.Dependency
import CodeGraph.Report.Metrics

/-!
# The analysis of a project

* `Report` — dependencies, cycles, implementations, calls, chains, figures, and what could not be
  settled.
* `Report.ofProject` — the analysis in its stages; it can be cancelled before each of them.
* `AnalysisError.message` — why there is no report, in words.
-/

namespace CodeGraph

/-- Everything that an analysis finds. -/
structure Report where
  dependencies : Dependencies
  /-- Empty where cycles are not asked for. -/
  cycles : List Cycle
  /-- By interface and struct. -/
  implementations : List Implementation
  /-- By caller, target and kind. -/
  calls : List CallEdge
  /-- The chains of calls from every entry point, by entry point. -/
  entryChains : List (FunctionId × List (List FunctionId))
  metrics : Option Metrics
  degradations : List Degradation
  deriving Inhabited

/-- Why there is no report. -/
inductive AnalysisError where
  | settings (fault : SettingsFault)
  | cancelled (stage : String)
  deriving DecidableEq, Repr

def AnalysisError.message : AnalysisError → String
  | .settings f => f.message
  | .cancelled stage => "analysis cancelled during " ++ stage

namespace Report

def hasCycles (r : Report) : Bool := !r.cycles.isEmpty

/-- The longest chain from an entry point, of several the last. -/
def longestChain? (r : Report) : Option (List FunctionId) :=
  match r.entryChains.flatMap (·.2) with
  | [] => none
  | c :: cs => some (cs.foldl (fun best d => if best.length ≤ d.length then d else best) c)

/-- Whether a function is where a program starts. -/
def isEntry (f : FunctionDecl) : Bool := !f.isMethod && (f.name = "main" || f.name = "init")

/-- The entry points of packages, declaration by declaration. -/
def entryPoints (ps : List Package) : List FunctionId :=
  (ps.filter (·.name = "main")).flatMap fun p =>
    ((p.files.flatMap (·.functions)).filter isEntry).map (FunctionId.ofDecl p.importPath)

/-- The chains from the entry points, and which of them are cut off at the limit. -/
def chainsOf (g : CallGraph) (depth : Nat) (entries : List FunctionId) :
    List (FunctionId × List (List FunctionId)) × List Degradation :=
  let chains := (sortedDistinct entries).map fun f => (f, g.chainsFrom f depth)
  (chains, entries.filterMap fun f =>
    if CallGraph.chainLimit ≤ ((chains.lookup f).getD []).length then
      some ⟨f.package, f.name,
        "call chains truncated at " ++ toString CallGraph.chainLimit⟩
    else none)

/-- The analysis of a project. -/
def ofProject (settings : AnalysisSettings) (p : Project) : Run AnalysisError Report := do
  Run.ofExcept (settings.check.mapError .settings)
  Run.check (.cancelled "dependency analysis")
  let symbols := SymbolTable.ofProject p
  let dependencies := Dependencies.ofPackages p.packages
  Run.check (.cancelled "cycle detection")
  let cycles := if settings.cycles then dependencies.cycles else []
  Run.check (.cancelled "interface matching")
  let implementations := symbols.implementations
  Run.check (.cancelled "call resolution")
  let calls := resolveCalls ⟨symbols, implementations, settings.dispatch⟩ p.packages
  Run.check (.cancelled "call chains")
  let (entryChains, truncated) :=
    chainsOf (.ofEdges calls) settings.chainDepth.toNat (entryPoints p.packages)
  Run.check (.cancelled "metrics")
  pure
    { dependencies := dependencies.mark cycles
      cycles, implementations, calls, entryChains
      metrics := if settings.metrics then some (Metrics.ofPackages p.packages calls) else none
      degradations := symbols.flattenDegradations ++ truncated }

end Report

end CodeGraph
