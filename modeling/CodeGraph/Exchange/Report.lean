import CodeGraph.Exchange.Declarations
import CodeGraph.Report.Basic

/-!
# Reports as JSON

* Call edges, cycles, dependencies, chains and figures in their JSON forms, and call edges back.
* `Report.toJson` — a whole report; chains are listed in part (`chainsJson`).
-/

namespace CodeGraph

open Json

/-- The members of a function's name. -/
def FunctionId.members (f : FunctionId) : List (String × Json) :=
  [("package", .text f.package), ("receiver", optionalText f.receiver), ("name", .text f.name)]

def FunctionId.toJson (f : FunctionId) : Json := object f.members

def FunctionId.ofJson? (j : Json) : Option FunctionId := do
  pure ⟨← j.field? "package" asText?, ← j.optional? "receiver" asText?,
    ← j.field? "name" asText?⟩

def CallTarget.toJson : CallTarget → Json
  | resolved f => object (("kind", .text "resolved") :: f.members)
  | external package name =>
    object [("kind", .text "external"), ("package", .text package), ("name", .text name)]
  | unresolved name reason =>
    object [("kind", .text "unresolved"), ("name", .text name), ("reason", .text reason)]

def CallTarget.ofJson? (j : Json) : Option CallTarget := do
  match ← j.field? "kind" asText? with
  | "resolved" => pure (.resolved (← FunctionId.ofJson? j))
  | "external" => pure (.external (← j.field? "package" asText?) (← j.field? "name" asText?))
  | "unresolved" => pure (.unresolved (← j.field? "name" asText?) (← j.field? "reason" asText?))
  | _ => none

def CallEdge.toJson (e : CallEdge) : Json :=
  object [("caller", e.caller.toJson), ("target", e.target.toJson), ("call_type", e.kind.toJson),
    ("name_matched", bool e.nameMatched), ("line", nat e.line)]

def CallEdge.ofJson? (j : Json) : Option CallEdge := do
  pure ⟨← j.field? "caller" FunctionId.ofJson?, ← j.field? "target" CallTarget.ofJson?,
    ← j.field? "call_type" CallKind.ofJson?, ← j.field? "name_matched" asBool?,
    ← j.field? "line" asNat32?⟩

/-- Functions by their texts. -/
def functionTexts (fs : List FunctionId) : Json := texts (fs.map FunctionId.text)

/-- How many chains of a list are shown. -/
def shownChains : Nat := 20

/-- Chains in part: their number and total length, the first of them and the last. -/
def chainsJson (chains : List (List FunctionId)) : Json :=
  object [("count", nat chains.length), ("length_sum", nat (sumOf List.length chains)),
    ("first", ofList functionTexts (chains.take shownChains)),
    ("last", ofOption functionTexts chains.getLast?)]

def Dependency.toJson (e : Dependency) : Json :=
  object [("from", .text e.source), ("to", .text e.target), ("weight", nat e.weight),
    ("in_cycle", bool e.inCycle)]

def Dependencies.toJson (d : Dependencies) : Json :=
  object [("packages", nat d.packages.length), ("edge_count", nat d.edges.length),
    ("edges", ofList Dependency.toJson d.edges), ("external", texts d.externals)]

def Cycle.toJson (c : Cycle) : Json :=
  object [("packages", texts c.packages), ("text", .text c.text), ("len", nat c.packages.length),
    ("empty", bool c.packages.isEmpty), ("edges", ofList (fun (a, b) => texts [a, b]) c.edges)]

def Degradation.toJson (d : Degradation) : Json :=
  object [("package", .text d.package), ("subject", .text d.subject), ("reason", .text d.reason)]

def Implementation.toJson (i : Implementation) : Json :=
  list [.text i.interface.text, .text i.struct.text, bool i.pointer]

def FunctionMetrics.toJson (m : FunctionMetrics) : Json :=
  object [("function", m.function.toJson), ("file", .text m.file),
    ("complexity", nat m.complexity), ("lines", nat m.lines), ("call_sites", nat m.callSites),
    ("fan_out", nat m.fanOut), ("fan_in", nat m.fanIn)]

def PackageMetrics.toJson (m : PackageMetrics) : Json :=
  object [("package", .text m.package), ("files", nat m.files), ("lines", nat m.lines),
    ("functions", nat m.functions), ("methods", nat m.methods), ("structs", nat m.structs),
    ("interfaces", nat m.interfaces), ("constants", nat m.constants),
    ("variables", nat m.vars), ("imports", nat m.imports)]

/-- Figures, with the functions from a complexity upwards. -/
def Metrics.toJson (threshold : Nat) (m : Metrics) : Json :=
  object [("functions", ofList FunctionMetrics.toJson m.functions),
    ("packages", ofList PackageMetrics.toJson m.packages), ("totals", m.totals.toJson),
    ("average_complexity", .text m.averageText), ("max_complexity", nat m.maxComplexity),
    ("complex", ofList (fun f => list [.text f.function.text, nat f.complexity])
      (m.complex threshold))]

/-- A report, with the functions from a complexity upwards. -/
def Report.toJson (threshold : Nat) (r : Report) : Json :=
  object [("dependencies", r.dependencies.toJson), ("has_cycles", bool r.hasCycles),
    ("cycles", texts (r.cycles.map Cycle.text)),
    ("implementations", ofList Implementation.toJson r.implementations),
    ("implementation_count", nat r.implementations.length),
    ("calls", ofList CallEdge.toJson r.calls),
    ("entry_chains", ofList (fun (f, cs) => list [.text f.text, chainsJson cs]) r.entryChains),
    ("longest_chain", ofOption functionTexts r.longestChain?),
    ("metrics", ofOption (Metrics.toJson threshold) r.metrics),
    ("degradations", ofList Degradation.toJson r.degradations)]

end CodeGraph
