import CodeGraph.Calls.Chain
import CodeGraph.Decimal.Rounding
import CodeGraph.Project.Basic

/-!
# Metrics

* `FunctionMetrics`, `PackageMetrics` — figures for every function and every package.
* `callPairs` — who calls whom, each pair once.
* `Metrics.ofPackages` — the figures of a project, with their totals.
* `Metrics.complex` — the functions from a complexity upwards, the most complex first.
-/

namespace CodeGraph

/-- Figures for a function. -/
structure FunctionMetrics where
  function : FunctionId
  file : String
  complexity : Nat
  lines : Nat
  callSites : Nat
  /-- Number of functions of the project that it calls. -/
  fanOut : Nat
  /-- Number of functions of the project that call it. -/
  fanIn : Nat
  deriving DecidableEq, Repr, Inhabited

/-- Figures for a package, or for all of them under the empty name. -/
structure PackageMetrics where
  package : String
  files : Nat
  lines : Nat
  functions : Nat
  methods : Nat
  structs : Nat
  interfaces : Nat
  constants : Nat
  vars : Nat
  imports : Nat
  deriving DecidableEq, Repr, Inhabited

namespace PackageMetrics

/-- The figures of a package. -/
def ofPackage (p : Package) : PackageMetrics :=
  let functions := p.files.flatMap (·.functions)
  let types := p.files.flatMap (·.types)
  let values := p.files.flatMap (·.values)
  { package := p.importPath
    files := p.files.length
    lines := sumOf (·.lineCount) p.files
    functions := functions.countP fun f => !f.isMethod
    methods := functions.countP (·.isMethod)
    structs := types.countP (·.form = .struct)
    interfaces := types.countP (·.form = .interface)
    constants := values.countP (·.form = .constant)
    vars := values.countP (·.form = .variable)
    imports := sumOf (·.imports.length) p.files }

/-- The figures of no package. -/
def blank : PackageMetrics := ⟨"", 0, 0, 0, 0, 0, 0, 0, 0, 0⟩

/-- Figures with those of another package added. -/
def absorb (m other : PackageMetrics) : PackageMetrics :=
  { package := m.package
    files := m.files + other.files
    lines := m.lines + other.lines
    functions := m.functions + other.functions
    methods := m.methods + other.methods
    structs := m.structs + other.structs
    interfaces := m.interfaces + other.interfaces
    constants := m.constants + other.constants
    vars := m.vars + other.vars
    imports := m.imports + other.imports }

/-- The figures of several packages together. -/
def total (ms : List PackageMetrics) : PackageMetrics := ms.foldl absorb blank

end PackageMetrics

/-- The figures of a project. -/
structure Metrics where
  functions : List FunctionMetrics
  packages : List PackageMetrics
  totals : PackageMetrics
  deriving DecidableEq, Repr, Inhabited

/-- The functions of the project that call each other, each pair once, in however many ways the one
calls the other. -/
def callPairs (calls : List CallEdge) : List (FunctionId × FunctionId) :=
  (CallGraph.resolvedPairs calls).eraseDups

namespace Metrics

/-- The figures of the functions of a package, given who calls whom. -/
def ofFunctions (pairs : List (FunctionId × FunctionId)) (p : Package) : List FunctionMetrics :=
  p.files.flatMap fun file => file.functions.map fun f =>
    let id := FunctionId.ofDecl p.importPath f
    { function := id
      file := file.path
      complexity := f.complexity
      lines := f.span.lineCount
      callSites := f.calls.length
      fanOut := pairs.countP (·.1 = id)
      fanIn := pairs.countP (·.2 = id) }

/-- The figures of packages with the given calls. -/
def ofPackages (ps : List Package) (calls : List CallEdge) : Metrics :=
  let packages := ps.map PackageMetrics.ofPackage
  ⟨ps.flatMap (ofFunctions (callPairs calls)), packages, .total packages⟩

/-- The average complexity of the functions; zero where there are none. -/
def averageComplexity (m : Metrics) : Decimal.Quotient :=
  if m.functions.isEmpty then ⟨0, 1⟩
  else ⟨sumOf (·.complexity) m.functions, m.functions.length⟩

/-- The average with six decimal places, after rounding it to fifty-three binary digits. -/
def averageText (m : Metrics) : String :=
  Decimal.sixPlaces (Decimal.nearestBinary 53 m.averageComplexity)

/-- The greatest complexity; zero where there are no functions. -/
def maxComplexity (m : Metrics) : Nat := (m.functions.map (·.complexity)).foldl max 0

/-- The functions from a complexity upwards, the most complex first. -/
def complex (m : Metrics) (threshold : Nat) : List FunctionMetrics :=
  (m.functions.filter fun f => threshold ≤ f.complexity).mergeSort fun a b =>
    b.complexity ≤ a.complexity

end Metrics

end CodeGraph
