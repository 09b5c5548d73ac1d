import CodeGraph.Imports.Cycle
import CodeGraph.Names.Order
import CodeGraph.Project.Basic

/-!
# Dependencies between packages

* `Dependencies` — which package of a project imports which, in how many files, and what is imported
  from outside.
* `Dependencies.ofPackages` — read off the imports of all files.
* `Dependencies.cycles` — the cycles that a depth-first search closes.
* `Dependencies.mark` — flags the dependencies that lie on given cycles.
-/

namespace CodeGraph

/-- An import of one package of a project by another. -/
structure Dependency where
  source : String
  target : String
  /-- Number of files of the source that import the target. -/
  weight : Nat
  inCycle : Bool
  deriving DecidableEq, Repr, Inhabited

/-- The dependencies between packages. -/
structure Dependencies where
  /-- The import paths of all packages. -/
  packages : List String
  /-- By source and target. -/
  edges : List Dependency
  /-- The import paths that belong to no package, in their order. -/
  externals : List String
  deriving DecidableEq, Repr, Inhabited

namespace Dependencies

/-- The paths that a file imports. -/
def importsOf (f : SourceFile) : List String := f.imports.map (·.path)

/-- The files of all packages with an import path. -/
def filesOf (ps : List Package) (path : String) : List SourceFile :=
  (ps.filter (·.importPath = path)).flatMap (·.files)

/-- The dependencies of one import path on the packages with the given paths. -/
def edgesOf (paths : List String) (files : List SourceFile) (source : String) :
    List Dependency :=
  let targets := sortedDistinct
    ((files.flatMap importsOf).filter fun target => target ≠ source && paths.contains target)
  targets.map fun target =>
    ⟨source, target, files.countP fun f => (importsOf f).contains target, false⟩

/-- The dependencies between packages. -/
def ofPackages (ps : List Package) : Dependencies :=
  let paths := ps.map (·.importPath)
  { packages := paths
    edges := (sortedDistinct paths).flatMap fun source => edgesOf paths (filesOf ps source) source
    externals := sortedDistinct ((ps.flatMap fun p => p.files.flatMap importsOf).filter
      fun path => !paths.contains path) }

/-- The packages that a package imports, in their order. -/
def targets (d : Dependencies) (source : String) : List String :=
  (d.edges.filter (·.source = source)).map (·.target)

/-! ### Cycles -/

/-- What a depth-first search has seen: the packages visited and the cycles closed. -/
structure SearchState where
  visited : List String
  found : List Cycle

/-- Visit a package; `stack` holds those it was reached through, the nearest first, and `fuel` bounds
their number. -/
def visit (next : String → List String) :
    (fuel : Nat) → (stack : List String) → SearchState → String → SearchState
  | 0, _, s, _ => s
  | fuel + 1, stack, s, p =>
    (next p).foldl (fun s target =>
      if (p :: stack).contains target then
        let members := target :: ((p :: stack).takeWhile (· ≠ target)).reverse
        { s with found := Cycle.canonical members :: s.found }
      else if s.visited.contains target then s
      else visit next fuel (p :: stack) s target)
      { s with visited := p :: s.visited }

/-- The search from every package in turn that has not been visited. -/
def search (next : String → List String) (packages : List String) : SearchState :=
  packages.foldl (fun s p =>
    if s.visited.contains p then s else visit next (packages.length + 1) [] s p) ⟨[], []⟩

/-- The cycles that the search closes, each once, in their order. -/
def cycles (d : Dependencies) : List Cycle :=
  let found := (search d.targets (sortedDistinct d.packages)).found
  firstOfEach Cycle.packages (found.mergeSort Cycle.lessOrEqual)

/-! ### Flags -/

/-- The ends of a dependency. -/
def ends (e : Dependency) : String × String := (e.source, e.target)

/-- Flag the first dependency of one package on another, if there is one. -/
def flagFirst (pair : String × String) : List Dependency → List Dependency
  | [] => []
  | e :: es =>
    if ends e = pair then { e with inCycle := true } :: es
    else e :: flagFirst pair es

/-- Flag the dependency of one package on another, which is looked for where both are known. -/
def flag (packages : List String) (es : List Dependency) (pair : String × String) : List Dependency :=
  if packages.contains pair.1 && packages.contains pair.2 then flagFirst pair es else es

/-- Flag the dependencies along several cycles, one cycle after the other. -/
def mark (d : Dependencies) (cs : List Cycle) : Dependencies :=
  { d with edges := cs.foldl (fun es c => c.edges.foldl (flag d.packages) es) d.edges }

end Dependencies

end CodeGraph
