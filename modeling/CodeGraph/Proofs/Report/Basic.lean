import CodeGraph.Proofs.Imports.Dependency
import CodeGraph.Proofs.Lists
import CodeGraph.Proofs.Names.Order
import CodeGraph.Proofs.Run.Basic
import CodeGraph.Report.Basic

/-!
# What an analysis finds

* `Report.found` — the report on a project; `Report.ofProject_eq_ok` says that an analysis that is not
  cancelled ends with it.
* `Dependencies.nodup_edges_mark`, `SymbolTable.nodup_implementations`, `nodup_keys_resolveCalls` —
  nothing is found twice.
-/

namespace CodeGraph

/-! ### The report -/

/-- The report on a project. -/
def Report.found (settings : AnalysisSettings) (p : Project) : Report :=
  let symbols := SymbolTable.ofProject p
  let dependencies := Dependencies.ofPackages p.packages
  let cycles := if settings.cycles then dependencies.cycles else []
  let implementations := symbols.implementations
  let calls := resolveCalls ⟨symbols, implementations, settings.dispatch⟩ p.packages
  let chains := chainsOf (.ofEdges calls) settings.chainDepth.toNat (entryPoints p.packages)
  { dependencies := dependencies.mark cycles
    cycles, implementations, calls
    entryChains := chains.1
    metrics := if settings.metrics then some (Metrics.ofPackages p.packages calls) else none
    degradations := symbols.flattenDegradations ++ chains.2 }

/-- An analysis that is not cancelled ends with the report on the project. -/
theorem Report.ofProject_eq_ok {settings : AnalysisSettings} {p : Project} {signal : Signal}
    {r : Report} (h : (Report.ofProject settings p).outcome signal = .ok r) :
    r = Report.found settings p := by
  obtain ⟨s', h⟩ := Run.outcome_eq_ok.mp h
  obtain ⟨_, m₀, -, h⟩ := Run.bind_eq_ok.mp h
  obtain ⟨_, m₁, -, h⟩ := Run.bind_eq_ok.mp h
  obtain ⟨_, m₂, -, h⟩ := Run.bind_eq_ok.mp h
  obtain ⟨_, m₃, -, h⟩ := Run.bind_eq_ok.mp h
  obtain ⟨_, m₄, -, h⟩ := Run.bind_eq_ok.mp h
  obtain ⟨_, m₅, -, h⟩ := Run.bind_eq_ok.mp h
  obtain ⟨_, m₆, -, h⟩ := Run.bind_eq_ok.mp h
  exact (Run.pure_eq_ok.mp h).1.symm

/-- Nobody stops the analysis of a project, which looks at the signal six times. -/
theorem Report.ofProject_apply {settings : AnalysisSettings} (p : Project)
    (hcheck : settings.check = .ok ()) (s : RunState) :
    Report.ofProject settings p .never s =
      (.ok (Report.found settings p), ⟨s.looks + 6, s.events⟩) := by
  simp only [Report.ofProject, hcheck]
  rfl

theorem Report.ofProject_never {settings : AnalysisSettings} (p : Project)
    (hcheck : settings.check = .ok ()) :
    (Report.ofProject settings p).outcome .never = .ok (Report.found settings p) :=
  Run.outcome_eq_ok.mpr ⟨_, Report.ofProject_apply p hcheck _⟩

/-! ### Dependencies -/

namespace Dependencies

/-- No two dependencies lead from one package to one other. -/
theorem nodup_ends_mark (ps : List Package) (cs : List Cycle) :
    (((ofPackages ps).mark cs).edges.map ends).Nodup :=
  ((sound_ofPackages ps).mark cs).nodup

theorem nodup_edges_mark (ps : List Package) (cs : List Cycle) :
    ((ofPackages ps).mark cs).edges.Nodup :=
  List.Nodup.of_map ends (nodup_ends_mark ps cs)

end Dependencies

/-! ### Implementations -/

namespace SymbolTable

theorem nodup_importPaths (ps : List Package) :
    ((ofPackages ps).packages.map (·.importPath)).Nodup :=
  nodup_keys_firstOfEach Package.importPath ps.reverse

theorem nodup_typesOfForm (ps : List Package) (form : TypeForm) :
    ((ofPackages ps).typesOfForm form).Nodup := by
  refine nodup_flatMap_of_keys Package.importPath TypeId.package (nodup_importPaths ps) ?_ ?_
  · intro p _ k hk
    obtain ⟨n, -, rfl⟩ := List.mem_map.mp hk
    rfl
  · intro p _
    refine (nodup_sortedDistinct _).map fun a b hab => ?_
    exact congrArg TypeId.name hab

/-- No implementation of a project is found twice. -/
theorem nodup_implementations (ps : List Package) : (ofPackages ps).implementations.Nodup := by
  refine nodup_flatMap_of_keys id Implementation.interface ?_ ?_ ?_
  · rw [List.map_id]
    exact nodup_typesOfForm ps .interface
  · intro interface _ i hi
    split at hi
    next required _ =>
      unfold Implementation.ofInterface at hi
      split at hi
      · cases hi
      · obtain ⟨set, -, hset⟩ := List.mem_filterMap.mp hi
        obtain ⟨pointer, -, rfl⟩ := Option.map_eq_some_iff.mp hset
        rfl
    next => cases hi
  · intro interface _
    split
    next required _ =>
      unfold Implementation.ofInterface
      split
      · exact List.nodup_nil
      · -- an implementation names its struct, and a struct is listed once
        have hstructs : ((ofPackages ps).methodSets.map (·.1)).Nodup := by
          rw [methodSets, List.map_map]
          exact (List.map_id _).symm ▸ nodup_typesOfForm ps .struct
        refine List.Nodup.of_map Implementation.struct (List.Sublist.nodup ?_ hstructs)
        refine map_filterMap_sublist Prod.fst Implementation.struct fun set _ i hi => ?_
        obtain ⟨pointer, -, rfl⟩ := Option.map_eq_some_iff.mp hi
        rfl
    next => exact List.nodup_nil

end SymbolTable

/-! ### Calls -/

/-- No two call edges have one caller, target and kind. -/
theorem nodup_keys_resolveCalls (r : Resolver) (ps : List Package) :
    ((resolveCalls r ps).map CallEdge.key).Nodup :=
  nodup_keys_firstOfEach CallEdge.key _

end CodeGraph
