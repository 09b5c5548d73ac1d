import CodeGraph.Pipeline.Basic
import CodeGraph.Proofs.Pipeline.Cancellation
import CodeGraph.Proofs.Project.Files
import CodeGraph.Proofs.Report.Basic
import CodeGraph.Proofs.Store.Silence

/-!
# The events of a run

* `announced` — after how many files the reading of so many files reports.
* `parseEvents`, `Analysis.events`, `ImportFigures.events` — the events of the stages of a run.
* `Session.pipeline_events` — a run that ends well reports these, in this order, and nothing else.
* `Session.pipeline_ends_well` — what it takes for a run to end well.
-/

namespace CodeGraph

/-- Whether a report is due after so many of all files. -/
def announces (total finished : Nat) : Bool :=
  finished % max 1 (total / 10) = 0 || finished = total

/-- After how many files a report is due. -/
def announced (total : Nat) : List Nat := (List.range' 1 total).filter (announces total)

/-- The event that is due after so many of all files. -/
def parsedEvent (total finished : Nat) : Event :=
  ⟨.parse, ⟨finished, max 1 total⟩,
    "parsed " ++ toString finished ++ "/" ++ toString total ++ " files"⟩

/-- The event before the first of so many files. -/
def startEvent (total : Nat) : Event := ⟨.parse, ⟨0, 1⟩, toString total ++ " files to parse"⟩

/-- The events of reading so many files. -/
def parseEvents (total : Nat) : List Event :=
  startEvent total :: (announced total).map (parsedEvent total)

/-- The events of an analysis and of the building of its graph. -/
def Analysis.events (a : Analysis) : List Event :=
  [⟨.analyze, ⟨0, 1⟩, "analyzing relationships"⟩,
    ⟨.analyze, ⟨1, 1⟩, toString a.report.cycles.length ++ " cycles, " ++
      toString a.report.implementations.length ++ " implementations, " ++
      toString a.report.calls.length ++ " calls"⟩,
    ⟨.build, ⟨0, 1⟩, "building graph model"⟩,
    ⟨.build, ⟨1, 1⟩, toString a.graph.nodes.length ++ " nodes, " ++
      toString a.graph.relationships.length ++ " relationships"⟩]

/-- The events of writing a graph to a store. -/
def ImportFigures.events (f : ImportFigures) : List Event :=
  [⟨.persist, ⟨0, 1⟩, "preparing store"⟩, ⟨.persist, ⟨1, 10⟩, "importing"⟩,
    ⟨.persist, ⟨1, 1⟩, toString f.nodesWritten ++ " nodes, " ++ toString f.relationshipsWritten ++
      " relationships written"⟩]

/-! ### Stages that end well -/

section Stages

variable {languages : List Language} {settings : ReadingSettings} {tree : FileTree} {path : String}
  {signal : Signal} {s s' : RunState}

theorem reportParsed_apply (total finished : Nat) :
    reportParsed total finished signal s =
      (.ok (), ⟨s.looks,
        (if announces total finished then [parsedEvent total finished] else []) ++ s.events⟩) := by
  unfold reportParsed announces
  split
  · rfl
  · rfl

/-- Files are read one after the other; each that is due is announced when it is finished. -/
theorem readSources_events {total finished : Nat} {sources : List Source}
    {outcomes : List (Except FileIssue SourceFile)}
    (h : readSources languages total finished sources signal s = (.ok outcomes, s')) :
    s'.events = (((List.range' (finished + 1) sources.length).filter (announces total)).map
      (parsedEvent total)).reverse ++ s.events := by
  induction sources generalizing finished s s' outcomes with
  | nil =>
    obtain ⟨-, rfl⟩ := Run.pure_eq_ok.mp h
    rfl
  | cons source rest ih =>
    obtain ⟨_, m₁, hcheck, h⟩ := Run.bind_eq_ok.mp h
    obtain ⟨_, m₂, hreport, h⟩ := Run.bind_eq_ok.mp h
    obtain ⟨others, m₃, hrest, h⟩ := Run.bind_eq_ok.mp h
    obtain ⟨-, rfl⟩ := Run.pure_eq_ok.mp h
    obtain ⟨-, rfl⟩ := Run.check_eq_ok.mp hcheck
    rw [reportParsed_apply] at hreport
    obtain ⟨-, rfl⟩ := Prod.mk.inj hreport
    rw [ih hrest, List.length_cons, List.range'_succ]
    by_cases hdue : announces total (finished + 1) = true
    · rw [List.filter_cons_of_pos hdue, if_pos hdue]
      simp
    · rw [List.filter_cons_of_neg hdue, if_neg hdue]
      simp

theorem assemble_nil (root : String) (module : Option String) (found : List FileIssue) :
    assemble root module found [] = .error (.noPackages root) := by
  rw [assemble]
  simp [filesRead, groupPackages_nil]

/-- A project that is read has at least one source. -/
theorem Project.read_events {p : Project}
    (h : Project.read languages settings tree path signal s = (.ok p, s')) :
    ∃ place found, rootPlace tree path = .ok place ∧
      discoverAt languages settings tree (placeText place) = .ok found ∧ 1 ≤ found.sources.length ∧
      s'.events = (parseEvents found.sources.length).reverse ++ s.events := by
  obtain ⟨_, m₁, hworkers, h⟩ := Run.bind_eq_ok.mp h
  obtain ⟨place, m₂, hplace, h⟩ := Run.bind_eq_ok.mp h
  obtain ⟨_, m₃, hcheck, h⟩ := Run.bind_eq_ok.mp h
  obtain ⟨found, m₄, hfound, h⟩ := Run.bind_eq_ok.mp h
  obtain ⟨_, m₅, hstart, h⟩ := Run.bind_eq_ok.mp h
  obtain ⟨outcomes, m₆, houtcomes, h⟩ := Run.bind_eq_ok.mp h
  obtain ⟨_, m₇, hcheck', h⟩ := Run.bind_eq_ok.mp h
  obtain ⟨hassemble, rfl⟩ := Run.ofExcept_eq_ok.mp h
  obtain ⟨hroot, rfl⟩ := Run.ofExcept_eq_ok.mp hplace
  obtain ⟨hdiscovered, rfl⟩ := Run.ofExcept_eq_ok.mp hfound
  obtain ⟨-, rfl⟩ := Run.check_eq_ok.mp hcheck
  obtain ⟨-, rfl⟩ := Run.check_eq_ok.mp hcheck'
  obtain rfl := Run.report_eq_ok.mp hstart
  have hsame : s = m₁ := by
    unfold requireWorkers at hworkers
    split at hworkers
    · cases hworkers
    · exact (Run.pure_eq_ok.mp hworkers).2
  subst hsame
  refine ⟨place, found, hroot, hdiscovered, ?_, ?_⟩
  · rw [readSources_eq_ok houtcomes] at hassemble
    cases hsources : found.sources with
    | nil =>
      rw [hsources, List.map_nil, assemble_nil] at hassemble
      cases hassemble
    | cons source rest => exact Nat.succ_le_succ (Nat.zero_le _)
  · have hfiles := readSources_events houtcomes
    rw [Nat.zero_add] at hfiles
    rw [hfiles, parseEvents, List.reverse_cons, List.append_assoc]
    rfl

theorem analyzeProject_events {j : Job} {a : Analysis}
    (h : analyzeProject j signal s = (.ok a, s')) :
    ∃ place found, rootPlace j.tree j.path = .ok place ∧
      discoverAt Languages.standard j.settings.reading j.tree (placeText place) = .ok found ∧
      1 ≤ found.sources.length ∧
      s'.events = (parseEvents found.sources.length ++ a.events).reverse ++ s.events := by
  obtain ⟨_, m₁, hcheck, h⟩ := Run.bind_eq_ok.mp h
  obtain ⟨p, m₂, hread, h⟩ := Run.bind_eq_ok.mp h
  obtain ⟨_, m₃, hanalyze, h⟩ := Run.bind_eq_ok.mp h
  obtain ⟨report, m₄, hreport, h⟩ := Run.bind_eq_ok.mp h
  obtain ⟨_, m₅, hanalyzed, h⟩ := Run.bind_eq_ok.mp h
  obtain ⟨_, m₆, hbuild, h⟩ := Run.bind_eq_ok.mp h
  obtain ⟨_, m₇, hbuilt, h⟩ := Run.bind_eq_ok.mp h
  obtain ⟨rfl, rfl⟩ := Run.pure_eq_ok.mp h
  obtain ⟨-, rfl⟩ := Run.ofExcept_eq_ok.mp hcheck
  obtain ⟨place, found, hplace, hfound, hsome, hparse⟩ :=
    Project.read_events (Run.mapError_eq_ok.mp hread)
  have hsilent : m₄.events = m₃.events :=
    ((Report.silent_ofProject _ p).mapError _).events_eq hreport
  obtain rfl := Run.report_eq_ok.mp hbuilt
  obtain rfl := Run.report_eq_ok.mp hbuild
  obtain rfl := Run.report_eq_ok.mp hanalyzed
  obtain rfl := Run.report_eq_ok.mp hanalyze
  refine ⟨place, found, hplace, hfound, hsome, ?_⟩
  simp only [hsilent, hparse, List.reverse_append, List.append_assoc]
  rfl

end Stages

namespace Session

variable {size : Nat} {around : Surroundings}

theorem persist_events {now : Instant} {g : Graph} {s s' : SessionState} {f : ImportFigures}
    (h : persist size now g around s = (.ok f, s')) :
    s'.run.events = f.events.reverse ++ s.run.events := by
  obtain ⟨_, m₁, hstart, h⟩ := bind_eq_ok.mp h
  obtain ⟨_, m₂, htables, h⟩ := bind_eq_ok.mp h
  obtain ⟨_, m₃, hwrite, h⟩ := bind_eq_ok.mp h
  obtain ⟨figures, m₄, himport, h⟩ := bind_eq_ok.mp h
  obtain ⟨_, m₅, hdone, h⟩ := bind_eq_ok.mp h
  obtain ⟨rfl, rfl⟩ := pure_eq_ok.mp h
  have hsilent : m₄.run.events = m₃.run.events :=
    ((silent_importGraph size now g).mapError _).events_eq himport
  have hcreated : m₂.run.events = m₁.run.events := (Silent.createTables.mapError _).events_eq htables
  obtain ⟨-, rfl⟩ := Prod.mk.inj hstart
  obtain ⟨-, rfl⟩ := Prod.mk.inj hwrite
  obtain ⟨-, rfl⟩ := Prod.mk.inj hdone
  show _ :: m₄.run.events = _
  rw [hsilent]
  show _ :: _ :: m₂.run.events = _
  rw [hcreated]
  rfl

/-- **The events of a run that ends well**: those of its files, of the analysis and of the import, and
no others. -/
theorem pipeline_events {j : Job} {store : Store} {a : Analysis} {f : ImportFigures}
    (h : ((pipeline size j).performIn around store).outcome = .ok (a, f)) :
    ∃ place found, rootPlace j.tree j.path = .ok place ∧
      discoverAt Languages.standard j.settings.reading j.tree (placeText place) = .ok found ∧
      1 ≤ found.sources.length ∧
      ((pipeline size j).performIn around store).events =
        parseEvents found.sources.length ++ (a.events ++ f.events) := by
  rcases hrun : pipeline size j around (.start store) with ⟨outcome, s'⟩
  simp only [performIn, hrun] at h ⊢
  rw [h] at hrun
  obtain ⟨a', m, hanalysis, hrest⟩ := bind_eq_ok.mp hrun
  obtain ⟨f', m', hpersist, hpure⟩ := bind_eq_ok.mp hrest
  obtain ⟨hpair, rfl⟩ := pure_eq_ok.mp hpure
  obtain ⟨rfl, rfl⟩ := Prod.mk.inj hpair
  rcases hanalyze : analyzeProject j around.signal ⟨0, []⟩ with ⟨outcome', run⟩
  have hofRun : (outcome', (⟨run, store, [], 0⟩ : SessionState)) = (.ok a', m) := by
    rw [← hanalysis]
    show _ = ofRun (analyzeProject j) around (.start store)
    simp only [ofRun, SessionState.start, hanalyze]
  obtain ⟨rfl, rfl⟩ := Prod.mk.inj hofRun
  obtain ⟨place, found, hplace, hfound, hsome, hevents⟩ := analyzeProject_events hanalyze
  refine ⟨place, found, hplace, hfound, hsome, ?_⟩
  rw [persist_events hpersist]
  show (f'.events.reverse ++ run.events).reverse = _
  rw [hevents]
  simp

end Session

/-! ### Runs that end well -/

theorem Settings.check_analysis {s : Settings} (h : s.check = .ok ()) : s.analysis.check = .ok () := by
  unfold Settings.check at h
  simp only [bind, Except.bind, throw, throwThe, MonadExceptOf.throw] at h
  split at h
  · cases h
  · split at h
    · cases h
    · split at h
      · cases h
      next hc => exact hc

/-- What a run finds out about a project that was read. -/
def Job.analysis (j : Job) (p : Project) : Analysis :=
  let report := Report.found j.settings.analysis p
  ⟨p, report, Graph.ofReport (.ofPolicy j.seed j.projectId j.settings.identity) j.now j.projectId p
    report⟩

theorem analyzeProject_apply {j : Job} {p : Project} {s m : RunState} (hcheck : j.settings.check = .ok ())
    (hread : Project.read Languages.standard j.settings.reading j.tree j.path .never s = (.ok p, m)) :
    analyzeProject j .never s =
      (.ok (j.analysis p), ⟨m.looks + 6, (j.analysis p).events.reverse ++ m.events⟩) := by
  refine Run.bind_eq_ok.mpr ⟨(), s, Run.ofExcept_eq_ok.mpr ⟨by rw [hcheck]; rfl, rfl⟩, ?_⟩
  refine Run.bind_eq_ok.mpr ⟨p, m, Run.mapError_eq_ok.mpr hread, ?_⟩
  refine Run.bind_eq_ok.mpr ⟨(), _, Run.report_eq_ok.mpr rfl, ?_⟩
  exact Run.bind_eq_ok.mpr ⟨_, _, Run.mapError_eq_ok.mpr
    (Report.ofProject_apply p (Settings.check_analysis hcheck) _), rfl⟩

namespace Session

theorem persist_ends_well (size : Nat) (now : Instant) {around : Surroundings} {s : SessionState}
    {g : Graph} (calm : around.Calm) (hrows : s.store.rows.Consistent)
    (hgraph : g.Importable s.store.rows) :
    ∃ f s', persist size now g around s = (.ok f, s') := by
  have hleads : Leads (importGraph size now g) _ _ _ := importGraph_leads_of_importable hrows hgraph
  obtain ⟨n, htables⟩ := createTables_of_calm calm { s with
    run := ⟨s.run.looks, ⟨.persist, ⟨0, 1⟩, "preparing store"⟩ :: s.run.events⟩ }
  -- the tables are there before the import, and two events are reported
  obtain ⟨m, himport, -⟩ := hleads around
    { s with
      run := ⟨s.run.looks, ⟨.persist, ⟨1, 10⟩, "importing"⟩ ::
        ⟨.persist, ⟨0, 1⟩, "preparing store"⟩ :: s.run.events⟩
      store := s.store.withSchema
      asked := n } calm rfl
  let f := importFigures size g s.store.rows
  refine ⟨f, { m with run := ⟨m.run.looks, ⟨.persist, ⟨1, 1⟩, toString f.nodesWritten ++ " nodes, " ++
    toString f.relationshipsWritten ++ " relationships written"⟩ :: m.run.events⟩ }, ?_⟩
  refine bind_eq_ok.mpr ⟨(), _, rfl, bind_eq_ok.mpr ⟨(), _, mapError_eq_ok.mpr htables,
    bind_eq_ok.mpr ⟨(), _, rfl, ?_⟩⟩⟩
  exact bind_eq_ok.mpr ⟨f, m, mapError_eq_ok.mpr himport, rfl⟩

/-- A run that nobody cancels ends well if the project can be read and its graph can be imported. -/
theorem pipeline_ends_well (size : Nat) {j : Job} {around : Surroundings} {store : Store}
    {p : Project} (calm : around.Calm) (hsettings : j.settings.check = .ok ())
    (hread : (Project.read Languages.standard j.settings.reading j.tree j.path).outcome .never = .ok p)
    (hrows : store.rows.Consistent)
    (hgraph : (j.analysis p).graph.Importable store.rows) :
    ∃ a f, ((pipeline size j).performIn around store).outcome = .ok (a, f) := by
  have hsignal : around.signal = .never := by
    funext looks events
    exact calm.1 looks events
  obtain ⟨m, hm⟩ := Run.outcome_eq_ok.mp hread
  let analysed : SessionState :=
    ⟨⟨m.looks + 6, (j.analysis p).events.reverse ++ m.events⟩, store, [], 0⟩
  obtain ⟨f, s', hpersist⟩ : ∃ f s', persist size j.now (j.analysis p).graph around analysed =
      (.ok f, s') := persist_ends_well size j.now calm hrows hgraph
  have hrun : pipeline size j around (.start store) = (.ok (j.analysis p, f), s') := by
    refine bind_eq_ok.mpr ⟨j.analysis p, analysed, ?_, bind_eq_ok.mpr ⟨f, s', hpersist, rfl⟩⟩
    simp only [ofRun, SessionState.start, hsignal, analyzeProject_apply hsettings hm, analysed]
  refine ⟨j.analysis p, f, ?_⟩
  simp only [performIn, hrun]

end Session

end CodeGraph
