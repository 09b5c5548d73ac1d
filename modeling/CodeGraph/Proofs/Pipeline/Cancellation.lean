import CodeGraph.Pipeline.Basic
import CodeGraph.Proofs.Store.Import
import CodeGraph.Proofs.Store.Interruption

/-!
# Runs that are cancelled

* `Project.interruptible_read`, `Report.interruptible_ofProject`, `interruptible_analyzeProject` —
  the stages of a run look at the signal time and again, and each look either changes nothing or ends
  the run.
* `Store.rows` — what a store holds, where creating its tables makes no difference.
* `Session.pipeline_cancelled_or_undisturbed` — a run on a store is either cancelled and leaves no
  trace in it, or is the same as without a signal.
-/

namespace CodeGraph

/-! ### The stages -/

theorem interruptible_readSources (languages : List Language) (total finished : Nat)
    (sources : List Source) :
    (readSources languages total finished sources).Interruptible (· = .cancelled) := by
  induction sources generalizing finished with
  | nil => exact .pure []
  | cons source sources ih =>
    have hreport : (reportParsed total (finished + 1)).Interruptible (· = .cancelled) := by
      unfold reportParsed
      split
      · exact .report _ _ _ _
      · exact .pure ()
    exact .bind (.check rfl) fun _ => .bind hreport fun _ => .bind (ih _) fun _ => .pure _

theorem Project.interruptible_read (languages : List Language) (settings : ReadingSettings)
    (tree : FileTree) (path : String) :
    (Project.read languages settings tree path).Interruptible (· = .cancelled) := by
  have hworkers : (requireWorkers settings).Interruptible (· = .cancelled) := by
    unfold requireWorkers
    split
    · exact .fail _
    · exact .pure ()
  exact .bind hworkers fun _ => .bind (.ofExcept _) fun _ => .bind (.check rfl) fun _ =>
    .bind (.ofExcept _) fun _ => .bind (.report _ _ _ _) fun _ =>
    .bind (interruptible_readSources languages _ 0 _) fun _ => .bind (.check rfl) fun _ =>
    .ofExcept _

/-- The analysis looks at the signal before each of its stages. -/
theorem Report.interruptible_ofProject (settings : AnalysisSettings) (p : Project) :
    (Report.ofProject settings p).Interruptible fun e => ∃ stage, e = .cancelled stage :=
  .bind (.ofExcept _) fun _ => .bind (.check ⟨_, rfl⟩) fun _ => .bind (.check ⟨_, rfl⟩) fun _ =>
    .bind (.check ⟨_, rfl⟩) fun _ => .bind (.check ⟨_, rfl⟩) fun _ => .bind (.check ⟨_, rfl⟩) fun _ =>
    .bind (.check ⟨_, rfl⟩) fun _ => .pure _

theorem interruptible_analyzeProject (j : Job) :
    (analyzeProject j).Interruptible (·.isCancelled = true) := by
  have hread : ((Project.read Languages.standard j.settings.reading j.tree j.path).mapError
      PipelineError.read).Interruptible (·.isCancelled = true) :=
    .mapError (Project.interruptible_read _ _ _ _) fun e he => by rw [he]; rfl
  have hreport (p : Project) : ((Report.ofProject j.settings.analysis p).mapError
      PipelineError.analysis).Interruptible (·.isCancelled = true) :=
    .mapError (Report.interruptible_ofProject _ p) fun e ⟨stage, he⟩ => by rw [he]; rfl
  exact .bind (.ofExcept _) fun _ => .bind hread fun p => .bind (.report _ _ _ _) fun _ =>
    .bind (hreport p) fun _ => .bind (.report _ _ _ _) fun _ => .bind (.report _ _ _ _) fun _ =>
    .bind (.report _ _ _ _) fun _ => .pure _

/-! ### The store -/

/-- What a store holds; new tables are empty. -/
def Store.rows (s : Store) : Tables := s.tables.getD .empty

namespace Session

variable {ε ε' α β : Type}

theorem interruptible_pipeline (size : Nat) (j : Job) :
    Interruptible (·.isCancelled = true) (pipeline size j) := by
  have himport (g : Graph) :
      Interruptible (·.isCancelled = true) ((importGraph size j.now g).mapError PipelineError.store) :=
    .mapError (interruptible_importGraph size j.now g) fun e he => by rw [he]; rfl
  have htables : Interruptible (·.isCancelled = true) (createTables.mapError PipelineError.store) :=
    .mapError (Interruptible.createTables fun _ => False) fun _ => False.elim
  exact .bind (.ofRun (interruptible_analyzeProject j)) fun a =>
    .bind (.bind (.ofRun (.report _ _ _ _)) fun _ => .bind htables fun _ =>
      .bind (.ofRun (.report _ _ _ _)) fun _ => .bind (himport a.graph) fun _ =>
      .bind (.ofRun (.report _ _ _ _)) fun _ => .pure _) fun _ => .pure _

/-- Creating tables leaves the rows as they were, whether it ends well or not. -/
theorem rows_createTables {f : StoreError → ε} (around : Surroundings) (s : SessionState) :
    (createTables.mapError f around s).2.store.rows = s.store.rows := by
  rw [mapError_state]
  rcases createTables_cases around s with ⟨n, h⟩ | ⟨fault, n, -, h⟩ <;> rw [h]
  rfl

/-- A session that fails leaves the rows as they were. -/
def SparesRows (w : Session ε α) : Prop :=
  ∀ around s e s', w around s = (.error e, s') → s'.store.rows = s.store.rows

namespace SparesRows

/-- A step that never changes a row may come first. -/
theorem after {w : Session ε α} {f : α → Session ε β}
    (hw : ∀ around s, (w around s).2.store.rows = s.store.rows) (hf : ∀ a, SparesRows (f a)) :
    SparesRows (w >>= f) := by
  intro around s e s' h
  rcases bind_eq_error.mp h with hfirst | ⟨a, m, hfirst, hrest⟩
  · have hrows := hw around s
    rw [hfirst] at hrows
    exact hrows
  · have hrows := hw around s
    rw [hfirst] at hrows
    exact (hf a around m e s' hrest).trans hrows

/-- Steps that never fail may come last. -/
theorem before {w : Session ε α} {f : α → Session ε β} (hw : SparesRows w)
    (hf : ∀ a around s e s', f a around s ≠ (.error e, s')) : SparesRows (w >>= f) := by
  intro around s e s' h
  rcases bind_eq_error.mp h with hfirst | ⟨a, m, -, hrest⟩
  · exact hw around s e s' hfirst
  · exact absurd hrest (hf a around m e s')

theorem mapError {w : Session ε α} (hw : AllOrNothing w) (f : ε → ε') :
    SparesRows (w.mapError f) := by
  intro around s e s' h
  have hstate : (w.mapError f around s).2 = (w around s).2 := mapError_state f w
  rw [h] at hstate
  rcases hrun : w around s with ⟨e' | a, m⟩
  · rw [hrun] at hstate
    rw [show s' = m from hstate, hw around s e' m hrun]
  · rw [Session.mapError, hrun] at h
    cases h

end SparesRows

/-- A run that fails, for whatever reason, leaves the rows as they were: the import alone writes rows,
and an import that fails has undone what it wrote. -/
theorem sparesRows_pipeline (size : Nat) (j : Job) : SparesRows (pipeline size j) :=
  .after (fun _ _ => rfl) fun _ =>
    .before (.after (fun _ _ => rfl) fun _ => .after rows_createTables fun _ =>
      .after (fun _ _ => rfl) fun _ => .before (.mapError allOrNothing_importGraph _)
        fun _ _ _ _ _ h => nomatch h) fun _ _ _ _ _ h => nomatch h

/-- **A run is cancelled without a trace or not at all.**  Whatever the signal, either the run ends
with an error that says so, the store holds what it held, and the events are the first ones of the
run without a signal; or the run is the same in its outcome, its events and the store it leaves. -/
theorem pipeline_cancelled_or_undisturbed (size : Nat) (j : Job) (around : Surroundings)
    (store : Store) :
    let run := (pipeline size j).performIn around store
    let undisturbed := (pipeline size j).performIn around.undisturbed store
    (∃ e, run.outcome = .error e ∧ e.isCancelled = true ∧ run.store.rows = store.rows ∧
        run.events <+: undisturbed.events) ∨
      run.outcome = undisturbed.outcome ∧ run.events = undisturbed.events ∧
        run.store = undisturbed.store := by
  intro run undisturbed
  rcases (interruptible_pipeline size j).stops around (.start store) with
    hsame | ⟨e, s', hrun, he, hevents⟩
  · right
    simp only [run, undisturbed, performIn, hsame, and_self]
  · left
    have hrun' : run = ⟨.error e, s'.run.events.reverse, s'.store⟩ := by
      simp only [run, performIn, hrun]
    refine ⟨e, by rw [hrun'], he, ?_, ?_⟩
    · rw [hrun']
      exact sparesRows_pipeline size j around _ e s' hrun
    · rw [hrun']
      exact List.reverse_prefix.mpr hevents

end Session

end CodeGraph
