import CodeGraph.Proofs.Store.Interruption
import CodeGraph.Report.Basic

/-!
# Steps that report nothing

* `Run.Silent`, `Session.Silent` — runs and sessions that leave the events as they are, whether they end
  well or not.
* `Report.silent_ofProject` — an analysis reports nothing.
* `Session.silent_importGraph` — neither does an import.
-/

namespace CodeGraph

namespace Run

variable {ε ε' α β : Type}

/-- A run that reports nothing. -/
def Silent (r : Run ε α) : Prop := ∀ signal s, (r signal s).2.events = s.events

namespace Silent

theorem events_eq {r : Run ε α} (hr : Silent r) {signal : Signal} {s s' : RunState} {o : Except ε α}
    (h : r signal s = (o, s')) : s'.events = s.events := by
  have hevents := hr signal s
  rw [h] at hevents
  exact hevents

theorem ofExcept (r : Except ε α) : Silent (ofExcept r) := fun _ _ => rfl

theorem pure (a : α) : Silent (Pure.pure a : Run ε α) := fun _ _ => rfl

theorem check (e : ε) : Silent (check e) := fun _ _ => rfl

theorem bind {r : Run ε α} {f : α → Run ε β} (hr : Silent r) (hf : ∀ a, Silent (f a)) :
    Silent (r >>= f) := by
  intro signal s
  have hfirst := hr signal s
  rw [bind_apply]
  rcases hrun : r signal s with ⟨e | a, m⟩ <;> rw [hrun] at hfirst
  · exact hfirst
  · exact (hf a signal m).trans hfirst

theorem mapError {r : Run ε α} (hr : Silent r) (f : ε → ε') : Silent (r.mapError f) := by
  intro signal s
  have hfirst := hr signal s
  unfold Run.mapError
  rcases hrun : r signal s with ⟨e | a, m⟩ <;> rw [hrun] at hfirst <;> exact hfirst

end Silent

end Run

/-- The analysis looks at the signal before each of its stages, and reports none of them. -/
theorem Report.silent_ofProject (settings : AnalysisSettings) (p : Project) :
    (Report.ofProject settings p).Silent :=
  .bind (.ofExcept _) fun _ => .bind (.check _) fun _ => .bind (.check _) fun _ =>
    .bind (.check _) fun _ => .bind (.check _) fun _ => .bind (.check _) fun _ =>
    .bind (.check _) fun _ => .pure _

namespace Session

variable {ε ε' α β : Type}

/-- A session that reports nothing. -/
def Silent (w : Session ε α) : Prop := ∀ around s, (w around s).2.run.events = s.run.events

namespace Silent

theorem events_eq {w : Session ε α} (hw : Silent w) {around : Surroundings} {s s' : SessionState}
    {o : Except ε α} (h : w around s = (o, s')) : s'.run.events = s.run.events := by
  have hevents := hw around s
  rw [h] at hevents
  exact hevents

theorem ofRun {r : Run ε α} (hr : r.Silent) : Silent (ofRun r) :=
  fun around s => hr around.signal s.run

theorem pure (a : α) : Silent (Pure.pure a : Session ε α) := fun _ _ => rfl

theorem bind {w : Session ε α} {f : α → Session ε β} (hw : Silent w) (hf : ∀ a, Silent (f a)) :
    Silent (w >>= f) := by
  intro around s
  have hfirst := hw around s
  rw [bind_apply]
  rcases hrun : w around s with ⟨e | a, m⟩ <;> rw [hrun] at hfirst
  · exact hfirst
  · exact (hf a around m).trans hfirst

theorem mapError {w : Session ε α} (hw : Silent w) (f : ε → ε') : Silent (w.mapError f) := by
  intro around s
  rw [mapError_state]
  exact hw around s

theorem statement (table : Table) (f : Tables → Except DatabaseFault (α × Tables)) :
    Silent (statement table f) :=
  fun _ _ => congrArg RunState.events (statement_run table f)

theorem createTables : Silent createTables := by
  intro around s
  rcases createTables_cases around s with ⟨n, h⟩ | ⟨fault, n, -, h⟩ <;> rw [h]

theorem transaction {seen : DatabaseFault → ε} {w : Session ε α} (hw : Silent w) :
    Silent (transaction seen w) := by
  intro around s
  rw [transaction_run]
  split
  · rfl
  · exact hw around { s with asked := s.asked + 1 }.opened

end Silent

theorem silent_clearRows (p : String) : Silent (clearRows p) :=
  .bind (.statement _ _) fun _ => .bind (.statement _ _) fun _ =>
    .bind (.statement _ _) fun _ => .pure _

theorem silent_writeRows {write : α → Session DatabaseFault Unit} (hwrite : ∀ a, Silent (write a))
    (as : List α) : Silent (writeRows write as) := by
  induction as with
  | nil => exact .pure ()
  | cons a as ih => exact .bind (hwrite a) fun _ => ih

theorem silent_writeBatches {kind : EntityKind} {label : String}
    {write : α → Session DatabaseFault Unit} (hwrite : ∀ a, Silent (write a)) (done : WriteFigures)
    (groups : List (Nat × List α)) : Silent (writeBatches kind label write done groups) := by
  induction groups generalizing done with
  | nil => exact .pure done
  | cons group groups ih =>
    have hrows := silent_writeRows hwrite group.2
    exact .bind (.ofRun (.check _)) fun _ => .bind (.mapError (.transaction hrows) _) fun _ => ih _

theorem silent_writeGroups {κ : Type} {kind : EntityKind} {word : κ → String}
    {write : α → Session DatabaseFault Unit} (hwrite : ∀ a, Silent (write a)) (done : WriteFigures)
    (groups : List (κ × List (Nat × List α))) : Silent (writeGroups kind word write done groups) := by
  induction groups generalizing done with
  | nil => exact .pure done
  | cons group groups ih => exact .bind (silent_writeBatches hwrite done group.2) fun done => ih done

/-- An import reports nothing of its batches. -/
theorem silent_importGraph (size : Nat) (now : Instant) (g : Graph) :
    Silent (importGraph size now g) := by
  have hsteps : Silent (importSteps size now g) :=
    .bind (.mapError (silent_clearRows g.projectId) _) fun _ =>
      .bind (silent_writeGroups (fun _ => .statement _ _) _ _) fun _ =>
      .bind (silent_writeGroups (fun _ => .statement _ _) _ _) fun _ =>
      .bind (.mapError (.statement _ _) _) fun _ => .pure _
  exact .bind (.ofRun (.ofExcept _)) fun _ => .bind (.ofRun (.check _)) fun _ => .transaction hsteps

end Session

end CodeGraph
