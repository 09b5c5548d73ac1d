import CodeGraph.Proofs.Run.Interruption
import CodeGraph.Proofs.Store.Session
import CodeGraph.Store.Import

/-!
# What a signal does to a session

* `Session.Interruptible` — as for runs: a signal makes no difference to a session, or stops it with
  an error that says so.  The database turns down the same requests with the signal and without.
* `Session.Interruptible.transaction` — this holds of a transaction if it holds of its steps.
* `Session.interruptible_importGraph` — this holds of an import, which looks at the signal before
  every batch.
-/

namespace CodeGraph

/-- The same surroundings without a signal. -/
def Surroundings.undisturbed (around : Surroundings) : Surroundings := ⟨.never, around.refusal⟩

namespace Session

variable {ε ε' α β : Type} {stopped : ε → Prop} {around : Surroundings} {s : SessionState}

/-- A signal either makes no difference to a session, or stops it with an error that says so, after
some of the first events. -/
structure Interruptible (stopped : ε → Prop) (w : Session ε α) : Prop where
  adds : ∀ around s, s.run.events <:+ (w around s).2.run.events
  stops : ∀ around s, w around s = w around.undisturbed s ∨
    ∃ e s', w around s = (.error e, s') ∧ stopped e ∧
      s'.run.events <:+ (w around.undisturbed s).2.run.events

/-- A statement reports nothing. -/
theorem statement_run (table : Table) (f : Tables → Except DatabaseFault (α × Tables)) :
    (statement table f around s).2.run = s.run := by
  rw [statement, bind_apply, request_apply]
  cases around.refusal s.asked with
  | some fault => rfl
  | none =>
    simp only [onTables]
    split <;> rfl

/-- A transaction reports what its steps report. -/
theorem transaction_run (seen : DatabaseFault → ε) (w : Session ε α) :
    (transaction seen w around s).2.run =
      if (around.refusal s.asked).isSome then s.run
      else (w around { s with asked := s.asked + 1 }.opened).2.run := by
  have hback (m : SessionState) : m.rolledBack.run = m.run := by
    unfold SessionState.rolledBack
    split <;> rfl
  rw [transaction_apply]
  split
  next hrefusal => simp only [hrefusal, Option.isSome_some, if_true]
  next hrefusal =>
    simp only [hrefusal, Option.isSome_none, Bool.false_eq_true, if_false]
    split
    next hrun => rw [hrun, hback]
    next hrun =>
      rw [hrun]
      split
      · exact hback _
      · rfl

namespace Interruptible

/-- A step that does not look at the signal and reports nothing is not affected. -/
theorem ofSilent {w : Session ε α} (hsame : ∀ around s, w around s = w around.undisturbed s)
    (hrun : ∀ around s, (w around s).2.run = s.run) : Interruptible stopped w where
  adds around s := (hrun around s).symm ▸ List.suffix_rfl
  stops around s := Or.inl (hsame around s)

theorem pure (a : α) : Interruptible stopped (Pure.pure a : Session ε α) :=
  .ofSilent (fun _ _ => rfl) fun _ _ => rfl

theorem statement {stopped : DatabaseFault → Prop} (table : Table)
    (f : Tables → Except DatabaseFault (α × Tables)) : Interruptible stopped (statement table f) :=
  .ofSilent (fun _ _ => rfl) fun _ _ => statement_run table f

theorem createTables (stopped : StoreError → Prop) : Interruptible stopped createTables :=
  .ofSilent (fun _ _ => rfl) fun around s => by
    rcases createTables_cases around s with ⟨n, h⟩ | ⟨fault, n, -, h⟩ <;> rw [h]

theorem ofRun {r : Run ε α} (hr : r.Interruptible stopped) : Interruptible stopped (ofRun r) where
  adds around s := hr.adds around.signal s.run
  stops around s := by
    unfold Session.ofRun
    rcases hr.stops around.signal s.run with hsame | ⟨e, s', hrun, he, hevents⟩
    · left
      rw [hsame]
      rfl
    · right
      exact ⟨e, { s with run := s' }, by rw [hrun], he, hevents⟩

theorem ofExcept (r : Except ε α) : Interruptible stopped (ofExcept r) := .ofRun (.ofExcept r)

theorem check {e : ε} (he : stopped e) : Interruptible stopped (check e) := .ofRun (.check he)

theorem bind {w : Session ε α} {f : α → Session ε β} (hw : Interruptible stopped w)
    (hf : ∀ a, Interruptible stopped (f a)) : Interruptible stopped (w >>= f) where
  adds around s := by
    have hfirst := hw.adds around s
    rw [bind_apply]
    rcases hrun : w around s with ⟨e | a, m⟩ <;> rw [hrun] at hfirst
    · exact hfirst
    · exact hfirst.trans ((hf a).adds around m)
  stops around s := by
    rcases hw.stops around s with hsame | ⟨e, s', hrun, he, hevents⟩
    · rw [bind_apply, bind_apply, hsame]
      rcases w around.undisturbed s with ⟨e | a, m⟩
      · exact Or.inl rfl
      · exact (hf a).stops around m
    · right
      refine ⟨e, s', by rw [bind_apply, hrun], he, hevents.trans ?_⟩
      rw [bind_apply]
      rcases w around.undisturbed s with ⟨e | a, m⟩
      · exact List.suffix_rfl
      · exact (hf a).adds around.undisturbed m

theorem mapError {stopped' : ε' → Prop} {w : Session ε α} (hw : Interruptible stopped w)
    {f : ε → ε'} (hf : ∀ e, stopped e → stopped' (f e)) :
    Interruptible stopped' (w.mapError f) where
  adds around s := by
    rw [mapError_state]
    exact hw.adds around s
  stops around s := by
    rw [mapError_state]
    rcases hw.stops around s with hsame | ⟨e, s', hrun, he, hevents⟩
    · left
      unfold Session.mapError
      rw [hsame]
    · right
      exact ⟨f e, s', by rw [Session.mapError, hrun], hf e he, hevents⟩

/-- What a stopped step has changed is undone, and what it has reported stays. -/
theorem transaction {seen : DatabaseFault → ε} {w : Session ε α} (hw : Interruptible stopped w) :
    Interruptible stopped (transaction seen w) where
  adds around s := by
    rw [transaction_run]
    split
    · exact List.suffix_rfl
    · exact hw.adds around { s with asked := s.asked + 1 }.opened
  stops around s := by
    rcases hw.stops around { s with asked := s.asked + 1 }.opened with
      hsame | ⟨e, m, hrun, he, hevents⟩
    · left
      rw [transaction_apply, transaction_apply, hsame]
      rfl
    · cases hrefusal : around.refusal s.asked with
      | some fault =>
        left
        simp only [transaction_apply, Surroundings.undisturbed, hrefusal]
      | none =>
        right
        have hstate : Session.transaction seen w around s = (.error e, m.rolledBack) := by
          simp only [transaction_apply, hrefusal, hrun]
        have hback : m.rolledBack.run = m.run := by
          have hsteps : (Session.transaction seen w around s).2.run = _ := transaction_run seen w
          rw [hstate, hrefusal, hrun] at hsteps
          exact hsteps
        refine ⟨e, m.rolledBack, hstate, he, ?_⟩
        rw [hback, transaction_run]
        simp only [Surroundings.undisturbed, hrefusal] at hevents ⊢
        exact hevents

end Interruptible

/-! ### Imports -/

/-- A refusal of the database never says that a session was stopped. -/
theorem interruptible_clearRows (p : String) : Interruptible (fun _ => False) (clearRows p) :=
  .bind (.statement _ _) fun _ => .bind (.statement _ _) fun _ =>
    .bind (.statement _ _) fun _ => .pure _

theorem interruptible_writeRows {stopped : DatabaseFault → Prop}
    {write : α → Session DatabaseFault Unit} (hwrite : ∀ a, Interruptible stopped (write a))
    (as : List α) : Interruptible stopped (writeRows write as) := by
  induction as with
  | nil => exact .pure ()
  | cons a as ih => exact .bind (hwrite a) fun _ => ih

theorem interruptible_writeBatches {kind : EntityKind} {label : String}
    {write : α → Session DatabaseFault Unit}
    (hwrite : ∀ a, Interruptible (fun _ => False) (write a)) (done : WriteFigures)
    (groups : List (Nat × List α)) :
    Interruptible (· = .cancelled) (writeBatches kind label write done groups) := by
  induction groups generalizing done with
  | nil => exact .pure done
  | cons group groups ih =>
    have hrows := interruptible_writeRows hwrite group.2
    exact .bind (.check rfl) fun _ => .bind (.mapError (.transaction hrows) fun _ => False.elim)
      fun _ => ih _

theorem interruptible_writeGroups {κ : Type} {kind : EntityKind} {word : κ → String}
    {write : α → Session DatabaseFault Unit}
    (hwrite : ∀ a, Interruptible (fun _ => False) (write a)) (done : WriteFigures)
    (groups : List (κ × List (Nat × List α))) :
    Interruptible (· = .cancelled) (writeGroups kind word write done groups) := by
  induction groups generalizing done with
  | nil => exact .pure done
  | cons group groups ih =>
    exact .bind (interruptible_writeBatches hwrite done group.2) fun done => ih done

theorem interruptible_importGraph (size : Nat) (now : Instant) (g : Graph) :
    Interruptible (· = .cancelled) (importGraph size now g) := by
  have hclear : Interruptible (· = .cancelled)
      ((clearRows g.projectId).mapError StoreError.database) :=
    .mapError (interruptible_clearRows g.projectId) fun _ => False.elim
  have hsteps : Interruptible (· = .cancelled) (importSteps size now g) :=
    .bind hclear fun _ =>
      .bind (interruptible_writeGroups (fun _ => .statement _ _) _ _) fun _ =>
      .bind (interruptible_writeGroups (fun _ => .statement _ _) _ _) fun _ =>
      .bind (.mapError (.statement _ _) fun _ => False.elim) fun _ => .pure _
  exact .bind (.ofExcept _) fun _ => .bind (.check rfl) fun _ => .transaction hsteps

end Session

end CodeGraph
