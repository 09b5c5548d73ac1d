import CodeGraph.Store.Session

/-!
# What sessions keep

Facts on sessions of every kind, whatever they meet from outside.

* `bind_eq_ok`, `transaction_eq_ok`, … — what a session has gone through when it ends well.
* `createTables_cases` — tables are created, or the database refuses and the store is as it was.
* `Balanced` — however a session ends, every transaction it has opened is closed.  All steps are
  balanced, so a transaction that fails finds the store it started from (`AllOrNothing.transaction`).
* `AllOrNothing` — a session that fails leaves the store as it was.
* `Calm` — surroundings in which nobody cancels and the database turns nothing down;
  `Leads` — where a session gets there.
-/

namespace CodeGraph

/-- Nobody cancels, and the database turns nothing down. -/
def Surroundings.Calm (around : Surroundings) : Prop :=
  (∀ looks events, around.signal looks events = false) ∧ ∀ asked, around.refusal asked = none

namespace Session

variable {ε ε' α β : Type} {around : Surroundings} {s s' : SessionState}

/-! ### Sessions that end well -/

theorem pure_eq_ok {a b : α} :
    (pure a : Session ε α) around s = (.ok b, s') ↔ a = b ∧ s = s' := by
  show ((Except.ok a, s) : Except ε α × SessionState) = (.ok b, s') ↔ _
  simp only [Prod.mk.injEq, Except.ok.injEq]

theorem bind_apply (w : Session ε α) (f : α → Session ε β) :
    (w >>= f) around s = match w around s with
      | (.ok a, s) => f a around s
      | (.error e, s) => (.error e, s) := rfl

theorem bind_eq_ok {w : Session ε α} {f : α → Session ε β} {b : β} :
    (w >>= f) around s = (.ok b, s') ↔
      ∃ a m, w around s = (.ok a, m) ∧ f a around m = (.ok b, s') := by
  rw [bind_apply]
  rcases w around s with ⟨_ | a, m⟩
  · simp
  · simp only [Prod.mk.injEq, Except.ok.injEq]
    exact ⟨fun h => ⟨a, m, ⟨rfl, rfl⟩, h⟩, fun ⟨_, _, ⟨ha, hm⟩, h⟩ => by rw [ha, hm]; exact h⟩

theorem bind_eq_error {w : Session ε α} {f : α → Session ε β} {e : ε} :
    (w >>= f) around s = (.error e, s') ↔
      w around s = (.error e, s') ∨
        ∃ a m, w around s = (.ok a, m) ∧ f a around m = (.error e, s') := by
  rw [bind_apply]
  rcases w around s with ⟨_ | a, m⟩
  · simp
  · simp only [Prod.mk.injEq, reduceCtorEq, false_and, Except.ok.injEq, false_or]
    exact ⟨fun h => ⟨a, m, ⟨rfl, rfl⟩, h⟩, fun ⟨_, _, ⟨ha, hm⟩, h⟩ => by rw [ha, hm]; exact h⟩

theorem mapError_eq_ok {f : ε → ε'} {w : Session ε α} {a : α} :
    w.mapError f around s = (.ok a, s') ↔ w around s = (.ok a, s') := by
  unfold mapError
  rcases w around s with ⟨_ | b, m⟩ <;> simp

theorem mapError_state (f : ε → ε') (w : Session ε α) :
    (w.mapError f around s).2 = (w around s).2 := by
  unfold mapError
  rcases w around s with ⟨_ | b, m⟩ <;> rfl

theorem request_apply : request around s =
    (match around.refusal s.asked with
      | some fault => .error fault
      | none => .ok (), { s with asked := s.asked + 1 }) := rfl

theorem control_apply (f : SessionState → SessionState) : control f around s =
    match around.refusal s.asked with
    | some fault => (.error fault, { s with asked := s.asked + 1 })
    | none => (.ok (), f { s with asked := s.asked + 1 }) := by
  unfold control
  rw [bind_apply, request_apply]
  rcases around.refusal s.asked with _ | fault <;> rfl

/-- A statement that succeeds has found the tables and put others in their place. -/
theorem statement_eq_ok {table : Table} {f : Tables → Except DatabaseFault (α × Tables)} {a : α}
    (h : statement table f around s = (.ok a, s')) :
    ∃ t t', s.store = ⟨some t⟩ ∧ f t = .ok (a, t') ∧ s'.store = ⟨some t'⟩ := by
  obtain ⟨_, m, hr, hm⟩ := bind_eq_ok.mp h
  have hstore : m.store = s.store := by
    rw [request_apply] at hr
    rw [← (Prod.mk.inj hr).2]
  unfold onTables Store.require at hm
  rcases hs : m.store with ⟨_ | t⟩
  · simp [hs, bind, Except.bind] at hm
  · simp only [hs, bind, Except.bind] at hm
    rcases hf : f t with e | ⟨b, t'⟩
    · simp [hf] at hm
    · simp only [hf, Prod.mk.injEq, Except.ok.injEq] at hm
      obtain ⟨rfl, rfl⟩ := hm
      exact ⟨t, t', hstore.symm.trans hs, hf, rfl⟩

/-! ### The creation of tables -/

/-- Statements that are only sent change nothing but how often the database was asked. -/
theorem forM_request_cases (around : Surroundings) (tables : List Table) (s : SessionState) :
    (∃ n, (forM tables fun _ => request : Session DatabaseFault Unit) around s =
        (.ok (), { s with asked := n })) ∨
      ∃ fault n, around.refusal n = some fault ∧
        (forM tables fun _ => request : Session DatabaseFault Unit) around s =
          (.error fault, { s with asked := n + 1 }) := by
  induction tables generalizing s with
  | nil => exact Or.inl ⟨s.asked, rfl⟩
  | cons table tables ih =>
    rw [List.forM_cons, bind_apply, request_apply]
    cases hrefusal : around.refusal s.asked with
    | some fault => exact Or.inr ⟨fault, s.asked, hrefusal, rfl⟩
    | none => exact ih _

/-- Tables are created where they are missing, or the database has refused to and the store is as it
was. -/
theorem createTables_cases (around : Surroundings) (s : SessionState) :
    (∃ n, createTables around s =
        (.ok (), { s with store := s.store.withSchema, asked := n })) ∨
      ∃ fault n, around.refusal n = some fault ∧
        createTables around s = (.error (.schema fault), { s with asked := n + 1 }) := by
  rw [createTables, mapError, bind_apply]
  rcases forM_request_cases around Table.all s with
    ⟨n, h⟩ | ⟨fault, n, hrefusal, h⟩
  · exact Or.inl ⟨n, by rw [h]; rfl⟩
  · exact Or.inr ⟨fault, n, hrefusal, by rw [h]⟩

/-! ### Transactions -/

/-- The ways through a transaction: it is not begun, a step fails, it is not kept, or it is. -/
theorem transaction_apply (seen : DatabaseFault → ε) (w : Session ε α) :
    transaction seen w around s = match around.refusal s.asked with
      | some fault => (.error (seen fault), { s with asked := s.asked + 1 })
      | none => match w around { s with asked := s.asked + 1 }.opened with
        | (.error e, m) => (.error e, m.rolledBack)
        | (.ok a, m) => match around.refusal m.asked with
          | some fault => (.error (seen fault), { m with asked := m.asked + 1 }.rolledBack)
          | none => (.ok a, { m with asked := m.asked + 1 }.committed) := by
  unfold transaction
  rw [bind_apply, mapError, control_apply]
  rcases around.refusal s.asked with _ | fault
  · rcases hw : w around { s with asked := s.asked + 1 }.opened with ⟨e | a, m⟩
    · simp only [closing, bind_apply, hw]
    · simp only [closing, bind_apply, hw, mapError, control_apply]
      rcases around.refusal m.asked with _ | fault <;> rfl
  · rfl

/-- A transaction that succeeds leaves the store that its steps have left. -/
theorem transaction_eq_ok {seen : DatabaseFault → ε} {w : Session ε α} {a : α}
    (h : transaction seen w around s = (.ok a, s')) :
    ∃ m m', m.store = s.store ∧ w around m = (.ok a, m') ∧ m'.store = s'.store := by
  rw [transaction_apply] at h
  split at h
  · simp at h
  · split at h
    · simp at h
    next b m hw =>
      split at h
      · simp at h
      · simp only [Prod.mk.injEq, Except.ok.injEq] at h
        obtain ⟨rfl, rfl⟩ := h
        exact ⟨{ s with asked := s.asked + 1 }.opened, m, rfl, hw, rfl⟩

/-! ### Balanced sessions -/

/-- However it ends, a session leaves the open transactions it has found, and no others. -/
def Balanced (w : Session ε α) : Prop := ∀ around s, (w around s).2.saved = s.saved

/-- A session that fails leaves the store as it was. -/
def AllOrNothing (w : Session ε α) : Prop :=
  ∀ around s e s', w around s = (.error e, s') → s'.store = s.store

/-- Rolling back the transaction that is open innermost brings its store and the outer transactions
back. -/
theorem rolledBack_of_saved {m : SessionState} (h : m.saved = s.opened.saved) :
    m.rolledBack.store = s.store ∧ m.rolledBack.saved = s.saved := by
  unfold SessionState.rolledBack
  rw [h]
  exact ⟨rfl, rfl⟩

namespace Balanced

theorem pure (a : α) : Balanced (Pure.pure a : Session ε α) := fun _ _ => rfl

theorem bind {w : Session ε α} {f : α → Session ε β} (hw : Balanced w)
    (hf : ∀ a, Balanced (f a)) : Balanced (w >>= f) := by
  intro around s
  have hs := hw around s
  rw [bind_apply]
  rcases hw' : w around s with ⟨e | a, m⟩ <;> rw [hw'] at hs
  · exact hs
  · exact (hf a around m).trans hs

theorem mapError {w : Session ε α} (hw : Balanced w) (f : ε → ε') : Balanced (w.mapError f) := by
  intro around s
  rw [mapError_state]
  exact hw around s

theorem ofRun (r : Run ε α) : Balanced (ofRun r) := fun _ _ => rfl

theorem statement (table : Table) (f : Tables → Except DatabaseFault (α × Tables)) :
    Balanced (statement table f) := by
  refine Balanced.bind (fun _ _ => rfl) fun _ around s => ?_
  unfold onTables
  split <;> rfl

theorem transaction {seen : DatabaseFault → ε} {w : Session ε α} (hw : Balanced w) :
    Balanced (transaction seen w) := by
  intro around s
  have hsaved := hw around { s with asked := s.asked + 1 }.opened
  rw [transaction_apply]
  split
  · rfl
  · split
    next e m he =>
      rw [he] at hsaved
      exact (rolledBack_of_saved hsaved).2
    next a m ha =>
      rw [ha] at hsaved
      split
      · exact (rolledBack_of_saved (m := { m with asked := m.asked + 1 }) hsaved).2
      · show m.saved.tail = s.saved
        rw [hsaved]
        rfl

end Balanced

namespace AllOrNothing

/-- A step that never touches the store may come first. -/
theorem ofRun_bind (r : Run ε α) {f : α → Session ε β} (hf : ∀ a, AllOrNothing (f a)) :
    AllOrNothing (ofRun r >>= f) := by
  intro around s e s' h
  rcases bind_eq_error.mp h with h | ⟨a, m, hr, h⟩
  · rw [← (Prod.mk.inj h).2]
  · have hm := hf a around m e s' h
    rw [hm, ← (Prod.mk.inj hr).2]

/-- The transactions within a transaction are closed when one of its steps fails, so it goes back to
the store that it has saved itself. -/
theorem transaction {seen : DatabaseFault → ε} {w : Session ε α} (hw : Balanced w) :
    AllOrNothing (transaction seen w) := by
  intro around s e s' h
  have hsaved := hw around { s with asked := s.asked + 1 }.opened
  rw [transaction_apply] at h
  split at h
  · rw [← (Prod.mk.inj h).2]
  · split at h
    next e m he =>
      rw [he] at hsaved
      rw [← (Prod.mk.inj h).2]
      exact (rolledBack_of_saved hsaved).1
    next a m ha =>
      rw [ha] at hsaved
      split at h
      · rw [← (Prod.mk.inj h).2]
        exact (rolledBack_of_saved (m := { m with asked := m.asked + 1 }) hsaved).1
      · simp at h

end AllOrNothing

/-! ### Calm surroundings -/

theorem createTables_of_calm (calm : around.Calm) (s : SessionState) :
    ∃ n, createTables around s =
      (.ok (), { s with store := s.store.withSchema, asked := n }) := by
  rcases createTables_cases around s with h | ⟨fault, n, hrefusal, -⟩
  · exact h
  · rw [calm.2] at hrefusal
    cases hrefusal

/-- In calm surroundings a session on a store with tables `t` ends well and leaves tables `t'`. -/
def Leads (w : Session ε α) (t : Tables) (a : α) (t' : Tables) : Prop :=
  ∀ around s, around.Calm → s.store = ⟨some t⟩ →
    ∃ s', w around s = (.ok a, s') ∧ s'.store = ⟨some t'⟩

namespace Leads

variable {t t' t'' : Tables} {a : α} {b : β}

theorem pure : Leads (Pure.pure a : Session ε α) t a t := fun _ s _ hs => ⟨s, rfl, hs⟩

theorem bind {w : Session ε α} {f : α → Session ε β} (hw : Leads w t a t')
    (hf : Leads (f a) t' b t'') : Leads (w >>= f) t b t'' := by
  intro around s calm hs
  obtain ⟨m, hm, hmt⟩ := hw around s calm hs
  obtain ⟨s', hs', ht⟩ := hf around m calm hmt
  exact ⟨s', bind_eq_ok.mpr ⟨a, m, hm, hs'⟩, ht⟩

theorem mapError {w : Session ε α} (hw : Leads w t a t') (f : ε → ε') :
    Leads (w.mapError f) t a t' := by
  intro around s calm hs
  obtain ⟨s', hs', ht⟩ := hw around s calm hs
  exact ⟨s', mapError_eq_ok.mpr hs', ht⟩

theorem ofExcept {r : Except ε α} (hr : r = .ok a) : Leads (ofExcept r) t a t := by
  intro around s _ hs
  exact ⟨s, by rw [hr]; rfl, hs⟩

theorem check (e : ε) : Leads (check e) t () t := by
  intro around s calm hs
  refine ⟨{ s with run := ⟨s.run.looks + 1, s.run.events⟩ }, ?_, hs⟩
  show (if around.signal s.run.looks s.run.events.length then Except.error e else .ok (), _) = _
  rw [calm.1]
  rfl

theorem statement {table : Table} {f : Tables → Except DatabaseFault (α × Tables)}
    (hf : f t = .ok (a, t')) : Leads (statement table f) t a t' := by
  intro around s calm hs
  refine ⟨{ s with store := ⟨some t'⟩, asked := s.asked + 1 }, ?_, rfl⟩
  simp only [Session.statement, bind_apply, request_apply, calm.2, onTables, Store.require, hs]
  rw [show (Except.ok t >>= f) = f t from rfl, hf]

theorem transaction {seen : DatabaseFault → ε} {w : Session ε α} (hw : Leads w t a t') :
    Leads (transaction seen w) t a t' := by
  intro around s calm hs
  obtain ⟨m, hm, ht⟩ := hw around { s with asked := s.asked + 1 }.opened calm hs
  refine ⟨{ m with asked := m.asked + 1 }.committed, ?_, ht⟩
  simp only [transaction_apply, calm.2, hm]

end Leads

end Session

end CodeGraph
