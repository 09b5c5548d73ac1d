import CodeGraph.Run.Basic

/-!
# Runs that end well

* `Run.pure_eq_ok`, `Run.bind_eq_ok` — a run of several steps ends well exactly if each of them
  does.
* `Run.ofExcept_eq_ok`, `Run.mapError_eq_ok`, `Run.check_eq_ok`, `Run.report_eq_ok` — the steps that
  there are.
* `Run.outcome_eq_ok` — the outcome of a run from its start.
-/

namespace CodeGraph.Run

variable {ε α β : Type} {signal : Signal} {s s' : RunState}

theorem pure_eq_ok {a b : α} :
    (pure a : Run ε α) signal s = (.ok b, s') ↔ a = b ∧ s = s' := by
  show ((Except.ok a, s) : Except ε α × RunState) = (.ok b, s') ↔ _
  simp only [Prod.mk.injEq, Except.ok.injEq]

theorem bind_apply (r : Run ε α) (f : α → Run ε β) :
    (r >>= f) signal s = match r signal s with
      | (.ok a, s) => f a signal s
      | (.error e, s) => (.error e, s) := rfl

theorem bind_eq_ok {r : Run ε α} {f : α → Run ε β} {b : β} :
    (r >>= f) signal s = (.ok b, s') ↔
      ∃ a m, r signal s = (.ok a, m) ∧ f a signal m = (.ok b, s') := by
  rw [bind_apply]
  rcases r signal s with ⟨_ | a, m⟩
  · simp
  · simp only [Prod.mk.injEq, Except.ok.injEq]
    exact ⟨fun h => ⟨a, m, ⟨rfl, rfl⟩, h⟩, fun ⟨_, _, ⟨ha, hm⟩, h⟩ => by rw [ha, hm]; exact h⟩

theorem ofExcept_eq_ok {r : Except ε α} {a : α} :
    ofExcept r signal s = (.ok a, s') ↔ r = .ok a ∧ s = s' := by
  simp only [ofExcept, Prod.mk.injEq]

theorem mapError_eq_ok {ε' : Type} {f : ε → ε'} {r : Run ε α} {a : α} :
    r.mapError f signal s = (.ok a, s') ↔ r signal s = (.ok a, s') := by
  unfold mapError
  rcases r signal s with ⟨_ | b, m⟩ <;> simp

theorem check_eq_ok {e : ε} {u : Unit} :
    check e signal s = (.ok u, s') ↔
      signal s.looks s.events.length = false ∧ s' = ⟨s.looks + 1, s.events⟩ := by
  unfold check
  cases signal s.looks s.events.length <;> simp [eq_comm]

theorem report_eq_ok {phase : Phase} {done total : Nat} {detail : String} {u : Unit} :
    (report phase done total detail : Run ε Unit) signal s = (.ok u, s') ↔
      s' = ⟨s.looks, ⟨phase, ⟨done, total⟩, detail⟩ :: s.events⟩ := by
  simp [report, eq_comm]

theorem outcome_eq_ok {r : Run ε α} {a : α} :
    r.outcome signal = .ok a ↔ ∃ s', r signal ⟨0, []⟩ = (.ok a, s') := by
  unfold outcome perform
  rcases r signal ⟨0, []⟩ with ⟨o, s'⟩
  simp

end CodeGraph.Run
