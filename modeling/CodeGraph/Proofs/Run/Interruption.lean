import CodeGraph.Proofs.Run.Basic

/-!
# What a signal does to a run

* `Run.Interruptible` — a signal either makes no difference to a run, or stops it with an error that
  says so; up to there the run has reported what it would have reported without the signal.
* `Run.Interruptible.bind`, … — this holds of every step and of steps after one another.
-/

namespace CodeGraph.Run

variable {ε ε' α β : Type} {stopped : ε → Prop}

/-- A signal either makes no difference to a run, or stops it with an error that says so.  Events
are only added, the latest in front; a run that is stopped has added some of the first ones. -/
structure Interruptible (stopped : ε → Prop) (r : Run ε α) : Prop where
  adds : ∀ signal s, s.events <:+ (r signal s).2.events
  stops : ∀ signal s, r signal s = r .never s ∨
    ∃ e s', r signal s = (.error e, s') ∧ stopped e ∧ s'.events <:+ (r .never s).2.events

namespace Interruptible

/-- A run that does not look at the signal and reports nothing is not affected. -/
theorem ofExcept (r : Except ε α) : Interruptible stopped (ofExcept r) where
  adds _ _ := List.suffix_rfl
  stops _ _ := Or.inl rfl

theorem pure (a : α) : Interruptible stopped (Pure.pure a : Run ε α) := ofExcept (.ok a)

theorem fail (e : ε) : Interruptible stopped (fail e : Run ε α) := ofExcept (.error e)

theorem report (phase : Phase) (done total : Nat) (detail : String) :
    Interruptible stopped (report phase done total detail : Run ε Unit) where
  adds _ _ := List.suffix_cons _ _
  stops _ _ := Or.inl rfl

theorem check {e : ε} (he : stopped e) : Interruptible stopped (check e) where
  adds _ _ := List.suffix_rfl
  stops signal s := by
    unfold Run.check
    cases signal s.looks s.events.length with
    | false => exact Or.inl rfl
    | true => exact Or.inr ⟨e, _, rfl, he, List.suffix_rfl⟩

/-- A run that is stopped in its first part does not get to the second one. -/
theorem bind {r : Run ε α} {f : α → Run ε β} (hr : Interruptible stopped r)
    (hf : ∀ a, Interruptible stopped (f a)) : Interruptible stopped (r >>= f) where
  adds signal s := by
    have hfirst := hr.adds signal s
    rw [bind_apply]
    rcases hrun : r signal s with ⟨e | a, m⟩ <;> rw [hrun] at hfirst
    · exact hfirst
    · exact hfirst.trans ((hf a).adds signal m)
  stops signal s := by
    rcases hr.stops signal s with hsame | ⟨e, s', hrun, he, hevents⟩
    · rw [bind_apply, bind_apply, hsame]
      rcases r .never s with ⟨e | a, m⟩
      · exact Or.inl rfl
      · exact (hf a).stops signal m
    · right
      refine ⟨e, s', by rw [bind_apply, hrun], he, hevents.trans ?_⟩
      rw [bind_apply]
      rcases r .never s with ⟨e | a, m⟩
      · exact List.suffix_rfl
      · exact (hf a).adds .never m

theorem mapError {stopped' : ε' → Prop} {r : Run ε α} (hr : Interruptible stopped r) {f : ε → ε'}
    (hf : ∀ e, stopped e → stopped' (f e)) : Interruptible stopped' (r.mapError f) where
  adds signal s := by
    have hfirst := hr.adds signal s
    unfold Run.mapError
    rcases hrun : r signal s with ⟨e | a, m⟩ <;> rw [hrun] at hfirst <;> exact hfirst
  stops signal s := by
    unfold Run.mapError
    rcases hr.stops signal s with hsame | ⟨e, s', hrun, he, hevents⟩
    · rw [hsame]
      exact Or.inl rfl
    · right
      refine ⟨f e, s', by rw [hrun], hf e he, ?_⟩
      rcases hnever : r .never s with ⟨e' | a, m⟩ <;> rw [hnever] at hevents <;> exact hevents

end Interruptible

end CodeGraph.Run
