import CodeGraph.Store.Connection
import Mathlib.Data.List.Flatten

/-!
# Connecting, attempt by attempt

* `Connection.rounds` — the steps of attempts that fail, each with the wait after it.
* `Connection.Reached` — so many attempts fail, and no cancellation is seen in the meantime;
  `Connection.attempts_of_reached` says what connecting does from there on.
* `Connection.Ending` — how connecting can end: opened, out of attempts, or cancelled before an attempt
  or during a wait.
* `connect_by_attempts` — it ends in exactly one of these ways.
-/

namespace CodeGraph

namespace Connection

variable {α : Type} {s : StoreSettings} {opened : Nat → Except DatabaseFault α}
  {cancelled : Nat → Bool} {budget left n k : Nat} {outcome : Except StoreError α}
  {steps : List ConnectionStep}

/-! ### Rounds -/

/-- The first `n` attempts, each followed by the wait after it. -/
def rounds (s : RetrySettings) (n : Nat) : List ConnectionStep :=
  (List.range n).flatMap fun k => [.attempt, .wait (s.delayAfter (k + 1))]

theorem rounds_succ (s : RetrySettings) (n : Nat) :
    rounds s (n + 1) = rounds s n ++ [.attempt, .wait (s.delayAfter (n + 1))] := by
  rw [rounds, List.range_succ, List.flatMap_append, List.flatMap_singleton]
  rfl

theorem count_attempt_rounds (s : RetrySettings) (n : Nat) : (rounds s n).count .attempt = n := by
  induction n with
  | zero => rfl
  | succ n ih =>
    rw [rounds_succ, List.count_append, ih]
    rfl

/-- The first `n` attempts fail, and no cancellation is seen before any of them or during the wait
after it. -/
structure Reached (opened : Nat → Except DatabaseFault α) (cancelled : Nat → Bool) (n : Nat) :
    Prop where
  failed : ∀ k < n, ∃ fault, opened (k + 1) = .error fault
  unseen : ∀ i < 2 * n, cancelled i = false

theorem Reached.zero : Reached opened cancelled 0 :=
  ⟨fun _ h => absurd h (Nat.not_lt_zero _), fun _ h => absurd h (Nat.not_lt_zero _)⟩

theorem Reached.unseen_le (h : Reached opened cancelled n) (hunseen : cancelled (2 * n) = false)
    {i : Nat} (hi : i ≤ 2 * n) : cancelled i = false := by
  rcases Nat.lt_or_eq_of_le hi with hlt | rfl
  · exact h.unseen i hlt
  · exact hunseen

/-- Another round. -/
theorem reached_succ : Reached opened cancelled (n + 1) ↔
    Reached opened cancelled n ∧ cancelled (2 * n) = false ∧
      (∃ fault, opened (n + 1) = .error fault) ∧ cancelled (2 * n + 1) = false := by
  constructor
  · intro h
    refine ⟨⟨fun k hk => h.failed k (by omega), fun i hi => h.unseen i (by omega)⟩, ?_⟩
    exact ⟨h.unseen _ (by omega), h.failed n (by omega), h.unseen _ (by omega)⟩
  · rintro ⟨h, hbefore, hfault, hwait⟩
    refine ⟨fun k hk => ?_, fun i hi => ?_⟩
    · rcases Nat.lt_succ_iff_lt_or_eq.mp hk with hlt | rfl
      · exact h.failed k hlt
      · exact hfault
    · obtain hlt | rfl | rfl : i < 2 * n ∨ i = 2 * n ∨ i = 2 * n + 1 := by omega
      · exact h.unseen i hlt
      · exact hbefore
      · exact hwait

/-! ### Attempts -/

variable {attempt looks : Nat} {fault : DatabaseFault} {a : α}

theorem attempts_of_cancelled (h : cancelled looks = true) :
    attempts s opened cancelled left attempt looks = (.error .cancelled, []) := by
  rw [attempts.eq_def]
  simp only [h, if_true]

theorem attempts_of_ok (h : cancelled looks = false) (hopened : opened attempt = .ok a) :
    attempts s opened cancelled left attempt looks = (.ok a, [.attempt]) := by
  rw [attempts.eq_def]
  simp only [h, hopened, Bool.false_eq_true, if_false]

theorem attempts_zero_of_error (h : cancelled looks = false)
    (hopened : opened attempt = .error fault) :
    attempts s opened cancelled 0 attempt looks =
      (.error (.connection s.address attempt fault), [.attempt]) := by
  rw [attempts.eq_def]
  simp only [h, hopened, Bool.false_eq_true, if_false]

theorem attempts_succ_of_error (h : cancelled looks = false)
    (hopened : opened attempt = .error fault) :
    attempts s opened cancelled (left + 1) attempt looks =
      Prod.map id ([.attempt, .wait (s.retry.delayAfter attempt)] ++ ·)
        (if cancelled (looks + 1) then (.error .cancelled, [])
        else attempts s opened cancelled left (attempt + 1) (looks + 2)) := by
  rw [attempts.eq_def]
  simp only [h, hopened, Bool.false_eq_true, if_false]
  split <;> rfl

/-- After rounds that fail, connecting goes on with the attempts that are left. -/
theorem attempts_of_reached (h : Reached opened cancelled n) :
    attempts s opened cancelled (n + left) 1 0 =
      Prod.map id (rounds s.retry n ++ ·) (attempts s opened cancelled left (n + 1) (2 * n)) := by
  induction n generalizing left with
  | zero => rw [Nat.zero_add]; rfl
  | succ n ih =>
    obtain ⟨hbefore, hunseen, ⟨fault, hfault⟩, hwait⟩ := reached_succ.mp h
    rw [Nat.add_right_comm, Nat.add_assoc, ih hbefore, attempts_succ_of_error hunseen hfault,
      if_neg (Bool.eq_false_iff.mp hwait), Prod.map_map]
    refine congrArg (Prod.map id · _) (funext fun rest => ?_)
    rw [rounds_succ, List.append_assoc]
    rfl

/-! ### Endings -/

/-- How connecting with a number of attempts ends, and the steps until then. -/
inductive Ending (s : StoreSettings) (opened : Nat → Except DatabaseFault α)
    (cancelled : Nat → Bool) (budget : Nat) :
    Except StoreError α → List ConnectionStep → Prop where
  /-- The first attempt that succeeds opens the store. -/
  | opened {n : Nat} {a : α} (hn : n < budget) (reached : Reached opened cancelled n)
    (unseen : cancelled (2 * n) = false) (succeeds : opened (n + 1) = .ok a) :
    Ending s opened cancelled budget (.ok a) (rounds s.retry n ++ [.attempt])
  /-- The last attempt fails as well, and there is no wait after it. -/
  | exhausted {n : Nat} {fault : DatabaseFault} (hn : n + 1 = budget)
    (reached : Reached opened cancelled n) (unseen : cancelled (2 * n) = false)
    (fails : opened (n + 1) = .error fault) :
    Ending s opened cancelled budget (.error (.connection s.address (n + 1) fault))
      (rounds s.retry n ++ [.attempt])
  /-- A cancellation is seen before an attempt, which is not made. -/
  | cancelledBefore {n : Nat} (hn : n < budget) (reached : Reached opened cancelled n)
    (seen : cancelled (2 * n) = true) :
    Ending s opened cancelled budget (.error .cancelled) (rounds s.retry n)
  /-- A cancellation is seen during the wait for another attempt. -/
  | cancelledWaiting {n : Nat} {fault : DatabaseFault} (hn : n + 1 < budget)
    (reached : Reached opened cancelled n) (unseen : cancelled (2 * n) = false)
    (fails : opened (n + 1) = .error fault) (seen : cancelled (2 * n + 1) = true) :
    Ending s opened cancelled budget (.error .cancelled) (rounds s.retry (n + 1))

/-- Each of these is how connecting ends. -/
theorem Ending.attempts_eq (h : Ending s opened cancelled (left + 1) outcome steps) :
    attempts s opened cancelled left 1 0 = (outcome, steps) := by
  cases h with
  | @opened n a hn reached unseen succeeds =>
    obtain ⟨rest, rfl⟩ := Nat.exists_eq_add_of_le (Nat.lt_succ_iff.mp hn)
    rw [attempts_of_reached reached, attempts_of_ok unseen succeeds]
    rfl
  | @exhausted n fault hn reached unseen fails =>
    obtain rfl := Nat.succ.inj hn
    rw [← Nat.add_zero n, attempts_of_reached reached, attempts_zero_of_error unseen fails]
    rfl
  | @cancelledBefore n hn reached seen =>
    obtain ⟨rest, rfl⟩ := Nat.exists_eq_add_of_le (Nat.lt_succ_iff.mp hn)
    rw [attempts_of_reached reached, attempts_of_cancelled seen, Prod.map_apply, List.append_nil]
    rfl
  | @cancelledWaiting n fault hn reached unseen fails seen =>
    obtain ⟨rest, rfl⟩ := Nat.exists_eq_add_of_lt (Nat.lt_of_succ_lt_succ hn)
    rw [Nat.add_assoc, attempts_of_reached reached, attempts_succ_of_error unseen fails,
      if_pos seen, rounds_succ]
    rfl

/-- From every round that is reached, connecting comes to an end. -/
theorem exists_ending (h : Reached opened cancelled n) :
    ∃ outcome steps, Ending s opened cancelled (n + left + 1) outcome steps := by
  induction left generalizing n with
  | zero =>
    cases hseen : cancelled (2 * n) with
    | true => exact ⟨_, _, .cancelledBefore (by omega) h hseen⟩
    | false =>
      cases hopened : opened (n + 1) with
      | ok a => exact ⟨_, _, .opened (by omega) h hseen hopened⟩
      | error fault => exact ⟨_, _, .exhausted rfl h hseen hopened⟩
  | succ left ih =>
    cases hseen : cancelled (2 * n) with
    | true => exact ⟨_, _, .cancelledBefore (by omega) h hseen⟩
    | false =>
      cases hopened : opened (n + 1) with
      | ok a => exact ⟨_, _, .opened (by omega) h hseen hopened⟩
      | error fault =>
        cases hwait : cancelled (2 * n + 1) with
        | true => exact ⟨_, _, .cancelledWaiting (by omega) h hseen hopened hwait⟩
        | false =>
          have hnext := ih (reached_succ.mpr ⟨h, hseen, ⟨fault, hopened⟩, hwait⟩)
          rwa [Nat.add_right_comm n 1] at hnext

/-- Connecting ends in exactly one of these ways. -/
theorem attempts_eq_iff_ending :
    attempts s opened cancelled left 1 0 = (outcome, steps) ↔
      Ending s opened cancelled (left + 1) outcome steps := by
  refine ⟨fun h => ?_, Ending.attempts_eq⟩
  obtain ⟨outcome', steps', hending⟩ :
      ∃ outcome steps, Ending s opened cancelled (0 + left + 1) outcome steps :=
    exists_ending .zero
  rw [Nat.zero_add] at hending
  obtain ⟨rfl, rfl⟩ := Prod.mk.inj (h.symm.trans hending.attempts_eq)
  exact hending

/-- There are at most as many attempts as there may be, none of them behind a cancellation that was
seen, and as many as that if connecting fails for want of attempts. -/
theorem Ending.count_attempt (h : Ending s opened cancelled budget outcome steps) :
    steps.count .attempt ≤ budget ∧
    (∀ k < steps.count .attempt, ∀ i ≤ 2 * k, cancelled i = false) ∧
    ∀ address n fault, outcome = .error (.connection address n fault) →
      n = steps.count .attempt ∧ n = budget := by
  have hmade (n : Nat) :
      List.count ConnectionStep.attempt (rounds s.retry n ++ [.attempt]) = n + 1 := by
    rw [List.count_append, count_attempt_rounds]
    rfl
  cases h with
  | @opened n a hn reached unseen succeeds =>
    rw [hmade]
    refine ⟨hn, fun k hk i hi => reached.unseen_le unseen (by omega), ?_⟩
    intro address n fault h
    cases h
  | @exhausted n fault hn reached unseen fails =>
    rw [hmade]
    refine ⟨by omega, fun k hk i hi => reached.unseen_le unseen (by omega), ?_⟩
    intro address n fault h
    cases h
    exact ⟨rfl, hn⟩
  | @cancelledBefore n hn reached seen =>
    rw [count_attempt_rounds]
    refine ⟨by omega, fun k hk i hi => reached.unseen i (by omega), ?_⟩
    intro address n fault h
    cases h
  | @cancelledWaiting n fault hn reached unseen fails seen =>
    rw [count_attempt_rounds]
    refine ⟨by omega, fun k hk i hi => reached.unseen_le unseen (by omega), ?_⟩
    intro address n fault h
    cases h

end Connection

/-! ### Connecting -/

/-- **Connecting makes attempt after attempt until one succeeds, none are left, or a cancellation is
seen.**  It ends in exactly one of these ways, with a wait between any two attempts and none after the
last one; there is at least one attempt to make, and none is made behind a cancellation that was
seen. -/
theorem connect_by_attempts {α : Type} {s : StoreSettings} {endpoint : Endpoint}
    (hendpoint : Endpoint.ofAddress? s.address = some endpoint)
    (opened : Endpoint → Nat → Except DatabaseFault α) (cancelled : Nat → Bool) :
    let budget := max 1 s.retry.attempts
    let ended := connect s opened cancelled
    let made := ended.2.count .attempt
    (∀ outcome steps, ended = (outcome, steps) ↔
      Connection.Ending s (opened endpoint) cancelled budget outcome steps) ∧
    made ≤ budget ∧
    (∀ k < made, ∀ i ≤ 2 * k, cancelled i = false) ∧
    (∀ address n fault, ended.1 = .error (.connection address n fault) →
      n = made ∧ n = budget) := by
  have hbudget : max 1 s.retry.attempts = s.retry.attempts - 1 + 1 := by omega
  have hconnect : connect s opened cancelled =
      attempts s (opened endpoint) cancelled (s.retry.attempts - 1) 1 0 := by
    unfold connect
    generalize Endpoint.ofAddress? s.address = place at hendpoint ⊢
    subst hendpoint
    rfl
  have hiff : ∀ outcome steps, connect s opened cancelled = (outcome, steps) ↔
      Connection.Ending s (opened endpoint) cancelled (max 1 s.retry.attempts) outcome steps := by
    intro outcome steps
    rw [hconnect, hbudget]
    exact Connection.attempts_eq_iff_ending
  have hending := (hiff _ _).mp (Prod.eta (connect s opened cancelled)).symm
  exact ⟨hiff, hending.count_attempt⟩

/-- A store in memory that opens at the third attempt. -/
theorem connect_by_attempts_third :
    let s : StoreSettings := { address := "sqlite::memory:" }
    connect s (fun _ k => if k < 3 then .error (.refused "busy") else .ok ()) (fun _ => false) =
      (.ok (), [.attempt, .wait (s.retry.delayAfter 1), .attempt, .wait (s.retry.delayAfter 2),
        .attempt]) := by
  intro s
  have hendpoint : Endpoint.ofAddress? s.address = some .memory := by decide
  refine ((connect_by_attempts hendpoint _ _).1 _ _).mpr ?_
  have hreached : Connection.Reached
      (fun k => if k < 3 then .error (.refused "busy") else .ok ()) (fun _ => false) 2 :=
    ⟨fun k hk => ⟨.refused "busy", if_pos (by omega)⟩, fun _ _ => rfl⟩
  exact .opened (by decide) hreached rfl rfl

end CodeGraph
