import CodeGraph.Decimal.Rounding

/-!
# Runs

A run reports its progress as events and stops where it finds itself cancelled.

* `Event` — a phase, how much of it is done, and a detail in words.
* `Signal` — whether a run is cancelled, given how often it has looked and what it has reported.
* `Run ε α` — a computation that looks at a signal and reports events; `Run.perform` gives its
  outcome and its events.
-/

namespace CodeGraph

/-- The phases of a run, in their order. -/
inductive Phase where
  | parse
  | analyze
  | build
  | persist
  deriving DecidableEq, Repr, Inhabited

def Phase.word : Phase → String
  | .parse => "parse"
  | .analyze => "analyze"
  | .build => "build"
  | .persist => "persist"

/-- A report on the progress of a run. -/
structure Event where
  phase : Phase
  /-- How much of the phase is done. -/
  fraction : Decimal.Quotient
  detail : String
  deriving DecidableEq, Repr, Inhabited

/-- The fraction with six decimal places, after rounding it to twenty-four binary digits. -/
def Event.fractionText (e : Event) : String :=
  Decimal.sixPlaces (Decimal.nearestBinary 24 e.fraction)

/-- Whether a run is cancelled, given how often it has looked before and how many events it has
reported. -/
abbrev Signal := (looks events : Nat) → Bool

namespace Signal

/-- A run that nobody cancels. -/
def never : Signal := fun _ _ => false

/-- A run that is cancelled from the start. -/
def always : Signal := fun _ _ => true

/-- A run that is cancelled as soon as it has reported so many events. -/
def afterEvents (n : Nat) : Signal := fun _ events => 0 < n && n ≤ events

end Signal

/-- What a run has done so far; the latest event comes first. -/
structure RunState where
  looks : Nat
  events : List Event
  deriving Inhabited

/-- A computation that looks at a signal, reports events and may fail. -/
def Run (ε α : Type) : Type := Signal → RunState → Except ε α × RunState

namespace Run

instance : Monad (Run ε) where
  pure a := fun _ s => (.ok a, s)
  bind r f := fun signal s =>
    match r signal s with
    | (.ok a, s) => f a signal s
    | (.error e, s) => (.error e, s)

/-- Stop with an error. -/
def fail (e : ε) : Run ε α := fun _ s => (.error e, s)

/-- A computation that reports nothing. -/
def ofExcept (r : Except ε α) : Run ε α := fun _ s => (r, s)

/-- The same run with its errors seen from outside. -/
def mapError (f : ε → ε') (r : Run ε α) : Run ε' α := fun signal s =>
  match r signal s with
  | (.ok a, s) => (.ok a, s)
  | (.error e, s) => (.error (f e), s)

/-- Stop if the signal says so. -/
def check (e : ε) : Run ε Unit := fun signal s =>
  let next : RunState := ⟨s.looks + 1, s.events⟩
  (if signal s.looks s.events.length then .error e else .ok (), next)

/-- Report an event. -/
def report (phase : Phase) (done total : Nat) (detail : String) : Run ε Unit := fun _ s =>
  (.ok (), ⟨s.looks, ⟨phase, ⟨done, total⟩, detail⟩ :: s.events⟩)

/-- The outcome of a run and the events it reports. -/
def perform (r : Run ε α) (signal : Signal) : Except ε α × List Event :=
  let (outcome, s) := r signal ⟨0, []⟩
  (outcome, s.events.reverse)

/-- The outcome of a run alone. -/
def outcome (r : Run ε α) (signal : Signal) : Except ε α := (r.perform signal).1

end Run

end CodeGraph
