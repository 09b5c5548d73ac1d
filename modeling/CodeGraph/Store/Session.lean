import CodeGraph.Run.Basic
import CodeGraph.Store.Tables

/-!
# Sessions

* `Surroundings` — what a session meets: when it is cancelled, and what the database turns down.
* `Session ε α` — a run that works on a store; what it has changed stays changed when it fails.
* `Session.statement` — one statement on the tables; `Session.createTables` — those that create them.
* `Session.transaction` — the changes of several steps are all kept, or all undone if one fails.
  Transactions stand within each other, and the database keeps the store that each of them goes
  back to.
* `Session.perform` — the outcome, the events and the store that is left.
-/

namespace CodeGraph

/-- What a session meets from outside. -/
structure Surroundings where
  signal : Signal
  /-- What the database turns down for reasons of its own, such as a full disk, given how often it
  was asked before. -/
  refusal : (asked : Nat) → Option DatabaseFault

/-- Surroundings in which the database turns nothing down. -/
def Surroundings.sound (signal : Signal) : Surroundings := ⟨signal, fun _ => none⟩

/-- What a session has done so far, and the store as it is. -/
structure SessionState where
  run : RunState
  store : Store
  /-- The stores that the open transactions go back to, the innermost first. -/
  saved : List Store
  /-- How often the database was asked for something. -/
  asked : Nat
  deriving Inhabited

namespace SessionState

/-- The state before anything is done. -/
def start (store : Store) : SessionState := ⟨⟨0, []⟩, store, [], 0⟩

/-- A transaction is open that goes back to the store as it is. -/
def opened (s : SessionState) : SessionState := { s with saved := s.store :: s.saved }

/-- The innermost transaction is over, and what it changed is kept. -/
def committed (s : SessionState) : SessionState := { s with saved := s.saved.tail }

/-- The innermost transaction is over, and what it changed is undone. -/
def rolledBack (s : SessionState) : SessionState :=
  match s.saved with
  | [] => s
  | store :: saved => { s with store, saved }

end SessionState

/-- A run that works on a store. -/
def Session (ε α : Type) : Type := Surroundings → SessionState → Except ε α × SessionState

namespace Session

instance : Monad (Session ε) where
  pure a := fun _ s => (.ok a, s)
  bind w f := fun around s =>
    match w around s with
    | (.ok a, s) => f a around s
    | (.error e, s) => (.error e, s)

/-- A run that leaves the store alone. -/
def ofRun (r : Run ε α) : Session ε α := fun around s =>
  let (outcome, run) := r around.signal s.run
  (outcome, { s with run })

/-- A result that leaves the store alone. -/
def ofExcept (r : Except ε α) : Session ε α := ofRun (Run.ofExcept r)

/-- The same session with its errors seen from outside. -/
def mapError (f : ε → ε') (w : Session ε α) : Session ε' α := fun around s =>
  match w around s with
  | (.ok a, s) => (.ok a, s)
  | (.error e, s) => (.error (f e), s)

/-- Stop if the signal says so. -/
def check (e : ε) : Session ε Unit := ofRun (Run.check e)

/-- Go on from another state. -/
def update (f : SessionState → SessionState) : Session ε Unit := fun _ s => (.ok (), f s)

/-- Change the store. -/
def change (f : Store → Store) : Session ε Unit := update fun s => { s with store := f s.store }

/-- Ask the store something. -/
def ask (f : Store → Except ε α) : Session ε α := fun _ s => (f s.store, s)

/-- Turn to the database, which may refuse. -/
def request : Session DatabaseFault Unit := fun around s =>
  (match around.refusal s.asked with
    | some fault => .error fault
    | none => .ok (), { s with asked := s.asked + 1 })

/-- Work on the tables, which need be there. -/
def onTables (table : Table) (f : Tables → Except DatabaseFault (α × Tables)) :
    Session DatabaseFault α := fun _ s =>
  match s.store.require table >>= f with
  | .ok (a, t) => (.ok a, { s with store := ⟨some t⟩ })
  | .error e => (.error e, s)

/-- A statement on the tables. -/
def statement (table : Table) (f : Tables → Except DatabaseFault (α × Tables)) :
    Session DatabaseFault α := do
  request
  onTables table f

/-- Create the tables that are missing, by one statement for each of them.  They are there together or
not at all. -/
def createTables : Session StoreError Unit :=
  (do
    forM Table.all fun _ => request
    change Store.withSchema).mapError .schema

/-! ### Transactions -/

/-- Turn to the database for a change of the open transactions. -/
def control (f : SessionState → SessionState) : Session DatabaseFault Unit := do
  request
  update f

/-- The same steps within a transaction that is open: it is closed behind them, and all changes are
undone if one of them fails or the database does not keep them. -/
def closing (seen : DatabaseFault → ε) (w : Session ε α) : Session ε α := fun around s =>
  let kept : Session ε α := do
    let a ← w
    (control .committed).mapError seen
    pure a
  match kept around s with
  | (.ok a, after) => (.ok a, after)
  | (.error e, after) => (.error e, after.rolledBack)

/-- Steps of which all changes are kept or all undone; `seen` is how refusals of the database to
begin or to keep them are seen. -/
def transaction (seen : DatabaseFault → ε) (w : Session ε α) : Session ε α := do
  (control .opened).mapError seen
  closing seen w

/-! ### Whole sessions -/

/-- What a session leaves behind. -/
structure Result (ε α : Type) where
  outcome : Except ε α
  events : List Event
  store : Store

/-- A session on a store from the start. -/
def performIn (around : Surroundings) (w : Session ε α) (store : Store) : Result ε α :=
  let (outcome, s) := w around (.start store)
  ⟨outcome, s.run.events.reverse, s.store⟩

/-- A session on a store from the start, with a database that turns nothing down. -/
def perform (w : Session ε α) (signal : Signal) (store : Store) : Result ε α :=
  w.performIn (.sound signal) store

end Session

end CodeGraph
