import CodeGraph.Settings.Backoff
import CodeGraph.Store.Fault
import CodeGraph.Text.Blank

/-!
# Connecting to a store

* `Endpoint` — where a store is; `Endpoint.ofAddress?` reads it off an address.
* `connect` — attempts to open a store until one succeeds, with waits between them.
-/

namespace CodeGraph

/-- Where a store is. -/
inductive Endpoint where
  | memory
  | file (path : String)
  deriving DecidableEq, Repr

/-- What is left of a text behind a beginning. -/
def textBehind? (beginning s : String) : Option String :=
  if beginning.toList.isPrefixOf s.toList then
    some (String.ofList (s.toList.drop beginning.length))
  else none

/-- The endpoint of an address, which may begin with `sqlite://` or `sqlite:`. -/
def Endpoint.ofAddress? (address : String) : Option Endpoint :=
  let address := Text.trim address
  match ((textBehind? "sqlite://" address).or (textBehind? "sqlite:" address)).getD address with
  | "" => none
  | ":memory:" => some .memory
  | path => some (.file path)

/-- What is done to connect. -/
inductive ConnectionStep where
  | attempt
  | wait (milliseconds : Nat)
  deriving DecidableEq, Repr

/-- Attempt to open a store, and again after a wait as long as attempts are left.  `opened` is what
comes of every attempt, counted from one; `cancelled` is asked before every attempt and after every
wait, given how often it was asked before. -/
def attempts (s : StoreSettings) (opened : Nat → Except DatabaseFault α)
    (cancelled : Nat → Bool) : (left attempt looks : Nat) →
    Except StoreError α × List ConnectionStep
  | left, attempt, looks =>
    if cancelled looks then (.error .cancelled, [])
    else
      match opened attempt, left with
      | .ok a, _ => (.ok a, [.attempt])
      | .error fault, 0 => (.error (.connection s.address attempt fault), [.attempt])
      | .error _, left + 1 =>
        let wait := ConnectionStep.wait (s.retry.delayAfter attempt)
        if cancelled (looks + 1) then (.error .cancelled, [.attempt, wait])
        else
          let (outcome, steps) := attempts s opened cancelled left (attempt + 1) (looks + 2)
          (outcome, .attempt :: wait :: steps)

/-- Open the store of some settings; there is at least one attempt. -/
def connect (s : StoreSettings) (opened : Endpoint → Nat → Except DatabaseFault α)
    (cancelled : Nat → Bool) : Except StoreError α × List ConnectionStep :=
  match Endpoint.ofAddress? s.address with
  | none => (.error .notConfigured, [])
  | some endpoint => attempts s (opened endpoint) cancelled (s.retry.attempts - 1) 1 0

end CodeGraph
