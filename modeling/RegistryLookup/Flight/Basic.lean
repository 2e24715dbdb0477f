import RegistryLookup.Failure
import RegistryLookup.Metrics
import RegistryLookup.Table

/-!
# Flights: one piece of work for many callers

Calls for one key share their work. The first call leads a flight: it does its own work. A
call that comes while the flight is under way waits for it and is served its result. A leader
that fails although its own token has fired, or that is dropped, hands the flight over: nothing
is published, and the calls that waited compete again.

Calls take turns. In a turn a call goes on until it has to wait, and no other call takes a turn
in between.
-/

namespace RegistryLookup

namespace Flight

/-- What a turn of work leaves: work to go on with, or a result. -/
inductive Progress (ω α : Type)
  | running (work : ω)
  | finished (result : Except Failure α)

/-- A kind of work that takes turns. It shares a store `σ` with the work of other calls, is
given an input `ι` in each turn, and learns the instant, the call that it belongs to and
whether the token of that call has fired. -/
structure Work (σ ω ι α : Type) where
  turn : ι → Nat → Nat → Bool → ω → σ → Progress ω α × σ

/-- What a call that has ended was to its flight. -/
inductive Role
  /-- It did the work; the result was published, or the flight handed over. -/
  | leader (published : Bool)
  /-- It was served by the flight of another call. -/
  | served (leader : Nat)
  /-- Its token fired while it waited. -/
  | gaveUp
  deriving DecidableEq

/-- How a call ended. -/
structure Ending (α : Type) where
  result : Except Failure α
  role : Role
  /-- When it ended. -/
  instant : Nat

/-- Whether a call got the result of another call's work. -/
def Ending.shared {α : Type} (e : Ending α) : Bool :=
  match e.role with
  | .served _ => true
  | _ => false

/-- Where a call stands. -/
inductive Phase (ω α : Type)
  /-- It has not had its first turn. -/
  | arriving (work : ω)
  /-- It waits for the flight of a leader; its own work is not begun. -/
  | waiting (leader : Nat) (work : ω)
  /-- It leads a flight. -/
  | leading (work : ω)
  | ended (ending : Ending α)
  /-- It was dropped before it ended. -/
  | dropped

/-- A call for a key. -/
structure Call (ω α : Type) where
  key : String
  /-- Whether its token has fired. -/
  fired : Bool
  phase : Phase ω α

/-- What became of the flight of a leader. -/
inductive Fate (α : Type)
  | flying
  | landed (result : Except Failure α)
  | lost

/-- What a phase says about the flight that is led. -/
def Phase.fate {ω α : Type} : Phase ω α → Fate α
  | .leading _ => .flying
  | .ended ⟨r, .leader true, _⟩ => .landed r
  | _ => .lost

end Flight

/-- The calls that share work, the flights under way, and the store of their work. -/
structure Flights (σ ω α : Type) where
  name : String
  calls : Table Nat (Flight.Call ω α) := []
  /-- The keys of the flights under way, each with its leader. -/
  inFlight : Table String Nat := []
  store : σ
  /-- What was noted, newest first. -/
  journal : List Sample := []

namespace Flights

open Flight

variable {σ ω ι α : Type}

/-- Take in a new call. -/
def start (s : Flights σ ω α) (c : Nat) (key : String) (fired : Bool) (work : ω) :
    Flights σ ω α :=
  { s with calls := s.calls.put c ⟨key, fired, .arriving work⟩ }

/-- Put a call into a phase. -/
def become (s : Flights σ ω α) (c : Nat) (call : Call ω α) (phase : Phase ω α) :
    Flights σ ω α :=
  { s with calls := s.calls.put c { call with phase := phase } }

/-- Take the flight of a leader off the table. -/
def land (s : Flights σ ω α) (key : String) (c : Nat) : Flights σ ω α :=
  if s.inFlight.get? key = some c then { s with inFlight := s.inFlight.erase key } else s

/-- Let a leader's work take a turn. A failure of a call whose token has fired is not
published. -/
def work (w : Work σ ω ι α) (i : ι) (now c : Nat) (call : Call ω α) (task : ω)
    (s : Flights σ ω α) : Flights σ ω α :=
  let (progress, store) := w.turn i now c call.fired task s.store
  let s := { s with store := store }
  match progress with
  | .running task => s.become c call (.leading task)
  | .finished r =>
    let published := !(call.fired && !r.isOk)
    (s.become c call (.ended ⟨r, .leader published, now⟩)).land call.key c

/-- Compete for the key: lead a flight if there is none, else wait for the one there is. -/
def join (w : Work σ ω ι α) (i : ι) (now c : Nat) (call : Call ω α) (task : ω)
    (s : Flights σ ω α) : Flights σ ω α :=
  match s.inFlight.get? call.key with
  | none => work w i now c call task { s with inFlight := s.inFlight.put call.key c }
  | some leader =>
    if call.fired then s.become c call (.ended ⟨.error .cancelled, .gaveUp, now⟩)
    else s.become c call (.waiting leader task)

/-- The fate of the flight of a call. -/
def fate (s : Flights σ ω α) (leader : Nat) : Fate α :=
  match s.calls.get? leader with
  | some call => call.phase.fate
  | none => .lost

/-- Let a call take a turn. -/
def turn (w : Work σ ω ι α) (i : ι) (now c : Nat) (s : Flights σ ω α) : Flights σ ω α :=
  match s.calls.get? c with
  | none => s
  | some call =>
    match call.phase with
    | .arriving task => s.join w i now c call task
    | .waiting leader task =>
      if call.fired then s.become c call (.ended ⟨.error .cancelled, .gaveUp, now⟩)
      else match s.fate leader with
        | .flying => s
        | .landed r =>
          { s.become c call (.ended ⟨r, .served leader, now⟩) with
            journal := .shared s.name :: s.journal }
        | .lost => s.join w i now c call task
    | .leading task => s.work w i now c call task
    | .ended _ => s
    | .dropped => s

/-- Let the token of a call fire. -/
def fire (s : Flights σ ω α) (c : Nat) : Flights σ ω α :=
  match s.calls.get? c with
  | none => s
  | some call => { s with calls := s.calls.put c { call with fired := true } }

/-- Drop a call that has not ended. The flight of a dropped leader is handed over. -/
def drop (s : Flights σ ω α) (c : Nat) : Flights σ ω α :=
  match s.calls.get? c with
  | none => s
  | some call =>
    match call.phase with
    | .ended _ => s
    | _ => (s.become c call .dropped).land call.key c

/-- How a call ended, if it has. -/
def ending? (s : Flights σ ω α) (c : Nat) : Option (Ending α) :=
  match s.calls.get? c with
  | some ⟨_, _, .ended e⟩ => some e
  | _ => none

/-- The calls that wait for the flight of a leader. -/
def waitersOf (s : Flights σ ω α) (leader : Nat) : List Nat :=
  s.calls.filterMap (fun p => match p.2.phase with
    | .waiting l _ => if l = leader then some p.1 else none
    | _ => none)

/-- The calls that a change wakes: those that wait for a flight that is no longer under way. -/
def freedBy (s : Flights σ ω α) (leader : Nat) : List Nat :=
  match s.fate leader with
  | .flying => []
  | _ => s.waitersOf leader

end Flights

end RegistryLookup
