import RegistryLookup.Flight.Session
import RegistryLookup.Proofs.Trace

/-!
# Runs of calls that share work

Calls come in, those that are ready take turns in any order, tokens fire, calls are dropped, and
time passes when no call is ready. Every list of events is a run: an event that cannot happen
changes nothing. A call is made ready by its own start, by its token, by what its work waits
for, and by the end of the flight that it waits for.

The work is watched: next to its own store it keeps a record of all the turns that it is given.
The recorded turns of a call bring its work from its beginning to where it stands (`Course`).
-/

namespace RegistryLookup.Flight

variable {σ ω ι α : Type}

/-- A turn that the work of a call was given. -/
structure Shift (ω α : Type) where
  call : Nat
  instant : Nat
  /-- Whether the token of the call had fired. -/
  fired : Bool
  task : ω
  progress : Progress ω α

/-- Work that keeps a record of its turns, newest first. -/
def Work.watched (w : Work σ ω ι α) : Work (σ × List (Shift ω α)) ω ι α where
  turn i now c fired task s :=
    let t := w.turn i now c fired task s.1
    (t.1, t.2, ⟨c, now, fired, task, t.1⟩ :: s.2)

/-- Flights whose work is watched. -/
abbrev Watched (σ ω α : Type) := Flights (σ × List (Shift ω α)) ω α

/-- The flights without the record. -/
def forget (s : Watched σ ω α) : Flights σ ω α := { s with store := s.store.1 }

/-- The recorded turns of a call, newest first. -/
def shiftsOf (s : Watched σ ω α) (c : Nat) : List (Shift ω α) :=
  s.store.2.filter (fun h => h.call = c)

/-- The recorded turns lead from the beginning of a work to a progress. -/
inductive Course (work : ω) : List (Shift ω α) → Progress ω α → Prop
  | start : Course work [] (.running work)
  | next {hs : List (Shift ω α)} {h : Shift ω α} :
      Course work hs (.running h.task) → Course work (h :: hs) h.progress

/-- What can happen. -/
inductive Event (ω ι : Type)
  /-- A call comes in. -/
  | start (c : Nat) (key : String) (fired : Bool) (work : ω)
  /-- A ready call takes a turn. -/
  | turn (c : Nat) (input : ι)
  /-- What the work of a call waits for has come. -/
  | wake (c : Nat)
  | fire (c : Nat)
  | drop (c : Nat)
  | pass (instant : Nat)

/-- Flights on the clock, with the calls that are ready. -/
abbrev World (σ ω α : Type) := Clock.World (Watched σ ω α) Nat

/-- Whether a call is under way. -/
def isOpen (s : Flights σ ω α) (c : Nat) : Bool := ((s.calls.get? c).map (·.isOpen)).getD false

/-- Whether no call under way is ready. -/
def idle (x : World σ ω α) : Bool := x.ready.all (fun c => !isOpen x.state c)

/-- The world after an event. -/
def step (w : Work σ ω ι α) (x : World σ ω α) : Event ω ι → World σ ω α
  | .start c key fired work =>
    if (x.state.calls.get? c).isSome then x
    else { x with state := x.state.start c key fired work }.wake [c]
  | .turn c i =>
    if c ∈ x.ready then
      let s := x.state.turn w.watched i x.now c
      { x with state := s, ready := x.ready.filter (· ≠ c) }.wake (s.freedBy c)
    else x
  | .wake c => x.wake [c]
  | .fire c => { x with state := x.state.fire c }.wake [c]
  | .drop c =>
    let s := x.state.drop c
    { x with state := s }.wake (s.freedBy c)
  | .pass instant => if idle x ∧ x.now ≤ instant then { x with now := instant } else x

/-- Before the first event. -/
def dawn (name : String) (store : σ) (now : Nat) : World σ ω α :=
  { now := now, state := { name := name, store := (store, []) } }

/-- The world after the first `n` events. -/
abbrev worldAt (w : Work σ ω ι α) (x : World σ ω α) (es : List (Event ω ι)) (n : Nat) :
    World σ ω α :=
  Trace.after (step w) x es n

theorem worldAt_succ (w : Work σ ω ι α) (x : World σ ω α) {es : List (Event ω ι)} {n : Nat}
    {e : Event ω ι} (he : es[n]? = some e) :
    worldAt w x es (n + 1) = step w (worldAt w x es n) e :=
  Trace.after_of_getElem? he

theorem worldAt_cases (w : Work σ ω ι α) (x : World σ ω α) (es : List (Event ω ι)) (n : Nat) :
    (es[n]? = none ∧ worldAt w x es (n + 1) = worldAt w x es n) ∨
      ∃ e, es[n]? = some e ∧ worldAt w x es (n + 1) = step w (worldAt w x es n) e :=
  Trace.after_cases (step w) x es n

end RegistryLookup.Flight
