import RegistryLookup.Caller.Task
import RegistryLookup.Proofs.Trace

/-!
# Runs of a resilient caller

Calls come in, tasks that are ready run in any order, tokens fire, calls are dropped, the caller
is closed, its cache is told to forget keys, and time passes, no further than to the next timer.
A task that is ready may have to wait for its turn for any time. Every list of events is a run: an
event that cannot happen changes nothing.
-/

namespace RegistryLookup.Caller

variable {α : Type}

/-- What can happen. -/
inductive Event (α : Type)
  /-- A call comes in; whether its token has fired already. -/
  | call (c : Nat) (key : String) (ttl : Nat) (fired : Bool)
  /-- A ready call takes a turn, and the attempts that begin in it come to these outcomes. -/
  | turn (c : Nat) (answers : Answers α)
  /-- Background work of the cache that is due is done. If the cache has been closed before a
  cleanup that is due, its timer may be looked at first all the same. -/
  | chore (chore : Tended.Chore) (timerFirst : Bool)
  /-- A call is woken for no reason. -/
  | wake (c : Nat)
  | fire (c : Nat)
  | abort (c : Nat)
  | close
  | delete (key : String)
  | deleteStartingWith (start : String)
  /-- Time passes up to an instant, or to the first timer before it. -/
  | pass (limit : Nat)

/-- A caller on the clock, with the tasks that are ready. -/
abbrev World (α : Type) := Clock.World (Caller α) Task

/-- The tasks of a caller, given what the attempts that begin now come to. Tokens fire and calls
are dropped by events only, so nothing is planned for them. -/
def system (answers : Answers α) : Clock.System (Caller α) Task where
  run := run (fun _ => answers)
  timers := timers []
  turns := turns

/-- Attempts that never end. -/
def silence : Answers α := fun _ => { takes := none, result := .error .cancelled }

/-- Let a task run and wake others. -/
def runTask (x : World α) (task : Task) (answers : Answers α) : World α :=
  let (s, woken) := (system answers).run x.now task x.state
  { x with state := s, ready := x.ready.filter (· ≠ task) }.wake woken

/-- Background work of the cache is done. -/
def tend (x : World α) (chore : Tended.Chore) (timerFirst : Bool) : World α :=
  { x with
    state := x.state.perform x.now timerFirst chore
    ready := x.ready.filter (· ≠ .chore chore) }

/-- The world after an event. -/
def step (x : World α) : Event α → World α
  | .call c key ttl fired =>
    if (x.state.calls.get? c).isSome then x
    else { x with state := x.state.start c key ttl fired }.wake [.call c]
  | .turn c answers => if .call c ∈ x.ready then runTask x (.call c) answers else x
  | .chore chore timerFirst => if .chore chore ∈ x.ready then tend x chore timerFirst else x
  | .wake c => x.wake [.call c]
  | .fire c => runTask x (.fire c) silence
  | .abort c => runTask x (.abort c) silence
  | .close =>
    let (s, woken) := x.state.closeAndWake
    { x with state := s }.wake woken
  | .delete key => { x with state := x.state.withCache (x.state.cache.delete key).2 }
  | .deleteStartingWith start =>
    { x with state := x.state.withCache (x.state.cache.deleteStartingWith start).2 }
  | .pass limit =>
    match x.nextTimer (system silence) limit with
    | none => { x with now := max x.now limit }
    | some t => x.jump (system silence) t

/-- A new caller, before the first event. -/
def dawn (name : String) (settings : Config.Settings) (now : Nat) : World α :=
  { now := now, state := make name settings now }

/-- The world after the first `n` events. -/
abbrev worldAt (x : World α) (es : List (Event α)) (n : Nat) : World α := Trace.after step x es n

theorem worldAt_zero (x : World α) (es : List (Event α)) : worldAt x es 0 = x := Trace.after_zero

theorem worldAt_succ (x : World α) {es : List (Event α)} {n : Nat} {e : Event α}
    (he : es[n]? = some e) : worldAt x es (n + 1) = step (worldAt x es n) e :=
  Trace.after_of_getElem? he

theorem worldAt_cases (x : World α) (es : List (Event α)) (n : Nat) :
    (es[n]? = none ∧ worldAt x es (n + 1) = worldAt x es n) ∨
      ∃ e, es[n]? = some e ∧ worldAt x es (n + 1) = step (worldAt x es n) e :=
  Trace.after_cases step x es n

end RegistryLookup.Caller
