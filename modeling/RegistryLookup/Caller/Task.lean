import RegistryLookup.Caller.Basic

/-!
# The tasks of a caller

What happens to a caller on the clock: its calls take turns, their tokens fire, they are
dropped, and its cache is swept and cleaned up. Each of these wakes the calls that it concerns.
-/

namespace RegistryLookup.Caller

variable {α : Type}

/-- What happens on the clock. -/
inductive Task
  | call (c : Nat)
  | fire (c : Nat)
  | abort (c : Nat)
  | chore (chore : Tended.Chore)
  deriving DecidableEq

/-- What is planned for a call from outside. -/
structure Plan where
  /-- When its token fires. -/
  cancelAt : Option Nat := none
  /-- When it is dropped. -/
  abortAt : Option Nat := none

/-- The calls that were given a permit by a change. -/
def newlyGranted (before after : Caller α) : List Nat :=
  after.permits.granted.filter (fun c => !before.permits.granted.contains c)

/-- The tasks that a change wakes, in the order in which the change came about: the background
work that the cache asks for, the calls whose flight is over, and those given a permit. `c` is
the call that brought the change. -/
def woken (before after : Caller α) (c : Nat) : List Task :=
  (Tended.called before.cache after.cache).map .chore ++
    (after.flights.freedBy c).map .call ++ (newlyGranted before after).map .call

/-- Let something happen. `answers` says what the attempts of each call come to. A cache that has
been closed is not cleaned up here. -/
def run (answers : Nat → Answers α) (now : Nat) (task : Task) (s : Caller α) :
    Caller α × List Task :=
  match task with
  | .call c => let after := s.turn (answers c) now c; (after, woken s after c)
  | .fire c => (s.fire c, [.call c])
  | .abort c => let after := s.drop c; (after, woken s after c)
  | .chore chore => (s.perform now false chore, [])

/-- Close a caller; every call in the queue for permits is woken. -/
def closeAndWake (s : Caller α) : Caller α × List Task :=
  (s.close, s.permits.queue.map .call)

/-- Whether the token of a call has fired. -/
def hasFired (s : Caller α) (c : Nat) (call : Call α) : Bool :=
  match call.stage with
  | .arriving fired => fired
  | .queued fired => fired
  | .admitted => ((s.flights.calls.get? c).map (·.fired)).getD false
  | _ => true

/-- The timer for which an admitted call waits. -/
def workTimer (s : Caller α) (c : Nat) : Option Nat :=
  match s.flights.calls.get? c with
  | some ⟨_, _, .leading load⟩ => load.timer
  | _ => none

/-- The timers of the calls under way and of the background work. Of several at one instant
those of the call itself come first. -/
def timers (plans : Table Nat Plan) (s : Caller α) : List (Nat × Task) :=
  s.calls.flatMap (fun (c, call) =>
    if call.isOpen then
      let plan := (plans.get? c).getD {}
      (s.workTimer c).toList.map (·, .call c) ++
        (if s.hasFired c call then [] else plan.cancelAt.toList.map (·, .fire c)) ++
        plan.abortAt.toList.map (·, .abort c)
    else []) ++
  s.flights.store.tended.timers.map (fun (t, chore) => (t, .chore chore))

/-- A bound on the turns at one instant: every call can move on, and every call can be woken for
each of the others. -/
def turns (s : Caller α) : Nat := (s.calls.length + 4) * (s.calls.length + 4)

/-- Whether every call has ended. -/
def isDone (s : Caller α) : Bool := s.calls.all (fun p => !p.2.isOpen)

end RegistryLookup.Caller
