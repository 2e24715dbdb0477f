import RegistryLookup.Cache.Basic
import RegistryLookup.Clock

/-!
# A cache with its background work

A tended cache is cleaned up at regular times until it is closed, and a pending sweep runs as a
task of its own.

The task that cleans up waits for two things at once, its timer and the closing of the cache. If
both have come when it gets its turn, it may look at either one first: so a cleanup that was due
when the cache was closed may still run, and after it the task ends. The clock tells instants only
up to some last one; a timer for a later instant fires thirty years on instead.
-/

namespace RegistryLookup

/-- A cache and the time of its next cleanup. -/
structure Tended (α : Type) where
  cache : Cache α
  /-- The time between two cleanups. -/
  interval : Nat
  nextTick : Nat
  /-- The last instant that the clock can tell. -/
  reach : Nat

namespace Tended

variable {α : Type}

/-- What is done in the background. -/
inductive Chore
  | sweep
  | tick
  deriving DecidableEq

/-- The last instant of a clock that counts nanoseconds in a signed word. -/
def wordReach : Nat := 9223372036854775807

/-- How far ahead a timer is set for an instant that the clock cannot tell. -/
def farAhead : Nat := Duration.ofSecs (30 * 365 * 24 * 60 * 60)

/-- When a timer fires that is set at an instant for a time ahead. -/
def timerAfter (reach interval now : Nat) : Nat :=
  if now + interval ≤ reach then now + interval else now + farAhead

/-- An empty cache whose first cleanup is one interval away. Intervals are at least a
millisecond. -/
def make (name : String) (capacity interval reach now : Nat) : Tended α :=
  let interval := max interval (Duration.ofMillis 1)
  { cache := .make name capacity now
    interval := interval
    nextTick := timerAfter reach interval now
    reach := reach }

/-- Clean up, and set the timer again. -/
def tidy (t : Tended α) (now : Nat) : Tended α :=
  { t with
    cache := (t.cache.cleanup now).2
    nextTick := timerAfter t.reach t.interval t.nextTick }

/-- Do a piece of background work. If the cache has been closed before the cleanup that is due,
`timerFirst` says whether the timer is looked at before the closing. -/
def perform (t : Tended α) (now : Nat) (timerFirst : Bool) : Chore → Tended α
  | .sweep => if t.cache.sweepPending then { t with cache := t.cache.sweep } else t
  | .tick => if t.cache.closed && !timerFirst then t else t.tidy now

/-- When the next cleanup is due. -/
def timers (t : Tended α) : List (Nat × Chore) :=
  if t.cache.closed then [] else [(t.nextTick, .tick)]

/-- The background work that a change of the cache calls for. -/
def called (before after : Cache α) : List Chore :=
  if after.sweepPending && !before.sweepPending then [.sweep] else []

/-- The background work as tasks on the clock. -/
def system (timerFirst : Bool) : Clock.System (Tended α) Chore where
  run now chore t := (t.perform now timerFirst chore, [])
  timers := timers
  turns _ := 2

end Tended

end RegistryLookup
