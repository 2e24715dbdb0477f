import RegistryLookup.Cache.Tended
import RegistryLookup.Json.Value

/-!
# A session with a cache

A cache of JSON values that is driven by hand, with or without the background work.
-/

namespace RegistryLookup.Cache

/-- What can be done with a cache. -/
inductive Operation
  | set (key : String) (value : Json) (ttl : Nat)
  /-- Store the numbers from `first` on, below `last`, each under its own key. -/
  | fill (start : String) (first last : Nat) (ttl : Nat)
  | get (key : String)
  | delete (key : String)
  | deleteStartingWith (start : String)
  | evictOldest (n : Nat)
  | cleanup
  | close
  | info
  | advance (duration : Nat)

/-- What an operation gives back. -/
inductive Answer
  | nothing
  | found (value : Option Json)
  | removed (b : Bool)
  | count (n : Nat)
  | info (isEmpty : Bool) (capacity : Nat) (closed : Bool)

/-- How a value is stored: with a pending sweep left to the background, or run at once. -/
abbrev Storing := Cache Json → Nat → String → Json → Nat → Cache Json

/-- Do an operation at an instant; time does not pass here. -/
def perform (store : Storing) (c : Cache Json) (now : Nat) : Operation → Answer × Cache Json
  | .set key value ttl => (.nothing, store c now key value ttl)
  | .fill start first last ttl =>
    (.nothing,
      (List.range (last - first)).foldl
        (fun c i => store c now (start ++ toString (first + i)) (.ofNat (first + i)) ttl) c)
  | .get key => let (v, c) := c.get now key; (.found v, c)
  | .delete key => let (b, c) := c.delete key; (.removed b, c)
  | .deleteStartingWith start => let (n, c) := c.deleteStartingWith start; (.count n, c)
  | .evictOldest n => let (k, c) := c.evictOldest n; (.count k, c)
  | .cleanup => let (n, c) := c.cleanup now; (.count n, c)
  | .close => (.nothing, c.close)
  | .info => (.info (c.size = 0) c.capacity c.closed, c)
  | .advance _ => (.nothing, c)

/-- The time that an operation takes. -/
def Operation.duration : Operation → Nat
  | .advance d => d
  | _ => 0

/-- What is seen after an operation. -/
structure Observation where
  answer : Answer
  /-- The number of entries right after the operation. -/
  size : Nat
  /-- The counts once time has passed and the background work is done. -/
  stats : Stats

/-- A session without background work. After each operation `step` passes. -/
def runAlone (step : Nat) : List Operation → Nat → Cache Json → List Observation × Cache Json
  | [], _, c => ([], c)
  | op :: rest, now, c =>
    let (answer, c) := c.perform setAndSweep now op
    let (seen, final) := runAlone step rest (now + op.duration + step) c
    (⟨answer, c.size, c.stats⟩ :: seen, final)

/-- The background of a session. It has done its work before the next operation, so that no cleanup
is due when the cache is closed. -/
abbrev background : Clock.System (Tended Json) Tended.Chore := Tended.system false

/-- A session with background work. After each operation the work that it called for is done,
and `step` passes. -/
def runTended (step : Nat) :
    List Operation → Clock.World (Tended Json) Tended.Chore → List Observation × Cache Json
  | [], w => ([], w.state.cache)
  | op :: rest, w =>
    let (answer, cache) := w.state.cache.perform Cache.set w.now op
    let chores := Tended.called w.state.cache cache
    let w := ({ w with state := { w.state with cache := cache } }.wake chores)
    let w := if op.duration = 0 then w
      else (w.settle background).advance background (w.now + op.duration)
    let w := w.settle background
    let seen := ⟨answer, cache.size, w.state.cache.stats⟩
    let (others, final) := runTended step rest (w.advance background (w.now + step))
    (seen :: others, final)

end RegistryLookup.Cache
