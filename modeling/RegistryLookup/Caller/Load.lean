import RegistryLookup.Cache.Tended
import RegistryLookup.Flight.Basic
import RegistryLookup.Retry.Trial

/-!
# Loading a value

The work of a call: look into the cache, and on a miss make attempts and store what they bring.
A value is stored in the turn in which its attempt succeeds.
-/

namespace RegistryLookup.Caller

variable {α : Type}

/-- What all calls of a caller share in their work. -/
structure Store (α : Type) where
  tended : Tended α
  /-- What was noticed about the attempts, newest first. -/
  record : List (Retry.Entry α) := []
  /-- What was noted about the attempts, newest first. -/
  journal : List Sample := []

/-- How far a load is. -/
inductive Load.Stage (α : Type)
  /-- It has not looked into the cache. -/
  | lookup
  /-- It makes attempts. -/
  | trying (loop : Retry.Loop α)

/-- The load of a value for a key. -/
structure Load (α : Type) where
  key : String
  /-- How long the value is kept. -/
  ttl : Nat
  stage : Load.Stage α := .lookup

/-- What the attempts that begin in a turn come to, by their numbers. -/
abbrev Answers (α : Type) := UInt32 → Retry.Outcome α

/-- Change the cache of a store. -/
def Store.withCache (s : Store α) (c : Cache α) : Store α :=
  { s with tended := { s.tended with cache := c } }

/-- Let the loop of a load take a turn. -/
def attempt (policy : Retry.Policy) (label : String) (answers : Answers α) (now call : Nat)
    (fired : Bool) (load : Load α) (loop : Retry.Loop α) (s : Store α) :
    Flight.Progress (Load α) α × Store α :=
  let t := loop.turn policy answers now fired
  let s := { s with
    record := Retry.enter call now t.notices s.record
    journal := Retry.samples label t.notices ++ s.journal }
  match t.rest with
  | .inl loop => (.running { load with stage := .trying loop }, s)
  | .inr (.ok v) => (.finished (.ok v), s.withCache (s.tended.cache.set now load.key v load.ttl))
  | .inr (.error e) => (.finished (.error e), s)

/-- Loads as work. -/
def loadWork (policy : Retry.Policy) (label : String) :
    Flight.Work (Store α) (Load α) (Answers α) α where
  turn answers now call fired load s :=
    match load.stage with
    | .lookup =>
      match s.tended.cache.get now load.key with
      | (some v, cache) => (.finished (.ok v), s.withCache cache)
      | (none, cache) => attempt policy label answers now call fired load {} (s.withCache cache)
    | .trying loop => attempt policy label answers now call fired load loop s

/-- The instant for which a load waits. -/
def Load.timer (load : Load α) : Option Nat :=
  match load.stage with
  | .lookup => none
  | .trying loop => loop.timer

end RegistryLookup.Caller
