import RegistryLookup.Retry.Loop

/-!
# The record of attempts

Notices are kept with the call that they belong to and the instant, newest first. From this
record the attempts are read off: when each one began, and when it ended, if it did.
-/

namespace RegistryLookup.Retry

variable {α : Type}

/-- Something noticed about the loop of a call. -/
structure Entry (α : Type) where
  call : Nat
  instant : Nat
  notice : Notice α

/-- An attempt of a call. -/
structure Trial where
  call : Nat
  number : Nat
  start : Nat
  finish : Option Nat
  deriving DecidableEq

/-- When attempt `number` of a call ended, if the record shows it. -/
def finishOf (record : List (Entry α)) (call : Nat) (number : UInt32) : Option Nat :=
  record.findSome? (fun e => match e.notice with
    | .ended n _ => if e.call = call ∧ n = number then some e.instant else none
    | _ => none)

/-- The attempts of a record, in the order in which they began. -/
def trials (record : List (Entry α)) : List Trial :=
  record.reverse.filterMap (fun e => match e.notice with
    | .began n => some ⟨e.call, n.toNat, e.instant, finishOf record e.call n⟩
    | _ => none)

/-- Add what was noticed in a turn of a call. -/
def enter (call now : Nat) (notices : List (Notice α)) (record : List (Entry α)) :
    List (Entry α) :=
  (notices.map (fun n => ⟨call, now, n⟩)).reverse ++ record

end RegistryLookup.Retry
