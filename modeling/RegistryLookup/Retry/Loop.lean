import RegistryLookup.Metrics
import RegistryLookup.Retry.Policy

/-!
# The retry loop

A loop makes one attempt after another until one succeeds, fails for good, or was the last one
allowed. Between two attempts it rests; only a rest can be cut short by the caller's token.
A loop takes turns: in a turn it moves on as far as it can without waiting.
-/

namespace RegistryLookup.Retry

variable {α : Type}

/-- What an attempt comes to: how long it takes, and then its result. An attempt that takes no
time at all is over at once; one that takes `none` never ends. -/
structure Outcome (α : Type) where
  takes : Option Nat := some 0
  result : Except Failure α

/-- Where a loop stands. -/
inductive Phase (α : Type)
  /-- About to make the next attempt. -/
  | ready
  /-- In an attempt that began at an instant. -/
  | attempting (since : Nat) (outcome : Outcome α)
  /-- Waiting for an instant before the next attempt. -/
  | resting (wakesAt : Nat)

/-- A retry loop: the attempts made so far, and where it stands. -/
structure Loop (α : Type) where
  tries : UInt32 := 0
  phase : Phase α := .ready

/-- What can be noticed about a loop. -/
inductive Notice (α : Type)
  /-- An attempt began. -/
  | began (number : UInt32)
  /-- An attempt ended. -/
  | ended (number : UInt32) (result : Except Failure α)
  /-- The loop is going to rest because of a failure. -/
  | retried (failure : Failure)

/-- What follows an attempt. -/
inductive Verdict (α : Type)
  | finish (result : Except Failure α)
  | rest (failure : Failure) (delay : Nat)

namespace Policy

/-- What follows attempt number `n` with a result. -/
def verdict (p : Policy) (n : UInt32) : Except Failure α → Verdict α
  | .ok v => .finish (.ok v)
  | .error e =>
    if !e.isRetryable || p.maxAttempts ≤ n then .finish (.error e) else .rest e (p.delayFor n e)

end Policy

/-- One move of a loop. -/
inductive Move (α : Type)
  /-- It has to wait. -/
  | wait
  /-- It goes on, and these things are noticed. -/
  | step (notices : List (Notice α)) (next : Loop α)
  /-- It is over. -/
  | finish (notices : List (Notice α)) (result : Except Failure α)

/-- The next move of a loop at an instant. `answers` says what each attempt that begins now
comes to, and `fired` whether the caller's token has fired. -/
def Loop.move (p : Policy) (answers : UInt32 → Outcome α) (now : Nat) (fired : Bool)
    (l : Loop α) : Move α :=
  match l.phase with
  | .ready =>
    let n := l.tries + 1
    .step [.began n] ⟨n, .attempting now (answers n)⟩
  | .attempting since outcome =>
    match outcome.takes with
    | none => .wait
    | some d =>
      if now < since + d then .wait
      else match p.verdict l.tries outcome.result with
        | .finish r => .finish [.ended l.tries outcome.result] r
        | .rest e delay =>
          .step [.ended l.tries outcome.result, .retried e] ⟨l.tries, .resting (now + delay)⟩
  | .resting wakesAt =>
    if fired then .finish [] (.error .cancelled)
    else if now < wakesAt then .wait
    else .step [] ⟨l.tries, .ready⟩

/-- A loop after a turn, or its result, and what was noticed, first thing first. -/
structure Turn (α : Type) where
  notices : List (Notice α)
  rest : Loop α ⊕ Except Failure α

/-- At most `fuel` moves. -/
def Loop.turnFor (p : Policy) (answers : UInt32 → Outcome α) (now : Nat) (fired : Bool) :
    Nat → Loop α → Turn α
  | 0, l => ⟨[], .inl l⟩
  | fuel + 1, l =>
    match l.move p answers now fired with
    | .wait => ⟨[], .inl l⟩
    | .finish notices r => ⟨notices, .inr r⟩
    | .step notices next =>
      let t := turnFor p answers now fired fuel next
      ⟨notices ++ t.notices, t.rest⟩

/-- A turn: as many moves as the loop can make without waiting. Three moves belong to an
attempt: to begin it, to end it, and to rest. -/
def Loop.turn (p : Policy) (answers : UInt32 → Outcome α) (now : Nat) (fired : Bool)
    (l : Loop α) : Turn α :=
  l.turnFor p answers now fired (3 * (p.maxAttempts.toNat - l.tries.toNat) + 3)

/-- The instant for which a loop waits. -/
def Loop.timer (l : Loop α) : Option Nat :=
  match l.phase with
  | .ready => none
  | .attempting since outcome => outcome.takes.map (since + ·)
  | .resting wakesAt => some wakesAt

/-- The samples of what was noticed, newest first. -/
def samples (label : String) (notices : List (Notice α)) : List Sample :=
  (notices.filterMap (fun
    | .retried e => some (Sample.retry label (reason e))
    | _ => none)).reverse

end RegistryLookup.Retry
