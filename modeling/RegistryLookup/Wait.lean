import RegistryLookup.Failure

/-!
# Waiting with a token

Wherever a call waits, its token is looked at first: a token that has fired ends the wait, even
if what was waited for is there too.
-/

namespace RegistryLookup.Wait

/-- What is seen when a call that waits takes a turn: that its token has fired, or else what it
waits for, if that is there. -/
def look {α : Type} (fired : Bool) (there : Option α) : Option (Except Failure α) :=
  if fired then some (.error .cancelled) else there.map .ok

/-- When a token fires, if it does. -/
inductive Token
  | never
  /-- It has fired before the wait begins. -/
  | fired
  | firesAt (instant : Nat)

/-- Whether a token has fired when a wait of some duration has lasted for some time. A token that
fires at the very end of the wait comes too late. -/
def Token.hasFired (delay elapsed : Nat) : Token → Bool
  | .never => false
  | .fired => true
  | .firesAt t => t < delay && t ≤ elapsed

/-- How a wait of some duration that begins at zero ends, and when. -/
def race (delay : Nat) : Token → Except Failure Unit × Nat
  | .never => (.ok (), delay)
  | .fired => (.error .cancelled, 0)
  | .firesAt t => if t < delay then (.error .cancelled, t) else (.ok (), delay)

end RegistryLookup.Wait
