import RegistryLookup.Flight.Basic

/-!
# Jobs of a known length

A job takes some time and then has a result. One that observes the token of its call stops as
soon as the token fires. Every job that is really run is on record.
-/

namespace RegistryLookup.Flight

variable {α : Type}

/-- A piece of work whose course is known beforehand. -/
structure Job (α : Type) where
  /-- How long it takes; `none` if it never ends. -/
  takes : Option Nat := some 0
  result : Except Failure α
  /-- Whether it stops when the token of its call fires. -/
  observes : Bool := false
  /-- When it began. -/
  since : Option Nat := none

/-- A job that was run. -/
structure Run where
  call : Nat
  start : Nat
  finish : Option Nat := none
  deriving DecidableEq

/-- Note the end of the job of a call. -/
def noteFinish (call now : Nat) (runs : List Run) : List Run :=
  runs.map (fun r => if r.call = call then { r with finish := some now } else r)

/-- Jobs as work: one turn begins a job, and a turn at its end or later ends it. -/
def jobWork : Work (List Run) (Job α) Unit α where
  turn _ now call fired job runs :=
    if job.observes && fired then (.finished (.error .cancelled), runs)
    else
      let (since, runs) := match job.since with
        | some t => (t, runs)
        | none => (now, ⟨call, now, none⟩ :: runs)
      match job.takes with
      | none => (.running { job with since := some since }, runs)
      | some d =>
        if now < since + d then (.running { job with since := some since }, runs)
        else (.finished job.result, noteFinish call now runs)

/-- The instant for which a job waits. -/
def Job.timer (job : Job α) : Option Nat :=
  match job.since, job.takes with
  | some t, some d => some (t + d)
  | _, _ => none

end RegistryLookup.Flight
