/-!
# Tasks on a virtual clock

Tasks take turns. A task runs until it has to wait, and the tasks that it wakes queue up behind
those that are ready already. When no task is ready, the clock moves on to the next timer.
Running takes no time.

* `now_settle`: however many turns are taken, the clock stands still.
-/

namespace RegistryLookup.Clock

/-- How tasks act on a state. -/
structure System (σ τ : Type) where
  /-- Run a task at an instant; gives the tasks that it woke, first one first. -/
  run : Nat → τ → σ → σ × List τ
  /-- The timers that are set, each with the task that it wakes. -/
  timers : σ → List (Nat × τ)
  /-- A bound on the turns that can be taken at one instant. -/
  turns : σ → Nat

/-- A state on the clock, with the tasks that are ready to run. -/
structure World (σ τ : Type) where
  now : Nat := 0
  state : σ
  ready : List τ := []

namespace World

variable {σ τ : Type} [DecidableEq τ]

/-- Queue up tasks; one that is queued already keeps its place. -/
def wake (w : World σ τ) (tasks : List τ) : World σ τ :=
  { w with ready := tasks.foldl (fun q t => if t ∈ q then q else q ++ [t]) w.ready }

/-- Let the first ready task run. -/
def turn (sys : System σ τ) (w : World σ τ) : World σ τ :=
  match w.ready with
  | [] => w
  | t :: rest =>
    let (state, woken) := sys.run w.now t w.state
    { w with state := state, ready := rest }.wake woken

/-- Let ready tasks run, at most `fuel` turns. -/
def settleFor (sys : System σ τ) : Nat → World σ τ → World σ τ
  | 0, w => w
  | fuel + 1, w =>
    match w.ready with
    | [] => w
    | _ :: _ => settleFor sys fuel (w.turn sys)

/-- Let ready tasks run until none is left. -/
def settle (sys : System σ τ) (w : World σ τ) : World σ τ :=
  w.settleFor sys (sys.turns w.state + w.ready.length)

theorem now_turn (sys : System σ τ) (w : World σ τ) : (w.turn sys).now = w.now := by
  unfold turn; split <;> rfl

theorem now_settleFor (sys : System σ τ) (fuel : Nat) (w : World σ τ) :
    (w.settleFor sys fuel).now = w.now := by
  induction fuel generalizing w with
  | zero => rfl
  | succ n ih =>
    unfold settleFor
    split
    · rfl
    · rw [ih, now_turn]

theorem now_settle (sys : System σ τ) (w : World σ τ) : (w.settle sys).now = w.now :=
  now_settleFor sys _ w

/-- The next instant after now, and not after `limit`, at which a timer fires. -/
def nextTimer (sys : System σ τ) (w : World σ τ) (limit : Nat) : Option Nat :=
  ((sys.timers w.state).filterMap
    (fun t => if w.now < t.1 ∧ t.1 ≤ limit then some t.1 else none)).min?

/-- Move the clock to an instant and wake the tasks whose timers fire then. -/
def jump (sys : System σ τ) (w : World σ τ) (instant : Nat) : World σ τ :=
  let due := (sys.timers w.state).filterMap (fun t => if t.1 = instant then some t.2 else none)
  { w with now := instant }.wake due

omit [DecidableEq τ] in
theorem nextTimer_bounds {sys : System σ τ} {w : World σ τ} {limit t : Nat}
    (h : w.nextTimer sys limit = some t) : w.now < t ∧ t ≤ limit := by
  have hm := List.min?_mem h
  obtain ⟨p, _, hp⟩ := List.mem_filterMap.1 hm
  split at hp
  · rename_i hc
    cases hp
    exact hc
  · cases hp

/-- Let time pass up to `limit`, firing timers on the way. Stops early, at the instant at which
it comes true, when `done` holds of the state. -/
def advanceUntil (sys : System σ τ) (done : σ → Bool) (limit : Nat) (w : World σ τ) :
    World σ τ :=
  if done w.state then w
  else
    match _h : w.nextTimer sys limit with
    | none => { w with now := max w.now limit }
    | some t => advanceUntil sys done limit ((w.jump sys t).settle sys)
  termination_by limit - w.now
  decreasing_by
    have hb := nextTimer_bounds _h
    have hn : ((w.jump sys t).settle sys).now = t := now_settle sys _
    omega

/-- Let time pass up to an instant. -/
def advance (sys : System σ τ) (limit : Nat) (w : World σ τ) : World σ τ :=
  w.advanceUntil sys (fun _ => false) limit

end World

end RegistryLookup.Clock
