import RegistryLookup.Proofs.Gateway.Run

/-!
# Steps of operations as runs

Operations that are performed step by step, as a session does, are one run of events among many:
the operations of a step are asked for, and then ready tasks take turns in the order in which they
were woken, and time passes only when no task is ready (`steps_run`). What holds of every run holds
of them.
-/

namespace RegistryLookup.Gateway

variable {x w : World}

/-- A world to which a run of events comes. -/
structure Reached (x w : World) : Prop where
  nodup : w.ready.Nodup
  run : ∃ es, w = worldAt x es es.length

theorem Reached.refl (h : x.ready.Nodup) : Reached x x := ⟨h, [], rfl⟩

/-- One more event. -/
theorem Reached.step (h : Reached x w) (e : Event) (hnodup : (step w e).ready.Nodup) :
    Reached x (step w e) := by
  obtain ⟨es, hes⟩ := h.run
  refine ⟨hnodup, es ++ [e], ?_⟩
  rw [worldAt, Trace.after_append, ← worldAt, ← hes]
  rfl

theorem Reached.turn (h : Reached x w) : Reached x (w.turn Session.system) := by
  cases hr : w.ready with
  | nil =>
    have hrest : w.turn Session.system = w := by
      unfold Clock.World.turn
      simp only [hr]
    rw [hrest]
    exact h
  | cons task rest =>
    have hmem : task ∈ w.ready := by rw [hr]; exact List.mem_cons_self
    have hstep : w.turn Session.system = Gateway.step w (.turn task) := by
      rw [Clock.World.turn_of_ready h.nodup hr, Gateway.step, if_pos hmem]
      rfl
    rw [hstep]
    refine h.step _ ?_
    rw [Gateway.step, if_pos hmem]
    exact Clock.World.nodup_wake (h.nodup.filter _) _

theorem Reached.pass (h : Reached x w) (limit : Nat) : Reached x (w.pass Session.system limit) := by
  refine h.step (.pass limit) ?_
  show (w.pass Session.system limit).ready.Nodup
  unfold Clock.World.pass
  split
  · exact h.nodup
  · exact Clock.World.nodup_wake h.nodup _

/-- The operations of a step are asked for. -/
def asked (w : World) (operations : List Operation) : World :=
  let numbers := (List.range operations.length).map (w.state.operations.length + ·)
  let s := { w.state with operations := w.state.operations ++ numbers.zip operations }
  { w with state := s }.wake (numbers.map .operation)

theorem asked_cons (w : World) (operation : Operation) (operations : List Operation) :
    asked w (operation :: operations) = asked (step w (.ask operation)) operations := by
  have hlength : (step w (.ask operation)).state.operations.length =
      w.state.operations.length + 1 := List.length_append
  unfold asked
  simp only [← List.range'_eq_map_range]
  rw [hlength, List.length_cons, List.range'_succ]
  simp [step, Clock.World.wake]

theorem Reached.asked (h : Reached x w) (operations : List Operation) :
    Reached x (asked w operations) := by
  -- one operation after the other
  induction operations generalizing w with
  | nil =>
    have hsame : Gateway.asked w [] = w := by simp [Gateway.asked, Clock.World.wake]
    rw [hsame]
    exact h
  | cons operation operations ih =>
    rw [asked_cons]
    exact ih (h.step _ (Clock.World.nodup_wake h.nodup _))

theorem Reached.step_operations (h : Reached x w) (operations : List Operation) :
    Reached x (Session.step w operations).2 := by
  unfold Session.step
  exact Clock.World.advanceUntil_keeps (P := Reached x) (fun _ => Reached.turn)
    (fun _ hw => hw.pass _)
    (Clock.World.settle_keeps (P := Reached x) (fun _ => Reached.turn) (h.asked operations))

theorem Reached.steps (h : Reached x w) (steps : List (List Operation)) :
    Reached x (Session.steps w steps).2 := by
  induction steps generalizing w with
  | nil => exact h
  | cons operations steps ih => exact ih (h.step_operations operations)

end RegistryLookup.Gateway
