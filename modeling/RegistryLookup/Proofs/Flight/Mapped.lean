import RegistryLookup.Flight.Basic

/-!
# Flights that share another store

Where two kinds of work do the same up to a map between their stores, flights take the same turns
whichever store they share.

* `Work.Along`: work does the same along a map between stores.
* `mapStore_turn`: so do the flights.
-/

namespace RegistryLookup

namespace Flight

variable {σ τ ω ι α : Type}

/-- `w'` does on mapped stores what `w` does. -/
def Work.Along (f : σ → τ) (w : Work σ ω ι α) (w' : Work τ ω ι α) : Prop :=
  ∀ i now c fired task s, w'.turn i now c fired task (f s) =
    ((w.turn i now c fired task s).1, f (w.turn i now c fired task s).2)

end Flight

namespace Flights

open Flight

variable {σ τ ω ι α : Type} {f : σ → τ} {w : Work σ ω ι α} {w' : Work τ ω ι α}

/-- The same flights with another store. -/
def mapStore (f : σ → τ) (s : Flights σ ω α) : Flights τ ω α := { s with store := f s.store }

theorem mapStore_land (s : Flights σ ω α) (key : String) (c : Nat) :
    (s.land key c).mapStore f = (s.mapStore f).land key c := by
  have hsame : (s.mapStore f).inFlight = s.inFlight := rfl
  unfold land
  rw [hsame]
  split <;> rfl

theorem mapStore_work (h : w.Along f w') (i : ι) (now c : Nat) (call : Call ω α) (task : ω)
    (s : Flights σ ω α) :
    (s.work w i now c call task).mapStore f = (s.mapStore f).work w' i now c call task := by
  have hturn : w'.turn i now c call.fired task (s.mapStore f).store =
      ((w.turn i now c call.fired task s.store).1, f (w.turn i now c call.fired task s.store).2) :=
    h i now c call.fired task s.store
  unfold work
  simp only [hturn]
  cases (w.turn i now c call.fired task s.store).1 with
  | running task' => rfl
  | finished r => exact mapStore_land _ _ _

theorem mapStore_join (h : w.Along f w') (i : ι) (now c : Nat) (call : Call ω α) (task : ω)
    (s : Flights σ ω α) :
    (s.join w i now c call task).mapStore f = (s.mapStore f).join w' i now c call task := by
  have hsame : (s.mapStore f).inFlight = s.inFlight := rfl
  unfold join
  rw [hsame]
  cases s.inFlight.get? call.key with
  | none => exact mapStore_work h i now c call task _
  | some l =>
    simp only
    split <;> rfl

/-- **Flights take the same turns on a mapped store.** -/
theorem mapStore_turn (h : w.Along f w') (i : ι) (now c : Nat) (s : Flights σ ω α) :
    (s.turn w i now c).mapStore f = (s.mapStore f).turn w' i now c := by
  have hcalls : (s.mapStore f).calls = s.calls := rfl
  have hfate : ∀ l, (s.mapStore f).fate l = s.fate l := fun _ => rfl
  unfold turn
  rw [hcalls]
  cases s.calls.get? c with
  | none => rfl
  | some call =>
    simp only
    cases call.phase with
    | arriving task => exact mapStore_join h i now c call task s
    | waiting l task =>
      simp only [hfate]
      split
      · rfl
      · cases s.fate l with
        | flying => rfl
        | landed r => rfl
        | lost => exact mapStore_join h i now c call task s
    | leading task => exact mapStore_work h i now c call task s
    | ended e => rfl
    | dropped => rfl

theorem mapStore_fire (c : Nat) (s : Flights σ ω α) :
    (s.fire c).mapStore f = (s.mapStore f).fire c := by
  have hcalls : (s.mapStore f).calls = s.calls := rfl
  unfold fire
  rw [hcalls]
  cases s.calls.get? c <;> rfl

theorem mapStore_drop (c : Nat) (s : Flights σ ω α) :
    (s.drop c).mapStore f = (s.mapStore f).drop c := by
  have hcalls : (s.mapStore f).calls = s.calls := rfl
  unfold drop
  rw [hcalls]
  cases s.calls.get? c with
  | none => rfl
  | some call =>
    simp only
    cases call.phase with
    | ended e => rfl
    | _ => exact mapStore_land _ _ _

end Flights

end RegistryLookup
