import RegistryLookup.Proofs.Cache.Count
import RegistryLookup.Proofs.Caller.Provenance

/-!
# The cache of a caller

A caller changes its cache by the operations of the cache only, so that what all of them keep is
kept in every run of the caller (`kept_worldAt`). A value comes into the cache in a turn of a call
for its key, and at no other time (`call_of_has`).
-/

namespace RegistryLookup

section Kept

variable {α : Type} {P : Cache α → Prop}

theorem Tended.kept_perform (hP : Cache.Kept P) {t : Tended α} (h : P t.cache) (now : Nat)
    (timerFirst : Bool) (chore : Chore) : P (t.perform now timerFirst chore).cache := by
  unfold perform
  cases chore with
  | sweep =>
    simp only
    split
    · exact hP.sweep h
    · exact h
  | tick =>
    simp only
    split
    · exact h
    · exact hP.cleanup h now

namespace Caller

theorem kept_attempt (hP : Cache.Kept P) (policy : Retry.Policy) (label : String)
    (answers : Answers α) (now c : Nat) (fired : Bool) (load : Load α) (loop : Retry.Loop α)
    {s : Store α} (h : P s.tended.cache) :
    P (attempt policy label answers now c fired load loop s).2.tended.cache := by
  rcases attempt_cases policy label answers now c fired load loop s with ⟨-, -, -, hsame⟩ |
    ⟨v, -, -, hset⟩ | ⟨-, -, -, hsame⟩
  · rw [hsame]; exact h
  · rw [hset]; exact hP.set h _ _ _ _
  · rw [hsame]; exact h

theorem kept_loadWork (hP : Cache.Kept P) (policy : Retry.Policy) (label : String)
    (answers : Answers α) (now c : Nat) (fired : Bool) (load : Load α) {s : Store α}
    (h : P s.tended.cache) :
    P ((loadWork policy label).turn answers now c fired load s).2.tended.cache := by
  rcases loadWork_cases policy label answers now c fired load s with
    ⟨-, v, -, hout⟩ | ⟨loop, cache, hfrom, hout⟩
  · rw [hout]
    exact hP.get h _ _
  · have hcache : P cache := by
      rcases hfrom with ⟨-, -, -, rfl⟩ | ⟨-, rfl⟩
      · exact hP.get h _ _
      · exact h
    rw [hout]
    exact kept_attempt hP policy label answers now c fired load loop hcache

theorem kept_fire {s : Caller α} (h : P s.cache) (c : Nat) : P (s.fire c).cache := by
  rcases fire_cases s c with hs | ⟨call, fired, -, ⟨-, hs⟩ | ⟨-, hs⟩⟩ | ⟨call, -, -, hs⟩
  · rw [hs]; exact h
  · rw [hs]; exact h
  · rw [hs]; exact h
  · rw [hs, cache, Flights.store_fire]
    exact h

theorem kept_drop {s : Caller α} (h : P s.cache) (c : Nat) : P (s.drop c).cache := by
  rcases drop_cases s c with hs | ⟨call, -, ⟨fired, p, -, -, hs⟩ | ⟨-, hs⟩⟩
  · rw [hs]; exact h
  · rw [hs]; exact h
  · rw [hs]
    show P (s.flights.drop c).store.tended.cache
    rw [Flights.store_drop]
    exact h

/-- **What every operation of a cache keeps, every event of a caller keeps.** -/
theorem kept_step (hP : Cache.Kept P) {x : World α} (hx : x.state.Sound) (h : P x.state.cache)
    (e : Event α) : P (step x e).state.cache := by
  cases step_cases x e with
  | same hs => rw [hs]; exact h
  | began c key ttl fired _ _ hs => rw [hs]; exact h
  | turn c answers _ _ hs =>
    have heff := turn_effect hx answers x.now c
    rw [← hs] at heff
    cases heff with
    | quiet hstore _ =>
      rw [cache, hstore]
      exact h
    | worked call fired load _ _ _ _ hstore _ _ =>
      rw [cache, hstore]
      exact kept_loadWork hP _ _ answers x.now c fired load h
  | chore chore timerFirst _ _ hs =>
    rw [hs]
    exact Tended.kept_perform hP h x.now timerFirst chore
  | fire c _ hs => rw [hs]; exact kept_fire h c
  | drop c _ hs => rw [hs]; exact kept_drop h c
  | close _ hs => rw [hs]; exact hP.close h
  | delete key _ hs => rw [hs]; exact hP.delete h key
  | deleteStartingWith start _ hs => rw [hs]; exact hP.deleteStartingWith h start

theorem kept_worldAt (hP : Cache.Kept P) {x : World α} (hx : x.state.Sound) (h : P x.state.cache)
    (es : List (Event α)) (n : Nat) : P (worldAt x es n).state.cache := by
  induction n with
  | zero => rw [worldAt_zero]; exact h
  | succ n ih =>
    rcases worldAt_cases x es n with ⟨-, hs⟩ | ⟨e, -, hs⟩
    · rw [hs]; exact ih
    · rw [hs]; exact kept_step hP (worldAt_sound hx n) ih e

theorem make_exact (name : String) (settings : Config.Settings) (now : Nat) :
    (make name settings now : Caller α).cache.Exact :=
  ⟨List.nodup_nil, rfl⟩

/-- **What comes into the cache in an event comes in a turn of a call for its key.** -/
theorem call_of_has {x : World α} (hx : x.state.Sound) {e : Event α} {key : String} {v : α}
    {limit : Nat} (hno : ¬ x.state.cache.Has key v limit)
    (hhas : (step x e).state.cache.Has key v limit) :
    ∃ (c : Nat) (answers : Answers α) (call : Call α),
      e = .turn c answers ∧ x.state.calls.get? c = some call ∧ call.key = key := by
  cases voyage hx e with
  | calm _ _ hcache => exact absurd (hcache key v limit hhas).1 hno
  | moved c call p hc _ _ hleg =>
    -- only attempts bring anything into the cache
    cases hleg with
    | dropped _ _ _ hcache => rw [hcache] at hhas; exact absurd hhas hno
    | waits _ _ _ _ _ _ _ hcache => rw [hcache] at hhas; exact absurd hhas hno
    | givesUp _ _ _ _ hcache => rw [hcache] at hhas; exact absurd hhas hno
    | served _ _ _ _ _ _ _ _ hcache => rw [hcache] at hhas; exact absurd hhas hno
    | found _ _ _ _ _ _ hcache =>
      rw [hcache] at hhas
      exact absurd (Cache.has_of_get hhas) hno
    | tries answers fired loop t ht =>
      rcases ht.cached key v limit hhas with hold | ⟨-, hkey, -⟩
      · exact absurd hold hno
      · exact ⟨c, answers, call, ht.event, hc, hkey.symm⟩

/-- In a run, too, what comes into the cache comes in a turn of a call for its key. -/
theorem turn_of_has {x : World α} (hx : x.state.Sound) {es : List (Event α)} {key : String} {v : α}
    {limit : Nat} (hno : ¬ x.state.cache.Has key v limit)
    (hhas : (es.foldl step x).state.cache.Has key v limit) :
    ∃ (i c : Nat) (answers : Answers α) (call : Call α),
      es[i]? = some (.turn c answers) ∧
      (es.foldl step x).state.calls.get? c = some call ∧ call.key = key := by
  have hlength : es.foldl step x = worldAt x es es.length := Trace.after_length.symm
  rw [hlength] at hhas ⊢
  -- the last event before which it is not there
  obtain ⟨i, -, hi, hbefore, hlater⟩ := Trace.turning_point
    (P := fun i => (worldAt x es i).state.cache.Has key v limit) (Nat.zero_le es.length)
    (by rw [worldAt_zero]; exact hno) hhas
  have hafter := hlater (i + 1) (Nat.lt_succ_self i) hi
  have he : es[i]? = some es[i] := List.getElem?_eq_getElem hi
  rw [worldAt_succ x he] at hafter
  obtain ⟨c, answers, call, hturn, hc, hkey⟩ :=
    call_of_has (worldAt_sound hx i) hbefore hafter
  obtain ⟨stage, hlast⟩ := known_mono (Nat.le_of_lt hi) hc
  exact ⟨i, c, answers, _, he.trans (congrArg some hturn), hlast, hkey⟩

end Caller

end Kept

end RegistryLookup
