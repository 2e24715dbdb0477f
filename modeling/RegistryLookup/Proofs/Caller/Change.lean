import RegistryLookup.Proofs.Cache.Entries
import RegistryLookup.Proofs.Caller.Sound
import RegistryLookup.Proofs.Retry.Walk

/-!
# Attempts, leaders and the cache, event by event

Three things of a caller belong together: the log of its attempts, the calls that lead a flight,
and the values that its cache holds. An event leaves all three as they are but for entries that
expire or are evicted, or it drops a leader, or it lets one leader make attempts (`change`).
-/

namespace RegistryLookup.Caller

variable {α : Type}

/-- What was noticed about attempts, oldest first. -/
def log (s : Caller α) : List (Retry.Entry α) := s.flights.store.record.reverse

/-- The entries that a call makes at an instant. -/
def entries (c now : Nat) (ns : List (Retry.Notice α)) : List (Retry.Entry α) :=
  ns.map (fun n => ⟨c, now, n⟩)

/-- An event in which an eviction takes a key out of the cache. -/
inductive Evicts (x : World α) (key : String) : Event α → Prop
  | sweep (timerFirst : Bool) (hr : .chore .sweep ∈ x.ready)
      (hp : x.state.cache.sweepPending = true) (hin : x.state.cache.entries.get? key ≠ none)
      (hout : x.state.cache.sweep.entries.get? key = none) :
      Evicts x key (.chore .sweep timerFirst)
  | tick (timerFirst : Bool) (hr : .chore .tick ∈ x.ready)
      (hruns : (x.state.cache.closed && !timerFirst) = false)
      (hin : (x.state.cache.dropExpired x.now).2.entries.get? key ≠ none)
      (hout : (x.state.cache.cleanup x.now).2.entries.get? key = none) :
      Evicts x key (.chore .tick timerFirst)

/-- An event that tells the cache to forget keys. -/
def Event.isForgetting : Event α → Bool
  | .delete _ => true
  | .deleteStartingWith _ => true
  | _ => false

/-- A load in a turn finds its key in the cache, or it makes attempts. -/
theorem loadWork_cases (policy : Retry.Policy) (label : String) (answers : Answers α) (now c : Nat)
    (fired : Bool) (load : Load α) (s : Store α) :
    (load.stage = .lookup ∧ ∃ v, (s.tended.cache.get now load.key).1 = some v ∧
      (loadWork policy label).turn answers now c fired load s =
        (.finished (.ok v), s.withCache (s.tended.cache.get now load.key).2)) ∨
    ∃ loop cache, (load.stage = .lookup ∧ (s.tended.cache.get now load.key).1 = none ∧ loop = {} ∧
        cache = (s.tended.cache.get now load.key).2 ∨
      load.stage = .trying loop ∧ cache = s.tended.cache) ∧
      (loadWork policy label).turn answers now c fired load s =
        attempt policy label answers now c fired load loop (s.withCache cache) := by
  unfold loadWork
  cases hs : load.stage with
  | lookup =>
    cases hv : (s.tended.cache.get now load.key).1 with
    | some v =>
      refine Or.inl ⟨rfl, v, rfl, ?_⟩
      simp only [hs]
      split
      · rename_i v' cache hget
        rw [hget] at hv ⊢
        cases hv
        rfl
      · rename_i cache hget
        rw [hget] at hv
        cases hv
    | none =>
      refine Or.inr ⟨{}, _, Or.inl ⟨rfl, rfl, rfl, rfl⟩, ?_⟩
      simp only [hs]
      split
      · rename_i v' cache hget
        rw [hget] at hv
        cases hv
      · rename_i cache hget
        rw [hget]
  | trying loop => exact Or.inr ⟨loop, _, Or.inr ⟨rfl, rfl⟩, by simp only [hs]; rfl⟩

theorem record_attempt (policy : Retry.Policy) (label : String) (answers : Answers α) (now c : Nat)
    (fired : Bool) (load : Load α) (loop : Retry.Loop α) (s : Store α) :
    (attempt policy label answers now c fired load loop s).2.record.reverse =
      s.record.reverse ++ entries c now (loop.turn policy answers now fired).notices := by
  unfold attempt
  simp only
  split <;> simp [Retry.enter, entries, Store.withCache]

/-- Where attempts leave a load and the cache. -/
theorem attempt_cases (policy : Retry.Policy) (label : String) (answers : Answers α) (now c : Nat)
    (fired : Bool) (load : Load α) (loop : Retry.Loop α) (s : Store α) :
    (∃ loop', (loop.turn policy answers now fired).rest = .inl loop' ∧
      (attempt policy label answers now c fired load loop s).1 =
        .running { load with stage := .trying loop' } ∧
      (attempt policy label answers now c fired load loop s).2.tended.cache = s.tended.cache) ∨
    (∃ v, (loop.turn policy answers now fired).rest = .inr (.ok v) ∧
      (attempt policy label answers now c fired load loop s).1 = .finished (.ok v) ∧
      (attempt policy label answers now c fired load loop s).2.tended.cache =
        s.tended.cache.set now load.key v load.ttl) ∨
    (∃ e, (loop.turn policy answers now fired).rest = .inr (.error e) ∧
      (attempt policy label answers now c fired load loop s).1 = .finished (.error e) ∧
      (attempt policy label answers now c fired load loop s).2.tended.cache = s.tended.cache) := by
  unfold attempt
  simp only
  cases ht : (loop.turn policy answers now fired).rest with
  | inl loop' => exact Or.inl ⟨loop', rfl, rfl, rfl⟩
  | inr r =>
    cases r with
    | ok v => exact Or.inr (Or.inl ⟨v, rfl, rfl, rfl⟩)
    | error e => exact Or.inr (Or.inr ⟨e, rfl, rfl, rfl⟩)

/-- A call makes attempts in an event, for a flight that it leads or has just been given. `t` is
the turn that its loop takes. -/
structure Tried (x : World α) (e : Event α) (c : Nat) (call : Call α) (loop : Retry.Loop α)
    (t : Retry.Turn α) : Prop where
  known : x.state.calls.get? c = some call
  origin : (∃ load, x.state.flights.LeadsWith call.key c load ∧ load.stage = .trying loop) ∨
    ((∀ d, ¬ x.state.flights.Leads call.key d) ∧ loop = {} ∧
      (x.state.cache.get x.now call.key).1 = none)
  walk : Retry.Walk loop.attempt? t.notices t.rest
  logged : log (step x e).state = log x.state ++ entries c x.now t.notices
  leads : ∀ key load, (step x e).state.flights.LeadsWith key c load ↔ key = call.key ∧
    ∃ loop', t.rest = .inl loop' ∧
      load = { key := call.key, ttl := call.ttl, stage := .trying loop' }
  others : ∀ key d load, d ≠ c → ((step x e).state.flights.LeadsWith key d load ↔
    x.state.flights.LeadsWith key d load)
  holds : ∀ key limit, x.state.cache.Holds key limit →
    (key ≠ call.key ∨ ∀ v, t.rest ≠ .inr (.ok v)) →
    (step x e).state.cache.Holds key limit ∨ limit ≤ x.now
  stores : ∀ v, t.rest = .inr (.ok v) →
    (step x e).state.cache.Holds call.key (x.now + min call.ttl Cache.longestTtl)

/-- What an event does to the log, the leaders and the cache. -/
inductive Change (x : World α) (e : Event α) : Prop
  /-- Nothing is attempted. -/
  | rest (hlog : log (step x e).state = log x.state)
      (hleads : ∀ key d load, (step x e).state.flights.LeadsWith key d load ↔
        x.state.flights.LeadsWith key d load)
      (hcache : ∀ key limit, x.state.cache.Holds key limit →
        (step x e).state.cache.Holds key limit ∨ limit ≤ x.now ∨ Evicts x key e)
  /-- A call is dropped. -/
  | drop (c : Nat) (call : Call α) (he : e = .abort c) (hc : x.state.calls.get? c = some call)
      (hc' : (step x e).state.calls.get? c = some { call with stage := .dropped })
      (hlog : log (step x e).state = log x.state)
      (hleads : ∀ key d load, (step x e).state.flights.LeadsWith key d load ↔
        d ≠ c ∧ x.state.flights.LeadsWith key d load)
      (hcache : (step x e).state.cache = x.state.cache)
  | tried (c : Nat) (answers : Answers α) (call : Call α) (fired : Bool) (loop : Retry.Loop α)
      (he : e = .turn c answers)
      (ht : Tried x e c call loop (loop.turn x.state.policy answers x.now fired))

/-- What only changes the tokens of calls leaves the leaders. -/
theorem leadsWith_fire (s : Flights (Store α) (Load α) α) (c : Nat) (key : String) (d : Nat)
    (load : Load α) : (s.fire c).LeadsWith key d load ↔ s.LeadsWith key d load := by
  rcases Flights.fire_cases s c with ⟨h, -⟩ | ⟨fcall, hc, h⟩
  · rw [h]
  · unfold Flights.LeadsWith
    by_cases hd : d = c
    · subst hd
      rw [h]
      simp only [Table.get?_put_self, hc]
      obtain ⟨k, f, p⟩ := fcall
      simp
    · rw [Flights.fire_of_ne s hd]

theorem leadsWith_drop (s : Flights (Store α) (Load α) α) (c : Nat) (key : String) (d : Nat)
    (load : Load α) : (s.drop c).LeadsWith key d load ↔ d ≠ c ∧ s.LeadsWith key d load := by
  unfold Flights.LeadsWith
  by_cases hd : d = c
  · subst hd
    refine ⟨fun ⟨fired, hL⟩ => ?_, fun h => absurd rfl h.1⟩
    rcases Flights.drop_cases s d with h | ⟨fcall, hc, -, h⟩
    · -- whoever leads a flight has not ended, so the drop is real
      rw [h] at hL
      unfold Flights.drop at h
      simp only [hL] at h
      have hself := congrArg (fun s => s.calls.get? d) h
      simp only [Flights.calls_land, Flights.calls_become, Table.get?_put_self, hL] at hself
      cases hself
    · rw [h, Flights.calls_land, Flights.calls_become, Table.get?_put_self] at hL
      cases hL
  · rw [Flights.drop_of_ne s hd]
    exact ⟨fun h => ⟨hd, h⟩, fun h => h.2⟩

theorem change_chore {x : World α} {chore : Tended.Chore} {timerFirst : Bool}
    (hr : .chore chore ∈ x.ready)
    (hx : (step x (.chore chore timerFirst)).state = x.state.perform x.now timerFirst chore) :
    Change x (.chore chore timerFirst) := by
  have hflights : ∀ tended : Tended α, log { x.state with flights := { x.state.flights with
      store := { x.state.flights.store with tended := tended } } } = log x.state := fun _ => rfl
  refine .rest (by rw [hx]; exact hflights _) (fun key d load => by rw [hx]; rfl) ?_
  intro key limit hold
  have hcache : (step x (.chore chore timerFirst)).state.cache =
      (x.state.flights.store.tended.perform x.now timerFirst chore).cache := by rw [hx]; rfl
  rw [hcache]
  -- what is held is there, so its disappearance is an eviction
  have hnone : ∀ {c : Cache α}, c.Holds key limit → c.entries.get? key ≠ none := by
    rintro c ⟨e, he, -⟩ hn
    rw [he] at hn; cases hn
  cases chore with
  | sweep =>
    unfold Tended.perform
    cases hp : x.state.flights.store.tended.cache.sweepPending with
    | false => exact Or.inl hold
    | true =>
      rcases Cache.sweep_holds hold with hs | hout
      · exact Or.inl hs
      · exact Or.inr (Or.inr (.sweep timerFirst hr hp (hnone hold) hout))
  | tick =>
    unfold Tended.perform
    cases hruns : x.state.flights.store.tended.cache.closed && !timerFirst with
    | true => simp only [if_true]; exact Or.inl hold
    | false =>
      rcases Cache.cleanup_holds hold x.now with hs | hpast | ⟨hin, hout⟩
      · exact Or.inl hs
      · exact Or.inr (Or.inl hpast)
      · exact Or.inr (Or.inr (.tick timerFirst hr hruns (hnone hin) hout))

/-- A call whose key is in the cache gives its flight up at once. -/
theorem change_hit {x : World α} (h : x.state.Sound) {e : Event α} {c : Nat} {call : Call α}
    {load : Load α} (hc : x.state.calls.get? c = some call)
    (hfree : ∀ d, ¬ x.state.flights.Leads call.key d)
    (hstore : (step x e).state.flights.store =
      x.state.flights.store.withCache (x.state.cache.get x.now load.key).2)
    (hself : ∀ key load, ¬ (step x e).state.flights.LeadsWith key c load)
    (hne : ∀ key d load, d ≠ c → ((step x e).state.flights.LeadsWith key d load ↔
      x.state.flights.LeadsWith key d load)) : Change x e := by
  have hcache : (step x e).state.cache = (x.state.cache.get x.now load.key).2 := by
    unfold cache
    rw [hstore]
    rfl
  refine .rest (by unfold log; rw [hstore]; rfl) (fun key d load' => ?_) (fun key limit hold => ?_)
  · by_cases hd : d = c
    · subst hd
      refine ⟨fun hL => absurd hL (hself key load'), fun hL => ?_⟩
      have hkey : key = call.key := by
        obtain ⟨f, hfc⟩ := hL
        exact (h.carries hc hfc).sameKey
      subst hkey
      exact absurd hL.leads (hfree d)
    · exact hne key d load' hd
  · rw [hcache]
    rcases Cache.get_holds hold x.now load.key with hstill | hpast
    · exact Or.inl hstill
    · exact Or.inr (Or.inl hpast)

/-- A call that is not turned away from the upstream by the cache makes attempts. -/
theorem tried_of_attempt {x : World α} {e : Event α} {c : Nat} {answers : Answers α}
    {call : Call α} {fired : Bool} {load : Load α} {loop : Retry.Loop α} {cache₀ : Cache α}
    (hc : x.state.calls.get? c = some call) (hk : load.key = call.key) (ht : load.ttl = call.ttl)
    (horigin : (∃ load, x.state.flights.LeadsWith call.key c load ∧ load.stage = .trying loop) ∨
      ((∀ d, ¬ x.state.flights.Leads call.key d) ∧ loop = {} ∧
        (x.state.cache.get x.now call.key).1 = none))
    (hcache₀ : ∀ key limit, x.state.cache.Holds key limit →
      cache₀.Holds key limit ∨ limit ≤ x.now)
    (hstore : (step x e).state.flights.store = (attempt x.state.policy x.state.name answers x.now c
      fired load loop (x.state.flights.store.withCache cache₀)).2)
    (hself : ∀ key load', (step x e).state.flights.LeadsWith key c load' ↔ key = call.key ∧
      (attempt x.state.policy x.state.name answers x.now c fired load loop
        (x.state.flights.store.withCache cache₀)).1 = .running load')
    (hne : ∀ key d load, d ≠ c → ((step x e).state.flights.LeadsWith key d load ↔
      x.state.flights.LeadsWith key d load)) :
    Tried x e c call loop (loop.turn x.state.policy answers x.now fired) := by
  have hcases := attempt_cases x.state.policy x.state.name answers x.now c fired load loop
    (x.state.flights.store.withCache cache₀)
  have hcache : (step x e).state.cache = (attempt x.state.policy x.state.name answers x.now c
      fired load loop (x.state.flights.store.withCache cache₀)).2.tended.cache := by
    unfold cache
    rw [hstore]
  refine ⟨hc, horigin, Retry.turn_walk _ _ _ _ _, ?_, ?_, hne, ?_, ?_⟩
  · unfold log
    rw [hstore, record_attempt]
    rfl
  · intro key load'
    rw [hself]
    rcases hcases with ⟨loop', hrest, hp, -⟩ | ⟨v, hrest, hp, -⟩ | ⟨e, hrest, hp, -⟩
    · rw [hp, hrest, ← hk, ← ht]
      constructor
      · rintro ⟨rfl, h⟩
        cases h
        exact ⟨rfl, loop', rfl, rfl⟩
      · rintro ⟨rfl, loop'', h, rfl⟩
        cases h
        exact ⟨rfl, rfl⟩
    · rw [hp, hrest]
      exact ⟨fun h => (by cases h.2), fun ⟨_, _, h, _⟩ => by cases h⟩
    · rw [hp, hrest]
      exact ⟨fun h => (by cases h.2), fun ⟨_, _, h, _⟩ => by cases h⟩
  · intro key limit hold hother
    rw [hcache]
    rcases hcases with ⟨loop', hrest, -, hsame⟩ | ⟨v, hrest, -, hsame⟩ | ⟨e, hrest, -, hsame⟩
    · rw [hsame]; exact hcache₀ key limit hold
    · -- a success is stored, so the key must be another one
      rw [hsame]
      rcases hother with hother | hno
      · rcases hcache₀ key limit hold with hstill | hpast
        · exact Or.inl (Cache.set_holds_of_ne (by rw [hk]; exact hother) hstill _ _ _)
        · exact Or.inr hpast
      · exact absurd hrest (hno v)
    · rw [hsame]; exact hcache₀ key limit hold
  · intro v hv
    rw [hcache]
    rcases hcases with ⟨loop', hrest, -⟩ | ⟨v', hrest, -, hsame⟩ | ⟨e, hrest, -⟩
    · rw [hv] at hrest; cases hrest
    · rw [hsame, ← hk, ← ht]
      exact Cache.set_holds_self _ _ _ _ _
    · rw [hv] at hrest; cases hrest

theorem change_turn {x : World α} (h : x.state.Sound) {c : Nat} {answers : Answers α}
    (hx : (step x (.turn c answers)).state = x.state.turn answers x.now c) :
    Change x (.turn c answers) := by
  have heff := turn_effect h answers x.now c
  rw [← hx] at heff
  cases heff with
  | quiet hstore hleads =>
    refine .rest (by unfold log; rw [hstore]) hleads (fun key limit hold => Or.inl ?_)
    unfold cache
    rw [hstore]
    exact hold
  | worked call fired load hc hk ht hl hstore hself hne =>
    rcases loadWork_cases x.state.policy x.state.name answers x.now c fired load
      x.state.flights.store with ⟨hstage, v, hv, hout⟩ | ⟨loop, cache₀, hfrom, hout⟩
    · rw [hout] at hstore hself
      have hfree : ∀ d, ¬ x.state.flights.Leads call.key d := by
        rcases hl with ⟨-, hfree⟩ | ⟨-, loop, htry⟩
        · exact hfree
        · rw [hstage] at htry; cases htry
      exact change_hit h hc hfree hstore
        (fun key load' hL => by cases ((hself key load').1 hL).2) hne
    · rw [hout] at hstore hself
      refine .tried c answers call fired loop rfl
        (tried_of_attempt hc hk ht ?_ (fun key limit hold => ?_) hstore hself hne)
      -- the stage of the load tells whether the call has just been given its flight
      · rcases hfrom with ⟨hlookup, hmiss, hloop, -⟩ | ⟨htry, -⟩
        · rcases hl with ⟨-, hfree⟩ | ⟨-, loop', htry⟩
          · exact Or.inr ⟨hfree, hloop, by rw [← hk]; exact hmiss⟩
          · rw [hlookup] at htry; cases htry
        · rcases hl with ⟨hlookup, -⟩ | ⟨hL, -⟩
          · rw [htry] at hlookup; cases hlookup
          · exact Or.inl ⟨load, hL, htry⟩
      · rcases hfrom with ⟨-, -, -, rfl⟩ | ⟨-, rfl⟩
        · exact Cache.get_holds hold x.now load.key
        · exact Or.inl hold

/-- **What an event does to the log, the leaders and the cache.** -/
theorem change {x : World α} (h : x.state.Sound) {e : Event α} (he : e.isForgetting = false) :
    Change x e := by
  cases step_cases x e with
  | same hx =>
    exact .rest (by rw [hx]) (fun _ _ _ => by rw [hx])
      (fun _ _ hold => Or.inl (by rw [hx]; exact hold))
  | began c key ttl fired _ _ hx =>
    exact .rest (by rw [hx]; rfl) (fun _ _ _ => by rw [hx]; rfl)
      (fun _ _ hold => Or.inl (by rw [hx]; exact hold))
  | turn c answers he hr hx => subst he; exact change_turn h hx
  | chore chore timerFirst he hr hx => subst he; exact change_chore hr hx
  | fire c _ hx =>
    rcases fire_cases x.state c with hf | ⟨call, fired, -, ⟨-, hf⟩ | ⟨-, hf⟩⟩ | ⟨call, -, -, hf⟩
    · exact .rest (by rw [hx, hf]) (fun _ _ _ => by rw [hx, hf])
        (fun _ _ hold => Or.inl (by rw [hx, hf]; exact hold))
    · exact .rest (by rw [hx, hf]; rfl) (fun _ _ _ => by rw [hx, hf]; rfl)
        (fun _ _ hold => Or.inl (by rw [hx, hf]; exact hold))
    · exact .rest (by rw [hx, hf]; rfl) (fun _ _ _ => by rw [hx, hf]; rfl)
        (fun _ _ hold => Or.inl (by rw [hx, hf]; exact hold))
    · refine .rest ?_ (fun key d load => ?_) (fun _ _ hold => Or.inl ?_)
      · rw [hx, hf]; unfold log; rw [Flights.store_fire]
      · rw [hx, hf]; exact leadsWith_fire x.state.flights c key d load
      · rw [hx, hf]; unfold cache; rw [Flights.store_fire]; exact hold
  | drop c he hx =>
    subst he
    rcases drop_cases x.state c with hd | ⟨call, hc, ⟨fired, p, -, -, hd⟩ | ⟨-, hd⟩⟩
    · exact .rest (by rw [hx, hd]) (fun _ _ _ => by rw [hx, hd])
        (fun _ _ hold => Or.inl (by rw [hx, hd]; exact hold))
    · exact .rest (by rw [hx, hd]; rfl) (fun _ _ _ => by rw [hx, hd]; rfl)
        (fun _ _ hold => Or.inl (by rw [hx, hd]; exact hold))
    · refine .drop c call rfl hc ?_ ?_ (fun key d load => ?_) ?_
      · rw [hx, hd]; exact Table.get?_put_self _ _ _
      · rw [hx, hd]
        show (x.state.flights.drop c).store.record.reverse = _
        rw [Flights.store_drop]; rfl
      · rw [hx, hd]; exact leadsWith_drop x.state.flights c key d load
      · rw [hx, hd]
        show (x.state.flights.drop c).store.tended.cache = _
        rw [Flights.store_drop]; rfl
  | close _ hx =>
    refine .rest (by rw [hx]; rfl) (fun _ _ _ => by rw [hx]; rfl) (fun key limit hold => Or.inl ?_)
    rw [hx]
    exact hold
  | delete key he' _ => rw [he'] at he; cases he
  | deleteStartingWith start he' _ => rw [he'] at he; cases he

end RegistryLookup.Caller
