import RegistryLookup.Proofs.Caller.Change
import RegistryLookup.Proofs.Retry.Course

/-!
# Where calls stand among the flights, event by event

An event moves at most one call among the flights (`voyage`): the call is dropped, begins to wait,
gives up, is served by another flight, finds its key in the cache, or makes attempts. What comes
into the log and into the cache comes there in the last of these ways.
-/

namespace RegistryLookup.Caller

open Flight

variable {α : Type}

/-- Where a call stands among the flights, if it has got there. -/
def phase? (s : Caller α) (c : Nat) : Option (Phase (Load α) α) :=
  (s.flights.calls.get? c).map (·.phase)

/-- A call has not got its permit, or waits for the flight of another call. -/
def Unbegun (s : Caller α) (c : Nat) : Prop := ∀ p, phase? s c = some p → p.task? ≠ none

/-- An event that tells the cache to forget a key. -/
inductive Forgets (key : String) : Event α → Prop
  | delete : Forgets key (.delete key)
  | deleteStartingWith (start : String) (h : Cache.startsWith start key = true) :
      Forgets key (.deleteStartingWith start)

/-- Where the turn of its loop leaves a call that makes attempts. -/
def afterTurn (call : Call α) (fired : Bool) (now : Nat) :
    Retry.Loop α ⊕ Except Failure α → Phase (Load α) α
  | .inl loop => .leading { key := call.key, ttl := call.ttl, stage := .trying loop }
  | .inr r => .ended ⟨r, .leader (!(fired && !r.isOk)), now⟩

/-- A call makes attempts in an event. `loop` is its loop before the event. -/
structure Tries (x : World α) (e : Event α) (c : Nat) (call : Call α) (answers : Answers α)
    (fired : Bool) (loop : Retry.Loop α) (t : Retry.Turn α) : Prop where
  event : e = .turn c answers
  turn : t = loop.turn x.state.policy answers x.now fired
  /-- It leads a flight already, or has just been given one because its key is not in the cache. -/
  origin : phase? x.state c =
      some (.leading { key := call.key, ttl := call.ttl, stage := .trying loop }) ∨
    (Unbegun x.state c ∧ (∀ d, ¬ x.state.flights.Leads call.key d) ∧ loop = {} ∧
      (x.state.cache.get x.now call.key).1 = none)
  logged : log (step x e).state = log x.state ++ entries c x.now t.notices
  cached : ∀ key v limit, (step x e).state.cache.Has key v limit →
    x.state.cache.Has key v limit ∨ (t.rest = .inr (.ok v) ∧ key = call.key ∧
      limit = x.now + min call.ttl Cache.longestTtl)

/-- How a call comes into a phase in an event. -/
inductive Leg (x : World α) (e : Event α) (c : Nat) (call : Call α) : Phase (Load α) α → Prop
  | dropped (he : e = .abort c) (hopen : ∀ E, phase? x.state c ≠ some (.ended E))
      (hlog : log (step x e).state = log x.state)
      (hcache : (step x e).state.cache = x.state.cache) : Leg x e c call .dropped
  /-- Another call leads a flight for its key. -/
  | waits (answers : Answers α) (l : Nat) (load : Load α) (he : e = .turn c answers)
      (hopen : Unbegun x.state c) (hl : x.state.flights.Leads call.key l)
      (hlog : log (step x e).state = log x.state)
      (hcache : (step x e).state.cache = x.state.cache) : Leg x e c call (.waiting l load)
  /-- Its token has fired while it waited. -/
  | givesUp (answers : Answers α) (he : e = .turn c answers) (hopen : Unbegun x.state c)
      (hlog : log (step x e).state = log x.state)
      (hcache : (step x e).state.cache = x.state.cache) :
      Leg x e c call (.ended ⟨.error .cancelled, .gaveUp, x.now⟩)
  /-- The flight that it waited for has landed. -/
  | served (answers : Answers α) (l : Nat) (load : Load α) (r : Except Failure α)
      (he : e = .turn c answers) (hwait : phase? x.state c = some (.waiting l load))
      (hl : x.state.flights.fate l = .landed r) (hlog : log (step x e).state = log x.state)
      (hcache : (step x e).state.cache = x.state.cache) :
      Leg x e c call (.ended ⟨r, .served l, x.now⟩)
  /-- Its key is in the cache. -/
  | found (answers : Answers α) (v : α) (he : e = .turn c answers) (hopen : Unbegun x.state c)
      (hv : (x.state.cache.get x.now call.key).1 = some v)
      (hlog : log (step x e).state = log x.state)
      (hcache : (step x e).state.cache = (x.state.cache.get x.now call.key).2) :
      Leg x e c call (.ended ⟨.ok v, .leader true, x.now⟩)
  | tries (answers : Answers α) (fired : Bool) (loop : Retry.Loop α) (t : Retry.Turn α)
      (h : Tries x e c call answers fired loop t) :
      Leg x e c call (afterTurn call fired x.now t.rest)

/-- What an event does among the flights. -/
inductive Voyage (x : World α) (e : Event α) : Prop
  /-- All calls stay where they are, and nothing comes into the log or the cache. -/
  | calm (hlog : log (step x e).state = log x.state)
      (hphase : ∀ d, phase? (step x e).state d = phase? x.state d)
      (hcache : ∀ key v limit, (step x e).state.cache.Has key v limit →
        x.state.cache.Has key v limit ∧ ¬ Forgets key e)
  | moved (c : Nat) (call : Call α) (p : Phase (Load α) α) (hc : x.state.calls.get? c = some call)
      (hself : phase? (step x e).state c = some p)
      (hothers : ∀ d, d ≠ c → phase? (step x e).state d = phase? x.state d)
      (hleg : Leg x e c call p)

theorem phase?_eq {s : Caller α} {c : Nat} {fcall : Flight.Call (Load α) α}
    (h : s.flights.calls.get? c = some fcall) : phase? s c = some fcall.phase := by
  unfold phase?
  rw [h]
  rfl

theorem Boarding.unbegun {s : Caller α} {c : Nat} {call : Call α}
    {F : Flights (Store α) (Load α) α} (hb : Boarding s c call F)
    {fcall : Flight.Call (Load α) α} (hc : F.calls.get? c = some fcall) {load : Load α}
    (ht : fcall.phase.task? = some load) : Unbegun s c := by
  cases hb with
  | there =>
    intro p hp hnone
    rw [phase?_eq hc] at hp
    cases hp
    rw [ht] at hnone; cases hnone
  | comes hn =>
    intro p hp
    unfold phase? at hp
    rw [hn] at hp; cases hp

/-- A call that waits, or does its work, was there before its turn. -/
theorem Boarding.same {s : Caller α} {c : Nat} {call : Call α}
    {F : Flights (Store α) (Load α) α} (hb : Boarding s c call F)
    {fcall : Flight.Call (Load α) α} (hc : F.calls.get? c = some fcall)
    (hp : ∀ load, fcall.phase ≠ .arriving load) : F = s.flights := by
  cases hb with
  | there => rfl
  | comes hn =>
    rw [show (s.flights.start c call.key false { key := call.key, ttl := call.ttl }).calls.get? c =
      some ⟨call.key, false, .arriving { key := call.key, ttl := call.ttl }⟩ from
        Table.get?_put_self _ _ _] at hc
    cases hc
    exact absurd rfl (hp _)

theorem Boarding.leads {s : Caller α} {c d : Nat} {call : Call α}
    {F : Flights (Store α) (Load α) α} (hb : Boarding s c call F) (key : String) :
    F.Leads key d ↔ s.flights.Leads key d := by
  constructor
  · rintro ⟨fired, load, h⟩
    exact ((hb.leadsWith key load).1 ⟨fired, h⟩).leads
  · rintro ⟨fired, load, h⟩
    exact ((hb.leadsWith key load).2 ⟨fired, h⟩).leads

/-- Where attempts leave the call that makes them. -/
theorem phase_attempt (policy : Retry.Policy) (label : String) (answers : Answers α) (now c : Nat)
    (fired : Bool) {call : Call α} {load : Load α} (hk : load.key = call.key)
    (ht : load.ttl = call.ttl) (loop : Retry.Loop α) (s : Store α) :
    (attempt policy label answers now c fired load loop s).1.phase fired now =
      afterTurn call fired now (loop.turn policy answers now fired).rest := by
  rcases attempt_cases policy label answers now c fired load loop s with ⟨loop', hrest, hp, -⟩ |
    ⟨v, hrest, hp, -⟩ | ⟨e, hrest, hp, -⟩
  · rw [hp, hrest]
    simp only [Progress.phase, afterTurn, hk, ht]
  · rw [hp, hrest]; rfl
  · rw [hp, hrest]; rfl

/-- What is in the cache after attempts was there before, or they have fetched it. -/
theorem has_of_attempt {policy : Retry.Policy} {label : String} {answers : Answers α} {now c : Nat}
    {fired : Bool} {load : Load α} {loop : Retry.Loop α} {s : Store α} {key : String} {v : α}
    {limit : Nat}
    (h : (attempt policy label answers now c fired load loop s).2.tended.cache.Has key v limit) :
    s.tended.cache.Has key v limit ∨ ((loop.turn policy answers now fired).rest = .inr (.ok v) ∧
      key = load.key ∧ limit = now + min load.ttl Cache.longestTtl) := by
  rcases attempt_cases policy label answers now c fired load loop s with ⟨loop', -, -, hsame⟩ |
    ⟨w, hrest, -, hsame⟩ | ⟨e, -, -, hsame⟩
  · rw [hsame] at h; exact Or.inl h
  · rw [hsame] at h
    rcases Cache.has_of_set h with ⟨rfl, rfl, rfl⟩ | hold
    · exact Or.inr ⟨hrest, rfl, rfl⟩
    · exact Or.inl hold
  · rw [hsame] at h; exact Or.inl h

/-- A turn in which a call does its work. -/
theorem leg_of_work {x : World α} {c : Nat} {answers : Answers α} {call : Call α} {fired : Bool}
    {load : Load α} (hk : load.key = call.key) (ht : load.ttl = call.ttl)
    (hl : (load.stage = .lookup ∧ Unbegun x.state c ∧ ∀ d, ¬ x.state.flights.Leads call.key d) ∨
      (phase? x.state c = some (.leading load) ∧ ∃ loop, load.stage = .trying loop))
    (hstore : (step x (.turn c answers)).state.flights.store =
      ((loadWork x.state.policy x.state.name).turn answers x.now c fired load
        x.state.flights.store).2) :
    Leg x (.turn c answers) c call (((loadWork x.state.policy x.state.name).turn answers x.now c
      fired load x.state.flights.store).1.phase fired x.now) := by
  rcases loadWork_cases x.state.policy x.state.name answers x.now c fired load
    x.state.flights.store with ⟨hstage, v, hv, hout⟩ | ⟨loop, cache₀, hfrom, hout⟩
  · -- only a call that has not begun looks into the cache
    have hopen : Unbegun x.state c := by
      rcases hl with ⟨-, hopen, -⟩ | ⟨-, loop, htry⟩
      · exact hopen
      · rw [hstage] at htry; cases htry
    rw [hout] at hstore ⊢
    rw [hk] at hv hstore
    have hphase : (Progress.finished (.ok v) : Progress (Load α) α).phase fired x.now =
        .ended ⟨.ok v, .leader true, x.now⟩ := by simp [Progress.phase, Except.isOk, Except.toBool]
    rw [hphase]
    refine .found answers v rfl hopen hv ?_ ?_
    · unfold log; rw [hstore]; rfl
    · unfold cache; rw [hstore]; rfl
  · rw [hout] at hstore ⊢
    rw [phase_attempt x.state.policy x.state.name answers x.now c fired hk ht]
    refine .tries answers fired loop _ ⟨rfl, rfl, ?_, ?_, ?_⟩
    · rcases hfrom with ⟨hlookup, hmiss, hloop, -⟩ | ⟨htry, -⟩
      · rcases hl with ⟨-, hopen, hfree⟩ | ⟨-, loop', htry⟩
        · exact Or.inr ⟨hopen, hfree, hloop, by rw [← hk]; exact hmiss⟩
        · rw [hlookup] at htry; cases htry
      · rcases hl with ⟨hlookup, -⟩ | ⟨hL, -⟩
        · rw [htry] at hlookup; cases hlookup
        · left
          rw [hL]
          obtain ⟨key, ttl, stage⟩ := load
          simp only at hk ht htry
          rw [hk, ht, htry]
    · unfold log
      rw [hstore, record_attempt]
      rfl
    · intro key v limit h
      unfold cache at h
      rw [hstore] at h
      rcases has_of_attempt h with hold | ⟨hrest, rfl, rfl⟩
      · -- a look into the cache adds nothing to it
        rcases hfrom with ⟨-, -, -, rfl⟩ | ⟨-, rfl⟩
        · exact Or.inl (Cache.has_of_get hold)
        · exact Or.inl hold
      · exact Or.inr ⟨hrest, hk, by rw [ht]⟩

/-- The turn of a call that takes its turn among the flights. -/
structure Aboard (x : World α) (c : Nat) (answers : Answers α) (call : Call α)
    (F : Flights (Store α) (Load α) α) (fcall : Flight.Call (Load α) α) : Prop where
  sound : x.state.Sound
  known : x.state.calls.get? c = some call
  boarding : Boarding x.state c call F
  there : F.calls.get? c = some fcall
  carries : Carries call.key call.ttl fcall
  flights : (step x (.turn c answers)).state.flights =
    F.turn (loadWork x.state.policy x.state.name) answers x.now c

/-- A turn that changes nothing among the flights. -/
theorem voyage_of_flights {x : World α} {c : Nat} {answers : Answers α}
    (h : (step x (.turn c answers)).state.flights = x.state.flights) :
    Voyage x (.turn c answers) := by
  refine .calm ?_ (fun d => ?_) (fun key v limit hv => ⟨?_, fun hf => by cases hf⟩)
  · unfold log; rw [h]
  · unfold phase?; rw [h]
  · unfold cache at hv ⊢; rw [h] at hv; exact hv

namespace Aboard

variable {x : World α} {c : Nat} {answers : Answers α} {call : Call α}
  {F : Flights (Store α) (Load α) α} {fcall : Flight.Call (Load α) α}

theorem others (h : Aboard x c answers call F fcall) {d : Nat} (hd : d ≠ c) :
    phase? (step x (.turn c answers)).state d = phase? x.state d := by
  unfold phase?
  rw [h.flights, Flights.turn_of_ne _ _ _ _ hd, h.boarding.of_ne hd]

/-- The call takes another phase, and nothing comes into the log or the cache. -/
theorem moved (h : Aboard x c answers call F fcall) {p : Phase (Load α) α}
    (hcalls : (F.turn (loadWork x.state.policy x.state.name) answers x.now c).calls =
      F.calls.put c { fcall with phase := p })
    (hkeep : (F.turn (loadWork x.state.policy x.state.name) answers x.now c).store = F.store)
    (hleg : log (step x (.turn c answers)).state = log x.state →
      (step x (.turn c answers)).state.cache = x.state.cache → Leg x (.turn c answers) c call p) :
    Voyage x (.turn c answers) := by
  have hstore : (step x (.turn c answers)).state.flights.store = x.state.flights.store := by
    rw [h.flights, hkeep, h.boarding.store]
  refine .moved c call p h.known ?_ (fun d hd => h.others hd) (hleg ?_ ?_)
  · unfold phase?
    rw [h.flights, hcalls, Table.get?_put_self]
    rfl
  · unfold log; rw [hstore]
  · unfold cache; rw [hstore]

/-- A call that waits for a flight, or leads one, was there before its turn. -/
theorem same (h : Aboard x c answers call F fcall) (hp : ∀ load, fcall.phase ≠ .arriving load) :
    F = x.state.flights ∧ phase? x.state c = some fcall.phase := by
  have hsame : F = x.state.flights := h.boarding.same h.there hp
  refine ⟨hsame, phase?_eq ?_⟩
  rw [← hsame]
  exact h.there

theorem leads_iff (h : Aboard x c answers call F fcall) {l : Nat} :
    F.inFlight.get? fcall.key = some l ↔ x.state.flights.Leads call.key l := by
  rw [h.carries.sameKey, (h.boarding.sound h.sound).led, h.boarding.leads]

/-- The call does its work. -/
theorem works (h : Aboard x c answers call F fcall) {load : Load α}
    {F₁ : Flights (Store α) (Load α) α}
    (hl : (fcall.phase = .leading load ∧ F₁ = F) ∨ (fcall.phase.task? = some load ∧
      F.inFlight.get? fcall.key = none ∧
      F₁ = { F with inFlight := F.inFlight.put fcall.key c }))
    (hs : F.turn (loadWork x.state.policy x.state.name) answers x.now c =
      F₁.work (loadWork x.state.policy x.state.name) answers x.now c fcall load) :
    Voyage x (.turn c answers) := by
  have hstore : F₁.store = x.state.flights.store := by
    rw [← h.boarding.store]
    rcases hl with ⟨-, rfl⟩ | ⟨-, -, rfl⟩ <;> rfl
  have hafter : (step x (.turn c answers)).state.flights.store =
      ((loadWork x.state.policy x.state.name).turn answers x.now c fcall.fired load
        x.state.flights.store).2 := by
    rw [h.flights, hs, Flights.store_work, hstore]
  have hload : load.key = call.key ∧ load.ttl = call.ttl := by
    rcases hl with ⟨hp, -⟩ | ⟨ht, -, -⟩
    · obtain ⟨loop, rfl⟩ := h.carries.leads load hp
      exact ⟨rfl, rfl⟩
    · rw [h.carries.waits load ht]
      exact ⟨rfl, rfl⟩
  refine .moved c call _ h.known ?_ (fun d hd => h.others hd)
    (leg_of_work hload.1 hload.2 ?_ hafter)
  · have hcalls : F₁.calls = F.calls := by rcases hl with ⟨-, rfl⟩ | ⟨-, -, rfl⟩ <;> rfl
    unfold phase?
    rw [h.flights, hs, Flights.calls_work, hcalls, hstore, Table.get?_put_self]
    rfl
  · rcases hl with ⟨hp, -⟩ | ⟨ht, hn, -⟩
    · obtain ⟨loop, hstage⟩ := h.carries.leads load hp
      obtain ⟨-, hphase⟩ := h.same (fun load' hp' => by rw [hp] at hp'; cases hp')
      exact Or.inr ⟨by rw [hphase, hp], loop, by rw [hstage]⟩
    · refine Or.inl ⟨by rw [h.carries.waits load ht], h.boarding.unbegun h.there ht, fun d hd => ?_⟩
      -- nobody leads a flight for the key
      rw [← h.leads_iff, hn] at hd
      cases hd

end Aboard

/-- What the turn of a call does among the flights. -/
theorem voyage_turn {x : World α} (h : x.state.Sound) {c : Nat} {answers : Answers α}
    (hx : (step x (.turn c answers)).state = x.state.turn answers x.now c) :
    Voyage x (.turn c answers) := by
  have hturn := flights_turn h answers x.now c
  rw [← hx] at hturn
  rcases hturn with ⟨hsame, -⟩ | ⟨call, F, hc, hb, hF, -⟩
  · exact voyage_of_flights hsame
  obtain ⟨fcall, hfc, hcar⟩ := hb.carries h hc
  have ha : Aboard x c answers call F fcall := ⟨h, hc, hb, hfc, hcar, hF⟩
  cases Flights.turn_cases (loadWork x.state.policy x.state.name) answers x.now c F with
  | rest hs hw _ =>
    -- a call that has just got its permit does not rest
    have hsame : F = x.state.flights := hb.same hfc fun load hp => by
      obtain ⟨l, hwait, -⟩ := hw fcall load hfc (by rw [hp]; rfl)
      rw [hp] at hwait; cases hwait
    exact voyage_of_flights (by rw [hF, hs, hsame])
  | giveUp fcall₁ load hc₁ ht _ hs =>
    rw [hfc] at hc₁; cases hc₁
    exact ha.moved (by rw [hs]; rfl) (by rw [hs]; rfl) fun hlog hcache =>
      .givesUp answers rfl (hb.unbegun hfc ht) hlog hcache
  | wait fcall₁ load l hc₁ ht _ _ hl hs =>
    rw [hfc] at hc₁; cases hc₁
    exact ha.moved (by rw [hs]; rfl) (by rw [hs]; rfl) fun hlog hcache =>
      .waits answers l load rfl (hb.unbegun hfc ht) (ha.leads_iff.1 hl) hlog hcache
  | serve fcall₁ load l r hc₁ hp _ hl hs =>
    rw [hfc] at hc₁; cases hc₁
    obtain ⟨hsame, hphase⟩ := ha.same (fun load' hp' => by rw [hp] at hp'; cases hp')
    rw [hp] at hphase
    rw [hsame] at hl
    exact ha.moved (by rw [hs]; rfl) (by rw [hs]; rfl) fun hlog hcache =>
      .served answers l load r rfl hphase hl hlog hcache
  | work fcall₁ load F₁ hc₁ hl hs =>
    rw [hfc] at hc₁; cases hc₁
    exact ha.works hl hs

/-- An event that only changes calls outside the flights, permits or tokens. -/
theorem Voyage.of_same {x : World α} {e : Event α}
    (hstore : (step x e).state.flights.store = x.state.flights.store)
    (hphase : ∀ d, phase? (step x e).state d = phase? x.state d) (hf : e.isForgetting = false) :
    Voyage x e := by
  refine .calm ?_ hphase (fun key v limit hv => ⟨?_, fun hk => ?_⟩)
  · unfold log; rw [hstore]
  · unfold cache at hv ⊢; rw [hstore] at hv; exact hv
  · cases hk <;> cases hf

theorem phase?_fire (s : Caller α) (c d : Nat) :
    phase? { s with flights := s.flights.fire c } d = phase? s d := by
  unfold phase?
  rcases Flights.fire_cases s.flights c with ⟨h, -⟩ | ⟨fcall, hc, h⟩
  · simp only [h]
  · simp only [h]
    by_cases hd : d = c
    · subst hd
      rw [Table.get?_put_self, hc]
      rfl
    · rw [Table.get?_put_of_ne _ _ hd]

theorem voyage_drop {x : World α} {c : Nat}
    (hx : (step x (.abort c)).state = x.state.drop c) : Voyage x (.abort c) := by
  rcases drop_cases x.state c with hd | ⟨call, hc, ⟨fired, p, -, -, hd⟩ | ⟨-, hd⟩⟩
  · exact .of_same (by rw [hx, hd]) (fun d => by rw [hx, hd]) rfl
  · exact .of_same (by rw [hx, hd]; rfl) (fun d => by rw [hx, hd]; rfl) rfl
  · have hflights : (step x (.abort c)).state.flights = x.state.flights.drop c := by
      rw [hx, hd]; rfl
    rcases Flights.drop_cases x.state.flights c with hdrop | ⟨fcall, hfc, hopen, hdrop⟩
    · exact .of_same (by rw [hflights, hdrop]) (fun d => by unfold phase?; rw [hflights, hdrop]) rfl
    · have hstore : (step x (.abort c)).state.flights.store = x.state.flights.store := by
        rw [hflights, Flights.store_drop]
      refine .moved c call .dropped hc ?_ (fun d hdc => ?_) (.dropped rfl (fun E hE => ?_) ?_ ?_)
      · unfold phase?
        rw [hflights, hdrop, Flights.calls_land, Flights.calls_become, Table.get?_put_self]
        rfl
      · unfold phase?
        rw [hflights, Flights.drop_of_ne _ hdc]
      · rw [phase?_eq hfc] at hE
        exact hopen E (Option.some.inj hE)
      · unfold log; rw [hstore]
      · unfold cache; rw [hstore]

/-- What the cache is told to forget is not there afterwards. -/
theorem voyage_forgets {x : World α} {e : Event α} (he : e.isForgetting = true) : Voyage x e := by
  cases e with
  | delete key =>
    refine .calm rfl (fun _ => rfl) (fun k v limit hv => ?_)
    obtain ⟨hhas, hne⟩ :=
      Cache.has_of_delete (show (x.state.cache.delete key).2.Has k v limit from hv)
    exact ⟨hhas, fun hk => by cases hk; exact hne rfl⟩
  | deleteStartingWith start =>
    refine .calm rfl (fun _ => rfl) (fun k v limit hv => ?_)
    obtain ⟨hhas, hno⟩ := Cache.has_of_deleteStartingWith
      (show (x.state.cache.deleteStartingWith start).2.Has k v limit from hv)
    exact ⟨hhas, fun hk => by cases hk with | deleteStartingWith _ hs => rw [hno] at hs; cases hs⟩
  | _ => cases he

/-- **What an event does among the flights.** -/
theorem voyage {x : World α} (h : x.state.Sound) (e : Event α) : Voyage x e := by
  by_cases hforget : e.isForgetting = true
  · exact voyage_forgets hforget
  have hf : e.isForgetting = false := by simpa using hforget
  cases step_cases x e with
  | same hx => exact .of_same (by rw [hx]) (fun d => by rw [hx]) hf
  | began c key ttl fired _ _ hx => exact .of_same (by rw [hx]; rfl) (fun d => by rw [hx]; rfl) hf
  | turn c answers he hr hx => subst he; exact voyage_turn h hx
  | chore chore timerFirst he hr hx =>
    subst he
    refine .calm (by rw [hx]; rfl) (fun d => by rw [hx]; rfl) (fun key v limit hv => ⟨?_, ?_⟩)
    · rw [hx] at hv
      exact Tended.has_of_perform (show (x.state.flights.store.tended.perform x.now timerFirst
        chore).cache.Has key v limit from hv)
    · intro hk; cases hk
  | fire c _ hx =>
    rcases fire_cases x.state c with hs | ⟨call, fired, -, ⟨-, hs⟩ | ⟨-, hs⟩⟩ | ⟨call, -, -, hs⟩
    · exact .of_same (by rw [hx, hs]) (fun d => by rw [hx, hs]) hf
    · exact .of_same (by rw [hx, hs]; rfl) (fun d => by rw [hx, hs]; rfl) hf
    · exact .of_same (by rw [hx, hs]; rfl) (fun d => by rw [hx, hs]; rfl) hf
    · exact .of_same (by rw [hx, hs]; exact Flights.store_fire _ c)
        (fun d => by rw [hx, hs]; exact phase?_fire x.state c d) hf
  | drop c he hx => subst he; exact voyage_drop hx
  | close he hx =>
    subst he
    refine .calm (by rw [hx]; rfl) (fun d => by rw [hx]; rfl) (fun key v limit hv => ⟨?_, ?_⟩)
    · rw [hx] at hv
      exact hv
    · intro hk; cases hk
  | delete key he _ => rw [he] at hf; cases hf
  | deleteStartingWith start he _ => rw [he] at hf; cases hf

/-- Nothing comes into the log unless a call makes attempts. -/
theorem log_cases {x : World α} (h : x.state.Sound) (e : Event α) :
    log (step x e).state = log x.state ∨ ∃ c call answers fired loop t,
      x.state.calls.get? c = some call ∧ Tries x e c call answers fired loop t := by
  cases voyage h e with
  | calm hlog => exact Or.inl hlog
  | moved c call p hc _ _ hleg =>
    cases hleg with
    | dropped _ _ hlog => exact Or.inl hlog
    | waits _ _ _ _ _ _ hlog => exact Or.inl hlog
    | givesUp _ _ _ hlog => exact Or.inl hlog
    | served _ _ _ _ _ _ _ hlog => exact Or.inl hlog
    | found _ _ _ _ _ hlog => exact Or.inl hlog
    | tries answers fired loop t ht => exact Or.inr ⟨c, call, answers, fired, loop, t, hc, ht⟩

end RegistryLookup.Caller
