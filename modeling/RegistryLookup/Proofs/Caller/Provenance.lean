import RegistryLookup.Proofs.Caller.Attempts

/-!
# Where results come from

The result of a call among the flights is that of an attempt which ended after the call came in, or
a value that the call found in the cache; and a value in the cache is that of an attempt after
which the cache was not told to forget its key (`source`). A call that ends cancelled is the only
exception.

* `Stored`: the attempt to which the cache owes a value.
* `Source`: the two places from which a result comes.
* `Traced`: the invariant, and its being kept.
-/

namespace RegistryLookup.Caller

open Flight

variable {α : Type} {x : World α} {es : List (Event α)}

/-- Entry `q` of the log is made after a call has come in. -/
def MadeSince (x : World α) (es : List (Event α)) (c q : Nat) : Prop :=
  ∀ m, (worldAt x es m).state.calls.get? c = none → mark x es m ≤ q

theorem known_mono {m n c : Nat} (hmn : m ≤ n) {call : Call α}
    (hc : (worldAt x es m).state.calls.get? c = some call) :
    ∃ stage, (worldAt x es n).state.calls.get? c = some { call with stage := stage } := by
  refine Trace.after_since (P := fun (y : World α) => ∃ stage,
    y.state.calls.get? c = some { call with stage := stage }) hmn ⟨call.stage, hc⟩ ?_
  rintro i - e - ⟨stage, hs⟩
  obtain ⟨stage', hs'⟩ := calls_step _ e hs
  exact ⟨stage', hs'⟩

theorem madeSince_of_known (hx : x.state.Sound) {n c q : Nat} {call : Call α}
    (hc : (worldAt x es n).state.calls.get? c = some call) (hq : mark x es n ≤ q) :
    MadeSince x es c q := by
  intro m hm
  refine Nat.le_trans (mark_mono hx (Nat.le_of_not_lt fun hnm => ?_)) hq
  obtain ⟨stage, hs⟩ := known_mono (Nat.le_of_lt hnm) hc
  rw [hm] at hs; cases hs

/-- No entry of the log is later than the clock. -/
theorem instant_le (hx : x.state.Fresh) (n : Nat) :
    ∀ a ∈ log (worldAt x es n).state, a.instant ≤ (worldAt x es n).now := by
  have hboth : (worldAt x es n).state.Sound ∧
      ∀ a ∈ log (worldAt x es n).state, a.instant ≤ (worldAt x es n).now := by
    refine Trace.after_invariant (P := fun (y : World α) => y.state.Sound ∧
      ∀ a ∈ log y.state, a.instant ≤ y.now) ⟨hx.sound, ?_⟩ ?_ n
    · rw [hx.log]; exact fun a ha => by cases ha
    · rintro y e - ⟨hy, hpast⟩
      refine ⟨step_sound hy e, fun a ha => Nat.le_trans ?_ (now_step y e)⟩
      obtain ⟨c, ns, hlog⟩ := log_append hy e
      rw [hlog] at ha
      rcases List.mem_append.1 ha with ha | ha
      · exact hpast a ha
      · obtain ⟨notice, -, rfl⟩ := List.mem_map.1 ha
        exact Nat.le_refl _
  exact hboth.2

/-- A value is kept under a key up to an instant because of an attempt of call `l`, and the cache
has not been told to forget the key since. -/
structure Stored (x : World α) (es : List (Event α)) (n : Nat) (key : String) (v : α) (limit : Nat)
    (l i p q : Nat) (s : Nat) : Prop where
  attempt : ∃ j o, Attempt x es n l i p q j o s ∧ o.result = .ok v
  known : ∃ call, (worldAt x es n).state.calls.get? l = some call ∧ call.key = key ∧
    limit = s + min call.ttl Cache.longestTtl
  kept : ∀ m e, m < n → es[m]? = some e → Forgets key e → mark x es m ≤ q

/-- Where the result of a call for a key comes from that ended among the flights. -/
inductive Source (x : World α) (es : List (Event α)) (n c : Nat) (key : String)
    (ending : Ending α) : Prop
  /-- From an attempt of its own, or of the call that served it. -/
  | fetched (l i p q s : Nat) (j : UInt32) (o : Retry.Outcome α)
      (attempt : Attempt x es n l i p q j o s) (result : o.result = ending.result)
      (hkey : HasKey (worldAt x es n).state l key)
      (role : (l = c ∧ ∃ published, ending.role = .leader published) ∨ ending.role = .served l)
      (arrived : s ≤ ending.instant) (since : MadeSince x es c q)
  /-- From the cache, in which the call found it in event `k`. -/
  | cached (k : Nat) (v : α) (limit l i p q s : Nat) (result : ending.result = .ok v)
      (hk : k < n) (event : ∃ answers, es[k]? = some (.turn c answers))
      (instant : ending.instant = (worldAt x es k).now)
      (before : ∀ E, phase? (worldAt x es k).state c ≠ some (.ended E))
      (after : phase? (worldAt x es (k + 1)).state c = some (.ended ending))
      (found : ((worldAt x es k).state.cache.get (worldAt x es k).now key).1 = some v)
      (stored : Stored x es k key v limit l i p q s) (arrived : s ≤ ending.instant)
      (lives : ending.instant < limit)

theorem HasKey.mono {m n c : Nat} {key : String} (h : HasKey (worldAt x es m).state c key)
    (hmn : m ≤ n) : HasKey (worldAt x es n).state c key := by
  obtain ⟨call, hc, hkey⟩ := h
  obtain ⟨stage, hs⟩ := known_mono hmn hc
  exact ⟨_, hs, hkey⟩

theorem Stored.succ (hx : x.state.Sound) {n : Nat} {key : String} {v : α} {limit l i p q s : Nat}
    (h : Stored x es n key v limit l i p q s)
    (he : ∀ e, es[n]? = some e → ¬ Forgets key e) :
    Stored x es (n + 1) key v limit l i p q s := by
  obtain ⟨j, o, hat, hv⟩ := h.attempt
  obtain ⟨call, hc, hkey, hlimit⟩ := h.known
  obtain ⟨stage, hs⟩ := known_mono (Nat.le_succ n) hc
  refine ⟨⟨j, o, hat.mono hx (Nat.le_succ n), hv⟩, ⟨_, hs, hkey, hlimit⟩, fun m e hm hem hf => ?_⟩
  rcases Nat.lt_or_eq_of_le (Nat.le_of_lt_succ hm) with hlt | rfl
  · exact h.kept m e hlt hem hf
  · exact absurd hf (he e hem)

theorem Source.mono (hx : x.state.Sound) {m n c : Nat} {key : String} {ending : Ending α}
    (h : Source x es m c key ending) (hmn : m ≤ n) : Source x es n c key ending := by
  cases h with
  | fetched l i p q s j o attempt result hkey role arrived since =>
    exact .fetched l i p q s j o (attempt.mono hx hmn) result (hkey.mono hmn) role arrived since
  | cached k v limit l i p q s result hk event instant before after found stored arrived lives =>
    exact .cached k v limit l i p q s result (by omega) event instant before after found stored
      arrived lives

/-- Values in the cache, landed flights that calls wait for, and results of calls have their
source. -/
structure Traced (x : World α) (es : List (Event α)) (n : Nat) : Prop where
  cached : ∀ key v limit, (worldAt x es n).state.cache.Has key v limit →
    ∃ l i p q s, Stored x es n key v limit l i p q s
  waiting : ∀ c l load r, phase? (worldAt x es n).state c = some (.waiting l load) →
    (worldAt x es n).state.flights.fate l = .landed r → r = .error .cancelled ∨
      ∃ i p q s j o, Attempt x es n l i p q j o s ∧ o.result = r ∧ MadeSince x es c q
  ended : ∀ c E key, phase? (worldAt x es n).state c = some (.ended E) →
    HasKey (worldAt x es n).state c key →
      E.result = .error .cancelled ∨ Source x es n c key E

/-- What is in the cache still has its source, unless it is to be forgotten. -/
theorem Traced.stored_succ (hx : x.state.Sound) {n : Nat} (h : Traced x es n) {key : String} {v : α}
    {limit : Nat} (he : ∀ e, es[n]? = some e → ¬ Forgets key e)
    (hv : (worldAt x es n).state.cache.Has key v limit) :
    ∃ l i p q s, Stored x es (n + 1) key v limit l i p q s := by
  obtain ⟨l, i, p, q, s, hstored⟩ := h.cached key v limit hv
  exact ⟨l, i, p, q, s, hstored.succ hx he⟩

/-- Nothing is forgotten when a call moves. -/
theorem Leg.not_forgets {y : World α} {e : Event α} {c : Nat} {call : Call α}
    {p : Phase (Load α) α} (h : Leg y e c call p) (key : String) : ¬ Forgets key e := by
  intro hf
  cases h with
  | dropped he => rw [he] at hf; cases hf
  | waits _ _ _ he => rw [he] at hf; cases hf
  | givesUp _ he => rw [he] at hf; cases hf
  | served _ _ _ _ he => rw [he] at hf; cases hf
  | found _ _ he => rw [he] at hf; cases hf
  | tries _ _ _ _ ht => rw [ht.event] at hf; cases hf

theorem fate_eq (s : Caller α) (l : Nat) :
    s.flights.fate l = (phase? s l).elim .lost Phase.fate := by
  unfold Flights.fate phase?
  cases s.flights.calls.get? l <;> rfl

theorem result_of_landed {E : Ending α} {r : Except Failure α}
    (h : (Phase.ended E : Phase (Load α) α).fate = .landed r) : E.result = r := by
  obtain ⟨r', role, t⟩ := E
  cases role with
  | leader published =>
    cases published with
    | true => cases h; rfl
    | false => cases h
  | served l => cases h
  | gaveUp => cases h

/-- Whoever is among the flights has come in. -/
theorem Sound.known {s : Caller α} (h : s.Sound) {c : Nat} {p : Phase (Load α) α}
    (hp : phase? s c = some p) : ∃ call, s.calls.get? c = some call := by
  obtain ⟨fcall, hf, -⟩ := Option.map_eq_some_iff.1 hp
  obtain ⟨call, hc, -⟩ := h.carried c fcall hf
  exact ⟨call, hc⟩

/-- A call waits for a call of its key that has begun its work. -/
theorem Sound.waits {s : Caller α} (h : s.Sound) {c l : Nat} {load : Load α}
    (hp : phase? s c = some (.waiting l load)) :
    (∃ p, phase? s l = some p ∧ p.task? = none) ∧
      ∀ key, HasKey s c key → HasKey s l key := by
  obtain ⟨fcall, hf, hphase⟩ := Option.map_eq_some_iff.1 hp
  obtain ⟨lead, hl, hkey, ht⟩ := h.flights.boarded c fcall l load hf hphase
  refine ⟨⟨lead.phase, phase?_eq hl, ht⟩, ?_⟩
  rintro key ⟨call, hc, rfl⟩
  obtain ⟨lcall, hlc, hcar⟩ := h.carried l lead hl
  exact ⟨lcall, hlc, by rw [← hcar.sameKey, hkey, (h.carries hc hf).sameKey]⟩

/-- A call keeps its key. -/
theorem HasKey.of_step {y : World α} {e : Event α} {c : Nat} {key : String} {call : Call α}
    (h : HasKey (step y e).state c key) (hc : y.state.calls.get? c = some call) :
    call.key = key := by
  obtain ⟨call', hc', hkey⟩ := h
  obtain ⟨stage, hs⟩ := calls_step y e hc
  rw [hs] at hc'; cases hc'
  exact hkey

/-- What an event does not move is traced as before. -/
theorem Traced.keeps_waiting (hx : x.state.Sound) {n : Nat} (h : Traced x es n) {c l : Nat}
    {load : Load α} {r : Except Failure α}
    (hc : phase? (worldAt x es (n + 1)).state c = phase? (worldAt x es n).state c)
    (hl : phase? (worldAt x es (n + 1)).state l = phase? (worldAt x es n).state l)
    (hp : phase? (worldAt x es (n + 1)).state c = some (.waiting l load))
    (hr : (worldAt x es (n + 1)).state.flights.fate l = .landed r) : r = .error .cancelled ∨
      ∃ i p q s j o, Attempt x es (n + 1) l i p q j o s ∧ o.result = r ∧ MadeSince x es c q := by
  rw [fate_eq, hl, ← fate_eq] at hr
  rcases h.waiting c l load r (by rw [← hc]; exact hp) hr with hcancel |
    ⟨i, p, q, s, j, o, hat, hres, hsince⟩
  · exact Or.inl hcancel
  · exact Or.inr ⟨i, p, q, s, j, o, hat.mono hx (Nat.le_succ n), hres, hsince⟩

theorem Traced.keeps_ended (hx : x.state.Sound) {n : Nat} (h : Traced x es n) {c : Nat}
    {E : Ending α} {key : String}
    (hc : phase? (worldAt x es (n + 1)).state c = phase? (worldAt x es n).state c)
    (hp : phase? (worldAt x es (n + 1)).state c = some (.ended E))
    (hk : HasKey (worldAt x es (n + 1)).state c key) :
    E.result = .error .cancelled ∨ Source x es (n + 1) c key E := by
  rw [hc] at hp
  obtain ⟨call, hcall⟩ := (worldAt_sound hx n).known hp
  obtain ⟨stage, hs⟩ := known_mono (Nat.le_succ n) hcall
  obtain ⟨call', hc', rfl⟩ := hk
  rw [hs] at hc'; cases hc'
  exact (h.ended c E _ hp ⟨call, hcall, rfl⟩).imp_right (fun hsrc => hsrc.mono hx (Nat.le_succ n))

/-- An event after which a call leads no flight that has landed, and that stores nothing. -/
theorem Traced.moved (hx : x.state.Sound) {n c : Nat} (h : Traced x es n)
    {p : Phase (Load α) α} (hself : phase? (worldAt x es (n + 1)).state c = some p)
    (hothers : ∀ d, d ≠ c →
      phase? (worldAt x es (n + 1)).state d = phase? (worldAt x es n).state d)
    (hcached : ∀ key v limit, (worldAt x es (n + 1)).state.cache.Has key v limit →
      ∃ l i p q s, Stored x es (n + 1) key v limit l i p q s)
    (hserves : ∀ r, p.fate = .landed r → ∀ d load,
      phase? (worldAt x es n).state d = some (.waiting c load) → r = .error .cancelled ∨
        ∃ i p q s j o, Attempt x es (n + 1) c i p q j o s ∧ o.result = r ∧ MadeSince x es d q)
    (hwaits : ∀ l load, p = .waiting l load → l ≠ c ∧
      ∀ r, (worldAt x es n).state.flights.fate l ≠ .landed r)
    (hends : ∀ E key, p = .ended E → HasKey (worldAt x es (n + 1)).state c key →
      E.result = .error .cancelled ∨ Source x es (n + 1) c key E) : Traced x es (n + 1) := by
  refine ⟨hcached, fun d l load r hd hr => ?_, fun d E key hd hk => ?_⟩
  · by_cases hdc : d = c
    · subst hdc
      rw [hself] at hd
      obtain ⟨hl, hno⟩ := hwaits l load (Option.some.inj hd)
      rw [fate_eq, hothers l hl, ← fate_eq] at hr
      exact absurd hr (hno r)
    · by_cases hlc : l = c
      · subst hlc
        rw [fate_eq, hself] at hr
        exact hserves r hr d load (by rw [← hothers d hdc]; exact hd)
      · exact h.keeps_waiting hx (hothers d hdc) (hothers l hlc) hd hr
  · by_cases hdc : d = c
    · subst hdc
      rw [hself] at hd
      exact hends E key (Option.some.inj hd) hk
    · exact h.keeps_ended hx (hothers d hdc) hd hk

section Leg

variable {n c : Nat} {call : Call α} {e : Event α}

/-- The attempt whose result is that of a call that makes attempts. -/
theorem attempt_of_tries (hx : x.state.Fresh) (he : es[n]? = some e) {answers : Answers α}
    {fired : Bool} {loop : Retry.Loop α} {t : Retry.Turn α}
    (ht : Tries (worldAt x es n) e c call answers fired loop t) {r : Except Failure α}
    (hr : t.rest = .inr r) : r = .error .cancelled ∨ ∃ i p q j o,
      Attempt x es (n + 1) c i p q j o (worldAt x es n).now ∧ o.result = r ∧ mark x es n ≤ q := by
  rcases ht.course.result hr with hc | ⟨k, j, -, hk⟩
  · exact Or.inl hc
  · have hq := ht.getElem?_notice hk
    rw [← worldAt_succ x he] at hq
    obtain ⟨i, p, o, hat, ho⟩ := attempt_of_ended hx hq
    exact Or.inr ⟨i, p, _, j, o, hat, ho, Nat.le_add_right _ _⟩

theorem Traced.tries (hx : x.state.Fresh) (h : Traced x es n) (he : es[n]? = some e)
    (hc : (worldAt x es n).state.calls.get? c = some call) {answers : Answers α} {fired : Bool}
    {loop : Retry.Loop α} {t : Retry.Turn α}
    (ht : Tries (worldAt x es n) e c call answers fired loop t)
    (hself : phase? (worldAt x es (n + 1)).state c =
      some (afterTurn call fired (worldAt x es n).now t.rest))
    (hothers : ∀ d, d ≠ c →
      phase? (worldAt x es (n + 1)).state d = phase? (worldAt x es n).state d) :
    Traced x es (n + 1) := by
  have hsound : (worldAt x es n).state.Sound := worldAt_sound hx.sound n
  obtain ⟨stage, hc'⟩ := known_mono (Nat.le_succ n) hc
  refine h.moved hx.sound hself hothers (fun key v limit hv => ?_) (fun r hr d load hd => ?_)
    (fun l load hp => ?_) (fun E key hp hk => ?_)
  · rw [worldAt_succ x he] at hv
    rcases ht.cached key v limit hv with hold | ⟨hrest, rfl, rfl⟩
    · refine h.stored_succ hx.sound (fun e' he' => ?_) hold
      rw [he] at he'; cases he'
      exact (Leg.tries answers fired loop t ht).not_forgets key
    · -- the value has just been brought
      rcases attempt_of_tries hx he ht hrest with hcancel | ⟨i, p, q, j, o, hat, ho, hq⟩
      · cases hcancel
      · exact ⟨c, i, p, q, _, ⟨j, o, hat, ho⟩, ⟨_, hc', rfl, rfl⟩, fun m e' hm _ _ =>
          Nat.le_trans (mark_mono hx.sound (Nat.le_of_lt_succ hm)) hq⟩
  · cases hrest : t.rest with
    | inl loop' => rw [hrest] at hr; cases hr
    | inr r' =>
      rw [hrest] at hr
      obtain rfl : r' = r := result_of_landed hr
      rcases attempt_of_tries hx he ht hrest with hcancel | ⟨i, p, q, j, o, hat, ho, hq⟩
      · exact Or.inl hcancel
      · obtain ⟨dcall, hdcall⟩ := hsound.known hd
        exact Or.inr ⟨i, p, q, _, j, o, hat, ho, madeSince_of_known hx.sound hdcall hq⟩
  · cases hrest : t.rest <;> rw [hrest] at hp <;> cases hp
  · cases hrest : t.rest with
    | inl loop' => rw [hrest] at hp; cases hp
    | inr r =>
      rw [hrest] at hp; cases hp
      rcases attempt_of_tries hx he ht hrest with hcancel | ⟨i, p, q, j, o, hat, ho, hq⟩
      · exact Or.inl hcancel
      · exact Or.inr (.fetched c i p q _ j o hat ho hk (Or.inl ⟨rfl, _, rfl⟩) (Nat.le_refl _)
          (madeSince_of_known hx.sound hc hq))

/-- The source of what a call gets from the flight that it waited for. -/
theorem Traced.served (hx : x.state.Fresh) (h : Traced x es n)
    (hc : (worldAt x es n).state.calls.get? c = some call) {l : Nat} {load : Load α}
    {r : Except Failure α} (hwait : phase? (worldAt x es n).state c = some (.waiting l load))
    (hl : (worldAt x es n).state.flights.fate l = .landed r) :
    r = .error .cancelled ∨
      Source x es (n + 1) c call.key ⟨r, .served l, (worldAt x es n).now⟩ := by
  rcases h.waiting c l load r hwait hl with hcancel | ⟨i, p, q, s, j, o, hat, ho, hsince⟩
  · exact Or.inl hcancel
  -- the flight was for the key of the call
  have hsound : (worldAt x es n).state.Sound := worldAt_sound hx.sound n
  have hkey := ((hsound.waits hwait).2 call.key ⟨call, hc, rfl⟩).mono (Nat.le_succ n)
  have hpast := instant_le hx n _ (List.mem_of_getElem? hat.entry)
  exact Or.inr (.fetched l i p q s j o (hat.mono hx.sound (Nat.le_succ n)) ho hkey (Or.inr rfl) hpast
    hsince)

/-- The source of what a call finds in the cache. -/
theorem Traced.found (hx : x.state.Fresh) (h : Traced x es n) {answers : Answers α}
    (he : es[n]? = some (.turn c answers)) (hopen : Unbegun (worldAt x es n).state c) {v : α}
    (hv : ((worldAt x es n).state.cache.get (worldAt x es n).now call.key).1 = some v)
    (hself : phase? (worldAt x es (n + 1)).state c =
      some (.ended ⟨.ok v, .leader true, (worldAt x es n).now⟩)) :
    Source x es (n + 1) c call.key ⟨.ok v, .leader true, (worldAt x es n).now⟩ := by
  obtain ⟨limit, hhas, hlives⟩ := Cache.has_of_hit hv
  obtain ⟨l, i, p, q, s, hstored⟩ := h.cached _ v limit hhas
  obtain ⟨j, o, hat, -⟩ := hstored.attempt
  have hpast := instant_le hx n _ (List.mem_of_getElem? hat.entry)
  exact .cached n v limit l i p q s rfl (Nat.lt_succ_self n) ⟨answers, he⟩ rfl
    (fun E hE => hopen _ hE rfl) hself hv hstored hpast hlives

theorem traced_leg (hx : x.state.Fresh) (h : Traced x es n) (he : es[n]? = some e)
    (hc : (worldAt x es n).state.calls.get? c = some call) {p : Phase (Load α) α}
    (hself : phase? (worldAt x es (n + 1)).state c = some p)
    (hothers : ∀ d, d ≠ c →
      phase? (worldAt x es (n + 1)).state d = phase? (worldAt x es n).state d)
    (hleg : Leg (worldAt x es n) e c call p) : Traced x es (n + 1) := by
  have hsound : (worldAt x es n).state.Sound := worldAt_sound hx.sound n
  have hforget := hleg.not_forgets
  -- what is in the cache was there before
  have hkeeps : (∀ key v limit, (step (worldAt x es n) e).state.cache.Has key v limit →
      (worldAt x es n).state.cache.Has key v limit) →
      ∀ key v limit, (worldAt x es (n + 1)).state.cache.Has key v limit →
        ∃ l i p q s, Stored x es (n + 1) key v limit l i p q s := by
    intro hfewer key v limit hv
    rw [worldAt_succ x he] at hv
    refine h.stored_succ hx.sound (fun e' he' => ?_) (hfewer key v limit hv)
    rw [he] at he'; cases he'
    exact hforget key
  have hsame : (step (worldAt x es n) e).state.cache = (worldAt x es n).state.cache →
      ∀ key v limit, (worldAt x es (n + 1)).state.cache.Has key v limit →
        ∃ l i p q s, Stored x es (n + 1) key v limit l i p q s :=
    fun hcache => hkeeps fun _ _ _ hv => by rw [← hcache]; exact hv
  have hunlanded : ∀ {q : Phase (Load α) α} {b : Prop} {r : Except Failure α}, q.fate = .lost →
      q.fate = .landed r → b := by
    intro q b r hlost hr
    rw [hlost] at hr; cases hr
  have hown : ∀ {key}, HasKey (worldAt x es (n + 1)).state c key → call.key = key := by
    intro key hk
    rw [worldAt_succ x he] at hk
    exact hk.of_step hc
  cases hleg with
  | dropped he' _ _ hcache =>
    exact h.moved hx.sound hself hothers (hsame hcache) (fun r hr => hunlanded rfl hr)
      (fun _ _ hp => by cases hp) (fun _ _ hp => by cases hp)
  | waits answers l load he' hopen hl _ hcache =>
    refine h.moved hx.sound hself hothers (hsame hcache) (fun r hr => hunlanded rfl hr)
      (fun l' load' hp => ?_) (fun _ _ hp => by cases hp)
    cases hp
    obtain ⟨fired, task, hlead⟩ := hl
    have hphase := phase?_eq hlead
    refine ⟨fun hlc => ?_, fun r hr => ?_⟩
    · rw [hlc] at hphase
      exact hopen _ hphase rfl
    · rw [fate_eq, hphase] at hr; cases hr
  | givesUp answers he' _ _ hcache =>
    refine h.moved hx.sound hself hothers (hsame hcache) (fun r hr => hunlanded rfl hr)
      (fun _ _ hp => by cases hp) (fun E key hp _ => ?_)
    cases hp
    exact Or.inl rfl
  | served answers l load r he' hwait hl _ hcache =>
    refine h.moved hx.sound hself hothers (hsame hcache) (fun r hr => hunlanded rfl hr)
      (fun _ _ hp => by cases hp) (fun E key hp hk => ?_)
    cases hp
    rw [← hown hk]
    exact h.served hx hc hwait hl
  | found answers v he' hopen hv _ hcache =>
    refine h.moved hx.sound hself hothers
      (hkeeps fun _ _ _ hh => by rw [hcache] at hh; exact Cache.has_of_get hh)
      (fun r _ d load hd => ?_) (fun _ _ hp => by cases hp) (fun E key hp hk => ?_)
    · -- nobody waits for a call that has not begun
      obtain ⟨⟨q, hq, htask⟩, -⟩ := hsound.waits hd
      exact absurd htask (hopen q hq)
    · cases hp
      rw [← hown hk]
      exact Or.inr (h.found hx (by rw [he, he']) hopen hv hself)
  | tries answers fired loop t ht => exact h.tries hx he hc ht hself hothers

end Leg

/-- A caller to which no call has come, and whose cache is empty. -/
structure Untouched (s : Caller α) : Prop extends s.Fresh where
  empty : s.cache.entries = []

theorem make_untouched (name : String) (settings : Config.Settings) (now : Nat) :
    (make name settings now : Caller α).Untouched :=
  ⟨make_fresh name settings now, rfl⟩

theorem traced (hx : x.state.Untouched) (n : Nat) : Traced x es n := by
  induction n with
  | zero =>
    have hphase : ∀ {c : Nat} {p : Phase (Load α) α} {b : Prop},
        phase? (worldAt x es 0).state c = some p → b := by
      intro c p b hp
      rw [worldAt_zero] at hp
      obtain ⟨call, hc⟩ := hx.sound.known hp
      rw [hx.calls] at hc; cases hc
    refine ⟨fun key v limit hv => ?_, fun c l load r hp _ => hphase hp,
      fun c E key hp _ => hphase hp⟩
    obtain ⟨e, he, -⟩ := hv
    rw [worldAt_zero, hx.empty] at he; cases he
  | succ n ih =>
    rcases worldAt_cases x es n with ⟨hnone, h⟩ | ⟨e, he, -⟩
    · refine ⟨fun key v limit hv => ?_, fun c l load r hp hr => ?_, fun c E key hp hk => ?_⟩
      · rw [h] at hv
        exact ih.stored_succ hx.sound (fun e he => by rw [hnone] at he; cases he) hv
      · exact ih.keeps_waiting hx.sound (by rw [h]) (by rw [h]) hp hr
      · exact ih.keeps_ended hx.sound (by rw [h]) hp hk
    · have hsound : (worldAt x es n).state.Sound := worldAt_sound hx.sound n
      cases voyage hsound e with
      | calm hlog hphase hcache =>
        rw [← worldAt_succ x he] at hphase hcache
        refine ⟨fun key v limit hv => ?_, fun c l load r hp hr => ?_, fun c E key hp hk => ?_⟩
        · obtain ⟨hold, hno⟩ := hcache key v limit hv
          refine ih.stored_succ hx.sound (fun e' he' => ?_) hold
          rw [he] at he'; cases he'
          exact hno
        · exact ih.keeps_waiting hx.sound (hphase c) (hphase l) hp hr
        · exact ih.keeps_ended hx.sound (hphase c) hp hk
      | moved c call p hc hself hothers hleg =>
        rw [← worldAt_succ x he] at hself hothers
        exact traced_leg hx.toFresh ih he hc hself hothers hleg

/-- **Every result has its source.** -/
theorem source (hx : x.state.Untouched) {n c : Nat} {E : Ending α} {key : String}
    (hp : phase? (worldAt x es n).state c = some (.ended E))
    (hk : HasKey (worldAt x es n).state c key) :
    E.result = .error .cancelled ∨ Source x es n c key E :=
  (traced hx n).ended c E key hp hk

end RegistryLookup.Caller
