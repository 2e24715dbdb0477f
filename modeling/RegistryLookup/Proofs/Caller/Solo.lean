import RegistryLookup.Proofs.Cache.Entries
import RegistryLookup.Proofs.Caller.Reports
import RegistryLookup.Proofs.Table

/-!
# A call that has its caller to itself

Where no other call is under way, a call finds a free permit and no flight for its key, so all that
its turns do is what its loop does (`Vacant.turn`, `Trying.turn`), and they wake nobody else
(`Solo.woken_eq`).

* `Trying`, `Landed`: what is known of a caller while its only call makes attempts, and afterwards.
* `mem_timers_of_solo`: its timers are that of the loop and those of the background work.
-/

namespace RegistryLookup.Caller

open Flight

variable {α : Type}

/-- No other call of a caller is under way, and nobody waits for a flight or a permit. -/
structure Solo (s : Caller α) (c : Nat) : Prop where
  keys : s.calls.keys.Nodup
  ended : ∀ d call, d ≠ c → s.calls.get? d = some call → call.isOpen = false
  flightKeys : s.flights.calls.keys.Nodup
  unwaited : ∀ d fcall, s.flights.calls.get? d = some fcall →
    ∀ l load, fcall.phase ≠ .waiting l load
  queue : s.permits.queue = []
  granted : s.permits.granted = []

/-- Nothing is in the cache of a caller that was not in the cache of another one. -/
def AddsNothing (s s₀ : Caller α) : Prop :=
  ∀ key v limit, s.cache.Has key v limit → s₀.cache.Has key v limit

/-- The only call of a caller makes attempts. `s₀` is the caller before the call came in. -/
structure Trying (s₀ s : Caller α) (c : Nat) (key : String) (ttl : Nat) (loop : Retry.Loop α) :
    Prop where
  solo : s.Solo c
  policy : s.policy = s₀.policy
  breaker : s.breaker = s₀.breaker
  call : s.calls.get? c = some ⟨key, ttl, .admitted⟩
  leads : s.flights.calls.get? c = some ⟨key, false, .leading ⟨key, ttl, .trying loop⟩⟩
  cached : s.AddsNothing s₀

/-- The only call of a caller has ended. -/
structure Landed (s₀ s : Caller α) (c : Nat) (r : Except Failure α) (instant : Nat) : Prop where
  solo : s.Solo c
  ended : s.ending? c = some (r, instant)
  breaker : s.breaker = report s₀.breaker instant r
  cached : r.isOk = false → s.AddsNothing s₀

/-- Where the turn of its loop leaves the only call of a caller. -/
inductive Went (s₀ s : Caller α) (c : Nat) (key : String) (ttl now : Nat) :
    Retry.Loop α ⊕ Except Failure α → Prop
  | tries {loop : Retry.Loop α} (h : Trying s₀ s c key ttl loop) :
    Went s₀ s c key ttl now (.inl loop)
  | lands {r : Except Failure α} (h : Landed s₀ s c r now) : Went s₀ s c key ttl now (.inr r)

/-- The call does what its loop does in a turn, and makes the entries of the loop. -/
structure Follows (s₀ s : Caller α) (c : Nat) (key : String) (ttl now : Nat)
    (record : List (Retry.Entry α)) (t : Retry.Turn α) : Prop where
  record : s.flights.store.record = Retry.enter c now t.notices record
  went : Went s₀ s c key ttl now t.rest

/-- A call that comes in now has the caller to itself, and nothing to wait for. -/
structure Vacant (s : Caller α) (c : Nat) (key : String) (now : Nat) : Prop where
  solo : s.Solo c
  free : 0 < s.permits.free
  circuit : s.breaker.circuit = .closed
  unled : s.flights.inFlight.get? key = none
  missed : (s.cache.get now key).1 = none

variable {s s₀ : Caller α} {c now : Nat} {key : String} {ttl : Nat}

/-- Wherever the only call of a caller moves, the others stay as they are. -/
theorem Solo.put (h : s.Solo c) {s' : Caller α} (hkeys : s'.calls.keys.Nodup)
    (hcalls : ∀ d, d ≠ c → s'.calls.get? d = s.calls.get? d) {fcall : Flight.Call (Load α) α}
    (hflights : s'.flights.calls = s.flights.calls.put c fcall)
    (hfcall : ∀ l load, fcall.phase ≠ .waiting l load) (hqueue : s'.permits.queue = [])
    (hgranted : s'.permits.granted = []) : s'.Solo c where
  keys := hkeys
  ended := fun d call hd hcall => h.ended d call hd (by rw [← hcalls d hd]; exact hcall)
  flightKeys := by
    rw [hflights]
    exact Table.nodup_keys_put h.flightKeys c fcall
  unwaited := by
    intro d dcall hdcall
    rw [hflights] at hdcall
    by_cases hd : d = c
    · subst hd
      rw [Table.get?_put_self] at hdcall
      cases hdcall
      exact hfcall
    · rw [Table.get?_put_of_ne _ _ hd] at hdcall
      exact h.unwaited d dcall hdcall
  queue := hqueue
  granted := hgranted

theorem release_of_queue_nil {p : Permits} (h : p.queue = []) :
    p.release = { p with free := p.free + 1 } := by
  unfold Permits.release
  rw [h]

/-- The phase in which attempts leave the only call of a caller. -/
def wentPhase (key : String) (ttl now : Nat) :
    Retry.Loop α ⊕ Except Failure α → Phase (Load α) α
  | .inl loop => .leading ⟨key, ttl, .trying loop⟩
  | .inr r => .ended ⟨r, .leader true, now⟩

/-- What a turn of attempts leaves behind. -/
theorem attempt_spec (policy : Retry.Policy) (label : String) (answers : Answers α) (now c : Nat)
    (key : String) (ttl : Nat) (stage : Load.Stage α) (loop : Retry.Loop α) (store : Store α) :
    (attempt policy label answers now c false ⟨key, ttl, stage⟩ loop store).1.phase false now =
        wentPhase key ttl now (loop.turn policy answers now false).rest ∧
      (attempt policy label answers now c false ⟨key, ttl, stage⟩ loop store).2.record =
        Retry.enter c now (loop.turn policy answers now false).notices store.record ∧
      ((∀ v, (loop.turn policy answers now false).rest ≠ .inr (.ok v)) →
        (attempt policy label answers now c false ⟨key, ttl, stage⟩ loop store).2.tended.cache =
          store.tended.cache) := by
  unfold attempt
  simp only
  cases hrest : (loop.turn policy answers now false).rest with
  | inl loop' => exact ⟨rfl, rfl, fun _ => rfl⟩
  | inr r =>
    cases r with
    | ok v => exact ⟨rfl, rfl, fun hno => absurd rfl (hno v)⟩
    | error e => exact ⟨rfl, rfl, fun _ => rfl⟩

/-- The only call of a caller makes attempts in its turn among the flights, which are `F` when its
work begins. -/
theorem follows_of_work {answers : Answers α} {callStage : Stage α} {loop : Retry.Loop α}
    (F : Flights (Store α) (Load α) α) (phase : Phase (Load α) α) (loadStage : Load.Stage α)
    (store : Store α) (hsolo : s.Solo c) (hpolicy : s.policy = s₀.policy)
    (hbreaker : s.breaker = s₀.breaker) (hcall : s.calls.get? c = some ⟨key, ttl, .admitted⟩)
    (hturn : s.flights.turn (loadWork s.policy s.name) answers now c =
      F.work (loadWork s.policy s.name) answers now c ⟨key, false, phase⟩ ⟨key, ttl, loadStage⟩)
    (hcalls : F.calls = s.flights.calls)
    (hwork : (loadWork s.policy s.name).turn answers now c false ⟨key, ttl, loadStage⟩ F.store =
      attempt s.policy s.name answers now c false ⟨key, ttl, loadStage⟩ loop store)
    (hcached : ∀ key v limit, store.tended.cache.Has key v limit → s₀.cache.Has key v limit) :
    Follows s₀ (s.proceed answers now c ⟨key, ttl, callStage⟩) c key ttl now store.record
      (loop.turn s.policy answers now false) := by
  obtain ⟨hphase, hrecord, hcache⟩ := attempt_spec s.policy s.name answers now c key ttl loadStage
    loop store
  have hflights := Flights.calls_work (loadWork s.policy s.name) answers now c
    ⟨key, false, phase⟩ ⟨key, ttl, loadStage⟩ F
  have hstore := Flights.store_work (loadWork s.policy s.name) answers now c
    ⟨key, false, phase⟩ ⟨key, ttl, loadStage⟩ F
  rw [← hturn, hwork] at hflights hstore
  rw [hcalls, hphase] at hflights
  have hself : (s.flights.turn (loadWork s.policy s.name) answers now c).calls.get? c =
      some ⟨key, false, wentPhase key ttl now (loop.turn s.policy answers now false).rest⟩ := by
    rw [hflights]
    exact Table.get?_put_self _ _ _
  have hkept : (∀ v, (loop.turn s.policy answers now false).rest ≠ .inr (.ok v)) →
      ∀ s' : Caller α, s'.flights = s.flights.turn (loadWork s.policy s.name) answers now c →
        s'.AddsNothing s₀ := by
    intro hno s' hs' k v limit hhas
    unfold cache at hhas
    rw [hs', hstore, hcache hno] at hhas
    exact hcached k v limit hhas
  cases hrest : (loop.turn s.policy answers now false).rest with
  | inl loop' =>
    rw [hrest] at hflights hself hkept
    rcases proceed_cases answers now c ⟨key, ttl, callStage⟩ s with ⟨-, hproceed⟩ | ⟨e, he, -⟩
    swap
    · rw [Flights.ending?, hself] at he
      cases he
    refine ⟨by rw [hproceed, hstore, hrecord], ?_⟩
    rw [hrest, hproceed]
    refine .tries ⟨?_, hpolicy, hbreaker, hcall, hself, hkept (fun _ h => by cases h) _ rfl⟩
    exact hsolo.put hsolo.keys (fun _ _ => rfl) hflights (fun _ _ h => by cases h) hsolo.queue
      hsolo.granted
  | inr r =>
    rw [hrest] at hflights hself hkept
    rcases proceed_cases answers now c ⟨key, ttl, callStage⟩ s with ⟨hnone, -⟩ | ⟨e, he, hproceed⟩
    · rw [Flights.ending?, hself] at hnone
      cases hnone
    rw [Flights.ending?, hself] at he
    cases he
    have hrelease := release_of_queue_nil hsolo.queue
    refine ⟨by rw [hproceed]; exact hstore ▸ hrecord, ?_⟩
    rw [hrest, hproceed]
    refine .lands ⟨?_, ?_, ?_, fun hfail => hkept ?_ _ rfl⟩
    · refine hsolo.put (Table.nodup_keys_put hsolo.keys _ _)
        (fun d hd => Table.get?_put_of_ne _ _ hd) hflights (fun _ _ h => by cases h) ?_ ?_
      · show s.permits.release.queue = []
        rw [hrelease]
        exact hsolo.queue
      · show s.permits.release.granted = []
        rw [hrelease]
        exact hsolo.granted
    · unfold ending?
      rw [calls_become, Table.get?_put_self]
    · show settleReport s.breaker now ⟨r, .leader true, now⟩ = report s₀.breaker now r
      rw [hbreaker]
      rfl
    · rintro v heq
      cases heq
      cases hfail

/-- **The turn of a call under way does what its loop does.** -/
theorem Trying.turn {loop : Retry.Loop α} (h : Trying s₀ s c key ttl loop) (answers : Answers α)
    (now : Nat) :
    Follows s₀ (s.turn answers now c) c key ttl now s.flights.store.record
      (loop.turn s.policy answers now false) := by
  have hturn : s.turn answers now c = s.proceed answers now c ⟨key, ttl, .admitted⟩ := by
    unfold Caller.turn
    simp only [h.call]
  rw [hturn]
  refine follows_of_work s.flights (.leading ⟨key, ttl, .trying loop⟩) (.trying loop)
    s.flights.store h.solo h.policy h.breaker h.call ?_ rfl rfl h.cached
  unfold Flights.turn
  simp only [h.leads]

/-- **So does the first turn of a call that finds nothing in its way.** -/
theorem Vacant.turn (h : Vacant s c key now) (hclosed : s.permits.closed = false)
    (answers : Answers α) (ttl : Nat) :
    Follows s ((s.start c key ttl false).turn answers now c) c key ttl now s.flights.store.record
      (({} : Retry.Loop α).turn s.policy answers now false) := by
  -- the breaker lets it through, and it is given a permit and then the flight for its key
  have hallow : s.breaker.allow now = (true, s.breaker) := by
    unfold Breaker.allow
    rw [h.circuit]
  have hrequest : s.permits.request c = (true, { s.permits with free := s.permits.free - 1 }) :=
    if_pos h.free
  have hself : (s.start c key ttl false).calls.get? c = some ⟨key, ttl, .arriving false⟩ :=
    Table.get?_put_self _ _ _
  have hturn : (s.start c key ttl false).turn answers now c =
      board answers now c ⟨key, ttl, .arriving false⟩ false { s.start c key ttl false with
        permits := { s.permits with free := s.permits.free - 1 } } := by
    unfold Caller.turn
    simp only [hself]
    unfold arrive
    have hclosed' : (s.start c key ttl false).permits.closed = false := hclosed
    have hallow' : (s.start c key ttl false).breaker.allow now = (true, s.breaker) := hallow
    have hrequest' : (s.start c key ttl false).permits.request c =
      (true, { s.permits with free := s.permits.free - 1 }) := hrequest
    simp only [hclosed', hallow', hrequest', Bool.false_eq_true, if_false, if_true, Bool.not_true]
    rfl
  rw [hturn]
  unfold board
  have hwork : (loadWork s.policy s.name).turn answers now c false ⟨key, ttl, .lookup⟩
      s.flights.store = attempt s.policy s.name answers now c false ⟨key, ttl, .lookup⟩ {}
        (s.flights.store.withCache (s.cache.get now key).2) := by
    rcases loadWork_cases s.policy s.name answers now c false ⟨key, ttl, .lookup⟩ s.flights.store
      with ⟨-, v, hv, -⟩ | ⟨loop, cache, ⟨-, -, rfl, rfl⟩ | ⟨hstage, -⟩, hout⟩
    · rw [show (s.flights.store.tended.cache.get now key).1 = none from h.missed] at hv
      cases hv
    · exact hout
    · cases hstage
  refine follows_of_work { s.flights.start c key false { key := key, ttl := ttl } with
      inFlight := s.flights.inFlight.put key c } (.arriving { key := key, ttl := ttl }) .lookup
    (s.flights.store.withCache (s.cache.get now key).2) ?_ rfl rfl (Table.get?_put_self _ _ _) ?_
    rfl hwork (fun k v limit hhas => Cache.has_of_get hhas)
  · refine h.solo.put (Table.nodup_keys_put (Table.nodup_keys_put h.solo.keys _ _) _ _)
      (fun d hd => ?_) rfl (fun _ _ h => by cases h) h.solo.queue h.solo.granted
    exact (Table.get?_put_of_ne _ _ hd).trans (Table.get?_put_of_ne _ _ hd)
  · have harriving : (s.flights.start c key false { key := key, ttl := ttl }).calls.get? c =
        some ⟨key, false, .arriving { key := key, ttl := ttl }⟩ := Table.get?_put_self _ _ _
    have hunled : (s.flights.start c key false { key := key, ttl := ttl }).inFlight.get? key =
      none := h.unled
    show Flights.turn _ answers now c (s.flights.start c key false { key := key, ttl := ttl }) = _
    unfold Flights.turn
    simp only [harriving]
    unfold Flights.join
    simp only [hunled]
    rfl

/-- A closed caller turns a call away in its first turn. -/
theorem turnedAway_of_closed (hclosed : s.permits.closed = true) (answers : Answers α) (now : Nat)
    (c : Nat) (key : String) (ttl : Nat) :
    (s.start c key ttl false).turn answers now c = (s.start c key ttl false).become c
      ⟨key, ttl, .arriving false⟩ (.ended (.error (closedFailure s.name)) now) := by
  have hself : (s.start c key ttl false).calls.get? c = some ⟨key, ttl, .arriving false⟩ :=
    Table.get?_put_self _ _ _
  have hshut : (s.start c key ttl false).permits.closed = true := hclosed
  unfold Caller.turn
  simp only [hself]
  unfold arrive
  rw [if_pos hshut]
  rfl

/-- A call that is turned away has never been among the flights. -/
theorem Solo.away (h : s.Solo c) (key : String) (ttl : Nat) (r : Except Failure α) (now : Nat) :
    ((s.start c key ttl false).become c ⟨key, ttl, .arriving false⟩ (.ended r now)).Solo c where
  keys := Table.nodup_keys_put (Table.nodup_keys_put h.keys _ _) _ _
  ended := fun d call hd hcall => by
    refine h.ended d call hd ?_
    rw [← hcall]
    exact ((Table.get?_put_of_ne _ _ hd).trans (Table.get?_put_of_ne _ _ hd)).symm
  flightKeys := h.flightKeys
  unwaited := h.unwaited
  queue := h.queue
  granted := h.granted

theorem Went.solo {rest : Retry.Loop α ⊕ Except Failure α} (h : Went s₀ s c key ttl now rest) :
    s.Solo c := by
  cases h with
  | tries htrying => exact htrying.solo
  | lands hlanded => exact hlanded.solo

/-- A change that concerns nobody else wakes the background work only. -/
theorem Solo.woken_eq {s' : Caller α} (h : s'.Solo c) :
    woken s s' c = (Tended.called s.cache s'.cache).map .chore := by
  have hwaiters : s'.flights.waitersOf c = [] := by
    refine List.filterMap_eq_nil_iff.2 fun p hp => ?_
    have hno := h.unwaited p.1 p.2 (Table.get?_of_mem h.flightKeys hp)
    split
    · rename_i l load hphase
      exact absurd hphase (hno l load)
    · rfl
  have hfreed : s'.flights.freedBy c = [] := by
    unfold Flights.freedBy
    split
    · rfl
    · exact hwaiters
  have hgranted : newlyGranted s s' = [] := by
    unfold newlyGranted
    rw [h.granted]
    rfl
  rw [woken, hfreed, hgranted, List.map_nil, List.append_nil, List.append_nil]

theorem Solo.perform (h : s.Solo c) (now : Nat) (timerFirst : Bool)
    (chore : Tended.Chore) : (s.perform now timerFirst chore).Solo c :=
  ⟨h.keys, h.ended, h.flightKeys, h.unwaited, h.queue, h.granted⟩

theorem AddsNothing.perform (h : s.AddsNothing s₀) (now : Nat) (timerFirst : Bool)
    (chore : Tended.Chore) : (s.perform now timerFirst chore).AddsNothing s₀ :=
  fun key v limit hhas => h key v limit (Tended.has_of_perform hhas)

theorem Trying.perform {loop : Retry.Loop α} (h : Trying s₀ s c key ttl loop) (now : Nat)
    (timerFirst : Bool) (chore : Tended.Chore) :
    Trying s₀ (s.perform now timerFirst chore) c key ttl loop :=
  ⟨h.solo.perform now timerFirst chore, h.policy, h.breaker, h.call, h.leads,
    h.cached.perform now timerFirst chore⟩

theorem Landed.perform {r : Except Failure α} {instant : Nat} (h : Landed s₀ s c r instant)
    (now : Nat) (timerFirst : Bool) (chore : Tended.Chore) :
    Landed s₀ (s.perform now timerFirst chore) c r instant :=
  ⟨h.solo.perform now timerFirst chore, h.ended, h.breaker,
    fun hfail => (h.cached hfail).perform now timerFirst chore⟩

/-- The timers of calls that are over, but for one, and of the background work. -/
theorem mem_timers_of_solo (h : s.Solo c) {plans : Table Nat Plan}
    (hplan : (plans.get? c).getD {} = {}) {t : Nat} {task : Task} :
    (t, task) ∈ s.timers plans ↔
      (∃ call, s.calls.get? c = some call ∧ call.isOpen = true ∧ s.workTimer c = some t ∧
        task = .call c) ∨
      ∃ chore, (t, chore) ∈ s.flights.store.tended.timers ∧ task = .chore chore := by
  unfold timers
  simp only [List.mem_append, List.mem_flatMap, List.mem_map, Prod.exists, Prod.mk.injEq]
  refine or_congr ⟨?_, ?_⟩ ?_
  · rintro ⟨d, call, hmem, hin⟩
    have hcall : s.calls.get? d = some call := Table.get?_of_mem h.keys hmem
    cases ho : call.isOpen with
    | false => simp [ho] at hin
    | true =>
      have hd : d = c := by
        by_contra hne
        rw [h.ended d call hne hcall] at ho
        cases ho
      subst hd
      simp only [ho, if_true, hplan, List.mem_append, List.mem_map, Option.mem_toList] at hin
      rcases hin with (⟨i, hi, heq⟩ | hin) | hin
      · cases heq
        exact ⟨call, hcall, ho, hi, rfl⟩
      · split at hin <;> cases hin
      · obtain ⟨_, hnone, -⟩ := hin
        cases hnone
  · rintro ⟨call, hcall, ho, ht, rfl⟩
    refine ⟨c, call, Table.mem_of_get? hcall, ?_⟩
    simp [ho, ht]
  · constructor
    · rintro ⟨_, chore, hmem, rfl, rfl⟩
      exact ⟨chore, hmem, rfl⟩
    · rintro ⟨chore, hmem, rfl⟩
      exact ⟨t, chore, hmem, rfl, rfl⟩

/-- Where every call is over, the timers are those of the background work. -/
theorem chore_of_isDone (h : s.isDone = true) {plans : Table Nat Plan} {t : Nat} {task : Task}
    (hmem : (t, task) ∈ s.timers plans) : ∃ chore, task = .chore chore := by
  unfold timers at hmem
  rcases List.mem_append.1 hmem with hcall | hchore
  · obtain ⟨⟨d, call⟩, hin, hopen⟩ := List.mem_flatMap.1 hcall
    have hover := List.all_eq_true.1 h _ hin
    simp only [Bool.not_eq_true'] at hover
    simp [hover] at hopen
  · obtain ⟨⟨t', chore⟩, -, heq⟩ := List.mem_map.1 hchore
    cases heq
    exact ⟨chore, rfl⟩

/-- A call that makes attempts has the timer of its loop. -/
theorem Trying.workTimer_eq {loop : Retry.Loop α} (h : Trying s₀ s c key ttl loop) :
    s.workTimer c = loop.timer := by
  unfold workTimer
  rw [h.leads]
  rfl

theorem Trying.isDone_eq {loop : Retry.Loop α} (h : Trying s₀ s c key ttl loop) :
    s.isDone = false := by
  refine Bool.eq_false_iff.2 fun hdone => ?_
  have hover := List.all_eq_true.1 hdone _ (Table.mem_of_get? h.call)
  cases hover

theorem Solo.isDone_eq (h : s.Solo c) {call : Call α} (hcall : s.calls.get? c = some call)
    (hover : call.isOpen = false) : s.isDone = true := by
  refine List.all_eq_true.2 fun p hp => ?_
  have hp : s.calls.get? p.1 = some p.2 := Table.get?_of_mem h.keys hp
  by_cases hd : p.1 = c
  · rw [hd, hcall] at hp
    cases hp
    simp [hover]
  · rw [h.ended p.1 p.2 hd hp]
    rfl

theorem Landed.isDone_eq {r : Except Failure α} {instant : Nat} (h : Landed s₀ s c r instant) :
    s.isDone = true := by
  obtain ⟨call, hcall, hstage⟩ := ending?_eq_some.1 h.ended
  exact h.solo.isDone_eq hcall (by simp [Call.isOpen, hstage])

end RegistryLookup.Caller
