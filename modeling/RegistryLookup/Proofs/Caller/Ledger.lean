import RegistryLookup.Proofs.Caller.Change

/-!
# What the log says of a state

At every point of a run the log of a caller tells which attempts are under way and which values
are still in its cache. From that, and from what one event can do, the order of its entries
follows: for each key an attempt begins only after the one before it is over, and after a success
only when the value has expired or was evicted.

* `Ledger`: the invariant.
* `Ledger.quiet`, `Ledger.tried`: it is kept by events that add nothing to the log, and by turns
  in which a call makes attempts.
* `ledger`: it holds at every point of a run in which no key is deleted.
-/

namespace RegistryLookup.Caller

variable {α : Type} {x : World α} {es : List (Event α)}

/-- An event adds entries of its own instant to the log. -/
theorem log_step {e : Event α} (h : x.state.Sound) (he : e.isForgetting = false) :
    ∃ tail, log (step x e).state = log x.state ++ tail ∧ ∀ a ∈ tail, a.instant = x.now := by
  cases change h he with
  | rest hlog => exact ⟨[], by rw [hlog, List.append_nil], fun a ha => by cases ha⟩
  | drop _ _ _ _ _ hlog => exact ⟨[], by rw [hlog, List.append_nil], fun a ha => by cases ha⟩
  | tried c answers call fired loop _ ht =>
    refine ⟨_, ht.logged, fun a ha => ?_⟩
    obtain ⟨n, -, rfl⟩ := List.mem_map.1 ha
    rfl

/-- A caller to which no call has come. -/
structure Fresh (s : Caller α) : Prop where
  sound : s.Sound
  calls : s.calls = []
  log : log s = []

theorem make_fresh (name : String) (settings : Config.Settings) (now : Nat) :
    (make name settings now : Caller α).Fresh :=
  ⟨make_sound name settings now, rfl, rfl⟩

/-- The drop of a call comes after entry number `p` of the log and before entry number `q`. -/
def DroppedBetween (x : World α) (es : List (Event α)) (p q c : Nat) : Prop :=
  ∃ i call, es[i]? = some (.abort c) ∧ p < (log (worldAt x es i).state).length ∧
    (log (worldAt x es i).state).length ≤ q ∧
    (worldAt x es (i + 1)).state.calls.get? c = some call ∧ call.stage = .dropped

/-- The eviction of a key comes after entry number `p` of the log and before entry number `q`. -/
def EvictedBetween (x : World α) (es : List (Event α)) (p q : Nat) (key : String) : Prop :=
  ∃ i e, es[i]? = some e ∧ p < (log (worldAt x es i).state).length ∧
    (log (worldAt x es i).state).length ≤ q ∧ Evicts (worldAt x es i) key e

theorem DroppedBetween.mono {p q q' c : Nat} (h : DroppedBetween x es p q c) (hq : q ≤ q') :
    DroppedBetween x es p q' c := by
  obtain ⟨i, call, he, hp, hi, hc⟩ := h
  exact ⟨i, call, he, hp, Nat.le_trans hi hq, hc⟩

theorem EvictedBetween.mono {p q q' : Nat} {key : String} (h : EvictedBetween x es p q key)
    (hq : q ≤ q') : EvictedBetween x es p q' key := by
  obtain ⟨i, e, he, hp, hi, hev⟩ := h
  exact ⟨i, e, he, hp, Nat.le_trans hi hq, hev⟩

/-- A call is for a key. -/
def HasKey (s : Caller α) (c : Nat) (key : String) : Prop :=
  ∃ call, s.calls.get? c = some call ∧ call.key = key

/-- An attempt of a call is under way. -/
def UnderWay (s : Caller α) (c : Nat) (j : UInt32) : Prop :=
  ∃ key load loop, s.flights.LeadsWith key c load ∧ load.stage = .trying loop ∧
    loop.attempt? = some j

/-- Entry number `p` is the success of a call for a key, whose value is kept up to an instant. -/
def Pledge (s : Caller α) (p : Nat) (key : String) (limit : Nat) : Prop :=
  ∃ c t j v call, (log s)[p]? = some ⟨c, t, .ended j (.ok v)⟩ ∧ s.calls.get? c = some call ∧
    call.key = key ∧ limit = t + min call.ttl Cache.longestTtl

/-- What the log says of a state that a run has come to. -/
structure Ledger (x : World α) (es : List (Event α)) (y : World α) : Prop where
  sound : y.state.Sound
  known : ∀ (p : Nat) (a : Retry.Entry α), (log y.state)[p]? = some a →
    a.instant ≤ y.now ∧ ∃ call, y.state.calls.get? a.call = some call
  /-- An attempt has ended, its call was dropped, or it is under way. -/
  underWay : ∀ (p c t : Nat) (j : UInt32), (log y.state)[p]? = some ⟨c, t, .began j⟩ →
    (∃ i r t', p < i ∧ (log y.state)[i]? = some ⟨c, t', .ended j r⟩) ∨
      DroppedBetween x es p (log y.state).length c ∨ UnderWay y.state c j
  /-- A value was evicted, has expired, or is in the cache. -/
  pledged : ∀ p key limit, Pledge y.state p key limit →
    EvictedBetween x es p (log y.state).length key ∨ limit ≤ y.now ∨
      y.state.cache.Holds key limit
  /-- Where a flight is led, all values are gone. -/
  settled : ∀ key d, y.state.flights.Leads key d → ∀ p limit, Pledge y.state p key limit →
    EvictedBetween x es p (log y.state).length key ∨ limit ≤ y.now
  /-- An attempt for a key begins when the one before it is over. -/
  apart : ∀ (p q c d t t' : Nat) (j k : UInt32) (key : String), p < q →
    (log y.state)[p]? = some ⟨c, t, .began j⟩ → (log y.state)[q]? = some ⟨d, t', .began k⟩ →
    HasKey y.state c key → HasKey y.state d key →
    (∃ i r t₁, p < i ∧ i < q ∧ (log y.state)[i]? = some ⟨c, t₁, .ended j r⟩) ∨
      DroppedBetween x es p q c
  /-- An attempt for a key begins when the values before it are gone. -/
  spaced : ∀ (p q d t : Nat) (k : UInt32) (key : String) (limit : Nat),
    Pledge y.state p key limit → p < q →
    (log y.state)[q]? = some ⟨d, t, .began k⟩ → HasKey y.state d key →
    limit ≤ t ∨ EvictedBetween x es p q key

theorem getElem?_entries {c now : Nat} {ns : List (Retry.Notice α)} {i : Nat} {a : Retry.Entry α}
    (h : (entries c now ns)[i]? = some a) : ∃ n, ns[i]? = some n ∧ a = ⟨c, now, n⟩ := by
  unfold entries at h
  rw [List.getElem?_map] at h
  obtain ⟨n, hn, rfl⟩ := Option.map_eq_some_iff.1 h
  exact ⟨n, hn, rfl⟩

/-- What is behind the old entries of a log comes from the notices that were added. -/
theorem getElem?_added {as : List (Retry.Entry α)} {c now p : Nat} {ns : List (Retry.Notice α)}
    {a : Retry.Entry α} (hp : as.length ≤ p) (ha : (as ++ entries c now ns)[p]? = some a) :
    ∃ n, ns[p - as.length]? = some n ∧ a = ⟨c, now, n⟩ := by
  rw [List.getElem?_append_right hp] at ha
  exact getElem?_entries ha

theorem getElem?_added_of (as : List (Retry.Entry α)) (c now : Nat) {ns : List (Retry.Notice α)}
    {i : Nat} {n : Retry.Notice α} (hi : ns[i]? = some n) :
    (as ++ entries c now ns)[as.length + i]? = some ⟨c, now, n⟩ := by
  rw [List.getElem?_append_right (Nat.le_add_right _ _), Nat.add_sub_cancel_left]
  unfold entries
  rw [List.getElem?_map, hi]
  rfl

theorem lt_of_getElem?_log {s : Caller α} {p : Nat} {a : Retry.Entry α}
    (h : (log s)[p]? = some a) : p < (log s).length :=
  (List.getElem?_eq_some_iff.1 h).1

/-- Whoever is known had its key before. -/
theorem HasKey.before {y : World α} (h : Ledger x es y) {e : Event α} {p : Nat}
    {a : Retry.Entry α} (ha : (log y.state)[p]? = some a) {key : String}
    (hk : HasKey (step y e).state a.call key) : HasKey y.state a.call key := by
  -- the call of an entry is known already, and calls keep their keys
  obtain ⟨-, call, hc⟩ := h.known p a ha
  obtain ⟨call', hc', hkey⟩ := hk
  obtain ⟨stage, hs⟩ := calls_step y e hc
  rw [hs] at hc'; cases hc'
  exact ⟨call, hc, hkey⟩

theorem Pledge.before {y : World α} (h : Ledger x es y) {e : Event α} {p : Nat} {key : String}
    {limit : Nat} (hp : Pledge (step y e).state p key limit)
    (hlog : (log (step y e).state)[p]? = (log y.state)[p]?) : Pledge y.state p key limit := by
  obtain ⟨c, t, j, v, call', ha, hc', hkey, hlimit⟩ := hp
  rw [hlog] at ha
  obtain ⟨-, call, hc⟩ := h.known p _ ha
  obtain ⟨stage, hs⟩ := calls_step y e hc
  rw [hs] at hc'; cases hc'
  exact ⟨c, t, j, v, call, ha, hc, hkey, hlimit⟩

/-- The ledger after an event that adds nothing to the log. -/
theorem Ledger.quiet {n : Nat} (h : Ledger x es (worldAt x es n)) {e : Event α}
    (hlog : log (step (worldAt x es n) e).state = log (worldAt x es n).state)
    (hleads : ∀ key d load, (step (worldAt x es n) e).state.flights.LeadsWith key d load →
      (worldAt x es n).state.flights.LeadsWith key d load)
    (hgone : ∀ c j, UnderWay (worldAt x es n).state c j →
      UnderWay (step (worldAt x es n) e).state c j ∨
        ∀ p, p < (log (worldAt x es n).state).length →
          DroppedBetween x es p (log (worldAt x es n).state).length c)
    (hcache : ∀ key limit, (worldAt x es n).state.cache.Holds key limit →
      (step (worldAt x es n) e).state.cache.Holds key limit ∨ limit ≤ (worldAt x es n).now ∨
        ∀ p, p < (log (worldAt x es n).state).length →
          EvictedBetween x es p (log (worldAt x es n).state).length key) :
    Ledger x es (step (worldAt x es n) e) := by
  have hnow := now_step (worldAt x es n) e
  -- the log is the same, so nothing is pledged anew
  have hpledge : ∀ {p key limit}, Pledge (step (worldAt x es n) e).state p key limit →
      Pledge (worldAt x es n).state p key limit := fun hp => hp.before h (by rw [hlog])
  refine ⟨step_sound h.sound e, ?_, ?_, ?_, ?_, ?_, ?_⟩
  · intro p a ha
    rw [hlog] at ha
    obtain ⟨ht, call, hc⟩ := h.known p a ha
    obtain ⟨stage, hs⟩ := calls_step (worldAt x es n) e hc
    exact ⟨Nat.le_trans ht hnow, _, hs⟩
  · intro p c t j ha
    rw [hlog] at ha ⊢
    rcases h.underWay p c t j ha with hend | hdrop | hunder
    · exact Or.inl hend
    · exact Or.inr (Or.inl hdrop)
    -- an attempt goes on, or it is cut short by this event
    · rcases hgone c j hunder with hstill | hdrop
      · exact Or.inr (Or.inr hstill)
      · exact Or.inr (Or.inl (hdrop p (lt_of_getElem?_log ha)))
  · intro p key limit hp
    have hp := hpledge hp
    rw [hlog]
    rcases h.pledged p key limit hp with hev | hpast | hold
    · exact Or.inl hev
    · exact Or.inr (Or.inl (Nat.le_trans hpast hnow))
    · rcases hcache key limit hold with hstill | hpast | hev
      · exact Or.inr (Or.inr hstill)
      · exact Or.inr (Or.inl (Nat.le_trans hpast hnow))
      · obtain ⟨c, t, j, v, call, ha, -⟩ := hp
        exact Or.inl (hev p (lt_of_getElem?_log ha))
  · intro key d hL p limit hp
    obtain ⟨fired, load, hL⟩ := hL
    rw [hlog]
    exact (h.settled key d (hleads key d load ⟨fired, hL⟩).leads p limit (hpledge hp)).imp
      (fun hev => hev) (fun hpast => Nat.le_trans hpast hnow)
  · intro p q c d t t' j k key hpq ha hb hc hd
    rw [hlog] at ha hb ⊢
    exact h.apart p q c d t t' j k key hpq ha hb (hc.before h ha) (hd.before h hb)
  · intro p q d t k key limit hp hpq hb hd
    rw [hlog] at hb
    exact h.spaced p q d t k key limit (hpledge hp) hpq hb (hd.before h hb)

section Tried

variable {y : World α} {e : Event α} {c : Nat} {call : Call α} {loop : Retry.Loop α}
  {t : Retry.Turn α}

/-- The entries that were there before the turn are there still. -/
theorem Tried.getElem?_old (h : Tried y e c call loop t) {p : Nat}
    (hp : p < (log y.state).length) : (log (step y e).state)[p]? = (log y.state)[p]? := by
  rw [h.logged, List.getElem?_append_left hp]

theorem Tried.getElem?_of_old (h : Tried y e c call loop t) {p : Nat} {a : Retry.Entry α}
    (ha : (log y.state)[p]? = some a) : (log (step y e).state)[p]? = some a :=
  (h.getElem?_old (lt_of_getElem?_log ha)).trans ha

/-- The other entries are the notices of the turn. -/
theorem Tried.getElem?_new (h : Tried y e c call loop t) {p : Nat} {a : Retry.Entry α}
    (hp : (log y.state).length ≤ p) (ha : (log (step y e).state)[p]? = some a) :
    ∃ notice, t.notices[p - (log y.state).length]? = some notice ∧ a = ⟨c, y.now, notice⟩ := by
  rw [h.logged] at ha
  exact getElem?_added hp ha

theorem Tried.getElem?_notice (h : Tried y e c call loop t) {i : Nat} {notice : Retry.Notice α}
    (hi : t.notices[i]? = some notice) :
    (log (step y e).state)[(log y.state).length + i]? = some ⟨c, y.now, notice⟩ := by
  rw [h.logged]
  exact getElem?_added_of _ _ _ hi

theorem Tried.length_log (h : Tried y e c call loop t) :
    (log (step y e).state).length = (log y.state).length + t.notices.length := by
  rw [h.logged, List.length_append]
  unfold entries
  rw [List.length_map]

theorem Tried.eq_key (h : Tried y e c call loop t) {key : String}
    (hk : HasKey (step y e).state c key) : key = call.key := by
  obtain ⟨call', hc', hkey⟩ := hk
  obtain ⟨stage, hs⟩ := calls_step y e h.known
  rw [hs] at hc'; cases hc'
  exact hkey.symm

/-- Nobody else leads a flight for the key. -/
theorem Tried.eq_leader (h : Tried y e c call loop t) (hy : y.state.Sound) {d : Nat}
    (hd : y.state.flights.Leads call.key d) : d = c := by
  rcases h.origin with ⟨load, hL, -⟩ | ⟨hfree, -⟩
  · exact hy.flights.leads_inj hd hL.leads
  · exact absurd hd (hfree d)

/-- The attempt under way for the key, if there is one, is that of the loop. -/
theorem Tried.own (h : Tried y e c call loop t) (hy : y.state.Sound) {d : Nat} {j : UInt32}
    (hu : UnderWay y.state d j) (hk : HasKey y.state d call.key) :
    d = c ∧ loop.attempt? = some j := by
  obtain ⟨key, load', loop', hL', hstage', hj⟩ := hu
  -- the key of a leader is that of its call
  have hkey : key = call.key := by
    obtain ⟨dcall, hd, hdk⟩ := hk
    obtain ⟨fired, hfc⟩ := hL'
    rw [← hdk]
    exact (hy.carries hd hfc).sameKey
  subst hkey
  have hdc := h.eq_leader hy hL'.leads
  subst hdc
  refine ⟨rfl, ?_⟩
  rcases h.origin with ⟨load, hL, hstage⟩ | ⟨hfree, -⟩
  · obtain ⟨f, hL⟩ := hL
    obtain ⟨f', hL'⟩ := hL'
    rw [hL] at hL'; cases hL'
    rw [hstage] at hstage'; cases hstage'
    exact hj
  · exact absurd hL'.leads (hfree d)

/-- A leader has found its key gone from the cache. -/
theorem Tried.gone (h : Tried y e c call loop t) (hl : Ledger x es y) {p limit : Nat}
    (hp : Pledge y.state p call.key limit) :
    EvictedBetween x es p (log y.state).length call.key ∨ limit ≤ y.now := by
  rcases h.origin with ⟨load, hL, -⟩ | ⟨-, -, hmiss⟩
  · exact hl.settled call.key c hL.leads p limit hp
  · rcases hl.pledged p call.key limit hp with hev | hpast | hheld
    · exact Or.inl hev
    · exact Or.inr hpast
    · exact Or.inr (Cache.get_miss hheld hmiss)

/-- A success in the turn comes last. -/
theorem Tried.success (h : Tried y e c call loop t) {p : Nat} {key : String} {limit : Nat}
    (hp : (log y.state).length ≤ p) (hpl : Pledge (step y e).state p key limit) :
    p + 1 = (log (step y e).state).length ∧ key = call.key ∧
      limit = y.now + min call.ttl Cache.longestTtl ∧ ∃ v, t.rest = .inr (.ok v) := by
  obtain ⟨d, s, j, v, dcall, ha, hd, hkey, hlimit⟩ := hpl
  obtain ⟨notice, hi, heq⟩ := h.getElem?_new hp ha
  cases heq
  obtain ⟨hlast, hrest⟩ := h.walk.after_ok hi
  obtain ⟨stage, hs⟩ := calls_step y e h.known
  rw [hs] at hd; cases hd
  have hlen := h.length_log
  exact ⟨by omega, hkey.symm, hlimit, v, hrest⟩

theorem Tried.keeps_known (h : Tried y e c call loop t) (hl : Ledger x es y) {p : Nat}
    {a : Retry.Entry α} (ha : (log (step y e).state)[p]? = some a) :
    a.instant ≤ (step y e).now ∧ ∃ call, (step y e).state.calls.get? a.call = some call := by
  have hnow := now_step y e
  rcases Nat.lt_or_ge p (log y.state).length with hp | hp
  · rw [h.getElem?_old hp] at ha
    obtain ⟨ht, acall, hac⟩ := hl.known p a ha
    obtain ⟨stage, hs⟩ := calls_step y e hac
    exact ⟨Nat.le_trans ht hnow, _, hs⟩
  · obtain ⟨notice, -, rfl⟩ := h.getElem?_new hp ha
    obtain ⟨stage, hs⟩ := calls_step y e h.known
    exact ⟨hnow, _, hs⟩

/-- The loop is in an attempt after the turn. -/
theorem Tried.underWay_of_rest (h : Tried y e c call loop t) {l : Retry.Loop α} {j : UInt32}
    (hrest : t.rest = .inl l) (hj : l.attempt? = some j) : UnderWay (step y e).state c j :=
  ⟨call.key, _, l, (h.leads _ _).2 ⟨rfl, l, hrest, rfl⟩, rfl, hj⟩

theorem Tried.keeps_underWay (h : Tried y e c call loop t) (hl : Ledger x es y) {p d s : Nat}
    {j : UInt32} (ha : (log (step y e).state)[p]? = some ⟨d, s, .began j⟩) :
    (∃ i r s', p < i ∧ (log (step y e).state)[i]? = some ⟨d, s', .ended j r⟩) ∨
      DroppedBetween x es p (log (step y e).state).length d ∨ UnderWay (step y e).state d j := by
  have hlen := h.length_log
  rcases Nat.lt_or_ge p (log y.state).length with hp | hp
  · rw [h.getElem?_old hp] at ha
    rcases hl.underWay p d s j ha with ⟨i, r, s', hpi, hi⟩ | hdrop | hunder
    · exact Or.inl ⟨i, r, s', hpi, h.getElem?_of_old hi⟩
    · exact Or.inr (Or.inl (hdrop.mono (by omega)))
    · by_cases hdc : d = c
      · subst hdc
        obtain ⟨-, hattempt⟩ := h.own hl.sound hunder ⟨call, h.known, rfl⟩
        rcases h.walk.of_some hattempt with ⟨-, l, hrest, hj⟩ | ⟨r, hr⟩
        · exact Or.inr (Or.inr (h.underWay_of_rest hrest hj))
        · exact Or.inl ⟨_, r, y.now, by omega, h.getElem?_notice hr⟩
      · obtain ⟨key, load, l, hL, hstage, hj⟩ := hunder
        exact Or.inr (Or.inr ⟨key, load, l, (h.others key d load hdc).2 hL, hstage, hj⟩)
  · -- the attempt has begun in this turn
    obtain ⟨notice, hi, heq⟩ := h.getElem?_new hp ha
    cases heq
    rcases h.walk.after_began hi with ⟨-, l, hrest, hj⟩ | ⟨r, hr⟩
    · exact Or.inr (Or.inr (h.underWay_of_rest hrest hj))
    · exact Or.inl ⟨_, r, y.now, by omega, h.getElem?_notice hr⟩

theorem Tried.keeps_pledged (h : Tried y e c call loop t) (hl : Ledger x es y) {p : Nat}
    {key : String} {limit : Nat} (hp : Pledge (step y e).state p key limit) :
    EvictedBetween x es p (log (step y e).state).length key ∨ limit ≤ (step y e).now ∨
      (step y e).state.cache.Holds key limit := by
  have hnow := now_step y e
  have hlen : (log y.state).length ≤ (log (step y e).state).length := by rw [h.length_log]; omega
  rcases Nat.lt_or_ge p (log y.state).length with hpl | hpl
  · have hp := hp.before hl (h.getElem?_old hpl)
    by_cases hover : key = call.key ∧ ∃ v, t.rest = .inr (.ok v)
    · -- the value is overwritten, but then it was gone
      obtain ⟨rfl, -⟩ := hover
      rcases h.gone hl hp with hev | hpast
      · exact Or.inl (hev.mono hlen)
      · exact Or.inr (Or.inl (Nat.le_trans hpast hnow))
    · rcases hl.pledged p key limit hp with hev | hpast | hheld
      · exact Or.inl (hev.mono hlen)
      · exact Or.inr (Or.inl (Nat.le_trans hpast hnow))
      · have hother : key ≠ call.key ∨ ∀ v, t.rest ≠ .inr (.ok v) := by
          by_cases hk : key = call.key
          · exact Or.inr (fun v hv => hover ⟨hk, v, hv⟩)
          · exact Or.inl hk
        rcases h.holds key limit hheld hother with hstill | hpast
        · exact Or.inr (Or.inr hstill)
        · exact Or.inr (Or.inl (Nat.le_trans hpast hnow))
  · obtain ⟨-, rfl, rfl, v, hrest⟩ := h.success hpl hp
    exact Or.inr (Or.inr (h.stores v hrest))

theorem Tried.keeps_settled (h : Tried y e c call loop t) (hl : Ledger x es y) {key : String}
    {d : Nat} (hd : (step y e).state.flights.Leads key d) {p limit : Nat}
    (hp : Pledge (step y e).state p key limit) :
    EvictedBetween x es p (log (step y e).state).length key ∨ limit ≤ (step y e).now := by
  have hnow := now_step y e
  have hlen : (log y.state).length ≤ (log (step y e).state).length := by rw [h.length_log]; omega
  have hlater : EvictedBetween x es p (log y.state).length key ∨ limit ≤ y.now →
      EvictedBetween x es p (log (step y e).state).length key ∨ limit ≤ (step y e).now := by
    rintro (hev | hpast)
    · exact Or.inl (hev.mono hlen)
    · exact Or.inr (Nat.le_trans hpast hnow)
  obtain ⟨f, load, hL⟩ := hd
  have hL : (step y e).state.flights.LeadsWith key d load := ⟨f, hL⟩
  rcases Nat.lt_or_ge p (log y.state).length with hpl | hpl
  · have hp := hp.before hl (h.getElem?_old hpl)
    by_cases hdc : d = c
    · subst hdc
      obtain ⟨rfl, -⟩ := (h.leads key load).1 hL
      exact hlater (h.gone hl hp)
    · exact hlater (hl.settled key d ((h.others key d load hdc).1 hL).leads p limit hp)
  · -- the call that has just stored a value leads no flight any more, and nobody else does
    obtain ⟨-, rfl, -, v, hrest⟩ := h.success hpl hp
    by_cases hdc : d = c
    · subst hdc
      obtain ⟨-, loop', hrest', -⟩ := (h.leads call.key load).1 hL
      rw [hrest] at hrest'; cases hrest'
    · exact absurd (h.eq_leader hl.sound ((h.others call.key d load hdc).1 hL).leads) hdc

/-- The attempt of the call before the one that begins in the turn ends in the turn. -/
theorem Tried.ended_before (h : Tried y e c call loop t) {p q i s : Nat} {j k : UInt32}
    {r : Except Failure α} (hq : (log (step y e).state)[q]? = some ⟨c, s, .began k⟩)
    (hi : t.notices[i]? = some (.ended j r)) (hpi : p < (log y.state).length + i)
    (hiq : (log y.state).length + i ≤ q) :
    ∃ i r s', p < i ∧ i < q ∧ (log (step y e).state)[i]? = some ⟨c, s', .ended j r⟩ := by
  have hend := h.getElem?_notice hi
  have hne : (log y.state).length + i ≠ q := fun heq => by
    rw [heq, hq] at hend; cases hend
  exact ⟨_, r, y.now, hpi, by omega, hend⟩

theorem Tried.keeps_apart (h : Tried y e c call loop t) (hl : Ledger x es y)
    {p q a d s s' : Nat} {j k : UInt32} {key : String} (hpq : p < q)
    (hpa : (log (step y e).state)[p]? = some ⟨a, s, .began j⟩)
    (hqb : (log (step y e).state)[q]? = some ⟨d, s', .began k⟩)
    (hka : HasKey (step y e).state a key) (hkd : HasKey (step y e).state d key) :
    (∃ i r s₁, p < i ∧ i < q ∧ (log (step y e).state)[i]? = some ⟨a, s₁, .ended j r⟩) ∨
      DroppedBetween x es p q a := by
  rcases Nat.lt_or_ge q (log y.state).length with hql | hql
  · -- both attempts have begun before
    have hpl : p < (log y.state).length := Nat.lt_trans hpq hql
    rw [h.getElem?_old hpl] at hpa
    rw [h.getElem?_old hql] at hqb
    rcases hl.apart p q a d s s' j k key hpq hpa hqb (hka.before hl hpa) (hkd.before hl hqb) with
      ⟨i, r, s₁, hpi, hiq, hi⟩ | hdrop
    · exact Or.inl ⟨i, r, s₁, hpi, hiq, h.getElem?_of_old hi⟩
    · exact Or.inr hdrop
  obtain ⟨notice, hiq, heq⟩ := h.getElem?_new hql hqb
  cases heq
  have hkey := h.eq_key hkd
  subst hkey
  rcases Nat.lt_or_ge p (log y.state).length with hpl | hpl
  · -- the first has begun before, and is over or ends in this turn
    rw [h.getElem?_old hpl] at hpa
    rcases hl.underWay p a s j hpa with ⟨i, r, s₁, hpi, hi⟩ | hdrop | hunder
    · have hil := lt_of_getElem?_log hi
      exact Or.inl ⟨i, r, s₁, hpi, by omega, h.getElem?_of_old hi⟩
    · exact Or.inr (hdrop.mono hql)
    · obtain ⟨rfl, hattempt⟩ := h.own hl.sound hunder (hka.before hl hpa)
      rcases h.walk.of_some hattempt with ⟨hnil, -⟩ | ⟨r, hr⟩
      · rw [hnil] at hiq; cases hiq
      · exact Or.inl (h.ended_before hqb hr (by omega) (by omega))
  · -- both begin in this turn
    obtain ⟨notice, hip, heq⟩ := h.getElem?_new hpl hpa
    cases heq
    have hlast := (List.getElem?_eq_some_iff.1 hiq).1
    rcases h.walk.after_began hip with ⟨hlen, -⟩ | ⟨r, hr⟩
    · omega
    · exact Or.inl (h.ended_before hqb hr (by omega) (by omega))

theorem Tried.keeps_spaced (h : Tried y e c call loop t) (hl : Ledger x es y) {p q d s : Nat}
    {k : UInt32} {key : String} {limit : Nat} (hp : Pledge (step y e).state p key limit)
    (hpq : p < q) (hq : (log (step y e).state)[q]? = some ⟨d, s, .began k⟩)
    (hd : HasKey (step y e).state d key) : limit ≤ s ∨ EvictedBetween x es p q key := by
  rcases Nat.lt_or_ge q (log y.state).length with hql | hql
  · have hpl : p < (log y.state).length := Nat.lt_trans hpq hql
    rw [h.getElem?_old hql] at hq
    exact hl.spaced p q d s k key limit (hp.before hl (h.getElem?_old hpl)) hpq hq
      (hd.before hl hq)
  · obtain ⟨notice, -, heq⟩ := h.getElem?_new hql hq
    cases heq
    have hkey := h.eq_key hd
    subst hkey
    rcases Nat.lt_or_ge p (log y.state).length with hpl | hpl
    · rcases h.gone hl (hp.before hl (h.getElem?_old hpl)) with hev | hpast
      · exact Or.inr (hev.mono hql)
      · exact Or.inl hpast
    · -- nothing follows a success in its turn
      obtain ⟨hlast, -⟩ := h.success hpl hp
      have hqn := lt_of_getElem?_log hq
      omega

end Tried

/-- The ledger after a turn in which a call makes attempts. -/
theorem Ledger.tried {y : World α} (hl : Ledger x es y) {e : Event α} {c : Nat} {call : Call α}
    {loop : Retry.Loop α} {t : Retry.Turn α} (h : Tried y e c call loop t) :
    Ledger x es (step y e) where
  sound := step_sound hl.sound e
  known := fun _ _ ha => h.keeps_known hl ha
  underWay := fun _ _ _ _ ha => h.keeps_underWay hl ha
  pledged := fun _ _ _ hp => h.keeps_pledged hl hp
  settled := fun _ _ hd _ _ hp => h.keeps_settled hl hd hp
  apart := fun _ _ _ _ _ _ _ _ _ hpq ha hb hc hd => h.keeps_apart hl hpq ha hb hc hd
  spaced := fun _ _ _ _ _ _ _ hp hpq hb hd => h.keeps_spaced hl hp hpq hb hd

/-- Every event of a run keeps the ledger. -/
theorem ledger_step {n : Nat} (h : Ledger x es (worldAt x es n)) {e : Event α}
    (he : es[n]? = some e) (hf : e.isForgetting = false) : Ledger x es (worldAt x es (n + 1)) := by
  rw [worldAt_succ x he]
  cases change h.sound hf with
  | rest hlog hleads hcache =>
    refine h.quiet hlog (fun key d load hL => (hleads key d load).1 hL) (fun c j hu => ?_)
      (fun key limit hold => ?_)
    · obtain ⟨key, load, loop, hL, hstage, hj⟩ := hu
      exact Or.inl ⟨key, load, loop, (hleads key c load).2 hL, hstage, hj⟩
    · rcases hcache key limit hold with hstill | hpast | hev
      · exact Or.inl hstill
      · exact Or.inr (Or.inl hpast)
      · exact Or.inr (Or.inr (fun p hp => ⟨n, e, he, hp, Nat.le_refl _, hev⟩))
  | drop c call hec hc hc' hlog hleads hcache =>
    refine h.quiet hlog (fun key d load hL => ((hleads key d load).1 hL).2) (fun d j hu => ?_)
      (fun key limit hold => Or.inl (by rw [hcache]; exact hold))
    by_cases hdc : d = c
    · subst hdc
      subst hec
      refine Or.inr (fun p hp =>
        ⟨n, { call with stage := .dropped }, he, hp, Nat.le_refl _, ?_, rfl⟩)
      rw [worldAt_succ x he]
      exact hc'
    · obtain ⟨key, load, loop, hL, hstage, hj⟩ := hu
      exact Or.inl ⟨key, load, loop, (hleads key d load).2 ⟨hdc, hL⟩, hstage, hj⟩
  | tried c answers call fired loop _ ht => exact h.tried ht

/-- **The ledger holds at every point of a run.** -/
theorem ledger (hx : x.state.Fresh) (hes : ∀ e ∈ es, e.isForgetting = false) (n : Nat) :
    Ledger x es (worldAt x es n) := by
  induction n with
  | zero =>
    rw [worldAt_zero]
    have hnone : ∀ {b : Prop} {p : Nat} {a : Retry.Entry α}, (log x.state)[p]? = some a → b := by
      intro b p a ha
      rw [hx.log] at ha; cases ha
    refine ⟨hx.sound, ?_, ?_, ?_, ?_, ?_, ?_⟩
    · exact fun p a ha => hnone ha
    · exact fun p c t j ha => hnone ha
    · rintro p key limit ⟨c, t, j, v, call, ha, -⟩; exact hnone ha
    · rintro key d - p limit ⟨c, t, j, v, call, ha, -⟩; exact hnone ha
    · exact fun p q c d t t' j k key _ ha => hnone ha
    · rintro p q d t k key limit ⟨c, t, j, v, call, ha, -⟩; exact hnone ha
  | succ n ih =>
    rcases worldAt_cases x es n with ⟨-, h⟩ | ⟨e, he, -⟩
    · rw [h]; exact ih
    · exact ledger_step ih he (hes e (List.mem_of_getElem? he))

end RegistryLookup.Caller
