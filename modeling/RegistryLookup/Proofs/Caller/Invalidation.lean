import RegistryLookup.Proofs.Caller.Reports

/-!
# What an invalidation reaches

To forget a key takes its value out of the cache. It does not reach a flight that is under way:
what such a flight brings is kept and shared afterwards. So a call that comes in after its key has
been forgotten may return a value whose attempt began before, but then the flight of that attempt
was under way at that moment, and the attempt ended after it (`value_after_forgetting`).
-/

namespace RegistryLookup.Caller

open Flight

variable {α : Type} {x : World α} {es : List (Event α)}

theorem Sound.leads {s : Caller α} (h : s.Sound) {l : Nat} {load : Load α} {key : String}
    (hp : phase? s l = some (.leading load)) (hk : HasKey s l key) : s.flights.Leads key l := by
  obtain ⟨⟨fkey, fired, phase⟩, hf, hphase⟩ := Option.map_eq_some_iff.1 hp
  obtain ⟨call, hc, rfl⟩ := hk
  have hkey : fkey = call.key := (h.carries hc hf).sameKey
  exact ⟨fired, load, by rw [hf, ← hkey]; exact congrArg some (congrArg _ hphase)⟩

/-- A call that is known later had its key before, if it was known then. -/
theorem HasKey.of_later {m n c : Nat} {key : String} (h : HasKey (worldAt x es n).state c key)
    (hmn : m ≤ n) {call : Call α} (hc : (worldAt x es m).state.calls.get? c = some call) :
    HasKey (worldAt x es m).state c key := by
  obtain ⟨stage, hs⟩ := known_mono hmn hc
  obtain ⟨call', hc', rfl⟩ := h
  rw [hs] at hc'; cases hc'
  exact ⟨call, hc, rfl⟩

/-- An attempt that ends after a point of the run began after it, or its flight was under way. -/
theorem Attempt.began_after_or_leads (hx : x.state.Sound) {n l k p q s m : Nat} {j : UInt32}
    {o : Retry.Outcome α} (h : Attempt x es n l k p q j o s) {key : String}
    (hk : HasKey (worldAt x es n).state l key) (hmn : m ≤ n) (hq : mark x es m ≤ q) :
    mark x es m ≤ p ∨ (worldAt x es m).state.flights.Leads key l := by
  rcases Nat.lt_or_ge p (mark x es m) with hp | hp
  · obtain ⟨load, hlead⟩ := h.leads m hp hq
    have hm : (worldAt x es m).state.Sound := worldAt_sound hx m
    obtain ⟨call, hc⟩ := hm.known hlead
    exact Or.inr (hm.leads hlead (hk.of_later hmn hc))
  · exact Or.inl hp

/-- **A value that is returned after its key was forgotten** comes from an attempt for the key that
ended after that. The attempt began after it, too, unless its flight was under way. -/
theorem value_after_forgetting (name : String) (settings : Config.Settings) (now : Nat)
    (es : List (Event α)) {i n c t : Nat} {e : Event α} {key : String} {v : α}
    (he : es[i]? = some e) (hforget : Forgets key e)
    (hnew : (worldAt (dawn name settings now) es i).state.calls.get? c = none)
    (hkey : HasKey (worldAt (dawn name settings now) es n).state c key)
    (hv : (worldAt (dawn name settings now) es n).state.ending? c = some (.ok v, t)) :
    ∃ l k p q j o s, Attempt (dawn name settings now) es n l k p q j o s ∧
      HasKey (worldAt (dawn name settings now) es n).state l key ∧ o.result = .ok v ∧
      mark (dawn name settings now) es i ≤ q ∧
      (mark (dawn name settings now) es i ≤ p ∨
        (worldAt (dawn name settings now) es i).state.flights.Leads key l) := by
  have hx : (dawn name settings now : World α).state.Untouched := make_untouched name settings now
  have hin : i ≤ n := by
    refine Nat.le_of_not_lt fun hni => ?_
    obtain ⟨call, hc, -⟩ := hkey
    obtain ⟨stage, hs⟩ := known_mono (Nat.le_of_lt hni) hc
    rw [hnew] at hs; cases hs
  obtain ⟨role, hsource⟩ := value_source hx hv hkey
  cases hsource with
  | fetched l k p q s j o attempt result hlkey _ _ since =>
    have hq := since i hnew
    exact ⟨l, k, p, q, j, o, s, attempt, hlkey, result, hq,
      attempt.began_after_or_leads hx.sound hlkey hin hq⟩
  | cached k w limit l k' p q s result hk event _ _ after _ stored =>
    -- the call looked into the cache after the key was forgotten
    have hik : i < k := by
      obtain ⟨answers, hturn⟩ := event
      have hne : i ≠ k := by
        rintro rfl
        rw [he] at hturn; cases hturn; cases hforget
      refine Nat.lt_of_not_le fun hki => ?_
      obtain ⟨call, hc⟩ := (worldAt_sound hx.sound (k + 1)).known after
      obtain ⟨stage, hs⟩ := known_mono (show k + 1 ≤ i by omega) hc
      rw [hnew] at hs; cases hs
    obtain ⟨j, o, attempt, hw⟩ := stored.attempt
    obtain ⟨lcall, hlc, hlk, -⟩ := stored.known
    have hlkey : HasKey (worldAt (dawn name settings now) es n).state l key :=
      HasKey.mono ⟨lcall, hlc, hlk⟩ (Nat.le_of_lt hk)
    have hq := stored.kept i e hik he hforget
    have hat := attempt.mono hx.sound (Nat.le_of_lt hk)
    exact ⟨l, k', p, q, j, o, s, hat, hlkey, hw.trans result.symm, hq,
      hat.began_after_or_leads hx.sound hlkey hin hq⟩

/-- A key is forgotten while its flight is under way, and a second call comes in when the flight
has landed. -/
def overtaken : List (Event Nat) :=
  [.call 0 "k" 60 false, .turn 0 (fun _ => { takes := some 5, result := .ok 7 }), .delete "k",
    .pass 5, .turn 0 silence, .call 1 "k" 60 false, .turn 1 (fun _ => { result := .ok 8 })]

/-- The second call returns what the first one has fetched. -/
theorem overtaken_value :
    overtaken[2]? = some (.delete "k") ∧
    (worldAt (dawn "r" {} 0) overtaken 2).state.calls.get? 1 = none ∧
    (worldAt (dawn "r" {} 0) overtaken 7).state.ending? 1 = some (.ok 7, 5) ∧
    ∃ l k p q j o s, Attempt (dawn "r" {} 0) overtaken 7 l k p q j o s ∧
      HasKey (worldAt (dawn "r" {} 0) overtaken 7).state l "k" ∧ o.result = .ok 7 ∧
      mark (dawn "r" {} 0) overtaken 2 ≤ q ∧ (mark (dawn "r" {} 0) overtaken 2 ≤ p ∨
        (worldAt (dawn "r" {} 0) overtaken 2).state.flights.Leads "k" l) :=
  ⟨rfl, rfl, rfl, value_after_forgetting (i := 2) (n := 7) (c := 1) (t := 5) (v := 7) "r" {} 0
    overtaken rfl .delete rfl ⟨_, rfl, rfl⟩ rfl⟩

/-- **To forget a key is not to forget what is fetched for it**: the value need not come from an
attempt that began after its key was forgotten. -/
theorem forgetting_overtaken : ¬ ∀ (es : List (Event Nat)) (i n c t v : Nat) (e : Event Nat)
    (key : String), es[i]? = some e → Forgets key e →
    (worldAt (dawn "r" {} 0) es i).state.calls.get? c = none →
    HasKey (worldAt (dawn "r" {} 0) es n).state c key →
    (worldAt (dawn "r" {} 0) es n).state.ending? c = some (.ok v, t) →
    ∃ l k p q j o s, Attempt (dawn "r" {} 0) es n l k p q j o s ∧
      HasKey (worldAt (dawn "r" {} 0) es n).state l key ∧ o.result = .ok v ∧
      mark (dawn "r" {} 0) es i ≤ p := by
  intro h
  obtain ⟨l, k, p, q, j, o, s, attempt, -, -, hp⟩ :=
    h overtaken 2 7 1 5 7 (.delete "k") "k" rfl .delete rfl ⟨_, rfl, rfl⟩ rfl
  -- the log has two entries, and the attempt begins with the first
  have hmark : mark (dawn "r" {} 0) overtaken 2 = 1 := by decide
  have hlength : mark (dawn "r" {} 0) overtaken 7 = 2 := by decide
  have hlt := lt_mark attempt.begins.entry
  have hone : p = 1 := by omega
  have hentry := attempt.begins.entry
  subst hone
  have hlast : ((log (worldAt (dawn "r" {} 0) overtaken 7).state)[1]?).map
      (fun a => a.notice.isBegan) = some false := by decide
  rw [hentry] at hlast
  cases hlast

end RegistryLookup.Caller
