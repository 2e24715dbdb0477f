import RegistryLookup.Http.Network

/-!
# The reply that a request ends with

A request that is led from one place to another ends with the reply that leads nowhere else. It is a
reply to the request, or to one that at most ten others led to from there
(`travel_eq_arrived_iff`).

* `Visits`: the requests on the way.
* `Replies`: the last one of them, and the reply to it.
* `travel_of_visits`: what is left of a journey is the journey from where it has come to.
* `fetch_takes`: every request comes to something in time.
* `fetch_value`: a value comes from the reply that a request ends with.
-/

namespace RegistryLookup.Http.Network

/-- The requests that a request is led to, with how many others led to each and how much time had
passed: the first is the request itself, and to each other one the reply to the one before leads. -/
inductive Visits (network : Network) (patience number : Nat) (request : Request) :
    Nat → Nat → Request → Prop
  | start : Visits network patience number request 0 0 request
  | onward {hop spent after : Nat} {last : Request} {reply : Reply} {trails : Option Nat}
      {url : Url} (visits : Visits network patience number request hop spent last)
      (carries : network.carries last.url = true)
      (answered : network.exchange number hop last = .answered after reply trails)
      (inTime : spent + after < patience) (leads : network.onward? last.url reply = some url) :
      Visits network patience number request (hop + 1) (spent + after) { last with url := url }

/-- A request ends with a reply after a time. It is the reply to a request to which it is led by so
many others, at most ten. -/
inductive Replies (network : Network) (patience number : Nat) (request : Request) (hop : Nat)
    (last : Request) (after : Nat) (reply : Reply) : Prop
  | intro {spent head : Nat} {sent : Reply} {trails : Option Nat}
      (visits : network.Visits patience number request hop spent last) (hops : hop ≤ mostHops)
      (carries : network.carries last.url = true)
      (answered : network.exchange number hop last = .answered head sent trails)
      (inTime : spent + head < patience) (final : network.onward? last.url sent = none)
      (settles : sent.settled patience (spent + head) trails = (after, reply))

variable {network : Network} {patience number hop spent : Nat} {request last : Request}

/-- A reply in time leads on, or is what the request ends with. -/
theorem leg_of_answered {after : Nat} {reply : Reply} {trails : Option Nat}
    (hcarries : network.carries request.url = true)
    (h : network.exchange number hop request = .answered after reply trails)
    (htime : spent + after < patience) :
    network.leg patience number hop spent request =
      match network.onward? request.url reply with
      | some url => .onward (spent + after) url
      | none => .ended (.arrived (reply.settled patience (spent + after) trails).1
          (reply.settled patience (spent + after) trails).2) := by
  have hin : ¬ patience ≤ spent + after := Nat.not_le.2 htime
  cases honward : network.onward? request.url reply with
  | none => simp only [leg, hcarries, h, honward, hin, Bool.not_true, Bool.false_eq_true, if_false]
  | some url =>
    simp only [leg, hcarries, h, honward, hin, Bool.not_true, Bool.false_eq_true, if_false]

/-- A request that leads on, or that ends with a reply, has got one in time. -/
theorem answered_of_leg
    (h : ∀ t detail, network.leg patience number hop spent request ≠ .ended (.lost t detail)) :
    network.carries request.url = true ∧ ∃ after reply trails,
      network.exchange number hop request = .answered after reply trails ∧
        spent + after < patience := by
  unfold leg at h
  split at h
  · exact absurd rfl (h _ _)
  · rename_i hcarries
    refine ⟨by simpa using hcarries, ?_⟩
    split at h
    · split at h <;> exact absurd rfl (h _ _)
    · rename_i after reply trails hanswered
      split at h
      · exact absurd rfl (h _ _)
      · rename_i htime
        exact ⟨after, reply, trails, hanswered, Nat.lt_of_not_le htime⟩

theorem leg_eq_onward_iff {t : Nat} {url : Url} :
    network.leg patience number hop spent request = .onward t url ↔
      network.carries request.url = true ∧ ∃ after reply trails,
        network.exchange number hop request = .answered after reply trails ∧
          spent + after < patience ∧ network.onward? request.url reply = some url ∧
            spent + after = t := by
  constructor
  · intro h
    obtain ⟨hcarries, after, reply, trails, hanswered, htime⟩ :=
      answered_of_leg (fun _ _ hlost => by rw [h] at hlost; cases hlost)
    rw [leg_of_answered hcarries hanswered htime] at h
    split at h
    · cases h
      exact ⟨hcarries, after, reply, trails, hanswered, htime, ‹_›, rfl⟩
    · cases h
  · rintro ⟨hcarries, after, reply, trails, hanswered, htime, hleads, rfl⟩
    rw [leg_of_answered hcarries hanswered htime, hleads]

theorem leg_eq_arrived_iff {t : Nat} {reply : Reply} :
    network.leg patience number hop spent request = .ended (.arrived t reply) ↔
      network.carries request.url = true ∧ ∃ head sent trails,
        network.exchange number hop request = .answered head sent trails ∧
          spent + head < patience ∧ network.onward? request.url sent = none ∧
            sent.settled patience (spent + head) trails = (t, reply) := by
  constructor
  · intro h
    obtain ⟨hcarries, head, sent, trails, hanswered, htime⟩ :=
      answered_of_leg (fun _ _ hlost => by rw [h] at hlost; cases hlost)
    rw [leg_of_answered hcarries hanswered htime] at h
    split at h
    · cases h
    · cases h
      exact ⟨hcarries, head, sent, trails, hanswered, htime, ‹_›, rfl⟩
  · rintro ⟨hcarries, head, sent, trails, hanswered, htime, hfinal, hsettles⟩
    rw [leg_of_answered hcarries hanswered htime, hfinal, hsettles]

/-- A journey is over when there is a reply that leads nowhere, or none at all. -/
theorem travel_of_ended {journey : Journey}
    (h : network.leg patience number hop spent request = .ended journey) (left : Nat) :
    network.travel patience number left hop spent request = journey := by
  cases left <;> rw [travel, h]

/-- A journey goes on to where a reply leads. -/
theorem travel_of_onward {t : Nat} {url : Url}
    (h : network.leg patience number hop spent request = .onward t url) (left : Nat) :
    network.travel patience number (left + 1) hop spent request =
      network.travel patience number left (hop + 1) t { request with url := url } := by
  rw [travel, h]

/-- **What is left of a journey is the journey from where it has come to.** -/
theorem travel_of_visits (h : network.Visits patience number request hop spent last)
    (hhop : hop ≤ mostHops) :
    network.travel patience number mostHops 0 0 request =
      network.travel patience number (mostHops - hop) hop spent last := by
  induction h with
  | start => rfl
  | @onward hop spent after last reply trails url _ hcarries hanswered htime hleads ih =>
    have hleg : network.leg patience number hop spent last = .onward (spent + after) url :=
      leg_eq_onward_iff.2 ⟨hcarries, after, reply, trails, hanswered, htime, hleads, rfl⟩
    have hleft : mostHops - hop = mostHops - (hop + 1) + 1 := by omega
    rw [ih (Nat.le_of_succ_le hhop), hleft, travel_of_onward hleg]

theorem Visits.replies {after : Nat} {reply : Reply}
    (h : network.Visits patience number request hop spent last) (hhop : hop ≤ mostHops)
    (hleg : network.leg patience number hop spent last = .ended (.arrived after reply)) :
    network.Replies patience number request hop last after reply := by
  obtain ⟨hcarries, head, sent, trails, hanswered, htime, hfinal, hsettles⟩ :=
    leg_eq_arrived_iff.1 hleg
  exact .intro h hhop hcarries hanswered htime hfinal hsettles

theorem replies_of_travel {left after : Nat} {reply : Reply}
    (hvisits : network.Visits patience number request hop spent last)
    (hleft : hop + left = mostHops)
    (h : network.travel patience number left hop spent last = .arrived after reply) :
    ∃ hop last, network.Replies patience number request hop last after reply := by
  induction left generalizing hop spent last with
  | zero =>
    cases hleg : network.leg patience number hop spent last with
    | ended journey =>
      rw [travel_of_ended hleg] at h
      rw [h] at hleg
      exact ⟨hop, last, hvisits.replies (by omega) hleg⟩
    | onward t url =>
      rw [travel, hleg] at h
      cases h
  | succ left ih =>
    cases hleg : network.leg patience number hop spent last with
    | ended journey =>
      rw [travel_of_ended hleg] at h
      rw [h] at hleg
      exact ⟨hop, last, hvisits.replies (by omega) hleg⟩
    | onward t url =>
      rw [travel_of_onward hleg] at h
      obtain ⟨hcarries, after, reply, trails, hanswered, htime, hleads, rfl⟩ :=
        leg_eq_onward_iff.1 hleg
      exact ih (hvisits.onward hcarries hanswered htime hleads) (by omega) h

/-- **Which reply a request ends with.** -/
theorem travel_eq_arrived_iff {after : Nat} {reply : Reply} :
    network.travel patience number mostHops 0 0 request = .arrived after reply ↔
      ∃ hop last, network.Replies patience number request hop last after reply := by
  refine ⟨replies_of_travel .start (Nat.zero_add _), ?_⟩
  rintro ⟨hop, last, hvisits, hhop, hcarries, hanswered, htime, hfinal, hsettles⟩
  have hleg := leg_eq_arrived_iff.2 ⟨hcarries, _, _, _, hanswered, htime, hfinal, hsettles⟩
  rw [travel_of_visits hvisits hhop, travel_of_ended hleg]

/-- How long a journey takes. -/
def Journey.takes : Journey → Nat
  | lost after _ => after
  | arrived after _ => after

theorem settled_le {reply : Reply} {head : Nat} {trails : Option Nat} (h : head ≤ patience) :
    (reply.settled patience head trails).1 ≤ patience := by
  unfold Reply.settled
  split
  · exact h
  · split
    · rename_i finish hfinish
      exact Nat.le_of_lt (of_decide_eq_true (Option.filter_eq_some_iff.1 hfinish).2)
    · exact Nat.le_refl _

theorem ended_le {journey : Journey} (hspent : spent ≤ patience)
    (h : network.leg patience number hop spent request = .ended journey) :
    journey.takes ≤ patience := by
  unfold leg at h
  split at h
  · cases h
    exact hspent
  · split at h
    · split at h
      · cases h
        exact Nat.le_refl _
      · cases h
        exact Nat.le_of_not_le ‹_›
    · split at h
      · cases h
        exact Nat.le_refl _
      · split at h
        · cases h
        · cases h
          exact settled_le (Nat.le_of_not_le ‹_›)

theorem onward_le {t : Nat} {url : Url}
    (h : network.leg patience number hop spent request = .onward t url) : t ≤ patience := by
  obtain ⟨-, after, -, -, -, htime, -, rfl⟩ := leg_eq_onward_iff.1 h
  exact Nat.le_of_lt htime

theorem travel_le {left : Nat} (hspent : spent ≤ patience) :
    (network.travel patience number left hop spent last).takes ≤ patience := by
  induction left generalizing hop spent last with
  | zero =>
    cases hleg : network.leg patience number hop spent last with
    | ended journey =>
      rw [travel_of_ended hleg]
      exact ended_le hspent hleg
    | onward t url =>
      rw [travel, hleg]
      exact onward_le hleg
  | succ left ih =>
    cases hleg : network.leg patience number hop spent last with
    | ended journey =>
      rw [travel_of_ended hleg]
      exact ended_le hspent hleg
    | onward t url =>
      rw [travel_of_onward hleg]
      exact ih (onward_le hleg)

theorem Visits.carried (h : network.Visits patience number request hop spent last)
    (hlast : network.carries last.url = true) : network.carries request.url = true := by
  induction h with
  | start => exact hlast
  | onward _ hcarries _ _ _ ih => exact ih hcarries

/-- A request that ends with a reply has reached a host. -/
theorem Replies.carried {after : Nat} {reply : Reply}
    (h : network.Replies patience number request hop last after reply) :
    network.carries request.url = true := by
  obtain ⟨hvisits, -, hcarries⟩ := h
  exact hvisits.carried hcarries

/-- What a request comes to that ends with a reply. -/
theorem Replies.fetch {after : Nat} {reply : Reply}
    (h : network.Replies patience number request hop last after reply) (subject : String) :
    network.fetch patience request subject number =
      { takes := some after, result := reply.read network.decode subject } := by
  rw [Network.fetch, travel_eq_arrived_iff.2 ⟨hop, last, h⟩]

/-- A request ends with a reply, or fails for want of one. -/
theorem fetch_cases (network : Network) (patience : Nat) (request : Request) (subject : String)
    (number : Nat) :
    (∃ hop last after reply, network.Replies patience number request hop last after reply) ∨
      ∃ after detail, network.fetch patience request subject number =
        { takes := some after, result := .error (.transport detail) } := by
  cases h : network.travel patience number mostHops 0 0 request with
  | lost after detail =>
    refine Or.inr ⟨after, detail, ?_⟩
    rw [fetch, h]
  | arrived after reply =>
    obtain ⟨hop, last, hreplies⟩ := travel_eq_arrived_iff.1 h
    exact Or.inl ⟨hop, last, after, reply, hreplies⟩

/-- A value comes from the reply that a request ends with. -/
theorem fetch_value {subject : String} {v : Json}
    (h : (network.fetch patience request subject number).result = .ok v) :
    ∃ hop last after reply, network.Replies patience number request hop last after reply ∧
      reply.isSuccess = true ∧ reply.value? = some v ∧
      (network.fetch patience request subject number).takes = some after := by
  rcases network.fetch_cases patience request subject number with
    ⟨hop, last, after, reply, hreplies⟩ | ⟨after, detail, hlost⟩
  · rw [hreplies.fetch] at h ⊢
    exact ⟨hop, last, after, reply, hreplies, (Reply.read_ok h).1, (Reply.read_ok h).2, rfl⟩
  · rw [hlost] at h
    cases h

/-- Every request comes to something, in the time for which it is waited at most. -/
theorem fetch_takes (network : Network) (patience : Nat) (request : Request) (subject : String)
    (number : Nat) :
    ∃ d, (network.fetch patience request subject number).takes = some d ∧ d ≤ patience := by
  have hle : (network.travel patience number mostHops 0 0 request).takes ≤ patience :=
    travel_le (Nat.zero_le _)
  refine ⟨_, ?_, hle⟩
  unfold fetch
  cases network.travel patience number mostHops 0 0 request <;> rfl

/-- A request that reaches no host fails whatever its number is. -/
theorem fetch_of_not_carries (h : network.carries request.url = false) (patience : Nat)
    (subject : String) (m n : Nat) :
    network.fetch patience request subject m = network.fetch patience request subject n := by
  have hleg : ∀ number, network.leg patience number 0 0 request =
      .ended (.lost 0 "the registry cannot be reached") := by
    intro number
    unfold leg
    simp only [h, Bool.not_false, if_true]
  rw [fetch, fetch, travel_of_ended (hleg m), travel_of_ended (hleg n)]

end RegistryLookup.Http.Network
