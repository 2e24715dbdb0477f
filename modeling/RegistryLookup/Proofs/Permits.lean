import RegistryLookup.Permits
import Mathlib.Data.List.Basic

/-!
# Who waits for a permit

A call that waits for a permit is in the queue, or it was given one that it has not noticed, and
never both. Nobody is in the queue while a permit is free, and nobody after the permits were
closed (`Fair`).

* `Fair.request`, `Fair.claim`, `Fair.release`, `Fair.leave`, `Fair.close`: every operation keeps
  that.
* `mem_request`, `Fair.mem_claim`, `waiters_release`, `Fair.mem_leave`: who waits afterwards.
-/

namespace RegistryLookup.Permits

variable {p : Permits} {c d : Nat}

/-- The calls that wait: those in the queue, and those with a permit that they have not noticed. -/
def waiters (p : Permits) : List Nat := p.queue ++ p.granted

/-- Permits are handed out in order, and none is kept back. -/
structure Fair (p : Permits) : Prop where
  once : p.waiters.Nodup
  busy : p.queue ≠ [] → p.free = 0
  shut : p.closed = true → p.queue = []

theorem mem_waiters : c ∈ p.waiters ↔ c ∈ p.queue ∨ c ∈ p.granted := List.mem_append

theorem make_fair (limit : Nat) : (make limit).Fair :=
  ⟨List.nodup_nil, fun h => absurd rfl h, fun _ => rfl⟩

/-- Who asks gets a permit if one is free, and waits at the end of the queue otherwise. -/
theorem request_cases (p : Permits) (c : Nat) :
    (0 < p.free ∧ p.request c = (true, { p with free := p.free - 1 })) ∨
      (p.free = 0 ∧ p.request c = (false, { p with queue := p.queue ++ [c] })) := by
  unfold request
  rcases Nat.eq_zero_or_pos p.free with h | h
  · exact Or.inr ⟨h, if_neg (by omega)⟩
  · exact Or.inl ⟨h, if_pos h⟩

/-- Who asks waits from then on if no permit is free. -/
theorem mem_request : d ∈ (p.request c).2.waiters ↔
    d ∈ p.waiters ∨ (d = c ∧ (p.request c).1 = false) := by
  rcases request_cases p c with ⟨-, h⟩ | ⟨-, h⟩
  · rw [h]; simp [waiters]
  · rw [h]; simp [waiters, or_comm, or_left_comm]

theorem Fair.request (h : p.Fair) (hc : c ∉ p.waiters) (hopen : p.closed = false) :
    (p.request c).2.Fair := by
  rcases request_cases p c with ⟨hfree, hp⟩ | ⟨hfree, hp⟩
  · rw [hp]
    exact ⟨h.once, fun hq => absurd (h.busy hq) (by omega), h.shut⟩
  · rw [hp]
    refine ⟨?_, fun _ => hfree, fun hcl => by rw [hopen] at hcl; cases hcl⟩
    -- the newcomer stands between the old queue and those with a permit
    have hperm : (p.queue ++ [c] ++ p.granted).Perm (c :: p.waiters) := by
      rw [List.append_assoc]
      exact List.perm_middle
    exact hperm.nodup_iff.2 (List.nodup_cons.2 ⟨hc, h.once⟩)

/-- A permit that is given back goes to the first call in the queue. -/
theorem release_cases (p : Permits) :
    (p.queue = [] ∧ p.release = { p with free := p.free + 1 }) ∨
      ∃ c rest, p.queue = c :: rest ∧
        p.release = { p with queue := rest, granted := p.granted ++ [c] } := by
  unfold release
  cases hq : p.queue with
  | nil => exact Or.inl ⟨rfl, rfl⟩
  | cons c rest => exact Or.inr ⟨c, rest, rfl, rfl⟩

/-- A permit that is given back makes nobody wait and nobody leave: who is given it has yet to
notice. -/
theorem waiters_release (p : Permits) : p.release.waiters.Perm p.waiters := by
  rcases release_cases p with ⟨-, h⟩ | ⟨c, rest, hq, h⟩
  · rw [h]
    exact List.Perm.refl _
  · rw [h]
    unfold waiters
    rw [hq, ← List.append_assoc]
    exact List.perm_append_singleton c _

theorem Fair.release (h : p.Fair) : p.release.Fair := by
  have honce := (waiters_release p).nodup_iff.2 h.once
  rcases release_cases p with ⟨hq, hp⟩ | ⟨c, rest, hq, hp⟩
  · rw [hp] at honce ⊢
    exact ⟨honce, fun hne => absurd hq hne, fun _ => hq⟩
  · have hbusy : p.free = 0 := h.busy (by rw [hq]; exact List.cons_ne_nil _ _)
    rw [hp] at honce ⊢
    refine ⟨honce, fun _ => hbusy, fun hcl => ?_⟩
    have hnil := h.shut hcl
    rw [hq] at hnil; cases hnil

/-- Who takes the permit it was given waits no longer. -/
theorem Fair.mem_claim (h : p.Fair) (hc : c ∈ p.granted) :
    d ∈ (p.claim c).waiters ↔ d ≠ c ∧ d ∈ p.waiters := by
  obtain ⟨-, hgranted, hapart⟩ := List.nodup_append.1 h.once
  rw [mem_waiters, mem_waiters]
  show d ∈ p.queue ∨ d ∈ p.granted.erase c ↔ _
  rw [hgranted.mem_erase_iff]
  -- nobody with a permit is in the queue
  have hqueue : d ∈ p.queue → d ≠ c := fun hd => hapart d hd c hc
  tauto

theorem Fair.claim (h : p.Fair) (c : Nat) : (p.claim c).Fair :=
  ⟨h.once.sublist ((List.Sublist.refl _).append List.erase_sublist), h.busy, h.shut⟩

/-- Who leaves with a permit gives it back, and the next in the queue gets it. -/
theorem Fair.leave (h : p.Fair) (c : Nat) : (p.leave c).Fair := by
  unfold Permits.leave
  split
  · exact (h.claim c).release
  · refine ⟨h.once.sublist (List.erase_sublist.append (List.Sublist.refl _)), ?_, ?_⟩
    · intro hne
      exact h.busy fun hq => hne (by rw [hq]; rfl)
    · intro hcl
      have hq : p.queue = [] := h.shut hcl
      rw [hq]; rfl

/-- Who leaves waits no longer, with a permit or without. -/
theorem Fair.mem_leave (h : p.Fair) : d ∈ (p.leave c).waiters ↔ d ≠ c ∧ d ∈ p.waiters := by
  unfold Permits.leave
  split
  · rename_i hc
    rw [(waiters_release _).mem_iff, h.mem_claim hc]
  · rename_i hc
    obtain ⟨hqueue, -, -⟩ := List.nodup_append.1 h.once
    rw [mem_waiters, mem_waiters]
    show d ∈ p.queue.erase c ∨ d ∈ p.granted ↔ _
    rw [hqueue.mem_erase_iff]
    have hgranted : d ∈ p.granted → d ≠ c := fun hd hdc => hc (hdc ▸ hd)
    tauto

theorem Fair.close (h : p.Fair) : p.close.Fair :=
  ⟨(List.nodup_append.1 h.once).2.1, fun hne => absurd rfl hne, fun _ => rfl⟩

@[simp] theorem limit_request (p : Permits) (c : Nat) : (p.request c).2.limit = p.limit := by
  rcases request_cases p c with ⟨-, h⟩ | ⟨-, h⟩ <;> rw [h]

@[simp] theorem limit_release (p : Permits) : p.release.limit = p.limit := by
  unfold release
  split <;> rfl

@[simp] theorem limit_claim (p : Permits) (c : Nat) : (p.claim c).limit = p.limit := rfl

@[simp] theorem limit_leave (p : Permits) (c : Nat) : (p.leave c).limit = p.limit := by
  unfold leave
  split
  · rw [limit_release, limit_claim]
  · rfl

end RegistryLookup.Permits
