import Mathlib.Algebra.GroupWithZero.Nat
import RegistryLookup.Retry.Policy

/-!
# How long a loop rests after a failure

The backoff is formed with words of 64 bits, but it is what the same product comes to with natural
numbers (`delay_eq`), at the limits of its arguments too. So a delay grows with the number of the
retry, with the base, with the cap and with what a registry asks for (`delayFor_mono`,
`delayFor_mono_asked`), and is never longer than its cap (`delayFor_le`).

* `toNat_saturatingMul`: a product that stops at the largest word.
* `delayMillis_eq`: of the two products the first one always fits, and where the second one does
  not, the cap is smaller.
-/

namespace RegistryLookup

namespace UInt64

/-- A product that stops at the largest word. -/
theorem toNat_saturatingMul (a b : UInt64) :
    (saturatingMul a b).toNat = min (a.toNat * b.toNat) (UInt64.size - 1) := by
  unfold saturatingMul
  split
  · rename_i hfits
    rw [UInt64.toNat_mul, Nat.mod_eq_of_lt hfits]
    omega
  · rename_i hlarge
    have hlast : (UInt64.ofNat (UInt64.size - 1)).toNat = UInt64.size - 1 := rfl
    omega

theorem toNat_min (a b : UInt64) : (min a b).toNat = min a.toNat b.toNat := by
  have hmin : min a b = if a ≤ b then a else b := rfl
  rw [hmin]
  split
  · rename_i hle
    rw [UInt64.le_iff_toNat_le] at hle
    omega
  · rename_i hnot
    rw [UInt64.le_iff_toNat_le] at hnot
    omega

end UInt64

namespace Backoff

/-- The square of a retry number fits into a word. -/
theorem toNat_square (n : UInt32) :
    (UInt64.saturatingMul n.toUInt64 n.toUInt64).toNat = n.toNat ^ 2 := by
  have hword : n.toUInt64.toNat = n.toNat := UInt32.toNat_toUInt64 n
  have hlt : n.toNat < 2 ^ 32 := n.toNat_lt
  have hfits : n.toNat * n.toNat < 2 ^ 32 * 2 ^ 32 := Nat.mul_self_lt_mul_self hlt
  have hsize : UInt64.size = 2 ^ 32 * 2 ^ 32 := rfl
  rw [UInt64.toNat_saturatingMul, hword, Nat.pow_two]
  omega

theorem delayMillis_eq (n : UInt32) (base cap : UInt64) :
    (delayMillis n base cap).toNat = min (n.toNat ^ 2 * base.toNat) cap.toNat := by
  have hcap : cap.toNat < UInt64.size := cap.toNat_lt_size
  unfold delayMillis
  split
  · rename_i hzero
    subst hzero
    simp
  · -- a product that does not fit is larger than every cap
    rw [UInt64.toNat_min, UInt64.toNat_saturatingMul, toNat_square, Nat.mul_comm]
    omega

/-- **The backoff is the exact product, capped.** -/
theorem delay_eq (n : UInt32) (base cap : UInt64) :
    delay n base cap = Duration.ofMillis (min (n.toNat ^ 2 * base.toNat) cap.toNat) := by
  rw [delay, delayMillis_eq]

theorem ofMillis_mono {m n : Nat} (h : m ≤ n) : Duration.ofMillis m ≤ Duration.ofMillis n :=
  Nat.mul_le_mul_right _ h

/-- **The backoff grows with its arguments.** -/
theorem delay_mono {n n' : UInt32} {base base' cap cap' : UInt64} (hn : n ≤ n')
    (hbase : base ≤ base') (hcap : cap ≤ cap') : delay n base cap ≤ delay n' base' cap' := by
  rw [UInt32.le_iff_toNat_le] at hn
  rw [UInt64.le_iff_toNat_le] at hbase hcap
  have hsquare : n.toNat ^ 2 ≤ n'.toNat ^ 2 := Nat.pow_le_pow_left hn 2
  have hproduct : n.toNat ^ 2 * base.toNat ≤ n'.toNat ^ 2 * base'.toNat :=
    Nat.mul_le_mul hsquare hbase
  rw [delay_eq, delay_eq]
  exact ofMillis_mono (by omega)

theorem delay_le (n : UInt32) (base cap : UInt64) :
    delay n base cap ≤ Duration.ofMillis cap.toNat := by
  rw [delay_eq]
  exact ofMillis_mono (Nat.min_le_right _ _)

end Backoff

/-- The wait that a registry asked for. -/
def Failure.asked : Failure → Option Nat
  | .rateLimited after => after
  | _ => none

namespace Retry

/-- A policy that is as patient as another one, or less. -/
structure Policy.AtMost (p q : Policy) : Prop where
  baseDelayMs : p.baseDelayMs ≤ q.baseDelayMs
  maxDelayMs : p.maxDelayMs ≤ q.maxDelayMs
  maxRetryAfter : p.maxRetryAfter ≤ q.maxRetryAfter

namespace Policy

/-- The longest rest after a failure. -/
def cap (p : Policy) (e : Failure) : Nat :=
  match e.asked with
  | some _ => p.maxRetryAfter
  | none => Duration.ofMillis p.maxDelayMs.toNat

/-- The longest rest. -/
def largerCap (p : Policy) : Nat := max (Duration.ofMillis p.maxDelayMs.toNat) p.maxRetryAfter

theorem cap_le_largerCap (p : Policy) (e : Failure) : p.cap e ≤ p.largerCap := by
  unfold cap
  split
  · exact Nat.le_max_right _ _
  · exact Nat.le_max_left _ _

/-- A loop rests as long as the registry asked for, up to the cap, or as the backoff says. -/
theorem delayFor_eq (p : Policy) (n : UInt32) (e : Failure) :
    p.delayFor n e = match e.asked with
      | some after => min after p.maxRetryAfter
      | none => Backoff.delay n p.baseDelayMs p.maxDelayMs := by
  cases e with
  | rateLimited after => cases after <;> rfl
  | _ => rfl

/-- **No rest is longer than its cap.** -/
theorem delayFor_le (p : Policy) (n : UInt32) (e : Failure) : p.delayFor n e ≤ p.cap e := by
  rw [delayFor_eq, cap]
  cases e.asked with
  | some after => exact Nat.min_le_right _ _
  | none => exact Backoff.delay_le _ _ _

/-- **A rest is the longer, the later the retry and the larger the limits.** -/
theorem delayFor_mono {p q : Policy} (hpq : p.AtMost q) {n n' : UInt32} (hn : n ≤ n')
    (e : Failure) : p.delayFor n e ≤ q.delayFor n' e := by
  have hmax : p.maxRetryAfter ≤ q.maxRetryAfter := hpq.maxRetryAfter
  rw [delayFor_eq, delayFor_eq]
  cases e.asked with
  | some after => simp only; omega
  | none => exact Backoff.delay_mono hn hpq.baseDelayMs hpq.maxDelayMs

/-- **A rest is the longer, the longer the wait that the registry asked for.** -/
theorem delayFor_mono_asked (p : Policy) (n : UInt32) {e e' : Failure} {after after' : Nat}
    (he : e.asked = some after) (he' : e'.asked = some after') (hle : after ≤ after') :
    p.delayFor n e ≤ p.delayFor n e' := by
  rw [delayFor_eq, delayFor_eq, he, he']
  simp only
  omega

end Policy

end Retry

end RegistryLookup
