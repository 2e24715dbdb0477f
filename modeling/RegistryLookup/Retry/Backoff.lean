import RegistryLookup.Duration

/-!
# Quadratic backoff

The delay before retry number `n` is `n² × base`, capped. Base and cap are 64-bit numbers of
milliseconds, so the product is formed by multiplications that stop at the largest word.
-/

namespace RegistryLookup

/-- The product of two words, or the largest word if the product does not fit. -/
def UInt64.saturatingMul (a b : UInt64) : UInt64 :=
  if a.toNat * b.toNat < UInt64.size then a * b else UInt64.ofNat (UInt64.size - 1)

namespace Backoff

/-- The delay before a retry, in milliseconds: none before attempt zero. -/
def delayMillis (attempt : UInt32) (base cap : UInt64) : UInt64 :=
  if attempt = 0 then 0
  else
    let n := attempt.toUInt64
    min (UInt64.saturatingMul base (UInt64.saturatingMul n n)) cap

/-- The delay before a retry. -/
def delay (attempt : UInt32) (base cap : UInt64) : Nat :=
  Duration.ofMillis (delayMillis attempt base cap).toNat

end Backoff

end RegistryLookup
