import RegistryLookup.Config.Schema
import RegistryLookup.Duration
import RegistryLookup.Metrics
import RegistryLookup.Table

/-!
# A cache with expiry and a soft bound on its size

An entry lives until its time is over or it is evicted for want of room. Storing a new key
beyond the capacity marks a sweep as pending; the sweep evicts the entries that were not used
for the longest time, a tenth of the capacity more than necessary. A cleanup drops what has
expired and then evicts what is still too much.
-/

namespace RegistryLookup

/-- A stored value. -/
structure Cache.Entry (α : Type) where
  value : α
  /-- The first instant at which the entry no longer lives. -/
  expiresAt : Nat
  /-- When the entry was last used, on the cache's own count of nanoseconds. -/
  accessedAt : Nat

/-- Counts since the cache was made. -/
structure Cache.Stats where
  entries : Nat
  hits : Nat
  misses : Nat
  evictions : Nat
  expirations : Nat
  deriving DecidableEq

/-- A cache of values under texts. -/
structure Cache (α : Type) where
  name : String
  /-- How many entries are kept. -/
  capacity : Nat
  /-- When the cache was made. -/
  epoch : Nat := 0
  entries : Table String (Cache.Entry α) := []
  /-- The count of entries, kept beside them. -/
  count : Int := 0
  /-- Whether a sweep has been asked for and has not run. -/
  sweepPending : Bool := false
  /-- Whether the background cleanup has been stopped. -/
  closed : Bool := false
  hits : Nat := 0
  misses : Nat := 0
  evictions : Nat := 0
  expirations : Nat := 0
  /-- What was noted, newest first. -/
  journal : List Sample := []

namespace Cache

variable {α : Type}

/-- The capacity that zero stands for. -/
def defaultCapacity : Nat := 10000

/-- The longest time for which an entry lives. -/
def longestTtl : Nat := Duration.ofSecs (UInt32.size - 1)

/-- An empty cache. -/
def make (name : String) (capacity : Nat) (now : Nat) : Cache α where
  name := name
  capacity := if capacity = 0 then defaultCapacity else capacity
  epoch := now

/-- The capacity and the time between two cleanups of a configuration. -/
def settingsOf (s : Config.CacheSettings) : Nat × Nat :=
  (s.maxEntries.toNat, Duration.ofSecs (max 1 s.cleanupIntervalSecs.toNat))

/-- How many entries there are. -/
def size (c : Cache α) : Nat := c.count.toNat

def stats (c : Cache α) : Stats where
  entries := c.size
  hits := c.hits
  misses := c.misses
  evictions := c.evictions
  expirations := c.expirations

/-- An instant on the cache's own count of nanoseconds, a 64-bit word. -/
def stamp (c : Cache α) (now : Nat) : Nat := (now - c.epoch) % UInt64.size

/-- Whether an entry still lives. -/
def Entry.livesAt (e : Entry α) (now : Nat) : Bool := now < e.expiresAt

/-- Whether a count is beyond the capacity. The capacity is compared as a signed 64-bit
number, so that every count is beyond one of `2^63` or more. -/
def isOver (c : Cache α) (count : Int) : Bool := Int.bmod c.capacity UInt64.size < count

/-- How many entries there are beyond the capacity. -/
def overage (c : Cache α) : Nat := c.size - c.capacity

/-- Note a number of entries lost, if there are any. -/
def noteLost (sample : Nat → Sample) (n : Nat) (journal : List Sample) : List Sample :=
  if n = 0 then journal else sample n :: journal

/-- Look up a key. A living entry counts as used now; an expired one is taken out. -/
def get (c : Cache α) (now : Nat) (key : String) : Option α × Cache α :=
  match c.entries.get? key with
  | some e =>
    if e.livesAt now then
      (some e.value,
        { c with
          entries := c.entries.put key { e with accessedAt := max e.accessedAt (c.stamp now) }
          hits := c.hits + 1
          journal := .cacheLookup c.name true :: c.journal })
    else
      (none,
        { c with
          entries := c.entries.erase key
          count := c.count - 1
          expirations := c.expirations + 1
          misses := c.misses + 1
          journal := .cacheLookup c.name false :: .cacheExpirations c.name 1 :: c.journal })
  | none =>
    (none, { c with misses := c.misses + 1, journal := .cacheLookup c.name false :: c.journal })

/-- Store a value for a time. A new key beyond the capacity asks for a sweep. -/
def set (c : Cache α) (now : Nat) (key : String) (value : α) (ttl : Nat) : Cache α :=
  let entry : Entry α :=
    { value := value, expiresAt := now + min ttl longestTtl, accessedAt := c.stamp now }
  let stored := { c with entries := c.entries.put key entry }
  if c.entries.has key then stored
  else
    { stored with
      count := c.count + 1
      sweepPending := c.sweepPending || c.isOver (c.count + 1) }

/-- Take a key out; says whether it was there. -/
def delete (c : Cache α) (key : String) : Bool × Cache α :=
  if c.entries.has key then
    (true, { c with entries := c.entries.erase key, count := c.count - 1 })
  else (false, c)

/-- Whether a text starts with another. -/
def startsWith (start key : String) : Bool := start.toList.isPrefixOf key.toList

/-- Take out all keys that start with a text; says how many there were. -/
def deleteStartingWith (c : Cache α) (start : String) : Nat × Cache α :=
  let kept := c.entries.filter (fun p => !startsWith start p.1)
  let removed := c.entries.length - kept.length
  (removed, { c with entries := kept, count := c.count - removed })

/-- The keys in the order of their last use, oldest first. -/
def keysByUse (c : Cache α) : List String :=
  (c.entries.mergeSort (fun p q => p.2.accessedAt ≤ q.2.accessedAt)).map (·.1)

/-- Evict the `n` entries that were not used for the longest time; says how many went. -/
def evictOldest (c : Cache α) (n : Nat) : Nat × Cache α :=
  let victims := c.keysByUse.take n
  let kept := c.entries.filter (fun p => !victims.contains p.1)
  let removed := c.entries.length - kept.length
  (removed,
    { c with
      entries := kept
      count := c.count - removed
      evictions := c.evictions + removed
      journal := noteLost (.cacheEvictions c.name) removed c.journal })

/-- Note how many entries there are. -/
def noteSize (c : Cache α) : Cache α :=
  { c with journal := .cacheEntries c.name c.size :: c.journal }

/-- The sweep that was asked for: evicts what is too much, and a tenth of the capacity. -/
def sweep (c : Cache α) : Cache α :=
  let c := { c with sweepPending := false }
  let c := if c.overage = 0 then c else (c.evictOldest (c.overage + c.capacity / 10)).2
  c.noteSize

/-- Drop all entries that no longer live; says how many there were. -/
def dropExpired (c : Cache α) (now : Nat) : Nat × Cache α :=
  let kept := c.entries.filter (fun p => p.2.livesAt now)
  let removed := c.entries.length - kept.length
  (removed,
    { c with
      entries := kept
      count := c.count - removed
      expirations := c.expirations + removed
      journal := noteLost (.cacheExpirations c.name) removed c.journal })

/-- Drop what has expired, then evict what is too much; says how many entries went. -/
def cleanup (c : Cache α) (now : Nat) : Nat × Cache α :=
  let (expired, c) := c.dropExpired now
  let (evicted, c) := c.evictOldest c.overage
  (expired + evicted, c.noteSize)

/-- Stop the background cleanup. -/
def close (c : Cache α) : Cache α := { c with closed := true }

/-- Store a value where nobody runs a pending sweep: one that is asked for runs at once. -/
def setAndSweep (c : Cache α) (now : Nat) (key : String) (value : α) (ttl : Nat) : Cache α :=
  let stored := c.set now key value ttl
  if stored.sweepPending && !c.sweepPending then stored.sweep else stored

end Cache

end RegistryLookup
