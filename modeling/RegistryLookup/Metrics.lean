import RegistryLookup.Breaker.Circuit

/-!
# What is measured

Every part of a lookup notes what it does as a list of samples, newest first. A sample belongs
to a series, named by a metric and its labels. Counters add up, gauges keep their last value,
and a histogram counts what was observed.
-/

namespace RegistryLookup

/-- One thing noted by some part of a lookup. -/
inductive Sample
  /-- A request to a registry ended in an outcome. -/
  | request (registry outcome : String)
  /-- A call is about to wait for another attempt. -/
  | retry (registry reason : String)
  /-- A cache was asked for a key. -/
  | cacheLookup (cache : String) (hit : Bool)
  /-- A cache dropped live entries for want of room. -/
  | cacheEvictions (cache : String) (count : Nat)
  /-- A cache dropped expired entries. -/
  | cacheExpirations (cache : String) (count : Nat)
  /-- The number of entries that a sweep left. -/
  | cacheEntries (cache : String) (count : Nat)
  /-- Where a circuit stands. -/
  | circuit (name : String) (position : Circuit)
  /-- A circuit changed its position. -/
  | circuitTransition (name : String) (source target : Circuit)
  /-- A call was served from another call's flight. -/
  | shared (name : String)
  deriving DecidableEq

namespace Metrics

/-- How the samples of a series make up its value. -/
inductive Kind
  | counter
  | gauge
  deriving DecidableEq

/-- A metric with its labels, in the order of the label names. -/
def series (metric : String) (labels : List (String × String)) : String :=
  metric ++ "\x7b" ++ String.intercalate "," (labels.map (fun l => l.1 ++ "=" ++ l.2)) ++ "\x7d"

/-- What a sample adds to which series. The duration of a request is a histogram, of which the
number of observations is shown. -/
def entries : Sample → List (Kind × String × Nat)
  | .request registry outcome =>
    let labels := [("outcome", outcome), ("registry", registry)]
    [(.counter, series "gateway_upstream_requests_total" labels, 1),
      (.counter, series "gateway_upstream_request_duration_seconds" labels, 1)]
  | .retry registry reason =>
    [(.counter, series "gateway_retries_total" [("reason", reason), ("registry", registry)], 1)]
  | .cacheLookup cache hit =>
    let result := if hit then "hit" else "miss"
    [(.counter, series "gateway_cache_lookups_total" [("cache", cache), ("result", result)], 1)]
  | .cacheEvictions cache count =>
    [(.counter, series "gateway_cache_evictions_total" [("cache", cache)], count)]
  | .cacheExpirations cache count =>
    [(.counter, series "gateway_cache_expirations_total" [("cache", cache)], count)]
  | .cacheEntries cache count =>
    [(.gauge, series "gateway_cache_entries" [("cache", cache)], count)]
  | .circuit name position =>
    [(.gauge, series "gateway_circuit_state" [("circuit", name)], position.level)]
  | .circuitTransition name source target =>
    [(.counter, series "gateway_circuit_transitions_total"
        [("circuit", name), ("from", source.label), ("to", target.label)], 1)]
  | .shared name =>
    [(.counter, series "gateway_dedup_shared_total" [("name", name)], 1)]

/-- Take one addition into the values of all series. -/
def record (values : List (String × Nat)) (e : Kind × String × Nat) : List (String × Nat) :=
  match values with
  | [] => [e.2]
  | v :: rest =>
    if v.1 = e.2.1 then
      (v.1, match e.1 with | .counter => v.2 + e.2.2 | .gauge => e.2.2) :: rest
    else v :: record rest e

/-- The value of every series in a list of samples, newest sample first. -/
def summary (journal : List Sample) : List (String × Nat) :=
  (journal.reverse.flatMap entries).foldl record []

end Metrics

end RegistryLookup
