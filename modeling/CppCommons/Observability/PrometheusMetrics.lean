import Mathlib
import CppCommons.Cxx.StandardLibrary

/-!
# Prometheus metrics

`PrometheusMetrics` keeps counters, gauges and histograms by name.  A reset puts
zero in every counter and gauge but forgets the histograms.  Doubles are exact
rationals, except in gauges, which only store and return their bits.  After any
sequence of calls a histogram holds the tally of what was observed since the last
reset, in fields of 64 bits.
-/

namespace CppCommons
namespace Observability

open Cxx

/-!
## Histograms

An observation is counted in every bucket whose bound it does not exceed, and added
to the sum and the count.
-/

structure Bucket where
  upperBound : Rat
  count : UInt64 := 0
deriving DecidableEq

def defaultBounds : List Rat := [1, 5, 10, 25, 50, 100, 250, 500, 1000, 5000]

structure Histogram where
  sum : Rat := 0
  count : UInt64 := 0
  buckets : List Bucket := defaultBounds.map fun bound => { upperBound := bound }
deriving DecidableEq

def Bucket.observe (value : Rat) (bucket : Bucket) : Bucket :=
  if value <= bucket.upperBound then { bucket with count := bucket.count + 1 } else bucket

def Histogram.observe (h : Histogram) (value : Rat) : Histogram where
  sum := h.sum + value
  count := h.count + 1
  buckets := h.buckets.map (Bucket.observe value)

def Histogram.bucketLines (h : Histogram) : List (WithTop Rat × UInt64) :=
  h.buckets.map (fun b => ((b.upperBound : WithTop Rat), b.count)) ++ [(⊤, h.count)]

/-!
## The metrics

The three maps and the calls on them.  A missing counter or gauge starts at zero; a
reset stores zero in every cell and drops the histograms.
-/

def ensure (cells : StringMap UInt64) (key : Bytes) : StringMap UInt64 :=
  if key ∈ cells then cells else cells.insert key 0

def fetchAdd (cells : StringMap UInt64) (key : Bytes) (n : UInt64) : StringMap UInt64 :=
  cells.insert key ((cells.lookup key).getD 0 + n)

theorem isSome_map_iff_mem_keys (cells : StringMap UInt64) (value : UInt64) (key : Bytes) :
    ((cells.lookup key).map fun _ => value).isSome <-> key ∈ cells.keys := by
  rw [Option.isSome_map, Finmap.lookup_isSome, Finmap.mem_keys]

def storeAll (cells : StringMap UInt64) (value : UInt64) : StringMap UInt64 :=
  Finmap.keysLookupEquiv.symm
    ⟨(cells.keys, fun key => (cells.lookup key).map fun _ => value),
      isSome_map_iff_mem_keys cells value⟩

structure PrometheusMetrics where
  counters : StringMap UInt64 := ∅
  gauges : StringMap UInt64 := ∅
  histograms : StringMap Histogram := ∅

namespace PrometheusMetrics

def increment (m : PrometheusMetrics) (name : Bytes) : PrometheusMetrics :=
  { m with counters := fetchAdd (ensure m.counters name) name 1 }

def gauge (m : PrometheusMetrics) (name : Bytes) (bits : UInt64) : PrometheusMetrics :=
  { m with gauges := (ensure m.gauges name).insert name bits }

def histogram (m : PrometheusMetrics) (name : Bytes) (value : Rat) : PrometheusMetrics :=
  let h := (m.histograms.lookup name).getD {}
  { m with histograms := m.histograms.insert name (h.observe value) }

def reset (m : PrometheusMetrics) : PrometheusMetrics where
  counters := storeAll m.counters 0
  gauges := storeAll m.gauges 0
  histograms := ∅

end PrometheusMetrics

inductive MetricsCall where
  | increment (name : Bytes)
  | gauge (name : Bytes) (bits : UInt64)
  | histogram (name : Bytes) (value : Rat)
  | reset
deriving DecidableEq

namespace PrometheusMetrics

def perform (m : PrometheusMetrics) : MetricsCall -> PrometheusMetrics
  | .increment name => m.increment name
  | .gauge name bits => m.gauge name bits
  | .histogram name value => m.histogram name value
  | .reset => m.reset

/-- The metrics after a sequence of calls on a fresh object. -/
def after (calls : List MetricsCall) : PrometheusMetrics :=
  calls.foldl perform {}

theorem after_concat (calls : List MetricsCall) (call : MetricsCall) :
    after (calls ++ [call]) = (after calls).perform call := by
  rw [after, List.foldl_append]
  rfl

end PrometheusMetrics

/-!
## What was reported since the last reset

The observations and increments under a name that come behind the last reset of a
sequence of calls.
-/

def sinceReset (calls : List MetricsCall) : List MetricsCall :=
  calls.rtakeWhile (· ≠ .reset)

theorem sinceReset_concat_reset (calls : List MetricsCall) :
    sinceReset (calls ++ [.reset]) = [] :=
  List.rtakeWhile_concat_neg _ _ _ (by simp)

theorem sinceReset_concat {call : MetricsCall} (h : call ≠ .reset) (calls : List MetricsCall) :
    sinceReset (calls ++ [call]) = sinceReset calls ++ [call] :=
  List.rtakeWhile_concat_pos _ _ _ (by simpa using h)

/-- The value that a call observes under a name. -/
def MetricsCall.observed (name : Bytes) : MetricsCall -> Option Rat
  | .histogram name' value => if name' = name then some value else none
  | _ => none

def observations (name : Bytes) (calls : List MetricsCall) : List Rat :=
  (sinceReset calls).filterMap (MetricsCall.observed name)

def increments (name : Bytes) (calls : List MetricsCall) : Nat :=
  (sinceReset calls).count (.increment name)

theorem observations_concat_reset (name : Bytes) (calls : List MetricsCall) :
    observations name (calls ++ [.reset]) = [] := by
  rw [observations, sinceReset_concat_reset, List.filterMap_nil]

theorem observations_concat {call : MetricsCall} (h : call ≠ .reset) (name : Bytes)
    (calls : List MetricsCall) :
    observations name (calls ++ [call]) =
      observations name calls ++ (call.observed name).toList := by
  rw [observations, sinceReset_concat h, List.filterMap_append, ← observations]
  cases hobserved : call.observed name <;> simp [hobserved]

theorem increments_concat_reset (name : Bytes) (calls : List MetricsCall) :
    increments name (calls ++ [.reset]) = 0 := by
  rw [increments, sinceReset_concat_reset, List.count_nil]

theorem increments_concat {call : MetricsCall} (h : call ≠ .reset) (name : Bytes)
    (calls : List MetricsCall) :
    increments name (calls ++ [call]) =
      increments name calls + if call = .increment name then 1 else 0 := by
  rw [increments, sinceReset_concat h, List.count_append, ← increments, List.count_singleton]
  simp

/-!
## Tallies

The abstract content of a histogram is the list of its observations.
-/

def Histogram.tally (observed : List Rat) : Histogram where
  sum := observed.sum
  count := UInt64.ofNat observed.length
  buckets := defaultBounds.map fun bound =>
    { upperBound := bound, count := UInt64.ofNat (observed.countP (· <= bound)) }

theorem Histogram.tally_nil : Histogram.tally [] = {} := rfl

theorem Bucket.observe_tally (bound value : Rat) (observed : List Rat) :
    Bucket.observe value ⟨bound, UInt64.ofNat (observed.countP (· <= bound))⟩ =
      ⟨bound, UInt64.ofNat ((observed ++ [value]).countP (· <= bound))⟩ := by
  rw [List.countP_append, List.countP_singleton, Bucket.observe]
  by_cases hvalue : value <= bound
  · simp [hvalue]
  · simp [hvalue]

theorem Histogram.observe_tally (observed : List Rat) (value : Rat) :
    (Histogram.tally observed).observe value = Histogram.tally (observed ++ [value]) := by
  have hbuckets : (Histogram.tally observed).buckets.map (Bucket.observe value) =
      (Histogram.tally (observed ++ [value])).buckets := by
    rw [Histogram.tally, List.map_map]
    exact List.map_congr_left fun bound _ => Bucket.observe_tally bound value observed
  rw [Histogram.observe, hbuckets, Histogram.tally, Histogram.tally, List.sum_append,
    List.sum_singleton, List.length_append, List.length_singleton, UInt64.ofNat_add]
  rfl

/-- What a histogram has recorded of a list of observations. -/
structure Histogram.Records (h : Histogram) (observed : List Rat) : Prop where
  sum : h.sum = observed.sum
  count : h.count.toNat = observed.length % 2 ^ 64
  bounds : h.buckets.map Bucket.upperBound = defaultBounds
  bucket : forall b, b ∈ h.buckets ->
    b.count.toNat = observed.countP (· <= b.upperBound) % 2 ^ 64

/-- The counts of a histogram that none of the fields was too small for. -/
structure Histogram.Exact (h : Histogram) (observed : List Rat) : Prop where
  count : h.count.toNat = observed.length
  bucket : forall b, b ∈ h.buckets -> b.count.toNat = observed.countP (· <= b.upperBound)
  cumulative : h.bucketLines.Pairwise fun line later => line.2 <= later.2

theorem Histogram.records_tally (observed : List Rat) :
    (Histogram.tally observed).Records observed where
  sum := rfl
  count := UInt64.toNat_ofNat'
  bounds := by
    rw [Histogram.tally, List.map_map]
    exact List.map_id _
  bucket := by
    intro b hb
    rcases List.mem_map.mp hb with ⟨bound, _, rfl⟩
    exact UInt64.toNat_ofNat'

theorem pairwise_defaultBounds : defaultBounds.Pairwise (· <= ·) := by
  unfold defaultBounds
  norm_num

theorem Histogram.Records.exact {h : Histogram} {observed : List Rat}
    (hrecords : h.Records observed) (hfew : observed.length < 2 ^ 64) : h.Exact observed := by
  have hcount : h.count.toNat = observed.length := by
    rw [hrecords.count, Nat.mod_eq_of_lt hfew]
  have hbucket : forall b, b ∈ h.buckets ->
      b.count.toNat = observed.countP (· <= b.upperBound) := by
    intro b hb
    rw [hrecords.bucket b hb, Nat.mod_eq_of_lt (Nat.lt_of_le_of_lt List.countP_le_length hfew)]
  have hsorted : h.buckets.Pairwise fun b later => b.upperBound <= later.upperBound := by
    rw [← List.pairwise_map, hrecords.bounds]
    exact pairwise_defaultBounds
  refine ⟨hcount, hbucket, ?_⟩
  rw [Histogram.bucketLines, List.pairwise_append]
  refine ⟨?_, List.pairwise_singleton _ _, ?_⟩
  · rw [List.pairwise_map]
    refine hsorted.imp_of_mem ?_
    intro b later hb hlater hle
    rw [UInt64.le_iff_toNat_le, hbucket b hb, hbucket later hlater]
    refine List.countP_mono_left ?_
    intro value _ hvalue
    exact decide_eq_true (le_trans (of_decide_eq_true hvalue) hle)
  · -- the `+Inf` line comes last and counts everything
    intro line hline last hlast
    rcases List.mem_map.mp hline with ⟨b, hb, rfl⟩
    rw [List.mem_singleton.mp hlast, UInt64.le_iff_toNat_le, hcount, hbucket b hb]
    exact List.countP_le_length

/-!
## One call

A call changes the cell of its own name only, and a reset all of them.
-/

theorem lookup_storeAll (cells : StringMap UInt64) (value : UInt64) (key : Bytes) :
    (storeAll cells value).lookup key = (cells.lookup key).map fun _ => value :=
  Finmap.keysLookupEquiv_symm_apply_lookup _ key

theorem lookup_fetchAdd_ensure (cells : StringMap UInt64) (name : Bytes) (n : UInt64) :
    (fetchAdd (ensure cells name) name n).lookup name =
      some ((cells.lookup name).getD 0 + n) := by
  rw [fetchAdd, Finmap.lookup_insert, ensure]
  split
  · rfl
  · next hmissing =>
      rw [Finmap.lookup_insert, Finmap.lookup_eq_none.mpr hmissing]
      rfl

theorem lookup_fetchAdd_ensure_of_ne (cells : StringMap UInt64) {name key : Bytes}
    (h : key ≠ name) (n : UInt64) :
    (fetchAdd (ensure cells name) name n).lookup key = cells.lookup key := by
  rw [fetchAdd, Finmap.lookup_insert_of_ne _ h, ensure]
  split
  · rfl
  · rw [Finmap.lookup_insert_of_ne _ h]

namespace PrometheusMetrics

theorem lookup_histograms_perform (m : PrometheusMetrics) {call : MetricsCall} {name : Bytes}
    (hreset : call ≠ .reset) (hobserved : call.observed name = none) :
    (m.perform call).histograms.lookup name = m.histograms.lookup name := by
  cases call with
  | increment other => rfl
  | gauge other bits => rfl
  | histogram other value =>
      have hother : name ≠ other := by
        intro hname
        rw [MetricsCall.observed, if_pos hname.symm] at hobserved
        cases hobserved
      exact Finmap.lookup_insert_of_ne _ hother
  | reset => exact absurd rfl hreset

theorem lookup_histograms_perform_observed (m : PrometheusMetrics) {call : MetricsCall}
    {name : Bytes} {value : Rat} (hobserved : call.observed name = some value) :
    (m.perform call).histograms.lookup name =
      some (((m.histograms.lookup name).getD {}).observe value) := by
  cases call with
  | increment other => cases hobserved
  | gauge other bits => cases hobserved
  | histogram other value' =>
      rw [MetricsCall.observed] at hobserved
      split at hobserved
      · next hname =>
          cases hobserved
          subst hname
          exact Finmap.lookup_insert _
      · cases hobserved
  | reset => cases hobserved

theorem lookup_counters_perform (m : PrometheusMetrics) {call : MetricsCall} {name : Bytes}
    (hreset : call ≠ .reset) (hincrement : call ≠ .increment name) :
    (m.perform call).counters.lookup name = m.counters.lookup name := by
  cases call with
  | increment other =>
      have hother : name ≠ other := by
        intro hname
        exact hincrement (congrArg MetricsCall.increment hname.symm)
      exact lookup_fetchAdd_ensure_of_ne _ hother 1
  | gauge other bits => rfl
  | histogram other value => rfl
  | reset => exact absurd rfl hreset

/-!
## Any number of calls

By induction over the calls, from what one call does.
-/

theorem lookup_histograms_after (name : Bytes) (calls : List MetricsCall) :
    (after calls).histograms.lookup name =
      if observations name calls = [] then none
      else some (Histogram.tally (observations name calls)) := by
  induction calls using List.reverseRecOn with
  | nil => rfl
  | append_singleton calls call ih =>
      have hstored : ((after calls).histograms.lookup name).getD {} =
          Histogram.tally (observations name calls) := by
        rw [ih]
        split
        · next hnone => rw [hnone, Histogram.tally_nil, Option.getD_none]
        · rfl
      rw [after_concat]
      by_cases hreset : call = .reset
      · rw [hreset, observations_concat_reset, if_pos rfl]
        rfl
      · rw [observations_concat hreset]
        cases hobserved : call.observed name with
        | none =>
            rw [lookup_histograms_perform _ hreset hobserved, ih, Option.toList_none,
              List.append_nil]
        | some value =>
            rw [lookup_histograms_perform_observed _ hobserved, hstored, Histogram.observe_tally,
              Option.toList_some,
              if_neg (List.append_ne_nil_of_right_ne_nil _ (List.cons_ne_nil _ _))]

theorem getD_counters_after (name : Bytes) (calls : List MetricsCall) :
    ((after calls).counters.lookup name).getD 0 = UInt64.ofNat (increments name calls) := by
  induction calls using List.reverseRecOn with
  | nil => rfl
  | append_singleton calls call ih =>
      rw [after_concat]
      by_cases hreset : call = .reset
      · have hzero : ((after calls).perform .reset).counters.lookup name =
            ((after calls).counters.lookup name).map fun _ => 0 := lookup_storeAll _ 0 name
        rw [hreset, increments_concat_reset, hzero]
        cases (after calls).counters.lookup name <;> rfl
      · rw [increments_concat hreset]
        by_cases hincrement : call = .increment name
        · have hadded : ((after calls).perform (.increment name)).counters.lookup name =
              some (((after calls).counters.lookup name).getD 0 + 1) :=
            lookup_fetchAdd_ensure _ name 1
          rw [if_pos hincrement, hincrement, hadded, ih, UInt64.ofNat_add]
          rfl
        · rw [lookup_counters_perform _ hreset hincrement, ih, if_neg hincrement, Nat.add_zero]

/-- After any calls, each histogram has recorded what was observed under its name since
the last reset, and each counter its increments. -/
theorem after_records (calls : List MetricsCall) (name : Bytes) :
    ((after calls).histograms.lookup name = none <-> observations name calls = []) ∧
      (forall h, (after calls).histograms.lookup name = some h ->
        h.Records (observations name calls) ∧
          ((observations name calls).length < 2 ^ 64 -> h.Exact (observations name calls))) ∧
      (forall call, call ≠ .reset -> call.observed name = none ->
        ((after calls).perform call).histograms.lookup name =
          (after calls).histograms.lookup name) ∧
      (((after calls).counters.lookup name).getD 0).toNat = increments name calls % 2 ^ 64 := by
  have hlookup := lookup_histograms_after name calls
  refine ⟨?_, ?_, ?_, ?_⟩
  · rw [hlookup]
    split
    · next hnone => exact iff_of_true rfl hnone
    · next hsome => exact iff_of_false (Option.some_ne_none _) hsome
  · intro h hstored
    rw [hlookup] at hstored
    split at hstored
    · cases hstored
    · cases hstored
      have hrecords := Histogram.records_tally (observations name calls)
      exact ⟨hrecords, hrecords.exact⟩
  · intro call hreset hobserved
    exact lookup_histograms_perform _ hreset hobserved
  · rw [getD_counters_after]
    exact UInt64.toNat_ofNat'

/-!
## Too many observations

After `2 ^ 64` observations the fields that count them are back at zero.
-/

def flood (times : Nat) : List MetricsCall :=
  List.replicate times (.histogram (ascii "latency_ms") 3)

theorem observations_flood (times : Nat) :
    observations (ascii "latency_ms") (flood times) = List.replicate times 3 := by
  induction times with
  | zero => rfl
  | succ times ih =>
      have hreset : MetricsCall.histogram (ascii "latency_ms") 3 ≠ .reset := nofun
      rw [flood, List.replicate_succ', ← flood, observations_concat hreset, ih,
        List.replicate_succ']
      rfl

theorem lookup_flood {times : Nat} (h : times ≠ 0) :
    (after (flood times)).histograms.lookup (ascii "latency_ms") =
      some (Histogram.tally (List.replicate times 3)) := by
  rw [lookup_histograms_after, observations_flood, if_neg]
  intro hempty
  exact h (List.replicate_eq_nil_iff 3 |>.mp hempty)

theorem countP_flood (times : Nat) :
    (observations (ascii "latency_ms") (flood times)).countP (· <= 5) = times := by
  rw [observations_flood, List.countP_replicate, if_pos]
  norm_num

theorem flood_forgotten :
    exists h, (after (flood (2 ^ 64))).histograms.lookup (ascii "latency_ms") = some h ∧
      ⟨5, 0⟩ ∈ h.buckets ∧
      (observations (ascii "latency_ms") (flood (2 ^ 64))).countP (· <= 5) = 2 ^ 64 ∧
      h.count = 0 ∧ (observations (ascii "latency_ms") (flood (2 ^ 64))).length = 2 ^ 64 := by
  have hmany : 2 ^ 64 ≠ 0 := by
    norm_num
  refine ⟨_, lookup_flood hmany, ?_, countP_flood _, ?_, ?_⟩
  · refine List.mem_map.mpr ⟨5, by simp [defaultBounds], ?_⟩
    rw [← observations_flood, countP_flood]
    rfl
  · rw [Histogram.tally, List.length_replicate]
    rfl
  · rw [observations_flood, List.length_replicate]

end PrometheusMetrics

end Observability
end CppCommons
