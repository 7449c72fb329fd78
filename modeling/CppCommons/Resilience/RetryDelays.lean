import CppCommons.Resilience.RetryRun
import Mathlib.Data.Rat.Floor

/-!
# Delays between attempts

Each delay is the one before it, scaled, cut to whole milliseconds and capped.
The loop begins with `initial_delay` as it is, the intended delays begin with it
capped; the durations slept are compared with the intended ones for every draw
of the random number generator.
-/

namespace CppCommons
namespace Resilience

open Cxx

def truncated (q : Rat) : Int := q.num.tdiv q.den

theorem truncated_of_nonneg {q : Rat} (h : 0 <= q) : truncated q = ⌊q⌋ := by
  rw [truncated, Int.tdiv_eq_ediv_of_nonneg (Rat.num_nonneg.mpr h), Rat.floor_def']

namespace RetryConfig

variable {world exn value : Type}

def delaysFrom (cfg : RetryConfig exn) (start : Int) : Nat -> Int
  | 0 => start
  | i + 1 => min cfg.maxDelay (truncated (cfg.delaysFrom start i * cfg.backoffMultiplier))

def cappedDelay (cfg : RetryConfig exn) (i : Nat) : Int :=
  cfg.delaysFrom (min cfg.initialDelay cfg.maxDelay) i

/-- The draws are values of the distributions that `apply_jitter` builds. -/
structure AdmissibleDraws (cfg : RetryConfig exn) (draw : Nat -> Int) : Prop where
  full : cfg.jitter = .full -> forall i, 0 <= draw i ∧ draw i <= cfg.delayAt i
  equal : cfg.jitter = .equal -> forall i, 0 <= draw i ∧ draw i <= (cfg.delayAt i).tdiv 2

structure SleepRight (cfg : RetryConfig exn) (i : Nat) (s : Int) : Prop where
  plain : cfg.jitter = .none -> s = cfg.cappedDelay i
  full : cfg.jitter = .full -> 0 <= s ∧ s <= cfg.cappedDelay i
  equal : cfg.jitter = .equal -> cfg.cappedDelay i / 2 <= s ∧ s <= cfg.cappedDelay i

structure SleepsRight (cfg : RetryConfig exn) (sleeps : List Int) : Prop where
  bounded : forall s, s ∈ sleeps -> 0 <= s ∧ s <= cfg.maxDelay
  each : forall i s, sleeps[i]? = some s -> cfg.SleepRight i s
  nondecreasing : cfg.jitter = .none -> 1 <= cfg.backoffMultiplier -> sleeps.Pairwise (· <= ·)

/-- Attempt `i` fails and is followed by another one. -/
def SleepsAt (cfg : RetryConfig exn) (around : RetrySurroundings)
    (fn : world -> world × Except exn value) (w : world) (i : Nat) : Prop :=
  i + 1 < cfg.maxAttempts.toNat ∧ forall j, j <= i -> cfg.stopAt around fn w j = none

/-!
## The durations of a run

The durations slept in a run are those after its first attempts, one after the other.
-/

theorem durations_rounds (cfg : RetryConfig exn) (around : RetrySurroundings) (a n : Nat) :
    (cfg.rounds around a n).filterMap RetryEvent.duration? =
      (List.range' a n).map (cfg.sleepAt around) := by
  induction n generalizing a with
  | zero => rfl
  | succ n ih =>
      have hrounds : cfg.rounds around a (n + 1) =
          .invoked a :: .slept a (cfg.sleepAt around a) :: cfg.rounds around (a + 1) n := rfl
      simp [hrounds, List.filterMap_cons, ih, List.range'_succ]

theorem durations_of_events {cfg : RetryConfig exn} {around : RetrySurroundings}
    {fn : world -> world × Except exn value} {w : world} {n : Nat} {last : List RetryEvent}
    (hevents : cfg.events around fn w = cfg.rounds around 0 n ++ last)
    (hlast : last.filterMap RetryEvent.duration? = []) :
    (cfg.withRetry around fn w).sleeps = (List.range n).map (cfg.sleepAt around) := by
  rw [(withRetry_counts cfg around fn w).right, hevents, List.filterMap_append, hlast,
    List.append_nil, durations_rounds, List.range_eq_range']

theorem sleeps_eq (cfg : RetryConfig exn) (around : RetrySurroundings)
    (fn : world -> world × Except exn value) (w : world) :
    exists n, (cfg.withRetry around fn w).sleeps = (List.range n).map (cfg.sleepAt around) ∧
      forall i, i < n <-> cfg.SleepsAt around fn w i := by
  rcases stops_or_not cfg around fn w with ⟨k, exit, hk, hnone, hstop⟩ | hnone
  · refine ⟨k, durations_of_events (run_of_stop hk hnone hstop).right ?_, fun i => ⟨?_, ?_⟩⟩
    · split
      · rfl
      · rfl
    · intro hi
      exact ⟨by lia, fun j hj => hnone j (by lia)⟩
    · intro hsleeps
      by_contra hi
      have hstopped := hsleeps.right k (by lia)
      rw [hstop] at hstopped
      cases hstopped
  · refine ⟨_, durations_of_events (run_of_no_stop hnone).right ?_, fun i => ⟨?_, ?_⟩⟩
    · split
      · rfl
      · rfl
    · intro hi
      exact ⟨by lia, fun j hj => hnone j (by lia)⟩
    · intro hsleeps
      have hmore := hsleeps.left
      lia

theorem getElem?_sleeps (cfg : RetryConfig exn) (around : RetrySurroundings)
    (fn : world -> world × Except exn value) (w : world) (i : Nat) (s : Int) :
    (cfg.withRetry around fn w).sleeps[i]? = some s <->
      cfg.SleepsAt around fn w i ∧ s = cfg.sleepAt around i := by
  rcases sleeps_eq cfg around fn w with ⟨n, hsleeps, hn⟩
  rw [hsleeps, List.getElem?_map, ← hn]
  by_cases hi : i < n
  · rw [List.getElem?_range hi]
    simp [hi, eq_comm]
  · rw [List.getElem?_eq_none (by simpa using hi)]
    simp [hi]

/-!
## Delays that follow a first delay

The delays of the loop and the intended ones differ in the first delay alone, which
only the intended ones cap.
-/

theorem nextDelay_eq (cfg : RetryConfig exn) (delay : Int) :
    nextDelay cfg delay = min cfg.maxDelay (truncated (delay * cfg.backoffMultiplier)) := by
  simp only [nextDelay, truncated]
  split
  · lia
  · lia

theorem delayAt_eq (cfg : RetryConfig exn) (i : Nat) :
    cfg.delayAt i = cfg.delaysFrom cfg.initialDelay i := by
  induction i with
  | zero => rfl
  | succ i ih => rw [delayAt, delaysFrom, nextDelay_eq, ih]

section NonNegative

variable {cfg : RetryConfig exn} (hmax : 0 <= cfg.maxDelay)
  (hmultiplier : 0 <= cfg.backoffMultiplier)
include hmax hmultiplier

omit hmax in
theorem scaled_nonneg {delay : Int} (h : 0 <= delay) :
    (0 : Rat) <= delay * cfg.backoffMultiplier :=
  mul_nonneg (by exact_mod_cast h) hmultiplier

theorem delaysFrom_nonneg {start : Int} (hstart : 0 <= start) (i : Nat) :
    0 <= cfg.delaysFrom start i := by
  induction i with
  | zero => exact hstart
  | succ i ih =>
      have hscaled := scaled_nonneg hmultiplier ih
      rw [delaysFrom, truncated_of_nonneg hscaled]
      exact le_min hmax (Int.floor_nonneg.mpr hscaled)

theorem delaysFrom_mono {start start' : Int} (hstart : 0 <= start) (hle : start <= start')
    (i : Nat) : cfg.delaysFrom start i <= cfg.delaysFrom start' i := by
  induction i with
  | zero => exact hle
  | succ i ih =>
      have hscaled := scaled_nonneg hmultiplier (delaysFrom_nonneg hmax hmultiplier hstart i)
      have hscaled' := scaled_nonneg hmultiplier
        (delaysFrom_nonneg hmax hmultiplier (hstart.trans hle) i)
      rw [delaysFrom, delaysFrom, truncated_of_nonneg hscaled, truncated_of_nonneg hscaled']
      exact min_le_min_left _
        (Int.floor_mono (mul_le_mul_of_nonneg_right (Int.cast_le.mpr ih) hmultiplier))

omit hmax hmultiplier in
theorem cappedDelay_succ (cfg : RetryConfig exn) (i : Nat) :
    cfg.cappedDelay (i + 1) =
      min cfg.maxDelay (truncated (cfg.cappedDelay i * cfg.backoffMultiplier)) := rfl

theorem cappedDelay_nonneg (hinitial : 0 <= cfg.initialDelay) (i : Nat) :
    0 <= cfg.cappedDelay i :=
  delaysFrom_nonneg hmax hmultiplier (le_min hinitial hmax) i

omit hmax hmultiplier in
theorem cappedDelay_le (cfg : RetryConfig exn) (i : Nat) : cfg.cappedDelay i <= cfg.maxDelay := by
  cases i with
  | zero => exact min_le_right _ _
  | succ i => exact min_le_left _ _

theorem cappedDelay_le_delayAt (hinitial : 0 <= cfg.initialDelay) (i : Nat) :
    cfg.cappedDelay i <= cfg.delayAt i := by
  rw [delayAt_eq]
  exact delaysFrom_mono hmax hmultiplier (le_min hinitial hmax) (min_le_left _ _) i

omit hmax hmultiplier in
theorem delayAt_eq_cappedDelay (h : cfg.initialDelay <= cfg.maxDelay) (i : Nat) :
    cfg.delayAt i = cfg.cappedDelay i := by
  rw [delayAt_eq, cappedDelay, min_eq_left h]

theorem cappedDelay_monotone (hinitial : 0 <= cfg.initialDelay)
    (hone : 1 <= cfg.backoffMultiplier) : Monotone cfg.cappedDelay := by
  refine monotone_nat_of_le_succ (fun i => ?_)
  have hnonneg := cappedDelay_nonneg hmax hmultiplier hinitial i
  have hlonger : (cfg.cappedDelay i : Rat) <= cfg.cappedDelay i * cfg.backoffMultiplier :=
    le_mul_of_one_le_right (by exact_mod_cast hnonneg) hone
  rw [cappedDelay_succ, truncated_of_nonneg (scaled_nonneg hmultiplier hnonneg)]
  exact le_min (cappedDelay_le cfg i) (Int.le_floor.mpr hlonger)

end NonNegative

/-!
## Durations slept

Each kind of jitter gives a duration between bounds that the delay sets; the largest
draws reach the upper one, so an uncapped first delay shows.
-/

theorem sleepAt_of_none {cfg : RetryConfig exn} (h : cfg.jitter = .none)
    (around : RetrySurroundings) (i : Nat) : cfg.sleepAt around i = cfg.delayAt i := by
  simp [sleepAt, applyJitter, h]

theorem sleepAt_of_full {cfg : RetryConfig exn} (h : cfg.jitter = .full)
    (around : RetrySurroundings) (i : Nat) :
    cfg.sleepAt around i = if cfg.delayAt i = 0 then 0 else around.draw i := by
  simp only [sleepAt, applyJitter, h, reduceCtorEq, false_or, if_true]
  split
  · next hzero => exact hzero
  · rfl

theorem sleepAt_of_equal {cfg : RetryConfig exn} (h : cfg.jitter = .equal)
    (around : RetrySurroundings) (i : Nat) :
    cfg.sleepAt around i =
      if cfg.delayAt i = 0 then 0 else (cfg.delayAt i).tdiv 2 + around.draw i := by
  simp only [sleepAt, applyJitter, h, reduceCtorEq, false_or, if_false]
  split
  · next hzero => exact hzero
  · rfl

theorem sleepAt_equal_bounds {cfg : RetryConfig exn} (h : cfg.jitter = .equal)
    {around : RetrySurroundings} (hdraws : cfg.AdmissibleDraws around.draw) {i : Nat}
    (hnonneg : 0 <= cfg.delayAt i) :
    cfg.delayAt i / 2 <= cfg.sleepAt around i ∧
      cfg.sleepAt around i <= 2 * (cfg.delayAt i / 2) := by
  have hdraw := hdraws.equal h i
  rw [sleepAt_of_equal h]
  split
  · lia
  · lia

theorem sleepAt_full_bounds {cfg : RetryConfig exn} (h : cfg.jitter = .full)
    {around : RetrySurroundings} (hdraws : cfg.AdmissibleDraws around.draw) (i : Nat) :
    0 <= cfg.sleepAt around i ∧ cfg.sleepAt around i <= cfg.delayAt i := by
  have hdraw := hdraws.full h i
  rw [sleepAt_of_full h]
  split
  · lia
  · lia

section Sleeps

variable {cfg : RetryConfig exn} (hinitial : 0 <= cfg.initialDelay) (hmax : 0 <= cfg.maxDelay)
  (hmultiplier : 0 <= cfg.backoffMultiplier)
include hinitial hmax hmultiplier

theorem delayAt_nonneg (i : Nat) : 0 <= cfg.delayAt i :=
  (cappedDelay_nonneg hmax hmultiplier hinitial i).trans
    (cappedDelay_le_delayAt hmax hmultiplier hinitial i)

theorem admissible_largest :
    cfg.AdmissibleDraws (fun i =>
      if cfg.jitter = .full then cfg.delayAt i else (cfg.delayAt i).tdiv 2) := by
  have hnonneg := delayAt_nonneg hinitial hmax hmultiplier
  constructor
  · intro hfull i
    rw [if_pos hfull]
    exact ⟨hnonneg i, le_refl _⟩
  · intro hequal i
    rw [if_neg (by rw [hequal]; decide)]
    have hi := hnonneg i
    lia

theorem sleepRight_of_delay {around : RetrySurroundings}
    (hdraws : cfg.AdmissibleDraws around.draw) {i : Nat}
    (h : cfg.delayAt i = cfg.cappedDelay i ∨
      cfg.jitter = .equal ∧ 2 * (cfg.delayAt i / 2) <= cfg.cappedDelay i) :
    cfg.SleepRight i (cfg.sleepAt around i) := by
  constructor
  · intro hnone
    rcases h with hsame | ⟨hequal, _⟩
    · rw [sleepAt_of_none hnone, hsame]
    · rw [hnone] at hequal
      cases hequal
  · intro hfull
    rcases h with hsame | ⟨hequal, _⟩
    · rw [← hsame]
      exact sleepAt_full_bounds hfull hdraws i
    · rw [hfull] at hequal
      cases hequal
  · intro hequal
    have hbounds := sleepAt_equal_bounds hequal hdraws
      (delayAt_nonneg hinitial hmax hmultiplier i)
    have hle := cappedDelay_le_delayAt hmax hmultiplier hinitial i
    rcases h with hsame | ⟨_, htwo⟩
    · lia
    · lia

theorem between_of_sleepRight {i : Nat} {s : Int} (h : cfg.SleepRight i s) :
    0 <= s ∧ s <= cfg.maxDelay := by
  have hnonneg := cappedDelay_nonneg hmax hmultiplier hinitial i
  have hcap := cappedDelay_le cfg i
  cases hjitter : cfg.jitter with
  | none =>
      have hs := h.plain hjitter
      lia
  | full =>
      have hs := h.full hjitter
      lia
  | equal =>
      have hs := h.equal hjitter
      lia

theorem sleepsRight_of_each {around : RetrySurroundings} {fn : world -> world × Except exn value}
    {w : world} (h : forall i, cfg.SleepsAt around fn w i ->
      cfg.SleepRight i (cfg.sleepAt around i)) :
    cfg.SleepsRight (cfg.withRetry around fn w).sleeps := by
  have heach : forall i s, (cfg.withRetry around fn w).sleeps[i]? = some s ->
      cfg.SleepRight i s := by
    intro i s hget
    rcases (getElem?_sleeps cfg around fn w i s).mp hget with ⟨hi, hs⟩
    rw [hs]
    exact h i hi
  refine ⟨?_, heach, ?_⟩
  · intro s hs
    rcases List.getElem?_of_mem hs with ⟨i, hget⟩
    exact between_of_sleepRight hinitial hmax hmultiplier (heach i s hget)
  · intro hnone hone
    rcases sleeps_eq cfg around fn w with ⟨n, hsleeps, hn⟩
    rw [hsleeps, List.pairwise_map]
    refine List.pairwise_lt_range.imp_of_mem (fun {i j} hi hj hlt => ?_)
    have hfirst := (h i ((hn i).mp (List.mem_range.mp hi))).plain hnone
    have hsecond := (h j ((hn j).mp (List.mem_range.mp hj))).plain hnone
    rw [hfirst, hsecond]
    exact cappedDelay_monotone hmax hmultiplier hinitial hone (Nat.le_of_lt hlt)

theorem equal_of_largest {around : RetrySurroundings} {fn : world -> world × Except exn value}
    {w : world} (habove : cfg.maxDelay < cfg.initialDelay)
    (hlargest : around.draw = fun i =>
      if cfg.jitter = .full then cfg.delayAt i else (cfg.delayAt i).tdiv 2)
    (hright : cfg.SleepsRight (cfg.withRetry around fn w).sleeps)
    {i : Nat} (hi : cfg.SleepsAt around fn w i) :
    cfg.jitter = .equal ∧ 2 * (cfg.delayAt i / 2) <= cfg.cappedDelay i := by
  have hfirst : cfg.SleepsAt around fn w 0 :=
    ⟨by have hmore := hi.left; lia, fun j hj => hi.right j (by lia)⟩
  have hzero := hright.each 0 _ ((getElem?_sleeps cfg around fn w 0 _).mpr ⟨hfirst, rfl⟩)
  have hat := hright.each i _ ((getElem?_sleeps cfg around fn w i _).mpr ⟨hi, rfl⟩)
  have hcap := cappedDelay_le cfg 0
  have hinit : cfg.delayAt 0 = cfg.initialDelay := rfl
  cases hjitter : cfg.jitter with
  | none =>
      have hs := hzero.plain hjitter
      rw [sleepAt_of_none hjitter] at hs
      lia
  | full =>
      have hs := hzero.full hjitter
      rw [sleepAt_of_full hjitter, hlargest] at hs
      simp only [hjitter, if_true] at hs
      split at hs
      · lia
      · lia
  | equal =>
      refine ⟨rfl, ?_⟩
      have hnonneg := delayAt_nonneg hinitial hmax hmultiplier i
      have hcapped := cappedDelay_nonneg hmax hmultiplier hinitial i
      have hs := hat.equal hjitter
      rw [sleepAt_of_equal hjitter, hlargest] at hs
      simp only [hjitter, reduceCtorEq, if_false] at hs
      split at hs
      · lia
      · lia

end Sleeps

/--
For all draws the sleeps of a run are right when the initial delay is not above
the cap.  Above it they are right only if there are none, or if `Equal` makes
two halves of each delay fit below the capped one.
-/
theorem sleepsRight_iff (cfg : RetryConfig exn) (hinitial : 0 <= cfg.initialDelay)
    (hmax : 0 <= cfg.maxDelay) (hmultiplier : 0 <= cfg.backoffMultiplier)
    (around : RetrySurroundings) (fn : world -> world × Except exn value) (w : world) :
    (forall draw, cfg.AdmissibleDraws draw ->
        cfg.SleepsRight (cfg.withRetry { around with draw := draw } fn w).sleeps) <->
      cfg.initialDelay <= cfg.maxDelay ∨
        forall i, cfg.SleepsAt around fn w i ->
          cfg.jitter = .equal ∧
            2 * (cfg.delaysFrom cfg.initialDelay i / 2) <= cfg.cappedDelay i := by
  simp only [← delayAt_eq]
  constructor
  · intro hright
    by_cases hle : cfg.initialDelay <= cfg.maxDelay
    · exact Or.inl hle
    · refine Or.inr (fun i hi => ?_)
      exact equal_of_largest hinitial hmax hmultiplier (Int.not_le.mp hle) rfl
        (hright _ (admissible_largest hinitial hmax hmultiplier)) hi
  · intro hcond draw hdraws
    apply sleepsRight_of_each hinitial hmax hmultiplier
    intro i hi
    apply sleepRight_of_delay hinitial hmax hmultiplier hdraws
    rcases hcond with hle | hequal
    · exact Or.inl (delayAt_eq_cappedDelay hle i)
    · exact Or.inr (hequal i hi)

/-- A function that always throws. -/
def alwaysThrows (w : Unit) : Unit × Except Unit Unit := (w, .error ())

def stillSurroundings : RetrySurroundings where
  before _ := 0
  after _ := 0
  draw _ := 0

def fourAttempts : RetryConfig Unit where
  maxAttempts := 4

def delayAboveCap : RetryConfig Unit where
  maxAttempts := 2
  initialDelay := 100
  maxDelay := 10

theorem sleepsRight_fourAttempts :
    fourAttempts.AdmissibleDraws stillSurroundings.draw ∧
      fourAttempts.SleepsRight
        (fourAttempts.withRetry stillSurroundings alwaysThrows ()).sleeps := by
  have hdraws : fourAttempts.AdmissibleDraws stillSurroundings.draw :=
    ⟨fun hfull => absurd hfull (by decide), fun hequal => absurd hequal (by decide)⟩
  exact ⟨hdraws, (sleepsRight_iff fourAttempts (by decide) (by decide) (by decide)
    stillSurroundings alwaysThrows ()).mpr (Or.inl (by decide)) _ hdraws⟩

theorem initial_delay_uncapped :
    (delayAboveCap.withRetry stillSurroundings alwaysThrows ()).sleeps = [100] ∧
      ¬ delayAboveCap.SleepsRight
        (delayAboveCap.withRetry stillSurroundings alwaysThrows ()).sleeps := by
  have hsleeps : (delayAboveCap.withRetry stillSurroundings alwaysThrows ()).sleeps = [100] := by
    rfl
  refine ⟨hsleeps, fun hright => ?_⟩
  rw [hsleeps] at hright
  exact absurd (hright.bounded 100 (by simp)).right (by decide)

end RetryConfig
end Resilience
end CppCommons
