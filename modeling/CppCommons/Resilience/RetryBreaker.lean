import CppCommons.Resilience.CircuitBreaker
import CppCommons.Resilience.RetryPolicy

/-!
# Retries around a circuit breaker

`with_retry` around `CircuitBreaker::call`.  The rejections of an open breaker
are exceptions too, so the retry loop goes on through them; the breaker does
not count them.
-/

namespace CppCommons
namespace Resilience

open Cxx
open CircuitBreaker
open RetryConfig

/-- The readings the breaker takes in the call of each attempt. -/
structure BreakerReadings where
  check : Nat -> Nanoseconds
  report : Nat -> Nanoseconds

/-- The breaker, the state of the function, and what has happened to them. -/
structure GuardedWorld (inner : Type) where
  breaker : CircuitBreaker
  inner : inner
  /-- calls of `CircuitBreaker::call` -/
  attempts : Nat := 0
  /-- calls of the function -/
  invocations : Nat := 0

variable {inner exn value : Type}

def guardedCall (readings : BreakerReadings) (fn : inner -> inner × Except exn value)
    (g : GuardedWorld inner) : GuardedWorld inner × Except (CallError exn) value :=
  let called := g.breaker.call (readings.check g.attempts) (readings.report g.attempts)
    (fn g.inner).snd
  let report := called.snd
  ({ breaker := called.fst
     inner := if report.invocations = 0 then g.inner else (fn g.inner).fst
     attempts := g.attempts + 1
     invocations := g.invocations + report.invocations }, report.outcome)

/-!
## One attempt

A failing call is counted by a closed breaker.  An open one rejects the attempt,
stays as it is and does not reach the function.
-/

theorem guardedCall_of_closed {readings : BreakerReadings}
    {fn : inner -> inner × Except exn value} {g : GuardedWorld inner} {e : exn}
    (hclosed : g.breaker.state = .closed) (hthrows : (fn g.inner).snd = .error e) :
    guardedCall readings fn g =
      ({ breaker := g.breaker.onFailure (readings.report g.attempts)
         inner := (fn g.inner).fst
         attempts := g.attempts + 1
         invocations := g.invocations + 1 }, .error (.rethrown e)) := by
  have hcheck := checkState_of_not_opened (b := g.breaker) (by simp [hclosed])
    (readings.check g.attempts)
  simp [guardedCall, call, hcheck, hthrows]

theorem guardedCall_of_open {readings : BreakerReadings}
    {fn : inner -> inner × Except exn value} {g : GuardedWorld inner}
    (hopen : g.breaker.state = .opened)
    (hearly : readings.check g.attempts - g.breaker.openedAt <
      nanoseconds g.breaker.cfg.openDuration) :
    guardedCall readings fn g =
      ({ g with attempts := g.attempts + 1 },
        .error (.circuitOpen { what := "circuit is open" })) := by
  have hcheck := checkState_of_early hopen (Int.not_le.mpr hearly)
  simp [guardedCall, call, hcheck]

theorem unchanged_of_circuitOpen {readings : BreakerReadings}
    {fn : inner -> inner × Except exn value} {g : GuardedWorld inner} {error : CircuitOpenError}
    (h : (guardedCall readings fn g).snd = .error (.circuitOpen error)) :
    (guardedCall readings fn g).fst.breaker = g.breaker ∧
      (guardedCall readings fn g).fst.invocations = g.invocations := by
  by_cases hopen : g.breaker.state = .opened
  · by_cases helapsed : nanoseconds g.breaker.cfg.openDuration <=
        readings.check g.attempts - g.breaker.openedAt
    · have hcheck := checkState_of_elapsed hopen helapsed
      cases hfn : (fn g.inner).snd <;> simp [guardedCall, call, hcheck, hfn] at h
    · rw [guardedCall_of_open hopen (Int.not_le.mp helapsed)]
      exact ⟨rfl, rfl⟩
  · have hcheck := checkState_of_not_opened hopen (readings.check g.attempts)
    cases hfn : (fn g.inner).snd <;> simp [guardedCall, call, hcheck, hfn] at h

/-!
## All attempts

By induction over the attempts: the failures are counted until the threshold is
reached, and from then on every attempt is rejected.
-/

/-- After `count` failing attempts: the failures are counted until the threshold
is reached; from then on the breaker is open and stays as it is. -/
inductive Progress (cfg : CircuitBreakerConfig) (readings : BreakerReadings) (count : Nat)
    (g : GuardedWorld inner) : Prop where
  | counting : count < effective cfg.failureThreshold -> g.breaker.cfg = cfg ->
      g.breaker.state = .closed -> g.breaker.failureCount.toNat = count ->
      g.attempts = count -> g.invocations = count -> Progress cfg readings count g
  | tripped : effective cfg.failureThreshold <= count -> g.breaker.cfg = cfg ->
      g.breaker.state = .opened ->
      g.breaker.openedAt = readings.report (effective cfg.failureThreshold - 1) ->
      g.attempts = count -> g.invocations = effective cfg.failureThreshold ->
      Progress cfg readings count g

variable {cfg : CircuitBreakerConfig} {readings : BreakerReadings}
  {fn : inner -> inner × Except exn value} {g : GuardedWorld inner} {count : Nat}

theorem progress_start (cfg : CircuitBreakerConfig) (readings : BreakerReadings) (s : inner) :
    Progress cfg readings 0 { breaker := { cfg := cfg }, inner := s } :=
  .counting (effective_pos cfg.failureThreshold) rfl rfl rfl rfl rfl

theorem progress_step (hthrows : forall s, exists e, (fn s).snd = .error e)
    (hearly : effective cfg.failureThreshold <= count ->
      readings.check count - readings.report (effective cfg.failureThreshold - 1) <
        nanoseconds cfg.openDuration)
    (h : Progress cfg readings count g) :
    Progress cfg readings (count + 1) (guardedCall readings fn g).fst ∧
      exists e, (guardedCall readings fn g).snd = .error e := by
  cases h with
  | counting hcount hcfg hclosed hfailures hattempts hinvocations =>
      rcases hthrows g.inner with ⟨e, he⟩
      rw [guardedCall_of_closed hclosed he]
      refine ⟨?_, _, rfl⟩
      have hbelow : g.breaker.failureCount.toNat < effective g.breaker.cfg.failureThreshold := by
        rw [hfailures, hcfg]
        exact hcount
      by_cases hreached : count + 1 = effective cfg.failureThreshold
      · have hfilled : g.breaker.failureCount.toNat + 1 =
            effective g.breaker.cfg.failureThreshold := by
          rw [hfailures, hcfg]
          exact hreached
        rw [onFailure_reached hbelow hfilled]
        refine .tripped (Nat.le_of_eq hreached.symm) hcfg rfl ?_ (by simp [hattempts])
          (by simp [hinvocations, hreached])
        rw [hattempts, ← hreached, Nat.add_sub_cancel]
      · have hmore : g.breaker.failureCount.toNat + 1 ≠
            effective g.breaker.cfg.failureThreshold := by
          rw [hfailures, hcfg]
          exact hreached
        rw [onFailure_below (by simp [hclosed]) hbelow hmore]
        refine .counting (by lia) hcfg hclosed ?_ (by simp [hattempts]) (by simp [hinvocations])
        rw [toNat_succ hbelow, hfailures]
  | tripped hcount hcfg hopen hstamp hattempts hinvocations =>
      have hwaiting : readings.check g.attempts - g.breaker.openedAt <
          nanoseconds g.breaker.cfg.openDuration := by
        rw [hattempts, hstamp, hcfg]
        exact hearly hcount
      rw [guardedCall_of_open hopen hwaiting]
      exact ⟨.tripped (Nat.le_succ_of_le hcount) hcfg hopen hstamp (by simp [hattempts])
        hinvocations, _, rfl⟩

theorem progress_worldAfter {limit : Nat} (hthrows : forall s, exists e, (fn s).snd = .error e)
    (hearly : forall i, effective cfg.failureThreshold <= i -> i < limit ->
      readings.check i - readings.report (effective cfg.failureThreshold - 1) <
        nanoseconds cfg.openDuration)
    (s : inner) (hcount : count <= limit) :
    Progress cfg readings count
      (worldAfter (guardedCall readings fn) { breaker := { cfg := cfg }, inner := s } count) := by
  induction count with
  | zero => exact progress_start cfg readings s
  | succ count ih =>
      rw [worldAfter_succ]
      have hbefore := ih (Nat.le_of_succ_le hcount)
      exact (progress_step hthrows (fun hopen => hearly count hopen hcount) hbefore).left

theorem invocations_of_progress (h : Progress cfg readings count g) :
    g.invocations = min count (effective cfg.failureThreshold) := by
  cases h with
  | counting hcount _ _ _ _ hinvocations =>
      rw [hinvocations, Nat.min_eq_left (Nat.le_of_lt hcount)]
  | tripped hcount _ _ _ _ hinvocations =>
      rw [hinvocations, Nat.min_eq_right hcount]

theorem isOpen_of_progress (h : Progress cfg readings count g) :
    g.breaker.isOpen = true <-> effective cfg.failureThreshold <= count := by
  unfold isOpen
  rw [decide_eq_true_iff]
  cases h with
  | counting hcount _ hclosed _ _ _ => simp [hclosed, hcount]
  | tripped hcount _ hopen _ _ _ => simp [hopen, hcount]

theorem openedAt_of_progress (h : Progress cfg readings count g)
    (hcount : effective cfg.failureThreshold <= count) :
    g.breaker.openedAt = readings.report (effective cfg.failureThreshold - 1) := by
  cases h with
  | counting hbelow _ _ _ _ _ => exact absurd hcount (Nat.not_le_of_lt hbelow)
  | tripped _ _ _ hstamp _ _ => exact hstamp

/--
A function that always throws, retried around a new breaker whose open period
outlasts the attempts: the function is called until the breaker opens or the
attempts are used up, whichever is first; the loop ends exhausted; the breaker
is open exactly when there were attempts enough to open it; and an attempt it
rejects changes nothing in it.
-/
theorem retry_trips_breaker (cfg : CircuitBreakerConfig) (hthreshold : 1 <= cfg.failureThreshold)
    (retry : RetryConfig (CallError exn)) (hretry : retry.shouldRetry = none)
    (hdeadline : retry.deadline = none) (around : RetrySurroundings)
    (fn : inner -> inner × Except exn value) (hthrows : forall s, exists e, (fn s).snd = .error e)
    (readings : BreakerReadings)
    (hearly : forall i, cfg.failureThreshold.toNat <= i -> i < retry.maxAttempts.toNat ->
      readings.check i - readings.report (cfg.failureThreshold.toNat - 1) <
        nanoseconds cfg.openDuration)
    (s : inner) :
    let start : GuardedWorld inner := { breaker := { cfg := cfg }, inner := s }
    let report := retry.withRetry around (guardedCall readings fn) start
    report.world.invocations = min retry.maxAttempts.toNat cfg.failureThreshold.toNat ∧
      report.exit = .retryExhausted "all retry attempts exhausted" ∧
      (report.world.breaker.isOpen = true <-> cfg.failureThreshold <= retry.maxAttempts) ∧
      (cfg.failureThreshold <= retry.maxAttempts ->
        report.world.breaker.openedAt = readings.report (cfg.failureThreshold.toNat - 1)) ∧
      (forall i error, i < retry.maxAttempts.toNat ->
        (guardedCall readings fn (worldAfter (guardedCall readings fn) start i)).snd =
          .error (.circuitOpen error) ->
        (worldAfter (guardedCall readings fn) start (i + 1)).breaker =
          (worldAfter (guardedCall readings fn) start i).breaker) := by
  intro start report
  have heffective : effective cfg.failureThreshold = cfg.failureThreshold.toNat :=
    Nat.max_eq_right (UInt32.le_iff_toNat_le.mp hthreshold)
  have hprogress : forall count, count <= retry.maxAttempts.toNat ->
      Progress cfg readings count (worldAfter (guardedCall readings fn) start count) := by
    intro count hcount
    apply progress_worldAfter hthrows _ s hcount
    rw [heffective]
    exact hearly
  have hfails : forall i, i < retry.maxAttempts.toNat ->
      exists e, (guardedCall readings fn
        (worldAfter (guardedCall readings fn) start i)).snd = .error e := by
    intro i hi
    refine (progress_step hthrows ?_ (hprogress i (Nat.le_of_lt hi))).right
    rw [heffective]
    exact fun hopen => hearly i hopen hi
  rcases withRetry_of_failing hretry hdeadline around hfails with ⟨hworld, hexit, _⟩
  have hend := hprogress retry.maxAttempts.toNat (Nat.le_refl _)
  rw [← hworld] at hend
  rw [UInt32.le_iff_toNat_le, ← heffective]
  refine ⟨invocations_of_progress hend, hexit, isOpen_of_progress hend,
    openedAt_of_progress hend, ?_⟩
  intro i error _hi hrejected
  rw [worldAfter_succ]
  exact (unchanged_of_circuitOpen hrejected).left

theorem retry_trips_breaker_at_two :
    let cfg : CircuitBreakerConfig := { failureThreshold := 2, openDuration := 60 }
    let readings : BreakerReadings := { check := fun i => i, report := fun i => i }
    let fn : Unit -> Unit × Except String Nat := fun s => (s, .error "always fails")
    let start : GuardedWorld Unit := { breaker := { cfg := cfg }, inner := () }
    let report := RetryConfig.withRetry { maxAttempts := 3, initialDelay := 0 }
      { before := fun _ => 0, after := fun _ => 0, draw := fun _ => 0 }
      (guardedCall readings fn) start
    report.world.invocations = 2 ∧ report.world.breaker.isOpen = true := by
  intro cfg readings fn start report
  have hearly : forall i : Nat, 2 <= i -> i < 3 ->
      ((i : Nat) : Int) - ((2 - 1 : Nat) : Int) < nanoseconds 60 := by
    intro i _hlow hhigh
    unfold nanoseconds
    lia
  rcases retry_trips_breaker cfg (by decide) { maxAttempts := 3, initialDelay := 0 }
    rfl rfl { before := fun _ => 0, after := fun _ => 0, draw := fun _ => 0 } fn
    (fun s => ⟨"always fails", rfl⟩) readings hearly () with ⟨hcalls, _, hopen, _, _⟩
  exact ⟨hcalls, hopen.mpr (by decide)⟩

end Resilience
end CppCommons
