import CppCommons.Resilience.BreakerCalls

/-!
# What the failure counter counts

While the breaker is closed, `failure_count_` is the number of failure reports
since the last success report or since the breaker was last closed, whichever
came later.  In the other states it is only bounded: late reports keep changing
it.
-/

namespace CppCommons
namespace Resilience
namespace SharedBreaker

open Cxx
open CircuitBreaker
open Foundation.LabelledRun

variable {callId : Type}

def restarts (e : BreakerEvent callId) : Bool :=
  decide (e.kind = .succeeded) || (decide (e.before ≠ .closed) && decide (e.after = .closed))

/-- Failure reports since the counting last restarted. -/
def failuresSince (log : List (BreakerEvent callId)) : Nat :=
  (log.takeWhile (fun e => !restarts e)).countP (fun e => decide (e.kind = .failed))

theorem failuresSince_cons_restart {e : BreakerEvent callId} (h : restarts e = true)
    (log : List (BreakerEvent callId)) : failuresSince (e :: log) = 0 := by
  unfold failuresSince
  rw [List.takeWhile_cons_of_neg (by simp [h])]
  rfl

theorem failuresSince_cons_failed {e : BreakerEvent callId} (h : restarts e = false)
    (hkind : e.kind = .failed) (log : List (BreakerEvent callId)) :
    failuresSince (e :: log) = failuresSince log + 1 := by
  unfold failuresSince
  rw [List.takeWhile_cons_of_pos (by simp [h]), List.countP_cons_of_pos (by simp [hkind])]

theorem failuresSince_cons_other {e : BreakerEvent callId} (h : restarts e = false)
    (hkind : e.kind ≠ .failed) (log : List (BreakerEvent callId)) :
    failuresSince (e :: log) = failuresSince log := by
  unfold failuresSince
  rw [List.takeWhile_cons_of_pos (by simp [h]), List.countP_cons_of_neg (by simp [hkind])]

structure Tally (cfg : CircuitBreakerConfig) (w : SharedBreaker callId) : Prop where
  cfg : w.breaker.cfg = cfg
  bounded : Bounded w.breaker
  count : w.breaker.state = .closed -> w.breaker.failureCount.toNat = failuresSince w.log

theorem tally_start (cfg : CircuitBreakerConfig) :
    Tally cfg (start cfg : SharedBreaker callId) := by
  refine ⟨rfl, ⟨effective_pos _, ?_⟩, ?_⟩
  · intro hhalf
    cases hhalf
  · intro _hclosed
    rfl

variable [DecidableEq callId]

theorem tally_admitted {cfg : CircuitBreakerConfig} {w : SharedBreaker callId}
    (h : Tally cfg w) (i : callId) (ph : CallPhase) :
    Tally cfg (w.record i .admitted ph w.breaker) := by
  constructor
  · exact h.cfg
  · exact h.bounded
  · intro hclosed
    have hstays : w.breaker.state = .closed := hclosed
    rw [record, failuresSince_cons_other (by simp [restarts, hstays]) (by simp)]
    exact h.count hstays

theorem tally_entered {cfg : CircuitBreakerConfig} {w : SharedBreaker callId}
    (h : Tally cfg w) (i : callId) (ph : CallPhase) :
    Tally cfg (w.record i .admitted ph
      { w.breaker with state := .halfOpen, successCount := 0 }) := by
  constructor
  · exact h.cfg
  · exact ⟨h.bounded.failure, fun _ => effective_pos _⟩
  · intro hclosed
    cases hclosed

theorem tally_succeeded {cfg : CircuitBreakerConfig} {w : SharedBreaker callId}
    (h : Tally cfg w) {b : CircuitBreaker} (hstep : Succeeded w.breaker b) (i : callId)
    (ph : CallPhase) : Tally cfg (w.record i .succeeded ph b) := by
  have hcfg : b.cfg = cfg := by
    cases hstep with
    | reset hhalf => exact h.cfg
    | closes hhalf hreached => exact h.cfg
    | counts hhalf hmore => exact h.cfg
  constructor
  · exact hcfg
  · exact bounded_of_succeeded h.bounded hstep
  · intro hclosed
    rw [record, failuresSince_cons_restart (by simp [restarts])]
    cases hstep with
    | reset hhalf => rfl
    | closes hhalf hreached => rfl
    | counts hhalf hmore =>
        -- The breaker stays half-open here, and there the failure counter is kept.
        have hstays : w.breaker.state = .closed := hclosed
        rw [hstays] at hhalf
        cases hhalf

theorem tally_failed {cfg : CircuitBreakerConfig} {w : SharedBreaker callId}
    (h : Tally cfg w) {b : CircuitBreaker} {now : Nanoseconds}
    (hstep : Failed w.breaker now b) (i : callId) (ph : CallPhase) :
    Tally cfg (w.record i .failed ph b) := by
  have hcfg : b.cfg = cfg := by
    cases hstep with
    | opens hcause => exact h.cfg
    | counts hhalf hmore => exact h.cfg
  constructor
  · exact hcfg
  · exact bounded_of_failed h.bounded hstep
  · intro hclosed
    cases hstep with
    | opens hcause => cases hclosed
    | counts hhalf hmore =>
        have hstays : w.breaker.state = .closed := hclosed
        rw [record, failuresSince_cons_failed (by simp [restarts, hstays]) rfl, ← h.count hstays]
        exact toNat_succ h.bounded.failure

theorem tally_step {cfg : CircuitBreakerConfig} {w v : SharedBreaker callId}
    {a : BreakerAction callId} (h : Tally cfg w) (hstep : Stepped w a v) : Tally cfg v := by
  cases hstep with
  | admitted hphase hstate => exact tally_admitted h _ _
  | entered hphase hstate helapsed => exact tally_entered h _ _
  | rejected hphase hstate hearly =>
      constructor
      · exact h.cfg
      · exact h.bounded
      · intro hclosed
        rw [record] at hclosed
        rw [hstate] at hclosed
        cases hclosed
  | succeeded hphase => exact tally_succeeded h (succeeded_onSuccess h.bounded) _ _
  | failed hphase => exact tally_failed h (failed_onFailure h.bounded _) _ _

theorem tally_of_run {cfg : CircuitBreakerConfig} {w : SharedBreaker callId}
    {actions : List (BreakerAction callId)} (hrun : run step (start cfg) actions = some w) :
    Tally cfg w :=
  invariant_of_run (P := fun _ w => Tally cfg w) (tally_start cfg)
    (fun _ _ _ _ _ h hstep => tally_step h (stepped_of_step hstep)) hrun

theorem opens_iff_of_tally {cfg : CircuitBreakerConfig} {w v : SharedBreaker callId}
    {a : BreakerAction callId} (h : Tally cfg w) (hstep : Stepped w a v)
    (hclosed : w.breaker.state = .closed) :
    v.breaker.state = .opened <->
      exists i now, a = .fail i now ∧
        failuresSince w.log + 1 = effective cfg.failureThreshold := by
  have hcount := h.count hclosed
  have hcfg := h.cfg
  cases hstep with
  | admitted hphase hstate =>
      simp [record, hclosed]
  | entered hphase hstate helapsed =>
      rw [hclosed] at hstate
      cases hstate
  | rejected hphase hstate hearly =>
      rw [hclosed] at hstate
      cases hstate
  | succeeded hphase =>
      have hnot : w.breaker.state ≠ .halfOpen := by
        rw [hclosed]
        simp
      simp [record, onSuccess_of_not_halfOpen hnot, hclosed]
  | failed hphase =>
      rename_i i now
      have hnot : w.breaker.state ≠ .halfOpen := by
        rw [hclosed]
        simp
      rw [← hcount, ← hcfg]
      by_cases hreached :
          w.breaker.failureCount.toNat + 1 = effective w.breaker.cfg.failureThreshold
      · rw [record, onFailure_reached h.bounded.failure hreached]
        exact ⟨fun _ => ⟨i, now, rfl, hreached⟩, fun _ => rfl⟩
      · rw [record, onFailure_below hnot h.bounded.failure hreached]
        constructor
        · intro hopened
          have hstays : w.breaker.state = .opened := hopened
          rw [hclosed] at hstays
          cases hstays
        · intro hfilled
          rcases hfilled with ⟨_j, _t, _ha, hfilled⟩
          exact absurd hfilled hreached

/--
For every interleaving and every clock: the counters stay below their effective
thresholds, so that no increment wraps, and a closed breaker opens exactly at
the failure report that makes the failures since the last restart reach the
effective threshold.
-/
theorem failureCount_of_run (cfg : CircuitBreakerConfig) (actions : List (BreakerAction callId))
    (w : SharedBreaker callId) (hrun : run step (start cfg) actions = some w) :
    (w.breaker.failureCount.toNat < max 1 cfg.failureThreshold.toNat ∧
      (w.breaker.failureCount + 1).toNat = w.breaker.failureCount.toNat + 1 ∧
      (w.breaker.state = .halfOpen ->
        w.breaker.successCount.toNat < max 1 cfg.successThreshold.toNat ∧
        (w.breaker.successCount + 1).toNat = w.breaker.successCount.toNat + 1)) ∧
    (w.breaker.state = .closed -> forall a v, step w a = some v ->
      (v.breaker.state = .opened <->
        exists i now, a = .fail i now ∧
          failuresSince w.log + 1 = max 1 cfg.failureThreshold.toNat)) := by
  have htally := tally_of_run hrun
  have hfailure := htally.bounded.failure
  have hsuccess := htally.bounded.success
  rw [htally.cfg] at hfailure hsuccess
  refine ⟨⟨hfailure, toNat_succ hfailure, ?_⟩, ?_⟩
  · intro hhalf
    exact ⟨hsuccess hhalf, toNat_succ (hsuccess hhalf)⟩
  · intro hclosed a v hstep
    exact opens_iff_of_tally htally (stepped_of_step hstep) hclosed

def interruptedFailures : List (BreakerAction Nat) :=
  [.check 0 0, .check 1 0, .check 2 0, .check 3 0, .fail 0 1, .succeed 1, .fail 2 2]

theorem interruptedFailures_then_open :
    exists w v, run step (start { failureThreshold := 2 }) interruptedFailures = some w ∧
      step w (.fail 3 3) = some v ∧ v.breaker.state = .opened ∧
      w.breaker.failureCount.toNat < 2 := by
  have hrun : exists w v, run step (start { failureThreshold := 2 }) interruptedFailures =
      some w ∧ step w (.fail 3 3) = some v ∧ w.breaker.state = .closed ∧
      failuresSince w.log + 1 = 2 := ⟨_, _, rfl, rfl, rfl, rfl⟩
  rcases hrun with ⟨w, v, hw, hv, hclosed, hcount⟩
  rcases failureCount_of_run { failureThreshold := 2 } interruptedFailures w hw with
    ⟨hbounds, hopens⟩
  exact ⟨w, v, hw, hv, (hopens hclosed (.fail 3 3) v hv).mpr ⟨3, 3, rfl, hcount⟩, hbounds.left⟩

end SharedBreaker
end Resilience
end CppCommons
