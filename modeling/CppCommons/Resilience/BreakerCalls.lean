import CppCommons.Foundation.LabelledRun
import CppCommons.Resilience.CircuitBreaker

/-!
# Overlapping calls of one breaker

Calls interleave at the three locked steps.  A call that was admitted may
report in whatever state the breaker is by then.  The log records, newest
first, which call took which step and the state before and after it.
-/

namespace CppCommons
namespace Resilience

open Cxx
open Foundation.LabelledRun

inductive CallPhase where
  | waiting
  | running
  | ended
deriving DecidableEq

inductive BreakerAction (callId : Type) where
  | check (i : callId) (now : Nanoseconds)
  | succeed (i : callId)
  | fail (i : callId) (now : Nanoseconds)
deriving DecidableEq

inductive EventKind where
  | admitted
  | rejected
  | succeeded
  | failed
deriving DecidableEq

structure BreakerEvent (callId : Type) where
  call : callId
  kind : EventKind
  before : BreakerState
  after : BreakerState
deriving DecidableEq

structure SharedBreaker (callId : Type) where
  breaker : CircuitBreaker
  phase : callId -> CallPhase
  log : List (BreakerEvent callId)

namespace SharedBreaker

open CircuitBreaker

variable {callId : Type}

def start (cfg : CircuitBreakerConfig) : SharedBreaker callId :=
  { breaker := { cfg := cfg }, phase := fun _ => .waiting, log := [] }

variable [DecidableEq callId]

def record (w : SharedBreaker callId) (i : callId) (kind : EventKind) (ph : CallPhase)
    (b : CircuitBreaker) : SharedBreaker callId :=
  { breaker := b
    phase := Function.update w.phase i ph
    log := { call := i, kind := kind, before := w.breaker.state, after := b.state } :: w.log }

def step (w : SharedBreaker callId) : BreakerAction callId -> Option (SharedBreaker callId)
  | .check i now =>
      match w.phase i with
      | .waiting =>
          match w.breaker.checkState now with
          | (b, .ok ()) => some (w.record i .admitted .running b)
          | (b, .error _) => some (w.record i .rejected .ended b)
      | _ => none
  | .succeed i =>
      match w.phase i with
      | .running => some (w.record i .succeeded .ended w.breaker.onSuccess)
      | _ => none
  | .fail i now =>
      match w.phase i with
      | .running => some (w.record i .failed .ended (w.breaker.onFailure now))
      | _ => none

/-- What a step can do; an admitting check either leaves the breaker alone or
turns it from open to half-open. -/
inductive Stepped (w : SharedBreaker callId) :
    BreakerAction callId -> SharedBreaker callId -> Prop where
  | admitted {i : callId} {now : Nanoseconds} :
      w.phase i = .waiting -> w.breaker.state ≠ .opened ->
      Stepped w (.check i now) (w.record i .admitted .running w.breaker)
  | entered {i : callId} {now : Nanoseconds} :
      w.phase i = .waiting -> w.breaker.state = .opened ->
      nanoseconds w.breaker.cfg.openDuration <= now - w.breaker.openedAt ->
      Stepped w (.check i now)
        (w.record i .admitted .running { w.breaker with state := .halfOpen, successCount := 0 })
  | rejected {i : callId} {now : Nanoseconds} :
      w.phase i = .waiting -> w.breaker.state = .opened ->
      ¬ nanoseconds w.breaker.cfg.openDuration <= now - w.breaker.openedAt ->
      Stepped w (.check i now) (w.record i .rejected .ended w.breaker)
  | succeeded {i : callId} :
      w.phase i = .running ->
      Stepped w (.succeed i) (w.record i .succeeded .ended w.breaker.onSuccess)
  | failed {i : callId} {now : Nanoseconds} :
      w.phase i = .running ->
      Stepped w (.fail i now) (w.record i .failed .ended (w.breaker.onFailure now))

theorem stepped_of_step {w v : SharedBreaker callId} {a : BreakerAction callId}
    (h : step w a = some v) : Stepped w a v := by
  cases a with
  | check i now =>
      cases hphase : w.phase i with
      | waiting =>
          by_cases hopened : w.breaker.state = .opened
          · by_cases helapsed :
                nanoseconds w.breaker.cfg.openDuration <= now - w.breaker.openedAt
            · simp only [step, hphase, checkState_of_elapsed hopened helapsed] at h
              cases h
              exact Stepped.entered hphase hopened helapsed
            · simp only [step, hphase, checkState_of_early hopened helapsed] at h
              cases h
              exact Stepped.rejected hphase hopened helapsed
          · simp only [step, hphase, checkState_of_not_opened hopened] at h
            cases h
            exact Stepped.admitted hphase hopened
      | running =>
          simp only [step, hphase] at h
          cases h
      | ended =>
          simp only [step, hphase] at h
          cases h
  | succeed i =>
      cases hphase : w.phase i with
      | waiting =>
          simp only [step, hphase] at h
          cases h
      | running =>
          simp only [step, hphase] at h
          cases h
          exact Stepped.succeeded hphase
      | ended =>
          simp only [step, hphase] at h
          cases h
  | fail i now =>
      cases hphase : w.phase i with
      | waiting =>
          simp only [step, hphase] at h
          cases h
      | running =>
          simp only [step, hphase] at h
          cases h
          exact Stepped.failed hphase
      | ended =>
          simp only [step, hphase] at h
          cases h

/-!
## A call that is not interrupted

The steps of one call, taken in a row, do to the breaker what `call` does.
-/

def callSteps {value exn : Type} (b : CircuitBreaker) (i : callId)
    (checkNow reportNow : Nanoseconds) (fn : Except exn value) : List (BreakerAction callId) :=
  match (b.checkState checkNow).snd, fn with
  | .error _, _ => [.check i checkNow]
  | .ok (), .ok _ => [.check i checkNow, .succeed i]
  | .ok (), .error _ => [.check i checkNow, .fail i reportNow]

theorem run_admitted {w : SharedBreaker callId} {i : callId} {checkNow : Nanoseconds}
    {b b' : CircuitBreaker} {kind : EventKind} {report : BreakerAction callId}
    (hadmitted : step w (.check i checkNow) = some (w.record i .admitted .running b))
    (hreport : step (w.record i .admitted .running b) report =
      some ((w.record i .admitted .running b).record i kind .ended b')) :
    exists v, run step w [.check i checkNow, report] = some v ∧ v.breaker = b' ∧
      v.phase = Function.update w.phase i .ended := by
  refine ⟨(w.record i .admitted .running b).record i kind .ended b', ?_, rfl, ?_⟩
  · rw [run_cons_of_step hadmitted, run_singleton, hreport]
  · exact Function.update_idem _ _ _

theorem run_callSteps {value exn : Type} {w : SharedBreaker callId} {i : callId}
    (hphase : w.phase i = .waiting) (checkNow reportNow : Nanoseconds)
    (fn : Except exn value) :
    exists v, run step w (callSteps w.breaker i checkNow reportNow fn) = some v ∧
      v.breaker = (w.breaker.call checkNow reportNow fn).fst ∧
      v.phase = Function.update w.phase i .ended := by
  cases hcheck : w.breaker.checkState checkNow with
  | mk b result =>
      cases result with
      | error e =>
          refine ⟨w.record i .rejected .ended b, ?_, ?_, rfl⟩
          · simp [callSteps, hcheck, run_singleton, step, hphase]
          · simp [call, hcheck, record]
      | ok admitted =>
          have hstep : step w (.check i checkNow) = some (w.record i .admitted .running b) := by
            simp only [step, hphase, hcheck]
          have hrunning : (w.record i .admitted .running b).phase i = .running := by
            simp [record]
          cases fn with
          | ok result =>
              have hreport : step (w.record i .admitted .running b) (.succeed i) =
                  some ((w.record i .admitted .running b).record i .succeeded .ended
                    b.onSuccess) := by
                simp only [step, hrunning]
                rfl
              simp only [callSteps, call, hcheck]
              exact run_admitted hstep hreport
          | error e =>
              have hreport : step (w.record i .admitted .running b) (.fail i reportNow) =
                  some ((w.record i .admitted .running b).record i .failed .ended
                    (b.onFailure reportNow)) := by
                simp only [step, hrunning]
                rfl
              simp only [callSteps, call, hcheck]
              exact run_admitted hstep hreport

end SharedBreaker
end Resilience
end CppCommons
