import CppCommons.Foundation.Machine
import CppCommons.Resilience.CircuitBreaker

/-!
# Calls that do not overlap

The reference machine says what the breaker is for: a streak of failures opens
it, an open breaker rejects calls for a fixed time, and a streak of successes
closes it again.  It counts with natural numbers and has no counter that a
state does not use.  The breaker is observationally equal to it.
-/

namespace CppCommons
namespace Resilience

open Cxx
open Foundation

/-- One use of `call`: the two readings, and what `fn` does if it is invoked. -/
structure CallInput (value exn : Type) where
  checkNow : Nanoseconds
  reportNow : Nanoseconds
  fn : Except exn value

/-- What is seen of a call: its report, and `is_open()` afterwards. -/
structure Observation (value exn : Type) where
  report : CallReport value exn
  isOpen : Bool

inductive Reference where
  | closed (failures : Nat)
  | opened (since : Nanoseconds)
  | halfOpen (successes : Nat)
deriving DecidableEq

variable {value exn : Type}

namespace Reference

/-- The failures and successes in a row that are asked for, and the time a
breaker stays open. -/
structure Limits where
  failures : Nat
  successes : Nat
  openDuration : Nanoseconds

def invoked (fn : Except exn value) : CallReport value exn :=
  match fn with
  | .ok result => { invocations := 1, outcome := .ok result }
  | .error e => { invocations := 1, outcome := .error (.rethrown e) }

def rejected : CallReport value exn :=
  { invocations := 0, outcome := .error (.circuitOpen { what := "circuit is open" }) }

def afterClosed (limits : Limits) (failures : Nat) (c : CallInput value exn) : Reference :=
  match c.fn with
  | .ok _ => .closed 0
  | .error _ =>
      if failures + 1 = limits.failures then .opened c.reportNow else .closed (failures + 1)

def afterHalfOpen (limits : Limits) (successes : Nat) (c : CallInput value exn) : Reference :=
  match c.fn with
  | .ok _ => if successes + 1 = limits.successes then .closed 0 else .halfOpen (successes + 1)
  | .error _ => .opened c.reportNow

def call (limits : Limits) (r : Reference) (c : CallInput value exn) :
    Reference × CallReport value exn :=
  match r with
  | .closed failures => (afterClosed limits failures c, invoked c.fn)
  | .opened since =>
      if c.checkNow - since < limits.openDuration then (.opened since, rejected)
      else (afterHalfOpen limits 0 c, invoked c.fn)
  | .halfOpen successes => (afterHalfOpen limits successes c, invoked c.fn)

def isOpen : Reference -> Bool
  | .opened _ => true
  | _ => false

def machine (limits : Limits) : Machine Reference (CallInput value exn) (Observation value exn) :=
  { start := .closed 0
    step := fun r c =>
      ((r.call limits c).fst,
        { report := (r.call limits c).snd, isOpen := (r.call limits c).fst.isOpen }) }

theorem call_of_early {limits : Limits} {since : Nanoseconds} {c : CallInput value exn}
    (h : c.checkNow - since < limits.openDuration) :
    (opened since).call limits c = (.opened since, rejected) := by
  unfold call
  simp only [if_pos h]

theorem call_of_elapsed {limits : Limits} {since : Nanoseconds} {c : CallInput value exn}
    (h : ¬ c.checkNow - since < limits.openDuration) :
    (opened since).call limits c = (afterHalfOpen limits 0 c, invoked c.fn) := by
  unfold call
  simp only [if_neg h]

end Reference

namespace CircuitBreaker

/-- The breaker as a machine: `call`, then a look at `is_open()`. -/
def machine (cfg : CircuitBreakerConfig) :
    Machine CircuitBreaker (CallInput value exn) (Observation value exn) :=
  { start := { cfg := cfg }
    step := fun b c =>
      ((b.call c.checkNow c.reportNow c.fn).fst,
        { report := (b.call c.checkNow c.reportNow c.fn).snd
          isOpen := (b.call c.checkNow c.reportNow c.fn).fst.isOpen }) }

def limits (cfg : CircuitBreakerConfig) : Reference.Limits :=
  { failures := effective cfg.failureThreshold
    successes := effective cfg.successThreshold
    openDuration := nanoseconds cfg.openDuration }

/-!
## The simulation

Each reference state fixes the counter that matters in it.
-/

inductive Represents (cfg : CircuitBreakerConfig) (b : CircuitBreaker) : Reference -> Prop where
  | closed (hcfg : b.cfg = cfg) (hstate : b.state = .closed)
      (hbelow : b.failureCount.toNat < effective cfg.failureThreshold) :
      Represents cfg b (.closed b.failureCount.toNat)
  | opened (hcfg : b.cfg = cfg) (hstate : b.state = .opened) :
      Represents cfg b (.opened b.openedAt)
  | halfOpen (hcfg : b.cfg = cfg) (hstate : b.state = .halfOpen)
      (hbelow : b.successCount.toNat < effective cfg.successThreshold) :
      Represents cfg b (.halfOpen b.successCount.toNat)

def afterReport (b : CircuitBreaker) (reportNow : Nanoseconds) (fn : Except exn value) :
    CircuitBreaker :=
  match fn with
  | .ok _ => b.onSuccess
  | .error _ => b.onFailure reportNow

theorem call_of_rejected {b b' : CircuitBreaker} {e : CircuitOpenError} {now : Nanoseconds}
    (h : b.checkState now = (b', .error e)) (reportNow : Nanoseconds) (fn : Except exn value) :
    b.call now reportNow fn =
      (b', { invocations := 0, outcome := .error (.circuitOpen e) }) := by
  unfold call
  rw [h]

theorem call_of_admitted {b b' : CircuitBreaker} {now : Nanoseconds}
    (h : b.checkState now = (b', .ok ())) (reportNow : Nanoseconds) (fn : Except exn value) :
    b.call now reportNow fn = (b'.afterReport reportNow fn, Reference.invoked fn) := by
  unfold call
  rw [h]
  cases fn with
  | ok result => rfl
  | error e => rfl

theorem represents_afterClosed {cfg : CircuitBreakerConfig} {b : CircuitBreaker}
    (hcfg : b.cfg = cfg) (hstate : b.state = .closed)
    (hbelow : b.failureCount.toNat < effective cfg.failureThreshold)
    (c : CallInput value exn) :
    Represents cfg (b.afterReport c.reportNow c.fn)
      (Reference.afterClosed (limits cfg) b.failureCount.toNat c) := by
  subst hcfg
  have hnot : b.state ≠ .halfOpen := by
    rw [hstate]
    simp
  unfold afterReport Reference.afterClosed limits
  cases c.fn with
  | ok result =>
      simp only
      rw [onSuccess_of_not_halfOpen hnot]
      exact Represents.closed rfl hstate (effective_pos _)
  | error e =>
      simp only
      split_ifs with hreached
      · rw [onFailure_reached hbelow hreached]
        exact Represents.opened rfl rfl
      · rw [onFailure_below hnot hbelow hreached, ← toNat_succ hbelow]
        refine Represents.closed rfl hstate ?_
        simp only [toNat_succ hbelow]
        exact Nat.lt_of_le_of_ne hbelow hreached

theorem represents_afterHalfOpen {cfg : CircuitBreakerConfig} {b : CircuitBreaker}
    (hcfg : b.cfg = cfg) (hstate : b.state = .halfOpen)
    (hbelow : b.successCount.toNat < effective cfg.successThreshold)
    (c : CallInput value exn) :
    Represents cfg (b.afterReport c.reportNow c.fn)
      (Reference.afterHalfOpen (limits cfg) b.successCount.toNat c) := by
  subst hcfg
  unfold afterReport Reference.afterHalfOpen limits
  cases c.fn with
  | ok result =>
      simp only
      split_ifs with hreached
      · rw [onSuccess_reached hstate hbelow hreached]
        exact Represents.closed rfl rfl (effective_pos _)
      · rw [onSuccess_below hstate hbelow hreached, ← toNat_succ hbelow]
        refine Represents.halfOpen rfl hstate ?_
        simp only [toNat_succ hbelow]
        exact Nat.lt_of_le_of_ne hbelow hreached
  | error e =>
      simp only
      rw [onFailure_of_halfOpen hstate]
      exact Represents.opened rfl rfl

theorem represents_call {cfg : CircuitBreakerConfig} {b : CircuitBreaker} {r : Reference}
    (h : Represents cfg b r) (c : CallInput value exn) :
    Represents cfg (b.call c.checkNow c.reportNow c.fn).fst (r.call (limits cfg) c).fst ∧
      (b.call c.checkNow c.reportNow c.fn).snd = (r.call (limits cfg) c).snd := by
  cases h with
  | closed hcfg hstate hbelow =>
      have hcheck := checkState_of_not_opened (b := b) (by rw [hstate]; simp) c.checkNow
      rw [call_of_admitted hcheck]
      exact ⟨represents_afterClosed hcfg hstate hbelow c, rfl⟩
  | opened hcfg hstate =>
      subst hcfg
      by_cases hearly : c.checkNow - b.openedAt < (limits b.cfg).openDuration
      · have hcheck := checkState_of_early hstate (Int.not_le.mpr hearly)
        rw [call_of_rejected hcheck, Reference.call_of_early hearly]
        exact ⟨Represents.opened rfl hstate, rfl⟩
      · have hcheck := checkState_of_elapsed hstate (Int.not_lt.mp hearly)
        rw [call_of_admitted hcheck, Reference.call_of_elapsed hearly]
        have hprobe := represents_afterHalfOpen
          (b := { b with state := .halfOpen, successCount := 0 }) rfl rfl (effective_pos _) c
        exact ⟨hprobe, rfl⟩
  | halfOpen hcfg hstate hbelow =>
      have hcheck := checkState_of_not_opened (b := b) (by rw [hstate]; simp) c.checkNow
      rw [call_of_admitted hcheck]
      exact ⟨represents_afterHalfOpen hcfg hstate hbelow c, rfl⟩

theorem isOpen_of_represents {cfg : CircuitBreakerConfig} {b : CircuitBreaker} {r : Reference}
    (h : Represents cfg b r) : b.isOpen = r.isOpen := by
  unfold isOpen Reference.isOpen
  cases h with
  | closed hcfg hstate hbelow =>
      rw [hstate]
      rfl
  | opened hcfg hstate =>
      rw [hstate]
      rfl
  | halfOpen hcfg hstate hbelow =>
      rw [hstate]
      rfl

theorem simulation (cfg : CircuitBreakerConfig) :
    Machine.Simulation (machine cfg : Machine _ (CallInput value exn) _)
      (Reference.machine (limits cfg)) (Represents cfg) := by
  constructor
  · exact Represents.closed rfl rfl (effective_pos _)
  · intro b r c h
    exact (represents_call h c).left
  · intro b r c h
    have hcall := represents_call h c
    simp only [machine, Reference.machine, hcall.right, isOpen_of_represents hcall.left]

/-- For every configuration, every sequence of calls and every clock, the
breaker and the reference machine are seen to do the same. -/
theorem breaker_eq_reference (cfg : CircuitBreakerConfig)
    (calls : List (CallInput value exn)) :
    (machine cfg).outputs calls =
      (Reference.machine
        { failures := max 1 cfg.failureThreshold.toNat
          successes := max 1 cfg.successThreshold.toNat
          openDuration := nanoseconds cfg.openDuration }).outputs calls :=
  Machine.outputs_eq_of_simulation (simulation cfg) calls

end CircuitBreaker
end Resilience
end CppCommons
