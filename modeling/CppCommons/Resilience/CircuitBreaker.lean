import CppCommons.Cxx.StandardLibrary

/-!
# Circuit breaker

`CircuitBreaker` with its three locked steps `check_state`, `on_success` and
`on_failure`, and `call`, which wraps them around a function.  The counters are
the 32-bit words of the source; readings of the clock are arguments.
-/

namespace CppCommons
namespace Resilience

open Cxx

structure CircuitBreakerConfig where
  failureThreshold : UInt32 := 5
  successThreshold : UInt32 := 2
  openDuration : Int := 30
deriving DecidableEq

inductive BreakerState where
  | closed
  | opened
  | halfOpen
deriving DecidableEq

structure CircuitOpenError where
  what : String
deriving DecidableEq

structure CircuitBreaker where
  cfg : CircuitBreakerConfig
  state : BreakerState := .closed
  failureCount : UInt32 := 0
  successCount : UInt32 := 0
  openedAt : Nanoseconds := 0
deriving DecidableEq

/-- The exceptions that leave `call`. -/
inductive CallError (exn : Type) where
  | circuitOpen (error : CircuitOpenError)
  | rethrown (error : exn)
deriving DecidableEq

/-- What a caller sees: how often `fn` ran, and how `call` ended. -/
structure CallReport (value exn : Type) where
  invocations : Nat
  outcome : Except (CallError exn) value

namespace CircuitBreaker

def isOpen (b : CircuitBreaker) : Bool :=
  decide (b.state = .opened)

def checkState (b : CircuitBreaker) (now : Nanoseconds) :
    CircuitBreaker × Except CircuitOpenError Unit :=
  if b.state = .opened then
    if nanoseconds b.cfg.openDuration <= now - b.openedAt then
      ({ b with state := .halfOpen, successCount := 0 }, .ok ())
    else (b, .error { what := "circuit is open" })
  else (b, .ok ())

def onSuccess (b : CircuitBreaker) : CircuitBreaker :=
  if b.state = .halfOpen then
    let b' := { b with successCount := b.successCount + 1 }
    if b'.cfg.successThreshold <= b'.successCount then
      { b' with state := .closed, failureCount := 0 }
    else b'
  else { b with failureCount := 0 }

def onFailure (b : CircuitBreaker) (now : Nanoseconds) : CircuitBreaker :=
  let b' := { b with failureCount := b.failureCount + 1 }
  if b'.state = .halfOpen ∨ b'.cfg.failureThreshold <= b'.failureCount then
    { b' with state := .opened, openedAt := now, failureCount := 0 }
  else b'

/-- `call(fn)` with the readings `check_state` and `on_failure` would take. -/
def call {value exn : Type} (b : CircuitBreaker) (checkNow reportNow : Nanoseconds)
    (fn : Except exn value) : CircuitBreaker × CallReport value exn :=
  match b.checkState checkNow with
  | (b', .error e) => (b', { invocations := 0, outcome := .error (.circuitOpen e) })
  | (b', .ok ()) =>
      match fn with
      | .ok result => (b'.onSuccess, { invocations := 1, outcome := .ok result })
      | .error e =>
          (b'.onFailure reportNow, { invocations := 1, outcome := .error (.rethrown e) })

/-!
## Steps by state

What the three steps do, by the state in which they find the breaker.
-/

theorem checkState_of_not_opened {b : CircuitBreaker} (h : b.state ≠ .opened)
    (now : Nanoseconds) : b.checkState now = (b, .ok ()) := by
  unfold checkState
  rw [if_neg h]

theorem checkState_of_elapsed {b : CircuitBreaker} (h : b.state = .opened) {now : Nanoseconds}
    (helapsed : nanoseconds b.cfg.openDuration <= now - b.openedAt) :
    b.checkState now = ({ b with state := .halfOpen, successCount := 0 }, .ok ()) := by
  unfold checkState
  rw [if_pos h, if_pos helapsed]

theorem checkState_of_early {b : CircuitBreaker} (h : b.state = .opened) {now : Nanoseconds}
    (hearly : ¬ nanoseconds b.cfg.openDuration <= now - b.openedAt) :
    b.checkState now = (b, .error { what := "circuit is open" }) := by
  unfold checkState
  rw [if_pos h, if_neg hearly]

theorem onSuccess_of_not_halfOpen {b : CircuitBreaker} (h : b.state ≠ .halfOpen) :
    b.onSuccess = { b with failureCount := 0 } := by
  unfold onSuccess
  rw [if_neg h]

theorem onFailure_of_halfOpen {b : CircuitBreaker} (h : b.state = .halfOpen)
    (now : Nanoseconds) :
    b.onFailure now = { b with state := .opened, openedAt := now, failureCount := 0 } := by
  unfold onFailure
  simp only [h, true_or, if_true]

/-!
## Counters below their thresholds

A threshold of zero acts like one, because a counter is compared only after it
has been incremented.
-/

/-- The number of reports a threshold asks for. -/
def effective (threshold : UInt32) : Nat :=
  max 1 threshold.toNat

theorem effective_lt (threshold : UInt32) : effective threshold < 2 ^ 32 :=
  Nat.max_lt.mpr ⟨by decide, threshold.toNat_lt⟩

theorem effective_pos (threshold : UInt32) : 0 < effective threshold :=
  Nat.le_max_left 1 threshold.toNat

theorem toNat_succ {count threshold : UInt32} (h : count.toNat < effective threshold) :
    (count + 1).toNat = count.toNat + 1 := by
  have hlt : count.toNat + 1 < 2 ^ 32 := Nat.lt_of_le_of_lt h (effective_lt threshold)
  rw [UInt32.toNat_add]
  exact Nat.mod_eq_of_lt hlt

/-- The incremented counter passes the test exactly when it reaches the effective threshold. -/
theorem threshold_le_succ_iff {count threshold : UInt32}
    (h : count.toNat < effective threshold) :
    threshold <= count + 1 <-> count.toNat + 1 = effective threshold := by
  rw [UInt32.le_iff_toNat_le, toNat_succ h]
  unfold effective at h ⊢
  constructor
  · intro hle
    exact Nat.le_antisymm h (Nat.max_le.mpr ⟨Nat.le_add_left 1 count.toNat, hle⟩)
  · intro heq
    rw [heq]
    exact Nat.le_max_right 1 threshold.toNat

theorem onSuccess_reached {b : CircuitBreaker} (h : b.state = .halfOpen)
    (hbelow : b.successCount.toNat < effective b.cfg.successThreshold)
    (hreached : b.successCount.toNat + 1 = effective b.cfg.successThreshold) :
    b.onSuccess =
      { b with successCount := b.successCount + 1, state := .closed, failureCount := 0 } := by
  unfold onSuccess
  simp only [h, if_true, if_pos ((threshold_le_succ_iff hbelow).mpr hreached)]

theorem onSuccess_below {b : CircuitBreaker} (h : b.state = .halfOpen)
    (hbelow : b.successCount.toNat < effective b.cfg.successThreshold)
    (hmore : b.successCount.toNat + 1 ≠ effective b.cfg.successThreshold) :
    b.onSuccess = { b with successCount := b.successCount + 1 } := by
  unfold onSuccess
  simp only [h, if_true, if_neg (fun hle => hmore ((threshold_le_succ_iff hbelow).mp hle))]

theorem onFailure_reached {b : CircuitBreaker}
    (hbelow : b.failureCount.toNat < effective b.cfg.failureThreshold)
    (hreached : b.failureCount.toNat + 1 = effective b.cfg.failureThreshold)
    (now : Nanoseconds) :
    b.onFailure now = { b with state := .opened, openedAt := now, failureCount := 0 } := by
  unfold onFailure
  simp only [if_pos (Or.inr ((threshold_le_succ_iff hbelow).mpr hreached))]

theorem onFailure_below {b : CircuitBreaker} (h : b.state ≠ .halfOpen)
    (hbelow : b.failureCount.toNat < effective b.cfg.failureThreshold)
    (hmore : b.failureCount.toNat + 1 ≠ effective b.cfg.failureThreshold)
    (now : Nanoseconds) :
    b.onFailure now = { b with failureCount := b.failureCount + 1 } := by
  have hnot : ¬ (b.state = .halfOpen ∨ b.cfg.failureThreshold <= b.failureCount + 1) := by
    intro hor
    rcases hor with hhalf | hle
    · exact h hhalf
    · exact hmore ((threshold_le_succ_iff hbelow).mp hle)
  unfold onFailure
  simp only [if_neg hnot]

structure Bounded (b : CircuitBreaker) : Prop where
  failure : b.failureCount.toNat < effective b.cfg.failureThreshold
  success : b.state = .halfOpen -> b.successCount.toNat < effective b.cfg.successThreshold

inductive Succeeded (b : CircuitBreaker) : CircuitBreaker -> Prop where
  | reset : b.state ≠ .halfOpen -> Succeeded b { b with failureCount := 0 }
  | closes : b.state = .halfOpen ->
      b.successCount.toNat + 1 = effective b.cfg.successThreshold ->
      Succeeded b
        { b with successCount := b.successCount + 1, state := .closed, failureCount := 0 }
  | counts : b.state = .halfOpen ->
      b.successCount.toNat + 1 < effective b.cfg.successThreshold ->
      Succeeded b { b with successCount := b.successCount + 1 }

inductive Failed (b : CircuitBreaker) (now : Nanoseconds) : CircuitBreaker -> Prop where
  | opens : b.state = .halfOpen ∨
        b.failureCount.toNat + 1 = effective b.cfg.failureThreshold ->
      Failed b now { b with state := .opened, openedAt := now, failureCount := 0 }
  | counts : b.state ≠ .halfOpen ->
      b.failureCount.toNat + 1 < effective b.cfg.failureThreshold ->
      Failed b now { b with failureCount := b.failureCount + 1 }

theorem succeeded_onSuccess {b : CircuitBreaker} (h : Bounded b) : Succeeded b b.onSuccess := by
  by_cases hhalf : b.state = .halfOpen
  · by_cases hreached : b.successCount.toNat + 1 = effective b.cfg.successThreshold
    · rw [onSuccess_reached hhalf (h.success hhalf) hreached]
      exact Succeeded.closes hhalf hreached
    · rw [onSuccess_below hhalf (h.success hhalf) hreached]
      exact Succeeded.counts hhalf (Nat.lt_of_le_of_ne (h.success hhalf) hreached)
  · rw [onSuccess_of_not_halfOpen hhalf]
    exact Succeeded.reset hhalf

theorem failed_onFailure {b : CircuitBreaker} (h : Bounded b) (now : Nanoseconds) :
    Failed b now (b.onFailure now) := by
  by_cases hhalf : b.state = .halfOpen
  · rw [onFailure_of_halfOpen hhalf]
    exact Failed.opens (Or.inl hhalf)
  · by_cases hreached : b.failureCount.toNat + 1 = effective b.cfg.failureThreshold
    · rw [onFailure_reached h.failure hreached]
      exact Failed.opens (Or.inr hreached)
    · rw [onFailure_below hhalf h.failure hreached]
      exact Failed.counts hhalf (Nat.lt_of_le_of_ne h.failure hreached)

theorem bounded_of_succeeded {b b' : CircuitBreaker} (h : Bounded b) (hstep : Succeeded b b') :
    Bounded b' := by
  cases hstep with
  | reset hhalf => exact ⟨effective_pos _, h.success⟩
  | closes hhalf hreached =>
      constructor
      · exact effective_pos _
      · intro hstate
        cases hstate
  | counts hhalf hmore =>
      constructor
      · exact h.failure
      · intro _hstate
        simp only [toNat_succ (h.success hhalf)]
        exact hmore

theorem bounded_of_failed {b b' : CircuitBreaker} {now : Nanoseconds} (h : Bounded b)
    (hstep : Failed b now b') : Bounded b' := by
  cases hstep with
  | opens hcause =>
      constructor
      · exact effective_pos _
      · intro hstate
        cases hstate
  | counts hhalf hmore =>
      constructor
      · simp only [toNat_succ h.failure]
        exact hmore
      · exact h.success

theorem halfOpen_of_succeeded {b b' : CircuitBreaker} (h : Bounded b) (hstep : Succeeded b b')
    (hhalf : b'.state = .halfOpen) :
    b.state = .halfOpen ∧ b'.successCount.toNat = b.successCount.toNat + 1 := by
  cases hstep with
  | reset hnot => exact absurd hhalf hnot
  | closes hbefore hreached => cases hhalf
  | counts hbefore hmore => exact ⟨hbefore, toNat_succ (h.success hbefore)⟩

theorem not_halfOpen_of_failed {b b' : CircuitBreaker} {now : Nanoseconds}
    (hstep : Failed b now b') : b'.state ≠ .halfOpen := by
  cases hstep with
  | opens hcause => simp
  | counts hnot hmore => exact hnot

end CircuitBreaker
end Resilience
end CppCommons
