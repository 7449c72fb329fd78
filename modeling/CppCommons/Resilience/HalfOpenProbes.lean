import CppCommons.Resilience.FailureCount

/-!
# Which successes close a half-open breaker

`on_success` looks at the state and not at the call that reports.  A half-open
breaker is closed by the right number of success reports since it became
half-open, and among them may be late ones, of calls that were admitted before.
-/

namespace CppCommons
namespace Resilience
namespace SharedBreaker

open Cxx
open CircuitBreaker
open Foundation.LabelledRun

variable {callId : Type}

def entersHalfOpen (e : BreakerEvent callId) : Bool :=
  decide (e.before ≠ .halfOpen) && decide (e.after = .halfOpen)

/-- The events since the breaker last became half-open, with the check that did it. -/
def period : List (BreakerEvent callId) -> List (BreakerEvent callId)
  | [] => []
  | e :: rest => if entersHalfOpen e then [e] else e :: period rest

def earlier : List (BreakerEvent callId) -> List (BreakerEvent callId)
  | [] => []
  | e :: rest => if entersHalfOpen e then rest else earlier rest

def callsOf (kind : EventKind) (log : List (BreakerEvent callId)) : List callId :=
  (log.filter (fun e => decide (e.kind = kind))).map (fun e => e.call)

/-- Calls that reported success in the current half-open period. -/
def successesIn (log : List (BreakerEvent callId)) : List callId :=
  callsOf .succeeded (period log)

theorem period_append_earlier (log : List (BreakerEvent callId)) :
    period log ++ earlier log = log := by
  induction log with
  | nil => rfl
  | cons e rest ih =>
      unfold period earlier
      split_ifs
      · rfl
      · rw [List.cons_append, ih]

theorem callsOf_append (kind : EventKind) (xs ys : List (BreakerEvent callId)) :
    callsOf kind (xs ++ ys) = callsOf kind xs ++ callsOf kind ys := by
  unfold callsOf
  rw [List.filter_append, List.map_append]

theorem callsOf_split (kind : EventKind) (log : List (BreakerEvent callId)) :
    callsOf kind log = callsOf kind (period log) ++ callsOf kind (earlier log) := by
  rw [← callsOf_append, period_append_earlier]

theorem callsOf_cons_self {e : BreakerEvent callId} {kind : EventKind} (h : e.kind = kind)
    (log : List (BreakerEvent callId)) :
    callsOf kind (e :: log) = e.call :: callsOf kind log := by
  unfold callsOf
  rw [List.filter_cons_of_pos (by simp [h]), List.map_cons]

theorem callsOf_cons_other {e : BreakerEvent callId} {kind : EventKind} (h : e.kind ≠ kind)
    (log : List (BreakerEvent callId)) : callsOf kind (e :: log) = callsOf kind log := by
  unfold callsOf
  rw [List.filter_cons_of_neg (by simp [h])]

theorem period_cons_of_stays {e : BreakerEvent callId} (h : e.before = .halfOpen)
    (log : List (BreakerEvent callId)) : period (e :: log) = e :: period log := by
  rw [period, if_neg (by simp [entersHalfOpen, h])]

theorem successesIn_cons_entered {e : BreakerEvent callId} (h : entersHalfOpen e = true)
    (hkind : e.kind ≠ .succeeded) (log : List (BreakerEvent callId)) :
    successesIn (e :: log) = [] := by
  unfold successesIn period
  rw [if_pos h, callsOf_cons_other hkind]
  rfl

theorem successesIn_cons_other {e : BreakerEvent callId} (h : e.before = .halfOpen)
    (hkind : e.kind ≠ .succeeded) (log : List (BreakerEvent callId)) :
    successesIn (e :: log) = successesIn log := by
  unfold successesIn
  rw [period_cons_of_stays h, callsOf_cons_other hkind]

theorem successesIn_cons_succeeded {e : BreakerEvent callId} (h : e.before = .halfOpen)
    (hkind : e.kind = .succeeded) (log : List (BreakerEvent callId)) :
    successesIn (e :: log) = e.call :: successesIn log := by
  unfold successesIn
  rw [period_cons_of_stays h, callsOf_cons_self hkind]

/-!
## Reports and admissions

Every call reports at most once, and only after it was admitted.
-/

structure Reports (w : SharedBreaker callId) : Prop where
  running : forall i, w.phase i = .running -> i ∈ callsOf .admitted w.log
  ended : forall i, i ∈ callsOf .succeeded w.log -> w.phase i = .ended
  admitted : forall i, i ∈ callsOf .succeeded w.log -> i ∈ callsOf .admitted w.log
  nodup : (callsOf .succeeded w.log).Nodup

theorem reports_start (cfg : CircuitBreakerConfig) :
    Reports (start cfg : SharedBreaker callId) := by
  constructor
  · intro i hi
    cases hi
  · intro i hi
    cases hi
  · intro i hi
    cases hi
  · exact List.nodup_nil

variable [DecidableEq callId]

theorem phase_record_self (w : SharedBreaker callId) (i : callId) (kind : EventKind)
    (ph : CallPhase) (b : CircuitBreaker) : (w.record i kind ph b).phase i = ph := by
  simp [record]

theorem phase_record_other (w : SharedBreaker callId) {i j : callId} (h : j ≠ i)
    (kind : EventKind) (ph : CallPhase) (b : CircuitBreaker) :
    (w.record i kind ph b).phase j = w.phase j := by
  simp only [record, Function.update_of_ne h]

theorem reports_check {w : SharedBreaker callId} (h : Reports w) {i : callId}
    (hwaiting : w.phase i = .waiting) {kind : EventKind} {ph : CallPhase}
    (hkind : kind = .admitted ∨ (kind = .rejected ∧ ph = .ended)) (b : CircuitBreaker) :
    Reports (w.record i kind ph b) := by
  have hadmitted : forall j, j ∈ callsOf .admitted w.log ->
      j ∈ callsOf .admitted (w.record i kind ph b).log := by
    intro j hj
    rcases hkind with hkind | hkind
    · rw [record, callsOf_cons_self hkind]
      exact List.mem_cons_of_mem _ hj
    · rw [record, callsOf_cons_other (by simp [hkind.left])]
      exact hj
  have hsucceeded : callsOf .succeeded (w.record i kind ph b).log = callsOf .succeeded w.log := by
    rw [record, callsOf_cons_other]
    rcases hkind with hkind | hkind
    · simp [hkind]
    · simp [hkind.left]
  constructor
  · intro j hj
    by_cases hji : j = i
    · rw [hji, phase_record_self] at hj
      rcases hkind with hkind | hkind
      · rw [hji, record, callsOf_cons_self hkind]
        exact List.mem_cons_self
      · rw [hkind.right] at hj
        cases hj
    · rw [phase_record_other w hji] at hj
      exact hadmitted j (h.running j hj)
  · intro j hj
    rw [hsucceeded] at hj
    have hended := h.ended j hj
    have hji : j ≠ i := by
      intro heq
      rw [heq, hwaiting] at hended
      cases hended
    rw [phase_record_other w hji]
    exact hended
  · intro j hj
    rw [hsucceeded] at hj
    exact hadmitted j (h.admitted j hj)
  · rw [hsucceeded]
    exact h.nodup

theorem reports_report {w : SharedBreaker callId} (h : Reports w) {i : callId}
    (hrunning : w.phase i = .running) {kind : EventKind}
    (hkind : kind = .succeeded ∨ kind = .failed) (b : CircuitBreaker) :
    Reports (w.record i kind .ended b) := by
  have hadmitted : callsOf .admitted (w.record i kind .ended b).log =
      callsOf .admitted w.log := by
    rw [record, callsOf_cons_other]
    rcases hkind with hkind | hkind
    · simp [hkind]
    · simp [hkind]
  have hfresh : i ∉ callsOf .succeeded w.log := by
    intro hi
    have hended := h.ended i hi
    rw [hrunning] at hended
    cases hended
  have hmem : forall j, j ∈ callsOf .succeeded (w.record i kind .ended b).log ->
      j = i ∨ j ∈ callsOf .succeeded w.log := by
    intro j hj
    rcases hkind with hkind | hkind
    · rw [record, callsOf_cons_self hkind] at hj
      exact List.mem_cons.mp hj
    · rw [record, callsOf_cons_other (by simp [hkind])] at hj
      exact Or.inr hj
  constructor
  · intro j hj
    rw [hadmitted]
    by_cases hji : j = i
    · rw [hji, phase_record_self] at hj
      cases hj
    · rw [phase_record_other w hji] at hj
      exact h.running j hj
  · intro j hj
    by_cases hji : j = i
    · rw [hji, phase_record_self]
    · rw [phase_record_other w hji]
      exact h.ended j ((hmem j hj).resolve_left hji)
  · intro j hj
    rw [hadmitted]
    rcases hmem j hj with hji | hold
    · rw [hji]
      exact h.running i hrunning
    · exact h.admitted j hold
  · rcases hkind with hkind | hkind
    · rw [record, callsOf_cons_self hkind]
      exact List.nodup_cons.mpr ⟨hfresh, h.nodup⟩
    · rw [record, callsOf_cons_other (by simp [hkind])]
      exact h.nodup

theorem reports_step {w v : SharedBreaker callId} {a : BreakerAction callId} (h : Reports w)
    (hstep : Stepped w a v) : Reports v := by
  cases hstep with
  | admitted hphase hstate => exact reports_check h hphase (Or.inl rfl) _
  | entered hphase hstate helapsed => exact reports_check h hphase (Or.inl rfl) _
  | rejected hphase hstate hearly => exact reports_check h hphase (Or.inr ⟨rfl, rfl⟩) _
  | succeeded hphase => exact reports_report h hphase (Or.inl rfl) _
  | failed hphase => exact reports_report h hphase (Or.inr rfl) _

/-!
## The success counter

In a half-open breaker the counter is the number of success reports since it became
half-open, whichever calls they come from.
-/

structure Probing (cfg : CircuitBreakerConfig) (w : SharedBreaker callId) : Prop where
  tally : Tally cfg w
  reports : Reports w
  count : w.breaker.state = .halfOpen ->
    w.breaker.successCount.toNat = (successesIn w.log).length

theorem successes_of_succeeded {cfg : CircuitBreakerConfig} {w : SharedBreaker callId}
    (h : Probing cfg w) (hhalf : w.breaker.state = .halfOpen) (i : callId)
    (b : CircuitBreaker) :
    successesIn (w.record i .succeeded .ended b).log = i :: successesIn w.log ∧
      (successesIn (w.record i .succeeded .ended b).log).length =
        w.breaker.successCount.toNat + 1 := by
  have hcons : successesIn (w.record i .succeeded .ended b).log = i :: successesIn w.log := by
    rw [record, successesIn_cons_succeeded hhalf rfl]
  constructor
  · exact hcons
  · rw [hcons, List.length_cons, h.count hhalf]

theorem probing_step {cfg : CircuitBreakerConfig} {w v : SharedBreaker callId}
    {a : BreakerAction callId} (h : Probing cfg w) (hstep : Stepped w a v) : Probing cfg v := by
  constructor
  · exact tally_step h.tally hstep
  · exact reports_step h.reports hstep
  · intro hhalf
    cases hstep with
    | admitted hphase hstate =>
        have hstays : w.breaker.state = .halfOpen := hhalf
        rw [record, successesIn_cons_other hstays (by simp)]
        exact h.count hstays
    | entered hphase hstate helapsed =>
        -- A new period begins here: the counter and the successes both start at zero.
        rw [record, successesIn_cons_entered (by simp [entersHalfOpen, hstate]) (by simp)]
        rfl
    | rejected hphase hstate hearly =>
        have hstays : w.breaker.state = .halfOpen := hhalf
        rw [hstate] at hstays
        cases hstays
    | succeeded hphase =>
        have hcounted := halfOpen_of_succeeded h.tally.bounded
          (succeeded_onSuccess h.tally.bounded) hhalf
        rw [(successes_of_succeeded h hcounted.left _ _).right]
        exact hcounted.right
    | failed hphase =>
        exact absurd hhalf (not_halfOpen_of_failed (failed_onFailure h.tally.bounded _))

theorem probing_of_run {cfg : CircuitBreakerConfig} {w : SharedBreaker callId}
    {actions : List (BreakerAction callId)} (hrun : run step (start cfg) actions = some w) :
    Probing cfg w := by
  refine invariant_of_run (P := fun _ w => Probing cfg w) ⟨tally_start cfg, reports_start cfg, ?_⟩
    (fun _ _ _ _ _ h hstep => probing_step h (stepped_of_step hstep)) hrun
  intro hhalf
  cases hhalf

theorem closes_iff_of_probing {cfg : CircuitBreakerConfig} {w v : SharedBreaker callId}
    {a : BreakerAction callId} (h : Probing cfg w) (hstep : Stepped w a v)
    (hhalf : w.breaker.state = .halfOpen) :
    v.breaker.state = .closed <->
      exists i, a = .succeed i ∧
        (successesIn v.log).length = effective cfg.successThreshold := by
  have hbelow := h.tally.bounded.success hhalf
  have hcfg := h.tally.cfg
  cases hstep with
  | admitted hphase hstate => simp [record, hhalf]
  | entered hphase hstate helapsed =>
      rw [hhalf] at hstate
      cases hstate
  | rejected hphase hstate hearly =>
      rw [hhalf] at hstate
      cases hstate
  | succeeded hphase =>
      rename_i i
      rw [(successes_of_succeeded h hhalf i _).right, ← hcfg]
      by_cases hreached :
          w.breaker.successCount.toNat + 1 = effective w.breaker.cfg.successThreshold
      · rw [record, onSuccess_reached hhalf hbelow hreached]
        exact ⟨fun _ => ⟨i, rfl, hreached⟩, fun _ => rfl⟩
      · rw [record, onSuccess_below hhalf hbelow hreached]
        constructor
        · intro hclosed
          have hstays : w.breaker.state = .closed := hclosed
          rw [hhalf] at hstays
          cases hstays
        · intro hfilled
          rcases hfilled with ⟨_j, _ha, hfilled⟩
          exact absurd hfilled hreached
  | failed hphase =>
      simp [record, onFailure_of_halfOpen hhalf]

/-- Calls admitted in the current period that have reported success in it. -/
def probesIn (log : List (BreakerEvent callId)) : List callId :=
  (successesIn log).filter (fun i => decide (i ∈ callsOf .admitted (period log)))

omit [DecidableEq callId] in
theorem successesIn_subset {log : List (BreakerEvent callId)} {i : callId}
    (h : i ∈ successesIn log) : i ∈ callsOf .succeeded log := by
  rw [callsOf_split]
  exact List.mem_append.mpr (Or.inl h)

omit [DecidableEq callId] in
theorem admitted_of_success {w : SharedBreaker callId} (h : Reports w) {i : callId}
    (hi : i ∈ successesIn w.log) :
    i ∈ callsOf .admitted (period w.log) ∨ i ∈ callsOf .admitted (earlier w.log) := by
  have hadmitted := h.admitted i (successesIn_subset hi)
  rw [callsOf_split] at hadmitted
  exact List.mem_append.mp hadmitted

omit [DecidableEq callId] in
theorem nodup_successesIn {w : SharedBreaker callId} (h : Reports w) :
    (successesIn w.log).Nodup := by
  have hnodup := h.nodup
  rw [callsOf_split] at hnodup
  exact (List.nodup_append.mp hnodup).left

theorem probesIn_of_no_late {w : SharedBreaker callId} (h : Reports w)
    (hlate : forall i, i ∈ successesIn w.log -> i ∉ callsOf .admitted (earlier w.log)) :
    probesIn w.log = successesIn w.log := by
  unfold probesIn
  apply List.filter_eq_self.mpr
  intro i hi
  exact decide_eq_true ((admitted_of_success h hi).resolve_right (hlate i hi))

/--
A half-open breaker is closed exactly by the success report that is the
effective-threshold-th of its period.  The reports counted come from distinct
calls, each admitted in the period or before it; when none was admitted before
it, at least `success_threshold` calls admitted in the period have succeeded.
-/
theorem halfOpen_closes_at_success_threshold (cfg : CircuitBreakerConfig)
    (actions : List (BreakerAction callId)) (w v : SharedBreaker callId)
    (a : BreakerAction callId) (hrun : run step (start cfg) actions = some w)
    (hstep : step w a = some v) (hhalf : w.breaker.state = .halfOpen) :
    (v.breaker.state = .closed <->
      exists i, a = .succeed i ∧
        (successesIn v.log).length = max 1 cfg.successThreshold.toNat) ∧
    (successesIn v.log).Nodup ∧
    (forall i, i ∈ successesIn v.log ->
      i ∈ callsOf .admitted (period v.log) ∨ i ∈ callsOf .admitted (earlier v.log)) ∧
    (v.breaker.state = .closed ->
      (forall i, i ∈ successesIn v.log -> i ∉ callsOf .admitted (earlier v.log)) ->
      cfg.successThreshold.toNat <= (probesIn v.log).length) := by
  have hprobing := probing_of_run hrun
  have hstepped := stepped_of_step hstep
  have hcloses := closes_iff_of_probing hprobing hstepped hhalf
  have hreports := reports_step hprobing.reports hstepped
  refine ⟨hcloses, nodup_successesIn hreports, fun i hi => admitted_of_success hreports hi, ?_⟩
  intro hclosed hlate
  rcases hcloses.mp hclosed with ⟨_i, _ha, hlength⟩
  rw [probesIn_of_no_late hreports hlate, hlength]
  exact Nat.le_max_right 1 cfg.successThreshold.toNat

def touchy : CircuitBreakerConfig :=
  { failureThreshold := 1, successThreshold := 1, openDuration := 1 }

/-- Call 0 is admitted while the breaker is closed; call 1 opens it, and call 2
turns it half-open one second later. -/
def slowCall : List (BreakerAction Nat) :=
  [.check 0 0, .check 1 0, .fail 1 0, .check 2 1000000000]

theorem slowCall_closes_without_probe :
    exists w v, run step (start touchy) slowCall = some w ∧
      step w (.succeed 0) = some v ∧ w.breaker.state = .halfOpen ∧
      v.breaker.state = .closed ∧ (probesIn v.log).length < touchy.successThreshold.toNat :=
  ⟨_, _, rfl, rfl, rfl, rfl, by decide⟩

theorem probe_closes_after_slowCall :
    exists w v, run step (start touchy) slowCall = some w ∧
      step w (.succeed 2) = some v ∧ v.breaker.state = .closed ∧
      touchy.successThreshold.toNat <= (probesIn v.log).length := by
  have hrun : exists w v, run step (start touchy) slowCall = some w ∧
      step w (.succeed 2) = some v ∧ w.breaker.state = .halfOpen ∧
      v.breaker.state = .closed ∧
      forall i, i ∈ successesIn v.log -> i ∉ callsOf .admitted (earlier v.log) :=
    ⟨_, _, rfl, rfl, rfl, rfl, by decide⟩
  rcases hrun with ⟨w, v, hw, hv, hhalf, hclosed, hlate⟩
  have hcloses := halfOpen_closes_at_success_threshold touchy slowCall w v (.succeed 2) hw hv hhalf
  exact ⟨w, v, hw, hv, hclosed, hcloses.right.right.right hclosed hlate⟩

end SharedBreaker
end Resilience
end CppCommons
