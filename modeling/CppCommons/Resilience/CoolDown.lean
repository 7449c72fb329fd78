import CppCommons.Resilience.FailureCount

/-!
# The cool-down window

Once open, the breaker is to admit a trial call `open_duration` after the moment
it opened.  `on_failure` stamps that moment whenever the counter reaches its
threshold, also when a late report of a call admitted earlier meets a breaker
that is open already.  The window stays where it is exactly when no such report
fills the counter at another reading.
-/

namespace CppCommons
namespace Resilience
namespace SharedBreaker

open Cxx
open CircuitBreaker
open Foundation.LabelledRun

variable {callId : Type}

def reading : BreakerAction callId -> Option Nanoseconds
  | .check _ now => some now
  | .succeed _ => none
  | .fail _ now => some now

def ClockNondecreasing (actions : List (BreakerAction callId)) : Prop :=
  (actions.filterMap reading).Pairwise (fun earlier later => earlier <= later)

def Opens (w v : SharedBreaker callId) : Prop :=
  w.breaker.state ≠ .opened ∧ v.breaker.state = .opened

/-- No failure report that meets an open breaker moves the stamp. -/
def stampKept (w : SharedBreaker callId) : BreakerAction callId -> Prop
  | .fail _ now =>
      w.breaker.state = .opened ->
        w.breaker.failureCount.toNat + 1 < effective w.breaker.cfg.failureThreshold ∨
          now = w.breaker.openedAt
  | _ => True

variable [DecidableEq callId]

def StaysOpen (w : SharedBreaker callId) (actions : List (BreakerAction callId)) : Prop :=
  forall front back u, actions = front ++ back -> run step w front = some u ->
    u.breaker.state = .opened

/-- What the cool-down promises of the run that takes `actions`. -/
structure CoolDown (cfg : CircuitBreakerConfig) (actions : List (BreakerAction callId)) :
    Prop where
  /-- Only an opening step changes the stamp. -/
  stamped : forall before a after w v, actions = before ++ a :: after ->
    run step (start cfg) before = some w -> step w a = some v ->
    v.breaker.openedAt ≠ w.breaker.openedAt -> Opens w v
  /-- A later check that still finds the breaker open admits its call once the
  duration has passed since the stamp of the opening step. -/
  admits : forall before a waiting after w v u i now n, actions = before ++ a :: (waiting ++ after) ->
    run step (start cfg) before = some w -> step w a = some v -> Opens w v ->
    run step v waiting = some u -> StaysOpen v waiting ->
    v.breaker.openedAt + nanoseconds cfg.openDuration <= now ->
    step u (.check i now) = some n -> n.phase i = .running

omit [DecidableEq callId] in
theorem stampKept_of_not_opened {w : SharedBreaker callId} (h : w.breaker.state ≠ .opened)
    (a : BreakerAction callId) : stampKept w a := by
  cases a with
  | check i now => trivial
  | succeed i => trivial
  | fail i now =>
      intro hopened
      exact absurd hopened h

/-!
## One step

Only a failure report changes the stamp, by opening the breaker or by filling the
counter of an open one again.
-/

theorem openedAt_of_succeeded {b b' : CircuitBreaker} (h : Succeeded b b') :
    b'.openedAt = b.openedAt := by
  cases h with
  | reset hhalf => rfl
  | closes hhalf hreached => rfl
  | counts hhalf hmore => rfl

/-- A step that changes the stamp is a failure report that opens the breaker or
fills the counter again. -/
theorem changed_of_step {w v : SharedBreaker callId} {a : BreakerAction callId}
    (hbounded : Bounded w.breaker) (hstep : Stepped w a v)
    (hchanged : v.breaker.openedAt ≠ w.breaker.openedAt) :
    exists i now, a = .fail i now ∧ v.breaker.state = .opened ∧ now ≠ w.breaker.openedAt ∧
      (w.breaker.state = .halfOpen ∨
        w.breaker.failureCount.toNat + 1 = effective w.breaker.cfg.failureThreshold) := by
  cases hstep with
  | admitted hphase hstate => exact absurd rfl hchanged
  | entered hphase hstate helapsed => exact absurd rfl hchanged
  | rejected hphase hstate hearly => exact absurd rfl hchanged
  | succeeded hphase =>
      exact absurd (openedAt_of_succeeded (succeeded_onSuccess hbounded)) hchanged
  | failed hphase =>
      rename_i i now
      have hfailed := failed_onFailure hbounded now
      refine ⟨i, now, rfl, ?_⟩
      simp only [record] at hchanged ⊢
      cases hb : w.breaker.onFailure now with
      | mk cfg state failureCount successCount openedAt =>
          rw [hb] at hfailed hchanged
          cases hfailed with
          | opens hcause => exact ⟨rfl, hchanged, hcause⟩
          | counts hhalf hmore => exact absurd rfl hchanged

theorem opens_of_stampKept {w v : SharedBreaker callId} {a : BreakerAction callId}
    (hbounded : Bounded w.breaker) (hstep : Stepped w a v) (hkept : stampKept w a)
    (hchanged : v.breaker.openedAt ≠ w.breaker.openedAt) : Opens w v := by
  rcases changed_of_step hbounded hstep hchanged with ⟨i, now, rfl, hv, hnow, hcause⟩
  refine ⟨?_, hv⟩
  intro hopened
  rcases hkept hopened with hbelow | hsame
  · rcases hcause with hhalf | hfilled
    · rw [hopened] at hhalf
      cases hhalf
    · lia
  · exact hnow hsame

theorem restamped_of_not_stampKept {w v : SharedBreaker callId} {a : BreakerAction callId}
    (hbounded : Bounded w.breaker) (hstep : Stepped w a v) (hnot : ¬ stampKept w a) :
    w.breaker.state = .opened ∧ v.breaker.openedAt ≠ w.breaker.openedAt := by
  cases hstep with
  | admitted hphase hstate => exact absurd trivial hnot
  | entered hphase hstate helapsed => exact absurd trivial hnot
  | rejected hphase hstate hearly => exact absurd trivial hnot
  | succeeded hphase => exact absurd trivial hnot
  | failed hphase =>
      rename_i i now
      rw [stampKept] at hnot
      push Not at hnot
      rcases hnot with ⟨hopened, hfull, hnow⟩
      have hfilled : w.breaker.failureCount.toNat + 1 =
          effective w.breaker.cfg.failureThreshold :=
        Nat.le_antisymm hbounded.failure hfull
      refine ⟨hopened, ?_⟩
      rw [record, onFailure_reached hbounded.failure hfilled]
      exact hnow

theorem running_of_check {u n : SharedBreaker callId} {i : callId} {now : Nanoseconds}
    (helapsed : u.breaker.openedAt + nanoseconds u.breaker.cfg.openDuration <= now)
    (hstep : Stepped u (.check i now) n) : n.phase i = .running := by
  cases hstep with
  | admitted hphase hstate => simp [record]
  | entered hphase hstate hlate => simp [record]
  | rejected hphase hstate hearly =>
      have hlate : nanoseconds u.breaker.cfg.openDuration <= now - u.breaker.openedAt := by
        lia
      exact absurd hlate hearly

/-!
## Runs

While the breaker stays open under the condition the stamp stays, so a check is
admitted once the duration has passed since the opening.
-/

theorem openedAt_of_staysOpen {cfg : CircuitBreakerConfig} {v u : SharedBreaker callId}
    {waiting : List (BreakerAction callId)} (hv : Tally cfg v)
    (hopen : StaysOpen v waiting) (hkept : StepsMeet step stampKept v waiting)
    (hrun : run step v waiting = some u) :
    Tally cfg u ∧ u.breaker.openedAt = v.breaker.openedAt := by
  -- The open state before each step is part of the condition the steps meet.
  have hmeet : StepsMeet step (fun m a => stampKept m a ∧ m.breaker.state = .opened) v
      waiting := by
    intro before a after m hsplit hm
    exact ⟨hkept before a after m hsplit hm, hopen before (a :: after) m hsplit hm⟩
  refine invariant_of_stepsMeet
    (P := fun _ m => Tally cfg m ∧ m.breaker.openedAt = v.breaker.openedAt) ⟨hv, rfl⟩ ?_
    hmeet hrun
  intro actions m a n _hm ih hok hstep
  have hstepped := stepped_of_step hstep
  refine ⟨tally_step ih.left hstepped, ?_⟩
  by_contra hne
  have hchanged : n.breaker.openedAt ≠ m.breaker.openedAt := by
    rw [ih.right]
    exact hne
  exact (opens_of_stampKept ih.left.bounded hstepped hok.left hchanged).left hok.right

theorem coolDown_of_stepsMeet {cfg : CircuitBreakerConfig}
    {actions : List (BreakerAction callId)}
    (hkept : StepsMeet step stampKept (start cfg) actions) : CoolDown cfg actions := by
  constructor
  · intro before a after w v hsplit hw hv hchanged
    exact opens_of_stampKept (tally_of_run hw).bounded (stepped_of_step hv)
      (hkept before a after w hsplit hw) hchanged
  · intro before a waiting after w v u i now n hsplit hw hv _hopens hu hopen hnow hn
    have hvrun : run step (start cfg) (before ++ [a]) = some v :=
      (run_concat_eq_some_iff before a).mpr ⟨w, hw, hv⟩
    have hwhole : StepsMeet step stampKept (start cfg) ((before ++ [a]) ++ (waiting ++ after)) := by
      rw [hsplit] at hkept
      simpa using hkept
    have hrest : StepsMeet step stampKept v (waiting ++ after) := stepsMeet_suffix hvrun hwhole
    rcases openedAt_of_staysOpen (tally_of_run hvrun) hopen (stepsMeet_of_append hrest) hu with
      ⟨htally, hstamp⟩
    apply running_of_check _ (stepped_of_step hn)
    rw [hstamp, htally.cfg]
    exact hnow

/--
For every interleaving and every clock: the cool-down window stays in place
exactly when each failure report that meets an open breaker either leaves the
counter below its threshold or carries the reading already stamped.
-/
theorem coolDown_iff (cfg : CircuitBreakerConfig) (actions : List (BreakerAction callId))
    (t : SharedBreaker callId) (hrun : run step (start cfg) actions = some t) :
    CoolDown cfg actions <-> StepsMeet step stampKept (start cfg) actions := by
  constructor
  · intro hcool before a after w hsplit hw
    by_contra hnot
    rw [hsplit] at hrun
    rcases (run_append_eq_some_iff before (a :: after)).mp hrun with ⟨m, hm, hrest⟩
    rw [hw] at hm
    cases hm
    rcases (run_cons_eq_some_iff a after).mp hrest with ⟨v, hv, _⟩
    rcases restamped_of_not_stampKept (tally_of_run hw).bounded (stepped_of_step hv) hnot with
      ⟨hopened, hchanged⟩
    exact (hcool.stamped before a after w v hsplit hw hv hchanged).left hopened
  · intro hkept
    exact coolDown_of_stepsMeet hkept

/-- Two calls are admitted; the first one to fail opens the breaker, and the
second one fails 29 s later. -/
def lateFailure : List (BreakerAction Nat) :=
  [.check 0 0, .check 1 0, .fail 0 0, .fail 1 (nanoseconds 29), .check 2 (nanoseconds 30)]

/-- With a threshold of one and the default 30 s, the check made 30 s after the
breaker opened is rejected. -/
theorem lateFailure_postpones :
    ClockNondecreasing lateFailure ∧
      (exists t, run step (start { failureThreshold := 1 }) lateFailure = some t ∧
        t.phase 2 = .ended) ∧
      ¬ CoolDown { failureThreshold := 1 } lateFailure := by
  refine ⟨by unfold ClockNondecreasing; decide, ⟨_, rfl, rfl⟩, ?_⟩
  intro hcool
  have hopens := hcool.stamped [.check 0 0, .check 1 0, .fail 0 0] (.fail 1 (nanoseconds 29))
    [.check 2 (nanoseconds 30)] _ _ rfl rfl rfl (by decide)
  exact hopens.left rfl

def harmlessFailure : List (BreakerAction Nat) :=
  [.check 0 0, .check 1 0, .check 2 0, .fail 0 0, .fail 1 1, .fail 2 (nanoseconds 29)]

theorem harmlessFailure_coolDown :
    (exists t, run step (start { failureThreshold := 2 }) harmlessFailure = some t) ∧
      CoolDown { failureThreshold := 2 } harmlessFailure := by
  have hrun : exists t, run step (start { failureThreshold := 2 }) harmlessFailure = some t :=
    ⟨_, rfl⟩
  rcases hrun with ⟨t, ht⟩
  refine ⟨⟨t, ht⟩, (coolDown_iff { failureThreshold := 2 } harmlessFailure t ht).mpr ?_⟩
  refine stepsMeet_cons trivial rfl (stepsMeet_cons trivial rfl (stepsMeet_cons trivial rfl ?_))
  refine stepsMeet_cons (stampKept_of_not_opened (by decide) _) rfl ?_
  refine stepsMeet_cons (stampKept_of_not_opened (by decide) _) rfl ?_
  exact stepsMeet_cons (fun _ => Or.inl (by decide)) rfl stepsMeet_nil

end SharedBreaker
end Resilience
end CppCommons
