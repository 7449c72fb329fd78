import CppCommons.Foundation.LabelledRun

/-!
# Hedged calls

`hedge` runs a function on two detached threads, the second one after a delay.
The threads share a flag, a failure counter, a promise and `first_ex`; each
access is one atomic step here, and the steps of the two threads interleave
freely.  The end of a call touches nothing shared, so it is taken together with
the step that follows it: `cancelled.exchange` after a return,
`failures.fetch_add` after a throw.  The function only reads the flag.
-/

namespace CppCommons
namespace Resilience

open Foundation.LabelledRun

inductive HedgeSide where
  | primary
  | hedge
deriving DecidableEq

namespace HedgeSide

def other : HedgeSide -> HedgeSide
  | .primary => .hedge
  | .hedge => .primary

@[simp] theorem other_ne (s : HedgeSide) : s.other ≠ s := by
  cases s <;> decide

@[simp] theorem ne_other (s : HedgeSide) : s ≠ s.other := by
  cases s <;> decide

@[simp] theorem other_other (s : HedgeSide) : s.other.other = s := by
  cases s <;> rfl

theorem eq_or_other (s t : HedgeSide) : t = s ∨ t = s.other := by
  cases s <;> cases t <;> decide

end HedgeSide

/-- What a `catch (...)` of `run` can hold. -/
inductive HedgeFault (exn : Type) where
  | thrown (error : exn)
  | alreadySatisfied
deriving DecidableEq

/-- Where a thread stands, named by its next step. -/
inductive HedgePhase (value exn : Type) where
  /-- about to load the flag after the delay -/
  | sleeping
  /-- inside the function -/
  | calling
  /-- about to set the value -/
  | won (result : value)
  /-- caught an exception of `set_value`, about to count it -/
  | caught (fault : HedgeFault exn)
  /-- counted as the first failure, about to write `first_ex` -/
  | failedFirst (fault : HedgeFault exn)
  /-- about to compare the failures with two -/
  | failed
  /-- did not call, about to compare the failures with one -/
  | skipped
  /-- about to set `first_ex` as the exception -/
  | publishing
  | done
deriving DecidableEq

/-- The shared variables, the threads, and the history of the run. -/
structure HedgeState (value exn : Type) where
  cancelled : Bool
  failures : Nat
  promise : Option (Except (Option (HedgeFault exn)) value)
  firstEx : Option (HedgeFault exn)
  phase : HedgeSide -> HedgePhase value exn
  /-- how often the promise was satisfied -/
  satisfactions : Nat
  /-- how the call of each side ended -/
  outcome : HedgeSide -> Option (Except exn value)
  /-- the side that failed first -/
  firstFailure : Option HedgeSide

inductive HedgeAction (value exn : Type) where
  | returns (side : HedgeSide) (result : value)
  | throws (side : HedgeSide) (error : exn)
  | next (side : HedgeSide)

namespace HedgeState

variable {value exn : Type}

def start : HedgeState value exn where
  cancelled := false
  failures := 0
  promise := none
  firstEx := none
  phase
    | .primary => .calling
    | .hedge => .sleeping
  satisfactions := 0
  outcome := fun _ => none
  firstFailure := none

def moved (m : HedgeState value exn) (side : HedgeSide) (ph : HedgePhase value exn) :
    HedgeState value exn :=
  { m with phase := Function.update m.phase side ph }

def ended (m : HedgeState value exn) (side : HedgeSide) (ending : Except exn value) :
    HedgeState value exn :=
  { m with outcome := Function.update m.outcome side (some ending) }

def satisfied (m : HedgeState value exn)
    (content : Except (Option (HedgeFault exn)) value) : HedgeState value exn :=
  { m with promise := some content, satisfactions := m.satisfactions + 1 }

/-- `failures.fetch_add(1) == 0` decides whether `first_ex` is to be written. -/
def counted (m : HedgeState value exn) (side : HedgeSide) (fault : HedgeFault exn) :
    HedgeState value exn :=
  { m.moved side (if m.failures = 0 then .failedFirst fault else .failed) with
    failures := m.failures + 1
    firstFailure := m.firstFailure.or (some side) }

def advance (m : HedgeState value exn) (side : HedgeSide) : Option (HedgeState value exn) :=
  match m.phase side with
  | .sleeping => some (m.moved side (if m.cancelled then .skipped else .calling))
  | .calling => none
  | .won result =>
      match m.promise with
      | none => some ((m.satisfied (.ok result)).moved side .done)
      | some _ => some (m.moved side (.caught .alreadySatisfied))
  | .caught fault => some (m.counted side fault)
  | .failedFirst fault => some ({ m with firstEx := some fault }.moved side .failed)
  | .failed => some (m.moved side (if 2 <= m.failures then .publishing else .done))
  | .skipped => some (m.moved side (if m.failures = 1 then .publishing else .done))
  | .publishing =>
      match m.promise with
      | none => some ((m.satisfied (.error m.firstEx)).moved side .done)
      | some _ => some (m.moved side .done)
  | .done => none

def step (m : HedgeState value exn) : HedgeAction value exn -> Option (HedgeState value exn)
  | .returns side result =>
      match m.phase side with
      | .calling =>
          some { (m.ended side (.ok result)).moved side
              (if m.cancelled then .done else .won result) with cancelled := true }
      | _ => none
  | .throws side error =>
      match m.phase side with
      | .calling => some ((m.ended side (.error error)).counted side (.thrown error))
      | _ => none
  | .next side => m.advance side

def Terminal (m : HedgeState value exn) : Prop :=
  forall side, m.phase side = .done

/-- The promise was satisfied once, by the value of a call if any returned one,
otherwise by the exception of the call that failed first. -/
structure Settled (m : HedgeState value exn) : Prop where
  once : m.satisfactions = 1
  value : (exists side result, m.outcome side = some (.ok result)) ->
    exists side result, m.outcome side = some (.ok result) ∧ m.promise = some (.ok result)
  exception : (¬ exists side result, m.outcome side = some (.ok result)) ->
    exists side error, m.firstFailure = some side ∧ m.outcome side = some (.error error) ∧
      m.promise = some (.error (some (.thrown error)))

/-- At a `set_exception`, no thread is between its count as the first failure
and its write of `first_ex`. -/
def firstExWritten (m : HedgeState value exn) : HedgeAction value exn -> Prop
  | .next side =>
      m.phase side = .publishing -> forall other fault, m.phase other ≠ .failedFirst fault
  | _ => True

/-!
## Effects on the state

What a step changes: the phase of its thread, the outcome of its call, and the
promise only while that is empty.
-/

theorem firstExWritten_of_not_publishing {m : HedgeState value exn} {side : HedgeSide}
    (h : m.phase side ≠ .publishing) : firstExWritten m (.next side) := by
  intro hphase
  exact absurd hphase h

section Fields

variable (m : HedgeState value exn) (side t : HedgeSide)

@[simp] theorem phase_moved (ph : HedgePhase value exn) :
    (m.moved side ph).phase t = if t = side then ph else m.phase t := by
  simp [moved, Function.update_apply]

@[simp] theorem outcome_ended (ending : Except exn value) :
    (m.ended side ending).outcome t = if t = side then some ending else m.outcome t := by
  simp [ended, Function.update_apply]

end Fields

theorem step_returns {m : HedgeState value exn} {side : HedgeSide}
    (h : m.phase side = .calling) (result : value) :
    step m (.returns side result) =
      some { (m.ended side (.ok result)).moved side
          (if m.cancelled then .done else .won result) with cancelled := true } := by
  simp only [step, h]

theorem step_throws {m : HedgeState value exn} {side : HedgeSide}
    (h : m.phase side = .calling) (error : exn) :
    step m (.throws side error) =
      some ((m.ended side (.error error)).counted side (.thrown error)) := by
  simp only [step, h]

theorem calling_of_step {m n : HedgeState value exn} {side : HedgeSide} :
    (forall result, step m (.returns side result) = some n -> m.phase side = .calling) ∧
      (forall error, step m (.throws side error) = some n -> m.phase side = .calling) := by
  constructor
  · intro result h
    cases hphase : m.phase side <;> simp [step, hphase] at h ⊢
  · intro error h
    cases hphase : m.phase side <;> simp [step, hphase] at h ⊢

/-- The promise changes only when it is empty: a winner sets its value, or a
publisher sets `first_ex`. -/
theorem promise_of_step {m n : HedgeState value exn} {a : HedgeAction value exn}
    (h : step m a = some n) :
    n.promise = m.promise ∨
      (m.promise = none ∧ exists result, n.promise = some (.ok result)) ∨
      (m.promise = none ∧ n.promise = some (.error m.firstEx) ∧
        exists side, a = .next side ∧ m.phase side = .publishing) := by
  cases a with
  | returns side result =>
      rw [step_returns (calling_of_step.left result h)] at h
      cases h
      exact Or.inl rfl
  | throws side error =>
      rw [step_throws (calling_of_step.right error h)] at h
      cases h
      exact Or.inl rfl
  | next side =>
      cases hphase : m.phase side <;> cases hpromise : m.promise <;>
        simp [step, advance, hphase, hpromise] at h <;> subst h <;>
        simp [moved, counted, satisfied, hpromise, hphase]

/-!
## The four situations of a run

No call has ended; one has failed; one has returned first; both have failed.  Every
step of either thread leads from one of these situations to one of them.
-/

def Unended (m : HedgeState value exn) (side : HedgeSide) : Prop :=
  m.outcome side = none ∧
    (m.phase side = .calling ∨ (side = .hedge ∧ m.phase side = .sleeping))

structure Fresh (m : HedgeState value exn) : Prop where
  unended : forall side, Unended m side
  cancelled : m.cancelled = false
  failures : m.failures = 0
  promise : m.promise = none
  satisfactions : m.satisfactions = 0
  firstFailure : m.firstFailure = none
  firstEx : m.firstEx = none

structure OneFailed (f : HedgeSide) (error : exn) (m : HedgeState value exn) : Prop where
  outcome : m.outcome f = some (.error error)
  unended : Unended m f.other
  cancelled : m.cancelled = false
  failures : m.failures = 1
  promise : m.promise = none
  satisfactions : m.satisfactions = 0
  firstFailure : m.firstFailure = some f
  writer : (m.phase f = .failedFirst (.thrown error) ∧ m.firstEx = none) ∨
    (m.firstEx = some (.thrown error) ∧ (m.phase f = .failed ∨ m.phase f = .done))

inductive Late (m : HedgeState value exn) (side : HedgeSide) : Prop where
  | calling : m.outcome side = none -> m.failures = 0 -> m.phase side = .calling -> Late m side
  | asleep : m.outcome side = none -> m.failures = 0 -> side = .hedge ->
      m.phase side = .sleeping ∨ m.phase side = .skipped ∨ m.phase side = .done -> Late m side
  | returned (result : value) : m.outcome side = some (.ok result) -> m.failures = 0 ->
      m.phase side = .done -> Late m side
  | threw (error : exn) : m.outcome side = some (.error error) -> m.failures = 1 ->
      (exists fault, m.phase side = .failedFirst fault) ∨ m.phase side = .failed ∨
        m.phase side = .done -> Late m side

structure Raced (w : HedgeSide) (result : value) (m : HedgeState value exn) : Prop where
  outcome : m.outcome w = some (.ok result)
  cancelled : m.cancelled = true
  decided : (m.phase w = .won result ∧ m.promise = none ∧ m.satisfactions = 0) ∨
    (m.phase w = .done ∧ m.promise = some (.ok result) ∧ m.satisfactions = 1)
  late : Late m w.other

def Finishing (ph : HedgePhase value exn) : Prop :=
  ph = .failed ∨ ph = .publishing ∨ ph = .done

structure BothFailed (f : HedgeSide) (error : exn) (m : HedgeState value exn) : Prop where
  outcome : m.outcome f = some (.error error)
  outcomeOther : exists error', m.outcome f.other = some (.error error')
  failures : m.failures = 2
  firstFailure : m.firstFailure = some f
  writer : (m.phase f = .failedFirst (.thrown error) ∧ m.firstEx = none ∧
      (m.promise = none ∨ m.phase f.other = .done)) ∨
    (m.firstEx = some (.thrown error) ∧ Finishing (m.phase f))
  second : Finishing (m.phase f.other)
  promise : (m.promise = none ∧ m.satisfactions = 0 ∧
      ¬ (m.phase f = .done ∧ m.phase f.other = .done)) ∨
    (m.satisfactions = 1 ∧ exists fault, m.promise = some (.error fault))

inductive Situation (m : HedgeState value exn) : Prop where
  | fresh : Fresh m -> Situation m
  | oneFailed (f : HedgeSide) (error : exn) : OneFailed f error m -> Situation m
  | raced (w : HedgeSide) (result : value) : Raced w result m -> Situation m
  | bothFailed (f : HedgeSide) (error : exn) : BothFailed f error m -> Situation m

theorem fresh_start : Fresh (start : HedgeState value exn) := by
  refine ⟨?_, rfl, rfl, rfl, rfl, rfl, rfl⟩
  intro side
  cases side with
  | primary => exact ⟨rfl, Or.inl rfl⟩
  | hedge => exact ⟨rfl, Or.inr ⟨rfl, rfl⟩⟩

theorem unended_congr {m n : HedgeState value exn} {side : HedgeSide} (h : Unended m side)
    (houtcome : n.outcome side = m.outcome side) (hphase : n.phase side = m.phase side) :
    Unended n side := by
  rw [Unended, houtcome, hphase]
  exact h

theorem late_of_unended {m n : HedgeState value exn} {side : HedgeSide} (h : Unended m side)
    (houtcome : n.outcome side = m.outcome side) (hphase : n.phase side = m.phase side)
    (hfailures : n.failures = 0) : Late n side := by
  rcases h with ⟨hnone, hcalling | ⟨hside, hsleeping⟩⟩
  · exact .calling (houtcome.trans hnone) hfailures (hphase.trans hcalling)
  · exact .asleep (houtcome.trans hnone) hfailures hside (Or.inl (hphase.trans hsleeping))

theorem late_congr {m n : HedgeState value exn} {side : HedgeSide} (h : Late m side)
    (houtcome : n.outcome side = m.outcome side) (hphase : n.phase side = m.phase side)
    (hfailures : n.failures = m.failures) : Late n side := by
  cases h with
  | calling hnone hzero hcalling =>
      exact .calling (houtcome.trans hnone) (hfailures.trans hzero) (hphase.trans hcalling)
  | asleep hnone hzero hside hasleep =>
      exact .asleep (houtcome.trans hnone) (hfailures.trans hzero) hside (by rwa [hphase])
  | returned result hsome hzero hdone =>
      exact .returned result (houtcome.trans hsome) (hfailures.trans hzero) (hphase.trans hdone)
  | threw error hsome hone hfailed =>
      exact .threw error (houtcome.trans hsome) (hfailures.trans hone) (by rwa [hphase])

theorem failures_of_late_calling {m : HedgeState value exn} {side : HedgeSide}
    (h : Late m side) (hcalling : m.phase side = .calling) : m.failures = 0 := by
  cases h with
  | calling _ hzero _ => exact hzero
  | asleep _ hzero _ _ => exact hzero
  | returned _ _ hzero _ => exact hzero
  | threw _ _ _ hfailed => simp [hcalling] at hfailed

theorem fresh_step {m n : HedgeState value exn} {a : HedgeAction value exn} (h : Fresh m)
    (hstep : step m a = some n) : Situation n := by
  cases a with
  | returns side result =>
      rw [step_returns (calling_of_step.left result hstep), h.cancelled] at hstep
      cases hstep
      refine .raced side result ⟨by simp [moved], rfl, Or.inl ?_, ?_⟩
      · simp [moved, ended, h.promise, h.satisfactions]
      · apply late_of_unended (h.unended side.other)
        · simp [moved]
        · simp [moved, ended]
        · exact h.failures
  | throws side error =>
      rw [step_throws (calling_of_step.right error hstep)] at hstep
      cases hstep
      refine .oneFailed side error ⟨by simp [counted, moved], ?_, h.cancelled, ?_, h.promise,
        h.satisfactions, ?_, Or.inl ⟨?_, h.firstEx⟩⟩
      · apply unended_congr (h.unended side.other)
        · simp [counted, moved]
        · simp [counted, moved, ended]
      · simp [counted, ended, h.failures]
      · simp [counted, ended, h.firstFailure]
      · simp [counted, moved, ended, h.failures]
  | next side =>
      rcases (h.unended side).right with hphase | ⟨rfl, hphase⟩
      · simp [step, advance, hphase] at hstep
      · simp [step, advance, hphase, h.cancelled] at hstep
        subst hstep
        refine .fresh ⟨?_, h.cancelled, h.failures, h.promise, h.satisfactions, h.firstFailure,
          h.firstEx⟩
        intro side
        cases side with
        | primary => exact unended_congr (h.unended .primary) rfl (by simp)
        | hedge => exact ⟨(h.unended .hedge).left, Or.inl (by simp)⟩

theorem oneFailed_first_step {f : HedgeSide} {error : exn} {m n : HedgeState value exn}
    (h : OneFailed f error m) (hstep : step m (.next f) = some n) : OneFailed f error n := by
  have hstays : forall {k : HedgeState value exn}, k.outcome = m.outcome ->
      k.phase f.other = m.phase f.other -> Unended k f.other := by
    intro k houtcome hphase
    exact unended_congr h.unended (by rw [houtcome]) hphase
  rcases h.writer with ⟨hphase, hnone⟩ | ⟨hsome, hphase | hphase⟩
  · simp [step, advance, hphase] at hstep
    subst hstep
    exact ⟨h.outcome, hstays rfl (by simp [moved]), h.cancelled, h.failures, h.promise,
      h.satisfactions, h.firstFailure, Or.inr ⟨rfl, Or.inl (by simp)⟩⟩
  · simp [step, advance, hphase, h.failures] at hstep
    subst hstep
    exact ⟨h.outcome, hstays rfl (by simp), h.cancelled, h.failures, h.promise,
      h.satisfactions, h.firstFailure, Or.inr ⟨hsome, Or.inr (by simp)⟩⟩
  · simp [step, advance, hphase] at hstep

theorem oneFailed_second_step {f : HedgeSide} {error : exn} {m n : HedgeState value exn}
    (h : OneFailed f error m) (hstep : step m (.next f.other) = some n) :
    OneFailed f error n := by
  rcases h.unended.right with hphase | ⟨_, hphase⟩
  · simp [step, advance, hphase] at hstep
  · simp [step, advance, hphase, h.cancelled] at hstep
    subst hstep
    refine ⟨h.outcome, ⟨h.unended.left, Or.inl (by simp)⟩, h.cancelled, h.failures, h.promise,
      h.satisfactions, h.firstFailure, ?_⟩
    simpa [moved] using h.writer

theorem oneFailed_step {f : HedgeSide} {error : exn} {m n : HedgeState value exn}
    {a : HedgeAction value exn} (h : OneFailed f error m) (hstep : step m a = some n) :
    Situation n := by
  have hnotCalling : m.phase f ≠ .calling := by
    rcases h.writer with ⟨hphase, _⟩ | ⟨_, hphase | hphase⟩ <;> simp [hphase]
  cases a with
  | returns side result =>
      have hcalling := calling_of_step.left result hstep
      rcases HedgeSide.eq_or_other f side with rfl | rfl
      · exact absurd hcalling hnotCalling
      · rw [step_returns hcalling, h.cancelled] at hstep
        cases hstep
        refine .raced f.other result ⟨by simp [moved], rfl, Or.inl ?_, ?_⟩
        · simp [moved, ended, h.promise, h.satisfactions]
        · rw [HedgeSide.other_other]
          refine .threw error (by simp [moved, h.outcome]) h.failures ?_
          rcases h.writer with ⟨hphase, _⟩ | ⟨_, hphase | hphase⟩
          · exact Or.inl ⟨.thrown error, by simp [moved, ended, hphase]⟩
          · exact Or.inr (Or.inl (by simp [moved, ended, hphase]))
          · exact Or.inr (Or.inr (by simp [moved, ended, hphase]))
  | throws side error' =>
      have hcalling := calling_of_step.right error' hstep
      rcases HedgeSide.eq_or_other f side with rfl | rfl
      · exact absurd hcalling hnotCalling
      · rw [step_throws hcalling] at hstep
        cases hstep
        refine .bothFailed f error
          ⟨?_, ⟨error', by simp [counted, moved]⟩, ?_, ?_, ?_, Or.inl ?_, Or.inl ?_⟩
        · simp [counted, moved, h.outcome]
        · simp [counted, ended, h.failures]
        · simp [counted, ended, h.firstFailure]
        · rcases h.writer with ⟨hphase, hnone⟩ | ⟨hsome, hphase | hphase⟩
          · exact Or.inl ⟨by simp [counted, moved, ended, hphase], hnone, Or.inl h.promise⟩
          · exact Or.inr ⟨hsome, Or.inl (by simp [counted, moved, ended, hphase])⟩
          · exact Or.inr ⟨hsome, Or.inr (Or.inr (by simp [counted, moved, ended, hphase]))⟩
        · simp [counted, moved, ended, h.failures]
        · refine ⟨h.promise, h.satisfactions, ?_⟩
          simp [counted, moved, ended, h.failures]
  | next side =>
      rcases HedgeSide.eq_or_other f side with rfl | rfl
      · exact .oneFailed side error (oneFailed_first_step h hstep)
      · exact .oneFailed f error (oneFailed_second_step h hstep)

theorem raced_winner_step {w : HedgeSide} {result : value} {m n : HedgeState value exn}
    (h : Raced w result m) (hstep : step m (.next w) = some n) : Raced w result n := by
  rcases h.decided with ⟨hphase, hpromise, hcount⟩ | ⟨hphase, _⟩
  · simp [step, advance, hphase, hpromise] at hstep
    subst hstep
    refine ⟨h.outcome, h.cancelled, Or.inr ?_, ?_⟩
    · simp [moved, satisfied, hcount]
    · exact late_congr h.late rfl (by simp [satisfied]) rfl
  · simp [step, advance, hphase] at hstep

theorem raced_loser_step {w : HedgeSide} {result : value} {m n : HedgeState value exn}
    (h : Raced w result m) (hstep : step m (.next w.other) = some n) : Raced w result n := by
  have hstays : forall {k : HedgeState value exn}, k.outcome = m.outcome ->
      k.cancelled = m.cancelled -> k.promise = m.promise ->
      k.satisfactions = m.satisfactions -> k.phase w = m.phase w -> Late k w.other ->
      Raced w result k := by
    intro k houtcome hcancelled hpromise hcount hphase hlate
    refine ⟨?_, ?_, ?_, hlate⟩
    · rw [houtcome, h.outcome]
    · rw [hcancelled, h.cancelled]
    · rw [hphase, hpromise, hcount]
      exact h.decided
  cases h.late with
  | calling hnone hfailures hphase => simp [step, advance, hphase] at hstep
  | asleep hnone hfailures hside hphase =>
      rcases hphase with hphase | hphase | hphase
      · simp [step, advance, hphase, h.cancelled] at hstep
        subst hstep
        exact hstays rfl rfl rfl rfl (by simp)
          (.asleep hnone hfailures hside (Or.inr (Or.inl (by simp))))
      · simp [step, advance, hphase, hfailures] at hstep
        subst hstep
        exact hstays rfl rfl rfl rfl (by simp)
          (.asleep hnone hfailures hside (Or.inr (Or.inr (by simp))))
      · simp [step, advance, hphase] at hstep
  | returned result' hsome hfailures hphase => simp [step, advance, hphase] at hstep
  | threw error hsome hfailures hphase =>
      rcases hphase with ⟨fault, hphase⟩ | hphase | hphase
      · simp [step, advance, hphase] at hstep
        subst hstep
        exact hstays rfl rfl rfl rfl (by simp)
          (.threw error hsome hfailures (Or.inr (Or.inl (by simp))))
      · simp [step, advance, hphase, hfailures] at hstep
        subst hstep
        exact hstays rfl rfl rfl rfl (by simp)
          (.threw error hsome hfailures (Or.inr (Or.inr (by simp))))
      · simp [step, advance, hphase] at hstep

theorem raced_step {w : HedgeSide} {result : value} {m n : HedgeState value exn}
    {a : HedgeAction value exn} (h : Raced w result m) (hstep : step m a = some n) :
    Raced w result n := by
  have hnotCalling : m.phase w ≠ .calling := by
    rcases h.decided with ⟨hphase, _⟩ | ⟨hphase, _⟩ <;> simp [hphase]
  cases a with
  | returns side result' =>
      have hcalling := calling_of_step.left result' hstep
      rcases HedgeSide.eq_or_other w side with rfl | rfl
      · exact absurd hcalling hnotCalling
      · rw [step_returns hcalling, h.cancelled] at hstep
        cases hstep
        have hfailures := failures_of_late_calling h.late hcalling
        exact ⟨by simp [moved, h.outcome], rfl, by simpa [moved, ended] using h.decided,
          .returned result' (by simp [moved]) hfailures (by simp [moved])⟩
  | throws side error =>
      have hcalling := calling_of_step.right error hstep
      rcases HedgeSide.eq_or_other w side with rfl | rfl
      · exact absurd hcalling hnotCalling
      · rw [step_throws hcalling] at hstep
        cases hstep
        have hfailures := failures_of_late_calling h.late hcalling
        refine ⟨by simp [counted, moved, h.outcome], h.cancelled,
          by simpa [counted, moved, ended] using h.decided,
          .threw error (by simp [counted, moved]) ?_ (Or.inl ⟨.thrown error, ?_⟩)⟩
        · simp [counted, ended, hfailures]
        · simp [counted, moved, ended, hfailures]
  | next side =>
      rcases HedgeSide.eq_or_other w side with rfl | rfl
      · exact raced_winner_step h hstep
      · exact raced_loser_step h hstep

theorem promise_of_bothFailed {f : HedgeSide} {error : exn} {m n : HedgeState value exn}
    (h : BothFailed f error m) (hpromise : n.promise = m.promise)
    (hcount : n.satisfactions = m.satisfactions)
    (hopen : ¬ (n.phase f = .done ∧ n.phase f.other = .done)) :
    (n.promise = none ∧ n.satisfactions = 0 ∧
        ¬ (n.phase f = .done ∧ n.phase f.other = .done)) ∨
      (n.satisfactions = 1 ∧ exists fault, n.promise = some (.error fault)) := by
  rw [hpromise, hcount]
  rcases h.promise with ⟨hempty, hzero, _⟩ | hfull
  · exact Or.inl ⟨hempty, hzero, hopen⟩
  · exact Or.inr hfull

theorem published_of_bothFailed {f side : HedgeSide} {error : exn} {m n : HedgeState value exn}
    (h : BothFailed f error m) (hphase : m.phase side = .publishing)
    (hstep : step m (.next side) = some n) :
    exists fault,
      n = { m with promise := some (.error fault), satisfactions := 1 }.moved side .done := by
  rcases h.promise with ⟨hempty, hzero, _⟩ | ⟨hcount, fault, hfull⟩
  · simp [step, advance, hphase, hempty, satisfied, hzero] at hstep
    exact ⟨m.firstEx, hstep.symm⟩
  · simp [step, advance, hphase, hfull] at hstep
    refine ⟨fault, ?_⟩
    rw [← hfull, ← hcount]
    exact hstep.symm

theorem bothFailed_first_step {f : HedgeSide} {error : exn} {m n : HedgeState value exn}
    (h : BothFailed f error m) (hstep : step m (.next f) = some n) : BothFailed f error n := by
  rcases h.writer with ⟨hphase, _, _⟩ | ⟨hsome, hphase | hphase | hphase⟩
  · simp [step, advance, hphase] at hstep
    subst hstep
    exact ⟨h.outcome, h.outcomeOther, h.failures, h.firstFailure,
      Or.inr ⟨rfl, Or.inl (by simp)⟩, by simpa [moved] using h.second,
      promise_of_bothFailed h rfl rfl (by simp)⟩
  · simp [step, advance, hphase, h.failures] at hstep
    subst hstep
    exact ⟨h.outcome, h.outcomeOther, h.failures, h.firstFailure,
      Or.inr ⟨hsome, Or.inr (Or.inl (by simp))⟩, by simpa using h.second,
      promise_of_bothFailed h rfl rfl (by simp)⟩
  · rcases published_of_bothFailed h hphase hstep with ⟨fault, rfl⟩
    exact ⟨h.outcome, h.outcomeOther, h.failures, h.firstFailure,
      Or.inr ⟨hsome, Or.inr (Or.inr (by simp))⟩, by simpa using h.second,
      Or.inr ⟨rfl, fault, rfl⟩⟩
  · simp [step, advance, hphase] at hstep

theorem bothFailed_second_step {f : HedgeSide} {error : exn} {m n : HedgeState value exn}
    (h : BothFailed f error m) (hstep : step m (.next f.other) = some n) :
    BothFailed f error n := by
  rcases h.second with hphase | hphase | hphase
  · simp [step, advance, hphase, h.failures] at hstep
    subst hstep
    refine ⟨h.outcome, h.outcomeOther, h.failures, h.firstFailure, ?_,
      Or.inr (Or.inl (by simp)), promise_of_bothFailed h rfl rfl (by simp)⟩
    rcases h.writer with ⟨hwriting, hnone, hpromise | hdone⟩ | ⟨hsome, hfinishing⟩
    · exact Or.inl ⟨by simpa using hwriting, hnone, Or.inl hpromise⟩
    · simp [hphase] at hdone
    · exact Or.inr ⟨hsome, by simpa using hfinishing⟩
  · rcases published_of_bothFailed h hphase hstep with ⟨fault, rfl⟩
    refine ⟨h.outcome, h.outcomeOther, h.failures, h.firstFailure, ?_,
      Or.inr (Or.inr (by simp)), Or.inr ⟨rfl, fault, rfl⟩⟩
    rcases h.writer with ⟨hwriting, hnone, _⟩ | ⟨hsome, hfinishing⟩
    · exact Or.inl ⟨by simpa using hwriting, hnone, Or.inr (by simp)⟩
    · exact Or.inr ⟨hsome, by simpa using hfinishing⟩
  · simp [step, advance, hphase] at hstep

theorem bothFailed_step {f : HedgeSide} {error : exn} {m n : HedgeState value exn}
    {a : HedgeAction value exn} (h : BothFailed f error m) (hstep : step m a = some n) :
    BothFailed f error n := by
  have hnotCalling : forall side, m.phase side ≠ .calling := by
    intro side
    rcases HedgeSide.eq_or_other f side with rfl | rfl
    · rcases h.writer with ⟨hphase, _⟩ | ⟨_, hphase | hphase | hphase⟩ <;> simp [hphase]
    · rcases h.second with hphase | hphase | hphase <;> simp [hphase]
  cases a with
  | returns side result => exact absurd (calling_of_step.left result hstep) (hnotCalling side)
  | throws side error' => exact absurd (calling_of_step.right error' hstep) (hnotCalling side)
  | next side =>
      rcases HedgeSide.eq_or_other f side with rfl | rfl
      · exact bothFailed_first_step h hstep
      · exact bothFailed_second_step h hstep

theorem situation_of_run {actions : List (HedgeAction value exn)} {m : HedgeState value exn}
    (hrun : run step start actions = some m) : Situation m := by
  refine invariant_of_run (P := fun _ m => Situation m) (.fresh fresh_start) ?_ hrun
  intro actions m a n _hrun h hstep
  cases h with
  | fresh h => exact fresh_step h hstep
  | oneFailed f error h => exact oneFailed_step h hstep
  | raced w result h => exact .raced w result (raced_step h hstep)
  | bothFailed f error h => exact .bothFailed f error (bothFailed_step h hstep)

/-!
## What the promise holds at the end

The promise is settled by the winner, or by the thread that publishes after two
failures.  A `set_exception` before `first_ex` is written stores a null pointer.
-/

theorem promise_stays {m n : HedgeState value exn} {actions : List (HedgeAction value exn)}
    {content : Except (Option (HedgeFault exn)) value} (h : m.promise = some content)
    (hrun : run step m actions = some n) : n.promise = some content := by
  refine invariant_of_run (P := fun _ n => n.promise = some content) h ?_ hrun
  intro actions k a l _hrun hk hstep
  rcases promise_of_step hstep with hsame | ⟨hnone, _⟩ | ⟨hnone, _⟩
  · rw [hsame]
    exact hk
  · rw [hk] at hnone
    cases hnone
  · rw [hk] at hnone
    cases hnone

theorem bothFailed_of_publishing {m : HedgeState value exn} (h : Situation m)
    {side : HedgeSide} (hphase : m.phase side = .publishing) :
    exists f error, BothFailed f error m := by
  cases h with
  | fresh h =>
      rcases (h.unended side).right with hother | ⟨_, hother⟩ <;> simp [hphase] at hother
  | oneFailed f error h =>
      rcases HedgeSide.eq_or_other f side with rfl | rfl
      · rcases h.writer with ⟨hother, _⟩ | ⟨_, hother | hother⟩ <;> simp [hphase] at hother
      · rcases h.unended.right with hother | ⟨_, hother⟩ <;> simp [hphase] at hother
  | raced w result h =>
      rcases HedgeSide.eq_or_other w side with rfl | rfl
      · rcases h.decided with ⟨hother, _⟩ | ⟨hother, _⟩ <;> simp [hphase] at hother
      · cases h.late with
        | calling _ _ hother => simp [hphase] at hother
        | asleep _ _ _ hother => simp [hphase] at hother
        | returned _ _ _ hother => simp [hphase] at hother
        | threw _ _ _ hother => simp [hphase] at hother
  | bothFailed f error h => exact ⟨f, error, h⟩

/-- A published exception is that of the call that failed first. -/
def Faithful (m : HedgeState value exn) : Prop :=
  forall fault, m.promise = some (.error fault) ->
    exists f error, BothFailed f error m ∧ fault = some (.thrown error)

theorem faithful_step {m n : HedgeState value exn} {a : HedgeAction value exn}
    (hsituation : Situation m) (h : Faithful m) (hwritten : firstExWritten m a)
    (hstep : step m a = some n) : Faithful n := by
  intro fault hfault
  rcases promise_of_step hstep with hsame | ⟨_, result, hvalue⟩ | ⟨_, herror, side, rfl, hphase⟩
  · rw [hsame] at hfault
    rcases h fault hfault with ⟨f, error, hboth, heq⟩
    exact ⟨f, error, bothFailed_step hboth hstep, heq⟩
  · rw [hvalue] at hfault
    cases hfault
  · rcases bothFailed_of_publishing hsituation hphase with ⟨f, error, hboth⟩
    refine ⟨f, error, bothFailed_step hboth hstep, ?_⟩
    rw [herror] at hfault
    cases hfault
    rcases hboth.writer with ⟨hwriting, _⟩ | ⟨hsome, _⟩
    · exact absurd hwriting (hwritten hphase f (.thrown error))
    · exact hsome

theorem faithful_of_run {actions : List (HedgeAction value exn)} {m : HedgeState value exn}
    (hwritten : StepsMeet step firstExWritten start actions)
    (hrun : run step start actions = some m) : Faithful m := by
  refine invariant_of_stepsMeet (P := fun _ m => Faithful m) ?_ ?_ hwritten hrun
  · intro fault hfault
    cases hfault
  · intro actions m a n hm h hok hstep
    exact faithful_step (situation_of_run hm) h hok hstep

theorem settled_of_faithful {m : HedgeState value exn} (hsituation : Situation m)
    (hfaithful : Faithful m) (hterminal : Terminal m) : Settled m := by
  cases hsituation with
  | fresh h =>
      rcases (h.unended .primary).right with hphase | ⟨hside, _⟩
      · simp [hterminal .primary] at hphase
      · cases hside
  | oneFailed f error h =>
      rcases h.unended.right with hphase | ⟨_, hphase⟩ <;> simp [hterminal f.other] at hphase
  | raced w result h =>
      rcases h.decided with ⟨hphase, _⟩ | ⟨_, hpromise, hcount⟩
      · simp [hterminal w] at hphase
      · refine ⟨hcount, fun _ => ⟨w, result, h.outcome, hpromise⟩, ?_⟩
        intro hnone
        exact absurd ⟨w, result, h.outcome⟩ hnone
  | bothFailed f error h =>
      rcases h.promise with ⟨_, _, hnot⟩ | ⟨hcount, fault, hpromise⟩
      · exact absurd ⟨hterminal f, hterminal f.other⟩ hnot
      · refine ⟨hcount, ?_, ?_⟩
        · rintro ⟨side, result, houtcome⟩
          rcases h.outcomeOther with ⟨error', hother⟩
          rcases HedgeSide.eq_or_other f side with rfl | rfl
          · simp [h.outcome] at houtcome
          · simp [hother] at houtcome
        · intro _hnone
          rcases hfaithful fault hpromise with ⟨f', error', hboth, rfl⟩
          exact ⟨f', error', hboth.firstFailure, hboth.outcome, hpromise⟩

theorem null_of_not_firstExWritten {m n : HedgeState value exn} {a : HedgeAction value exn}
    (hsituation : Situation m) (hnot : ¬ firstExWritten m a) (hstep : step m a = some n) :
    n.promise = some (.error none) := by
  cases a with
  | returns side result => exact absurd trivial hnot
  | throws side error => exact absurd trivial hnot
  | next side =>
      rw [firstExWritten] at hnot
      push Not at hnot
      rcases hnot with ⟨hphase, other, fault, hwriting⟩
      rcases bothFailed_of_publishing hsituation hphase with ⟨f, error, h⟩
      have hother : other = f := by
        rcases HedgeSide.eq_or_other f other with hother | rfl
        · exact hother
        · rcases h.second with hfinishing | hfinishing | hfinishing <;>
            simp [hwriting] at hfinishing
      rw [hother] at hwriting
      have hside : side = f.other := by
        rcases HedgeSide.eq_or_other f side with rfl | hside
        · simp [hphase] at hwriting
        · exact hside
      rw [hside] at hphase hstep
      rcases h.writer with ⟨_, hnull, hempty | hdone⟩ | ⟨_, hfinishing⟩
      · simp [step, advance, hphase, hempty] at hstep
        subst hstep
        simp [moved, satisfied, hnull]
      · simp [hphase] at hdone
      · rcases hfinishing with hfinishing | hfinishing | hfinishing <;>
          simp [hwriting] at hfinishing

theorem not_settled_of_null {m : HedgeState value exn} (h : m.promise = some (.error none)) :
    ¬ Settled m := by
  intro hsettled
  by_cases hvalue : exists side result, m.outcome side = some (.ok result)
  · rcases hsettled.value hvalue with ⟨_, _, _, hpromise⟩
    rw [h] at hpromise
    cases hpromise
  · rcases hsettled.exception hvalue with ⟨_, _, _, _, hpromise⟩
    rw [h] at hpromise
    cases hpromise

/--
For every interleaving that ends both threads, whatever the calls did: the
promise is settled exactly when no `set_exception` is taken while the first
failure has been counted and `first_ex` not yet written.
-/
theorem settled_iff (actions : List (HedgeAction value exn)) (t : HedgeState value exn)
    (hrun : run step start actions = some t) (hterminal : Terminal t) :
    Settled t <-> StepsMeet step firstExWritten start actions := by
  constructor
  · intro hsettled before a after m hsplit hm
    by_contra hnot
    rw [hsplit] at hrun
    rcases (run_append_eq_some_iff before (a :: after)).mp hrun with ⟨m', hm', hrest⟩
    rw [hm] at hm'
    cases hm'
    rcases (run_cons_eq_some_iff a after).mp hrest with ⟨n, hstep, hafter⟩
    have hnull := null_of_not_firstExWritten (situation_of_run hm) hnot hstep
    exact not_settled_of_null (promise_stays hnull hafter) hsettled
  · intro hwritten
    exact settled_of_faithful (situation_of_run hrun) (faithful_of_run hwritten hrun) hterminal

def earlyPublish : List (HedgeAction Nat String) :=
  [.next .hedge, .throws .primary "first", .throws .hedge "second", .next .hedge, .next .hedge,
    .next .primary, .next .primary, .next .primary]

theorem earlyPublish_null :
    exists t, run step start earlyPublish = some t ∧ Terminal t ∧
      t.promise = some (.error none) ∧ ¬ Settled t := by
  have hrun : exists t, run step start earlyPublish = some t ∧
      (t.phase .primary = .done ∧ t.phase .hedge = .done) ∧ t.promise = some (.error none) :=
    ⟨_, rfl, ⟨rfl, rfl⟩, rfl⟩
  rcases hrun with ⟨t, ht, ⟨hprimary, hhedge⟩, hnull⟩
  refine ⟨t, ht, ?_, hnull, not_settled_of_null hnull⟩
  intro side
  cases side with
  | primary => exact hprimary
  | hedge => exact hhedge

def orderlyFailures : List (HedgeAction Nat String) :=
  [.next .hedge, .throws .primary "first", .next .primary, .throws .hedge "second",
    .next .primary, .next .hedge, .next .primary, .next .hedge]

theorem orderlyFailures_settled :
    exists t, run step start orderlyFailures = some t ∧ Terminal t ∧ Settled t := by
  have hrun : exists t, run step start orderlyFailures = some t ∧
      (t.phase .primary = .done ∧ t.phase .hedge = .done) := ⟨_, rfl, rfl, rfl⟩
  rcases hrun with ⟨t, ht, hprimary, hhedge⟩
  have hterminal : Terminal t := by
    intro side
    cases side with
    | primary => exact hprimary
    | hedge => exact hhedge
  refine ⟨t, ht, hterminal, (settled_iff orderlyFailures t ht hterminal).mpr ?_⟩
  -- Six steps before the first `set_exception`, and then the two of them.
  refine stepsMeet_cons (firstExWritten_of_not_publishing (by decide)) rfl ?_
  refine stepsMeet_cons trivial rfl ?_
  refine stepsMeet_cons (firstExWritten_of_not_publishing (by decide)) rfl ?_
  refine stepsMeet_cons trivial rfl ?_
  refine stepsMeet_cons (firstExWritten_of_not_publishing (by decide)) rfl ?_
  refine stepsMeet_cons (firstExWritten_of_not_publishing (by decide)) rfl ?_
  refine stepsMeet_cons ?_ rfl (stepsMeet_cons ?_ rfl stepsMeet_nil)
  · intro _hphase other fault
    cases other <;> nofun
  · intro _hphase other fault
    cases other <;> nofun

end HedgeState
end Resilience
end CppCommons
