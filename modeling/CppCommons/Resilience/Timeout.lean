import CppCommons.Cxx.StandardLibrary
import CppCommons.Foundation.LabelledRun

/-!
# Timeout

`with_timeout` starts its function with `std::async`, waits for the limit and
then either takes the result or throws.  A future made by `std::async` waits in
its destructor for the task to end, so the exception leaves only after that.
Any number of calls overlap, and time passes between any two steps.
-/

namespace CppCommons
namespace Resilience

open Cxx
open Foundation.LabelledRun

structure TimeoutError where
  what : String
deriving DecidableEq

def operationTimedOut : TimeoutError := { what := "operation timed out" }

def ofMilliseconds (limit : Int) : Nanoseconds :=
  limit * 1000000

/-- The exceptions that leave `with_timeout`; `std::async` throws `std::system_error`
when it cannot start a thread. -/
inductive TimeoutExit (exn : Type) where
  | timeout (error : TimeoutError)
  | systemError
  | rethrown (error : exn)
deriving DecidableEq

/-- How `fut.get()` shows the end of the task. -/
def delivered {value exn : Type} : Except exn value -> Except (TimeoutExit exn) value
  | .ok result => .ok result
  | .error e => .error (.rethrown e)

inductive TaskPhase (value exn : Type) where
  | absent
  | running
  | ended (outcome : Except exn value)

/-- Where the caller stands: before `std::async`, in `wait_for`, before `fut.get()`, or in
the destructor of the future with the exception on its way. -/
inductive CallerPhase (value exn : Type) where
  | outside
  | waiting (deadline : Nanoseconds)
  | getting
  | unwinding
  | ended (outcome : Except (TimeoutExit exn) value)

inductive FutureStatus where
  | ready
  | timeout
deriving DecidableEq

inductive TimeoutEvent (value exn : Type) where
  | launched (limit : Int)
  | launchFailed
  | finished (outcome : Except exn value)
  | answered (status : FutureStatus)
  | left (outcome : Except (TimeoutExit exn) value)

/-- An event of a call, with the time at which it happened. -/
structure TimeoutEntry (callId value exn : Type) where
  call : callId
  time : Nanoseconds
  event : TimeoutEvent value exn

inductive TimeoutAction (callId value exn : Type) where
  | tick (now : Nanoseconds)
  | launch (call : callId) (limit : Int)
  | launchFails (call : callId)
  | finishTask (call : callId) (outcome : Except exn value)
  | waitReturns (call : callId)
  | get (call : callId)
  | join (call : callId)

/-- Overlapping calls of `with_timeout`; the log has the oldest entry first. -/
structure Timeouts (callId value exn : Type) where
  now : Nanoseconds
  caller : callId -> CallerPhase value exn
  task : callId -> TaskPhase value exn
  log : List (TimeoutEntry callId value exn)

namespace Timeouts

variable {callId value exn : Type}

def start (now : Nanoseconds) : Timeouts callId value exn where
  now := now
  caller := fun _ => .outside
  task := fun _ => .absent
  log := []

variable [DecidableEq callId]

def record (w : Timeouts callId value exn) (i : callId) (caller : CallerPhase value exn)
    (task : TaskPhase value exn) (event : TimeoutEvent value exn) : Timeouts callId value exn where
  now := w.now
  caller := Function.update w.caller i caller
  task := Function.update w.task i task
  log := w.log ++ [{ call := i, time := w.now, event := event }]

theorem caller_record_of_ne (w : Timeouts callId value exn) {i j : callId} (h : j ≠ i)
    (caller : CallerPhase value exn) (task : TaskPhase value exn)
    (event : TimeoutEvent value exn) :
    (w.record i caller task event).caller j = w.caller j :=
  Function.update_of_ne h _ _

theorem caller_record_same (w : Timeouts callId value exn) (i : callId)
    (task : TaskPhase value exn) (event : TimeoutEvent value exn) :
    (w.record i (w.caller i) task event).caller = w.caller :=
  Function.update_eq_self i w.caller

/-- `wait_for` answers `ready` when the task has ended, and `timeout` when it has not and
the limit is over. -/
def waitReturns (w : Timeouts callId value exn) (i : callId) (deadline : Nanoseconds) :
    Option (Timeouts callId value exn) :=
  match w.task i with
  | .ended outcome => some (w.record i .getting (.ended outcome) (.answered .ready))
  | .running =>
      if deadline <= w.now then some (w.record i .unwinding .running (.answered .timeout))
      else none
  | .absent => none

/-- The caller leaves with an exception or a result, which both wait for the task. -/
def leave (w : Timeouts callId value exn) (i : callId)
    (exit : Except exn value -> Except (TimeoutExit exn) value) :
    Option (Timeouts callId value exn) :=
  match w.task i with
  | .ended outcome =>
      some (w.record i (.ended (exit outcome)) (.ended outcome) (.left (exit outcome)))
  | _ => none

def step (w : Timeouts callId value exn) :
    TimeoutAction callId value exn -> Option (Timeouts callId value exn)
  | .tick now => if w.now <= now then some { w with now := now } else none
  | .launch i limit =>
      match w.caller i with
      | .outside =>
          some (w.record i (.waiting (w.now + ofMilliseconds limit)) .running (.launched limit))
      | _ => none
  | .launchFails i =>
      match w.caller i with
      | .outside => some (w.record i (.ended (.error .systemError)) .absent .launchFailed)
      | _ => none
  | .finishTask i outcome =>
      match w.task i with
      | .running => some (w.record i (w.caller i) (.ended outcome) (.finished outcome))
      | _ => none
  | .waitReturns i =>
      match w.caller i with
      | .waiting deadline => w.waitReturns i deadline
      | _ => none
  | .get i =>
      match w.caller i with
      | .getting => w.leave i delivered
      | _ => none
  | .join i =>
      match w.caller i with
      | .unwinding => w.leave i fun _ => .error (.timeout operationTimedOut)
      | _ => none

/-!
## What a step can do

Every action with its guard and its effect.
-/

inductive Stepped (w : Timeouts callId value exn) :
    TimeoutAction callId value exn -> Timeouts callId value exn -> Prop where
  | ticked {now : Nanoseconds} : w.now <= now -> Stepped w (.tick now) { w with now := now }
  | launched {i : callId} (limit : Int) : w.caller i = .outside ->
      Stepped w (.launch i limit)
        (w.record i (.waiting (w.now + ofMilliseconds limit)) .running (.launched limit))
  | launchFailed {i : callId} : w.caller i = .outside ->
      Stepped w (.launchFails i)
        (w.record i (.ended (.error .systemError)) .absent .launchFailed)
  | finished {i : callId} (outcome : Except exn value) : w.task i = .running ->
      Stepped w (.finishTask i outcome)
        (w.record i (w.caller i) (.ended outcome) (.finished outcome))
  | ready {i : callId} {deadline : Nanoseconds} {outcome : Except exn value} :
      w.caller i = .waiting deadline -> w.task i = .ended outcome ->
      Stepped w (.waitReturns i) (w.record i .getting (.ended outcome) (.answered .ready))
  | expired {i : callId} {deadline : Nanoseconds} : w.caller i = .waiting deadline ->
      w.task i = .running -> deadline <= w.now ->
      Stepped w (.waitReturns i) (w.record i .unwinding .running (.answered .timeout))
  | got {i : callId} {outcome : Except exn value} : w.caller i = .getting ->
      w.task i = .ended outcome ->
      Stepped w (.get i)
        (w.record i (.ended (delivered outcome)) (.ended outcome) (.left (delivered outcome)))
  | joined {i : callId} {outcome : Except exn value} : w.caller i = .unwinding ->
      w.task i = .ended outcome ->
      Stepped w (.join i)
        (w.record i (.ended (.error (.timeout operationTimedOut))) (.ended outcome)
          (.left (.error (.timeout operationTimedOut))))

theorem leave_eq_some {w v : Timeouts callId value exn} {i : callId}
    {exit : Except exn value -> Except (TimeoutExit exn) value} (h : w.leave i exit = some v) :
    exists outcome, w.task i = .ended outcome ∧
      v = w.record i (.ended (exit outcome)) (.ended outcome) (.left (exit outcome)) := by
  unfold leave at h
  split at h
  · next outcome htask =>
      cases h
      exact ⟨outcome, htask, rfl⟩
  · cases h

theorem stepped_waitReturns {w v : Timeouts callId value exn} {i : callId}
    {deadline : Nanoseconds} (hcaller : w.caller i = .waiting deadline)
    (h : w.waitReturns i deadline = some v) : Stepped w (.waitReturns i) v := by
  unfold waitReturns at h
  split at h
  · next outcome htask =>
      cases h
      exact .ready hcaller htask
  · next htask =>
      split at h
      · next hover =>
          cases h
          exact .expired hcaller htask hover
      · cases h
  · cases h

theorem stepped_of_step {w v : Timeouts callId value exn} {a : TimeoutAction callId value exn}
    (h : step w a = some v) : Stepped w a v := by
  cases a with
  | tick now =>
      simp only [step] at h
      split at h
      · next hle =>
          cases h
          exact .ticked hle
      · cases h
  | launch i limit =>
      simp only [step] at h
      split at h
      · next hcaller =>
          cases h
          exact .launched limit hcaller
      · cases h
  | launchFails i =>
      simp only [step] at h
      split at h
      · next hcaller =>
          cases h
          exact .launchFailed hcaller
      · cases h
  | finishTask i outcome =>
      simp only [step] at h
      split at h
      · next htask =>
          cases h
          exact .finished outcome htask
      · cases h
  | waitReturns i =>
      simp only [step] at h
      split at h
      · next deadline hcaller => exact stepped_waitReturns hcaller h
      · cases h
  | get i =>
      simp only [step] at h
      split at h
      · next hcaller =>
          rcases leave_eq_some h with ⟨outcome, htask, rfl⟩
          exact .got hcaller htask
      · cases h
  | join i =>
      simp only [step] at h
      split at h
      · next hcaller =>
          rcases leave_eq_some h with ⟨outcome, htask, rfl⟩
          exact .joined hcaller htask
      · cases h

/-!
## The life of one call

Where the caller and the task of one call stand, told by the events of that call.  A
step records an event for one call; the others keep theirs.
-/

/-- The events of one call, with their times, oldest first. -/
def history (w : Timeouts callId value exn) (i : callId) :
    List (Nanoseconds × TimeoutEvent value exn) :=
  (w.log.filter (fun entry => entry.call = i)).map fun entry => (entry.time, entry.event)

theorem history_record_self (w : Timeouts callId value exn) (i : callId)
    (caller : CallerPhase value exn) (task : TaskPhase value exn)
    (event : TimeoutEvent value exn) :
    (w.record i caller task event).history i = w.history i ++ [(w.now, event)] := by
  simp [history, record]

theorem history_record_of_ne (w : Timeouts callId value exn) {i j : callId} (h : j ≠ i)
    (caller : CallerPhase value exn) (task : TaskPhase value exn)
    (event : TimeoutEvent value exn) :
    (w.record i caller task event).history j = w.history j := by
  simp [history, record, Ne.symm h]

/-- Where the caller and the task stand after the given events.  Either the task ends
first and the wait is answered `ready`, or the limit is over first. -/
inductive Life : CallerPhase value exn -> TaskPhase value exn ->
    List (Nanoseconds × TimeoutEvent value exn) -> Prop where
  | outside : Life .outside .absent []
  | failed (t : Nanoseconds) : Life (.ended (.error .systemError)) .absent [(t, .launchFailed)]
  | waiting (t0 : Nanoseconds) (limit : Int) :
      Life (.waiting (t0 + ofMilliseconds limit)) .running [(t0, .launched limit)]
  | finished (t0 t1 : Nanoseconds) (limit : Int) (outcome : Except exn value) :
      Life (.waiting (t0 + ofMilliseconds limit)) (.ended outcome)
        [(t0, .launched limit), (t1, .finished outcome)]
  | getting (t0 t1 t2 : Nanoseconds) (limit : Int) (outcome : Except exn value) :
      Life .getting (.ended outcome)
        [(t0, .launched limit), (t1, .finished outcome), (t2, .answered .ready)]
  | returned (t0 t1 t2 t3 : Nanoseconds) (limit : Int) (outcome : Except exn value) :
      Life (.ended (delivered outcome)) (.ended outcome)
        [(t0, .launched limit), (t1, .finished outcome), (t2, .answered .ready),
          (t3, .left (delivered outcome))]
  | unwinding (t0 t1 : Nanoseconds) (limit : Int) : t0 + ofMilliseconds limit <= t1 ->
      Life .unwinding .running [(t0, .launched limit), (t1, .answered .timeout)]
  | late (t0 t1 t2 : Nanoseconds) (limit : Int) (outcome : Except exn value) :
      t0 + ofMilliseconds limit <= t1 ->
      Life .unwinding (.ended outcome)
        [(t0, .launched limit), (t1, .answered .timeout), (t2, .finished outcome)]
  | timedOut (t0 t1 t2 t3 : Nanoseconds) (limit : Int) (outcome : Except exn value) :
      t0 + ofMilliseconds limit <= t1 ->
      Life (.ended (.error (.timeout operationTimedOut))) (.ended outcome)
        [(t0, .launched limit), (t1, .answered .timeout), (t2, .finished outcome),
          (t3, .left (.error (.timeout operationTimedOut)))]

namespace Life

variable {caller : CallerPhase value exn} {task : TaskPhase value exn}
  {events : List (Nanoseconds × TimeoutEvent value exn)} {outcome : Except exn value}

theorem launch (h : Life .outside task events) (t : Nanoseconds) (limit : Int) :
    Life (.waiting (t + ofMilliseconds limit)) .running (events ++ [(t, .launched limit)]) := by
  cases h with
  | outside => exact .waiting t limit

theorem launchFail (h : Life .outside task events) (t : Nanoseconds) :
    Life (.ended (.error .systemError)) .absent (events ++ [(t, .launchFailed)]) := by
  cases h with
  | outside => exact .failed t

theorem finish (h : Life caller .running events) (t : Nanoseconds) (outcome : Except exn value) :
    Life caller (.ended outcome) (events ++ [(t, .finished outcome)]) := by
  cases h with
  | waiting t0 limit => exact .finished t0 t limit outcome
  | unwinding t0 t1 limit hover => exact .late t0 t1 t limit outcome hover

theorem ready {deadline : Nanoseconds} (h : Life (.waiting deadline) (.ended outcome) events)
    (t : Nanoseconds) : Life .getting (.ended outcome) (events ++ [(t, .answered .ready)]) := by
  cases h with
  | finished t0 t1 limit => exact .getting t0 t1 t limit outcome

theorem expire {deadline t : Nanoseconds} (h : Life (.waiting deadline) .running events)
    (hover : deadline <= t) :
    Life .unwinding .running (events ++ [(t, .answered .timeout)]) := by
  cases h with
  | waiting t0 limit => exact .unwinding t0 t limit hover

theorem get (h : Life .getting (.ended outcome) events) (t : Nanoseconds) :
    Life (.ended (delivered outcome)) (.ended outcome)
      (events ++ [(t, .left (delivered outcome))]) := by
  cases h with
  | getting t0 t1 t2 limit => exact .returned t0 t1 t2 t limit outcome

theorem join (h : Life .unwinding (.ended outcome) events) (t : Nanoseconds) :
    Life (.ended (.error (.timeout operationTimedOut))) (.ended outcome)
      (events ++ [(t, .left (.error (.timeout operationTimedOut)))]) := by
  cases h with
  | late t0 t1 t2 limit _ hover => exact .timedOut t0 t1 t2 t limit outcome hover

end Life

def Lives (w : Timeouts callId value exn) (i : callId) : Prop :=
  Life (w.caller i) (w.task i) (w.history i)

theorem lives_record {w : Timeouts callId value exn} (h : forall i, w.Lives i) {i : callId}
    {caller : CallerPhase value exn} {task : TaskPhase value exn}
    {event : TimeoutEvent value exn}
    (hlife : Life caller task (w.history i ++ [(w.now, event)])) (j : callId) :
    (w.record i caller task event).Lives j := by
  unfold Lives
  by_cases hij : j = i
  · rw [hij, history_record_self]
    simpa [record] using hlife
  · have hj : Life (w.caller j) (w.task j) (w.history j) := h j
    rw [history_record_of_ne w hij]
    simpa [record, hij] using hj

theorem lives_step {w v : Timeouts callId value exn} {a : TimeoutAction callId value exn}
    (h : forall i, w.Lives i) (hstep : Stepped w a v) (j : callId) : v.Lives j := by
  have hlife : forall i, Life (w.caller i) (w.task i) (w.history i) := h
  cases hstep with
  | ticked hle => exact h j
  | @launched i limit hcaller =>
      have hi := hlife i
      rw [hcaller] at hi
      exact lives_record h (hi.launch w.now limit) j
  | @launchFailed i hcaller =>
      have hi := hlife i
      rw [hcaller] at hi
      exact lives_record h (hi.launchFail w.now) j
  | @finished i outcome htask =>
      have hi := hlife i
      rw [htask] at hi
      exact lives_record h (hi.finish w.now outcome) j
  | @ready i deadline outcome hcaller htask =>
      have hi := hlife i
      rw [hcaller, htask] at hi
      exact lives_record h (hi.ready w.now) j
  | @expired i deadline hcaller htask hover =>
      have hi := hlife i
      rw [hcaller, htask] at hi
      exact lives_record h (hi.expire hover) j
  | @got i outcome hcaller htask =>
      have hi := hlife i
      rw [hcaller, htask] at hi
      exact lives_record h (hi.get w.now) j
  | @joined i outcome hcaller htask =>
      have hi := hlife i
      rw [hcaller, htask] at hi
      exact lives_record h (hi.join w.now) j

theorem lives_of_run {now : Nanoseconds} {w : Timeouts callId value exn}
    {actions : List (TimeoutAction callId value exn)}
    (hrun : run step (start now) actions = some w) (i : callId) : w.Lives i := by
  have hall : forall i, w.Lives i := by
    refine invariant_of_run (P := fun _ w => forall i, w.Lives i) (fun i => .outside) ?_ hrun
    intro actions m a n _hm h hstep
    exact lives_step h (stepped_of_step hstep)
  exact hall i

/-!
## Time in the log

The entries of the log stand in the order of their times, all of them past.
-/

structure Timed (w : Timeouts callId value exn) : Prop where
  ordered : (w.log.map TimeoutEntry.time).Pairwise (· <= ·)
  past : forall entry, entry ∈ w.log -> entry.time <= w.now

theorem timed_record {w : Timeouts callId value exn} (h : w.Timed) (i : callId)
    (caller : CallerPhase value exn) (task : TaskPhase value exn)
    (event : TimeoutEvent value exn) : (w.record i caller task event).Timed := by
  constructor
  · rw [record, List.map_append, List.pairwise_append]
    refine ⟨h.ordered, List.pairwise_singleton _ _, ?_⟩
    intro t ht t' ht'
    rcases List.mem_map.mp ht with ⟨entry, hentry, rfl⟩
    rw [List.mem_singleton.mp ht']
    exact h.past entry hentry
  · intro entry hentry
    rcases List.mem_append.mp hentry with hearlier | hnew
    · exact h.past entry hearlier
    · rw [List.mem_singleton.mp hnew]
      exact Int.le_refl w.now

theorem timed_step {w v : Timeouts callId value exn} {a : TimeoutAction callId value exn}
    (h : w.Timed) (hstep : Stepped w a v) : v.Timed := by
  cases hstep with
  | ticked hle => exact ⟨h.ordered, fun entry hentry => Int.le_trans (h.past entry hentry) hle⟩
  | launched limit hcaller => exact timed_record h _ _ _ _
  | launchFailed hcaller => exact timed_record h _ _ _ _
  | finished outcome htask => exact timed_record h _ _ _ _
  | ready hcaller htask => exact timed_record h _ _ _ _
  | expired hcaller htask hover => exact timed_record h _ _ _ _
  | got hcaller htask => exact timed_record h _ _ _ _
  | joined hcaller htask => exact timed_record h _ _ _ _

theorem timed_of_run {now : Nanoseconds} {w : Timeouts callId value exn}
    {actions : List (TimeoutAction callId value exn)}
    (hrun : run step (start now) actions = some w) : w.Timed :=
  invariant_of_run (P := fun _ w => w.Timed) ⟨List.Pairwise.nil, nofun⟩
    (fun _ _ _ _ _ h hstep => timed_step h (stepped_of_step hstep)) hrun

/-!
## Leaving the call

A call leaves with the result of a task that ended in time, or with `TimeoutError`
after a task that did not; in both cases the task has ended.
-/

/-- The call is inside `with_timeout`, with its task started. -/
def Inside : CallerPhase value exn -> Prop
  | .outside => False
  | .waiting _ => True
  | .getting => True
  | .unwinding => True
  | .ended _ => False

/-- The task ended in time, and its result was taken. -/
def Delivers (events : List (Nanoseconds × TimeoutEvent value exn))
    (outcome : Except exn value) : Prop :=
  exists t0 t1 t2 t3 limit, events =
    [(t0, .launched limit), (t1, .finished outcome), (t2, .answered .ready),
      (t3, .left (delivered outcome))]

/-- The limit was over while the task ran, and the call stayed until the task ended. -/
def TimesOut (events : List (Nanoseconds × TimeoutEvent value exn))
    (outcome : Except exn value) : Prop :=
  exists t0 t1 t2 t3 limit, t0 + ofMilliseconds limit <= t1 ∧ events =
    [(t0, .launched limit), (t1, .answered .timeout), (t2, .finished outcome),
      (t3, .left (.error (.timeout operationTimedOut)))]

theorem Life.exit {task : TaskPhase value exn}
    {events : List (Nanoseconds × TimeoutEvent value exn)}
    {exit : Except (TimeoutExit exn) value} (h : Life (.ended exit) task events) :
    (exit = .error .systemError ∧ task = .absent ∧ exists t, events = [(t, .launchFailed)]) ∨
      exists outcome, task = .ended outcome ∧
        ((exit = delivered outcome ∧ Delivers events outcome) ∨
          (exit = .error (.timeout operationTimedOut) ∧ TimesOut events outcome)) := by
  cases h with
  | failed t => exact Or.inl ⟨rfl, rfl, t, rfl⟩
  | returned t0 t1 t2 t3 limit outcome =>
      exact Or.inr ⟨outcome, rfl, Or.inl ⟨rfl, t0, t1, t2, t3, limit, rfl⟩⟩
  | timedOut t0 t1 t2 t3 limit outcome hover =>
      exact Or.inr ⟨outcome, rfl, Or.inr ⟨rfl, t0, t1, t2, t3, limit, hover, rfl⟩⟩

theorem Life.inside_of_running {caller : CallerPhase value exn}
    {events : List (Nanoseconds × TimeoutEvent value exn)} (h : Life caller .running events) :
    Inside caller := by
  cases h with
  | waiting t0 limit => trivial
  | unwinding t0 t1 limit hover => trivial

theorem caller_moves {w : Timeouts callId value exn} {i : callId} {outcome : Except exn value}
    (htask : w.task i = .ended outcome) (hinside : Inside (w.caller i)) :
    exists a, a ∈ [.waitReturns i, .get i, .join i] ∧ (step w a).isSome = true := by
  cases hcaller : w.caller i with
  | outside =>
      rw [hcaller] at hinside
      exact hinside.elim
  | waiting deadline =>
      refine ⟨.waitReturns i, by simp, ?_⟩
      simp only [step, hcaller, waitReturns, htask, Option.isSome_some]
  | getting =>
      refine ⟨.get i, by simp, ?_⟩
      simp only [step, hcaller, leave, htask, Option.isSome_some]
  | unwinding =>
      refine ⟨.join i, by simp, ?_⟩
      simp only [step, hcaller, leave, htask, Option.isSome_some]
  | ended exit =>
      rw [hcaller] at hinside
      exact hinside.elim

/--
For every interleaving of overlapping calls and of the passing of time: a call
that could start its task leaves only after the task has ended, with the task's
own outcome when that was there before the wait was over, and else, the limit
having passed, with the timeout; a running task always has its caller inside the
call; and once the task has ended the caller is never stuck.
-/
theorem withTimeout_joins (now : Nanoseconds) (actions : List (TimeoutAction callId value exn))
    (w : Timeouts callId value exn) (hrun : run step (start now) actions = some w) :
    (forall i exit, w.caller i = .ended exit ->
      (exit = .error .systemError ∧ w.task i = .absent ∧
        exists t, w.history i = [(t, .launchFailed)]) ∨
      exists outcome, w.task i = .ended outcome ∧
        ((exit = delivered outcome ∧ Delivers (w.history i) outcome) ∨
          (exit = .error (.timeout operationTimedOut) ∧ TimesOut (w.history i) outcome))) ∧
    (forall i, w.task i = .running -> Inside (w.caller i)) ∧
    (forall i outcome, w.task i = .ended outcome -> Inside (w.caller i) ->
      exists a, a ∈ [.waitReturns i, .get i, .join i] ∧ (step w a).isSome = true) ∧
    (w.log.map TimeoutEntry.time).Pairwise (· <= ·) := by
  have hlife : forall i, Life (w.caller i) (w.task i) (w.history i) := lives_of_run hrun
  refine ⟨?_, ?_, ?_, (timed_of_run hrun).ordered⟩
  · intro i exit hended
    have hi := hlife i
    rw [hended] at hi
    exact hi.exit
  · intro i hrunning
    have hi := hlife i
    rw [hrunning] at hi
    exact hi.inside_of_running
  · intro i outcome htask hinside
    exact caller_moves htask hinside

def slowTask : List (TimeoutAction Unit Nat String) :=
  [.launch () 5, .tick 5000000, .waitReturns (), .tick 9000000, .finishTask () (.ok 7), .join ()]

theorem slowTask_joined :
    exists w, run step (start 0) slowTask = some w ∧
      w.caller () = .ended (.error (.timeout operationTimedOut)) ∧ w.task () = .ended (.ok 7) ∧
      TimesOut (w.history ()) (.ok 7) := by
  have hrun : exists w, run step (start 0) slowTask = some w ∧
      w.caller () = .ended (.error (.timeout operationTimedOut)) ∧
      w.task () = .ended (.ok 7) := ⟨_, rfl, rfl, rfl⟩
  rcases hrun with ⟨w, hw, hcaller, htask⟩
  refine ⟨w, hw, hcaller, htask, ?_⟩
  rcases (withTimeout_joins 0 slowTask w hw).left () _ hcaller with
    ⟨hfailed, _⟩ | ⟨outcome, hended, hdelivered | htimedOut⟩
  · cases hfailed
  · cases htask.symm.trans hended
    cases hdelivered.left
  · cases htask.symm.trans hended
    exact htimedOut.right

end Timeouts

end Resilience
end CppCommons
