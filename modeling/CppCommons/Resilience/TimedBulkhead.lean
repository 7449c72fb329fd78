import CppCommons.Resilience.Bulkhead
import CppCommons.Resilience.Timeout

/-!
# Timeouts behind a bulkhead

Calls of `with_timeout` made through `Bulkhead::call`.  A caller acts only while
its function runs, and leaves the bulkhead with what `with_timeout` left with.
-/

namespace CppCommons
namespace Resilience

open Cxx
open Foundation.LabelledRun

structure TimedBulkhead (callId value exn : Type) where
  bulkhead : SharedBulkhead callId value (TimeoutExit exn)
  timeouts : Timeouts callId value exn

inductive TimedBulkheadAction (callId value exn : Type) where
  | acquire (call : callId)
  | timed (action : TimeoutAction callId value exn)
  | release (call : callId)

def TimeoutAction.caller? {callId value exn : Type} :
    TimeoutAction callId value exn -> Option callId
  | .tick _ => none
  | .launch i _ => some i
  | .launchFails i => some i
  | .finishTask _ _ => none
  | .waitReturns i => some i
  | .get i => some i
  | .join i => some i

namespace TimedBulkhead

variable {callId value exn : Type}

def start (maxConcurrent : UInt32) (now : Nanoseconds) : TimedBulkhead callId value exn where
  bulkhead := .start maxConcurrent
  timeouts := .start now

def holdsSlot (w : TimedBulkhead callId value exn) (i : callId) : Bool :=
  match w.bulkhead.phase i with
  | .running => true
  | _ => false

theorem holdsSlot_iff (w : TimedBulkhead callId value exn) (i : callId) :
    w.holdsSlot i = true <-> w.bulkhead.phase i = .running := by
  unfold holdsSlot
  cases w.bulkhead.phase i <;> simp

def mayStep (w : TimedBulkhead callId value exn) (a : TimeoutAction callId value exn) : Bool :=
  match a.caller? with
  | none => true
  | some i => w.holdsSlot i

theorem phase_of_mayStep {w : TimedBulkhead callId value exn}
    {a : TimeoutAction callId value exn} (h : w.mayStep a = true) {i : callId}
    (hi : a.caller? = some i) : w.bulkhead.phase i = .running := by
  simp only [mayStep, hi] at h
  exact (w.holdsSlot_iff i).mp h

variable [DecidableEq callId]

def step (w : TimedBulkhead callId value exn) :
    TimedBulkheadAction callId value exn -> Option (TimedBulkhead callId value exn)
  | .acquire i => (w.bulkhead.step (.acquire i)).map fun b => { w with bulkhead := b }
  | .timed a =>
      if w.mayStep a then (w.timeouts.step a).map fun t => { w with timeouts := t } else none
  | .release i =>
      match w.timeouts.caller i with
      | .ended exit => (w.bulkhead.step (.finish i exit)).map fun b => { w with bulkhead := b }
      | _ => none

inductive Stepped (w : TimedBulkhead callId value exn) :
    TimedBulkhead callId value exn -> Prop where
  | acquired {i : callId} {b : SharedBulkhead callId value (TimeoutExit exn)} :
      w.bulkhead.step (.acquire i) = some b -> Stepped w { w with bulkhead := b }
  | timed {a : TimeoutAction callId value exn} {t : Timeouts callId value exn} :
      (forall i, a.caller? = some i -> w.bulkhead.phase i = .running) ->
      w.timeouts.step a = some t -> Stepped w { w with timeouts := t }
  | released {i : callId} {exit : Except (TimeoutExit exn) value}
      {b : SharedBulkhead callId value (TimeoutExit exn)} :
      w.timeouts.caller i = .ended exit -> w.bulkhead.step (.finish i exit) = some b ->
      Stepped w { w with bulkhead := b }

theorem stepped_of_step {w v : TimedBulkhead callId value exn}
    {a : TimedBulkheadAction callId value exn} (h : step w a = some v) : Stepped w v := by
  cases a with
  | acquire i =>
      rcases Option.map_eq_some_iff.mp h with ⟨b, hb, rfl⟩
      exact .acquired hb
  | timed a =>
      simp only [step] at h
      split at h
      · next hmay =>
          rcases Option.map_eq_some_iff.mp h with ⟨t, ht, rfl⟩
          exact .timed (fun i hi => phase_of_mayStep hmay hi) ht
      · cases h
  | release i =>
      simp only [step] at h
      split at h
      · next exit hcaller =>
          rcases Option.map_eq_some_iff.mp h with ⟨b, hb, rfl⟩
          exact .released hcaller hb
      · cases h

def Held (w : TimedBulkhead callId value exn) : Prop :=
  forall i, Timeouts.Inside (w.timeouts.caller i) -> w.bulkhead.phase i = .running

theorem inside_step {w v : Timeouts callId value exn} {a : TimeoutAction callId value exn}
    (h : w.step a = some v) {i : callId} (hinside : Timeouts.Inside (v.caller i)) :
    Timeouts.Inside (w.caller i) ∨ a.caller? = some i := by
  have hrecord : forall j caller task event,
      Timeouts.Inside ((w.record j caller task event).caller i) ->
        Timeouts.Inside (w.caller i) ∨ j = i := by
    intro j caller task event hrecorded
    by_cases hij : i = j
    · exact Or.inr hij.symm
    · rw [Timeouts.caller_record_of_ne w hij] at hrecorded
      exact Or.inl hrecorded
  cases Timeouts.stepped_of_step h with
  | ticked hle => exact Or.inl hinside
  | launched limit hcaller => exact (hrecord _ _ _ _ hinside).imp id (congrArg some)
  | launchFailed hcaller => exact (hrecord _ _ _ _ hinside).imp id (congrArg some)
  | @finished j outcome htask =>
      -- the task's thread leaves the caller where it is
      rw [Timeouts.caller_record_same] at hinside
      exact Or.inl hinside
  | ready hcaller htask => exact (hrecord _ _ _ _ hinside).imp id (congrArg some)
  | expired hcaller htask hover => exact (hrecord _ _ _ _ hinside).imp id (congrArg some)
  | got hcaller htask => exact (hrecord _ _ _ _ hinside).imp id (congrArg some)
  | joined hcaller htask => exact (hrecord _ _ _ _ hinside).imp id (congrArg some)

theorem held_step {w v : TimedBulkhead callId value exn} (h : w.Held) (hstep : Stepped w v) :
    v.Held := by
  intro i hinside
  cases hstep with
  | @acquired j b hb =>
      have hi := h i hinside
      cases SharedBulkhead.stepped_of_step hb with
      | acquired hwaiting hroom =>
          by_cases hij : i = j
          · simp [SharedBulkhead.record, hij]
          · simpa [SharedBulkhead.record, hij] using hi
      | rejected hwaiting hfull =>
          have hij : i ≠ j := by
            intro hij
            rw [hij, hwaiting] at hi
            cases hi
          simpa [SharedBulkhead.record, hij] using hi
  | @timed a t hslot ht =>
      rcases inside_step ht hinside with hbefore | hcaller
      · exact h i hbefore
      · exact hslot i hcaller
  | @released j exit b hcaller hb =>
      have hij : i ≠ j := by
        intro hij
        rw [hij, hcaller] at hinside
        exact hinside
      cases SharedBulkhead.stepped_of_step hb with
      | released hrunning => simpa [SharedBulkhead.record, hij] using h i hinside

structure Projects (maxConcurrent : UInt32) (now : Nanoseconds)
    (w : TimedBulkhead callId value exn) : Prop where
  bulkhead : exists actions,
    run SharedBulkhead.step (.start maxConcurrent) actions = some w.bulkhead
  timeouts : exists actions, run Timeouts.step (.start now) actions = some w.timeouts
  held : w.Held

theorem projects_step {maxConcurrent : UInt32} {now : Nanoseconds}
    {w v : TimedBulkhead callId value exn} (h : Projects maxConcurrent now w)
    (hstep : Stepped w v) : Projects maxConcurrent now v := by
  have hheld := held_step h.held hstep
  rcases h.bulkhead with ⟨acquisitions, hbulkhead⟩
  rcases h.timeouts with ⟨timed, htimeouts⟩
  cases hstep with
  | acquired hb =>
      exact ⟨⟨_, (run_concat_eq_some_iff acquisitions _).mpr ⟨_, hbulkhead, hb⟩⟩,
        ⟨timed, htimeouts⟩, hheld⟩
  | timed hslot ht =>
      exact ⟨⟨acquisitions, hbulkhead⟩,
        ⟨_, (run_concat_eq_some_iff timed _).mpr ⟨_, htimeouts, ht⟩⟩, hheld⟩
  | released hcaller hb =>
      exact ⟨⟨_, (run_concat_eq_some_iff acquisitions _).mpr ⟨_, hbulkhead, hb⟩⟩,
        ⟨timed, htimeouts⟩, hheld⟩

theorem projects_of_run {maxConcurrent : UInt32} {now : Nanoseconds}
    {w : TimedBulkhead callId value exn} {actions : List (TimedBulkheadAction callId value exn)}
    (hrun : run step (start maxConcurrent now) actions = some w) :
    Projects maxConcurrent now w := by
  refine invariant_of_run (P := fun _ w => Projects maxConcurrent now w) ?_ ?_ hrun
  · exact ⟨⟨[], rfl⟩, ⟨[], rfl⟩, fun i hinside => hinside.elim⟩
  · intro actions m a n _hm h hstep
    exact projects_step h (stepped_of_step hstep)

/--
The bulkhead bounds the work itself, calls that have timed out included: at every
moment of every interleaving at most `maxConcurrent` tasks are running, and each
of them belongs to a call that holds a slot.
-/
theorem running_tasks_le (maxConcurrent : UInt32) (now : Nanoseconds)
    (actions : List (TimedBulkheadAction callId value exn)) (w : TimedBulkhead callId value exn)
    (hrun : run step (start maxConcurrent now) actions = some w) (tasks : List callId)
    (hnodup : tasks.Nodup) (hrunning : forall i, i ∈ tasks -> w.timeouts.task i = .running) :
    tasks.length <= maxConcurrent.toNat ∧
      forall i, i ∈ tasks -> w.bulkhead.phase i = .running := by
  rcases projects_of_run hrun with ⟨⟨acquisitions, hbulkhead⟩, ⟨timed, htimeouts⟩, hheld⟩
  have haccounted := SharedBulkhead.accounted_of_run hbulkhead
  have hslot : forall i, i ∈ tasks -> w.bulkhead.phase i = .running := by
    intro i hi
    have hlife : Timeouts.Life (w.timeouts.caller i) (w.timeouts.task i)
        (w.timeouts.history i) := Timeouts.lives_of_run htimeouts i
    rw [hrunning i hi] at hlife
    exact hheld i hlife.inside_of_running
  have hsubset : tasks ⊆ SharedBulkhead.inFlight w.bulkhead.log := by
    intro i hi
    exact (haccounted.running i).mp (hslot i hi)
  exact ⟨Nat.le_trans (hnodup.subperm hsubset).length_le haccounted.bounded, hslot⟩

def slotTaken : List (TimedBulkheadAction Bool Nat String) :=
  [.acquire false, .timed (.launch false 5), .timed (.tick 5000000), .timed (.waitReturns false),
    .acquire true]

theorem slotTaken_bounded :
    exists w, run step (start 1 0) slotTaken = some w ∧ w.timeouts.task false = .running ∧
      w.timeouts.caller false = .unwinding ∧
      w.bulkhead.phase true =
        .ended (.error (.full { what := "bulkhead capacity reached" })) ∧
      [false].length <= (1 : UInt32).toNat := by
  have hrun : exists w, run step (start 1 0) slotTaken = some w ∧
      w.timeouts.task false = .running ∧ w.timeouts.caller false = .unwinding ∧
      w.bulkhead.phase true =
        .ended (.error (.full { what := "bulkhead capacity reached" })) :=
    ⟨_, rfl, rfl, rfl, rfl⟩
  rcases hrun with ⟨w, hw, htask, hcaller, hrejected⟩
  refine ⟨w, hw, htask, hcaller, hrejected, ?_⟩
  refine (running_tasks_le 1 0 slotTaken w hw [false] (List.nodup_singleton _) ?_).left
  intro i hi
  rw [List.mem_singleton.mp hi]
  exact htask

end TimedBulkhead
end Resilience
end CppCommons
