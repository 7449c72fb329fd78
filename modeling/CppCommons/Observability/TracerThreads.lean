import CppCommons.Foundation.LabelledRun
import CppCommons.Observability.OtelTracer

/-!
# A tracer shared by threads

Several threads start and end spans on one tracer, each bracketing its own
calls; the steps of the threads interleave freely.  Beside the tracer, the state
keeps for each thread the records of the spans it has started and not yet ended,
so that an exported span can be compared with the one its caller meant to end.
-/

namespace CppCommons
namespace Observability

open Cxx
open Foundation.LabelledRun

inductive TracerAction (thread : Type) where
  | start (th : thread) (ctx : CorrelationContext) (name : Bytes) (now : Nanoseconds)
      (others : List Nat := [])
  | finish (th : thread) (now : Nanoseconds)

/-- What a step did, beside what its thread expects: a new span, and the id of
the innermost span its thread has open; or the span handed to the exporter, and the
one its thread means to end. -/
inductive TracerEvent where
  | started (record : SpanRecord) (enclosing : Bytes)
  | ended (exported : Option SpanRecord) (meant : SpanRecord) (now : Nanoseconds)
deriving DecidableEq

/-- The tracer did what it would have done for the thread alone. -/
def TracerEvent.Right : TracerEvent -> Prop
  | .started record enclosing => record.parentSpanId = enclosing
  | .ended exported meant now => exported = some { meant with finish := now }

structure SharedTracer (thread : Type) where
  tracer : OtelTracer := {}
  /-- the spans of each thread that are open, as they were started, innermost first -/
  own : thread -> List SpanRecord
  log : List TracerEvent := []

namespace SharedTracer

variable {thread : Type} [DecidableEq thread]

def start : SharedTracer thread where
  own := fun _ => []

def enclosing (w : SharedTracer thread) (th : thread) : Bytes :=
  match w.own th with
  | [] => []
  | innermost :: _ => innermost.spanId

def afterStart (w : SharedTracer thread) (th : thread) (ctx : CorrelationContext) (name : Bytes)
    (now : Nanoseconds) (others : List Nat) : SharedTracer thread :=
  let record := (w.tracer.newSpan ctx name now others).fst
  { tracer := w.tracer.startSpan ctx name now others
    own := Function.update w.own th (record :: w.own th)
    log := .started record (w.enclosing th) :: w.log }

def afterFinish (w : SharedTracer thread) (th : thread) (now : Nanoseconds) (mine : SpanRecord)
    (rest : List SpanRecord) : SharedTracer thread :=
  { tracer := (w.tracer.endSpan now).fst
    own := Function.update w.own th rest
    log := .ended (w.tracer.endSpan now).snd mine now :: w.log }

/-- A thread ends a span only when it has one open. -/
def step (w : SharedTracer thread) : TracerAction thread -> Option (SharedTracer thread)
  | .start th ctx name now others => some (w.afterStart th ctx name now others)
  | .finish th now =>
      match w.own th with
      | [] => none
      | mine :: rest => some (w.afterFinish th now mine rest)

/-- A span is started while no other thread has one open. -/
def startsAlone (w : SharedTracer thread) : TracerAction thread -> Prop
  | .start th _ _ _ _ => forall other, other ≠ th -> w.own other = []
  | .finish _ _ => True

inductive Stepped (w : SharedTracer thread) :
    TracerAction thread -> SharedTracer thread -> Prop where
  | started (th : thread) (ctx : CorrelationContext) (name : Bytes) (now : Nanoseconds)
      (others : List Nat) :
      Stepped w (.start th ctx name now others) (w.afterStart th ctx name now others)
  | finished {th : thread} (now : Nanoseconds) {mine : SpanRecord} {rest : List SpanRecord} :
      w.own th = mine :: rest -> Stepped w (.finish th now) (w.afterFinish th now mine rest)

theorem stepped_of_step {w v : SharedTracer thread} {a : TracerAction thread}
    (h : step w a = some v) : Stepped w a v := by
  cases a with
  | start th ctx name now others =>
      cases h
      exact .started th ctx name now others
  | finish th now =>
      cases hown : w.own th with
      | nil =>
          simp only [step, hown] at h
          cases h
      | cons mine rest =>
          simp only [step, hown] at h
          cases h
          exact .finished now hown

/-!
## One thread at a time

As long as every span is started while the other threads have none open, the stack
of the tracer is the list of open spans of one thread.
-/

structure Solo (w : SharedTracer thread) (th : thread) : Prop where
  others : forall other, other ≠ th -> w.own other = []
  stack : w.tracer.stack = w.own th
  named : forall span, span ∈ w.own th -> span.spanId ≠ []

structure Undivided (w : SharedTracer thread) : Prop where
  solo : forall th, w.own th ≠ [] -> Solo w th
  idle : (forall th, w.own th = []) -> w.tracer.stack = []

omit [DecidableEq thread] in
theorem undivided_start : Undivided (start : SharedTracer thread) := by
  constructor
  · intro th hopen
    exact absurd rfl hopen
  · intro _hidle
    rfl

theorem undivided_of_solo {w : SharedTracer thread} {th : thread} (h : Solo w th) :
    Undivided w := by
  constructor
  · intro th' hopen
    by_cases hth : th' = th
    · rw [hth]
      exact h
    · exact absurd (h.others th' hth) hopen
  · intro hidle
    rw [h.stack, hidle th]

theorem solo_of_alone {w : SharedTracer thread} (h : Undivided w) {th : thread}
    (halone : forall other, other ≠ th -> w.own other = []) : Solo w th := by
  by_cases hopen : w.own th = []
  · have hidle : forall other, w.own other = [] := by
      intro other
      by_cases hother : other = th
      · rw [hother]
        exact hopen
      · exact halone other hother
    refine ⟨halone, ?_, ?_⟩
    · rw [h.idle hidle, hopen]
    · intro span hspan
      rw [hopen] at hspan
      cases hspan
  · exact h.solo th hopen

omit [DecidableEq thread] in
theorem topSpanId_of_solo {w : SharedTracer thread} {th : thread} (h : Solo w th) :
    w.tracer.topSpanId = w.enclosing th := by
  cases hown : w.own th with
  | nil => rw [OtelTracer.topSpanId, enclosing, h.stack, hown]
  | cons innermost outer => rw [OtelTracer.topSpanId, enclosing, h.stack, hown]

theorem solo_afterStart {w : SharedTracer thread} {th : thread} (h : Solo w th)
    (ctx : CorrelationContext) (name : Bytes) (now : Nanoseconds) (others : List Nat) :
    Solo (w.afterStart th ctx name now others) th := by
  constructor
  · intro other hother
    simp only [afterStart, Function.update_of_ne hother]
    exact h.others other hother
  · simp [afterStart, OtelTracer.startSpan, h.stack]
  · intro span hspan
    simp only [afterStart, Function.update_self] at hspan
    rcases List.mem_cons.mp hspan with rfl | hearlier
    · exact spanId_ne_nil (startedUnder_newSpan w.tracer ctx name now others)
    · exact h.named span hearlier

theorem solo_afterFinish {w : SharedTracer thread} {th : thread} (h : Solo w th)
    {mine : SpanRecord} {rest : List SpanRecord} (hown : w.own th = mine :: rest)
    (now : Nanoseconds) :
    Solo (w.afterFinish th now mine rest) th ∧
      TracerEvent.Right (.ended (w.tracer.endSpan now).snd mine now) := by
  -- the top of the stack is the span the thread means to end
  have hstack : w.tracer.stack = mine :: rest := by
    rw [h.stack, hown]
  constructor
  · constructor
    · intro other hother
      simp only [afterFinish, Function.update_of_ne hother]
      exact h.others other hother
    · simp [afterFinish, OtelTracer.endSpan, hstack]
    · intro span hspan
      simp only [afterFinish, Function.update_self] at hspan
      apply h.named span
      rw [hown]
      exact List.mem_cons_of_mem mine hspan
  · simp [TracerEvent.Right, OtelTracer.endSpan, hstack]

theorem solo_step {w v : SharedTracer thread} {a : TracerAction thread} (h : Undivided w)
    (halone : startsAlone w a) (hstep : Stepped w a v) :
    (exists th, Solo v th) ∧ exists event, v.log = event :: w.log ∧ event.Right := by
  cases hstep with
  | started th ctx name now others =>
      have hsolo := solo_of_alone h halone
      exact ⟨⟨th, solo_afterStart hsolo ctx name now others⟩, _, rfl, topSpanId_of_solo hsolo⟩
  | @finished th now mine rest hown =>
      have hsolo := h.solo th (by simp [hown])
      rcases solo_afterFinish hsolo hown now with ⟨hafter, hright⟩
      exact ⟨⟨th, hafter⟩, _, rfl, hright⟩

theorem log_subset_of_run {w v : SharedTracer thread} {actions : List (TracerAction thread)}
    (hrun : run step w actions = some v) : w.log ⊆ v.log := by
  refine invariant_of_run (P := fun _ v => w.log ⊆ v.log) (List.Subset.refl _) ?_ hrun
  intro _actions m a n _hm hsubset hstep
  apply List.Subset.trans hsubset
  cases stepped_of_step hstep with
  | started th ctx name now others => exact List.subset_cons_self _ _
  | finished now hown => exact List.subset_cons_self _ _

theorem undivided_of_stepsMeet {w : SharedTracer thread} {actions : List (TracerAction thread)}
    (halone : StepsMeet step startsAlone start actions)
    (hrun : run step start actions = some w) :
    Undivided w ∧ forall event, event ∈ w.log -> event.Right := by
  refine invariant_of_stepsMeet
    (P := fun _ w => Undivided w ∧ forall event, event ∈ w.log -> event.Right) ?_ ?_ halone hrun
  · refine ⟨undivided_start, ?_⟩
    intro event hevent
    cases hevent
  · intro _actions m a n _hm hold halone hstep
    rcases solo_step hold.left halone (stepped_of_step hstep) with
      ⟨⟨th, hsolo⟩, event, hlog, hright⟩
    refine ⟨undivided_of_solo hsolo, ?_⟩
    intro event' hevent'
    rw [hlog] at hevent'
    rcases List.mem_cons.mp hevent' with rfl | hearlier
    · exact hright
    · exact hold.right event' hearlier

theorem not_right_of_not_alone {w v : SharedTracer thread} {a : TracerAction thread}
    (h : Undivided w) (hnot : ¬ startsAlone w a) (hstep : Stepped w a v) :
    exists event, event ∈ v.log ∧ ¬ event.Right := by
  cases hstep with
  | started th ctx name now others =>
      rw [startsAlone] at hnot
      push Not at hnot
      rcases hnot with ⟨other, hother, hopen⟩
      have hsolo := h.solo other hopen
      refine ⟨_, List.mem_cons_self, ?_⟩
      intro hright
      have hparent : w.tracer.topSpanId = w.enclosing th := hright
      have hnone : w.enclosing th = [] := by
        rw [enclosing, hsolo.others th (Ne.symm hother)]
      rw [topSpanId_of_solo hsolo, hnone, enclosing] at hparent
      cases hown : w.own other with
      | nil => exact hopen hown
      | cons innermost rest =>
          rw [hown] at hparent
          exact hsolo.named innermost (by simp [hown]) hparent
  | finished now hown => exact absurd trivial hnot

/--
For every interleaving of threads that bracket their calls: each span is the
child of the innermost span its own thread has open, and each call exports the
record of the span its own thread has started last and not yet ended, if and only
if no span is started while another thread has one open.
-/
theorem right_iff_startsAlone (actions : List (TracerAction thread)) (w : SharedTracer thread)
    (hrun : run step start actions = some w) :
    (forall event, event ∈ w.log -> event.Right) <->
      StepsMeet step startsAlone start actions := by
  constructor
  · intro hright
    by_contra hviolated
    rcases exists_first_violation hrun hviolated with
      ⟨before, a, after, m, hsplit, hm, hmeet, hnot⟩
    rw [hsplit] at hrun
    rcases (run_append_eq_some_iff before (a :: after)).mp hrun with ⟨m', hm', hrest⟩
    rw [hm] at hm'
    cases hm'
    rcases (run_cons_eq_some_iff a after).mp hrest with ⟨n, hstep, hafter⟩
    have hundivided := (undivided_of_stepsMeet hmeet hm).left
    rcases not_right_of_not_alone hundivided hnot (stepped_of_step hstep) with
      ⟨event, hevent, hwrong⟩
    exact hwrong (hright event (log_subset_of_run hafter hevent))
  · intro halone
    exact (undivided_of_stepsMeet halone hrun).right

def overlappingSpans : List (TracerAction Bool) :=
  [.start false {} (ascii "a") 0, .start true {} (ascii "b") 1, .finish false 2, .finish true 3]

theorem overlappingSpans_swapped :
    exists w, run step start overlappingSpans = some w ∧
      (exists record enclosing, .started record enclosing ∈ w.log ∧ enclosing = [] ∧
        record.parentSpanId ≠ []) ∧
      exists exported meant now, .ended (some exported) meant now ∈ w.log ∧
        meant.name = ascii "a" ∧ exported.name = ascii "b" := by
  refine ⟨_, rfl, ⟨_, _, List.mem_cons_of_mem _ (List.mem_cons_of_mem _ List.mem_cons_self), rfl,
    ?_⟩, _, _, _, List.mem_cons_of_mem _ List.mem_cons_self, rfl, rfl⟩
  decide

def alternatingSpans : List (TracerAction Bool) :=
  [.start false {} (ascii "a") 0, .start false {} (ascii "b") 1, .finish false 2,
    .finish false 3, .start true {} (ascii "c") 4, .finish true 5]

theorem alternatingSpans_right :
    exists w, run step start alternatingSpans = some w ∧
      forall event, event ∈ w.log -> event.Right := by
  have hrun : exists w, run step start alternatingSpans = some w := ⟨_, rfl⟩
  rcases hrun with ⟨w, hw⟩
  refine ⟨w, hw, (right_iff_startsAlone alternatingSpans w hw).mpr ?_⟩
  refine stepsMeet_cons (fun _ _ => rfl) rfl (stepsMeet_cons ?_ rfl (stepsMeet_cons trivial rfl
    (stepsMeet_cons trivial rfl (stepsMeet_cons ?_ rfl (stepsMeet_cons trivial rfl
      stepsMeet_nil)))))
  · intro other hother
    cases other with
    | false => exact absurd rfl hother
    | true => rfl
  · intro other hother
    cases other with
    | false => rfl
    | true => exact absurd rfl hother

end SharedTracer
end Observability
end CppCommons
