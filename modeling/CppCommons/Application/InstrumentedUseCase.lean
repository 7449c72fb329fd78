import CppCommons.Observability.PrometheusMetrics

/-!
# Instrumented use cases

`InstrumentedUseCase` counts the executions of a use case, those that return an
error, and the time each one takes.  A use case runs other instrumented use
cases, reports metrics of its own, returns a result or throws, and may catch
what the use cases it runs throw; `UseCaseProgram` is its code as far as the
metrics see it.  The journal of a program says what the counts should be.
-/

namespace CppCommons
namespace Application

open Cxx
open Observability

/-- How `execute` ends: with a `Result`, or by an exception. -/
abbrev Execution (out err exn : Type) := Except exn (Except err out)

structure InstrumentedUseCase where
  calls : Bytes
  errors : Bytes
  duration : Bytes

def InstrumentedUseCase.make (name : Bytes) : InstrumentedUseCase where
  calls := name ++ ascii ".calls"
  errors := name ++ ascii ".errors"
  duration := name ++ ascii ".duration_ms"

structure ExecutionClock where
  start : Nanoseconds
  finish : Nanoseconds

/-- `duration_cast<microseconds>` truncates, and the count is divided by 1000. -/
def ExecutionClock.milliseconds (clock : ExecutionClock) : Rat :=
  ((clock.finish - clock.start).tdiv 1000 : Int) / 1000

variable {out err exn : Type}

def InstrumentedUseCase.execute (decorated : InstrumentedUseCase) (clock : ExecutionClock)
    (inner : PrometheusMetrics -> PrometheusMetrics × Execution out err exn)
    (metrics : PrometheusMetrics) : PrometheusMetrics × Execution out err exn :=
  match inner (metrics.increment decorated.calls) with
  | (metrics', .error e) => (metrics', .error e)
  | (metrics', .ok (.ok value)) =>
      (metrics'.histogram decorated.duration clock.milliseconds, .ok (.ok value))
  | (metrics', .ok (.error error)) =>
      ((metrics'.histogram decorated.duration clock.milliseconds).increment decorated.errors,
        .ok (.error error))

/-- What a use case does with the metrics and with instrumented use cases, for every
way each of these can end. -/
inductive UseCaseProgram (out err exn : Type) where
  | done (outcome : Execution out err exn)
  | report (call : MetricsCall) (rest : UseCaseProgram out err exn)
  | execute (name : Bytes) (clock : ExecutionClock) (body : UseCaseProgram out err exn)
      (resume : Execution out err exn -> UseCaseProgram out err exn)

inductive JournalEntry where
  | started (name : Bytes)
  | returned (name : Bytes) (milliseconds : Rat) (ok : Bool)
  | threw (name : Bytes)
  | reported (call : MetricsCall)
deriving DecidableEq

def ending (name : Bytes) (clock : ExecutionClock) : Execution out err exn -> JournalEntry
  | .error _ => .threw name
  | .ok (.ok _) => .returned name clock.milliseconds true
  | .ok (.error _) => .returned name clock.milliseconds false

namespace UseCaseProgram

def run : UseCaseProgram out err exn -> PrometheusMetrics ->
    PrometheusMetrics × Execution out err exn
  | done outcome, metrics => (metrics, outcome)
  | report call rest, metrics => rest.run (metrics.perform call)
  | execute name clock body resume, metrics =>
      let executed := (InstrumentedUseCase.make name).execute clock body.run metrics
      (resume executed.snd).run executed.fst

/-- How the program ends; the metrics have no part in it. -/
def outcome : UseCaseProgram out err exn -> Execution out err exn
  | done outcome => outcome
  | report _ rest => rest.outcome
  | execute _ _ body resume => (resume body.outcome).outcome

def journal : UseCaseProgram out err exn -> List JournalEntry
  | done _ => []
  | report call rest => .reported call :: rest.journal
  | execute name clock body resume =>
      .started name :: (body.journal ++ ending name clock body.outcome ::
        (resume body.outcome).journal)

end UseCaseProgram

/-!
## The calls on the metrics

Every entry of the journal stands for calls on the metrics.  A program does to the
metrics exactly what its journal says.
-/

/-- What an entry of the journal means for the metrics. -/
def JournalEntry.calls : JournalEntry -> List MetricsCall
  | .started name => [.increment (InstrumentedUseCase.make name).calls]
  | .returned name ms true => [.histogram (InstrumentedUseCase.make name).duration ms]
  | .returned name ms false =>
      [.histogram (InstrumentedUseCase.make name).duration ms,
        .increment (InstrumentedUseCase.make name).errors]
  | .threw _ => []
  | .reported call => [call]

def performAll (metrics : PrometheusMetrics) (calls : List MetricsCall) : PrometheusMetrics :=
  calls.foldl PrometheusMetrics.perform metrics

theorem performAll_append (metrics : PrometheusMetrics) (calls later : List MetricsCall) :
    performAll metrics (calls ++ later) = performAll (performAll metrics calls) later :=
  List.foldl_append

theorem InstrumentedUseCase.execute_eq {name : Bytes} {clock : ExecutionClock}
    {inner : PrometheusMetrics -> PrometheusMetrics × Execution out err exn}
    {entries : List JournalEntry} {outcome : Execution out err exn}
    (hinner : forall metrics,
      inner metrics = (performAll metrics (entries.flatMap JournalEntry.calls), outcome))
    (metrics : PrometheusMetrics) :
    (InstrumentedUseCase.make name).execute clock inner metrics =
      (performAll metrics ((.started name :: (entries ++ [ending name clock outcome])).flatMap
        JournalEntry.calls), outcome) := by
  have hstarted : metrics.increment (InstrumentedUseCase.make name).calls =
      performAll metrics (JournalEntry.started name).calls := rfl
  rw [InstrumentedUseCase.execute, hinner, hstarted, List.flatMap_cons, List.flatMap_append,
    performAll_append, performAll_append]
  rcases outcome with e | error | value
  · rfl
  · rfl
  · rfl

namespace UseCaseProgram

theorem run_eq (p : UseCaseProgram out err exn) (metrics : PrometheusMetrics) :
    p.run metrics = (performAll metrics (p.journal.flatMap JournalEntry.calls), p.outcome) := by
  induction p generalizing metrics with
  | done outcome => rfl
  | report call rest ih =>
      rw [run, ih]
      rfl
  | execute name clock body resume ihbody ihresume =>
      have hsplit : (execute name clock body resume).journal =
          (.started name :: (body.journal ++ [ending name clock body.outcome])) ++
            (resume body.outcome).journal := by
        simp [journal]
      rw [run, InstrumentedUseCase.execute_eq ihbody, ihresume, hsplit, List.flatMap_append,
        performAll_append]
      rfl

theorem run_fresh (p : UseCaseProgram out err exn) :
    (p.run {}).fst = PrometheusMetrics.after (p.journal.flatMap JournalEntry.calls) := by
  rw [run_eq]
  rfl

end UseCaseProgram

/-!
## Names

The names of the metrics are made of the name of the use case and a suffix, so use
cases with different names share none of them.
-/

theorem calls_inj_iff (name other : Bytes) :
    (InstrumentedUseCase.make other).calls = (InstrumentedUseCase.make name).calls <->
      other = name :=
  List.append_left_inj (ascii ".calls")

theorem errors_inj_iff (name other : Bytes) :
    (InstrumentedUseCase.make other).errors = (InstrumentedUseCase.make name).errors <->
      other = name :=
  List.append_left_inj (ascii ".errors")

theorem duration_inj_iff (name other : Bytes) :
    (InstrumentedUseCase.make other).duration = (InstrumentedUseCase.make name).duration <->
      other = name :=
  List.append_left_inj (ascii ".duration_ms")

theorem calls_ne_errors (name other : Bytes) :
    (InstrumentedUseCase.make name).calls ≠ (InstrumentedUseCase.make other).errors := by
  intro h
  have hlast := congrArg (fun s => s.reverse.take 2) h
  simp [InstrumentedUseCase.make, ascii] at hlast

/-!
## What is counted

The counters and the histogram of a use case, computed from the entries of a
journal.  `Foreign` entries report under none of its three names.
-/

def JournalEntry.duration? (name : Bytes) : JournalEntry -> Option Rat
  | .returned name' ms _ => if name' = name then some ms else none
  | _ => none

def JournalEntry.failed (name : Bytes) : JournalEntry -> Bool
  | .returned name' _ ok => name' = name && !ok
  | _ => false

/-- The entry reports nothing under the names that belong to the use case. -/
def JournalEntry.Foreign (name : Bytes) : JournalEntry -> Prop
  | .reported call =>
      call ≠ .increment (InstrumentedUseCase.make name).calls ∧
        call ≠ .increment (InstrumentedUseCase.make name).errors ∧
          call.observed (InstrumentedUseCase.make name).duration = none
  | _ => True

namespace JournalEntry

theorem count_calls {name : Bytes} {entry : JournalEntry} (h : entry.Foreign name) :
    entry.calls.count (.increment (InstrumentedUseCase.make name).calls) =
      if entry = .started name then 1 else 0 := by
  cases entry with
  | started other => simp [calls, List.count_singleton, calls_inj_iff]
  | returned other ms ok => cases ok <;> simp [calls, (calls_ne_errors name other).symm]
  | threw other => rfl
  | reported call => simp [calls, h.left]

theorem count_errors {name : Bytes} {entry : JournalEntry} (h : entry.Foreign name) :
    entry.calls.count (.increment (InstrumentedUseCase.make name).errors) =
      if entry.failed name then 1 else 0 := by
  cases entry with
  | started other => simp [calls, failed, calls_ne_errors other name]
  | returned other ms ok =>
      cases ok <;> simp [calls, failed, List.count_cons, errors_inj_iff]
  | threw other => rfl
  | reported call => simp [calls, failed, h.right.left]

theorem filterMap_observed {name : Bytes} {entry : JournalEntry} (h : entry.Foreign name) :
    entry.calls.filterMap (MetricsCall.observed (InstrumentedUseCase.make name).duration) =
      (entry.duration? name).toList := by
  cases entry with
  | started other => rfl
  | returned other ms ok =>
      by_cases hother : other = name
      · cases ok <;> simp [calls, duration?, MetricsCall.observed, hother]
      · cases ok <;> simp [calls, duration?, MetricsCall.observed, hother, duration_inj_iff]
  | threw other => rfl
  | reported call => simp [calls, duration?, h.right.right]

theorem reset_not_mem_calls {entry : JournalEntry} (h : entry ≠ .reported .reset) :
    .reset ∉ entry.calls := by
  cases entry with
  | started other => simp [calls]
  | returned other ms ok => cases ok <;> simp [calls]
  | threw other => simp [calls]
  | reported call => simpa [calls, eq_comm] using h

end JournalEntry

def sinceReported (journal : List JournalEntry) : List JournalEntry :=
  journal.rtakeWhile (· ≠ .reported .reset)

theorem sinceReset_append {later : List MetricsCall} (h : .reset ∉ later)
    (calls : List MetricsCall) : sinceReset (calls ++ later) = sinceReset calls ++ later := by
  induction later using List.reverseRecOn with
  | nil => simp
  | append_singleton later call ih =>
      rw [List.mem_append, not_or, List.mem_singleton] at h
      rw [← List.append_assoc, sinceReset_concat (Ne.symm h.right), ih h.left, List.append_assoc]

theorem sinceReset_flatMap (journal : List JournalEntry) :
    sinceReset (journal.flatMap JournalEntry.calls) =
      (sinceReported journal).flatMap JournalEntry.calls := by
  induction journal using List.reverseRecOn with
  | nil => rfl
  | append_singleton journal entry ih =>
      rw [List.flatMap_append, List.flatMap_singleton]
      by_cases hreset : entry = .reported .reset
      · have hnone : sinceReported (journal ++ [entry]) = [] :=
          List.rtakeWhile_concat_neg _ _ _ (by simp [hreset])
        have hcalls : entry.calls = [.reset] := by
          rw [hreset]
          rfl
        rw [hnone, hcalls, sinceReset_concat_reset, List.flatMap_nil]
      · have hkept : sinceReported (journal ++ [entry]) = sinceReported journal ++ [entry] :=
          List.rtakeWhile_concat_pos _ _ _ (by simpa using hreset)
        rw [hkept, sinceReset_append (JournalEntry.reset_not_mem_calls hreset), ih,
          List.flatMap_append, List.flatMap_singleton]

theorem count_flatMap_calls {name : Bytes} {journal : List JournalEntry}
    (h : forall entry, entry ∈ journal -> entry.Foreign name) :
    (journal.flatMap JournalEntry.calls).count
        (.increment (InstrumentedUseCase.make name).calls) =
      journal.count (.started name) := by
  induction journal with
  | nil => rfl
  | cons entry journal ih =>
      rw [List.forall_mem_cons] at h
      rw [List.flatMap_cons, List.count_append, ih h.right, JournalEntry.count_calls h.left,
        List.count_cons, Nat.add_comm]
      simp

theorem count_flatMap_errors {name : Bytes} {journal : List JournalEntry}
    (h : forall entry, entry ∈ journal -> entry.Foreign name) :
    (journal.flatMap JournalEntry.calls).count
        (.increment (InstrumentedUseCase.make name).errors) =
      journal.countP (JournalEntry.failed name) := by
  induction journal with
  | nil => rfl
  | cons entry journal ih =>
      rw [List.forall_mem_cons] at h
      rw [List.flatMap_cons, List.count_append, ih h.right, JournalEntry.count_errors h.left,
        List.countP_cons, Nat.add_comm]

theorem filterMap_flatMap_observed {name : Bytes} {journal : List JournalEntry}
    (h : forall entry, entry ∈ journal -> entry.Foreign name) :
    (journal.flatMap JournalEntry.calls).filterMap
        (MetricsCall.observed (InstrumentedUseCase.make name).duration) =
      journal.filterMap (JournalEntry.duration? name) := by
  induction journal with
  | nil => rfl
  | cons entry journal ih =>
      rw [List.forall_mem_cons] at h
      rw [List.flatMap_cons, List.filterMap_append, ih h.right,
        JournalEntry.filterMap_observed h.left, List.filterMap_cons]
      cases entry.duration? name <;> rfl

/-!
## Programs

Every execution that starts ends once, timed or by an exception; with the sections
above this gives the counts of a whole program.
-/

namespace UseCaseProgram

theorem ending_ne_started (other name : Bytes) (clock : ExecutionClock)
    (outcome : Execution out err exn) : ending other clock outcome ≠ .started name := by
  rcases outcome with e | error | value <;> simp [ending]

theorem ending_timed_or_threw (other name : Bytes) (clock : ExecutionClock)
    (outcome : Execution out err exn) :
    (if ((ending other clock outcome).duration? name).isSome then 1 else 0) +
        (if ending other clock outcome = .threw name then 1 else 0) =
      if other = name then 1 else 0 := by
  by_cases hother : other = name
  · rcases outcome with e | error | value <;> simp [ending, JournalEntry.duration?, hother]
  · rcases outcome with e | error | value <;> simp [ending, JournalEntry.duration?, hother]

theorem count_started (p : UseCaseProgram out err exn) (name : Bytes) :
    p.journal.count (.started name) =
      (p.journal.filterMap (JournalEntry.duration? name)).length +
        p.journal.count (.threw name) := by
  rw [List.length_filterMap_eq_countP]
  induction p with
  | done outcome => rfl
  | report call rest ih => simpa [journal, List.countP_cons, JournalEntry.duration?] using ih
  | execute other clock body resume ihbody ihresume =>
      have hending := ending_timed_or_threw other name clock body.outcome
      have hstarted : (JournalEntry.started other).duration? name = none := rfl
      simp only [journal, List.count_cons, List.count_append, List.countP_cons,
        List.countP_append, ihbody, ihresume, hstarted, beq_iff_eq, ending_ne_started,
        JournalEntry.started.injEq, reduceCtorEq, if_false, Option.isSome_none,
        Bool.false_eq_true]
      lia

/--
For every tree of instrumented use cases that share their metrics, whatever they
return, throw or catch, and whatever else is reported under other names: since
the last reset `<name>.calls` has counted the executions that were started,
`<name>.errors` those that returned an error, and `<name>.duration_ms` has
observed the time of each one that returned.  Over the whole run an execution
that threw is in the calls and nowhere else.
-/
theorem instrumented_counts (p : UseCaseProgram out err exn) (name : Bytes)
    (hforeign : forall entry, entry ∈ p.journal -> entry.Foreign name) :
    let metrics := (p.run {}).fst
    let seen := sinceReported p.journal
    let decorated := InstrumentedUseCase.make name
    ((metrics.counters.lookup decorated.calls).getD 0).toNat =
        seen.count (.started name) % 2 ^ 64 ∧
      ((metrics.counters.lookup decorated.errors).getD 0).toNat =
        seen.countP (JournalEntry.failed name) % 2 ^ 64 ∧
      ((metrics.histograms.lookup decorated.duration).getD {} =
        Histogram.tally (seen.filterMap (JournalEntry.duration? name))) ∧
      p.journal.count (.started name) =
        (p.journal.filterMap (JournalEntry.duration? name)).length +
          p.journal.count (.threw name) := by
  intro metrics seen decorated
  have hmetrics : metrics = PrometheusMetrics.after (p.journal.flatMap JournalEntry.calls) :=
    run_fresh p
  have hseen : forall entry, entry ∈ seen -> entry.Foreign name := by
    intro entry hentry
    exact hforeign entry ((List.rtakeWhile_suffix _ p.journal).subset hentry)
  refine ⟨?_, ?_, ?_, count_started p name⟩
  · rw [hmetrics, PrometheusMetrics.getD_counters_after, increments, sinceReset_flatMap,
      count_flatMap_calls hseen]
    exact UInt64.toNat_ofNat'
  · rw [hmetrics, PrometheusMetrics.getD_counters_after, increments, sinceReset_flatMap,
      count_flatMap_errors hseen]
    exact UInt64.toNat_ofNat'
  · rw [hmetrics, PrometheusMetrics.lookup_histograms_after, observations, sinceReset_flatMap,
      filterMap_flatMap_observed hseen]
    split
    · next hnone => rw [hnone, Histogram.tally_nil, Option.getD_none]
    · rfl

/-- An order is placed inside a checkout; the checkout catches the exception of the
payment and returns an error. -/
def failedCheckout : UseCaseProgram Unit String String :=
  .execute (ascii "checkout") ⟨0, 9000000⟩
    (.execute (ascii "place_order") ⟨1000000, 3500000⟩ (.done (.ok (.ok ()))) fun _ =>
      .execute (ascii "pay") ⟨4000000, 8000000⟩ (.done (.error "card declined")) fun _ =>
        .done (.ok (.error "not paid")))
    .done

theorem failedCheckout_counted :
    let metrics := (failedCheckout.run {}).fst
    ((metrics.counters.lookup (ascii "pay.calls")).getD 0).toNat = 1 ∧
      ((metrics.counters.lookup (ascii "pay.errors")).getD 0).toNat = 0 ∧
      (metrics.histograms.lookup (ascii "pay.duration_ms")).getD {} = Histogram.tally [] := by
  have hforeign : forall entry, entry ∈ failedCheckout.journal ->
      entry.Foreign (ascii "pay") := by
    intro entry hentry
    simp only [failedCheckout, journal, outcome, ending, List.cons_append, List.nil_append,
      List.mem_cons, List.not_mem_nil, or_false] at hentry
    rcases hentry with rfl | rfl | rfl | rfl | rfl | rfl <;> trivial
  rcases instrumented_counts failedCheckout (ascii "pay") hforeign with
    ⟨hcalls, herrors, hduration, _⟩
  exact ⟨hcalls, herrors, hduration⟩

end UseCaseProgram

end Application
end CppCommons
