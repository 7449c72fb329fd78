import CppCommons.Observability.OtelTracer

/-!
# Tracing middleware

`tracing_command_handler` and `tracing_query_handler` put a span around a
handler.  Handlers call other wrapped handlers, return or throw, and may catch
what the handlers they call throw; `HandlerProgram` is the code of a handler as
far as the tracer sees it.
-/

namespace CppCommons
namespace Application

open Cxx
open Observability

/-- The surroundings of one span: the current correlation context, the name of
the message type, the clock at its two ends, and what other tracers draw meanwhile. -/
structure SpanFrame where
  ctx : CorrelationContext := {}
  name : Bytes
  startNow : Nanoseconds := 0
  endNow : Nanoseconds := 0
  others : List Nat := []

def SpanFrame.newSpan (frame : SpanFrame) (tracer : OtelTracer) : SpanRecord × UInt64 :=
  tracer.newSpan frame.ctx frame.name frame.startNow frame.others

def SpanFrame.startSpan (frame : SpanFrame) (tracer : OtelTracer) : OtelTracer :=
  tracer.startSpan frame.ctx frame.name frame.startNow frame.others

variable {value exn : Type}

def tracingQueryHandler (frame : SpanFrame) (h : OtelTracer -> OtelTracer × Except exn value)
    (tracer : OtelTracer) : OtelTracer × Except exn value :=
  match h (frame.startSpan tracer) with
  | (tracer', .ok result) => ((tracer'.endSpan frame.endNow).fst, .ok result)
  | (tracer', .error e) => (tracer', .error e)

def tracingCommandHandler (frame : SpanFrame) (h : OtelTracer -> OtelTracer × Except exn value)
    (tracer : OtelTracer) : OtelTracer × Except exn Unit :=
  match h (frame.startSpan tracer) with
  | (tracer', .ok _) => ((tracer'.endSpan frame.endNow).fst, .ok ())
  | (tracer', .error e) => (tracer', .error e)

/-- The calls of wrapped handlers a handler makes, with what it does next for
every way each of them can end. -/
inductive HandlerProgram (value exn : Type) where
  | done (outcome : Except exn value)
  | command (frame : SpanFrame) (body : HandlerProgram value exn)
      (resume : Except exn Unit -> HandlerProgram value exn)
  | query (frame : SpanFrame) (body : HandlerProgram value exn)
      (resume : Except exn value -> HandlerProgram value exn)

/-- One call of a wrapped handler: the active spans before and after it, the
parent its span got, and the span of the handler around it. -/
structure HandlerVisit where
  before : List SpanRecord
  after : List SpanRecord
  parent : Bytes
  enclosing : Bytes

def HandlerVisit.Balanced (visit : HandlerVisit) : Prop :=
  visit.after = visit.before ∧ visit.parent = visit.enclosing

namespace HandlerProgram

def execute : HandlerProgram value exn -> OtelTracer -> OtelTracer × Except exn value
  | done outcome, tracer => (tracer, outcome)
  | command frame body resume, tracer =>
      let called := tracingCommandHandler frame body.execute tracer
      (resume called.snd).execute called.fst
  | query frame body resume, tracer =>
      let called := tracingQueryHandler frame body.execute tracer
      (resume called.snd).execute called.fst

/-- The calls of wrapped handlers, outermost first; `enclosing` is the span
around the program. -/
def visits : HandlerProgram value exn -> Bytes -> OtelTracer -> List HandlerVisit
  | done _, _, _ => []
  | command frame body resume, enclosing, tracer =>
      let record := (frame.newSpan tracer).fst
      let called := tracingCommandHandler frame body.execute tracer
      { before := tracer.stack, after := called.fst.stack, parent := record.parentSpanId,
        enclosing := enclosing } ::
        (body.visits record.spanId (frame.startSpan tracer) ++
          (resume called.snd).visits enclosing called.fst)
  | query frame body resume, enclosing, tracer =>
      let record := (frame.newSpan tracer).fst
      let called := tracingQueryHandler frame body.execute tracer
      { before := tracer.stack, after := called.fst.stack, parent := record.parentSpanId,
        enclosing := enclosing } ::
        (body.visits record.spanId (frame.startSpan tracer) ++
          (resume called.snd).visits enclosing called.fst)

/-- How the program ends; the tracer has no part in it. -/
def outcome : HandlerProgram value exn -> Except exn value
  | done outcome => outcome
  | command _ body resume => (resume (body.outcome.map (fun _ => ()))).outcome
  | query _ body resume => (resume body.outcome).outcome

/-- No handler that is called under a span throws. -/
def NoneThrows : HandlerProgram value exn -> Prop
  | done _ => True
  | command _ body resume =>
      (exists result, body.outcome = .ok result) ∧ body.NoneThrows ∧
        (resume (body.outcome.map (fun _ => ()))).NoneThrows
  | query _ body resume =>
      (exists result, body.outcome = .ok result) ∧ body.NoneThrows ∧
        (resume body.outcome).NoneThrows

end HandlerProgram

/-!
## One wrapped handler

The wrapper restores the active spans when the handler returns.  When it throws,
`end_span` is skipped and the span stays active.
-/

theorem tracingQueryHandler_snd (frame : SpanFrame)
    (h : OtelTracer -> OtelTracer × Except exn value) (tracer : OtelTracer) :
    (tracingQueryHandler frame h tracer).snd =
      (h (frame.startSpan tracer)).snd := by
  unfold tracingQueryHandler
  rcases h (frame.startSpan tracer) with ⟨tracer', _ | _⟩ <;> rfl

theorem tracingCommandHandler_snd (frame : SpanFrame)
    (h : OtelTracer -> OtelTracer × Except exn value) (tracer : OtelTracer) :
    (tracingCommandHandler frame h tracer).snd =
      (h (frame.startSpan tracer)).snd.map (fun _ => ()) := by
  unfold tracingCommandHandler
  rcases h (frame.startSpan tracer) with ⟨tracer', _ | _⟩ <;> rfl

theorem tracingCommandHandler_fst (frame : SpanFrame)
    (h : OtelTracer -> OtelTracer × Except exn value) (tracer : OtelTracer) :
    (tracingCommandHandler frame h tracer).fst = (tracingQueryHandler frame h tracer).fst := by
  unfold tracingCommandHandler tracingQueryHandler
  rcases h (frame.startSpan tracer) with ⟨tracer', _ | _⟩ <;> rfl

/-- Around a handler that leaves the spans as they are, the wrapper does so too
exactly when the handler returns. -/
theorem stack_tracingQueryHandler_iff {frame : SpanFrame}
    {h : OtelTracer -> OtelTracer × Except exn value} {tracer : OtelTracer}
    (hkept : (h (frame.startSpan tracer)).fst.stack =
      (frame.startSpan tracer).stack) :
    (tracingQueryHandler frame h tracer).fst.stack = tracer.stack <->
      exists result,
        (h (frame.startSpan tracer)).snd = .ok result := by
  unfold tracingQueryHandler
  rcases hcall : h (frame.startSpan tracer) with
    ⟨tracer', thrown | result⟩
  · rw [hcall] at hkept
    simp only [SpanFrame.startSpan, OtelTracer.startSpan] at hkept
    simp [hkept]
  · rw [hcall] at hkept
    simp only [SpanFrame.startSpan, OtelTracer.startSpan] at hkept
    simp [OtelTracer.endSpan, hkept]

/-!
## Programs

By induction over the program: as long as no wrapped handler throws, every call
leaves the active spans as it found them.
-/

namespace HandlerProgram

theorem execute_snd (p : HandlerProgram value exn) (tracer : OtelTracer) :
    (p.execute tracer).snd = p.outcome := by
  induction p generalizing tracer with
  | done outcome => rfl
  | command frame body resume ihbody ihresume =>
      rw [execute, ihresume, tracingCommandHandler_snd, ihbody]
      rfl
  | query frame body resume ihbody ihresume =>
      rw [execute, ihresume, tracingQueryHandler_snd, ihbody]
      rfl

theorem stack_execute_of_noneThrows {p : HandlerProgram value exn} (h : p.NoneThrows)
    (tracer : OtelTracer) : (p.execute tracer).fst.stack = tracer.stack := by
  induction p generalizing tracer with
  | done outcome => rfl
  | command frame body resume ihbody ihresume =>
      rcases h with ⟨⟨result, hresult⟩, hbody, hresume⟩
      rw [execute, tracingCommandHandler_snd, execute_snd, ihresume _ hresume,
        tracingCommandHandler_fst]
      refine (stack_tracingQueryHandler_iff (ihbody hbody _)).mpr ⟨result, ?_⟩
      rw [execute_snd, hresult]
  | query frame body resume ihbody ihresume =>
      rcases h with ⟨⟨result, hresult⟩, hbody, hresume⟩
      rw [execute, tracingQueryHandler_snd, execute_snd, ihresume _ hresume]
      refine (stack_tracingQueryHandler_iff (ihbody hbody _)).mpr ⟨result, ?_⟩
      rw [execute_snd, hresult]

theorem topSpanId_congr {tracer tracer' : OtelTracer} (h : tracer.stack = tracer'.stack) :
    tracer.topSpanId = tracer'.topSpanId := by
  unfold OtelTracer.topSpanId
  rw [h]

/-- One call and what follows it, for either kind of wrapper: `called` is the
tracer after the call. -/
theorem balanced_call_iff {frame : SpanFrame} {body next : HandlerProgram value exn}
    {tracer called : OtelTracer}
    (hcalled : called = (tracingQueryHandler frame body.execute tracer).fst)
    (hbody : (forall visit, visit ∈ body.visits
        (frame.newSpan tracer).fst.spanId
        (frame.startSpan tracer) -> visit.Balanced) <->
      body.NoneThrows)
    (hnext : (forall visit, visit ∈ next.visits called.topSpanId called -> visit.Balanced) <->
      next.NoneThrows) :
    (forall visit, visit ∈
        ({ before := tracer.stack, after := called.stack, parent := tracer.topSpanId,
           enclosing := tracer.topSpanId } : HandlerVisit) ::
        (body.visits (frame.newSpan tracer).fst.spanId
            (frame.startSpan tracer) ++
          next.visits tracer.topSpanId called) -> visit.Balanced) <->
      (exists result, body.outcome = .ok result) ∧ body.NoneThrows ∧ next.NoneThrows := by
  rw [List.forall_mem_cons, List.forall_mem_append, hbody]
  have hstack : body.NoneThrows ->
      (called.stack = tracer.stack <-> exists result, body.outcome = .ok result) := by
    intro hquiet
    rw [hcalled, stack_tracingQueryHandler_iff (stack_execute_of_noneThrows hquiet _),
      execute_snd]
  constructor
  · intro h
    rcases h with ⟨⟨hkept, _⟩, hquiet, hlater⟩
    rw [← topSpanId_congr hkept, hnext] at hlater
    exact ⟨(hstack hquiet).mp hkept, hquiet, hlater⟩
  · intro h
    rcases h with ⟨hreturns, hquiet, hlater⟩
    have hkept := (hstack hquiet).mpr hreturns
    rw [← topSpanId_congr hkept, hnext]
    exact ⟨⟨hkept, rfl⟩, hquiet, hlater⟩

/--
For every tree of wrapped handlers, on a tracer with any active spans: each call
leaves the active spans as it found them, and each span is the child of the span
of the handler around it, exactly when no handler that is called under a span
throws.
-/
theorem balanced_iff_noneThrows (p : HandlerProgram value exn) (tracer : OtelTracer) :
    (forall visit, visit ∈ p.visits tracer.topSpanId tracer -> visit.Balanced) <->
      p.NoneThrows := by
  induction p generalizing tracer with
  | done outcome => simp [visits, NoneThrows]
  | command frame body resume ihbody ihresume =>
      rw [visits, tracingCommandHandler_snd, execute_snd]
      exact balanced_call_iff (tracingCommandHandler_fst frame body.execute tracer)
        (ihbody (frame.startSpan tracer)) (ihresume _ _)
  | query frame body resume ihbody ihresume =>
      rw [visits, tracingQueryHandler_snd, execute_snd]
      exact balanced_call_iff rfl
        (ihbody (frame.startSpan tracer)) (ihresume _ _)

/-- A command that throws, caught by the caller, who then sends a second command. -/
def caughtThenSent : HandlerProgram Unit String :=
  .command { name := ascii "first" } (.done (.error "failed")) (fun _ =>
    .command { name := ascii "second" } (.done (.ok ())) (fun _ => .done (.ok ())))

theorem caughtThenSent_unbalanced :
    (exists first second, caughtThenSent.visits [] {} = [first, second] ∧
      first.before = [] ∧ first.after.length = 1 ∧
      second.enclosing = [] ∧ second.parent ≠ []) ∧
    ((caughtThenSent.execute {}).fst.stack.map SpanRecord.name) = [ascii "first"] := by
  refine ⟨⟨_, _, rfl, rfl, rfl, rfl, ?_⟩, rfl⟩
  decide

end HandlerProgram
end Application
end CppCommons
