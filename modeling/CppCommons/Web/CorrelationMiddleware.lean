import CppCommons.Observability.OtelTracer
import CppCommons.Web.MiddlewareChain

/-!
# Correlation middleware

`correlation_middleware` installs a context for the time of a request: a
generated one, with the ids the request headers carry in place of its own.  The
state it works on is the current context of the thread.
-/

namespace CppCommons
namespace Web

open Cxx
open Kernel
open Observability
open CorrelationContext

/-- The UUIDs drawn by `CorrelationContext::generate()`. -/
structure GeneratedIds where
  correlation : UUID
  trace : UUID
  request : UUID

def installedContext (ids : GeneratedIds) (req : HttpRequest) : CorrelationContext :=
  let ctx := generate ids.correlation ids.trace ids.request
  { ctx with
    correlationId := (req.header (ascii "X-Correlation-ID")).getD ctx.correlationId
    tenantId := (req.header (ascii "X-Tenant-ID")).getD ctx.tenantId
    requestId := (req.header (ascii "X-Request-ID")).getD ctx.requestId
    traceId := (req.header (ascii "X-Trace-ID")).getD ctx.traceId }

def correlationMiddleware {exn : Type} (ids : GeneratedIds) : Middleware CorrelationContext exn :=
  fun previous req =>
    .call (installedContext ids req) req (fun _ outcome => .done previous outcome)

theorem run_correlationMiddleware {exn : Type} (ids : GeneratedIds)
    (next : StatefulHandler CorrelationContext exn) (previous : CorrelationContext)
    (req : HttpRequest) :
    (correlationMiddleware ids previous req).run next =
      (previous, (next (installedContext ids req) req).snd) := by
  rw [correlationMiddleware, Script.run, Script.run]

/-- The contexts that can be current when a span starts. -/
inductive ContextSource where
  | none
  | generated (ids : GeneratedIds)
  | installed (ids : GeneratedIds) (req : HttpRequest)

namespace ContextSource

def context : ContextSource -> CorrelationContext
  | none => {}
  | generated ids => generate ids.correlation ids.trace ids.request
  | installed ids req => installedContext ids req

/-- The tracer takes its trace id from elsewhere, or the correlation id has the
form of a trace id: there is no context, or the header gives an empty id or one
of 32 hexadecimal digits. -/
def TraceReady : ContextSource -> Prop
  | none => True
  | generated _ => False
  | installed _ req =>
      exists v, req.header (ascii "X-Correlation-ID") = some v ∧
        (v = [] ∨ isHexString v 32 = true)

theorem not_isHexString_uuid (u : UUID) : isHexString u.toString 32 ≠ true := by
  intro h
  have hlength := (isHexString_iff.mp h).left
  rw [u.length_toString] at hlength
  cases hlength

theorem traceReady_iff (source : ContextSource) :
    source.TraceReady <->
      source.context.correlationId = [] ∨ isHexString source.context.correlationId 32 = true := by
  have hdrawn : forall u : UUID, ¬ (u.toString = [] ∨ isHexString u.toString 32 = true) := by
    intro u h
    rcases h with hnil | hhex
    · have hlength := u.length_toString
      rw [hnil] at hlength
      cases hlength
    · exact not_isHexString_uuid u hhex
  cases source with
  | none => simp [TraceReady, context]
  | generated ids => simpa [TraceReady, context, generate] using hdrawn ids.correlation
  | installed ids req =>
      cases hheader : req.header (ascii "X-Correlation-ID") with
      | none =>
          simpa [TraceReady, context, installedContext, generate, hheader] using
            hdrawn ids.correlation
      | some v => simp [TraceReady, context, installedContext, hheader]

end ContextSource

/-- A span is readable exactly when its trace id was generated or inherited in
the right form. -/
theorem restores_span_iff {ctx : CorrelationContext} {r : SpanRecord}
    (h : StartedUnder ctx r) :
    Restores r.traceparent r.traceId r.spanId <->
      ctx.correlationId = [] ∨ isHexString ctx.correlationId 32 = true := by
  rw [SpanRecord.traceparent, restores_formatTraceparent_iff h.spanId]
  cases hempty : ctx.empty with
  | true =>
      have hnil : ctx.correlationId = [] := List.isEmpty_iff.mp hempty
      simp [hnil, h.generated hempty]
  | false =>
      have hne : ctx.correlationId ≠ [] := by
        intro hnil
        simp [CorrelationContext.empty, hnil] at hempty
      simp [hne, h.inherited hempty]

theorem restores_installed_iff (ids : GeneratedIds) (req : HttpRequest) :
    Restores (installedContext ids req).traceparent (installedContext ids req).traceId
        (installedContext ids req).spanId <->
      forall v, req.header (ascii "X-Trace-ID") = some v -> isHexString v 32 = true := by
  have hspan : isHexString (installedContext ids req).spanId 16 = true := by
    simp only [installedContext]
    exact isHexString_generate_spanId ids.correlation ids.trace ids.request
  rw [restores_traceparent_iff hspan]
  cases hheader : req.header (ascii "X-Trace-ID") with
  | none =>
      have htrace := isHexString_generate_traceId ids.correlation ids.trace ids.request
      simp [installedContext, hheader, htrace]
  | some v => simp [installedContext, hheader]

/--
Every span exported under a context, and every installed context: the
`traceparent` text it is printed as is accepted with the same ids exactly when
the id that takes the place of a trace id has its form.
-/
theorem traceparent_accepted_iff (operations : List SpanOperation) (source : ContextSource)
    (r : SpanRecord) (ids : GeneratedIds) (req : HttpRequest) :
    ((source.context, r) ∈ exportedBy operations ->
      (Restores r.traceparent r.traceId r.spanId <-> source.TraceReady)) ∧
      (Restores (installedContext ids req).traceparent (installedContext ids req).traceId
          (installedContext ids req).spanId <->
        forall v, req.header (ascii "X-Trace-ID") = some v -> isHexString v 32 = true) := by
  constructor
  · intro h
    rw [restores_span_iff (startedUnder_of_mem_exportedBy h)]
    exact (ContextSource.traceReady_iff source).symm
  · exact restores_installed_iff ids req

def zeroIds : GeneratedIds where
  correlation := UUID.generate 0 0
  trace := UUID.generate 0 0
  request := UUID.generate 0 0

theorem generatedContext_span_refused :
    exists r, ((ContextSource.generated zeroIds).context, r) ∈
        exportedBy [.start (ContextSource.generated zeroIds).context (ascii "x") 0, .finish 1] ∧
      forall ctx : CorrelationContext, ctx.setTraceparent r.traceparent = (ctx, false) := by
  refine ⟨_, List.mem_singleton.mpr rfl, ?_⟩
  intro ctx
  rfl

def hexRequest : HttpRequest :=
  { headers := (∅ : StringMap Bytes).insert (ascii "X-Correlation-ID")
      (ascii "0af7651916cd43dd8448eb211c80319c") }

theorem hexRequest_span_restored :
    exists r, ((ContextSource.installed zeroIds hexRequest).context, r) ∈
        exportedBy [.start (ContextSource.installed zeroIds hexRequest).context (ascii "x") 0,
          .finish 1] ∧
      Restores r.traceparent r.traceId r.spanId := by
  have hexported : exists r, ((ContextSource.installed zeroIds hexRequest).context, r) ∈
      exportedBy [.start (ContextSource.installed zeroIds hexRequest).context (ascii "x") 0,
        .finish 1] := ⟨_, List.mem_singleton.mpr rfl⟩
  rcases hexported with ⟨r, hr⟩
  refine ⟨r, hr, ((traceparent_accepted_iff _ _ r zeroIds hexRequest).left hr).mpr ?_⟩
  exact ⟨ascii "0af7651916cd43dd8448eb211c80319c", rfl, Or.inr rfl⟩

end Web
end CppCommons
