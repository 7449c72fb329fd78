import CppCommons.Cxx.StandardLibrary
import CppCommons.Observability.CorrelationContext

/-!
# Tracer

`OtelTracer` keeps the active spans on one stack.  `start_span` and `end_span`
hold its mutex from beginning to end, so each is one step.  The counter behind
the ids is a static of `generate_id`, one for all tracers of the process, and is
not guarded by the mutex: between any two values that a tracer draws from it,
other tracers may draw any number of values.
-/

namespace CppCommons
namespace Observability

open Cxx
open CorrelationContext

structure SpanRecord where
  traceId : Bytes
  spanId : Bytes
  parentSpanId : Bytes
  name : Bytes
  start : Nanoseconds
  finish : Nanoseconds := 0
deriving DecidableEq

def SpanRecord.traceparent (r : SpanRecord) : Bytes :=
  formatTraceparent r.traceId r.spanId

/-- The active spans, innermost first, and the counter as this tracer has left it. -/
structure OtelTracer where
  stack : List SpanRecord := []
  counter : UInt64 := 0x1a2b3c4d5e6f7890
deriving DecidableEq

/-- `bytes` values of the counter, each cut to a byte and printed in hexadecimal;
`others` tells how many values other tracers draw right before each of them. -/
def generateId : Nat -> List Nat -> UInt64 -> Bytes × UInt64
  | 0, _, counter => ([], counter)
  | bytes + 1, others, counter =>
      let found := counter + UInt64.ofNat (others.headD 0)
      let rest := generateId bytes others.tail (found + 1)
      (hexFixed 2 found.toUInt8.toNat ++ rest.fst, rest.snd)

namespace OtelTracer

/-- The id of the innermost active span, empty if there is none. -/
def topSpanId (t : OtelTracer) : Bytes :=
  match t.stack with
  | [] => []
  | top :: _ => top.spanId

/-- The span `start_span` makes under the current correlation context `ctx`, and
the counter after it. -/
def newSpan (t : OtelTracer) (ctx : CorrelationContext) (name : Bytes) (now : Nanoseconds)
    (others : List Nat := []) : SpanRecord × UInt64 :=
  let trace :=
    if ctx.empty then generateId 16 others t.counter else (ctx.correlationId, t.counter)
  let span := generateId 8 (if ctx.empty then others.drop 16 else others) trace.snd
  ({ traceId := trace.fst, spanId := span.fst, parentSpanId := t.topSpanId, name := name,
     start := now }, span.snd)

def startSpan (t : OtelTracer) (ctx : CorrelationContext) (name : Bytes) (now : Nanoseconds)
    (others : List Nat := []) : OtelTracer :=
  let span := t.newSpan ctx name now others
  { stack := span.fst :: t.stack, counter := span.snd }

/-- `end_span`, with the span it hands to the exporter. -/
def endSpan (t : OtelTracer) (now : Nanoseconds) : OtelTracer × Option SpanRecord :=
  match t.stack with
  | [] => (t, none)
  | top :: rest => ({ t with stack := rest }, some { top with finish := now })

end OtelTracer

/-!
## Ids

A drawn id is a hexadecimal text of the length asked for and never empty.
-/

theorem isHexString_generateId (bytes : Nat) (others : List Nat) (counter : UInt64) :
    isHexString (generateId bytes others counter).fst (2 * bytes) = true := by
  apply isHexString_iff.mpr
  induction bytes generalizing others counter with
  | zero => simp [generateId]
  | succ bytes ih =>
      rcases ih others.tail (counter + UInt64.ofNat (others.headD 0) + 1) with
        ⟨hlength, hdigits⟩
      constructor
      · rw [generateId, List.length_append, length_hexFixed, hlength]
        lia
      · intro c hc
        rcases List.mem_append.mp hc with hfirst | hrest
        · exact isHexDigit_of_mem_hexFixed hfirst
        · exact hdigits c hrest

structure StartedUnder (ctx : CorrelationContext) (r : SpanRecord) : Prop where
  spanId : isHexString r.spanId 16 = true
  generated : ctx.empty = true -> isHexString r.traceId 32 = true
  inherited : ctx.empty = false -> r.traceId = ctx.correlationId

theorem startedUnder_newSpan (t : OtelTracer) (ctx : CorrelationContext) (name : Bytes)
    (now : Nanoseconds) (others : List Nat) :
    StartedUnder ctx (t.newSpan ctx name now others).fst := by
  refine ⟨isHexString_generateId 8 _ _, ?_, ?_⟩
  · intro hempty
    simp only [OtelTracer.newSpan, hempty, if_true]
    exact isHexString_generateId 16 others t.counter
  · intro hempty
    simp [OtelTracer.newSpan, hempty]

theorem spanId_ne_nil {ctx : CorrelationContext} {r : SpanRecord} (h : StartedUnder ctx r) :
    r.spanId ≠ [] := by
  intro hnil
  have hlength := (isHexString_iff.mp h.spanId).left
  rw [hnil] at hlength
  cases hlength

/-!
## Runs

The calls that one tracer receives, in the order in which they hold its mutex.
-/

inductive SpanOperation where
  | start (ctx : CorrelationContext) (name : Bytes) (now : Nanoseconds) (others : List Nat := [])
  | finish (now : Nanoseconds)

namespace OtelTracer

/-- A tracer right after its construction; the counter of the process may have been used. -/
def constructed (counter : UInt64) : OtelTracer where
  counter := counter

/-- One call, with the span it hands to the exporter. -/
def perform (t : OtelTracer) : SpanOperation -> OtelTracer × Option SpanRecord
  | .start ctx name now others => (t.startSpan ctx name now others, none)
  | .finish now => t.endSpan now

def after (t : OtelTracer) (operations : List SpanOperation) : OtelTracer :=
  operations.foldl (fun t operation => (t.perform operation).fst) t

/-- The spans handed to the exporter, in order. -/
def exports (t : OtelTracer) : List SpanOperation -> List SpanRecord
  | [] => []
  | operation :: operations =>
      (t.perform operation).snd.toList ++ exports (t.perform operation).fst operations

end OtelTracer

/-- The contexts under which the exported spans were started; `contexts` are those of
the active spans. -/
def exportedContexts : List CorrelationContext -> List SpanOperation -> List CorrelationContext
  | _, [] => []
  | contexts, .start ctx _ _ _ :: operations => exportedContexts (ctx :: contexts) operations
  | [], .finish _ :: operations => exportedContexts [] operations
  | ctx :: contexts, .finish _ :: operations => ctx :: exportedContexts contexts operations

/-- The spans a new tracer exports, each with the context it was started under. -/
def exportedBy (operations : List SpanOperation) : List (CorrelationContext × SpanRecord) :=
  (exportedContexts [] operations).zip (OtelTracer.exports {} operations)

theorem startedUnder_exports {t : OtelTracer} {contexts : List CorrelationContext}
    (operations : List SpanOperation) (hactive : List.Forall₂ StartedUnder contexts t.stack) :
    List.Forall₂ StartedUnder (exportedContexts contexts operations) (t.exports operations) := by
  induction operations generalizing t contexts with
  | nil => exact .nil
  | cons operation operations ih =>
      cases operation with
      | start ctx name now others =>
          exact ih (.cons (startedUnder_newSpan t ctx name now others) hactive)
      | finish now =>
          rcases t with ⟨stack, counter⟩
          cases hactive with
          | nil => exact ih (t := ⟨[], counter⟩) .nil
          | cons hstarted hrest =>
              refine .cons ?_ (ih hrest)
              exact ⟨hstarted.spanId, hstarted.generated, hstarted.inherited⟩

theorem startedUnder_of_mem_exportedBy {operations : List SpanOperation}
    {ctx : CorrelationContext} {r : SpanRecord} (h : (ctx, r) ∈ exportedBy operations) :
    StartedUnder ctx r :=
  List.forall₂_zip (startedUnder_exports operations .nil) h

end Observability
end CppCommons
