import CppCommons.Observability.CorrelationScope
import CppCommons.Observability.SpanNesting

/-!
# Identity of spans and traces

A generated id is made of the low bytes of values of one counter, so it depends on
how many values the process has drawn before each of its bytes, modulo 256 only.
A span takes its trace id from the current correlation context or draws one, and
looks at its parent for the span id only.
-/

namespace CppCommons
namespace Observability

open Cxx
open Foundation.Brackets

/-!
## Drawn ids

The values that a tracer draws are told by their numbers: how many values all the
tracers of the process have drawn before, since the counter had a given value.
-/

theorem hexFixed_two_inj {m n : Nat} (hm : m < 256) (hn : n < 256)
    (h : hexFixed 2 m = hexFixed 2 n) : m = n := by
  have hnumber := congrArg hexNumber h
  rw [hexNumber_hexFixed, hexNumber_hexFixed] at hnumber
  lia

def drawNumbers : Nat -> List Nat -> Nat -> List Nat × Nat
  | 0, _, drawn => ([], drawn)
  | bytes + 1, others, drawn =>
      let found := drawn + others.headD 0
      let rest := drawNumbers bytes others.tail (found + 1)
      (found :: rest.fst, rest.snd)

def byteText (counter : UInt64) (n : Nat) : Bytes :=
  hexFixed 2 (counter + UInt64.ofNat n).toUInt8.toNat

def drawnText (counter : UInt64) (numbers : List Nat) : Bytes :=
  numbers.flatMap (byteText counter)

theorem generateId_eq (bytes : Nat) (others : List Nat) (counter : UInt64) (drawn : Nat) :
    generateId bytes others (counter + UInt64.ofNat drawn) =
      (drawnText counter (drawNumbers bytes others drawn).fst,
        counter + UInt64.ofNat (drawNumbers bytes others drawn).snd) := by
  induction bytes generalizing others drawn with
  | zero => rfl
  | succ bytes ih =>
      have hfound : counter + UInt64.ofNat drawn + UInt64.ofNat (others.headD 0) =
          counter + UInt64.ofNat (drawn + others.headD 0) := by
        rw [UInt64.add_assoc, ← UInt64.ofNat_add]
      have hnext : counter + UInt64.ofNat (drawn + others.headD 0) + 1 =
          counter + UInt64.ofNat (drawn + others.headD 0 + 1) := by
        rw [UInt64.ofNat_add (drawn + others.headD 0) 1, ← UInt64.add_assoc]
        rfl
      simp only [generateId, drawNumbers, hfound, hnext, ih]
      rfl

theorem byteText_eq_iff (counter : UInt64) (m n : Nat) :
    byteText counter m = byteText counter n <-> m % 256 = n % 256 := by
  have htoNat : forall k : Nat, (counter + UInt64.ofNat k).toUInt8.toNat =
      (counter.toNat + k) % 256 := by
    intro k
    simp only [UInt64.toNat_toUInt8, UInt64.toNat_add, UInt64.toNat_ofNat']
    lia
  constructor
  · intro h
    have hbytes := hexFixed_two_inj (UInt8.toNat_lt _) (UInt8.toNat_lt _) h
    rw [htoNat, htoNat] at hbytes
    lia
  · intro h
    rw [byteText, byteText, htoNat, htoNat]
    congr 1
    lia

@[simp] theorem length_byteText (counter : UInt64) (n : Nat) : (byteText counter n).length = 2 :=
  length_hexFixed 2 _

theorem drawnText_eq_iff (counter : UInt64) (numbers numbers' : List Nat) :
    drawnText counter numbers = drawnText counter numbers' <->
      numbers.map (fun n => n % 256) = numbers'.map (fun n => n % 256) := by
  induction numbers generalizing numbers' with
  | nil =>
      cases numbers' with
      | nil => simp
      | cons n numbers' =>
          constructor
          · intro h
            have hlength := congrArg List.length h
            simp [drawnText] at hlength
            lia
          · intro h
            cases h
  | cons m numbers ih =>
      cases numbers' with
      | nil =>
          constructor
          · intro h
            have hlength := congrArg List.length h
            simp [drawnText] at hlength
          · intro h
            cases h
      | cons n numbers' =>
          rw [List.map_cons, List.map_cons, List.cons.injEq, ← ih, ← byteText_eq_iff counter]
          constructor
          · intro h
            exact List.append_inj h (by simp)
          · intro h
            rw [drawnText, List.flatMap_cons, h.left]
            exact congrArg (byteText counter n ++ ·) h.right

/-!
## Span ids

Eight values are drawn for a span id, and sixteen before them for a trace id if there is
no correlation context.
-/

def traceNumbers (ctx : CorrelationContext) (others : List Nat) (drawn : Nat) : List Nat × Nat :=
  if ctx.empty then drawNumbers 16 others drawn else ([], drawn)

def spanNumbers (ctx : CorrelationContext) (others : List Nat) (drawn : Nat) : List Nat × Nat :=
  drawNumbers 8 (if ctx.empty then others.drop 16 else others) (traceNumbers ctx others drawn).snd

section NewSpan

variable {t : OtelTracer} {counter : UInt64} {drawn : Nat}

theorem generated_traceNumbers (h : t.counter = counter + UInt64.ofNat drawn)
    (ctx : CorrelationContext) (others : List Nat) :
    (if ctx.empty then generateId 16 others t.counter else (ctx.correlationId, t.counter)).snd =
      counter + UInt64.ofNat (traceNumbers ctx others drawn).snd := by
  cases hempty : ctx.empty with
  | true => simp [traceNumbers, hempty, h, generateId_eq]
  | false => simp [traceNumbers, hempty, h]

theorem newSpan_spanId (h : t.counter = counter + UInt64.ofNat drawn) (ctx : CorrelationContext)
    (name : Bytes) (now : Nanoseconds) (others : List Nat) :
    (t.newSpan ctx name now others).fst.spanId =
      drawnText counter (spanNumbers ctx others drawn).fst := by
  simp only [OtelTracer.newSpan, generated_traceNumbers h, generateId_eq, spanNumbers]

theorem newSpan_snd (h : t.counter = counter + UInt64.ofNat drawn) (ctx : CorrelationContext)
    (name : Bytes) (now : Nanoseconds) (others : List Nat) :
    (t.newSpan ctx name now others).snd =
      counter + UInt64.ofNat (spanNumbers ctx others drawn).snd := by
  simp only [OtelTracer.newSpan, generated_traceNumbers h, generateId_eq, spanNumbers]

end NewSpan

def SpanOperation.drawn : SpanOperation -> Nat -> Nat
  | .start ctx _ _ others, drawn => (spanNumbers ctx others drawn).snd
  | .finish _, drawn => drawn

theorem counter_perform {t : OtelTracer} {counter : UInt64} {drawn : Nat}
    (h : t.counter = counter + UInt64.ofNat drawn) (operation : SpanOperation) :
    (t.perform operation).fst.counter = counter + UInt64.ofNat (operation.drawn drawn) := by
  cases operation with
  | start ctx name now others => exact newSpan_snd h ctx name now others
  | finish now =>
      rw [OtelTracer.perform, OtelTracer.endSpan]
      cases t.stack with
      | nil => exact h
      | cons top rest => exact h

theorem counter_constructed (counter : UInt64) :
    (OtelTracer.constructed counter).counter = counter + UInt64.ofNat 0 :=
  (UInt64.add_zero counter).symm

def OtelTracer.started (t : OtelTracer) : List SpanOperation -> List SpanRecord
  | [] => []
  | .start ctx name now others :: operations =>
      (t.newSpan ctx name now others).fst ::
        started (t.perform (.start ctx name now others)).fst operations
  | .finish now :: operations => started (t.perform (.finish now)).fst operations

/-- For each span that is started, the numbers of the values in its id. -/
def idNumbers : Nat -> List SpanOperation -> List (List Nat)
  | _, [] => []
  | drawn, .start ctx _ _ others :: operations =>
      (spanNumbers ctx others drawn).fst :: idNumbers (spanNumbers ctx others drawn).snd operations
  | drawn, .finish _ :: operations => idNumbers drawn operations

theorem spanIds_started {t : OtelTracer} {counter : UInt64} {drawn : Nat}
    (h : t.counter = counter + UInt64.ofNat drawn) (operations : List SpanOperation) :
    (t.started operations).map SpanRecord.spanId =
      (idNumbers drawn operations).map (drawnText counter) := by
  induction operations generalizing t drawn with
  | nil => rfl
  | cons operation operations ih =>
      have hrest := ih (counter_perform h operation)
      cases operation with
      | start ctx name now others =>
          rw [OtelTracer.started, idNumbers, List.map_cons, List.map_cons,
            newSpan_spanId h, hrest]
          rfl
      | finish now =>
          rw [OtelTracer.started, idNumbers, hrest]
          rfl

theorem nodup_drawnText_iff (counter : UInt64) (ids : List (List Nat)) :
    (ids.map (drawnText counter)).Nodup <->
      (ids.map (fun numbers => numbers.map (fun n => n % 256))).Nodup := by
  rw [List.Nodup, List.Nodup, List.pairwise_map, List.pairwise_map]
  constructor
  · intro h
    refine h.imp ?_
    intro m n hne hsame
    exact hne ((drawnText_eq_iff counter m n).mpr hsame)
  · intro h
    refine h.imp ?_
    intro m n hne hsame
    exact hne ((drawnText_eq_iff counter m n).mp hsame)

/--
For every run of a tracer, and whatever other tracers draw before and between the
values of its ids: all its spans have different ids if and only if any two of them
differ, at one of the eight bytes, in the number of values the process has drawn
before that byte, modulo 256.
-/
theorem spanIds_nodup_iff (counter : UInt64) (operations : List SpanOperation) :
    (((OtelTracer.constructed counter).started operations).map SpanRecord.spanId).Nodup <->
      ((idNumbers 0 operations).map (fun numbers => numbers.map (fun n => n % 256))).Nodup := by
  rw [spanIds_started (counter_constructed counter), nodup_drawnText_iff]

-- 248 values drawn by other tracers bring the second span to the id of the first
example : (idNumbers 0 [.start { correlationId := [1] } [] 0,
    .start { correlationId := [1] } [] 0 [248]]).map
      (fun numbers => numbers.map (fun n => n % 256)) =
    [[0, 1, 2, 3, 4, 5, 6, 7], [0, 1, 2, 3, 4, 5, 6, 7]] := rfl

theorem manySpans_repeat :
    ¬ (((OtelTracer.constructed 0x1a2b3c4d5e6f7890).started
      (List.replicate 33 (.start { correlationId := [1] } (ascii "op") 0))).map
        SpanRecord.spanId).Nodup := by
  rw [spanIds_started (counter_constructed _), nodup_drawnText_iff]
  decide +kernel

/-!
## Trace ids

One thread starts and ends spans while it enters and leaves correlation scopes.
-/

inductive ScopedOperation where
  | start (name : Bytes) (now : Nanoseconds) (others : List Nat := [])
  | finish (now : Nanoseconds)
  | enter (ctx : CorrelationContext)
  | leave

/-- The calls of the tracer, each start with the context that is current.  A scope
is left only when there is one. -/
def underScopes : CorrelationContext -> List CorrelationScope -> List ScopedOperation ->
    List SpanOperation
  | _, _, [] => []
  | current, scopes, .start name now others :: operations =>
      .start current name now others :: underScopes current scopes operations
  | current, scopes, .finish now :: operations =>
      .finish now :: underScopes current scopes operations
  | current, scopes, .enter ctx :: operations =>
      let constructed := CorrelationScope.construct current ctx
      underScopes constructed.snd (constructed.fst :: scopes) operations
  | _, scope :: scopes, .leave :: operations => underScopes scope.destroy scopes operations
  | current, [], .leave :: operations => underScopes current [] operations

/-- Every span has the trace id of its parent. -/
def OneTrace (counter : UInt64) (operations : List SpanOperation) : Prop :=
  forall i k r parent, SpanAt (.constructed counter) operations i r ->
    Innermost ((brackets operations).take i) k ->
    SpanAt (.constructed counter) operations k parent -> r.traceId = parent.traceId

/-- Where a trace id comes from: a correlation id, or the values with the given numbers. -/
inductive TraceSource where
  | correlation (id : Bytes)
  | drawn (numbers : List Nat)

/-- Two sources give one trace id.  A drawn id is the same by accident only. -/
def TraceSource.Agree (counter : UInt64) : TraceSource -> TraceSource -> Prop
  | .correlation a, .correlation b => a = b
  | .drawn m, .drawn n => m.map (fun number => number % 256) = n.map (fun number => number % 256)
  | .correlation a, .drawn n => a = drawnText counter n
  | .drawn m, .correlation b => drawnText counter m = b

def drawnAfter (operations : List SpanOperation) : Nat :=
  operations.foldl (fun drawn operation => operation.drawn drawn) 0

def traceSource (before : List SpanOperation) (ctx : CorrelationContext) (others : List Nat) :
    TraceSource :=
  if ctx.empty then .drawn (traceNumbers ctx others (drawnAfter before)).fst
  else .correlation ctx.correlationId

def SourceAt (operations : List SpanOperation) (i : Nat) (source : TraceSource) : Prop :=
  exists ctx name now others, operations[i]? = some (.start ctx name now others) ∧
    source = traceSource (operations.take i) ctx others

/-- Each span started inside another has a source that agrees with that of the other. -/
def SourcesAgree (counter : UInt64) (operations : List SpanOperation) : Prop :=
  forall i k source parent, SourceAt operations i source ->
    Innermost ((brackets operations).take i) k -> SourceAt operations k parent ->
    source.Agree counter parent

theorem counter_after (counter : UInt64) (operations : List SpanOperation) :
    ((OtelTracer.constructed counter).after operations).counter =
      counter + UInt64.ofNat (drawnAfter operations) := by
  induction operations using List.reverseRecOn with
  | nil => exact counter_constructed counter
  | append_singleton operations operation ih =>
      have hdrawn : drawnAfter (operations ++ [operation]) =
          operation.drawn (drawnAfter operations) := by
        rw [drawnAfter, List.foldl_append]
        rfl
      rw [OtelTracer.after_concat, counter_perform ih, hdrawn]

def TraceSource.text (counter : UInt64) : TraceSource -> Bytes
  | .correlation id => id
  | .drawn numbers => drawnText counter numbers

theorem newSpan_traceId (counter : UInt64) (before : List SpanOperation)
    (ctx : CorrelationContext) (name : Bytes) (now : Nanoseconds) (others : List Nat) :
    (((OtelTracer.constructed counter).after before).newSpan ctx name now others).fst.traceId =
      (traceSource before ctx others).text counter := by
  cases hempty : ctx.empty with
  | true =>
      simp only [OtelTracer.newSpan, traceSource, TraceSource.text, traceNumbers, hempty, if_true,
        counter_after, generateId_eq]
  | false => simp [OtelTracer.newSpan, traceSource, TraceSource.text, hempty]

theorem agree_iff (counter : UInt64) (source parent : TraceSource) :
    source.Agree counter parent <-> source.text counter = parent.text counter := by
  cases source with
  | correlation a =>
      cases parent with
      | correlation b => exact Iff.rfl
      | drawn n => exact Iff.rfl
  | drawn m =>
      cases parent with
      | correlation b => exact Iff.rfl
      | drawn n => exact (drawnText_eq_iff counter m n).symm

theorem spanAt_of_sourceAt {operations : List SpanOperation} {i : Nat} {source : TraceSource}
    (counter : UInt64) (h : SourceAt operations i source) :
    exists r, SpanAt (.constructed counter) operations i r ∧ r.traceId = source.text counter := by
  rcases h with ⟨ctx, name, now, others, hstart, rfl⟩
  exact ⟨_, ⟨ctx, name, now, others, hstart, rfl⟩, newSpan_traceId counter _ ctx name now others⟩

theorem sourceAt_of_spanAt {operations : List SpanOperation} {i : Nat} {counter : UInt64}
    {r : SpanRecord} (h : SpanAt (.constructed counter) operations i r) :
    exists source, SourceAt operations i source ∧ r.traceId = source.text counter := by
  rcases h with ⟨ctx, name, now, others, hstart, rfl⟩
  exact ⟨_, ⟨ctx, name, now, others, hstart, rfl⟩, newSpan_traceId counter _ ctx name now others⟩

theorem oneTrace_of_sourcesAgree {counter : UInt64} {operations : List SpanOperation}
    (h : SourcesAgree counter operations) : OneTrace counter operations := by
  intro i k r parent hr hk hparent
  rcases sourceAt_of_spanAt hr with ⟨source, hsource, htext⟩
  rcases sourceAt_of_spanAt hparent with ⟨source', hsource', htext'⟩
  rw [htext, htext', ← agree_iff]
  exact h i k source source' hsource hk hsource'

theorem sourcesAgree_of_oneTrace {counter : UInt64} {operations : List SpanOperation}
    (h : OneTrace counter operations) : SourcesAgree counter operations := by
  intro i k source parent hsource hk hparent
  rcases spanAt_of_sourceAt counter hsource with ⟨r, hr, htext⟩
  rcases spanAt_of_sourceAt counter hparent with ⟨r', hr', htext'⟩
  rw [agree_iff, ← htext, ← htext']
  exact h i k r r' hr hk hr'

/--
For every run of one thread that starts and ends spans and enters and leaves
scopes, whatever other tracers draw in between: every span has the trace id of its
parent if and only if each span started inside another takes its trace id from the
same correlation id, an accidental repetition of a drawn id apart.
-/
theorem oneTrace_iff (counter : UInt64) (operations : List ScopedOperation) :
    OneTrace counter (underScopes {} [] operations) <->
      SourcesAgree counter (underScopes {} [] operations) :=
  ⟨sourcesAgree_of_oneTrace, oneTrace_of_sourcesAgree⟩

theorem nestedSpans_two_traces :
    ¬ OneTrace 0x1a2b3c4d5e6f7890
      (underScopes {} [] [.start (ascii "outer") 0, .start (ascii "inner") 1]) := by
  intro h
  have hagree := sourcesAgree_of_oneTrace h 1 0 (.drawn (List.range' 24 16))
    (.drawn (List.range' 0 16)) ⟨{}, _, _, _, rfl, rfl⟩ ⟨[], 0, rfl, rfl⟩ ⟨{}, _, _, _, rfl, rfl⟩
  cases hagree

end Observability
end CppCommons
