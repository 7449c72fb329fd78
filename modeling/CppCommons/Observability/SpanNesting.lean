import CppCommons.Foundation.Brackets
import CppCommons.Observability.OtelTracer

/-!
# Nesting of spans

The starts and ends of spans on one tracer are brackets.  Some ends come when no
span is active and some spans are never ended.  The tracer exports a span at the
end that closes it, and its parent is the innermost span that was open at its
start.
-/

namespace CppCommons
namespace Observability

open Cxx
open DyckStep
open Foundation.Brackets

namespace OtelTracer

theorem after_concat (t : OtelTracer) (operations : List SpanOperation)
    (operation : SpanOperation) :
    t.after (operations ++ [operation]) = ((t.after operations).perform operation).fst := by
  rw [after, List.foldl_append]
  rfl

theorem exports_concat (t : OtelTracer) (operations : List SpanOperation)
    (operation : SpanOperation) :
    t.exports (operations ++ [operation]) =
      t.exports operations ++ ((t.after operations).perform operation).snd.toList := by
  induction operations generalizing t with
  | nil => simp [exports, after]
  | cons first operations ih =>
      rw [List.cons_append, exports, exports, ih, List.append_assoc]
      rfl

end OtelTracer

def SpanAt (t : OtelTracer) (operations : List SpanOperation) (i : Nat) (r : SpanRecord) : Prop :=
  exists ctx name now others, operations[i]? = some (.start ctx name now others) ∧
    r = ((t.after (operations.take i)).newSpan ctx name now others).fst

/-- `r` is the span that operation `i` starts, as operation `j` ends it. -/
def ExportedAt (t : OtelTracer) (operations : List SpanOperation) (pair : Nat × Nat)
    (r : SpanRecord) : Prop :=
  exists started now, SpanAt t operations pair.fst started ∧
    operations[pair.snd]? = some (.finish now) ∧ r = { started with finish := now }

def bracket : SpanOperation -> DyckStep
  | .start _ _ _ _ => U
  | .finish _ => D

def brackets (operations : List SpanOperation) : List DyckStep :=
  operations.map bracket

theorem brackets_concat (operations : List SpanOperation) (operation : SpanOperation) :
    brackets (operations ++ [operation]) = brackets operations ++ [bracket operation] :=
  List.map_append

theorem length_brackets (operations : List SpanOperation) :
    (brackets operations).length = operations.length :=
  List.length_map _

theorem take_brackets (operations : List SpanOperation) (i : Nat) :
    (brackets operations).take i = brackets (operations.take i) :=
  (List.map_take).symm

section Concat

variable {t : OtelTracer} {operations : List SpanOperation} {operation : SpanOperation}

theorem SpanAt.lt_length {i : Nat} {r : SpanRecord} (h : SpanAt t operations i r) :
    i < operations.length := by
  rcases h with ⟨ctx, name, now, others, hstart, _⟩
  exact (List.getElem?_eq_some_iff.mp hstart).choose

theorem SpanAt.concat {i : Nat} {r : SpanRecord} (h : SpanAt t operations i r) :
    SpanAt t (operations ++ [operation]) i r := by
  have hi := h.lt_length
  rcases h with ⟨ctx, name, now, others, hstart, hr⟩
  refine ⟨ctx, name, now, others, ?_, ?_⟩
  · rw [List.getElem?_append_left hi, hstart]
  · rw [List.take_append_of_le_length (Nat.le_of_lt hi), hr]

theorem spanAt_last (t : OtelTracer) (operations : List SpanOperation) (ctx : CorrelationContext)
    (name : Bytes) (now : Nanoseconds) (others : List Nat) :
    SpanAt t (operations ++ [.start ctx name now others]) operations.length
      ((t.after operations).newSpan ctx name now others).fst := by
  refine ⟨ctx, name, now, others, List.getElem?_concat_length, ?_⟩
  rw [List.take_left]

theorem ExportedAt.concat {pair : Nat × Nat} {r : SpanRecord}
    (h : ExportedAt t operations pair r) : ExportedAt t (operations ++ [operation]) pair r := by
  rcases h with ⟨started, now, hstarted, hfinish, hr⟩
  refine ⟨started, now, hstarted.concat, ?_, hr⟩
  rw [List.getElem?_append_left (List.getElem?_eq_some_iff.mp hfinish).choose, hfinish]

end Concat

theorem SpanAt.unique {t : OtelTracer} {operations : List SpanOperation} {i : Nat}
    {r s : SpanRecord} (h : SpanAt t operations i r) (h' : SpanAt t operations i s) : r = s := by
  rcases h with ⟨ctx, name, now, others, hstart, hr⟩
  rcases h' with ⟨ctx', name', now', others', hstart', hs⟩
  rw [hstart] at hstart'
  cases hstart'
  rw [hr, hs]

/-!
## The stack holds the open brackets

The active spans are those whose brackets are open, innermost on top.
-/

theorem stack_after (counter : UInt64) (operations : List SpanOperation) :
    List.Forall₂ (SpanAt (.constructed counter) operations) (openPositions (brackets operations))
      ((OtelTracer.constructed counter).after operations).stack := by
  induction operations using List.reverseRecOn with
  | nil => exact .nil
  | append_singleton operations operation ih =>
      have hkept : List.Forall₂ (SpanAt (.constructed counter) (operations ++ [operation]))
          (openPositions (brackets operations))
          ((OtelTracer.constructed counter).after operations).stack :=
        ih.imp (fun _ _ h => h.concat)
      rw [brackets_concat, OtelTracer.after_concat]
      cases operation with
      | start ctx name now others =>
          rw [bracket, openPositions_concat_U, length_brackets]
          exact .cons (spanAt_last _ operations ctx name now others) hkept
      | finish now =>
          rw [bracket, openPositions_concat_D, OtelTracer.perform, OtelTracer.endSpan]
          generalize openPositions (brackets operations) = positions at hkept ⊢
          generalize hstack : ((OtelTracer.constructed counter).after operations).stack = stack
            at hkept ⊢
          cases hkept with
          | nil =>
              rw [hstack]
              exact .nil
          | cons _ hrest => exact hrest

theorem spanAt_of_stack {counter : UInt64} {operations : List SpanOperation} {top : SpanRecord}
    {rest : List SpanRecord}
    (h : ((OtelTracer.constructed counter).after operations).stack = top :: rest) :
    exists k, Innermost (brackets operations) k ∧
      SpanAt (.constructed counter) operations k top := by
  have hstack := stack_after counter operations
  rw [h] at hstack
  generalize hpositions : openPositions (brackets operations) = positions at hstack
  cases hstack with
  | @cons k _ positions _ htop _ =>
      refine ⟨k, ?_, htop⟩
      rw [innermost_iff, hpositions, List.head?_cons]

theorem not_innermost_of_stack {counter : UInt64} {operations : List SpanOperation}
    (h : ((OtelTracer.constructed counter).after operations).stack = []) (k : Nat) :
    ¬ Innermost (brackets operations) k := by
  have hstack := stack_after counter operations
  rw [h] at hstack
  generalize hpositions : openPositions (brackets operations) = positions at hstack
  cases hstack
  intro hk
  rw [innermost_iff, hpositions] at hk
  cases hk

/-- The id that a new span gets for its parent. -/
structure ParentIs (counter : UInt64) (operations : List SpanOperation) (i : Nat)
    (r : SpanRecord) : Prop where
  inner : forall k s, Innermost ((brackets operations).take i) k ->
    SpanAt (.constructed counter) operations k s -> r.parentSpanId = s.spanId
  outermost : (forall k, ¬ Innermost ((brackets operations).take i) k) -> r.parentSpanId = []

theorem spanAt_of_take {t : OtelTracer} {operations : List SpanOperation} {n i : Nat}
    {r : SpanRecord} (h : SpanAt t (operations.take n) i r) : SpanAt t operations i r := by
  have hi := h.lt_length
  rw [List.length_take] at hi
  rcases h with ⟨ctx, name, now, others, hstart, hr⟩
  refine ⟨ctx, name, now, others, ?_, ?_⟩
  · rw [List.getElem?_take_of_lt (by lia)] at hstart
    exact hstart
  · rw [List.take_take, Nat.min_eq_left (by lia)] at hr
    exact hr

theorem parentIs_of_spanAt {counter : UInt64} {operations : List SpanOperation} {i : Nat}
    {r : SpanRecord} (h : SpanAt (.constructed counter) operations i r) :
    ParentIs counter operations i r := by
  rcases h with ⟨ctx, name, now, others, _, hr⟩
  have hparent : r.parentSpanId =
      ((OtelTracer.constructed counter).after (operations.take i)).topSpanId := by
    rw [hr]
    rfl
  rw [OtelTracer.topSpanId] at hparent
  constructor
  · intro k s hk hs
    rw [take_brackets] at hk
    cases hstack : ((OtelTracer.constructed counter).after (operations.take i)).stack with
    | nil => exact absurd hk (not_innermost_of_stack hstack k)
    | cons top rest =>
        rcases spanAt_of_stack hstack with ⟨k', hk', htop⟩
        rw [innermost_unique hk' hk] at htop
        rw [hstack] at hparent
        rw [hparent, (spanAt_of_take htop).unique hs]
  · intro hnone
    cases hstack : ((OtelTracer.constructed counter).after (operations.take i)).stack with
    | nil =>
        rw [hstack] at hparent
        exact hparent
    | cons top rest =>
        rcases spanAt_of_stack hstack with ⟨k, hk, _⟩
        rw [take_brackets] at hnone
        exact absurd hk (hnone k)

/-!
## Every pair of brackets is one export

By induction over the calls: an end exports the span of the innermost open bracket,
and nothing else exports.
-/

/-- The spans `exported` are those of the matched brackets, in the order of their ends. -/
structure Matched (counter : UInt64) (operations : List SpanOperation)
    (pairs : List (Nat × Nat)) (exported : List SpanRecord) : Prop where
  records : List.Forall₂ (ExportedAt (.constructed counter) operations) pairs exported
  ordered : pairs.Pairwise (fun a b => a.snd < b.snd)
  complete : forall i j, (i, j) ∈ pairs <-> Partner (brackets operations) i j

theorem Matched.snd_lt {counter : UInt64} {operations : List SpanOperation}
    {pairs : List (Nat × Nat)} {exported : List SpanRecord}
    (h : Matched counter operations pairs exported) {pair : Nat × Nat} (hpair : pair ∈ pairs) :
    pair.snd < operations.length := by
  rw [← length_brackets]
  exact lt_length_of_partner ((h.complete pair.fst pair.snd).mp hpair)

theorem Matched.concat_silent {counter : UInt64} {operations : List SpanOperation}
    {operation : SpanOperation} {pairs : List (Nat × Nat)} {exported : List SpanRecord}
    (h : Matched counter operations pairs exported)
    (hsilent : bracket operation = D -> forall k, ¬ Innermost (brackets operations) k) :
    Matched counter (operations ++ [operation]) pairs exported where
  records := h.records.imp (fun _ _ hexported => hexported.concat)
  ordered := h.ordered
  complete := by
    intro i j
    rw [brackets_concat, partner_concat_iff, h.complete]
    constructor
    · exact Or.inl
    · intro hcases
      rcases hcases with hpartner | ⟨_, hclosing, hinnermost⟩
      · exact hpartner
      · exact absurd hinnermost (hsilent hclosing i)

theorem Matched.concat_finish {counter : UInt64} {operations : List SpanOperation}
    {pairs : List (Nat × Nat)} {exported : List SpanRecord}
    (h : Matched counter operations pairs exported) {k : Nat} {top : SpanRecord}
    (hk : Innermost (brackets operations) k)
    (htop : SpanAt (.constructed counter) operations k top) (now : Nanoseconds) :
    Matched counter (operations ++ [.finish now]) (pairs ++ [(k, operations.length)])
      (exported ++ [{ top with finish := now }]) where
  records := by
    refine List.rel_append (h.records.imp (fun _ _ hexported => hexported.concat)) ?_
    exact .cons ⟨top, now, htop.concat, List.getElem?_concat_length, rfl⟩ .nil
  ordered := by
    refine List.pairwise_append.mpr ⟨h.ordered, List.pairwise_singleton _ _, ?_⟩
    intro pair hpair last hlast
    rw [List.mem_singleton.mp hlast]
    exact h.snd_lt hpair
  complete := by
    intro i j
    rw [brackets_concat, partner_concat_iff, length_brackets, List.mem_append,
      List.mem_singleton, Prod.mk.injEq, h.complete]
    constructor
    · intro hcases
      rcases hcases with hpartner | ⟨hi, hj⟩
      · exact Or.inl hpartner
      · rw [hi]
        exact Or.inr ⟨hj, rfl, hk⟩
    · intro hcases
      rcases hcases with hpartner | ⟨hj, _, hinnermost⟩
      · exact Or.inl hpartner
      · exact Or.inr ⟨innermost_unique hinnermost hk, hj⟩

theorem exists_matched (counter : UInt64) (operations : List SpanOperation) :
    exists pairs, Matched counter operations pairs
      ((OtelTracer.constructed counter).exports operations) := by
  induction operations using List.reverseRecOn with
  | nil =>
      refine ⟨[], .nil, .nil, ?_⟩
      intro i j
      constructor
      · intro hmem
        cases hmem
      · intro hpartner
        cases hpartner.left
  | append_singleton operations operation ih =>
      rcases ih with ⟨pairs, hmatched⟩
      rw [OtelTracer.exports_concat]
      cases operation with
      | start ctx name now others =>
          refine ⟨pairs, ?_⟩
          rw [OtelTracer.perform, Option.toList_none, List.append_nil]
          refine hmatched.concat_silent ?_
          intro hclosing
          cases hclosing
      | finish now =>
          rw [OtelTracer.perform, OtelTracer.endSpan]
          cases hstack : ((OtelTracer.constructed counter).after operations).stack with
          | nil =>
              refine ⟨pairs, ?_⟩
              rw [Option.toList_none, List.append_nil]
              exact hmatched.concat_silent (fun _ => not_innermost_of_stack hstack)
          | cons top rest =>
              rcases spanAt_of_stack hstack with ⟨k, hk, htop⟩
              exact ⟨_, hmatched.concat_finish hk htop now⟩

/--
For every sequence of starts and ends on a tracer: the exported spans are those
of the matched brackets, one for each pair and in the order of their ends; no
span is exported twice; and the parent of each span is the innermost span open at
its start, or none if there is no such span.
-/
theorem exports_matched (counter : UInt64) (operations : List SpanOperation) :
    (exists pairs : List (Nat × Nat),
      List.Forall₂ (ExportedAt (.constructed counter) operations) pairs
        ((OtelTracer.constructed counter).exports operations) ∧
      (pairs.map Prod.snd).Pairwise (fun j j' => j < j') ∧
      (pairs.map Prod.fst).Nodup ∧
      forall i j, (i, j) ∈ pairs <-> Partner (brackets operations) i j) ∧
    forall i r, SpanAt (.constructed counter) operations i r ->
      ParentIs counter operations i r := by
  constructor
  · rcases exists_matched counter operations with ⟨pairs, hmatched⟩
    refine ⟨pairs, hmatched.records, List.pairwise_map.mpr hmatched.ordered, ?_,
      hmatched.complete⟩
    refine List.pairwise_map.mpr (hmatched.ordered.imp_of_mem ?_)
    intro pair pair' hpair hpair' hlt hsame
    have hclosed := (hmatched.complete pair.fst pair.snd).mp hpair
    have hclosed' := (hmatched.complete pair'.fst pair'.snd).mp hpair'
    rw [← hsame] at hclosed'
    have hends := partner_unique hclosed hclosed'
    lia
  · intro i r hspan
    exact parentIs_of_spanAt hspan

end Observability
end CppCommons
