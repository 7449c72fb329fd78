import Mathlib.Data.List.Basic

/-!
# Calls that may fail

A program calls a library whose operations report success, with an output, or
failure.  What a call reports may depend on the calls before it, so a library is
a function of the history, and the history is the state of the program.  The
rules are those of pre- and postconditions for such programs.
-/

namespace CppCommons
namespace Foundation
namespace FallibleCalls

variable {call output result : Type}

/-- A call with its output, or with none if it reported failure. -/
structure Performed (call output : Type) where
  call : call
  output : Option output

def Library (call output : Type) : Type :=
  List (Performed call output) -> call -> Option output

abbrev Program (call output result : Type) : Type :=
  StateM (List (Performed call output)) result

def perform (lib : Library call output) (c : call) : Program call output (Option output) :=
  fun history => (lib history c, history ++ [{ call := c, output := lib history c }])

def AllSucceeded (history : List (Performed call output)) : Prop :=
  forall p, p ∈ history -> p.output.isSome = true

/-!
## Pre- and postconditions

A program keeps a promise about its result and the history, from every history it expects.
-/

def Triple (pre : List (Performed call output) -> Prop) (m : Program call output result)
    (post : result -> List (Performed call output) -> Prop) : Prop :=
  forall history, pre history -> post (m history).fst (m history).snd

section Rules

variable {pre : List (Performed call output) -> Prop} {lib : Library call output} {c : call}
  {post : result -> List (Performed call output) -> Prop}

theorem Triple.of_pure {value : result} (h : forall history, pre history -> post value history) :
    Triple pre (pure value : Program call output result) post :=
  h

theorem Triple.of_weaker (weaker : List (Performed call output) -> Prop)
    {m : Program call output result} (hpre : forall history, pre history -> weaker history)
    (h : Triple weaker m post) : Triple pre m post :=
  fun history hhistory => h history (hpre history hhistory)

theorem Triple.perform_bind (mid : Option output -> List (Performed call output) -> Prop)
    {next : Option output -> Program call output result}
    (hcall : forall history, pre history ->
      mid (lib history c) (history ++ [{ call := c, output := lib history c }]))
    (hnext : forall out, Triple (mid out) (next out) post) :
    Triple pre (perform lib c >>= next) post :=
  fun history hhistory => hnext _ _ (hcall history hhistory)

end Rules

/-!
## Patterns of success and failure

Which calls succeed is fixed beforehand, by their number.
-/

/-- The library whose `n`-th call succeeds if `pattern n` says so. -/
def Library.ofPattern (pattern : Nat -> Bool)
    (writes : List (Performed call output) -> call -> output) : Library call output :=
  fun history c => if pattern history.length then some (writes history c) else none

structure Follows (pattern : Nat -> Bool) (n : Nat) (history : List (Performed call output)) :
    Prop where
  length : history.length = n
  reports : forall i p, history[i]? = some p -> p.output.isSome = pattern i

theorem follows_nil (pattern : Nat -> Bool) :
    Follows pattern 0 ([] : List (Performed call output)) :=
  ⟨rfl, by simp⟩

theorem Follows.concat {pattern : Nat -> Bool} {n : Nat} {history : List (Performed call output)}
    (h : Follows pattern n history) {p : Performed call output}
    (hp : p.output.isSome = pattern n) : Follows pattern (n + 1) (history ++ [p]) := by
  refine ⟨by rw [List.length_append, h.length]; rfl, ?_⟩
  intro i q hq
  rw [List.getElem?_append, h.length] at hq
  split at hq
  · exact h.reports i q hq
  · next hi =>
    have hlast : i - n = 0 := by
      have hlt := (List.getElem?_eq_some_iff.mp hq).choose
      simp only [List.length_singleton] at hlt
      lia
    have hin : i = n := by lia
    rw [hlast] at hq
    simp only [List.getElem?_cons_zero, Option.some.injEq] at hq
    rw [← hq, hin]
    exact hp

theorem Follows.allSucceeded_iff {pattern : Nat -> Bool} {n : Nat}
    {history : List (Performed call output)} (h : Follows pattern n history) :
    AllSucceeded history <-> forall i, i < n -> pattern i = true := by
  constructor
  · intro hall i hi
    have hlt : i < history.length := by
      rw [h.length]
      exact hi
    rw [← h.reports i history[i] (List.getElem?_eq_getElem hlt)]
    exact hall _ (List.getElem_mem hlt)
  · intro hpattern p hp
    rcases List.getElem?_of_mem hp with ⟨i, hget⟩
    rw [h.reports i p hget]
    apply hpattern
    rw [← h.length]
    exact (List.getElem?_eq_some_iff.mp hget).choose

theorem Triple.perform_ofPattern {pattern : Nat -> Bool}
    {writes : List (Performed call output) -> call -> output} {n : Nat} {c : call}
    {next : Option output -> Program call output result}
    {post : result -> List (Performed call output) -> Prop}
    (hnext : forall out, out.isSome = pattern n ->
      Triple (Follows pattern (n + 1)) (next out) post) :
    Triple (Follows pattern n) (perform (.ofPattern pattern writes) c >>= next) post := by
  have hreport : forall history, Follows pattern n history ->
      (Library.ofPattern pattern writes history c).isSome = pattern n := by
    intro history hfollows
    rw [Library.ofPattern, hfollows.length]
    cases pattern n with
    | true => rfl
    | false => rfl
  refine Triple.perform_bind
    (fun out history => out.isSome = pattern n ∧ Follows pattern (n + 1) history) ?_ ?_
  · intro history hfollows
    exact ⟨hreport history hfollows, hfollows.concat (hreport history hfollows)⟩
  · intro out history ⟨hout, hfollows⟩
    exact hnext out hout history hfollows

end FallibleCalls
end Foundation
end CppCommons
