import Mathlib

/-!
# Runs of labelled step functions

A component whose callers choose the next action is a partial step function:
`step s a` is the next state, or nothing when the action is not enabled.  A run
is a list of actions taken one after the other.  The rules below prove a
property of every reached state from its preservation by one step, also when
each step is known to meet a side condition.
-/

namespace CppCommons
namespace Foundation
namespace LabelledRun

variable {state action : Type}

/-- The state reached by taking all actions in order. -/
def run (step : state -> action -> Option state) (s : state) (actions : List action) :
    Option state :=
  actions.foldlM step s

section Run

variable {step : state -> action -> Option state} {s t : state}

@[simp] theorem run_nil (s : state) : run step s [] = some s := rfl

theorem run_singleton (s : state) (a : action) : run step s [a] = step s a := by
  unfold run
  simp

theorem run_cons_of_step {a : action} {m : state} (h : step s a = some m)
    (actions : List action) : run step s (a :: actions) = run step m actions := by
  unfold run
  rw [List.foldlM_cons, h, Option.bind_eq_bind, Option.bind_some]

theorem run_append_of_run {before : List action} {m : state} (h : run step s before = some m)
    (after : List action) : run step s (before ++ after) = run step m after := by
  unfold run at *
  rw [List.foldlM_append, h, Option.bind_eq_bind, Option.bind_some]

theorem run_cons_eq_some_iff (a : action) (actions : List action) :
    run step s (a :: actions) = some t <->
      exists m, step s a = some m ∧ run step m actions = some t := by
  unfold run
  rw [List.foldlM_cons, Option.bind_eq_bind, Option.bind_eq_some_iff]

theorem run_concat_eq_some_iff (actions : List action) (a : action) :
    run step s (actions ++ [a]) = some t <->
      exists m, run step s actions = some m ∧ step m a = some t := by
  unfold run
  rw [List.foldlM_append, Option.bind_eq_bind, Option.bind_eq_some_iff]
  simp

theorem run_append_eq_some_iff (before after : List action) :
    run step s (before ++ after) = some t <->
      exists m, run step s before = some m ∧ run step m after = some t := by
  unfold run
  rw [List.foldlM_append, Option.bind_eq_bind, Option.bind_eq_some_iff]

theorem invariant_of_run {P : List action -> state -> Prop}
    (hstart : P [] s)
    (hstep : forall actions m a n, run step s actions = some m -> P actions m ->
      step m a = some n -> P (actions ++ [a]) n)
    {actions : List action} (hrun : run step s actions = some t) : P actions t := by
  induction actions using List.reverseRecOn generalizing t with
  | nil =>
      cases hrun
      exact hstart
  | append_singleton actions a ih =>
      rcases (run_concat_eq_some_iff actions a).mp hrun with ⟨m, hm, ha⟩
      exact hstep actions m a t hm (ih hm) ha

end Run

/-!
## Runs whose steps meet a side condition

`StepsMeet` says that each action of a run is taken in a state in which a condition
allows it.  A run that breaks the condition has a first step that breaks it.
-/

/-- Each action of the run is taken in a state where `ok` allows it. -/
def StepsMeet (step : state -> action -> Option state) (ok : state -> action -> Prop)
    (s : state) (actions : List action) : Prop :=
  forall before a after m, actions = before ++ a :: after ->
    run step s before = some m -> ok m a

section StepsMeet

variable {step : state -> action -> Option state} {ok : state -> action -> Prop}
  {s t : state}

theorem stepsMeet_nil : StepsMeet step ok s [] := by
  intro before a after m h
  cases before <;> cases h

theorem stepsMeet_cons {a : action} {m : state} {actions : List action} (hok : ok s a)
    (hstep : step s a = some m) (hrest : StepsMeet step ok m actions) :
    StepsMeet step ok s (a :: actions) := by
  intro before b after n hsplit hrun
  cases before with
  | nil =>
      cases hsplit
      cases hrun
      exact hok
  | cons first before =>
      cases hsplit
      rw [run_cons_of_step hstep] at hrun
      exact hrest before b after n rfl hrun

theorem stepsMeet_of_forall {good : action -> Prop} {actions : List action}
    (h : forall a, a ∈ actions -> good a) : StepsMeet step (fun _ a => good a) s actions := by
  intro before a after m hsplit _hrun
  apply h
  rw [hsplit]
  simp

theorem stepsMeet_and {ok' : state -> action -> Prop} {actions : List action}
    (h : StepsMeet step ok s actions) (h' : StepsMeet step ok' s actions) :
    StepsMeet step (fun m a => ok m a ∧ ok' m a) s actions := by
  intro before a after m hsplit hrun
  exact ⟨h before a after m hsplit hrun, h' before a after m hsplit hrun⟩

theorem stepsMeet_of_append {before after : List action}
    (h : StepsMeet step ok s (before ++ after)) : StepsMeet step ok s before := by
  intro front a back m hsplit hrun
  exact h front a (back ++ after) m (by rw [hsplit]; simp) hrun

theorem stepsMeet_suffix {before after : List action} {m : state}
    (hrun : run step s before = some m) (h : StepsMeet step ok s (before ++ after)) :
    StepsMeet step ok m after := by
  intro front a back n hsplit hn
  refine h (before ++ front) a back n (by rw [hsplit]; simp) ?_
  exact (run_append_eq_some_iff before front).mpr ⟨m, hrun, hn⟩

theorem stepsMeet_concat_iff {actions : List action} {a : action} {m : state}
    (hrun : run step s actions = some m) :
    StepsMeet step ok s (actions ++ [a]) <-> StepsMeet step ok s actions ∧ ok m a := by
  constructor
  · intro h
    exact ⟨stepsMeet_of_append h, h actions a [] m rfl hrun⟩
  · intro h front b back n hsplit hn
    cases back using List.reverseRecOn with
    | nil =>
        rcases List.append_inj' hsplit rfl with ⟨hfront, hb⟩
        cases hb
        rw [← hfront, hrun] at hn
        cases hn
        exact h.right
    | append_singleton back c =>
        have hsplit' : actions ++ [a] = (front ++ b :: back) ++ [c] := by
          rw [hsplit]
          simp
        rcases List.append_inj' hsplit' rfl with ⟨hactions, _⟩
        exact h.left front b back n hactions hn

theorem invariant_of_stepsMeet {P : List action -> state -> Prop}
    (hstart : P [] s)
    (hstep : forall actions m a n, run step s actions = some m -> P actions m ->
      ok m a -> step m a = some n -> P (actions ++ [a]) n)
    {actions : List action} (hok : StepsMeet step ok s actions)
    (hrun : run step s actions = some t) : P actions t := by
  have hinv : StepsMeet step ok s actions -> P actions t := by
    refine invariant_of_run (P := fun actions m => StepsMeet step ok s actions -> P actions m)
      (fun _ => hstart) ?_ hrun
    intro actions m a n hm ih ha hmeet
    rcases (stepsMeet_concat_iff hm).mp hmeet with ⟨hbefore, hlast⟩
    exact hstep actions m a n hm (ih hbefore) hlast ha
  exact hinv hok

theorem exists_first_violation {actions : List action}
    (hrun : run step s actions = some t) (h : ¬ StepsMeet step ok s actions) :
    exists before a after m, actions = before ++ a :: after ∧
      run step s before = some m ∧ StepsMeet step ok s before ∧ ¬ ok m a := by
  induction actions using List.reverseRecOn generalizing t with
  | nil => exact absurd stepsMeet_nil h
  | append_singleton actions a ih =>
      rcases (run_concat_eq_some_iff actions a).mp hrun with ⟨m, hm, _ha⟩
      by_cases hbefore : StepsMeet step ok s actions
      · refine ⟨actions, a, [], m, rfl, hm, hbefore, ?_⟩
        intro hok
        exact h ((stepsMeet_concat_iff hm).mpr ⟨hbefore, hok⟩)
      · rcases ih hm hbefore with ⟨before, b, after, n, hsplit, hn, hmeet, hnot⟩
        exact ⟨before, b, after ++ [a], n, by rw [hsplit]; simp, hn, hmeet, hnot⟩

end StepsMeet

end LabelledRun
end Foundation
end CppCommons
