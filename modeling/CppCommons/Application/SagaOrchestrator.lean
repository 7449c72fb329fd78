import Mathlib

/-!
# Saga orchestrator

`SagaOrchestrator::run` executes the actions of its steps in order; when one
throws an object derived from `std::exception` it runs the compensations of the
completed steps backwards and throws a `SagaError`.  Actions and compensations
are arbitrary code: each takes the state of the world to a new one and returns
or throws.  Invoking an empty `std::function` as an action is one of the ways
to throw a standard exception.
-/

namespace CppCommons
namespace Application

/-- A thrown object: derived from `std::exception`, with its `what()`, or not. -/
inductive Thrown (exn : Type) where
  | standard (what : String)
  | other (object : exn)
deriving DecidableEq

/-- A callable of a step: the world it leaves, and how it ends. -/
abbrev Effect (world exn : Type) := world -> world × Except (Thrown exn) Unit

structure SagaStep (world exn : Type) where
  name : String
  action : Effect world exn
  compensation : Option (Effect world exn) := none

inductive Callable where
  | action (index : Nat)
  | compensation (index : Nat)
deriving DecidableEq

inductive SagaExit (exn : Type) where
  | returned
  | sagaError (what : String)
  | escaped (thrown : Thrown exn)
deriving DecidableEq

structure SagaExecution (world exn : Type) where
  world : world
  trace : List Callable
  exit : SagaExit exn

namespace SagaOrchestrator

variable {world exn : Type}

/-- The compensation of the step at `index`, if the step has one. -/
def compensationAt (steps : List (SagaStep world exn)) (index : Nat) :
    Option (Effect world exn) :=
  steps[index]?.bind SagaStep.compensation

/-- `compensate(up_to)`: whatever a compensation throws is swallowed. -/
def compensate (steps : List (SagaStep world exn)) : Nat -> world -> world × List Callable
  | 0, w => (w, [])
  | i + 1, w =>
      match compensationAt steps i with
      | none => compensate steps i w
      | some compensation =>
          let rest := compensate steps i (compensation w).fst
          (rest.fst, .compensation i :: rest.snd)

def failureMessage (name what : String) : String :=
  "Saga failed at step '" ++ name ++ "': " ++ what

def runLoop (steps : List (SagaStep world exn)) (index completed : Nat) :
    List (SagaStep world exn) -> world -> SagaExecution world exn
  | [], w => { world := w, trace := [], exit := .returned }
  | s :: remaining, w =>
      match s.action w with
      | (w', .ok ()) =>
          let rest := runLoop steps (index + 1) (completed + 1) remaining w'
          { rest with trace := .action index :: rest.trace }
      | (w', .error (.standard what)) =>
          let undone := compensate steps completed w'
          { world := undone.fst
            trace := .action index :: undone.snd
            exit := .sagaError (failureMessage s.name what) }
      | (w', .error (.other object)) =>
          -- No handler catches it: the loop is left as it stands.
          { world := w', trace := [.action index], exit := .escaped (.other object) }

def run (steps : List (SagaStep world exn)) (w : world) : SagaExecution world exn :=
  runLoop steps 0 0 steps w

theorem runLoop_of_return {s : SagaStep world exn} {w w' : world}
    (h : s.action w = (w', .ok ())) (steps remaining : List (SagaStep world exn)) (i : Nat) :
    (runLoop steps i i (s :: remaining) w).trace =
        .action i :: (runLoop steps (i + 1) (i + 1) remaining w').trace ∧
      (runLoop steps i i (s :: remaining) w).exit =
        (runLoop steps (i + 1) (i + 1) remaining w').exit := by
  simp [runLoop, h]

/-!
## Outcomes of the actions alone

Which action is the first to throw is decided by the actions alone, each started in
the world that the ones before it left.
-/

def worldBefore (steps : List (SagaStep world exn)) (w : world) (index : Nat) : world :=
  (steps.take index).foldl (fun w s => (s.action w).fst) w

def outcomeAt (steps : List (SagaStep world exn)) (w : world) (index : Nat) :
    Option (Except (Thrown exn) Unit) :=
  steps[index]?.map (fun s => (s.action (worldBefore steps w index)).snd)

/-- The action at `index` is the first to fail, and throws `thrown`. -/
structure FirstThrow (steps : List (SagaStep world exn)) (w : world) (index : Nat)
    (thrown : Thrown exn) : Prop where
  before : forall j, j < index -> outcomeAt steps w j = some (.ok ())
  throws : outcomeAt steps w index = some (.error thrown)

def NoneThrows (steps : List (SagaStep world exn)) (w : world) : Prop :=
  forall j, j < steps.length -> outcomeAt steps w j = some (.ok ())

theorem outcomeAt_zero (s : SagaStep world exn) (rest : List (SagaStep world exn)) (w : world) :
    outcomeAt (s :: rest) w 0 = some (s.action w).snd := rfl

theorem outcomeAt_succ (s : SagaStep world exn) (rest : List (SagaStep world exn)) (w : world)
    (j : Nat) : outcomeAt (s :: rest) w (j + 1) = outcomeAt rest (s.action w).fst j := rfl

theorem noneThrows_cons_iff (s : SagaStep world exn) (rest : List (SagaStep world exn))
    (w : world) :
    NoneThrows (s :: rest) w <-> (s.action w).snd = .ok () ∧ NoneThrows rest (s.action w).fst := by
  constructor
  · intro h
    constructor
    · exact Option.some.inj (h 0 (Nat.zero_lt_succ rest.length))
    · intro j hj
      exact h (j + 1) (Nat.succ_lt_succ hj)
  · intro h j hj
    cases j with
    | zero => rw [outcomeAt_zero, h.left]
    | succ j =>
        rw [outcomeAt_succ]
        exact h.right j (Nat.lt_of_succ_lt_succ hj)

theorem firstThrow_zero_iff (s : SagaStep world exn) (rest : List (SagaStep world exn))
    (w : world) (thrown : Thrown exn) :
    FirstThrow (s :: rest) w 0 thrown <-> (s.action w).snd = .error thrown := by
  constructor
  · intro h
    exact Option.some.inj h.throws
  · intro h
    refine ⟨fun j hj => absurd hj (Nat.not_lt_zero j), ?_⟩
    rw [outcomeAt_zero, h]

theorem firstThrow_succ_iff (s : SagaStep world exn) (rest : List (SagaStep world exn))
    (w : world) (k : Nat) (thrown : Thrown exn) :
    FirstThrow (s :: rest) w (k + 1) thrown <->
      (s.action w).snd = .ok () ∧ FirstThrow rest (s.action w).fst k thrown := by
  constructor
  · intro h
    refine ⟨Option.some.inj (h.before 0 (Nat.zero_lt_succ k)), ?_, h.throws⟩
    intro j hj
    exact h.before (j + 1) (Nat.succ_lt_succ hj)
  · intro h
    refine ⟨?_, h.right.throws⟩
    intro j hj
    cases j with
    | zero => rw [outcomeAt_zero, h.left]
    | succ j =>
        rw [outcomeAt_succ]
        exact h.right.before j (Nat.lt_of_succ_lt_succ hj)

theorem noneThrows_or_firstThrow (steps : List (SagaStep world exn)) (w : world) :
    NoneThrows steps w ∨ exists k thrown, FirstThrow steps w k thrown := by
  induction steps generalizing w with
  | nil =>
      apply Or.inl
      intro j hj
      cases hj
  | cons s rest ih =>
      cases houtcome : (s.action w).snd with
      | error thrown =>
          exact Or.inr ⟨0, thrown, (firstThrow_zero_iff s rest w thrown).mpr houtcome⟩
      | ok _ =>
          rcases ih (s.action w).fst with hnone | ⟨k, thrown, hfirst⟩
          · exact Or.inl ((noneThrows_cons_iff s rest w).mpr ⟨houtcome, hnone⟩)
          · exact Or.inr ⟨k + 1, thrown,
              (firstThrow_succ_iff s rest w k thrown).mpr ⟨houtcome, hfirst⟩⟩

/-!
## Traces

The trace of a run: the actions up to the first one that throws, and behind it the
compensations of the completed steps, last one first.
-/

def compensatedBelow (steps : List (SagaStep world exn)) (index : Nat) : List Callable :=
  ((List.range index).reverse.filter (fun j => (compensationAt steps j).isSome)).map
    .compensation

theorem compensate_trace (steps : List (SagaStep world exn)) (n : Nat) (w : world) :
    (compensate steps n w).snd = compensatedBelow steps n := by
  induction n generalizing w with
  | zero => rfl
  | succ n ih =>
      unfold compensatedBelow
      rw [List.range_succ, List.reverse_append, List.reverse_singleton, List.singleton_append]
      cases hcomp : compensationAt steps n with
      | none =>
          rw [List.filter_cons_of_neg (by simp [hcomp])]
          simp only [compensate, hcomp]
          exact ih w
      | some compensation =>
          rw [List.filter_cons_of_pos (by simp [hcomp]), List.map_cons]
          simp only [compensate, hcomp]
          rw [ih]
          rfl

def actionsFrom (i count : Nat) : List Callable :=
  (List.range' i count).map .action

theorem actionsFrom_succ (i count : Nat) :
    actionsFrom i (count + 1) = .action i :: actionsFrom (i + 1) count := rfl

theorem runLoop_of_noneThrows (steps remaining : List (SagaStep world exn)) (i : Nat) (w : world)
    (h : NoneThrows remaining w) :
    (runLoop steps i i remaining w).trace = actionsFrom i remaining.length ∧
      (runLoop steps i i remaining w).exit = .returned := by
  induction remaining generalizing i w with
  | nil => exact ⟨rfl, rfl⟩
  | cons s remaining ih =>
      rcases (noneThrows_cons_iff s remaining w).mp h with ⟨hfirst, hrest⟩
      rcases runLoop_of_return (Prod.ext rfl hfirst) steps remaining i with ⟨htrace, hexit⟩
      rcases ih (i + 1) _ hrest with ⟨ihtrace, ihexit⟩
      rw [htrace, hexit, ihtrace, ihexit, List.length_cons, actionsFrom_succ]
      exact ⟨rfl, rfl⟩

def aftermath (steps : List (SagaStep world exn)) (completed : Nat) (name : String) :
    Thrown exn -> List Callable × SagaExit exn
  | .standard what => (compensatedBelow steps completed, .sagaError (failureMessage name what))
  | .other object => ([], .escaped (.other object))

theorem runLoop_of_throw {s : SagaStep world exn} {w : world} {thrown : Thrown exn}
    (h : (s.action w).snd = .error thrown) (steps remaining : List (SagaStep world exn))
    (i : Nat) :
    (runLoop steps i i (s :: remaining) w).trace =
        .action i :: (aftermath steps i s.name thrown).fst ∧
      (runLoop steps i i (s :: remaining) w).exit = (aftermath steps i s.name thrown).snd := by
  have haction : s.action w = ((s.action w).fst, .error thrown) := Prod.ext rfl h
  cases thrown with
  | standard what =>
      rw [runLoop, haction]
      simp only [compensate_trace]
      exact ⟨rfl, rfl⟩
  | other object =>
      rw [runLoop, haction]
      exact ⟨rfl, rfl⟩

theorem runLoop_of_firstThrow (steps remaining : List (SagaStep world exn)) (i : Nat) (w : world)
    {k : Nat} {thrown : Thrown exn} (h : FirstThrow remaining w k thrown) :
    exists s, remaining[k]? = some s ∧
      (runLoop steps i i remaining w).trace =
        actionsFrom i (k + 1) ++ (aftermath steps (i + k) s.name thrown).fst ∧
      (runLoop steps i i remaining w).exit = (aftermath steps (i + k) s.name thrown).snd := by
  induction remaining generalizing i w k with
  | nil => cases h.throws
  | cons s remaining ih =>
      cases k with
      | zero =>
          have hthrows := (firstThrow_zero_iff s remaining w thrown).mp h
          rcases runLoop_of_throw hthrows steps remaining i with ⟨htrace, hexit⟩
          exact ⟨s, rfl, htrace, hexit⟩
      | succ k =>
          rcases (firstThrow_succ_iff s remaining w k thrown).mp h with ⟨hfirst, hrest⟩
          rcases runLoop_of_return (Prod.ext rfl hfirst) steps remaining i with ⟨htrace, hexit⟩
          rcases ih (i + 1) _ hrest with ⟨t, ht, ihtrace, ihexit⟩
          have hshift : i + 1 + k = i + (k + 1) := by lia
          rw [hshift] at ihtrace ihexit
          refine ⟨t, ht, ?_, ?_⟩
          · rw [htrace, ihtrace, actionsFrom_succ i (k + 1), List.cons_append]
          · rw [hexit, ihexit]

/-- No action of the saga ever throws an object that is not derived from `std::exception`. -/
def ThrowsStandard (steps : List (SagaStep world exn)) : Prop :=
  forall s, s ∈ steps -> forall w object, (s.action w).snd ≠ .error (.other object)

/--
With actions that throw only standard exceptions: if none fails, all of them
run, no compensation does, and `run` returns.  Otherwise the trace is the
actions up to the first failing one, at index `k`, then the compensations of the
steps before it in reverse, and `run` throws a `SagaError` that names step `k`.
-/
theorem run_trace (steps : List (SagaStep world exn)) (hstandard : ThrowsStandard steps)
    (w : world) :
    (NoneThrows steps w ∧
      (run steps w).trace = (List.range steps.length).map .action ∧
      (run steps w).exit = .returned) ∨
    exists k s what, steps[k]? = some s ∧ FirstThrow steps w k (.standard what) ∧
      (run steps w).trace =
        (List.range (k + 1)).map .action ++
          ((List.range k).reverse.filter (fun j => (compensationAt steps j).isSome)).map
            .compensation ∧
      (run steps w).exit =
        .sagaError ("Saga failed at step '" ++ s.name ++ "': " ++ what) := by
  rcases noneThrows_or_firstThrow steps w with hnone | ⟨k, thrown, hfirst⟩
  · apply Or.inl
    rcases runLoop_of_noneThrows steps steps 0 w hnone with ⟨htrace, hexit⟩
    refine ⟨hnone, ?_, hexit⟩
    rw [List.range_eq_range']
    exact htrace
  · apply Or.inr
    rcases runLoop_of_firstThrow steps steps 0 w hfirst with ⟨s, hs, htrace, hexit⟩
    cases thrown with
    | standard what =>
        refine ⟨k, s, what, hs, hfirst, ?_, hexit⟩
        rw [List.range_eq_range']
        rw [Nat.zero_add] at htrace
        exact htrace
    | other object =>
        have houtcome := hfirst.throws
        rw [outcomeAt, hs] at houtcome
        exact absurd (Option.some.inj houtcome)
          (hstandard s (List.mem_of_getElem? hs) (worldBefore steps w k) object)

/-- Three steps: the compensation of the first throws, the second has none, and
the action of the third fails. -/
def shipment : List (SagaStep Unit Int) :=
  [{ name := "reserve", action := fun w => (w, .ok ())
     compensation := some (fun w => (w, .error (.other 7))) },
   { name := "log", action := fun w => (w, .ok ()) },
   { name := "charge", action := fun w => (w, .error (.standard "declined"))
     compensation := some (fun w => (w, .ok ())) }]

theorem shipment_compensates :
    ThrowsStandard shipment ∧
      exists k s what, shipment[k]? = some s ∧ FirstThrow shipment () k (.standard what) ∧
        (run shipment ()).exit =
          .sagaError ("Saga failed at step '" ++ s.name ++ "': " ++ what) := by
  have hstandard : ThrowsStandard shipment := by
    intro s hs w object h
    simp only [shipment, List.mem_cons, List.not_mem_nil, or_false] at hs
    rcases hs with rfl | rfl | rfl <;> cases h
  refine ⟨hstandard, ?_⟩
  rcases run_trace shipment hstandard () with ⟨_, _, hreturned⟩ | ⟨k, s, what, hs, hfirst, _, hexit⟩
  · cases hreturned
  · exact ⟨k, s, what, hs, hfirst, hexit⟩

example : (run shipment ()).trace = [.action 0, .action 1, .action 2, .compensation 0] := rfl

/-!
## Rollback

A run is rolled back if every completed step with a compensation was compensated and
a `SagaError` leaves it.
-/

/-- Every step before the failing one has been compensated, if it can be, and a
`SagaError` leaves `run`. -/
def RolledBack (steps : List (SagaStep world exn)) (index : Nat)
    (execution : SagaExecution world exn) : Prop :=
  (forall j, j < index -> (compensationAt steps j).isSome = true ->
    .compensation j ∈ execution.trace) ∧
  exists what, execution.exit = .sagaError what

theorem mem_compensatedBelow {steps : List (SagaStep world exn)} {j index : Nat}
    (hj : j < index) (hcomp : (compensationAt steps j).isSome = true) :
    .compensation j ∈ compensatedBelow steps index := by
  unfold compensatedBelow
  apply List.mem_map_of_mem
  apply List.mem_filter.mpr
  exact ⟨by simpa using hj, hcomp⟩

/--
In a run in which some action throws, the completed steps are rolled back and a
`SagaError` is thrown exactly when the object thrown first is derived from
`std::exception`.
-/
theorem rolledBack_iff_standard (steps : List (SagaStep world exn)) (w : world) (k : Nat)
    (thrown : Thrown exn) (hfirst : FirstThrow steps w k thrown) :
    RolledBack steps k (run steps w) <-> exists what, thrown = .standard what := by
  rcases runLoop_of_firstThrow steps steps 0 w hfirst with ⟨s, _, htrace, hexit⟩
  rw [Nat.zero_add] at htrace hexit
  constructor
  · rintro ⟨_, what, herror⟩
    cases thrown with
    | standard what => exact ⟨what, rfl⟩
    | other object =>
        rw [run, hexit] at herror
        cases herror
  · rintro ⟨what, rfl⟩
    refine ⟨?_, failureMessage s.name what, hexit⟩
    intro j hj hcomp
    rw [run, htrace]
    exact List.mem_append_right _ (mem_compensatedBelow hj hcomp)

/-- The second action throws an `int`. -/
def thrownInt : List (SagaStep Unit Int) :=
  [{ name := "reserve", action := fun w => (w, .ok ())
     compensation := some (fun w => (w, .ok ())) },
   { name := "charge", action := fun w => (w, .error (.other 42)) }]

theorem thrownInt_not_rolledBack :
    FirstThrow thrownInt () 1 (.other 42) ∧
      (run thrownInt ()).trace = [.action 0, .action 1] ∧
      (run thrownInt ()).exit = .escaped (.other 42) ∧
      ¬ RolledBack thrownInt 1 (run thrownInt ()) := by
  refine ⟨⟨?_, rfl⟩, rfl, rfl, ?_⟩
  · intro j hj
    rw [Nat.lt_one_iff] at hj
    rw [hj]
    rfl
  · rintro ⟨_, what, herror⟩
    cases herror

theorem shipment_rolledBack : RolledBack shipment 2 (run shipment ()) := by
  have hfirst : FirstThrow shipment () 2 (.standard "declined") := by
    refine ⟨?_, rfl⟩
    intro j hj
    have hcases : j = 0 ∨ j = 1 := by lia
    rcases hcases with rfl | rfl
    · rfl
    · rfl
  exact (rolledBack_iff_standard shipment () 2 (.standard "declined") hfirst).mpr
    ⟨"declined", rfl⟩

end SagaOrchestrator
end Application
end CppCommons
