import Mathlib

/-!
# Machines with outputs

A component that is called again and again, and answers each call, is a machine
that maps a state and an input to the next state and an output.  Two machines
are observationally equal when they answer every sequence of inputs alike.  The
proof rule is a relation between their states that one input preserves.
-/

namespace CppCommons
namespace Foundation

structure Machine (state input output : Type) where
  start : state
  step : state -> input -> state × output

namespace Machine

variable {state state' input output : Type}

def outputsFrom (M : Machine state input output) : state -> List input -> List output
  | _, [] => []
  | s, i :: rest => (M.step s i).snd :: outputsFrom M (M.step s i).fst rest

def outputs (M : Machine state input output) (inputs : List input) : List output :=
  M.outputsFrom M.start inputs

structure Simulation (M : Machine state input output) (N : Machine state' input output)
    (R : state -> state' -> Prop) : Prop where
  start : R M.start N.start
  step : forall {s t} (i : input), R s t -> R (M.step s i).fst (N.step t i).fst
  output : forall {s t} (i : input), R s t -> (M.step s i).snd = (N.step t i).snd

theorem outputsFrom_eq_of_simulation {M : Machine state input output}
    {N : Machine state' input output} {R : state -> state' -> Prop} (h : Simulation M N R)
    {s : state} {t : state'} (hst : R s t) (inputs : List input) :
    M.outputsFrom s inputs = N.outputsFrom t inputs := by
  induction inputs generalizing s t with
  | nil => rfl
  | cons i rest ih =>
      rw [outputsFrom, outputsFrom, h.output i hst, ih (h.step i hst)]

theorem outputs_eq_of_simulation {M : Machine state input output}
    {N : Machine state' input output} {R : state -> state' -> Prop} (h : Simulation M N R)
    (inputs : List input) : M.outputs inputs = N.outputs inputs :=
  outputsFrom_eq_of_simulation h h.start inputs

end Machine
end Foundation
end CppCommons
