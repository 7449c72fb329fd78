import Mathlib

/-!
# Loops that visit before they test

A loop that visits a state, stops unless a test holds and else goes on with the
next state.  Its trace is the list of visited states; a bound on the number of
visits keeps it total, and the loop terminates when some bound is enough.
-/

namespace CppCommons
namespace Foundation
namespace Iteration

variable {state : Type} {more more' : state -> Bool} {next : state -> state}

/-- The states visited from `s`; `none` when the bound is reached before the end. -/
def visited (more : state -> Bool) (next : state -> state) : Nat -> state -> Option (List state)
  | 0, _ => none
  | bound + 1, s =>
      if more s then (visited more next bound (next s)).map (fun rest => s :: rest)
      else some [s]

theorem visited_succ_of_more {s : state} (h : more s = true) (bound : Nat) :
    visited more next (bound + 1) s =
      (visited more next bound (next s)).map (fun rest => s :: rest) := by
  rw [visited, if_pos h]

theorem visited_succ_of_not_more {s : state} (h : more s = false) (bound : Nat) :
    visited more next (bound + 1) s = some [s] := by
  rw [visited, if_neg (by simp [h])]

theorem visited_unique {s : state} {bound bound' : Nat} {trace trace' : List state}
    (h : visited more next bound s = some trace)
    (h' : visited more next bound' s = some trace') : trace = trace' := by
  induction bound generalizing s bound' trace trace' with
  | zero => cases h
  | succ bound ih =>
      cases bound' with
      | zero => cases h'
      | succ bound' =>
          cases hmore : more s with
          | false =>
              rw [visited_succ_of_not_more hmore] at h h'
              cases h
              cases h'
              rfl
          | true =>
              rw [visited_succ_of_more hmore, Option.map_eq_some_iff] at h h'
              rcases h with ⟨rest, hrest, rfl⟩
              rcases h' with ⟨rest', hrest', rfl⟩
              rw [ih hrest hrest']

theorem visited_eq_none (h : forall s, more s = true) (bound : Nat) (s : state) :
    visited more next bound s = none := by
  induction bound generalizing s with
  | zero => rfl
  | succ bound ih => rw [visited_succ_of_more (h s), ih, Option.map_none]

theorem visited_of_orbit {orbit : Nat -> state} {n : Nat}
    (hnext : forall k, next (orbit k) = orbit (k + 1))
    (hmore : forall k, k < n -> more (orbit k) = true) (hlast : more (orbit n) = false) :
    visited more next (n + 1) (orbit 0) = some ((List.range (n + 1)).map orbit) := by
  induction n generalizing orbit with
  | zero => exact visited_succ_of_not_more hlast 0
  | succ n ih =>
      have hshift := @ih (fun k => orbit (k + 1)) (fun k => hnext (k + 1))
        (fun k hk => hmore (k + 1) (Nat.succ_lt_succ hk)) hlast
      rw [visited_succ_of_more (hmore 0 (Nat.succ_pos n)), hnext 0, hshift, Option.map_some,
        List.range_succ_eq_map (n := n + 1), List.map_cons, List.map_map]
      rfl

theorem visited_congr {P : state -> Prop} (hagree : forall s, P s -> more s = more' s)
    (hstep : forall s, P s -> more s = true -> P (next s)) (bound : Nat) {s : state} (hs : P s) :
    visited more next bound s = visited more' next bound s := by
  induction bound generalizing s with
  | zero => rfl
  | succ bound ih =>
      cases hmore : more s with
      | false =>
          have hmore' : more' s = false := by
            rw [← hagree s hs, hmore]
          rw [visited_succ_of_not_more hmore, visited_succ_of_not_more hmore']
      | true =>
          have hmore' : more' s = true := by
            rw [← hagree s hs, hmore]
          rw [visited_succ_of_more hmore, visited_succ_of_more hmore', ih (hstep s hs hmore)]

end Iteration
end Foundation
end CppCommons
