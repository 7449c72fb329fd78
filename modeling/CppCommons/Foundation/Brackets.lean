import Mathlib

/-!
# Bracket matching

Words of opening brackets `U` and closing brackets `D`, in which brackets of both
kinds may lack a partner.  The innermost open bracket is one with nothing but a
balanced word behind it; a closing bracket closes the one that is innermost
before it.  A scanner that keeps the positions of open brackets on a stack finds
exactly these.
-/

namespace CppCommons
namespace Foundation
namespace Brackets

open DyckStep

/-- After `u`, the innermost open bracket is the one at position `k`. -/
def Innermost (u : List DyckStep) (k : Nat) : Prop :=
  exists front, exists p : DyckWord, u = front ++ U :: p.toList ∧ front.length = k

/-- The bracket at `i` is closed by the one at `j`. -/
def Partner (w : List DyckStep) (i j : Nat) : Prop :=
  w[j]? = some D ∧ Innermost (w.take j) i

def scan : List Nat -> Nat -> List DyckStep -> List Nat
  | stack, _, [] => stack
  | stack, pos, U :: rest => scan (pos :: stack) (pos + 1) rest
  | stack, pos, D :: rest => scan stack.tail (pos + 1) rest

def openPositions (u : List DyckStep) : List Nat :=
  scan [] 0 u

theorem scan_append (stack : List Nat) (pos : Nat) (u v : List DyckStep) :
    scan stack pos (u ++ v) = scan (scan stack pos u) (pos + u.length) v := by
  induction u generalizing stack pos with
  | nil => rfl
  | cons bracket u ih =>
      cases bracket with
      | U =>
          rw [List.cons_append, scan, scan, ih, List.length_cons, Nat.add_right_comm, Nat.add_assoc]
      | D =>
          rw [List.cons_append, scan, scan, ih, List.length_cons, Nat.add_right_comm, Nat.add_assoc]

theorem openPositions_concat_U (u : List DyckStep) :
    openPositions (u ++ [U]) = u.length :: openPositions u := by
  rw [openPositions, scan_append, scan, scan, Nat.zero_add]
  rfl

theorem openPositions_concat_D (u : List DyckStep) :
    openPositions (u ++ [D]) = (openPositions u).tail := by
  rw [openPositions, scan_append, scan, scan]
  rfl

theorem scan_dyckWord (p : DyckWord) (stack : List Nat) (pos : Nat) :
    scan stack pos p.toList = stack := by
  induction hsize : p.semilength using Nat.strongRecOn generalizing p stack pos with
  | ind size ih =>
      by_cases hp : p = 0
      · rw [hp]
        rfl
      · -- a bracket, what it encloses, and what follows it
        have hinside := DyckWord.semilength_insidePart_lt hp
        have houtside := DyckWord.semilength_outsidePart_lt hp
        rw [hsize] at hinside houtside
        have hsplit : p.toList = (U :: p.insidePart.toList ++ [D]) ++ p.outsidePart.toList :=
          congrArg DyckWord.toList (DyckWord.nest_insidePart_add_outsidePart hp).symm
        rw [hsplit, scan_append, List.cons_append, scan, scan_append, ih _ hinside _ _ _ rfl, scan,
          scan, List.tail_cons, ih _ houtside _ _ _ rfl]

theorem openPositions_append_cons (front : List DyckStep) (p : DyckWord) :
    openPositions (front ++ U :: p.toList) = front.length :: openPositions front := by
  rw [openPositions, scan_append, scan, scan_dyckWord, Nat.zero_add]
  rfl

/-!
## The scanner finds the innermost bracket

The stack of the scanner is a spine: between an open bracket and the next there is a
balanced word.
-/

inductive Spine : List DyckStep -> List Nat -> Prop where
  | idle (u : List DyckStep) : Spine u []
  | opened {front : List DyckStep} {stack : List Nat} (p : DyckWord) :
      Spine front stack -> Spine (front ++ U :: p.toList) (front.length :: stack)

theorem spine_concat_D {u : List DyckStep} {stack : List Nat} (h : Spine u stack) :
    Spine (u ++ [D]) stack.tail := by
  cases h with
  | idle u => exact .idle _
  | @opened front stack p hfront =>
      cases hfront with
      | idle u => exact .idle _
      | @opened front stack q hfront =>
          have hclosed : front ++ U :: q.toList ++ U :: p.toList ++ [D] =
              front ++ U :: (q + p.nest).toList := by
            have hsum : (q + p.nest).toList = q.toList ++ (U :: p.toList ++ [D]) := rfl
            rw [hsum]
            simp
          rw [hclosed, List.tail_cons]
          exact .opened (q + p.nest) hfront

theorem spine_openPositions (u : List DyckStep) : Spine u (openPositions u) := by
  induction u using List.reverseRecOn with
  | nil => exact .idle []
  | append_singleton u bracket ih =>
      cases bracket with
      | U =>
          rw [openPositions_concat_U]
          exact .opened 0 ih
      | D =>
          rw [openPositions_concat_D]
          exact spine_concat_D ih

theorem innermost_iff (u : List DyckStep) (k : Nat) :
    Innermost u k <-> (openPositions u).head? = some k := by
  constructor
  · intro h
    rcases h with ⟨front, p, rfl, hk⟩
    rw [openPositions_append_cons, List.head?_cons, hk]
  · intro h
    have hspine := spine_openPositions u
    generalize openPositions u = stack at h hspine
    cases hspine with
    | idle u => cases h
    | @opened front stack p hfront =>
        cases h
        exact ⟨front, p, rfl, rfl⟩

theorem innermost_unique {u : List DyckStep} {k k' : Nat} (h : Innermost u k)
    (h' : Innermost u k') : k = k' := by
  rw [innermost_iff] at h h'
  rw [h] at h'
  exact Option.some.inj h'

/-!
## Partners

A pair of partners is kept by whatever follows, and the last bracket of a word
closes at most one more pair.
-/

theorem lt_length_of_partner {w : List DyckStep} {i j : Nat} (h : Partner w i j) :
    j < w.length :=
  (List.getElem?_eq_some_iff.mp h.left).choose

theorem partner_append_iff {w v : List DyckStep} {i j : Nat} (hj : j < w.length) :
    Partner (w ++ v) i j <-> Partner w i j := by
  rw [Partner, Partner, List.getElem?_append_left hj,
    List.take_append_of_le_length (Nat.le_of_lt hj)]

theorem partner_concat_iff (w : List DyckStep) (bracket : DyckStep) (i j : Nat) :
    Partner (w ++ [bracket]) i j <->
      Partner w i j ∨ j = w.length ∧ bracket = D ∧ Innermost w i := by
  constructor
  · intro h
    have hj := lt_length_of_partner h
    rw [List.length_append, List.length_singleton] at hj
    rcases Nat.lt_or_eq_of_le (Nat.le_of_lt_succ hj) with hbefore | hlast
    · exact Or.inl ((partner_append_iff hbefore).mp h)
    · rw [Partner, hlast, List.getElem?_concat_length, List.take_left] at h
      exact Or.inr ⟨hlast, Option.some.inj h.left, h.right⟩
  · intro h
    rcases h with hpartner | ⟨hlast, hclosing, hinnermost⟩
    · exact (partner_append_iff (lt_length_of_partner hpartner)).mpr hpartner
    · rw [Partner, hlast, List.getElem?_concat_length, List.take_left]
      exact ⟨congrArg some hclosing, hinnermost⟩

theorem partner_unique {w : List DyckStep} {i j j' : Nat} (h : Partner w i j)
    (h' : Partner w i j') : j = j' := by
  have hle : forall {a b}, Partner w i a -> Partner w i b -> b <= a := by
    intro a b ha hb
    by_contra hlt
    rcases ha with ⟨hclosing, front, p, htake, hfront⟩
    rcases hb with ⟨_, front', p', htake', hfront'⟩
    have hprefix : w.take (a + 1) <+: w.take b := List.take_prefix_take_left (by lia)
    rw [List.take_add_one, hclosing, htake, htake', List.append_assoc] at hprefix
    rcases hprefix with ⟨more, hmore⟩
    rw [List.append_assoc] at hmore
    rcases List.append_inj hmore (hfront.trans hfront'.symm) with ⟨_, hbehind⟩
    have hrest : p.toList ++ D :: more = p'.toList := by
      simpa using hbehind
    -- the balanced word behind `i` would begin with `p` and a closing bracket
    have hbound := p'.count_D_le_count_U (p.toList.length + 1)
    have hstart : (p.toList ++ D :: more).take (p.toList.length + 1) = p.toList ++ [D] := by
      rw [List.take_length_add_append]
      rfl
    rw [← hrest, hstart, List.count_append, List.count_append, p.count_U_eq_count_D] at hbound
    simp at hbound
  exact Nat.le_antisymm (hle h' h) (hle h h')

end Brackets
end Foundation
end CppCommons
