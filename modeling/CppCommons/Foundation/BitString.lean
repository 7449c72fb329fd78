import Mathlib

/-!
# Bit strings of fixed-width digits

Accumulator loops that regroup `v`-bit digits into `w`-bit digits never look at
more than the bits they have not emitted yet.  This module supplies the two
notions their invariants are written in: the low bits of a number, most
significant first, and the bit string spelled by a list of digits.  Nothing
here depends on a particular alphabet, digit width or accumulator type.
-/

namespace CppCommons
namespace Foundation
namespace BitString

/-!
## Low bits of a number

`lowBits w n` lists the `w` low bits of `n`.  They split where a number is shifted,
and they determine it modulo `2 ^ w`.
-/

def lowBits : Nat -> Nat -> List Bool
  | 0, _ => []
  | w + 1, n => n.testBit w :: lowBits w n

@[simp] theorem lowBits_zero (n : Nat) : lowBits 0 n = [] := rfl

theorem lowBits_succ (w n : Nat) :
    lowBits (w + 1) n = n.testBit w :: lowBits w n := rfl

@[simp] theorem length_lowBits (w n : Nat) : (lowBits w n).length = w := by
  induction w with
  | zero => rfl
  | succ w ih => rw [lowBits_succ, List.length_cons, ih]

theorem lowBits_add (a b n : Nat) :
    lowBits (a + b) n = lowBits a (n / 2 ^ b) ++ lowBits b n := by
  induction a with
  | zero => simp
  | succ a ih =>
      rw [show a + 1 + b = (a + b) + 1 by lia, lowBits_succ, lowBits_succ, ih,
        Nat.testBit_div_two_pow]
      simp [Nat.add_comm]

theorem lowBits_mod {w k : Nat} (h : w <= k) (n : Nat) :
    lowBits w (n % 2 ^ k) = lowBits w n := by
  induction w with
  | zero => rfl
  | succ w ih =>
      have hw : w < k := h
      rw [lowBits_succ, lowBits_succ, ih (Nat.le_of_lt hw), Nat.testBit_mod_two_pow]
      simp [hw]

theorem lowBits_split (w v n : Nat) :
    lowBits (w + v) n = lowBits w (n / 2 ^ v) ++ lowBits v (n % 2 ^ v) := by
  rw [lowBits_add, lowBits_mod (Nat.le_refl v)]

theorem lowBits_joined {v y : Nat} (w x : Nat) (hy : y < 2 ^ v) :
    lowBits (w + v) (x * 2 ^ v + y) = lowBits w x ++ lowBits v y := by
  have hdiv : (x * 2 ^ v + y) / 2 ^ v = x := by
    rw [Nat.mul_comm, Nat.mul_add_div (Nat.two_pow_pos v), Nat.div_eq_of_lt hy, Nat.add_zero]
  have hmod : (x * 2 ^ v + y) % 2 ^ v = y := by
    rw [Nat.mul_comm, Nat.mul_add_mod, Nat.mod_eq_of_lt hy]
  rw [lowBits_split, hdiv, hmod]

theorem testBit_eq_of_lowBits_eq {w m n : Nat} (h : lowBits w m = lowBits w n) :
    forall i, i < w -> m.testBit i = n.testBit i := by
  induction w with
  | zero =>
      intro i hi
      lia
  | succ w ih =>
      intro i hi
      rw [lowBits_succ, lowBits_succ] at h
      injection h with hhead htail
      rcases Nat.lt_succ_iff_lt_or_eq.mp hi with hlt | heq
      · exact ih htail i hlt
      · rw [heq]
        exact hhead

theorem mod_eq_of_lowBits_eq {w m n : Nat} (h : lowBits w m = lowBits w n) :
    m % 2 ^ w = n % 2 ^ w := by
  apply Nat.eq_of_testBit_eq
  intro i
  rw [Nat.testBit_mod_two_pow, Nat.testBit_mod_two_pow]
  by_cases hi : i < w
  · rw [testBit_eq_of_lowBits_eq h i hi]
  · simp [hi]

theorem lowBits_inj {w m n : Nat} (hm : m < 2 ^ w) (hn : n < 2 ^ w)
    (h : lowBits w m = lowBits w n) : m = n := by
  have hmod := mod_eq_of_lowBits_eq h
  rwa [Nat.mod_eq_of_lt hm, Nat.mod_eq_of_lt hn] at hmod

theorem lowBits_of_zero (w : Nat) : lowBits w 0 = List.replicate w false := by
  induction w with
  | zero => rfl
  | succ w ih => rw [lowBits_succ, ih, Nat.zero_testBit, List.replicate_succ]

theorem lowBits_eq_replicate_false_iff (w n : Nat) :
    lowBits w n = List.replicate w false <-> n % 2 ^ w = 0 := by
  rw [← lowBits_of_zero]
  constructor
  · intro h
    simpa using mod_eq_of_lowBits_eq h
  · intro h
    rw [← lowBits_mod (Nat.le_refl w) n, h]

/-!
## Words used as bit queues

A machine word whose `p` low bits are still to be emitted is a queue of `p`
bits.  Shifting in a digit appends to the queue, and a masked arithmetic shift
reads from its front, whatever the higher bits of the word have become.
-/

section Word

variable {v : Nat}

theorem toNat_sshiftRight_and_mask (x : BitVec v) {n w : Nat} (h : n + w <= v) :
    (x.sshiftRight n &&& BitVec.ofNat v (2 ^ w - 1)).toNat =
      x.toNat / 2 ^ n % 2 ^ w := by
  apply Nat.eq_of_testBit_eq
  intro i
  rw [Nat.testBit_mod_two_pow, Nat.testBit_div_two_pow, BitVec.testBit_toNat,
    BitVec.getLsbD_and, BitVec.getLsbD_sshiftRight, BitVec.getLsbD_ofNat,
    Nat.testBit_two_pow_sub_one, BitVec.testBit_toNat]
  by_cases hi : i < w
  · have hv : i < v := by lia
    have hn : n + i < v := by lia
    simp [hi, hv, hn, Nat.add_comm]
  · simp [hi]

theorem toNat_shiftLeft_add (x y : BitVec v) (k : Nat) :
    ((x <<< k) + y).toNat = (x.toNat * 2 ^ k + y.toNat) % 2 ^ v := by
  rw [BitVec.toNat_add, BitVec.toNat_shiftLeft, Nat.shiftLeft_eq, Nat.mod_add_mod]

theorem shiftLeft_or_eq_add (x : BitVec v) {y : BitVec v} {k : Nat}
    (hy : y.toNat < 2 ^ k) : (x <<< k) ||| y = (x <<< k) + y := by
  apply BitVec.eq_of_toNat_eq
  rw [toNat_shiftLeft_add, BitVec.toNat_or, BitVec.toNat_shiftLeft, ← Nat.shiftLeft_eq,
    Nat.shiftLeft_add_eq_or_of_lt hy, Nat.or_mod_two_pow, Nat.mod_eq_of_lt y.isLt]

theorem lowBits_shiftLeft_add (x : BitVec v) {y : BitVec v} {p k : Nat}
    (hy : y.toNat < 2 ^ k) (hpk : p + k <= v) :
    lowBits (p + k) ((x <<< k) + y).toNat =
      lowBits p x.toNat ++ lowBits k y.toNat := by
  rw [toNat_shiftLeft_add, lowBits_mod hpk, lowBits_joined p x.toNat hy]

theorem lowBits_front (x : BitVec v) {p w : Nat} (h : p + w <= v) :
    lowBits (w + p) x.toNat =
      lowBits w (x.sshiftRight p &&& BitVec.ofNat v (2 ^ w - 1)).toNat ++
        lowBits p x.toNat := by
  rw [lowBits_add, toNat_sshiftRight_and_mask x h, lowBits_mod (Nat.le_refl w)]

end Word

/-!
## Digit strings

`spell w ds` is the bit string of the digits `ds`, each written with `w` bits.
-/

def spell (w : Nat) (digits : List Nat) : List Bool :=
  digits.flatMap (lowBits w)

@[simp] theorem spell_nil (w : Nat) : spell w [] = [] := rfl

@[simp] theorem spell_cons (w d : Nat) (rest : List Nat) :
    spell w (d :: rest) = lowBits w d ++ spell w rest := rfl

theorem spell_append (w : Nat) (xs ys : List Nat) :
    spell w (xs ++ ys) = spell w xs ++ spell w ys :=
  List.flatMap_append

theorem spell_concat (w : Nat) (xs : List Nat) (d : Nat) :
    spell w (xs ++ [d]) = spell w xs ++ lowBits w d := by
  rw [spell_append, spell_cons, spell_nil, List.append_nil]

@[simp] theorem length_spell (w : Nat) (digits : List Nat) :
    (spell w digits).length = w * digits.length := by
  induction digits with
  | nil => rfl
  | cons d rest ih =>
      rw [spell_cons, List.length_append, length_lowBits, ih, List.length_cons,
        Nat.mul_succ, Nat.add_comm]

theorem drop_spell (w : Nat) (digits : List Nat) (j : Nat) :
    (spell w digits).drop (w * j) = spell w (digits.drop j) := by
  induction j generalizing digits with
  | zero => simp
  | succ j ih =>
      cases digits with
      | nil => simp
      | cons d rest =>
          rw [spell_cons, Nat.mul_succ, Nat.add_comm, ← List.drop_drop,
            List.drop_left' (length_lowBits w d), ih, List.drop_succ_cons]

theorem take_spell (w : Nat) (digits : List Nat) (m : Nat) :
    (spell w digits).take (w * m) = spell w (digits.take m) := by
  induction m generalizing digits with
  | zero => simp
  | succ m ih =>
      cases digits with
      | nil => simp
      | cons d rest =>
          rw [spell_cons, Nat.mul_succ, Nat.add_comm, List.take_append, length_lowBits,
            List.take_of_length_le (by simp), Nat.add_sub_cancel_left, ih, List.take_succ_cons,
            spell_cons]

/--
A bit string is spelled in at most one way as full `w`-bit digits followed by
an incomplete digit.
-/
theorem spell_append_inj {w : Nat} {xs ys : List Nat} {u v : List Bool}
    (hxs : forall d, d ∈ xs -> d < 2 ^ w) (hys : forall d, d ∈ ys -> d < 2 ^ w)
    (hu : u.length < w) (hv : v.length < w)
    (h : spell w xs ++ u = spell w ys ++ v) :
    xs = ys ∧ u = v := by
  induction xs generalizing ys with
  | nil =>
      cases ys with
      | nil => exact ⟨rfl, by simpa using h⟩
      | cons y ys =>
          have hlen := congrArg List.length h
          simp only [spell_nil, List.nil_append, spell_cons, List.length_append,
            length_lowBits] at hlen
          lia
  | cons x xs ih =>
      cases ys with
      | nil =>
          have hlen := congrArg List.length h
          simp only [spell_nil, List.nil_append, spell_cons, List.length_append,
            length_lowBits] at hlen
          lia
      | cons y ys =>
          rw [spell_cons, spell_cons, List.append_assoc, List.append_assoc] at h
          have hsplit := List.append_inj h (by simp)
          have hxy : x = y :=
            lowBits_inj (hxs x List.mem_cons_self) (hys y List.mem_cons_self)
              hsplit.left
          have htail : xs = ys ∧ u = v :=
            ih (fun d hd => hxs d (List.mem_cons_of_mem x hd))
              (fun d hd => hys d (List.mem_cons_of_mem y hd)) hsplit.right
          exact ⟨by rw [hxy, htail.left], htail.right⟩

theorem spell_inj {w : Nat} (hw : 0 < w) {xs ys : List Nat}
    (hxs : forall d, d ∈ xs -> d < 2 ^ w) (hys : forall d, d ∈ ys -> d < 2 ^ w)
    (h : spell w xs = spell w ys) : xs = ys := by
  have happ : spell w xs ++ [] = spell w ys ++ [] := by rw [h]
  exact (spell_append_inj (u := []) (v := []) hxs hys hw hw happ).left

end BitString
end Foundation
end CppCommons
