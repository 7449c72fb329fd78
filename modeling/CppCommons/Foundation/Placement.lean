import Mathlib

/-!
# Tokens in places

Queues, batches in flight and delivery logs share one accounting question:
where is each item, and can it be in two places?  A placement gives the list of
tokens in every place.  It is separated when no token occurs twice, in one place
or in two.  The two moves below, putting a new token down and carrying tokens
from one place to another, keep a placement separated and lose nothing.
-/

namespace CppCommons
namespace Foundation
namespace Placement

variable {place token : Type}

structure Separated (c : place -> List token) : Prop where
  nodup : forall p, (c p).Nodup
  disjoint : forall p q x, p ≠ q -> x ∈ c p -> x ∉ c q

def Holds (c : place -> List token) (x : token) : Prop :=
  exists p, x ∈ c p

section Moves

variable [DecidableEq place] {c : place -> List token}

def deposit (c : place -> List token) (p : place) (x : token) : place -> List token :=
  Function.update c p (c p ++ [x])

/-- Carry `moved` from the front of `p` to the end of `q`, leaving `rest` at `p`. -/
def transfer (c : place -> List token) (p q : place) (moved rest : List token) :
    place -> List token :=
  Function.update (Function.update c p rest) q (c q ++ moved)

theorem mem_deposit_iff {p r : place} {x y : token} :
    y ∈ deposit c p x r <-> y ∈ c r ∨ (r = p ∧ y = x) := by
  unfold deposit
  by_cases hr : r = p
  · subst hr
    simp
  · simp [hr]

theorem holds_deposit_iff {p : place} {x y : token} :
    Holds (deposit c p x) y <-> Holds c y ∨ y = x := by
  unfold Holds
  simp only [mem_deposit_iff]
  constructor
  · rintro ⟨r, hold | ⟨_hr, hnew⟩⟩
    · exact Or.inl ⟨r, hold⟩
    · exact Or.inr hnew
  · rintro (⟨r, hold⟩ | hnew)
    · exact ⟨r, Or.inl hold⟩
    · exact ⟨p, Or.inr ⟨rfl, hnew⟩⟩

theorem separated_deposit (h : Separated c) (p : place) {x : token} (hx : ¬ Holds c x) :
    Separated (deposit c p x) := by
  constructor
  · intro r
    by_cases hr : r = p
    · subst hr
      unfold deposit
      rw [Function.update_self]
      refine List.nodup_append.mpr ⟨h.nodup r, List.nodup_singleton x, ?_⟩
      intro y hy z hz heq
      rw [List.mem_singleton.mp hz] at heq
      rw [heq] at hy
      exact hx ⟨r, hy⟩
    · unfold deposit
      rw [Function.update_of_ne hr]
      exact h.nodup r
  · intro r s y hrs hy hy'
    rcases mem_deposit_iff.mp hy with hold | ⟨hr, hnew⟩
    · rcases mem_deposit_iff.mp hy' with hold' | ⟨_hs, hnew'⟩
      · exact h.disjoint r s y hrs hold hold'
      · rw [hnew'] at hold
        exact hx ⟨r, hold⟩
    · rcases mem_deposit_iff.mp hy' with hold' | ⟨hs, _hnew'⟩
      · rw [hnew] at hold'
        exact hx ⟨s, hold'⟩
      · exact hrs (hr.trans hs.symm)

variable {p q : place} {moved rest : List token}

theorem transfer_target (c : place -> List token) (p q : place) (moved rest : List token) :
    transfer c p q moved rest q = c q ++ moved :=
  Function.update_self ..

theorem transfer_source (c : place -> List token) (hpq : p ≠ q) (moved rest : List token) :
    transfer c p q moved rest p = rest := by
  unfold transfer
  rw [Function.update_of_ne hpq, Function.update_self]

theorem transfer_other (c : place -> List token) (moved rest : List token) {r : place}
    (hrp : r ≠ p) (hrq : r ≠ q) : transfer c p q moved rest r = c r := by
  unfold transfer
  rw [Function.update_of_ne hrq, Function.update_of_ne hrp]

theorem mem_transfer (hpq : p ≠ q) (hc : c p = moved ++ rest) {r : place} {y : token}
    (hy : y ∈ transfer c p q moved rest r) :
    (y ∈ c r ∧ (r = p -> y ∈ rest)) ∨ (r = q ∧ y ∈ moved) := by
  by_cases hrq : r = q
  · rw [hrq, transfer_target] at hy
    rcases List.mem_append.mp hy with hold | hmoved
    · rw [hrq]
      exact Or.inl ⟨hold, fun h => absurd h.symm hpq⟩
    · exact Or.inr ⟨hrq, hmoved⟩
  · by_cases hrp : r = p
    · rw [hrp, transfer_source c hpq] at hy
      rw [hrp, hc]
      exact Or.inl ⟨List.mem_append.mpr (Or.inr hy), fun _ => hy⟩
    · rw [transfer_other c moved rest hrp hrq] at hy
      exact Or.inl ⟨hy, fun h => absurd h hrp⟩

theorem holds_transfer_iff (hpq : p ≠ q) (hc : c p = moved ++ rest) {y : token} :
    Holds (transfer c p q moved rest) y <-> Holds c y := by
  constructor
  · rintro ⟨r, hy⟩
    rcases mem_transfer hpq hc hy with ⟨hold, _⟩ | ⟨_, hmoved⟩
    · exact ⟨r, hold⟩
    · exact ⟨p, by rw [hc]; exact List.mem_append.mpr (Or.inl hmoved)⟩
  · rintro ⟨r, hy⟩
    by_cases hrp : r = p
    · rw [hrp, hc] at hy
      rcases List.mem_append.mp hy with hmoved | hrest
      · exact ⟨q, by rw [transfer_target]; exact List.mem_append.mpr (Or.inr hmoved)⟩
      · exact ⟨p, by rw [transfer_source c hpq]; exact hrest⟩
    · by_cases hrq : r = q
      · rw [hrq] at hy
        exact ⟨q, by rw [transfer_target]; exact List.mem_append.mpr (Or.inl hy)⟩
      · exact ⟨r, by rw [transfer_other c moved rest hrp hrq]; exact hy⟩

theorem separated_transfer (h : Separated c) (hpq : p ≠ q) (hc : c p = moved ++ rest) :
    Separated (transfer c p q moved rest) := by
  have hsource : (moved ++ rest).Nodup := by
    rw [← hc]
    exact h.nodup p
  have hparts := List.nodup_append.mp hsource
  have hmovedAt : forall y, y ∈ moved -> y ∈ c p := by
    intro y hy
    rw [hc]
    exact List.mem_append.mpr (Or.inl hy)
  have hcarried : forall r y, y ∈ moved -> y ∈ c r -> (r = p -> y ∈ rest) -> False := by
    intro r y hmoved hold hrest
    by_cases hrp : r = p
    · exact hparts.right.right y hmoved y (hrest hrp) rfl
    · exact h.disjoint p r y (fun heq => hrp heq.symm) (hmovedAt y hmoved) hold
  constructor
  · intro r
    by_cases hrq : r = q
    · rw [hrq, transfer_target]
      refine List.nodup_append.mpr ⟨h.nodup q, hparts.left, ?_⟩
      intro y hy z hz heq
      rw [← heq] at hz
      exact h.disjoint p q y hpq (hmovedAt y hz) hy
    · by_cases hrp : r = p
      · rw [hrp, transfer_source c hpq]
        exact hparts.right.left
      · rw [transfer_other c moved rest hrp hrq]
        exact h.nodup r
  · intro r s y hrs hy hy'
    rcases mem_transfer hpq hc hy with ⟨hold, hrest⟩ | ⟨hr, hmoved⟩
    · rcases mem_transfer hpq hc hy' with ⟨hold', _⟩ | ⟨_, hmoved'⟩
      · exact h.disjoint r s y hrs hold hold'
      · exact hcarried r y hmoved' hold hrest
    · rcases mem_transfer hpq hc hy' with ⟨hold', hrest'⟩ | ⟨hs, _⟩
      · exact hcarried s y hmoved hold' hrest'
      · exact hrs (hr.trans hs.symm)

end Moves

end Placement
end Foundation
end CppCommons
