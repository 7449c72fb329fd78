import Mathlib

/-!
# Searching in order of rank

Items are sorted by descending key, and the first one that hits decides.  The
order of items with equal keys is left open, as a sort that need not be stable
leaves it.  The answers that some such sort can give are exactly those of the
hits with the greatest key.
-/

namespace CppCommons
namespace Foundation

/-- A sort by descending key: any permutation that is in order. -/
structure DescendingSort {A K : Type} [LinearOrder K] (key : A -> K) where
  sort : List A -> List A
  perm : forall items, (sort items).Perm items
  sorted : forall items, (sort items).Pairwise (fun a b => key b <= key a)

namespace DescendingSort

variable {A B K : Type} [LinearOrder K] {key : A -> K} {hit : A -> Option B}

/-- `b` is the answer of a hit, and no hit has a greater key. -/
def Best (key : A -> K) (hit : A -> Option B) (items : List A) (b : B) : Prop :=
  exists a, a ∈ items ∧ hit a = some b ∧
    forall a', a' ∈ items -> hit a' ≠ none -> key a' <= key a

theorem mem_sort_iff (s : DescendingSort key) (items : List A) (a : A) :
    a ∈ s.sort items <-> a ∈ items :=
  (s.perm items).mem_iff

theorem findSome?_eq_none_iff (s : DescendingSort key) (items : List A) :
    (s.sort items).findSome? hit = none <-> forall a, a ∈ items -> hit a = none := by
  rw [List.findSome?_eq_none_iff]
  constructor
  · intro h a ha
    exact h a ((s.mem_sort_iff items a).mpr ha)
  · intro h a ha
    exact h a ((s.mem_sort_iff items a).mp ha)

theorem best_of_findSome? (s : DescendingSort key) {items : List A} {b : B}
    (h : (s.sort items).findSome? hit = some b) : Best key hit items b := by
  rcases List.findSome?_eq_some_iff.mp h with ⟨before, a, after, hsplit, ha, hbefore⟩
  have hsorted := s.sorted items
  rw [hsplit, List.pairwise_append, List.pairwise_cons] at hsorted
  refine ⟨a, ?_, ha, ?_⟩
  · rw [← s.mem_sort_iff, hsplit]
    exact List.mem_append_right before List.mem_cons_self
  · intro a' ha' hhit
    rw [← s.mem_sort_iff, hsplit] at ha'
    rcases List.mem_append.mp ha' with hin | hin
    · exact absurd (hbefore a' hin) hhit
    · rcases List.mem_cons.mp hin with heq | hlater
      · rw [heq]
      · exact hsorted.right.left.left a' hlater

section Favouring

variable [DecidableEq A]

def favouredFirst (key : A -> K) (a x y : A) : Bool :=
  decide (key y < key x) || (decide (key x = key y) && (decide (x = a) || !decide (y = a)))

theorem favouredFirst_iff (key : A -> K) (a x y : A) :
    favouredFirst key a x y = true <-> key y < key x ∨ (key x = key y ∧ (x = a ∨ y ≠ a)) := by
  simp [favouredFirst]

theorem favouredFirst_trans (key : A -> K) (a : A) {x y z : A}
    (hxy : favouredFirst key a x y = true) (hyz : favouredFirst key a y z = true) :
    favouredFirst key a x z = true := by
  rw [favouredFirst_iff] at hxy hyz ⊢
  rcases hxy with hxy | ⟨hxy, hfirst⟩
  · rcases hyz with hyz | ⟨hyz, _⟩
    · exact Or.inl (lt_trans hyz hxy)
    · exact Or.inl (hyz ▸ hxy)
  · rcases hyz with hyz | ⟨hyz, hsecond⟩
    · exact Or.inl (hxy ▸ hyz)
    · refine Or.inr ⟨hxy.trans hyz, ?_⟩
      rcases hfirst with hx | hy
      · exact Or.inl hx
      · exact Or.inr (hsecond.resolve_left hy)

theorem favouredFirst_total (key : A -> K) (a x y : A) :
    (favouredFirst key a x y || favouredFirst key a y x) = true := by
  rw [Bool.or_eq_true, favouredFirst_iff, favouredFirst_iff]
  rcases lt_trichotomy (key x) (key y) with hlt | heq | hgt
  · exact Or.inr (Or.inl hlt)
  · by_cases hx : x = a
    · exact Or.inl (Or.inr ⟨heq, Or.inl hx⟩)
    · exact Or.inr (Or.inr ⟨heq.symm, Or.inr hx⟩)
  · exact Or.inl (Or.inl hgt)

theorem pairwise_favouring (key : A -> K) (a : A) (items : List A) :
    (items.mergeSort (favouredFirst key a)).Pairwise
      (fun x y => favouredFirst key a x y = true) := by
  apply List.pairwise_mergeSort
  · intro x y z hxy hyz
    exact favouredFirst_trans key a hxy hyz
  · exact favouredFirst_total key a

def favouring (key : A -> K) (a : A) : DescendingSort key where
  sort items := items.mergeSort (favouredFirst key a)
  perm items := List.mergeSort_perm items _
  sorted items := by
    apply List.Pairwise.imp _ (pairwise_favouring key a items)
    intro x y hxy
    rcases (favouredFirst_iff key a x y).mp hxy with hlt | ⟨heq, _⟩
    · exact le_of_lt hlt
    · exact le_of_eq heq.symm

theorem findSome?_favouring {items : List A} {a : A} {b : B} (ha : a ∈ items)
    (hhit : hit a = some b)
    (hbest : forall a', a' ∈ items -> hit a' ≠ none -> key a' <= key a) :
    ((favouring key a).sort items).findSome? hit = some b := by
  have hmem := ((favouring key a).mem_sort_iff items a).mpr ha
  rcases List.eq_append_cons_of_mem hmem with ⟨before, after, hsplit, hnot⟩
  have hpairs : ((favouring key a).sort items).Pairwise
      (fun x y => favouredFirst key a x y = true) := pairwise_favouring key a items
  rw [hsplit, List.pairwise_append] at hpairs
  rw [hsplit, List.findSome?_eq_some_iff]
  refine ⟨before, a, after, rfl, hhit, ?_⟩
  intro x hx
  by_contra hxhit
  -- an item in front of `a` has a greater key, or is `a` itself
  rcases (favouredFirst_iff key a x a).mp (hpairs.right.right x hx a List.mem_cons_self) with
    hlt | ⟨_, hxa | haa⟩
  · have hin : x ∈ items := by
      rw [← (favouring key a).mem_sort_iff, hsplit]
      exact List.mem_append_left _ hx
    exact absurd (hbest x hin hxhit) (not_le_of_gt hlt)
  · rw [hxa] at hx
    exact hnot hx
  · exact haa rfl

theorem exists_sort_iff_best (items : List A) (b : B) :
    (exists s : DescendingSort key, (s.sort items).findSome? hit = some b) <->
      Best key hit items b := by
  constructor
  · intro h
    rcases h with ⟨s, hs⟩
    exact s.best_of_findSome? hs
  · intro h
    rcases h with ⟨a, ha, hhit, hbest⟩
    exact ⟨favouring key a, findSome?_favouring ha hhit hbest⟩

end Favouring

end DescendingSort
end Foundation
end CppCommons
