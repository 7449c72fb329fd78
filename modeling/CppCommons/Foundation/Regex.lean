import Mathlib

/-!
# Regular expressions with word boundaries

The patterns, what they match, and a backtracking matcher.  A match is judged
in its context: `prev` is the symbol before it, if any, and `rest` the text
after it; only `boundary` looks at them.  The matcher lists all matches that
start at a position, in the order in which a backtracking search with greedy
quantifiers finds them.
-/

namespace CppCommons
namespace Foundation

inductive Regex (alpha : Type) where
  | eps
  | symbol (p : alpha -> Bool)
  | seq (r q : Regex alpha)
  | opt (r : Regex alpha)
  | star (r : Regex alpha)
  | boundary

namespace Regex

variable {alpha : Type}

def times (r : Regex alpha) : Nat -> Regex alpha
  | 0 => .eps
  | n + 1 => .seq r (r.times n)

def atLeast (r : Regex alpha) (n : Nat) : Regex alpha :=
  .seq (r.times n) (.star r)

/-- The symbol before the position reached from `prev` over `w`. -/
def lastOf (prev : Option alpha) : List alpha -> Option alpha
  | [] => prev
  | a :: w => lastOf (some a) w

@[simp] theorem lastOf_nil (prev : Option alpha) : lastOf prev [] = prev := rfl

@[simp] theorem lastOf_cons (prev : Option alpha) (a : alpha) (w : List alpha) :
    lastOf prev (a :: w) = lastOf (some a) w := rfl

theorem lastOf_append (prev : Option alpha) (u v : List alpha) :
    lastOf prev (u ++ v) = lastOf (lastOf prev u) v := by
  induction u generalizing prev with
  | nil => rfl
  | cons a u ih => exact ih (some a)

/-!
## Matches

The relation between a pattern and the texts it matches, with one inversion lemma
for each form of pattern.
-/

section Matches

variable (word : alpha -> Bool)

/-- `Matches word r prev w rest`: the pattern `r` matches `w` between `prev` and
`rest`.  An iteration of a star is not empty. -/
inductive Matches : Regex alpha -> Option alpha -> List alpha -> List alpha -> Prop where
  | eps {prev : Option alpha} {rest : List alpha} : Matches .eps prev [] rest
  | symbol {p : alpha -> Bool} {a : alpha} {prev : Option alpha} {rest : List alpha} :
      p a = true -> Matches (.symbol p) prev [a] rest
  | seq {r q : Regex alpha} {prev : Option alpha} {u v rest : List alpha} :
      Matches r prev u (v ++ rest) -> Matches q (lastOf prev u) v rest ->
      Matches (.seq r q) prev (u ++ v) rest
  | skip {r : Regex alpha} {prev : Option alpha} {rest : List alpha} :
      Matches (.opt r) prev [] rest
  | once {r : Regex alpha} {prev : Option alpha} {u rest : List alpha} :
      Matches r prev u rest -> Matches (.opt r) prev u rest
  | stop {r : Regex alpha} {prev : Option alpha} {rest : List alpha} :
      Matches (.star r) prev [] rest
  | more {r : Regex alpha} {prev : Option alpha} {u v rest : List alpha} : u ≠ [] ->
      Matches r prev u (v ++ rest) -> Matches (.star r) (lastOf prev u) v rest ->
      Matches (.star r) prev (u ++ v) rest
  | boundary {prev : Option alpha} {rest : List alpha} :
      prev.any word ≠ rest.head?.any word -> Matches .boundary prev [] rest

end Matches

variable {word : alpha -> Bool} {prev : Option alpha} {w rest : List alpha}

theorem matches_eps_iff : Matches word .eps prev w rest <-> w = [] := by
  constructor
  · intro h
    cases h
    rfl
  · rintro rfl
    exact .eps

theorem matches_symbol_iff {p : alpha -> Bool} :
    Matches word (.symbol p) prev w rest <-> exists a, p a = true ∧ w = [a] := by
  constructor
  · intro h
    cases h with
    | symbol ha => exact ⟨_, ha, rfl⟩
  · rintro ⟨a, ha, rfl⟩
    exact .symbol ha

theorem matches_seq_iff {r q : Regex alpha} :
    Matches word (.seq r q) prev w rest <->
      exists u v, w = u ++ v ∧ Matches word r prev u (v ++ rest) ∧
        Matches word q (lastOf prev u) v rest := by
  constructor
  · intro h
    cases h with
    | seq hr hq => exact ⟨_, _, rfl, hr, hq⟩
  · rintro ⟨u, v, rfl, hr, hq⟩
    exact .seq hr hq

theorem matches_opt_iff {r : Regex alpha} :
    Matches word (.opt r) prev w rest <-> w = [] ∨ Matches word r prev w rest := by
  constructor
  · intro h
    cases h with
    | skip => exact Or.inl rfl
    | once hr => exact Or.inr hr
  · rintro (rfl | hr)
    · exact .skip
    · exact .once hr

theorem matches_star_iff {r : Regex alpha} :
    Matches word (.star r) prev w rest <->
      w = [] ∨ exists u v, w = u ++ v ∧ u ≠ [] ∧ Matches word r prev u (v ++ rest) ∧
        Matches word (.star r) (lastOf prev u) v rest := by
  constructor
  · intro h
    cases h with
    | stop => exact Or.inl rfl
    | more hu hr hstar => exact Or.inr ⟨_, _, rfl, hu, hr, hstar⟩
  · rintro (rfl | ⟨u, v, rfl, hu, hr, hstar⟩)
    · exact .stop
    · exact .more hu hr hstar

theorem matches_boundary_iff :
    Matches word .boundary prev w rest <->
      w = [] ∧ prev.any word ≠ rest.head?.any word := by
  constructor
  · intro h
    cases h with
    | boundary hne => exact ⟨rfl, hne⟩
  · rintro ⟨rfl, hne⟩
    exact .boundary hne

theorem matches_times_symbol_iff {p : alpha -> Bool} {n : Nat} :
    Matches word ((symbol p).times n) prev w rest <->
      w.length = n ∧ forall a, a ∈ w -> p a = true := by
  induction n generalizing prev w with
  | zero =>
      rw [times, matches_eps_iff, List.length_eq_zero_iff]
      constructor
      · rintro rfl
        simp
      · intro h
        exact h.left
  | succ n ih =>
      rw [times, matches_seq_iff]
      constructor
      · rintro ⟨u, v, rfl, hu, hv⟩
        rcases matches_symbol_iff.mp hu with ⟨a, ha, rfl⟩
        rcases ih.mp hv with ⟨hlength, hall⟩
        refine ⟨by simp [hlength], ?_⟩
        intro b hb
        rcases List.mem_append.mp hb with hb | hb
        · rw [List.mem_singleton.mp hb]
          exact ha
        · exact hall b hb
      · rintro ⟨hlength, hall⟩
        cases w with
        | nil => cases hlength
        | cons a w =>
            refine ⟨[a], w, rfl, .symbol (hall a (by simp)), ih.mpr ⟨by simpa using hlength, ?_⟩⟩
            intro b hb
            exact hall b (by simp [hb])

/-!
## What a match depends on

Of its context a match sees only whether the neighbours are word symbols, and
without boundaries nothing at all.
-/

def uses : Regex alpha -> alpha -> Bool
  | .eps, _ => false
  | .symbol p, a => p a
  | .seq r q, a => r.uses a || q.uses a
  | .opt r, a => r.uses a
  | .star r, a => r.uses a
  | .boundary, _ => false

theorem uses_of_matches {r : Regex alpha} (h : Matches word r prev w rest) {a : alpha}
    (ha : a ∈ w) : r.uses a = true := by
  induction h with
  | eps => cases ha
  | symbol hp =>
      rw [List.mem_singleton] at ha
      rw [ha]
      exact hp
  | seq hr hq ihr ihq =>
      rw [uses, Bool.or_eq_true]
      rcases List.mem_append.mp ha with ha | ha
      · exact Or.inl (ihr ha)
      · exact Or.inr (ihq ha)
  | skip => cases ha
  | once hr ih => exact ih ha
  | stop => cases ha
  | more hu hr hstar ihr ihstar =>
      rcases List.mem_append.mp ha with ha | ha
      · exact ihr ha
      · exact ihstar ha
  | boundary hne => cases ha

theorem any_lastOf_congr {prev' : Option alpha} (h : prev'.any word = prev.any word)
    (w : List alpha) : (lastOf prev' w).any word = (lastOf prev w).any word := by
  cases w with
  | nil => exact h
  | cons a w => rfl

theorem any_head_append_congr {rest' : List alpha}
    (h : rest'.head?.any word = rest.head?.any word) (w : List alpha) :
    (w ++ rest').head?.any word = (w ++ rest).head?.any word := by
  cases w with
  | nil => exact h
  | cons a w => rfl

theorem matches_congr {r : Regex alpha} (h : Matches word r prev w rest)
    {prev' : Option alpha} {rest' : List alpha} (hprev : prev'.any word = prev.any word)
    (hrest : rest'.head?.any word = rest.head?.any word) : Matches word r prev' w rest' := by
  induction h generalizing prev' rest' with
  | eps => exact .eps
  | symbol hp => exact .symbol hp
  | seq hr hq ihr ihq =>
      exact .seq (ihr hprev (any_head_append_congr hrest _))
        (ihq (any_lastOf_congr hprev _) hrest)
  | skip => exact .skip
  | once hr ih => exact .once (ih hprev hrest)
  | stop => exact .stop
  | more hu hr hstar ihr ihstar =>
      exact .more hu (ihr hprev (any_head_append_congr hrest _))
        (ihstar (any_lastOf_congr hprev _) hrest)
  | boundary hne =>
      apply Matches.boundary
      rw [hprev, hrest]
      exact hne

def boundaryFree : Regex alpha -> Bool
  | .eps => true
  | .symbol _ => true
  | .seq r q => r.boundaryFree && q.boundaryFree
  | .opt r => r.boundaryFree
  | .star r => r.boundaryFree
  | .boundary => false

theorem matches_of_boundaryFree {r : Regex alpha} (h : Matches word r prev w rest)
    (hfree : r.boundaryFree = true) (prev' : Option alpha) (rest' : List alpha) :
    Matches word r prev' w rest' := by
  induction h generalizing prev' rest' with
  | eps => exact .eps
  | symbol hp => exact .symbol hp
  | seq hr hq ihr ihq =>
      rw [boundaryFree, Bool.and_eq_true] at hfree
      exact .seq (ihr hfree.left _ _) (ihq hfree.right _ _)
  | skip => exact .skip
  | once hr ih => exact .once (ih hfree _ _)
  | stop => exact .stop
  | more hu hr hstar ihr ihstar => exact .more hu (ihr hfree _ _) (ihstar hfree _ _)
  | boundary hne => cases hfree

/-!
## The matcher

`splits` lists the matches at the front of a text, most preferred first.  It finds
exactly the matches of the pattern.
-/

abbrev Split (alpha : Type) := List alpha × List alpha

def andThen (s : Split alpha) (next : List (Split alpha)) : List (Split alpha) :=
  next.map (fun t => (s.fst ++ t.fst, t.snd))

/-- At most `fuel` iterations, none of them empty; more iterations come first. -/
def iterate (one : Option alpha -> List alpha -> List (Split alpha)) :
    Nat -> Option alpha -> List alpha -> List (Split alpha)
  | 0, _, input => [([], input)]
  | fuel + 1, prev, input =>
      ((one prev input).filter (fun s => !s.fst.isEmpty)).flatMap
          (fun s => andThen s (iterate one fuel (lastOf prev s.fst) s.snd)) ++
        [([], input)]

def splits (word : alpha -> Bool) :
    Regex alpha -> Option alpha -> List alpha -> List (Split alpha)
  | .eps, _, input => [([], input)]
  | .symbol p, _, input =>
      match input with
      | [] => []
      | a :: rest => if p a then [([a], rest)] else []
  | .seq r q, prev, input =>
      (splits word r prev input).flatMap
        (fun s => andThen s (splits word q (lastOf prev s.fst) s.snd))
  | .opt r, prev, input => splits word r prev input ++ [([], input)]
  | .star r, prev, input => iterate (splits word r) input.length prev input
  | .boundary, prev, input =>
      if prev.any word != input.head?.any word then [([], input)] else []

theorem mem_andThen_iff {s t : Split alpha} {next : List (Split alpha)} :
    t ∈ andThen s next <-> exists v, (v, t.snd) ∈ next ∧ t.fst = s.fst ++ v := by
  unfold andThen
  rw [List.mem_map]
  constructor
  · rintro ⟨u, hu, rfl⟩
    exact ⟨u.fst, hu, rfl⟩
  · rintro ⟨v, hv, ht⟩
    exact ⟨(v, t.snd), hv, Prod.ext ht.symm rfl⟩

def Finds (word : alpha -> Bool) (r : Regex alpha)
    (one : Option alpha -> List alpha -> List (Split alpha)) : Prop :=
  forall prev input w rest, (w, rest) ∈ one prev input <->
    input = w ++ rest ∧ Matches word r prev w rest

theorem matches_of_mem_iterate {r : Regex alpha}
    {one : Option alpha -> List alpha -> List (Split alpha)} (hone : Finds word r one)
    {fuel : Nat} {input : List alpha} (h : (w, rest) ∈ iterate one fuel prev input) :
    input = w ++ rest ∧ Matches word (.star r) prev w rest := by
  induction fuel generalizing prev input w with
  | zero =>
      rw [iterate, List.mem_singleton] at h
      cases h
      exact ⟨rfl, .stop⟩
  | succ fuel ih =>
      rw [iterate, List.mem_append] at h
      rcases h with h | h
      · rcases List.mem_flatMap.mp h with ⟨⟨u, after⟩, hu, hv⟩
        rcases List.mem_filter.mp hu with ⟨hu, hne⟩
        rcases mem_andThen_iff.mp hv with ⟨v, hv, rfl⟩
        rcases (hone prev input u after).mp hu with ⟨rfl, hr⟩
        rcases ih hv with ⟨rfl, hstar⟩
        exact ⟨by simp, .more (by simpa using hne) hr hstar⟩
      · rw [List.mem_singleton] at h
        cases h
        exact ⟨rfl, .stop⟩

theorem mem_iterate_of_matches {r : Regex alpha}
    {one : Option alpha -> List alpha -> List (Split alpha)} (hone : Finds word r one)
    {fuel : Nat} (hfuel : w.length <= fuel) (h : Matches word (.star r) prev w rest) :
    (w, rest) ∈ iterate one fuel prev (w ++ rest) := by
  induction fuel generalizing prev w with
  | zero =>
      rw [Nat.le_zero, List.length_eq_zero_iff] at hfuel
      rw [hfuel]
      simp [iterate]
  | succ fuel ih =>
      rw [iterate, List.mem_append]
      rcases matches_star_iff.mp h with rfl | ⟨u, v, rfl, hu, hr, hstar⟩
      · exact Or.inr (by simp)
      · apply Or.inl
        have hfound : (u, v ++ rest) ∈ one prev ((u ++ v) ++ rest) :=
          (hone prev _ u (v ++ rest)).mpr ⟨by simp, hr⟩
        have hshort : v.length <= fuel := by
          have hpos := List.length_pos_iff.mpr hu
          rw [List.length_append] at hfuel
          lia
        apply List.mem_flatMap.mpr
        refine ⟨(u, v ++ rest), List.mem_filter.mpr ⟨hfound, by simpa using hu⟩, ?_⟩
        exact mem_andThen_iff.mpr ⟨v, ih hshort hstar, rfl⟩

theorem finds_eps (word : alpha -> Bool) : Finds word .eps (splits word .eps) := by
  intro prev input w rest
  rw [splits, List.mem_singleton, matches_eps_iff, Prod.mk.injEq]
  constructor
  · rintro ⟨rfl, rfl⟩
    exact ⟨rfl, rfl⟩
  · rintro ⟨rfl, rfl⟩
    exact ⟨rfl, rfl⟩

theorem finds_symbol (word p : alpha -> Bool) :
    Finds word (.symbol p) (splits word (.symbol p)) := by
  intro prev input w rest
  rw [matches_symbol_iff]
  cases input with
  | nil =>
      simp only [splits, List.not_mem_nil, false_iff]
      rintro ⟨hinput, a, _ha, rfl⟩
      cases hinput
  | cons a input =>
      by_cases ha : p a = true
      · simp only [splits, ha, if_true, List.mem_singleton, Prod.mk.injEq]
        constructor
        · rintro ⟨rfl, rfl⟩
          exact ⟨rfl, a, ha, rfl⟩
        · rintro ⟨hinput, b, _hb, rfl⟩
          cases hinput
          exact ⟨rfl, rfl⟩
      · simp only [splits, if_neg ha, List.not_mem_nil, false_iff]
        rintro ⟨hinput, b, hb, rfl⟩
        cases hinput
        exact ha hb

theorem finds_seq {r q : Regex alpha} (hr : Finds word r (splits word r))
    (hq : Finds word q (splits word q)) : Finds word (.seq r q) (splits word (.seq r q)) := by
  intro prev input w rest
  rw [splits, List.mem_flatMap, matches_seq_iff]
  constructor
  · rintro ⟨⟨u, after⟩, hu, hw⟩
    rcases mem_andThen_iff.mp hw with ⟨v, hv, rfl⟩
    rcases (hr prev input u after).mp hu with ⟨rfl, hfirst⟩
    rcases (hq _ after v rest).mp hv with ⟨rfl, hsecond⟩
    exact ⟨by simp, u, v, rfl, hfirst, hsecond⟩
  · rintro ⟨rfl, u, v, rfl, hfirst, hsecond⟩
    refine ⟨(u, v ++ rest), (hr prev _ u (v ++ rest)).mpr ⟨by simp, hfirst⟩, ?_⟩
    exact mem_andThen_iff.mpr ⟨v, (hq _ _ v rest).mpr ⟨rfl, hsecond⟩, rfl⟩

theorem finds_opt {r : Regex alpha} (hr : Finds word r (splits word r)) :
    Finds word (.opt r) (splits word (.opt r)) := by
  intro prev input w rest
  rw [splits, List.mem_append, List.mem_singleton, matches_opt_iff, hr, Prod.mk.injEq]
  constructor
  · rintro (⟨rfl, hmatch⟩ | ⟨rfl, rfl⟩)
    · exact ⟨rfl, Or.inr hmatch⟩
    · exact ⟨rfl, Or.inl rfl⟩
  · rintro ⟨rfl, rfl | hmatch⟩
    · exact Or.inr ⟨rfl, rfl⟩
    · exact Or.inl ⟨rfl, hmatch⟩

theorem finds_star {r : Regex alpha} (hr : Finds word r (splits word r)) :
    Finds word (.star r) (splits word (.star r)) := by
  intro prev input w rest
  rw [splits]
  constructor
  · intro h
    exact matches_of_mem_iterate hr h
  · rintro ⟨rfl, hstar⟩
    exact mem_iterate_of_matches hr (by simp) hstar

theorem finds_boundary (word : alpha -> Bool) :
    Finds word .boundary (splits word .boundary) := by
  intro prev input w rest
  rw [matches_boundary_iff]
  by_cases hne : prev.any word = input.head?.any word
  · have hb : (prev.any word != input.head?.any word) = false := by
      simpa using hne
    simp only [splits, hb, Bool.false_eq_true, if_false, List.not_mem_nil, false_iff]
    rintro ⟨rfl, rfl, hrest⟩
    exact hrest hne
  · have hb : (prev.any word != input.head?.any word) = true := by
      simpa using hne
    simp only [splits, hb, if_true, List.mem_singleton, Prod.mk.injEq]
    constructor
    · rintro ⟨rfl, rfl⟩
      exact ⟨rfl, rfl, hne⟩
    · rintro ⟨rfl, rfl, _⟩
      exact ⟨rfl, rfl⟩

theorem finds_splits (word : alpha -> Bool) (r : Regex alpha) :
    Finds word r (splits word r) := by
  induction r with
  | eps => exact finds_eps word
  | symbol p => exact finds_symbol word p
  | seq r q ihr ihq => exact finds_seq ihr ihq
  | opt r ih => exact finds_opt ih
  | star r ih => exact finds_star ih
  | boundary => exact finds_boundary word

end Regex
end Foundation
end CppCommons
