import CppCommons.Foundation.Regex

/-!
# Replacing every match

A text is scanned from the left; where the pattern matches, the most preferred
match is replaced by a marker and the scan goes on after it, and elsewhere one
symbol is kept.  `Replaced` says what such a scan produces, whichever match it
prefers.  The last section traces a part of the produced text back to the
place it was copied from.
-/

namespace CppCommons
namespace Foundation
namespace Regex

variable {alpha : Type}

section Scan

variable (word : alpha -> Bool) (r : Regex alpha) (marker : List alpha)

def replaceFrom : Nat -> Option alpha -> List alpha -> List alpha
  | _, _, [] => []
  | skip + 1, _, a :: rest => replaceFrom skip (some a) rest
  | 0, prev, a :: rest =>
      match (splits word r prev (a :: rest)).head? with
      | some (_ :: u, _) => marker ++ replaceFrom u.length (some a) rest
      | _ => a :: replaceFrom 0 (some a) rest

def replaceAll (input : List alpha) : List alpha :=
  replaceFrom word r marker 0 none input

def Proper : Prop :=
  forall prev rest, ¬ Matches word r prev [] rest

def NoMatchAt (prev : Option alpha) (input : List alpha) : Prop :=
  forall w rest, input = w ++ rest -> ¬ Matches word r prev w rest

/-- No part of the text matches, each part judged between its neighbours. -/
def Clean (prev : Option alpha) (input : List alpha) : Prop :=
  forall front w back, input = front ++ (w ++ back) ->
    ¬ Matches word r (lastOf prev front) w back

/-- `Replaced prev input output`: the scan of `input` after `prev` can produce `output`. -/
inductive Replaced : Option alpha -> List alpha -> List alpha -> Prop where
  | done {prev : Option alpha} : Replaced prev [] []
  | keep {prev : Option alpha} {a : alpha} {input output : List alpha} :
      NoMatchAt word r prev (a :: input) -> Replaced (some a) input output ->
      Replaced prev (a :: input) (a :: output)
  | hit {prev : Option alpha} {u input output : List alpha} :
      Matches word r prev u input -> Replaced (lastOf prev u) input output ->
      Replaced prev (u ++ input) (marker ++ output)

end Scan

variable {word : alpha -> Bool} {r : Regex alpha} {marker : List alpha}
  {prev : Option alpha} {input output : List alpha}

theorem noMatchAt_iff_splits_nil : NoMatchAt word r prev input <->
    splits word r prev input = [] := by
  constructor
  · intro h
    apply List.eq_nil_iff_forall_not_mem.mpr
    rintro ⟨w, rest⟩ hmem
    rcases (finds_splits word r prev input w rest).mp hmem with ⟨hinput, hmatch⟩
    exact h w rest hinput hmatch
  · intro h w rest hinput hmatch
    have hmem := (finds_splits word r prev input w rest).mpr ⟨hinput, hmatch⟩
    rw [h] at hmem
    cases hmem

theorem replaceFrom_of_nil {a : alpha} (h : splits word r prev (a :: input) = []) :
    replaceFrom word r marker 0 prev (a :: input) =
      a :: replaceFrom word r marker 0 (some a) input := by
  rw [replaceFrom, h]
  rfl

theorem replaceFrom_of_cons {a b : alpha} {u rest : List alpha} {more : List (Split alpha)}
    (h : splits word r prev (a :: input) = (b :: u, rest) :: more) :
    replaceFrom word r marker 0 prev (a :: input) =
      marker ++ replaceFrom word r marker u.length (some a) input := by
  rw [replaceFrom, h]
  rfl

theorem replaced_replaceFrom (hproper : Proper word r) (input : List alpha) (skip : Nat)
    (hskip : skip <= input.length) (prev : Option alpha) :
    Replaced word r marker (lastOf prev (input.take skip)) (input.drop skip)
      (replaceFrom word r marker skip prev input) := by
  induction input generalizing skip prev with
  | nil =>
      rw [Nat.le_zero.mp hskip]
      exact .done
  | cons a input ih =>
      cases skip with
      | succ skip => exact ih skip (Nat.le_of_succ_le_succ hskip) (some a)
      | zero =>
          cases hsplits : splits word r prev (a :: input) with
          | nil =>
              rw [replaceFrom_of_nil hsplits]
              exact .keep (noMatchAt_iff_splits_nil.mpr hsplits) (ih 0 (Nat.zero_le _) (some a))
          | cons s more =>
              rcases s with ⟨w, rest⟩
              have hmem : (w, rest) ∈ splits word r prev (a :: input) := by
                rw [hsplits]
                simp
              rcases (finds_splits word r prev (a :: input) w rest).mp hmem with ⟨hinput, hmatch⟩
              cases w with
              | nil => exact absurd hmatch (hproper prev rest)
              | cons b u =>
                  rw [replaceFrom_of_cons hsplits]
                  rw [List.cons_append, List.cons.injEq] at hinput
                  rcases hinput with ⟨rfl, rfl⟩
                  have hrest := ih u.length (by simp) (some a)
                  rw [List.take_left, List.drop_left] at hrest
                  exact .hit hmatch hrest

theorem replaced_replaceAll (hproper : Proper word r) (input : List alpha) :
    Replaced word r marker none input (replaceAll word r marker input) :=
  replaced_replaceFrom hproper input 0 (Nat.zero_le _) none

theorem eq_of_clean (h : Replaced word r marker prev input output)
    (hclean : Clean word r prev input) : output = input := by
  induction h with
  | done => rfl
  | keep hnone hrest ih =>
      rw [ih]
      intro front w back hsplit
      exact hclean (_ :: front) w back (by rw [hsplit]; rfl)
  | hit hmatch hrest ih => exact absurd hmatch (hclean [] _ _ rfl)

theorem replaceAll_eq_self (hproper : Proper word r) (hclean : Clean word r none input) :
    replaceAll word r marker input = input :=
  eq_of_clean (replaced_replaceAll hproper input) hclean

/-!
## Where a part of the output comes from

A part of the output that cannot overlap a marker was copied from one place of the
input.
-/

def Apart (marker w : List alpha) : Prop :=
  forall front back x y, marker = front ++ back -> back ≠ [] -> back ++ x ≠ w ++ y

theorem ahead_or_within {x y u v : List alpha} (h : x ++ y = u ++ v) :
    (exists m, u = x ++ m ∧ y = m ++ v) ∨
      exists m, x = u ++ m ∧ m ≠ [] ∧ m ++ y = v := by
  rcases List.append_eq_append_iff.mp h with ⟨m, hu, hy⟩ | ⟨m, hx, hv⟩
  · exact Or.inl ⟨m, hu, hy⟩
  · cases m with
    | nil =>
        refine Or.inl ⟨[], ?_, ?_⟩
        · rw [hx]
          simp
        · rw [hv]
          simp
    | cons b m => exact Or.inr ⟨b :: m, hx, by simp, hv.symm⟩

theorem apart_of_head {a : alpha} (ha : a ∉ marker) (w : List alpha) :
    Apart marker (a :: w) := by
  intro front back x y hmarker hback heq
  cases back with
  | nil => exact hback rfl
  | cons b back =>
      rw [List.cons_append, List.cons_append, List.cons.injEq] at heq
      apply ha
      rw [hmarker, ← heq.left]
      simp

theorem apart_of_last {body w : List alpha} {last a : alpha} (hlast : last ∉ w) (ha : a ∈ w)
    (hmarker : a ∉ body ++ [last]) : Apart (body ++ [last]) w := by
  intro front back x y hsplit hback heq
  rcases ahead_or_within heq with ⟨m, hw, _⟩ | ⟨m, hinside, _, _⟩
  · have hmem : last ∈ back := by
      cases back using List.reverseRecOn with
      | nil => exact absurd rfl hback
      | append_singleton back b =>
          rw [← List.append_assoc] at hsplit
          rcases List.append_inj' hsplit rfl with ⟨_, hb⟩
          cases hb
          simp
    apply hlast
    rw [hw]
    exact List.mem_append_left m hmem
  · apply hmarker
    rw [hsplit, hinside]
    simp [ha]

structure Copied (word : alpha -> Bool) (r : Regex alpha) (marker : List alpha)
    (prev : Option alpha) (input w outputBack front back : List alpha) : Prop where
  place : input = front ++ (w ++ back)
  kept : NoMatchAt word r (lastOf prev front) (w ++ back)
  after : Replaced word r marker (lastOf (lastOf prev front) w) back outputBack

variable {w outputBack : List alpha} {first : alpha} {inner : List alpha}

theorem replaced_after (h : Replaced word r (first :: inner) prev input output)
    (houtput : output = w ++ outputBack) (hfirst : first ∉ w) :
    exists back, input = w ++ back ∧
      Replaced word r (first :: inner) (lastOf prev w) back outputBack := by
  induction w generalizing prev input output with
  | nil =>
      rw [List.nil_append] at houtput
      rw [houtput] at h
      exact ⟨input, rfl, h⟩
  | cons b w ih =>
      cases h with
      | done => cases houtput
      | keep hnone hrest =>
          cases houtput
          rcases ih hrest rfl (fun hmem => hfirst (by simp [hmem])) with ⟨back, rfl, hback⟩
          exact ⟨back, rfl, hback⟩
      | hit hmatch hrest =>
          rw [List.cons_append, List.cons_append, List.cons.injEq] at houtput
          rw [houtput.left] at hfirst
          exact absurd List.mem_cons_self hfirst

theorem copied_of_front (h : Replaced word r (first :: inner) prev input (w ++ outputBack))
    (hw : w ≠ []) (hfirst : first ∉ w) :
    exists back, Copied word r (first :: inner) prev input w outputBack [] back := by
  rcases replaced_after h rfl hfirst with ⟨back, rfl, hback⟩
  refine ⟨back, rfl, ?_, hback⟩
  cases w with
  | nil => exact absurd rfl hw
  | cons b w =>
      generalize houtput : (b :: w) ++ outputBack = output at h
      generalize hinput : (b :: w) ++ back = input at h
      cases h with
      | done => cases houtput
      | keep hnone hrest =>
          exact hnone
      | hit hmatch hrest =>
          rw [List.cons_append, List.cons_append, List.cons.injEq] at houtput
          rw [houtput.left] at hfirst
          exact absurd List.mem_cons_self hfirst

/--
A part of the output that avoids the markers is copied from the input.  The
symbol before it is the same on both sides, unless the part follows a marker;
then a match of the input ends where the part begins.
-/
theorem exists_copied (h : Replaced word r (first :: inner) prev input output)
    (hw : w ≠ []) (hfirst : first ∉ w) (hapart : Apart (first :: inner) w)
    {outputFront : List alpha} (houtput : output = outputFront ++ (w ++ outputBack)) :
    exists front back, Copied word r (first :: inner) prev input w outputBack front back ∧
      (lastOf prev front = lastOf prev outputFront ∨
        exists p u, Matches word r p u (w ++ back)) := by
  induction h generalizing outputFront with
  | done =>
      cases outputFront with
      | nil =>
          rw [List.nil_append, List.nil_eq, List.append_eq_nil_iff] at houtput
          exact absurd houtput.left hw
      | cons b outputFront => cases houtput
  | keep hnone hrest ih =>
      rename_i prev a input output
      cases outputFront with
      | nil =>
          rw [List.nil_append] at houtput
          have hwhole := Replaced.keep hnone hrest
          rw [houtput] at hwhole
          rcases copied_of_front hwhole hw hfirst with ⟨back, hcopied⟩
          exact ⟨[], back, hcopied, Or.inl rfl⟩
      | cons b outputFront =>
          cases houtput
          rcases ih rfl with ⟨front, back, hcopied, hbefore⟩
          refine ⟨a :: front, back, ⟨?_, hcopied.kept, hcopied.after⟩, hbefore⟩
          rw [hcopied.place]
          rfl
  | hit hmatch hrest ih =>
      rename_i prev u input output
      rcases ahead_or_within houtput with ⟨m, hm, hback⟩ | ⟨m, hm, hne, hback⟩
      · -- The part lies behind the marker: directly, or after some further output.
        cases m with
        | nil =>
            rw [List.nil_append] at hback
            rw [hback] at hrest
            rcases copied_of_front hrest hw hfirst with ⟨back, hplace, hkept, hafter⟩
            refine ⟨u, back, ⟨?_, hkept, hafter⟩, Or.inr ⟨prev, u, ?_⟩⟩
            · rw [hplace]
              rfl
            · rw [hplace] at hmatch
              exact hmatch
        | cons b m =>
            rcases ih hback with ⟨front, back, ⟨hplace, hkept, hafter⟩, hbefore⟩
            rw [← lastOf_append prev u front] at hkept hafter
            refine ⟨u ++ front, back, ⟨?_, hkept, hafter⟩, ?_⟩
            · rw [hplace, List.append_assoc]
            · rcases hbefore with hsame | hended
              · apply Or.inl
                rw [hm, lastOf_append, lastOf_append, hsame]
                rfl
              · exact Or.inr hended
      · exact absurd hback (hapart outputFront m output outputBack hm hne)

end Regex
end Foundation
end CppCommons
