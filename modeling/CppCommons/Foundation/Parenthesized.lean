import Mathlib.Data.Set.Basic
import Mathlib.Data.List.Infix

/-!
# Fully parenthesized expressions

Expressions over named atoms, with operators that are marked before their operand
and operators that stand between two operands, each application in brackets.  If
names are free of delimiters and no operator can be taken for another one, the
text of an expression has no other reading.
-/

namespace CppCommons
namespace Foundation
namespace Parenthesized

variable {char atom unary binary : Type}

inductive Expr (atom unary binary : Type) where
  | atom (a : atom)
  | apply (u : unary) (e : Expr atom unary binary)
  | combine (b : binary) (left right : Expr atom unary binary)
deriving DecidableEq

structure Style (char atom unary binary : Type) where
  opening : char
  closing : char
  name : atom -> List char
  mark : unary -> List char
  sign : binary -> List char

def Expr.text (style : Style char atom unary binary) : Expr atom unary binary -> List char
  | .atom a => style.name a
  | .apply u e => style.opening :: (style.mark u ++ e.text style ++ [style.closing])
  | .combine b left right =>
      style.opening :: (left.text style ++ style.sign b ++ right.text style ++ [style.closing])

def Delimited (delimiters : Set char) (text : List char) : Prop :=
  exists c rest, text = c :: rest ∧ c ∈ delimiters

/-- What keeps names and operators apart. -/
structure Readable (style : Style char atom unary binary) (delimiters : Set char) : Prop where
  opening_mem : style.opening ∈ delimiters
  closing_mem : style.closing ∈ delimiters
  name_ne_nil : forall a, style.name a ≠ []
  name_free : forall a c, c ∈ style.name a -> c ∉ delimiters
  name_injective : Function.Injective style.name
  mark_delimited : forall u, Delimited (delimiters \ {style.opening}) (style.mark u)
  mark_separate : forall u v, style.mark u <+: style.mark v -> u = v
  sign_delimited : forall b, Delimited delimiters (style.sign b)
  sign_separate : forall b c, style.sign b <+: style.sign c -> b = c

/-!
## Splitting texts

Texts without delimiters split uniquely at the first delimiter, and words none of
which begins another one split uniquely.
-/

theorem Delimited.append {delimiters : Set char} {text : List char} (h : Delimited delimiters text)
    (rest : List char) : Delimited delimiters (text ++ rest) := by
  rcases h with ⟨c, tail, rfl, hc⟩
  exact ⟨c, tail ++ rest, rfl, hc⟩

def Stops (delimiters : Set char) (rest : List char) : Prop :=
  rest = [] ∨ Delimited delimiters rest

theorem mem_of_stops {delimiters : Set char} {c : char} {rest : List char}
    (h : Stops delimiters (c :: rest)) : c ∈ delimiters := by
  rcases h with hnil | ⟨d, tail, hcons, hd⟩
  · cases hnil
  · cases hcons
    exact hd

theorem append_inj_of_stops {delimiters : Set char} {x y rest rest' : List char}
    (hx : forall c, c ∈ x -> c ∉ delimiters) (hy : forall c, c ∈ y -> c ∉ delimiters)
    (hrest : Stops delimiters rest) (hrest' : Stops delimiters rest')
    (h : x ++ rest = y ++ rest') : x = y ∧ rest = rest' := by
  induction x generalizing y with
  | nil =>
      cases y with
      | nil => exact ⟨rfl, h⟩
      | cons c y =>
          rw [List.nil_append] at h
          rw [h] at hrest
          exact absurd (mem_of_stops hrest) (hy c List.mem_cons_self)
  | cons c x ih =>
      cases y with
      | nil =>
          rw [List.nil_append] at h
          rw [← h] at hrest'
          exact absurd (mem_of_stops hrest') (hx c List.mem_cons_self)
      | cons d y =>
          injection h with hhead htail
          rcases ih (fun e he => hx e (List.mem_cons_of_mem c he))
            (fun e he => hy e (List.mem_cons_of_mem d he)) htail with ⟨hxy, hrests⟩
          exact ⟨by rw [hhead, hxy], hrests⟩

theorem append_inj_of_separate {key : Type} {word : key -> List char}
    (hseparate : forall u v, word u <+: word v -> u = v) {u v : key} {rest rest' : List char}
    (h : word u ++ rest = word v ++ rest') : u = v ∧ rest = rest' := by
  have hu : word u <+: word v ++ rest' := ⟨rest, h⟩
  have hv : word v <+: word v ++ rest' := List.prefix_append _ _
  have hsame : u = v := by
    rcases Nat.le_total (word u).length (word v).length with hle | hle
    · exact hseparate u v (List.prefix_of_prefix_length_le hu hv hle)
    · exact (hseparate v u (List.prefix_of_prefix_length_le hv hu hle)).symm
  subst hsame
  exact ⟨rfl, List.append_cancel_left h⟩

/-!
## Unique readability

A text begins with a bracket or with a character of a name, and neither a name nor a
mark can be taken for an operand.  Induction over the expression does the rest.
-/

section Reading

variable {style : Style char atom unary binary} {delimiters : Set char}

theorem name_eq_cons (h : Readable style delimiters) (a : atom) :
    exists c rest, style.name a = c :: rest ∧ c ∉ delimiters := by
  rcases List.exists_cons_of_ne_nil (h.name_ne_nil a) with ⟨c, rest, hname⟩
  refine ⟨c, rest, hname, h.name_free a c ?_⟩
  rw [hname]
  exact List.mem_cons_self

theorem text_eq_cons (h : Readable style delimiters) (e : Expr atom unary binary) :
    exists c rest, e.text style = c :: rest ∧ (c = style.opening ∨ c ∉ delimiters) := by
  cases e with
  | atom a =>
      rcases name_eq_cons h a with ⟨c, rest, hname, hfree⟩
      exact ⟨c, rest, hname, Or.inr hfree⟩
  | apply u e => exact ⟨_, _, rfl, Or.inl rfl⟩
  | combine b left right => exact ⟨_, _, rfl, Or.inl rfl⟩

theorem name_append_ne (h : Readable style delimiters) (a : atom) (rest tail : List char) :
    style.name a ++ rest ≠ style.opening :: tail := by
  intro heq
  rcases name_eq_cons h a with ⟨c, more, hname, hfree⟩
  rw [hname] at heq
  injection heq with hhead _
  rw [hhead] at hfree
  exact hfree h.opening_mem

theorem mark_append_ne (h : Readable style delimiters) (u : unary) (e : Expr atom unary binary)
    (rest tail : List char) : style.mark u ++ rest ≠ e.text style ++ tail := by
  intro heq
  rcases h.mark_delimited u with ⟨d, more, hmark, hd, hopening⟩
  rcases text_eq_cons h e with ⟨c, after, htext, hc⟩
  rw [hmark, htext] at heq
  injection heq with hhead _
  rw [← hhead] at hc
  rcases hc with hbracket | hname
  · exact hopening hbracket
  · exact hname hd

theorem text_apply_append (u : unary) (e : Expr atom unary binary) (rest : List char) :
    (Expr.apply u e).text style ++ rest =
      style.opening :: (style.mark u ++ (e.text style ++ style.closing :: rest)) := by
  simp [Expr.text]

theorem text_combine_append (b : binary) (left right : Expr atom unary binary)
    (rest : List char) :
    (Expr.combine b left right).text style ++ rest =
      style.opening ::
        (left.text style ++ (style.sign b ++ (right.text style ++ style.closing :: rest))) := by
  simp [Expr.text]

theorem text_append_inj (h : Readable style delimiters) {e e' : Expr atom unary binary}
    {rest rest' : List char} (hrest : Stops delimiters rest) (hrest' : Stops delimiters rest')
    (heq : e.text style ++ rest = e'.text style ++ rest') : e = e' ∧ rest = rest' := by
  have hclosed : forall tail, Stops delimiters (style.closing :: tail) :=
    fun tail => Or.inr ⟨style.closing, tail, rfl, h.closing_mem⟩
  induction e generalizing e' rest rest' with
  | atom a =>
      cases e' with
      | atom a' =>
          rcases append_inj_of_stops (h.name_free a) (h.name_free a') hrest hrest' heq with
            ⟨hname, hrests⟩
          exact ⟨congrArg Expr.atom (h.name_injective hname), hrests⟩
      | apply u' e' =>
          rw [text_apply_append] at heq
          exact absurd heq (name_append_ne h a _ _)
      | combine b' left' right' =>
          rw [text_combine_append] at heq
          exact absurd heq (name_append_ne h a _ _)
  | apply u e ih =>
      rw [text_apply_append] at heq
      cases e' with
      | atom a' => exact absurd heq.symm (name_append_ne h a' _ _)
      | apply u' e' =>
          rw [text_apply_append] at heq
          rcases append_inj_of_separate h.mark_separate (List.tail_eq_of_cons_eq heq) with
            ⟨rfl, hbody⟩
          rcases ih (hclosed rest) (hclosed rest') hbody with ⟨rfl, hrests⟩
          exact ⟨rfl, List.tail_eq_of_cons_eq hrests⟩
      | combine b' left' right' =>
          rw [text_combine_append] at heq
          exact absurd (List.tail_eq_of_cons_eq heq) (mark_append_ne h u left' _ _)
  | combine b left right ihleft ihright =>
      rw [text_combine_append] at heq
      cases e' with
      | atom a' => exact absurd heq.symm (name_append_ne h a' _ _)
      | apply u' e' =>
          rw [text_apply_append] at heq
          exact absurd (List.tail_eq_of_cons_eq heq).symm (mark_append_ne h u' left _ _)
      | combine b' left' right' =>
          rw [text_combine_append] at heq
          -- the left operand ends where the sign begins, the right one at the bracket
          rcases ihleft (Or.inr ((h.sign_delimited b).append _))
            (Or.inr ((h.sign_delimited b').append _)) (List.tail_eq_of_cons_eq heq) with
            ⟨rfl, hbehind⟩
          rcases append_inj_of_separate h.sign_separate hbehind with ⟨rfl, hbody⟩
          rcases ihright (hclosed rest) (hclosed rest') hbody with ⟨rfl, hrests⟩
          exact ⟨rfl, List.tail_eq_of_cons_eq hrests⟩

theorem text_injective (h : Readable style delimiters) :
    Function.Injective (Expr.text style) := by
  intro e e' heq
  have hempty : Stops delimiters ([] : List char) := Or.inl rfl
  refine (text_append_inj h hempty hempty ?_).left
  rw [List.append_nil, List.append_nil]
  exact heq

end Reading

end Parenthesized
end Foundation
end CppCommons
