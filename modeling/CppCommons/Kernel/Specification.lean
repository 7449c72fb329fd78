import CppCommons.Cxx.ByteString
import CppCommons.Foundation.Parenthesized

/-!
# Specifications

A `Specification` is an object with two virtual functions: a test of candidates
and a text for logs.  `Spec` composes such objects with `&&`, `||` and `!`, and the
text of a composition shows how it was composed.
-/

namespace CppCommons
namespace Kernel

open Cxx
open Foundation.Parenthesized

variable {candidate : Type}

structure Specification (candidate : Type) where
  isSatisfiedBy : candidate -> Bool
  toString : Bytes

def andSpecification (left right : Specification candidate) : Specification candidate where
  isSatisfiedBy c := left.isSatisfiedBy c && right.isSatisfiedBy c
  toString := ascii "(" ++ left.toString ++ ascii " && " ++ right.toString ++ ascii ")"

def orSpecification (left right : Specification candidate) : Specification candidate where
  isSatisfiedBy c := left.isSatisfiedBy c || right.isSatisfiedBy c
  toString := ascii "(" ++ left.toString ++ ascii " || " ++ right.toString ++ ascii ")"

def notSpecification (spec : Specification candidate) : Specification candidate where
  isSatisfiedBy c := !spec.isSatisfiedBy c
  toString := ascii "(!" ++ spec.toString ++ ascii ")"

structure Spec (candidate : Type) where
  impl : Specification candidate

namespace Spec

def isSatisfiedBy (spec : Spec candidate) (c : candidate) : Bool :=
  spec.impl.isSatisfiedBy c

def toString (spec : Spec candidate) : Bytes :=
  spec.impl.toString

def and (spec other : Spec candidate) : Spec candidate :=
  ⟨andSpecification spec.impl other.impl⟩

def or (spec other : Spec candidate) : Spec candidate :=
  ⟨orSpecification spec.impl other.impl⟩

def not (spec : Spec candidate) : Spec candidate :=
  ⟨notSpecification spec.impl⟩

end Spec

/-!
## Compositions

A tree of atoms under `!`, `&&` and `||`, and the specification that the operators
of `Spec` make of it.
-/

inductive Negation where
  | not
deriving DecidableEq

inductive Connective where
  | and
  | or
deriving DecidableEq

abbrev SpecTree (atom : Type) := Expr atom Negation Connective

variable {atom : Type}

/-- The composition that the operators of `Spec` make of a tree. -/
def compose (spec : atom -> Specification candidate) : SpecTree atom -> Spec candidate
  | .atom a => ⟨spec a⟩
  | .apply .not e => (compose spec e).not
  | .combine .and left right => (compose spec left).and (compose spec right)
  | .combine .or left right => (compose spec left).or (compose spec right)

def specDelimiters : Bytes := [40, 41, 33, 38, 124, 32]

/-- Atoms with names of their own, by which they are known. -/
structure NamedAtoms (spec : atom -> Specification candidate) : Prop where
  ne_nil : forall a, (spec a).toString ≠ []
  free : forall a c, c ∈ (spec a).toString -> c ∉ specDelimiters
  identified : forall a b, (spec a).toString = (spec b).toString -> a = b

/-!
## Texts of compositions

The texts are fully parenthesized, so compositions of named atoms are read back
uniquely.
-/

def Negation.mark : Negation -> Bytes
  | .not => ascii "!"

def Connective.sign : Connective -> Bytes
  | .and => ascii " && "
  | .or => ascii " || "

def specStyle (spec : atom -> Specification candidate) : Style UInt8 atom Negation Connective where
  opening := 40
  closing := 41
  name a := (spec a).toString
  mark := Negation.mark
  sign := Connective.sign

theorem toString_compose (spec : atom -> Specification candidate) (e : SpecTree atom) :
    (compose spec e).toString = e.text (specStyle spec) := by
  induction e with
  | atom a => rfl
  | apply u e ih =>
      cases u with
      | not =>
          rw [Expr.text, ← ih]
          rfl
  | combine b left right ihleft ihright =>
      cases b with
      | and =>
          rw [Expr.text, ← ihleft, ← ihright]
          rfl
      | or =>
          rw [Expr.text, ← ihleft, ← ihright]
          rfl

theorem Connective.sign_separate (b c : Connective) (h : b.sign <+: c.sign) : b = c := by
  revert h
  cases b <;> cases c <;> decide

theorem readable_specStyle {spec : atom -> Specification candidate} (h : NamedAtoms spec) :
    Readable (specStyle spec) { c | c ∈ specDelimiters } := by
  have hopening : (40 : UInt8) ∈ specDelimiters := by decide
  have hclosing : (41 : UInt8) ∈ specDelimiters := by decide
  have hmark : (33 : UInt8) ∈ specDelimiters ∧ (33 : UInt8) ≠ 40 := by decide
  have hsign : (32 : UInt8) ∈ specDelimiters := by decide
  refine ⟨hopening, hclosing, h.ne_nil, h.free, h.identified, ?_, ?_, ?_, ?_⟩
  · intro u
    cases u
    exact ⟨33, [], rfl, hmark⟩
  · intro u v _
    cases u
    cases v
    rfl
  · intro b
    cases b with
    | and => exact ⟨32, ascii "&& ", rfl, hsign⟩
    | or => exact ⟨32, ascii "|| ", rfl, hsign⟩
  · exact Connective.sign_separate

/-- Compositions of named atoms that are printed alike are one composition, and accept
the same candidates. -/
theorem printed_alike {spec : atom -> Specification candidate} (h : NamedAtoms spec)
    (e e' : SpecTree atom) (hprinted : (compose spec e).toString = (compose spec e').toString) :
    e = e' ∧ forall c, (compose spec e).isSatisfiedBy c = (compose spec e').isSatisfiedBy c := by
  rw [toString_compose, toString_compose] at hprinted
  have hsame := text_injective (readable_specStyle h) hprinted
  refine ⟨hsame, ?_⟩
  intro c
  rw [hsame]

inductive Letter where
  | a
  | b
  | c
deriving DecidableEq

def Letter.code : Letter -> UInt8
  | .a => 65
  | .b => 66
  | .c => 67

def letter (x : Letter) : Specification (Letter -> Bool) where
  isSatisfiedBy c := c x
  toString := [x.code]

theorem namedAtoms_letter : NamedAtoms letter where
  ne_nil _ := List.cons_ne_nil _ _
  free := by
    intro x c hc
    rw [List.mem_singleton.mp hc]
    cases x <;> decide
  identified := by
    intro x y
    cases x <;> cases y <;> decide

def nested : SpecTree Letter :=
  .combine .or (.combine .and (.atom .a) (.atom .b)) (.apply .not (.atom .c))

theorem nested_read_once :
    (compose letter nested).toString = ascii "((A && B) || (!C))" ∧
      forall e, (compose letter e).toString = ascii "((A && B) || (!C))" -> e = nested := by
  have htext : (compose letter nested).toString = ascii "((A && B) || (!C))" := by
    decide
  refine ⟨htext, ?_⟩
  intro e he
  exact (printed_alike namedAtoms_letter e nested (he.trans htext.symm)).left

end Kernel
end CppCommons
