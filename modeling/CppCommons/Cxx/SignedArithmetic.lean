import CppCommons.Cxx.Numeric

/-!
# Signed arithmetic

Operators of `int64_t`.  A result that does not fit is undefined behaviour, so
an expression is an `Evaluation`, and what follows an undefined operand is
undefined too.
-/

namespace CppCommons
namespace Cxx

namespace Evaluation

variable {exn value result : Type}

def andThen : Evaluation exn value -> (value -> Evaluation exn result) -> Evaluation exn result
  | returns v, next => next v
  | throws e, _ => throws e
  | undefined, _ => undefined

instance : Monad (Evaluation exn) where
  pure := returns
  bind := andThen

@[simp] theorem pure_eq (v : value) : (pure v : Evaluation exn value) = returns v := rfl

@[simp] theorem returns_bind (v : value) (next : value -> Evaluation exn result) :
    (returns v : Evaluation exn value) >>= next = next v := rfl

@[simp] theorem throws_bind (e : exn) (next : value -> Evaluation exn result) :
    (throws e : Evaluation exn value) >>= next = throws e := rfl

@[simp] theorem undefined_bind (next : value -> Evaluation exn result) :
    (undefined : Evaluation exn value) >>= next = undefined := rfl

instance : LawfulMonad (Evaluation exn) :=
  LawfulMonad.mk' (Evaluation exn)
    (by intro A x; cases x <;> rfl)
    (by intro A B a f; rfl)
    (by intro A B C x f g; cases x <;> rfl)

end Evaluation

section Int64Operators

variable {exn : Type}

def signed64 (n : Int) : Evaluation exn Int64 :=
  if fitsInt64 n then .returns (Int64.ofInt n) else .undefined

def add64 (a b : Int64) : Evaluation exn Int64 :=
  signed64 (a.toInt + b.toInt)

def sub64 (a b : Int64) : Evaluation exn Int64 :=
  signed64 (a.toInt - b.toInt)

def mul64 (a b : Int64) : Evaluation exn Int64 :=
  signed64 (a.toInt * b.toInt)

def neg64 (a : Int64) : Evaluation exn Int64 :=
  signed64 (-a.toInt)

theorem fitsInt64_iff (n : Int) : fitsInt64 n = true <-> -(2 ^ 63) <= n ∧ n < 2 ^ 63 := by
  simp [fitsInt64]

theorem signed64_of_fits {n : Int} (h : fitsInt64 n = true) :
    (signed64 n : Evaluation exn Int64) = .returns (Int64.ofInt n) :=
  if_pos h

theorem signed64_of_not_fits {n : Int} (h : fitsInt64 n ≠ true) :
    (signed64 n : Evaluation exn Int64) = .undefined :=
  if_neg h

theorem toInt_ofInt_of_fits {n : Int} (h : fitsInt64 n = true) : (Int64.ofInt n).toInt = n :=
  Int64.toInt_ofInt_of_le ((fitsInt64_iff n).mp h).left ((fitsInt64_iff n).mp h).right

end Int64Operators

/-!
## Conversions to `int`

`static_cast<int>` of a size keeps the low 32 bits and reads them with a sign.
-/

def toInt32 (n : Nat) : Int := (n : Int).bmod (2 ^ 32)

theorem toInt32_of_lt {n : Nat} (h : n < 2 ^ 31) : toInt32 n = n := by
  have hlow : -((2 ^ 32 : Nat) / 2 : Int) <= n := by omega
  have hhigh : (n : Int) < ((2 ^ 32 : Nat) + 1) / 2 := by omega
  exact Int.bmod_eq_of_le hlow hhigh

theorem toNat_toInt32_lt {n : Nat} (h : 2 ^ 31 <= n) : (toInt32 n).toNat < n := by
  have hbound : toInt32 n < ((2 ^ 32 : Nat) + 1) / 2 := Int.bmod_lt (by decide)
  have hlt : toInt32 n < 2 ^ 31 := by omega
  omega

end Cxx
end CppCommons
