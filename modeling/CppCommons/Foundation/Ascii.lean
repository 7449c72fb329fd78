import Mathlib.Tactic.IntervalCases

/-!
# ASCII

The characters that end lines, words and quoted texts, and the digits.
-/

namespace CppCommons
namespace Foundation
namespace Ascii

def newline : UInt8 := 10

def blank : UInt8 := 32

def quote : UInt8 := 34

def backslash : UInt8 := 92

def isDigit (c : UInt8) : Bool :=
  48 <= c && c <= 57

def hexDigit (d : Nat) : UInt8 :=
  if d < 10 then UInt8.ofNat (48 + d) else UInt8.ofNat (87 + d)

theorem isDigit_iff (c : UInt8) : isDigit c = true <-> 48 <= c.toNat ∧ c.toNat <= 57 := by
  simp [isDigit, UInt8.le_iff_toNat_le]

theorem isDigit_digit {d : Nat} (h : d < 10) : isDigit (UInt8.ofNat (48 + d)) = true := by
  interval_cases d <;> rfl

theorem toNat_digit {d : Nat} (h : d < 10) : (UInt8.ofNat (48 + d)).toNat = 48 + d := by
  rw [UInt8.toNat_ofNat']
  exact Nat.mod_eq_of_lt (by lia)

end Ascii
end Foundation
end CppCommons
