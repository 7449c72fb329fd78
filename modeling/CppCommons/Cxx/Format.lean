import CppCommons.Foundation.Ascii
import CppCommons.Cxx.ByteString

/-!
# Formatting of numbers

`std::format` with a replacement field such as `{:08x}`, for values that fit the
width of the field, the test for a hexadecimal digit, and decimal fields.
-/

namespace CppCommons
namespace Cxx

open Foundation.Ascii

/-- The field `{:0` `width` `x}` applied to a value below `16 ^ width`. -/
def hexFixed : Nat -> Nat -> Bytes
  | 0, _ => []
  | width + 1, n => hexFixed width (n / 16) ++ [hexDigit (n % 16)]

def isHexDigit (c : UInt8) : Bool :=
  (48 <= c && c <= 57) || (97 <= c && c <= 102) || (65 <= c && c <= 70)

@[simp] theorem length_hexFixed (width n : Nat) : (hexFixed width n).length = width := by
  induction width generalizing n with
  | zero => rfl
  | succ width ih => rw [hexFixed, List.length_append, ih, List.length_singleton]

theorem isHexDigit_hexDigit {d : Nat} (h : d < 16) : isHexDigit (hexDigit d) = true := by
  interval_cases d <;> decide

theorem isHexDigit_of_mem_hexFixed {width n : Nat} {c : UInt8} (h : c ∈ hexFixed width n) :
    isHexDigit c = true := by
  induction width generalizing n with
  | zero => cases h
  | succ width ih =>
      rcases List.mem_append.mp h with hfront | hlast
      · exact ih hfront
      · rw [List.mem_singleton.mp hlast]
        exact isHexDigit_hexDigit (Nat.mod_lt n (by decide))

/-!
## Hexadecimal numbers

Reading digits of either case, and printing them in fields of fixed width.  What was
read is printed in lower case.
-/

def toLower (c : UInt8) : UInt8 :=
  if 65 <= c && c <= 90 then c + 32 else c

def hexDigitNumber (c : UInt8) : Nat :=
  if c <= 57 then c.toNat - 48 else if c <= 70 then c.toNat - 55 else c.toNat - 87

def hexNumber (s : Bytes) : Nat :=
  s.foldl (fun n c => 16 * n + hexDigitNumber c) 0

theorem isHexDigit_iff (c : UInt8) :
    isHexDigit c = true <->
      (48 <= c.toNat ∧ c.toNat <= 57) ∨ (97 <= c.toNat ∧ c.toNat <= 102) ∨
        (65 <= c.toNat ∧ c.toNat <= 70) := by
  simp [isHexDigit, UInt8.le_iff_toNat_le, or_assoc]

theorem hexDigitNumber_lt {c : UInt8} (h : isHexDigit c = true) : hexDigitNumber c < 16 := by
  rw [isHexDigit_iff] at h
  simp only [hexDigitNumber, UInt8.le_iff_toNat_le, UInt8.reduceToNat]
  split_ifs <;> lia

theorem hexDigitNumber_hexDigit {d : Nat} (h : d < 16) : hexDigitNumber (hexDigit d) = d := by
  interval_cases d <;> rfl

theorem hexDigit_hexDigitNumber {c : UInt8} (h : isHexDigit c = true) :
    hexDigit (hexDigitNumber c) = toLower c := by
  rw [isHexDigit_iff] at h
  apply UInt8.toNat_inj.mp
  simp only [hexDigit, hexDigitNumber, toLower, UInt8.le_iff_toNat_le, UInt8.reduceToNat,
    Bool.and_eq_true, decide_eq_true_eq]
  split_ifs <;> simp <;> lia

theorem hexNumber_concat (s : Bytes) (c : UInt8) :
    hexNumber (s ++ [c]) = 16 * hexNumber s + hexDigitNumber c := by
  rw [hexNumber, List.foldl_append]
  rfl

theorem hexNumber_lt {s : Bytes} (h : forall c, c ∈ s -> isHexDigit c = true) :
    hexNumber s < 16 ^ s.length := by
  induction s using List.reverseRecOn with
  | nil => simp [hexNumber]
  | append_singleton s c ih =>
      have hfront := ih (fun x hx => h x (List.mem_append_left _ hx))
      have hlast := hexDigitNumber_lt (h c (by simp))
      rw [hexNumber_concat, List.length_append, List.length_singleton, pow_succ]
      lia

theorem hexFixed_hexNumber {s : Bytes} (h : forall c, c ∈ s -> isHexDigit c = true) :
    hexFixed s.length (hexNumber s) = s.map toLower := by
  induction s using List.reverseRecOn with
  | nil => rfl
  | append_singleton s c ih =>
      have hfront := ih (fun x hx => h x (List.mem_append_left _ hx))
      have hdigit := h c (by simp)
      have hlast := hexDigitNumber_lt hdigit
      rw [hexNumber_concat, List.length_append, List.length_singleton, hexFixed,
        show (16 * hexNumber s + hexDigitNumber c) / 16 = hexNumber s by lia,
        show (16 * hexNumber s + hexDigitNumber c) % 16 = hexDigitNumber c by lia,
        hfront, hexDigit_hexDigitNumber hdigit, List.map_append, List.map_singleton]

theorem hexNumber_hexFixed (width n : Nat) : hexNumber (hexFixed width n) = n % 16 ^ width := by
  induction width generalizing n with
  | zero => simp [hexFixed, hexNumber, Nat.mod_one]
  | succ width ih =>
      have hdigit := hexDigitNumber_hexDigit (Nat.mod_lt n (by decide : 0 < 16))
      have hsplit : n % 16 ^ (width + 1) = n % 16 + 16 * (n / 16 % 16 ^ width) := by
        rw [pow_succ', Nat.mod_mul]
      rw [hexFixed, hexNumber_concat, ih, hdigit, hsplit, Nat.add_comm]

theorem hexFixed_mod (width n : Nat) : hexFixed width (n % 16 ^ width) = hexFixed width n := by
  induction width generalizing n with
  | zero => rfl
  | succ width ih =>
      have hlast : n % 16 ^ (width + 1) % 16 = n % 16 := Nat.mod_mod_of_dvd n (Dvd.intro_left _ rfl)
      have hfront : n % 16 ^ (width + 1) / 16 = n / 16 % 16 ^ width := by
        rw [pow_succ, Nat.mul_comm, Nat.mod_mul_right_div_self]
      rw [hexFixed, hexFixed, hlast, hfront, ih]

theorem hexFixed_add (front width n : Nat) :
    hexFixed (front + width) n = hexFixed front (n / 16 ^ width) ++ hexFixed width n := by
  induction width generalizing n with
  | zero => simp [hexFixed]
  | succ width ih =>
      rw [← Nat.add_assoc, hexFixed, hexFixed, ih, List.append_assoc, Nat.div_div_eq_div_mul,
        ← pow_succ']

/-!
## Decimal fields

`decimalDigits` is the text of a natural number; `decimal` and `zeroPadded` are the
fields made of it.
-/

def decimalDigits (n : Nat) : Bytes :=
  (Nat.toDigits 10 n).map (fun c => UInt8.ofNat c.toNat)

def decimal (n : Int) : Bytes :=
  if n < 0 then 45 :: decimalDigits n.natAbs else decimalDigits n.natAbs

def zeroPadded (width n : Nat) : Bytes :=
  List.replicate (width - (decimalDigits n).length) 48 ++ decimalDigits n

theorem decimalDigits_of_lt {n : Nat} (h : n < 10) : decimalDigits n = [UInt8.ofNat (48 + n)] := by
  rw [decimalDigits, Nat.toDigits_of_lt_base h, List.map_singleton,
    Nat.toNat_digitChar_of_lt_ten h]

theorem decimalDigits_of_le {n : Nat} (h : 10 <= n) :
    decimalDigits n = decimalDigits (n / 10) ++ [UInt8.ofNat (48 + n % 10)] := by
  rw [decimalDigits, Nat.toDigits_of_base_le (by decide) h, List.map_append, List.map_singleton,
    Nat.toNat_digitChar_of_lt_ten (Nat.mod_lt n (by decide))]
  rfl

theorem decimalDigits_ne_nil (n : Nat) : decimalDigits n ≠ [] := by
  by_cases h : n < 10
  · simp [decimalDigits_of_lt h]
  · simp [decimalDigits_of_le (Nat.not_lt.mp h)]

theorem length_zeroPadded {width n : Nat} (h : (decimalDigits n).length <= width) :
    (zeroPadded width n).length = width := by
  rw [zeroPadded, List.length_append, List.length_replicate]
  lia

end Cxx
end CppCommons
