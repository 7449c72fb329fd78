import CppCommons.Cxx.Numeric

/-!
# Printing a double

`operator<<` of a stream with its initial flags, which is the format `%g` with six digits.  The
value is rounded to a decimal number of six digits, a tie to the even one; zeros at its end are
dropped, and its exponent decides between the two notations.
-/

namespace CppCommons
namespace Cxx

open Foundation.Ascii

/-!
## Rounding

The value is the fraction `n / d`, which is not zero.
-/

def roundedQuotient (n d : Nat) : Nat :=
  let q := n / d
  let r := 2 * (n % d)
  if d < r ∨ (r = d ∧ q % 2 = 1) then q + 1 else q

def decimalExponent (n d : Nat) : Int :=
  if d <= n then (decimalDigits (n / d)).length - 1
  else -(decimalDigits ((d - 1) / n)).length

def sixDigits (n d : Nat) : Nat × Int :=
  let e := decimalExponent n d
  let m := roundedQuotient (n * 10 ^ (5 - e).toNat) (d * 10 ^ (e - 5).toNat)
  if m = 10 ^ 6 then (10 ^ 5, e + 1) else (m, e)

/-!
## Notation

The digits with a point among them, or with a point behind the first one and an
exponent.
-/

def withoutZeros (digits : Bytes) : Bytes :=
  digits.rdropWhile (fun c => c == 48)

def withPoint (whole fraction : Bytes) : Bytes :=
  if fraction = [] then whole else whole ++ ascii "." ++ fraction

def exponentText (e : Int) : Bytes :=
  ascii (if e < 0 then "e-" else "e+") ++ zeroPadded 2 e.natAbs

def fractionText (n d : Nat) : Bytes :=
  if n = 0 then ascii "0"
  else
    let digits := decimalDigits (sixDigits n d).fst
    let e := (sixDigits n d).snd
    if e < -4 ∨ 6 <= e then
      withPoint (digits.take 1) (withoutZeros (digits.drop 1)) ++ exponentText e
    else if e < 0 then
      ascii "0." ++ List.replicate (-e - 1).toNat 48 ++ withoutZeros digits
    else withPoint (digits.take (e.toNat + 1)) (withoutZeros (digits.drop (e.toNat + 1)))

def signText (negative : Prop) [Decidable negative] : Bytes :=
  if negative then ascii "-" else []

def rationalText (x : Rat) : Bytes :=
  signText (x < 0) ++ fractionText x.num.natAbs x.den

/-- The bits are a sign, eleven bits of an exponent, and a fraction. -/
def doubleText (bits : UInt64) : Bytes :=
  let exponent := bits.toNat / 2 ^ 52 % 2 ^ 11
  let fraction := bits.toNat % 2 ^ 52
  signText (2 ^ 63 <= bits.toNat) ++
    if exponent = 2047 then (if fraction = 0 then ascii "inf" else ascii "nan")
    else if exponent = 0 then fractionText fraction (2 ^ 1074)
    else fractionText ((2 ^ 52 + fraction) * 2 ^ exponent) (2 ^ 1075)

example : doubleText 0x3FB999999999999A = ascii "0.1" := by decide +kernel

example : doubleText 0x412E847F00000000 = ascii "1e+06" := by decide +kernel

example : doubleText 0x8000000000000000 = ascii "-0" := by decide +kernel

/-!
## Visible characters

None of the texts has a blank or a control character.
-/

def Visible (s : Bytes) : Prop :=
  forall c, c ∈ s -> 32 < c

theorem Visible.append {a b : Bytes} (ha : Visible a) (hb : Visible b) : Visible (a ++ b) := by
  intro c hc
  rcases List.mem_append.mp hc with hc | hc
  · exact ha c hc
  · exact hb c hc

theorem Visible.of_subset {a b : Bytes} (hb : Visible b) (hsubset : a ⊆ b) : Visible a :=
  fun c hc => hb c (hsubset hc)

theorem visible_of_all {s : Bytes} (h : s.all (fun c => decide (32 < c)) = true) : Visible s :=
  fun c hc => of_decide_eq_true (List.all_eq_true.mp h c hc)

theorem visible_decimalDigits (n : Nat) : Visible (decimalDigits n) := by
  intro c hc
  have hdigit := (isDigit_iff c).mp (isDigit_of_mem_decimalDigits hc)
  have hblank : (32 : UInt8).toNat = 32 := rfl
  rw [UInt8.lt_iff_toNat_lt]
  lia

theorem visible_zeros (n : Nat) : Visible (List.replicate n 48) := by
  intro c hc
  rw [List.eq_of_mem_replicate hc]
  decide

theorem visible_withoutZeros {s : Bytes} (h : Visible s) : Visible (withoutZeros s) :=
  h.of_subset (List.rdropWhile_prefix _ _).subset

theorem visible_withPoint {whole fraction : Bytes} (hwhole : Visible whole)
    (hfraction : Visible fraction) : Visible (withPoint whole fraction) := by
  rw [withPoint]
  split
  · exact hwhole
  · exact (hwhole.append (visible_of_all (by decide))).append hfraction

theorem visible_exponentText (e : Int) : Visible (exponentText e) := by
  have hsign : Visible (ascii (if e < 0 then "e-" else "e+")) := by
    split
    · exact visible_of_all (by decide)
    · exact visible_of_all (by decide)
  exact hsign.append ((visible_zeros _).append (visible_decimalDigits _))

theorem visible_fractionText (n d : Nat) : Visible (fractionText n d) := by
  have hdigits := visible_decimalDigits (sixDigits n d).fst
  have htake : forall k, Visible ((decimalDigits (sixDigits n d).fst).take k) :=
    fun k => hdigits.of_subset (List.take_subset k _)
  have hdrop : forall k, Visible (withoutZeros ((decimalDigits (sixDigits n d).fst).drop k)) :=
    fun k => visible_withoutZeros (hdigits.of_subset (List.drop_subset k _))
  simp only [fractionText]
  split
  · exact visible_of_all (by decide)
  · split
    · exact (visible_withPoint (htake 1) (hdrop 1)).append (visible_exponentText _)
    · split
      · exact ((visible_of_all (by decide)).append (visible_zeros _)).append
          (visible_withoutZeros hdigits)
      · exact visible_withPoint (htake _) (hdrop _)

theorem visible_signText (negative : Prop) [Decidable negative] : Visible (signText negative) := by
  rw [signText]
  split
  · exact visible_of_all (by decide)
  · exact visible_of_all rfl

theorem visible_rationalText (x : Rat) : Visible (rationalText x) :=
  (visible_signText _).append (visible_fractionText _ _)

theorem visible_doubleText (bits : UInt64) : Visible (doubleText bits) := by
  refine (visible_signText _).append ?_
  split
  · split
    · exact visible_of_all (by decide)
    · exact visible_of_all (by decide)
  · split
    · exact visible_fractionText _ _
    · exact visible_fractionText _ _

end Cxx
end CppCommons
