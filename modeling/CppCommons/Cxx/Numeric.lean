import CppCommons.Cxx.Format

/-!
# Numbers in strings

`std::stoi`, `std::stoll` and `std::stoull` in base ten: leading white space, an
optional sign and the longest run of digits.  They throw when there is no digit
or the number is out of range, and say where the number ends.
-/

namespace CppCommons
namespace Cxx

open Foundation.Ascii

/-- How the evaluation of a C++ expression can end. -/
inductive Evaluation (exn value : Type) where
  | returns (result : value)
  | throws (error : exn)
  /-- a signed overflow, after which the standard says nothing -/
  | undefined
deriving DecidableEq

def isSpace (c : UInt8) : Bool :=
  c == 32 || (9 <= c && c <= 13)

def decimalValue (digits : Bytes) : Int :=
  digits.foldl (fun n d => 10 * n + ((d.toNat : Int) - 48)) 0

def fitsInt64 (n : Int) : Bool :=
  -(2 ^ 63) <= n && n < 2 ^ 63

def fitsInt32 (n : Int) : Bool :=
  -(2 ^ 31) <= n && n < 2 ^ 31

def splitSign : Bytes -> Int × Bytes
  | 43 :: rest => (1, rest)
  | 45 :: rest => (-1, rest)
  | rest => (1, rest)

/-- The number at the front of a string, and the position behind it. -/
def readInteger (s : Bytes) : Option (Int × Nat) :=
  let signed := splitSign (s.dropWhile isSpace)
  let digits := signed.snd.takeWhile isDigit
  if digits.isEmpty then none
  else
    some (signed.fst * decimalValue digits,
      s.length - signed.snd.length + digits.length)

/-- `std::stoll(s, &pos)`; `none` is an exception. -/
def stoll (s : Bytes) : Option (Int × Nat) :=
  (readInteger s).filter (fun number => fitsInt64 number.fst)

/-- `std::stoi(s)`; `none` is an exception. -/
def stoi (s : Bytes) : Option Int :=
  ((readInteger s).filter (fun number => fitsInt32 number.fst)).map Prod.fst

/-- `std::stoull(s)`, which takes a minus sign modulo `2^64`; `none` is an exception. -/
def stoull (s : Bytes) : Option UInt64 :=
  ((readInteger s).filter (fun number => number.fst.natAbs < 2 ^ 64)).map
    (fun number => UInt64.ofInt number.fst)

example : stoll (ascii " -250ms") = some (-250, 5) := by decide

/-!
## Reading what was printed

The value of a run of digits, and that the texts of `Format` have the values they
were made from.
-/

def fixedPointValue (text : Bytes) : Rat :=
  let signed := splitSign text
  let whole := signed.snd.takeWhile isDigit
  let fraction := signed.snd.drop (whole.length + 1)
  signed.fst * (decimalValue whole + decimalValue fraction / 10 ^ fraction.length)

theorem decimalValue_concat (digits : Bytes) (d : UInt8) :
    decimalValue (digits ++ [d]) = 10 * decimalValue digits + ((d.toNat : Int) - 48) := by
  rw [decimalValue, List.foldl_append]
  rfl

theorem decimalValue_nonneg {digits : Bytes} (h : forall c, c ∈ digits -> isDigit c = true) :
    0 <= decimalValue digits := by
  induction digits using List.reverseRecOn with
  | nil => exact Int.le_refl 0
  | append_singleton digits d ih =>
      have hfront := ih (fun c hc => h c (List.mem_append_left [d] hc))
      have hdigit := (isDigit_iff d).mp (h d (List.mem_append_right digits List.mem_cons_self))
      rw [decimalValue_concat]
      lia

theorem decimalValue_decimalDigits (n : Nat) : decimalValue (decimalDigits n) = n := by
  induction n using Nat.strong_induction_on with
  | h n ih =>
      by_cases hsmall : n < 10
      · have hone := decimalValue_concat [] (UInt8.ofNat (48 + n))
        rw [List.nil_append, toNat_digit hsmall] at hone
        rw [decimalDigits_of_lt hsmall, hone]
        simp [decimalValue]
      · have hrest := ih (n / 10) (by lia)
        rw [decimalDigits_of_le (Nat.not_lt.mp hsmall), decimalValue_concat, hrest,
          toNat_digit (Nat.mod_lt n (by decide))]
        lia

theorem isDigit_of_mem_decimalDigits {n : Nat} {c : UInt8} (h : c ∈ decimalDigits n) :
    isDigit c = true := by
  induction n using Nat.strong_induction_on with
  | h n ih =>
      by_cases hsmall : n < 10
      · rw [decimalDigits_of_lt hsmall, List.mem_singleton] at h
        rw [h]
        exact isDigit_digit hsmall
      · rw [decimalDigits_of_le (Nat.not_lt.mp hsmall)] at h
        rcases List.mem_append.mp h with hfront | hlast
        · exact ih (n / 10) (by lia) hfront
        · rw [List.mem_singleton.mp hlast]
          exact isDigit_digit (Nat.mod_lt n (by decide))

theorem decimalValue_zeroPadded (width n : Nat) : decimalValue (zeroPadded width n) = n := by
  have hzeros : forall k, (List.replicate k (48 : UInt8)).foldl
      (fun n d => 10 * n + ((d.toNat : Int) - 48)) 0 = 0 := by
    intro k
    induction k with
    | zero => rfl
    | succ k ih => exact ih
  rw [zeroPadded, decimalValue, List.foldl_append, hzeros]
  exact decimalValue_decimalDigits n

theorem splitSign_of_isDigit {d : UInt8} (h : isDigit d = true) (rest : Bytes) :
    splitSign (d :: rest) = (1, d :: rest) := by
  unfold splitSign
  split
  · next hplus =>
      injection hplus with hd
      rw [hd] at h
      cases h
  · next hminus =>
      injection hminus with hd
      rw [hd] at h
      cases h
  · rfl

theorem splitSign_decimal (n : Int) (rest : Bytes) :
    splitSign (decimal n ++ rest) =
      (if n < 0 then -1 else 1, decimalDigits n.natAbs ++ rest) := by
  unfold decimal
  by_cases hneg : n < 0
  · rw [if_pos hneg, if_pos hneg]
    rfl
  · rw [if_neg hneg, if_neg hneg]
    cases hdigits : decimalDigits n.natAbs with
    | nil => exact absurd hdigits (decimalDigits_ne_nil n.natAbs)
    | cons d digits =>
        have hd : isDigit d = true := by
          apply isDigit_of_mem_decimalDigits (n := n.natAbs)
          rw [hdigits]
          exact List.mem_cons_self
        exact splitSign_of_isDigit hd (digits ++ rest)

theorem fixedPointValue_decimal (n : Int) (fraction : Bytes) :
    fixedPointValue (decimal n ++ 46 :: fraction) =
      (if n < 0 then -1 else 1) *
        ((n.natAbs : Rat) + decimalValue fraction / 10 ^ fraction.length) := by
  have hwhole : (decimalDigits n.natAbs ++ 46 :: fraction).takeWhile isDigit =
      decimalDigits n.natAbs := by
    rw [List.takeWhile_append_of_pos (fun c hc => isDigit_of_mem_decimalDigits hc)]
    simp [isDigit]
  have hfraction : (decimalDigits n.natAbs ++ 46 :: fraction).drop
      ((decimalDigits n.natAbs).length + 1) = fraction := by
    simp
  simp only [fixedPointValue, splitSign_decimal, hwhole, hfraction, decimalValue_decimalDigits,
    Int.cast_ite, Int.cast_neg, Int.cast_one, Int.cast_natCast]

/-!
## The accepted numerals

A numeral is what these functions accept at the front of a string.  It ends
where no further digit follows, so a string has at most one.
-/

inductive SignMark where
  | absent
  | plus
  | minus
deriving DecidableEq

namespace SignMark

def text : SignMark -> Bytes
  | absent => []
  | plus => [43]
  | minus => [45]

def factor : SignMark -> Int
  | absent => 1
  | plus => 1
  | minus => -1

end SignMark

structure Numeral where
  spaces : Bytes
  sign : SignMark
  digits : Bytes
  isSpace_spaces : forall c, c ∈ spaces -> isSpace c = true
  isDigit_digits : forall c, c ∈ digits -> isDigit c = true
  digits_ne_nil : digits ≠ []

def NoDigitNext (rest : Bytes) : Prop :=
  rest.takeWhile isDigit = []

namespace Numeral

def text (m : Numeral) : Bytes :=
  m.spaces ++ (m.sign.text ++ m.digits)

def value (m : Numeral) : Int :=
  m.sign.factor * decimalValue m.digits

end Numeral

theorem isSpace_of_mem_nil (c : UInt8) (h : c ∈ ([] : Bytes)) : isSpace c = true :=
  absurd h List.not_mem_nil

theorem not_isSpace_of_isDigit {d : UInt8} (h : isDigit d = true) : isSpace d = false := by
  rw [isDigit_iff] at h
  simp only [isSpace, Bool.or_eq_false_iff, beq_eq_false_iff_ne, Bool.and_eq_false_iff,
    decide_eq_false_iff_not, UInt8.le_iff_toNat_le, ne_eq, ← UInt8.toNat_inj]
  have hspaces : (32 : UInt8).toNat = 32 ∧ (13 : UInt8).toNat = 13 :=
    ⟨rfl, rfl⟩
  lia

theorem splitSign_text_append (sign : SignMark) {digits : Bytes}
    (hdigits : forall c, c ∈ digits -> isDigit c = true) (hne : digits ≠ []) (rest : Bytes) :
    splitSign (sign.text ++ (digits ++ rest)) = (sign.factor, digits ++ rest) := by
  cases sign with
  | plus => rfl
  | minus => rfl
  | absent =>
      cases digits with
      | nil => exact absurd rfl hne
      | cons d digits => exact splitSign_of_isDigit (hdigits d List.mem_cons_self) _

theorem dropWhile_text_append (m : Numeral) (rest : Bytes) :
    (m.text ++ rest).dropWhile isSpace = m.sign.text ++ (m.digits ++ rest) := by
  have hspaces : m.spaces.dropWhile isSpace = [] :=
    List.dropWhile_eq_nil_iff.mpr m.isSpace_spaces
  rw [Numeral.text, List.append_assoc, List.append_assoc, List.dropWhile_append, hspaces]
  cases hsign : m.sign with
  | plus => rfl
  | minus => rfl
  | absent =>
      cases hdigits : m.digits with
      | nil => exact absurd hdigits m.digits_ne_nil
      | cons d digits =>
          have hd : isDigit d = true := by
            apply m.isDigit_digits
            rw [hdigits]
            exact List.mem_cons_self
          simp [SignMark.text, not_isSpace_of_isDigit hd]

theorem readInteger_text_append (m : Numeral) {rest : Bytes} (hrest : NoDigitNext rest) :
    readInteger (m.text ++ rest) = some (m.value, m.text.length) := by
  have hdigits : (m.digits ++ rest).takeWhile isDigit = m.digits := by
    rw [List.takeWhile_append_of_pos m.isDigit_digits, hrest, List.append_nil]
  have hne : m.digits.isEmpty = false := by
    simpa using m.digits_ne_nil
  have hlength : (m.text ++ rest).length - (m.digits ++ rest).length + m.digits.length =
      m.text.length := by
    simp only [Numeral.text, List.length_append]
    lia
  simp only [readInteger, dropWhile_text_append,
    splitSign_text_append m.sign m.isDigit_digits m.digits_ne_nil, hdigits, hne, hlength]
  rfl

theorem exists_signMark (s : Bytes) :
    exists sign : SignMark, s = sign.text ++ (splitSign s).snd := by
  unfold splitSign
  split
  · exact ⟨.plus, rfl⟩
  · exact ⟨.minus, rfl⟩
  · exact ⟨.absent, rfl⟩

theorem noDigitNext_dropWhile (s : Bytes) : NoDigitNext (s.dropWhile isDigit) := by
  unfold NoDigitNext
  cases hrest : s.dropWhile isDigit with
  | nil => rfl
  | cons d rest =>
      have hd : isDigit d = false := by
        have hhead := List.head?_dropWhile_not isDigit s
        rw [hrest] at hhead
        simpa using hhead
      simp [hd]

theorem exists_numeral_of_readInteger {s : Bytes} {number : Int × Nat}
    (h : readInteger s = some number) :
    exists (m : Numeral) (rest : Bytes), s = m.text ++ rest ∧ NoDigitNext rest ∧
      number = (m.value, m.text.length) := by
  rcases exists_signMark (s.dropWhile isSpace) with ⟨sign, hsplit⟩
  have hne : (splitSign (s.dropWhile isSpace)).snd.takeWhile isDigit ≠ [] := by
    intro hnil
    simp [readInteger, hnil] at h
  generalize (splitSign (s.dropWhile isSpace)).snd = unsigned at hsplit hne
  let m : Numeral :=
    { spaces := s.takeWhile isSpace
      sign := sign
      digits := unsigned.takeWhile isDigit
      isSpace_spaces := fun c hc => List.mem_takeWhile_imp hc
      isDigit_digits := fun c hc => List.mem_takeWhile_imp hc
      digits_ne_nil := hne }
  have hs : s = m.text ++ unsigned.dropWhile isDigit := by
    rw [Numeral.text, List.append_assoc, List.append_assoc, List.takeWhile_append_dropWhile,
      ← hsplit, List.takeWhile_append_dropWhile]
  have hrest := noDigitNext_dropWhile unsigned
  refine ⟨m, unsigned.dropWhile isDigit, hs, hrest, ?_⟩
  have hread := readInteger_text_append m hrest
  rw [← hs, h] at hread
  exact Option.some.inj hread

theorem readInteger_eq_some_iff (s : Bytes) (number : Int × Nat) :
    readInteger s = some number <-> exists (m : Numeral) (rest : Bytes),
      s = m.text ++ rest ∧ NoDigitNext rest ∧ number = (m.value, m.text.length) := by
  constructor
  · exact exists_numeral_of_readInteger
  · intro h
    rcases h with ⟨m, rest, rfl, hrest, rfl⟩
    exact readInteger_text_append m hrest

theorem stoll_eq_some_iff (s : Bytes) (number : Int × Nat) :
    stoll s = some number <-> exists (m : Numeral) (rest : Bytes),
      s = m.text ++ rest ∧ NoDigitNext rest ∧ fitsInt64 m.value = true ∧
        number = (m.value, m.text.length) := by
  rw [stoll, Option.filter_eq_some_iff, readInteger_eq_some_iff]
  constructor
  · intro h
    rcases h with ⟨⟨m, rest, hs, hrest, hnumber⟩, hfits⟩
    rw [hnumber] at hfits
    exact ⟨m, rest, hs, hrest, hfits, hnumber⟩
  · intro h
    rcases h with ⟨m, rest, hs, hrest, hfits, hnumber⟩
    exact ⟨⟨m, rest, hs, hrest, hnumber⟩, by rw [hnumber]; exact hfits⟩

theorem stoi_eq_some_iff (s : Bytes) (n : Int) :
    stoi s = some n <-> exists (m : Numeral) (rest : Bytes),
      s = m.text ++ rest ∧ NoDigitNext rest ∧ fitsInt32 m.value = true ∧ n = m.value := by
  rw [stoi, Option.map_eq_some_iff]
  constructor
  · intro h
    rcases h with ⟨number, hnumber, rfl⟩
    rw [Option.filter_eq_some_iff, readInteger_eq_some_iff] at hnumber
    rcases hnumber with ⟨⟨m, rest, hs, hrest, rfl⟩, hfits⟩
    exact ⟨m, rest, hs, hrest, hfits, rfl⟩
  · intro h
    rcases h with ⟨m, rest, hs, hrest, hfits, rfl⟩
    refine ⟨(m.value, m.text.length), ?_, rfl⟩
    rw [Option.filter_eq_some_iff, readInteger_eq_some_iff]
    exact ⟨⟨m, rest, hs, hrest, rfl⟩, hfits⟩

theorem stoull_of_readInteger {s : Bytes} {number : Int × Nat} (h : readInteger s = some number)
    (hpos : 0 <= number.fst) (hfits : number.fst < 2 ^ 64) :
    exists n, stoull s = some n ∧ (n.toNat : Int) = number.fst := by
  refine ⟨UInt64.ofInt number.fst, ?_, ?_⟩
  · have hin : decide (number.fst.natAbs < 2 ^ 64) = true := by
      rw [decide_eq_true_iff]
      lia
    rw [stoull, h, Option.filter_some, if_pos hin, Option.map_some]
  · rw [UInt64.ofInt, UInt64.toNat_ofNat']
    lia

theorem stoull_eq_none {s : Bytes} {number : Int × Nat} (h : readInteger s = some number)
    (hlarge : 2 ^ 64 <= number.fst) : stoull s = none := by
  have hout : ¬ decide (number.fst.natAbs < 2 ^ 64) = true := by
    rw [decide_eq_true_iff]
    lia
  rw [stoull, h, Option.filter_some, if_neg hout, Option.map_none]

theorem numeral_unique {m m' : Numeral} {rest rest' : Bytes} (hrest : NoDigitNext rest)
    (hrest' : NoDigitNext rest') (h : m.text ++ rest = m'.text ++ rest') :
    m.value = m'.value ∧ rest = rest' := by
  have hread := readInteger_text_append m hrest
  rw [h, readInteger_text_append m' hrest'] at hread
  have hpair := Prod.mk.inj (Option.some.inj hread)
  exact ⟨hpair.left.symm, (List.append_inj h hpair.right.symm).right⟩

end Cxx
end CppCommons
