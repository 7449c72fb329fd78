import CppCommons.Foundation.BitString

/-!
# SHA-256 and HMAC

The hash function of RFC 6234 on bit strings, and the keyed construction over
any hash function on byte strings.  The constants are the ones the standard
describes: the first 32 bits of the fractional parts of the roots of the first
primes.  Nothing here refers to an implementation.
-/

namespace CppCommons
namespace Foundation
namespace SecureHash

open BitString

/-!
## Functions and constants

The six functions on words, and the constants as fractional parts of roots of
primes.
-/

abbrev Word := BitVec 32

def ch (x y z : Word) : Word :=
  (x &&& y) ^^^ (~~~x &&& z)

def maj (x y z : Word) : Word :=
  (x &&& y) ^^^ (x &&& z) ^^^ (y &&& z)

def bigSigma0 (x : Word) : Word :=
  x.rotateRight 2 ^^^ x.rotateRight 13 ^^^ x.rotateRight 22

def bigSigma1 (x : Word) : Word :=
  x.rotateRight 6 ^^^ x.rotateRight 11 ^^^ x.rotateRight 25

def smallSigma0 (x : Word) : Word :=
  x.rotateRight 7 ^^^ x.rotateRight 18 ^^^ (x >>> 3)

def smallSigma1 (x : Word) : Word :=
  x.rotateRight 17 ^^^ x.rotateRight 19 ^^^ (x >>> 10)

/-- The first 32 bits of the fractional part of the `d`-th root of `p`. -/
noncomputable def rootFraction (d p : Nat) : Word :=
  BitVec.ofNat 32 ⌊Int.fract ((p : ℝ) ^ ((d : ℝ)⁻¹)) * 2 ^ 32⌋₊

noncomputable def roundConstant (t : Nat) : Word :=
  rootFraction 3 (Nat.nth Nat.Prime t)

noncomputable def initialValue (i : Nat) : Word :=
  rootFraction 2 (Nat.nth Nat.Prime i)

/-!
## Padding and parsing

A message is followed by a one, the least number of zeros and its length in 64 bits,
and read as words of 32 bits.
-/

noncomputable def zeroBits (length : Nat) : Nat :=
  sInf { k | (length + 1 + k) % 512 = 448 }

noncomputable def pad (message : List Bool) : List Bool :=
  message ++ true :: (List.replicate (zeroBits message.length) false ++
    lowBits 64 message.length)

/-- The number that a bit string stands for, most significant bit first. -/
def value (bits : List Bool) : Nat :=
  bits.foldl (fun n b => 2 * n + b.toNat) 0

def blockWord (padded : List Bool) (i t : Nat) : Word :=
  BitVec.ofNat 32 (value ((padded.drop (512 * i + 32 * t)).take 32))

/-!
## Computation

The message schedule, the rounds on eight registers and the digest of all blocks.
-/

def scheduleWord (m : Nat -> Word) (t : Nat) : Word :=
  if t < 16 then m t
  else
    smallSigma1 (scheduleWord m (t - 2)) + scheduleWord m (t - 7) +
      smallSigma0 (scheduleWord m (t - 15)) + scheduleWord m (t - 16)
termination_by t
decreasing_by all_goals lia

@[ext] structure Registers where
  a : Word
  b : Word
  c : Word
  d : Word
  e : Word
  f : Word
  g : Word
  h : Word

noncomputable def round (w : Nat -> Word) (s : Registers) (t : Nat) : Registers :=
  let t1 := s.h + bigSigma1 s.e + ch s.e s.f s.g + roundConstant t + w t
  let t2 := bigSigma0 s.a + maj s.a s.b s.c
  { a := t1 + t2, b := s.a, c := s.b, d := s.c, e := s.d + t1, f := s.e, g := s.f, h := s.g }

noncomputable def compress (m : Nat -> Word) (s : Registers) : Registers :=
  let r := (List.range 64).foldl (round (scheduleWord m)) s
  { a := r.a + s.a, b := r.b + s.b, c := r.c + s.c, d := r.d + s.d
    e := r.e + s.e, f := r.f + s.f, g := r.g + s.g, h := r.h + s.h }

noncomputable def initial : Registers where
  a := initialValue 0
  b := initialValue 1
  c := initialValue 2
  d := initialValue 3
  e := initialValue 4
  f := initialValue 5
  g := initialValue 6
  h := initialValue 7

def Registers.bits (s : Registers) : List Bool :=
  spell 32 ([s.a, s.b, s.c, s.d, s.e, s.f, s.g, s.h].map BitVec.toNat)

noncomputable def sha256 (message : List Bool) : List Bool :=
  let padded := pad message
  ((List.range (padded.length / 512)).foldl (fun s i => compress (blockWord padded i) s)
    initial).bits

/-!
## Byte strings

The hash of a byte string, and the keyed hash over any hash function with blocks of
`blockSize` bytes.
-/

def octetBits (s : List UInt8) : List Bool :=
  spell 8 (s.map UInt8.toNat)

def octets (bits : List Bool) : List UInt8 :=
  (List.range (bits.length / 8)).map
    (fun i => UInt8.ofNat (value ((bits.drop (8 * i)).take 8)))

noncomputable def sha256Octets (message : List UInt8) : List UInt8 :=
  octets (sha256 (octetBits message))

/-- The keyed hash over a hash function with blocks of `blockSize` bytes. -/
def hmac (hash : List UInt8 -> List UInt8) (blockSize : Nat) (key text : List UInt8) :
    List UInt8 :=
  let key := if blockSize < key.length then hash key else key
  let block := key ++ List.replicate (blockSize - key.length) 0
  hash (block.map (fun x => x ^^^ 0x5c) ++ hash (block.map (fun x => x ^^^ 0x36) ++ text))

/-!
## Evaluating the definitions

Lemmas by which a program can be compared with the definitions: bits of a root by
powers of integers, primes by trial division, numbers by their bits.
-/

theorem le_root_mul_iff {d : Nat} (hd : d ≠ 0) (p n k : Nat) :
    (n : ℝ) ≤ (p : ℝ) ^ ((d : ℝ)⁻¹) * k <-> n ^ d ≤ p * k ^ d := by
  have hp : (0 : ℝ) ≤ (p : ℝ) := p.cast_nonneg
  have hroot : (0 : ℝ) ≤ (p : ℝ) ^ ((d : ℝ)⁻¹) := Real.rpow_nonneg hp _
  have hpow : ((p : ℝ) ^ ((d : ℝ)⁻¹) * k) ^ d = p * k ^ d := by
    rw [mul_pow, Real.rpow_inv_natCast_pow hp hd]
  rw [← pow_le_pow_iff_left₀ n.cast_nonneg (mul_nonneg hroot k.cast_nonneg) hd, hpow]
  exact_mod_cast Iff.rfl

theorem rootFraction_eq {d p n c : Nat} (hd : d ≠ 0) (hn : n ^ d ≤ p) (hn' : p < (n + 1) ^ d)
    (hc : (n * 2 ^ 32 + c) ^ d ≤ p * (2 ^ 32) ^ d)
    (hc' : p * (2 ^ 32) ^ d < (n * 2 ^ 32 + c + 1) ^ d) :
    rootFraction d p = BitVec.ofNat 32 c := by
  have hle : (n : ℝ) ≤ (p : ℝ) ^ ((d : ℝ)⁻¹) := by
    simpa using (le_root_mul_iff hd p n 1).mpr (by simpa using hn)
  have hlt : (p : ℝ) ^ ((d : ℝ)⁻¹) < n + 1 := by
    have hnot := (le_root_mul_iff hd p (n + 1) 1).not.mpr (by simpa using hn')
    simpa using hnot
  have hscaled : ((n * 2 ^ 32 + c : Nat) : ℝ) ≤ (p : ℝ) ^ ((d : ℝ)⁻¹) * (2 ^ 32 : Nat) :=
    (le_root_mul_iff hd p _ _).mpr hc
  have hscaled' : (p : ℝ) ^ ((d : ℝ)⁻¹) * (2 ^ 32 : Nat) < ((n * 2 ^ 32 + c + 1 : Nat) : ℝ) := by
    exact not_le.mp ((le_root_mul_iff hd p _ _).not.mpr (by lia))
  have hfloor : ⌊(p : ℝ) ^ ((d : ℝ)⁻¹)⌋ = (n : Int) := by
    rw [Int.floor_eq_iff]
    exact ⟨by exact_mod_cast hle, by exact_mod_cast hlt⟩
  have hfraction : ⌊Int.fract ((p : ℝ) ^ ((d : ℝ)⁻¹)) * 2 ^ 32⌋₊ = c := by
    rw [Int.fract, hfloor, Int.cast_natCast,
      Nat.floor_eq_iff (mul_nonneg (sub_nonneg.mpr hle) (by positivity))]
    push_cast at hscaled hscaled'
    constructor <;> linarith
  rw [rootFraction, hfraction]

theorem length_filter_range (P : Nat -> Prop) [DecidablePred P] (n : Nat) :
    ((List.range n).filter P).length = Nat.count P n := by
  induction n with
  | zero => simp
  | succ n ih =>
      rw [List.range_succ, List.filter_append, List.length_append, ih, Nat.count_succ]
      by_cases hn : P n <;> simp [hn]

theorem nth_of_filter_range {P : Nat -> Prop} [DecidablePred P] {n t x : Nat}
    (h : ((List.range n).filter P)[t]? = some x) : Nat.nth P t = x := by
  induction n generalizing t with
  | zero => simp at h
  | succ n ih =>
      rw [List.range_succ, List.filter_append] at h
      rcases lt_or_ge t ((List.range n).filter P).length with hlt | hge
      · rw [List.getElem?_append_left hlt] at h
        exact ih h
      · rw [List.getElem?_append_right hge, List.filter_singleton] at h
        by_cases hn : P n
        · simp only [hn, decide_true, cond_true, List.getElem?_singleton] at h
          split_ifs at h with hzero
          have hcount : t = Nat.count P n := by
            rw [← length_filter_range]
            lia
          rw [hcount, Nat.nth_count hn]
          exact Option.some.inj h
        · simp [hn] at h

def isTrialPrime (k n : Nat) : Bool :=
  2 ≤ n && (List.range k).all (fun m => m < 2 || n % m != 0 || m == n)

theorem isTrialPrime_iff {k n : Nat} (h : n < k * k) :
    isTrialPrime k n = true <-> Nat.Prime n := by
  have htrial : isTrialPrime k n = true <-> 2 ≤ n ∧ forall m, m < k -> 2 ≤ m -> m ∣ n -> m = n := by
    simp only [isTrialPrime, Bool.and_eq_true, decide_eq_true_eq, List.all_eq_true, List.mem_range,
      Bool.or_eq_true, bne_iff_ne, beq_iff_eq, Nat.dvd_iff_mod_eq_zero]
    grind
  rw [htrial]
  constructor
  · intro hsmall
    by_contra hprime
    have hle := Nat.minFac_sq_le_self (by lia) hprime
    have hfactor : n.minFac = n := by
      apply hsmall.right n.minFac
      · nlinarith
      · exact (Nat.minFac_prime (by lia)).two_le
      · exact n.minFac_dvd
    have hminFac := Nat.minFac_prime (n := n) (by lia)
    rw [hfactor] at hminFac
    exact hprime hminFac
  · intro hprime
    refine ⟨hprime.two_le, ?_⟩
    intro m _ hm hdvd
    exact (hprime.eq_one_or_self_of_dvd m hdvd).resolve_left (by lia)

theorem zeroBits_eq {length k : Nat} (hk : k < 512) (h : (length + 1 + k) % 512 = 448) :
    zeroBits length = k := by
  have hmem : (length + 1 + zeroBits length) % 512 = 448 :=
    Nat.sInf_mem (s := { k | (length + 1 + k) % 512 = 448 }) ⟨k, h⟩
  have hle : zeroBits length ≤ k := Nat.sInf_le h
  lia

theorem value_concat (bits : List Bool) (b : Bool) :
    value (bits ++ [b]) = 2 * value bits + b.toNat := by
  simp [value]

theorem value_append (front back : List Bool) :
    value (front ++ back) = value front * 2 ^ back.length + value back := by
  induction back using List.reverseRecOn with
  | nil => simp [value]
  | append_singleton back b ih =>
      rw [← List.append_assoc, value_concat, value_concat, ih, List.length_append,
        List.length_singleton, pow_succ]
      ring

theorem value_lowBits (w n : Nat) : value (lowBits w n) = n % 2 ^ w := by
  induction w with
  | zero => simp [value, Nat.mod_one]
  | succ w ih =>
      have hhead : value [n.testBit w] = (n.testBit w).toNat := by simp [value]
      rw [lowBits_succ, ← List.singleton_append, value_append, ih, hhead, length_lowBits,
        Nat.mod_pow_succ, Nat.toNat_testBit]
      ring

theorem octets_octetBits (s : List UInt8) : octets (octetBits s) = s := by
  have hlength : (octetBits s).length / 8 = s.length := by
    rw [octetBits, length_spell, List.length_map]
    lia
  apply List.ext_getElem
  · simp [octets, hlength]
  · intro i hi hs
    have hdigit : (s.map UInt8.toNat).drop i = s[i].toNat :: (s.map UInt8.toNat).drop (i + 1) := by
      rw [List.drop_eq_getElem_cons (by simpa using hs), List.getElem_map]
    have hblock : ((octetBits s).drop (8 * i)).take (8 * 1) = lowBits 8 s[i].toNat := by
      rw [octetBits, drop_spell, take_spell, hdigit]
      simp
    simp [octets, hblock, value_lowBits]

end SecureHash
end Foundation
end CppCommons
