import CppCommons.Cxx.ByteOrder
import CppCommons.Foundation.SecureHash
import CppCommons.Security.Sha256

/-!
# The hash of `jwt_signer.cpp` against the standard

The loops of `sha256` and `hmac_sha256_impl` compute what `SecureHash` defines on
bit strings: the padding, the words of a block, the message schedule, the rounds
with their constants, and the digest.
-/

namespace CppCommons
namespace Security

open Cxx
open Foundation
open Foundation.BitString
open Foundation.SecureHash

/-!
## Bytes and bits

The bits of a byte string, and the bytes of a word or of the length as bits.
-/

theorem octetBits_append (s t : Bytes) : octetBits (s ++ t) = octetBits s ++ octetBits t := by
  simp [octetBits, spell_append]

theorem octetBits_replicate_zero (n : Nat) :
    octetBits (List.replicate n 0) = List.replicate (8 * n) false := by
  induction n with
  | zero => rfl
  | succ n ih =>
      rw [List.replicate_succ, ← List.singleton_append, octetBits_append, ih, Nat.mul_succ,
        Nat.add_comm, List.replicate_add]
      rfl

theorem spell_bytes (n x : Nat) :
    spell 8 ((List.range n).map (fun i => x / 2 ^ (8 * (n - 1 - i)))) = lowBits (8 * n) x := by
  induction n with
  | zero => rfl
  | succ n ih =>
      have htail : (List.range n).map ((fun i => x / 2 ^ (8 * (n + 1 - 1 - i))) ∘ Nat.succ) =
          (List.range n).map (fun i => x / 2 ^ (8 * (n - 1 - i))) := by
        apply List.map_congr_left
        intro i _
        rw [Function.comp_apply, show n + 1 - 1 - i.succ = n - 1 - i by lia]
      have hsplit : lowBits (8 * (n + 1)) x = lowBits 8 (x / 2 ^ (8 * n)) ++ lowBits (8 * n) x := by
        rw [Nat.mul_succ, Nat.add_comm, lowBits_add]
      rw [List.range_succ_eq_map, List.map_cons, List.map_map, htail, spell_cons, ih, hsplit]
      rfl

theorem octetBits_of_bytes {s : Bytes} {n x : Nat}
    (h : s.map UInt8.toNat = (List.range n).map (fun i => x / 2 ^ (8 * (n - 1 - i)) % 2 ^ 8)) :
    octetBits s = lowBits (8 * n) x := by
  rw [octetBits, h, ← spell_bytes, spell, spell, List.flatMap_map, List.flatMap_map]
  simp only [lowBits_mod (Nat.le_refl 8)]

theorem toNat_lengthByte (bitLen : UInt64) {k : Nat} (hk : k < 64) :
    ((bitLen >>> UInt64.ofNat k) &&& 0xFF).toUInt8.toNat = bitLen.toNat / 2 ^ k % 2 ^ 8 := by
  have hshift : (UInt64.ofNat k).toNat % 64 = k := by
    rw [UInt64.toNat_ofNat_of_lt' (by lia), Nat.mod_eq_of_lt hk]
  have hmask : forall m : Nat, m &&& 255 = m % 2 ^ 8 := fun m => Nat.and_two_pow_sub_one_eq_mod m 8
  simp only [UInt64.toNat_toUInt8, UInt64.toNat_and, UInt64.toNat_shiftRight, hshift,
    Nat.shiftRight_eq_div_pow, UInt64.reduceToNat, hmask, Nat.mod_mod]

theorem octetBits_lengthBytes (bitLen : UInt64) :
    octetBits (lengthBytes bitLen) = lowBits 64 bitLen.toNat := by
  apply octetBits_of_bytes (n := 8)
  rw [lengthBytes, List.map_map]
  apply List.map_congr_left
  intro i hi
  have hlt := List.mem_range.mp hi
  rw [Function.comp_apply, toNat_lengthByte bitLen (by lia), Nat.mul_comm 8]

theorem octetBits_put (v : UInt32) : octetBits (put v) = lowBits 32 v.toNat := by
  have hrange : List.range 4 = [0, 1, 2, 3] := rfl
  apply octetBits_of_bytes (n := 4)
  simp only [put, hrange, List.map_cons, List.map_nil, toNat_lowByte, UInt32.toNat_shiftRight,
    UInt32.reduceToNat, Nat.shiftRight_eq_div_pow]
  norm_num

/-!
## Padding

The padded bytes are the padded bits of the standard.
-/

theorem padZeros_eq (padded : Bytes) :
    padZeros padded = padded ++ List.replicate ((120 - padded.length % 64) % 64) 0 := by
  fun_induction padZeros padded with
  | case1 padded h ih =>
      have hcount : (120 - padded.length % 64) % 64 =
          (120 - (padded.length + 1) % 64) % 64 + 1 := by lia
      rw [ih, List.append_assoc, List.length_append, List.length_singleton, hcount,
        List.replicate_succ]
      rfl
  | case2 padded h =>
      have hzero : (120 - padded.length % 64) % 64 = 0 := by lia
      rw [hzero]
      simp

theorem toNat_bitLen (len : Nat) : (UInt64.ofNat len * 8).toNat = (8 * len) % 2 ^ 64 := by
  have height : (8 : UInt64).toNat = 8 := rfl
  rw [UInt64.toNat_mul, UInt64.toNat_ofNat', height, Nat.mod_mul_mod, Nat.mul_comm]

theorem octetBits_pad (msg : Bytes) :
    octetBits (Security.pad msg) = SecureHash.pad (octetBits msg) := by
  have hlength : (octetBits msg).length = 8 * msg.length := by
    rw [octetBits, length_spell, List.length_map]
  have hzeros : zeroBits (8 * msg.length) = 7 + 8 * ((120 - (msg.length + 1) % 64) % 64) :=
    zeroBits_eq (by lia) (by lia)
  have hlast : octetBits [0x80] = true :: List.replicate 7 false := by decide
  have hcount : lowBits 64 (UInt64.ofNat msg.length * 8).toNat = lowBits 64 (8 * msg.length) := by
    rw [toNat_bitLen, lowBits_mod (Nat.le_refl 64)]
  rw [Security.pad, padZeros_eq, octetBits_append, octetBits_append, octetBits_append,
    octetBits_replicate_zero, octetBits_lengthBytes, hcount, hlast, SecureHash.pad, hlength, hzeros,
    List.replicate_add]
  simp

theorem length_padZeros (padded : Bytes) :
    (padZeros padded).length = padded.length + (120 - padded.length % 64) % 64 := by
  rw [padZeros_eq, List.length_append, List.length_replicate]

theorem length_lengthBytes (bitLen : UInt64) : (lengthBytes bitLen).length = 8 := by
  rw [lengthBytes, List.length_map, List.length_range]

theorem length_pad (msg : Bytes) : (Security.pad msg).length % 64 = 0 := by
  rw [Security.pad, List.length_append, length_padZeros, length_lengthBytes, List.length_append,
    List.length_singleton]
  lia

/-!
## Words

Operations on 32-bit words are those on bit vectors, and the four bytes of a word
are read as the standard reads its bits.
-/

theorem toBitVec_rotr (x : UInt32) {n : UInt32} (h : 0 < n.toNat ∧ n.toNat < 32) :
    (rotr x n).toBitVec = x.toBitVec.rotateRight n.toNat := by
  rcases h with ⟨hn, hn'⟩
  have hsub : (32 - n).toNat = 32 - n.toNat := by
    rw [UInt32.toNat_sub_of_le]
    · rfl
    · rw [UInt32.le_iff_toNat_le]
      exact hn'.le
  have hright : n.toBitVec.toNat % (32 : BitVec 32).toNat = n.toNat := Nat.mod_eq_of_lt hn'
  have hleft : (32 - n).toBitVec.toNat % (32 : BitVec 32).toNat = 32 - n.toNat := by
    change (32 - n).toNat % 32 = 32 - n.toNat
    rw [hsub]
    exact Nat.mod_eq_of_lt (by lia)
  rw [rotr, BitVec.rotateRight_def, UInt32.toBitVec_or, UInt32.toBitVec_shiftRight,
    UInt32.toBitVec_shiftLeft, Nat.mod_eq_of_lt hn', BitVec.ushiftRight_eq', BitVec.shiftLeft_eq',
    BitVec.toNat_umod, BitVec.toNat_umod, hright, hleft]

theorem toBitVec_shiftRight (x : UInt32) {n : UInt32} (hn : n.toNat < 32) :
    (x >>> n).toBitVec = x.toBitVec >>> n.toNat := by
  have hmod : n.toBitVec.toNat % (32 : BitVec 32).toNat = n.toNat := Nat.mod_eq_of_lt hn
  rw [UInt32.toBitVec_shiftRight, BitVec.ushiftRight_eq', BitVec.toNat_umod, hmod]

theorem toBitVec_smallSigma0 (x : UInt32) :
    (rotr x 7 ^^^ rotr x 18 ^^^ (x >>> 3)).toBitVec = smallSigma0 x.toBitVec := by
  rw [UInt32.toBitVec_xor, UInt32.toBitVec_xor, toBitVec_rotr x (by simp),
    toBitVec_rotr x (by simp), toBitVec_shiftRight x (by simp)]
  rfl

theorem toBitVec_smallSigma1 (x : UInt32) :
    (rotr x 17 ^^^ rotr x 19 ^^^ (x >>> 10)).toBitVec = smallSigma1 x.toBitVec := by
  rw [UInt32.toBitVec_xor, UInt32.toBitVec_xor, toBitVec_rotr x (by simp),
    toBitVec_rotr x (by simp), toBitVec_shiftRight x (by simp)]
  rfl

theorem toBitVec_bigSigma0 (x : UInt32) :
    (rotr x 2 ^^^ rotr x 13 ^^^ rotr x 22).toBitVec = bigSigma0 x.toBitVec := by
  rw [UInt32.toBitVec_xor, UInt32.toBitVec_xor, toBitVec_rotr x (by simp),
    toBitVec_rotr x (by simp), toBitVec_rotr x (by simp)]
  rfl

theorem toBitVec_bigSigma1 (x : UInt32) :
    (rotr x 6 ^^^ rotr x 11 ^^^ rotr x 25).toBitVec = bigSigma1 x.toBitVec := by
  rw [UInt32.toBitVec_xor, UInt32.toBitVec_xor, toBitVec_rotr x (by simp),
    toBitVec_rotr x (by simp), toBitVec_rotr x (by simp)]
  rfl

theorem toBitVec_ch (x y z : UInt32) :
    ((x &&& y) ^^^ (~~~x &&& z)).toBitVec = ch x.toBitVec y.toBitVec z.toBitVec := by
  simp only [UInt32.toBitVec_xor, UInt32.toBitVec_and, UInt32.toBitVec_not, ch]

theorem toBitVec_maj (x y z : UInt32) :
    ((x &&& y) ^^^ (x &&& z) ^^^ (y &&& z)).toBitVec =
      maj x.toBitVec y.toBitVec z.toBitVec := by
  simp only [UInt32.toBitVec_xor, UInt32.toBitVec_and, maj]

theorem wordAt_eq {padded : Bytes} {base : Nat} (h : base + 4 ≤ padded.length) :
    (wordAt padded base).toBitVec =
      BitVec.ofNat 32 (value (((octetBits padded).drop (8 * base)).take 32)) := by
  have hnext : forall k, k < padded.length ->
      padded.drop k = padded.getD k 0 :: padded.drop (k + 1) := by
    intro k hk
    rw [List.drop_eq_getElem_cons hk, List.getD_eq_getElem padded 0 hk]
  have hbytes : (padded.drop base).take 4 =
      [padded.getD base 0, padded.getD (base + 1) 0, padded.getD (base + 2) 0,
        padded.getD (base + 3) 0] := by
    rw [hnext base (by lia), hnext (base + 1) (by lia), hnext (base + 2) (by lia),
      hnext (base + 3) (by lia)]
    rfl
  have hbits : ((octetBits padded).drop (8 * base)).take (8 * 4) =
      octetBits ((padded.drop base).take 4) := by
    rw [octetBits, drop_spell, take_spell, octetBits, List.map_take, List.map_drop]
  have hvalue : value (octetBits ((padded.drop base).take 4)) = (wordAt padded base).toNat := by
    rw [hbytes, wordAt, toNat_bigEndian, octetBits]
    simp only [List.map_cons, List.map_nil, spell_cons, spell_nil, value_append, value_lowBits,
      List.append_nil, List.length_append, length_lowBits]
    have hsmall : forall d : UInt8, d.toNat % 2 ^ 8 = d.toNat :=
      fun d => Nat.mod_eq_of_lt d.toNat_lt
    simp only [hsmall]
  rw [hbits, hvalue]
  simp

theorem toBitVec_wordAt {padded : Bytes} {i t : Nat} (ht : t < 16)
    (hi : 64 * i + 64 ≤ padded.length) :
    (wordAt padded (64 * i + t * 4)).toBitVec = blockWord (octetBits padded) i t := by
  rw [wordAt_eq (by lia), blockWord, show 8 * (64 * i + t * 4) = 512 * i + 32 * t by lia]

/-!
## Schedule

The array holds the words of the standard up to an index, which each pass of the
loop moves on.
-/

structure Scheduled (m : Nat -> Word) (n : Nat) (w : List UInt32) : Prop where
  length : w.length = 64
  words : forall t, t < n -> (w.getD t 0).toBitVec = scheduleWord m t

theorem scheduled_set {m : Nat -> Word} {n : Nat} {w : List UInt32} {x : UInt32} (hn : n < 64)
    (hw : Scheduled m n w) (hx : x.toBitVec = scheduleWord m n) :
    Scheduled m (n + 1) (w.set n x) := by
  have hlength := hw.length
  constructor
  · rw [List.length_set, hlength]
  · intro t ht
    by_cases heq : t = n
    · rw [heq, List.getD_eq_getElem?_getD, List.getElem?_set_self (by lia)]
      exact hx
    · rw [List.getD_eq_getElem?_getD, List.getElem?_set_ne (by lia), ← List.getD_eq_getElem?_getD]
      exact hw.words t (by lia)

theorem scheduled_loadWords {padded : Bytes} {i : Nat} (hi : 64 * i + 64 ≤ padded.length) :
    Scheduled (blockWord (octetBits padded) i) 16 (loadWords padded (64 * i)) := by
  have hloaded : forall n, n ≤ 16 -> Scheduled (blockWord (octetBits padded) i) n
      ((List.range n).foldl
        (fun w t => w.set t (wordAt padded (64 * i + t * 4))) (List.replicate 64 0)) := by
    intro n
    induction n with
    | zero =>
        intro _
        constructor
        · simp
        · intro t ht
          lia
    | succ n ih =>
        intro hn
        rw [List.range_succ, List.foldl_append, List.foldl_cons, List.foldl_nil]
        apply scheduled_set (by lia) (ih (by lia))
        rw [toBitVec_wordAt (by lia) hi, scheduleWord, if_pos (by lia)]
  exact hloaded 16 (Nat.le_refl 16)

theorem scheduled_extendWord {m : Nat -> Word} {n : Nat} {w : List UInt32} (hn : 16 ≤ n)
    (hn' : n < 64) (hw : Scheduled m n w) : Scheduled m (n + 1) (extendWord w n) := by
  apply scheduled_set hn' hw
  rw [scheduleWord, if_neg (by lia), ← hw.words (n - 2) (by lia), ← hw.words (n - 7) (by lia),
    ← hw.words (n - 15) (by lia), ← hw.words (n - 16) (by lia), ← toBitVec_smallSigma0,
    ← toBitVec_smallSigma1]
  simp only [UInt32.toBitVec_add]
  ac_rfl

theorem scheduled_schedule {padded : Bytes} {i : Nat} (hi : 64 * i + 64 ≤ padded.length) :
    Scheduled (blockWord (octetBits padded) i) 64 (schedule padded (64 * i)) := by
  have hextended : forall n, n ≤ 48 -> Scheduled (blockWord (octetBits padded) i) (16 + n)
      ((List.range' 16 n).foldl extendWord (loadWords padded (64 * i))) := by
    intro n
    induction n with
    | zero =>
        intro _
        rw [List.range'_zero, List.foldl_nil, Nat.add_zero]
        exact scheduled_loadWords hi
    | succ n ih =>
        intro hn
        rw [List.range'_1_concat, List.foldl_append, List.foldl_cons, List.foldl_nil]
        exact scheduled_extendWord (by lia) (by lia) (ih (by lia))
  have hlast := hextended 48 (Nat.le_refl 48)
  rwa [← schedule] at hlast

/-!
## Constants

The tables of the source are the bits of the roots of the first primes, found by
comparing powers of integers.
-/

def primes : List Nat :=
  [2, 3, 5, 7, 11, 13, 17, 19, 23, 29, 31, 37, 41, 43, 47, 53, 59, 61, 67, 71, 73, 79, 83, 89, 97,
   101, 103, 107, 109, 113, 127, 131, 137, 139, 149, 151, 157, 163, 167, 173, 179, 181, 191, 193,
   197, 199, 211, 223, 227, 229, 233, 239, 241, 251, 257, 263, 269, 271, 277, 281, 283, 293, 307,
   311]

theorem filter_prime_range : (List.range 312).filter Nat.Prime = primes := by
  have htrial : (List.range 312).filter (isTrialPrime 18) = primes := by decide +kernel
  rw [← htrial]
  apply List.filter_congr
  intro n hn
  have hlt := List.mem_range.mp hn
  rw [Bool.eq_iff_iff, decide_eq_true_eq, isTrialPrime_iff (by lia)]

theorem nth_prime {t : Nat} (ht : t < 64) : Nat.nth Nat.Prime t = primes.getD t 0 := by
  have hlength : primes.length = 64 := by decide
  apply nth_of_filter_range (n := 312)
  rw [filter_prime_range, List.getElem?_eq_getElem (by lia), List.getD_eq_getElem primes 0 (by lia)]

/-- `c` gives the first 32 bits behind the point of the `d`-th root of `p`, and `n` the rest. -/
def isRoot (d p n c : Nat) : Bool :=
  n ^ d ≤ p && p < (n + 1) ^ d && (n * 2 ^ 32 + c) ^ d ≤ p * (2 ^ 32) ^ d &&
    p * (2 ^ 32) ^ d < (n * 2 ^ 32 + c + 1) ^ d

theorem rootFraction_of_isRoot {d p n c : Nat} (hd : d ≠ 0) (h : isRoot d p n c = true) :
    rootFraction d p = BitVec.ofNat 32 c := by
  simp only [isRoot, Bool.and_eq_true, decide_eq_true_eq] at h
  exact rootFraction_eq hd h.left.left.left h.left.left.right h.left.right h.right

theorem k256_isRoot : forall t, t < 64 ->
    exists n, n < 8 ∧ isRoot 3 (primes.getD t 0) n (k256.getD t 0).toNat = true := by
  decide +kernel

theorem toBitVec_k256 {t : Nat} (ht : t < 64) : (k256.getD t 0).toBitVec = roundConstant t := by
  rcases k256_isRoot t ht with ⟨n, _, hroot⟩
  rw [roundConstant, nth_prime ht, rootFraction_of_isRoot (by lia) hroot]
  simp

def HashState.registers (s : HashState) : Registers where
  a := s.a.toBitVec
  b := s.b.toBitVec
  c := s.c.toBitVec
  d := s.d.toBitVec
  e := s.e.toBitVec
  f := s.f.toBitVec
  g := s.g.toBitVec
  h := s.h.toBitVec

def HashState.words (s : HashState) : List UInt32 :=
  [s.a, s.b, s.c, s.d, s.e, s.f, s.g, s.h]

theorem initialHash_isRoot : forall i, i < 8 ->
    exists n, n < 8 ∧ isRoot 2 (primes.getD i 0) n (initialHash.words.getD i 0).toNat = true := by
  decide +kernel

theorem toBitVec_initialHash {i : Nat} (hi : i < 8) :
    (initialHash.words.getD i 0).toBitVec = initialValue i := by
  rcases initialHash_isRoot i hi with ⟨n, _, hroot⟩
  rw [initialValue, nth_prime (by lia), rootFraction_of_isRoot (by lia) hroot]
  simp

theorem registers_initialHash : initialHash.registers = initial := by
  have hvalue : forall i, i < 8 -> initialValue i = (initialHash.words.getD i 0).toBitVec := by
    intro i hi
    exact (toBitVec_initialHash hi).symm
  rw [initial, hvalue 0 (by lia), hvalue 1 (by lia), hvalue 2 (by lia), hvalue 3 (by lia),
    hvalue 4 (by lia), hvalue 5 (by lia), hvalue 6 (by lia), hvalue 7 (by lia)]
  rfl

/-!
## Rounds

The working variables are the registers of the standard, round by round and block by
block.
-/

theorem registers_round {w : List UInt32} {m : Nat -> Word} {t : Nat} (ht : t < 64)
    (hw : Scheduled m 64 w) (s : HashState) :
    (Security.round w s t).registers = SecureHash.round (scheduleWord m) s.registers t := by
  simp only [Security.round, SecureHash.round, HashState.registers, UInt32.toBitVec_add,
    toBitVec_bigSigma0, toBitVec_bigSigma1, toBitVec_ch, toBitVec_maj, toBitVec_k256 ht,
    hw.words t ht]

theorem registers_rounds {w : List UInt32} {m : Nat -> Word} (hw : Scheduled m 64 w)
    (s : HashState) {n : Nat} (hn : n ≤ 64) :
    ((List.range n).foldl (Security.round w) s).registers =
      (List.range n).foldl (SecureHash.round (scheduleWord m)) s.registers := by
  induction n with
  | zero => rfl
  | succ n ih =>
      rw [List.range_succ, List.foldl_append, List.foldl_append, List.foldl_cons, List.foldl_nil,
        List.foldl_cons, List.foldl_nil, registers_round (by lia) hw, ih (by lia)]

theorem registers_processChunk {padded : Bytes} {i : Nat} (hi : 64 * i + 64 ≤ padded.length)
    (s : HashState) :
    (processChunk padded s (64 * i)).registers =
      compress (blockWord (octetBits padded) i) s.registers := by
  have hrounds := registers_rounds (scheduled_schedule hi) s (Nat.le_refl 64)
  rw [compress, ← hrounds]
  simp only [processChunk, HashState.registers, UInt32.toBitVec_add, BitVec.add_comm]

/-!
## Digest and keyed hash

The digest of the loops is that of the standard, and so is the keyed hash, for keys
of every length.
-/

theorem registers_chunks {padded : Bytes} (s : HashState) {n : Nat} (hn : 64 * n ≤ padded.length) :
    (((List.range n).map (fun i => 64 * i)).foldl (processChunk padded) s).registers =
      (List.range n).foldl (fun r i => compress (blockWord (octetBits padded) i) r)
        s.registers := by
  induction n with
  | zero => rfl
  | succ n ih =>
      rw [List.range_succ, List.map_append, List.foldl_append, List.foldl_append, List.map_cons,
        List.map_nil, List.foldl_cons, List.foldl_nil, List.foldl_cons, List.foldl_nil,
        registers_processChunk (by lia), ih (by lia)]

theorem octetBits_digest (s : HashState) :
    octetBits (put s.a ++ put s.b ++ put s.c ++ put s.d ++ put s.e ++ put s.f ++ put s.g ++
      put s.h) = s.registers.bits := by
  simp only [octetBits_append, octetBits_put, Registers.bits, HashState.registers, List.map_cons,
    List.map_nil, spell_cons, spell_nil, List.append_assoc, List.append_nil, UInt32.toNat_toBitVec]

theorem octetBits_sha256 (msg : Bytes) :
    octetBits (Security.sha256 msg) = SecureHash.sha256 (octetBits msg) := by
  have hlength := length_pad msg
  have hbits : (octetBits (Security.pad msg)).length / 512 = (Security.pad msg).length / 64 := by
    rw [octetBits, length_spell, List.length_map]
    lia
  have hchunks : ((Security.pad msg).length + 63) / 64 = (Security.pad msg).length / 64 := by lia
  rw [Security.sha256, octetBits_digest, chunkOffsets, hchunks, registers_chunks _ (by lia),
    registers_initialHash, SecureHash.sha256, ← octetBits_pad, hbits]

theorem sha256_eq (msg : Bytes) : Security.sha256 msg = sha256Octets msg := by
  rw [sha256Octets, ← octetBits_sha256, octets_octetBits]

example : Security.sha256 (ascii "abc") =
    [0xba, 0x78, 0x16, 0xbf, 0x8f, 0x01, 0xcf, 0xea, 0x41, 0x41, 0x40, 0xde, 0x5d, 0xae, 0x22, 0x23,
     0xb0, 0x03, 0x61, 0xa3, 0x96, 0x17, 0x7a, 0x9c, 0xb4, 0x10, 0xff, 0x61, 0xf2, 0x00, 0x15,
     0xad] := by
  rw [Security.sha256, Security.pad, padZeros_eq]
  decide +kernel

theorem length_sha256 (msg : Bytes) : (Security.sha256 msg).length = 32 := by
  simp [Security.sha256, put]

theorem length_blockKey (key : Bytes) : (blockKey key).length = 64 := by
  simp [blockKey]
  lia

theorem blockKey_eq (key : Bytes) :
    blockKey key =
      (if 64 < key.length then sha256Octets key else key) ++
        List.replicate (64 - (if 64 < key.length then sha256Octets key else key).length) 0 := by
  rw [blockKey, ← sha256_eq]
  apply List.take_of_length_le
  rw [List.length_append, List.length_replicate]
  split_ifs with hlong
  · rw [length_sha256]
  · lia

theorem zipWith_replicate_xor {block : Bytes} (h : block.length = 64) (c : UInt8) :
    List.zipWith (fun x y => x ^^^ y) (List.replicate 64 c) block =
      block.map (fun x => x ^^^ c) := by
  apply List.ext_getElem
  · simp [h]
  · intro i _ _
    rw [List.getElem_zipWith, List.getElem_replicate, List.getElem_map, UInt8.xor_comm]

/--
For every key and every message, also beyond the lengths for which the standard
is defined: the result is the keyed hash of the standard.
-/
theorem hmacSha256Impl_eq_standard (key msg : Bytes) :
    hmacSha256Impl key msg = hmac sha256Octets 64 key msg := by
  have hlength := length_blockKey key
  rw [hmacSha256Impl, zipWith_replicate_xor hlength, zipWith_replicate_xor hlength, blockKey_eq,
    sha256_eq, sha256_eq, hmac]

end Security
end CppCommons
