import CppCommons.Foundation.CheckedReads
import CppCommons.Foundation.Loop
import CppCommons.Security.Sha256Standard

/-!
# Padding of `sha256`

The padding loop leaves at an exact residue, and the chunk loop reads the padded
string by index.  The loop leaves after fewer than 64 bytes, every read is inside
the string and none is repeated, and the padded string determines the message.
-/

namespace CppCommons
namespace Security

open Cxx
open Foundation.BitString
open Foundation.CheckedReads
open Foundation.Loop
open Foundation.SecureHash (octetBits value value_lowBits)

/-!
## The padding loop

The test and the body of the padding loop.  It leaves within 64 tests, at the least
length that leaves room for the length field.
-/

/-- The test and the body of the padding loop. -/
def padPass (padded : Bytes) : Pass Bytes Bytes :=
  if padded.length % 64 ≠ 56 then .again (padded ++ [0]) else .done padded

theorem iterate_padPass (padded : Bytes) :
    iterate padPass ((120 - padded.length % 64) % 64 + 1) padded = some (padZeros padded) := by
  fun_induction padZeros padded with
  | case1 padded h ih =>
      have hcount : (120 - padded.length % 64) % 64 =
          (120 - (padded ++ [0]).length % 64) % 64 + 1 := by
        rw [List.length_append, List.length_singleton]
        lia
      have hpass : padPass padded = .again (padded ++ [0]) := if_pos h
      rw [hcount, iterate_of_again hpass, ih]
  | case2 padded h =>
      have hpass : padPass padded = .done padded := if_neg h
      exact iterate_of_done hpass _

theorem iterate_padPass_of_le {passes : Nat} (h : 64 <= passes) (padded : Bytes) :
    iterate padPass passes padded = some (padZeros padded) := by
  refine iterate_mono ?_ (iterate_padPass padded)
  lia

theorem pad_eq (msg : Bytes) :
    Security.pad msg = msg ++ (0x80 :: List.replicate ((120 - (msg.length + 1) % 64) % 64) 0 ++
      lengthBytes (UInt64.ofNat msg.length * 8)) := by
  rw [Security.pad, padZeros_eq, List.length_append, List.length_singleton]
  simp

theorem isLeast_length_pad (msg : Bytes) :
    IsLeast { n | 64 ∣ n ∧ msg.length + 9 <= n } (Security.pad msg).length := by
  have hlength : (Security.pad msg).length =
      msg.length + 1 + (120 - (msg.length + 1) % 64) % 64 + 8 := by
    rw [Security.pad, List.length_append, length_padZeros, length_lengthBytes, List.length_append,
      List.length_singleton]
  have hmod := length_pad msg
  constructor
  · refine ⟨Nat.dvd_of_mod_eq_zero hmod, ?_⟩
    lia
  · intro n hn
    rcases hn with ⟨hdvd, hle⟩
    have hn := Nat.mod_eq_zero_of_dvd hdvd
    lia

/-!
## Different messages

The length field gives the length of a message up to a multiple of `2 ^ 61`, and the
padded length gives it up to less than 64.
-/

theorem lengthBytes_inj {m n : UInt64} (h : lengthBytes m = lengthBytes n) : m = n := by
  have hvalue := congrArg (fun bytes => value (octetBits bytes)) h
  simp only [octetBits_lengthBytes, value_lowBits] at hvalue
  rw [Nat.mod_eq_of_lt m.toNat_lt, Nat.mod_eq_of_lt n.toNat_lt] at hvalue
  exact UInt64.toNat_inj.mp hvalue

/-- The length field gives the length up to a multiple of `2^61`, and the padded length
up to less than 64. -/
theorem length_eq_of_pad_eq {msg msg' : Bytes} (h : Security.pad msg = Security.pad msg') :
    msg.length = msg'.length := by
  rw [Security.pad, Security.pad] at h
  have hfields : (lengthBytes (UInt64.ofNat msg.length * 8)).length =
      (lengthBytes (UInt64.ofNat msg'.length * 8)).length := by
    rw [length_lengthBytes, length_lengthBytes]
  rcases List.append_inj' h hfields with ⟨hfront, hfield⟩
  have hbits := congrArg UInt64.toNat (lengthBytes_inj hfield)
  rw [toNat_bitLen, toNat_bitLen] at hbits
  have hlengths := congrArg List.length hfront
  rw [length_padZeros, length_padZeros, List.length_append, List.length_append,
    List.length_singleton] at hlengths
  lia

theorem pad_inj {msg msg' : Bytes} (h : Security.pad msg = Security.pad msg') : msg = msg' := by
  have hlength := length_eq_of_pad_eq h
  rw [pad_eq, pad_eq] at h
  exact (List.append_inj h hlength).left

/-!
## The chunk loop

The chunk loop with every index that it reads.  It reads every byte of the padded
string once, in order, and computes the digest.
-/

def readWord (padded : Bytes) (base : Nat) : Reading UInt32 := do
  let byte0 <- read padded base
  let byte1 <- read padded (base + 1)
  let byte2 <- read padded (base + 2)
  let byte3 <- read padded (base + 3)
  return (byte0.toUInt32 <<< 24) ||| (byte1.toUInt32 <<< 16) ||| (byte2.toUInt32 <<< 8) |||
    byte3.toUInt32

def readWords (padded : Bytes) (chunk : Nat) : Reading (List UInt32) :=
  (List.range 16).foldlM
    (fun w i => do
      let word <- readWord padded (chunk + i * 4)
      return w.set i word)
    (List.replicate 64 0)

def mixWords (s : HashState) (w : List UInt32) : HashState :=
  let r := (List.range 64).foldl (round ((List.range' 16 48).foldl extendWord w)) s
  { a := s.a + r.a, b := s.b + r.b, c := s.c + r.c, d := s.d + r.d,
    e := s.e + r.e, f := s.f + r.f, g := s.g + r.g, h := s.h + r.h }

def readChunk (padded : Bytes) (s : HashState) (chunk : Nat) : Reading HashState := do
  let w <- readWords padded chunk
  return mixWords s w

/-- `sha256`, with every index that its chunk loop reads. -/
def readMessage (msg : Bytes) : Reading Bytes := do
  let s <- (chunkOffsets (pad msg)).foldlM (readChunk (pad msg)) initialHash
  return put s.a ++ put s.b ++ put s.c ++ put s.d ++ put s.e ++ put s.f ++ put s.g ++ put s.h

theorem processChunk_eq (padded : Bytes) (s : HashState) (chunk : Nat) :
    processChunk padded s chunk = mixWords s (loadWords padded chunk) :=
  rfl

theorem yields_readWord {padded : Bytes} {base : Nat} (h : base + 4 <= padded.length) :
    Yields (readWord padded base) ((List.range 4).map (fun i => base + i))
      (wordAt padded base) := by
  have hread : forall i, i < 4 -> Yields (read padded (base + i)) [base + i]
      (padded.getD (base + i) 0) := by
    intro i hi
    exact .of_read (by lia) 0
  exact (hread 0 (by lia)).bind ((hread 1 (by lia)).bind
    ((hread 2 (by lia)).bind ((hread 3 (by lia)).bind (.of_pure _))))

theorem yields_readWords {padded : Bytes} {chunk : Nat} (h : chunk + 64 <= padded.length) :
    Yields (readWords padded chunk) ((List.range 64).map (fun i => chunk + i))
      (loadWords padded chunk) := by
  have hindices : (List.range 16).flatMap
      (fun j => (List.range 4).map (fun i => chunk + j * 4 + i)) =
        (List.range 64).map (fun i => chunk + i) := flatMap_blocks chunk 16 4
  rw [← hindices]
  refine .foldlM ?_ _
  intro w i hi
  have hi := List.mem_range.mp hi
  have hword : Yields (readWord padded (chunk + i * 4)) _ (wordAt padded (chunk + i * 4)) :=
    yields_readWord (by lia)
  exact hword.bind_pure (fun word => w.set i word)

theorem yields_readChunk {padded : Bytes} {chunk : Nat} (h : chunk + 64 <= padded.length)
    (s : HashState) :
    Yields (readChunk padded s chunk) ((List.range 64).map (fun i => chunk + i))
      (processChunk padded s chunk) := by
  rw [processChunk_eq]
  exact (yields_readWords h).bind_pure (mixWords s)

theorem flatMap_chunkOffsets {padded : Bytes} (h : padded.length % 64 = 0) :
    (chunkOffsets padded).flatMap (fun chunk => (List.range 64).map (fun i => chunk + i)) =
      List.range padded.length := by
  have hcount : (padded.length + 63) / 64 * 64 = padded.length := by
    lia
  have hblocks := flatMap_blocks 0 ((padded.length + 63) / 64) 64
  simp only [Nat.zero_add, hcount, List.map_id_fun', id_eq] at hblocks
  rw [chunkOffsets, List.flatMap_map, ← hblocks]
  simp only [Nat.mul_comm]

theorem yields_chunks {padded : Bytes} (h : padded.length % 64 = 0) :
    Yields ((chunkOffsets padded).foldlM (readChunk padded) initialHash)
      (List.range padded.length)
      ((chunkOffsets padded).foldl (processChunk padded) initialHash) := by
  rw [← flatMap_chunkOffsets h]
  refine .foldlM ?_ initialHash
  intro s chunk hchunk
  rw [chunkOffsets] at hchunk
  rcases List.mem_map.mp hchunk with ⟨j, hj, rfl⟩
  have hj := List.mem_range.mp hj
  exact yields_readChunk (by lia) s

theorem yields_readMessage (msg : Bytes) :
    Yields (readMessage msg) (List.range (Security.pad msg).length) (Security.sha256 msg) :=
  (yields_chunks (length_pad msg)).bind_pure _

/--
For every message: the padding loop leaves; the padded string starts with the
message and has the least possible length; the chunk loop reads inside it and each
byte once; and no other message has the same padded string.
-/
theorem padding_sound (msg : Bytes) :
    (forall passes, 64 <= passes ->
      iterate padPass passes (msg ++ [0x80]) = some (padZeros (msg ++ [0x80]))) ∧
    msg <+: Security.pad msg ∧
    IsLeast { n | 64 ∣ n ∧ msg.length + 9 <= n } (Security.pad msg).length ∧
    (exists indices, readMessage msg [] = some (Security.sha256 msg, indices) ∧
      (forall i, i ∈ indices -> i < (Security.pad msg).length) ∧
      forall i, i < (Security.pad msg).length -> indices.count i = 1) ∧
    forall msg', Security.pad msg = Security.pad msg' -> msg = msg' := by
  refine ⟨?_, ?_, isLeast_length_pad msg, ?_, ?_⟩
  · intro passes hpasses
    exact iterate_padPass_of_le hpasses _
  · rw [pad_eq]
    exact List.prefix_append _ _
  · refine ⟨List.range (Security.pad msg).length, yields_readMessage msg [], ?_, ?_⟩
    · intro i hi
      exact List.mem_range.mp hi
    · intro i hi
      exact List.count_eq_one_of_mem List.nodup_range (List.mem_range.mpr hi)
  · intro msg' h
    exact pad_inj h

end Security
end CppCommons
