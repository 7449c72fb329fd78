import CppCommons.Security.Base64UrlCodec

/-!
# The encoder of `SecureRandom`

`SecureRandom` has a base64url encoder of its own, which takes three bytes at a
time and fills up the last block with zeros.  It is compared with the encoder of
`jwt_signer.cpp` through the sextets that both of them write.
-/

namespace CppCommons
namespace Security

open Foundation.BitString
open Cxx

namespace SecureRandom

def kAlphabet : Bytes :=
  ascii "ABCDEFGHIJKLMNOPQRSTUVWXYZabcdefghijklmnopqrstuvwxyz0123456789-_"

def kAlphabetAt (i : UInt32) : UInt8 := kAlphabet.getD i.toNat 0

/-- `(j < data.size()) ? static_cast<uint8_t>(data[j]) : 0u`. -/
def byteOrZero (data : Bytes) (j : Nat) : UInt32 :=
  if j < data.length then (data.getD j 0).toUInt32 else 0

def encodeBlock (data : Bytes) (i : Nat) (out : Bytes) : Bytes :=
  let b0 := (data.getD i 0).toUInt32
  let b1 := byteOrZero data (i + 1)
  let b2 := byteOrZero data (i + 2)
  let out := out ++ [kAlphabetAt ((b0 >>> 2) &&& 0x3F)]
  let out := out ++ [kAlphabetAt (((b0 &&& 0x03) <<< 4) ||| (b1 >>> 4))]
  let out :=
    if i + 1 < data.length then out ++ [kAlphabetAt (((b1 &&& 0x0F) <<< 2) ||| (b2 >>> 6))]
    else out
  if i + 2 < data.length then out ++ [kAlphabetAt (b2 &&& 0x3F)] else out

def encodeFrom (data : Bytes) (i : Nat) (out : Bytes) : Bytes :=
  if i < data.length then encodeFrom data (i + 3) (encodeBlock data i out) else out
termination_by data.length - i

def base64urlEncode (data : Bytes) : Bytes :=
  encodeFrom data 0 []

/-!
## The sextets of a block

The four characters of a block are the sextets of its three bytes, taken out by
shifts and masks.
-/

def sextetBlocks : List Nat -> List Nat
  | [] => []
  | [x] => [x / 4, x % 4 * 16]
  | [x, y] => [x / 4, x % 4 * 16 + y / 16, y % 16 * 4]
  | x :: y :: z :: rest =>
      [x / 4, x % 4 * 16 + y / 16, y % 16 * 4 + z / 64, z % 64] ++ sextetBlocks rest

theorem kAlphabetAt_eq (i : UInt32) : kAlphabetAt i = alphaAt i.toNat := rfl

theorem first_character (x : UInt8) :
    kAlphabetAt ((x.toUInt32 >>> 2) &&& 0x3F) = alphaAt (x.toNat / 4) := by
  have hx : forall x : UInt8, ((x.toUInt32 >>> 2) &&& 0x3F).toNat = x.toNat / 4 := by
    decide +kernel
  rw [kAlphabetAt_eq, hx]

theorem toNat_highPair (x : UInt8) : ((x.toUInt32 &&& 0x03) <<< 4).toNat = x.toNat % 4 * 16 := by
  revert x
  decide +kernel

theorem toNat_highNibble (y : UInt8) :
    ((y.toUInt32 &&& 0x0F) <<< 2).toNat = y.toNat % 16 * 4 := by
  revert y
  decide +kernel

theorem second_character (x y : UInt8) :
    kAlphabetAt (((x.toUInt32 &&& 0x03) <<< 4) ||| (y.toUInt32 >>> 4)) =
      alphaAt (x.toNat % 4 * 16 + y.toNat / 16) := by
  have hy : forall y : UInt8, (y.toUInt32 >>> 4).toNat = y.toNat / 16 := by
    decide +kernel
  have hlow : y.toNat / 16 < 2 ^ 4 := by
    have hlt := y.toNat_lt
    lia
  have hsum := Nat.two_pow_add_eq_or_of_lt hlow (x.toNat % 4)
  rw [Nat.mul_comm] at hsum
  rw [kAlphabetAt_eq, UInt32.toNat_or, toNat_highPair, hy]
  exact congrArg alphaAt hsum.symm

theorem third_character (y z : UInt8) :
    kAlphabetAt (((y.toUInt32 &&& 0x0F) <<< 2) ||| (z.toUInt32 >>> 6)) =
      alphaAt (y.toNat % 16 * 4 + z.toNat / 64) := by
  have hz : forall z : UInt8, (z.toUInt32 >>> 6).toNat = z.toNat / 64 := by
    decide +kernel
  have hlow : z.toNat / 64 < 2 ^ 2 := by
    have hlt := z.toNat_lt
    lia
  have hsum := Nat.two_pow_add_eq_or_of_lt hlow (y.toNat % 16)
  rw [Nat.mul_comm] at hsum
  rw [kAlphabetAt_eq, UInt32.toNat_or, toNat_highNibble, hz]
  exact congrArg alphaAt hsum.symm

theorem fourth_character (z : UInt8) :
    kAlphabetAt (z.toUInt32 &&& 0x3F) = alphaAt (z.toNat % 64) := by
  have hz : forall z : UInt8, (z.toUInt32 &&& 0x3F).toNat = z.toNat % 64 := by
    decide +kernel
  rw [kAlphabetAt_eq, hz]

/-!
## The loop

The loop takes three bytes at a time; the last block may have one or two.
-/

theorem encodeBlock_eq_drop (data : Bytes) (i : Nat) (out : Bytes) :
    encodeBlock data i out = encodeBlock (data.drop i) 0 out := by
  have hat : forall k, data.getD (i + k) 0 = (data.drop i).getD k 0 := by
    intro k
    rw [List.getD_eq_getElem?_getD, List.getD_eq_getElem?_getD, List.getElem?_drop]
  have hin : forall k, i + k < data.length <-> k < (data.drop i).length := by
    intro k
    rw [List.length_drop]
    lia
  have hfirst := hat 0
  rw [Nat.add_zero] at hfirst
  simp only [encodeBlock, byteOrZero, hat, hin, hfirst, Nat.zero_add]

theorem encodeBlock_of_one (x : UInt8) (out : Bytes) :
    encodeBlock [x] 0 out = out ++ (sextetBlocks [x.toNat]).map alphaAt := by
  have hsecond : kAlphabetAt ((x.toUInt32 &&& 0x03) <<< 4) = alphaAt (x.toNat % 4 * 16) := by
    rw [kAlphabetAt_eq, toNat_highPair]
  simp [encodeBlock, byteOrZero, sextetBlocks, first_character, hsecond]

theorem encodeBlock_of_two (x y : UInt8) (out : Bytes) :
    encodeBlock [x, y] 0 out = out ++ (sextetBlocks [x.toNat, y.toNat]).map alphaAt := by
  have hthird : kAlphabetAt ((y.toUInt32 &&& 0x0F) <<< 2) = alphaAt (y.toNat % 16 * 4) := by
    rw [kAlphabetAt_eq, toNat_highNibble]
  simp [encodeBlock, byteOrZero, sextetBlocks, first_character, second_character, hthird]

theorem encodeBlock_of_three (x y z : UInt8) (rest out : Bytes) :
    encodeBlock (x :: y :: z :: rest) 0 out =
      out ++ [x.toNat / 4, x.toNat % 4 * 16 + y.toNat / 16, y.toNat % 16 * 4 + z.toNat / 64,
        z.toNat % 64].map alphaAt := by
  simp [encodeBlock, byteOrZero, first_character, second_character, third_character,
    fourth_character]

theorem encodeFrom_eq (data : Bytes) (i : Nat) (out : Bytes) :
    encodeFrom data i out =
      out ++ (sextetBlocks ((data.drop i).map UInt8.toNat)).map alphaAt := by
  fun_induction encodeFrom data i out with
  | case1 i out hi ih =>
      rw [ih, encodeBlock_eq_drop, show data.drop (i + 3) = (data.drop i).drop 3 by
        rw [List.drop_drop]]
      rcases hdrop : data.drop i with _ | ⟨x, _ | ⟨y, _ | ⟨z, rest⟩⟩⟩
      · exact absurd (List.drop_eq_nil_iff.mp hdrop) (Nat.not_le.mpr hi)
      · rw [encodeBlock_of_one]
        simp [sextetBlocks]
      · rw [encodeBlock_of_two]
        simp [sextetBlocks]
      · rw [encodeBlock_of_three]
        simp [sextetBlocks]
  | case2 i out hi =>
      rw [List.drop_eq_nil_of_le (Nat.not_lt.mp hi)]
      simp [sextetBlocks]

/-!
## What the sextets spell

Both encoders write sextets that spell the bytes, followed by less than a sextet of
zeros, and there is only one such list.
-/

theorem lowBits_byte (x : Nat) :
    lowBits 8 x = lowBits 6 (x / 4) ++ lowBits 2 (x % 4) ∧
      lowBits 8 x = lowBits 4 (x / 16) ++ lowBits 4 (x % 16) ∧
      lowBits 8 x = lowBits 2 (x / 64) ++ lowBits 6 (x % 64) :=
  ⟨lowBits_split 6 2 x, lowBits_split 4 4 x, lowBits_split 2 6 x⟩

theorem lowBits_second (x : Nat) {y : Nat} (hy : y < 2 ^ 8) :
    lowBits 6 (x % 4 * 16 + y / 16) = lowBits 2 (x % 4) ++ lowBits 4 (y / 16) :=
  lowBits_joined 2 (x % 4) (by lia : y / 16 < 2 ^ 4)

theorem lowBits_third (y : Nat) {z : Nat} (hz : z < 2 ^ 8) :
    lowBits 6 (y % 16 * 4 + z / 64) = lowBits 4 (y % 16) ++ lowBits 2 (z / 64) :=
  lowBits_joined 4 (y % 16) (by lia : z / 64 < 2 ^ 2)

theorem spell_sextetBlocks {bytes : List Nat} (h : forall x, x ∈ bytes -> x < 2 ^ 8) :
    exists pad, pad < 6 ∧
      spell 6 (sextetBlocks bytes) = spell 8 bytes ++ List.replicate pad false := by
  fun_induction sextetBlocks bytes with
  | case1 => exact ⟨0, by decide, rfl⟩
  | case2 x =>
      have hzero := lowBits_second x (by decide : 0 < 2 ^ 8)
      rw [Nat.zero_div, Nat.add_zero, lowBits_of_zero] at hzero
      refine ⟨4, by decide, ?_⟩
      simp only [spell_cons, spell_nil, List.append_nil, hzero, (lowBits_byte x).left,
        List.append_assoc]
  | case3 x y =>
      have hzero := lowBits_third y (by decide : 0 < 2 ^ 8)
      rw [Nat.zero_div, Nat.add_zero, lowBits_of_zero] at hzero
      refine ⟨2, by decide, ?_⟩
      have hy := h y (by simp)
      simp only [spell_cons, spell_nil, List.append_nil, lowBits_second x hy, hzero,
        (lowBits_byte x).left, (lowBits_byte y).right.left, List.append_assoc]
  | case4 x y z rest ih =>
      rcases ih (fun b hb => h b (by simp [hb])) with ⟨pad, hpad, hspell⟩
      refine ⟨pad, hpad, ?_⟩
      have hy := h y (by simp)
      have hz := h z (by simp)
      simp only [List.cons_append, List.nil_append, spell_cons, lowBits_second x hy,
        lowBits_third y hz, hspell, (lowBits_byte x).left, (lowBits_byte y).right.left,
        (lowBits_byte z).right.right, List.append_assoc]

theorem sextetBlocks_lt {bytes : List Nat} (h : forall x, x ∈ bytes -> x < 2 ^ 8) :
    forall d, d ∈ sextetBlocks bytes -> d < 64 := by
  fun_induction sextetBlocks bytes with
  | case1 => simp
  | case2 x =>
      have hx := h x (by simp)
      simp only [List.forall_mem_cons]
      exact ⟨by lia, by lia, by simp⟩
  | case3 x y =>
      have hx := h x (by simp)
      have hy := h y (by simp)
      simp only [List.forall_mem_cons]
      exact ⟨by lia, by lia, by lia, by simp⟩
  | case4 x y z rest ih =>
      have hx := h x (by simp)
      have hy := h y (by simp)
      have hz := h z (by simp)
      have hrest := ih (fun b hb => h b (by simp [hb]))
      simp only [List.cons_append, List.nil_append, List.forall_mem_cons]
      exact ⟨by lia, by lia, by lia, by lia, hrest⟩

end SecureRandom

theorem sextets_unique {digits digits' : List Nat} {bits : List Bool} {pad pad' : Nat}
    (hdigits : forall d, d ∈ digits -> d < 64) (hdigits' : forall d, d ∈ digits' -> d < 64)
    (hpad : pad < 6) (hpad' : pad' < 6)
    (h : spell 6 digits = bits ++ List.replicate pad false)
    (h' : spell 6 digits' = bits ++ List.replicate pad' false) : digits = digits' := by
  have hlength := congrArg List.length h
  have hlength' := congrArg List.length h'
  simp only [List.length_append, length_spell, List.length_replicate] at hlength hlength'
  have hsame : pad = pad' := by lia
  rw [hsame, ← h'] at h
  exact spell_inj (by decide) hdigits hdigits' h

theorem length_of_spells {digits : List Nat} {data : Bytes} {pad : Nat} (hpad : pad < 6)
    (h : spell 6 digits = spell 8 (data.map UInt8.toNat) ++ List.replicate pad false) :
    digits.length = (4 * data.length + 2) / 3 := by
  have hlength := congrArg List.length h
  simp only [List.length_append, length_spell, List.length_map, List.length_replicate] at hlength
  lia

/--
The two encoders are the same function; its result has `4 n / 3` characters,
rounded up, all of them from the alphabet.
-/
theorem encoders_agree (data : Bytes) :
    base64urlEncodeImpl data = SecureRandom.base64urlEncode data ∧
      (base64urlEncodeImpl data).length = (4 * data.length + 2) / 3 ∧
      OverAlphabet (base64urlEncodeImpl data) := by
  rcases base64urlEncodeImpl_spells data with ⟨digits, pad, hdigits, hpad, henc, hspell⟩
  have hbytes : forall x, x ∈ data.map UInt8.toNat -> x < 2 ^ 8 := fun _ => toNat_lt_of_mem_map
  rcases SecureRandom.spell_sextetBlocks hbytes with ⟨pad', hpad', hspell'⟩
  have hsame := sextets_unique hdigits (SecureRandom.sextetBlocks_lt hbytes) hpad hpad' hspell
    hspell'
  refine ⟨?_, ?_, overAlphabet_base64urlEncodeImpl data⟩
  · rw [henc, hsame, SecureRandom.base64urlEncode, SecureRandom.encodeFrom_eq]
    rfl
  · rw [henc, List.length_map, length_of_spells hpad hspell]

end Security
end CppCommons
