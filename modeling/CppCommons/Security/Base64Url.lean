import CppCommons.Foundation.BitString
import CppCommons.Cxx.ByteString

/-!
# Base64url encoder and decoder

The encoder of `jwt_signer.cpp` and the decoder of `jwt_decoder.cpp` are two
separate accumulator loops.  Both keep an unmasked 32-bit `int` that wraps
through its sign bit and is read with arithmetic right shifts, so the model
keeps it as a 32-bit word; the bit counters stay within a few units of zero and
are plain integers.
-/

namespace CppCommons
namespace Security

open Foundation.BitString
open Cxx

/-!
## Encoder

The outer loop shifts a byte into the accumulator, the inner loop writes sextets
while at least six bits are left.
-/

def alpha : Bytes :=
  ascii "ABCDEFGHIJKLMNOPQRSTUVWXYZabcdefghijklmnopqrstuvwxyz0123456789-_"

def alphaAt (i : Nat) : UInt8 := alpha.getD i 0

def sextetAt (x : BitVec 32) (n : Nat) : Nat :=
  (x.sshiftRight n &&& 0x3F#32).toNat

structure EncodeState where
  val : BitVec 32
  bits : Int
  out : Bytes

def emitSextets (val : BitVec 32) (bits : Int) (out : Bytes) : EncodeState :=
  if 0 <= bits then
    emitSextets val (bits - 6) (out ++ [alphaAt (sextetAt val bits.toNat)])
  else
    { val := val, bits := bits, out := out }
termination_by (bits + 6).toNat
decreasing_by lia

def encodeByte (s : EncodeState) (raw : UInt8) : EncodeState :=
  emitSextets ((s.val <<< 8) + raw.toBitVec.setWidth 32) (s.bits + 8) s.out

def base64urlEncodeImpl (data : Bytes) : Bytes :=
  let s := data.foldl encodeByte { val := 0, bits := -6, out := [] }
  if s.bits > -6 then
    s.out ++ [alphaAt (sextetAt (s.val <<< 8) (s.bits + 8).toNat)]
  else
    s.out

/-!
## Decoder

The loop shifts a sextet in, skips every character that has none, and writes an
octet as soon as there are eight bits.
-/

/-- Value of one character, `-1` for characters the decoder skips. -/
def decodeChar (c : UInt8) : Int :=
  if 65 <= c ∧ c <= 90 then (c.toNat : Int) - 65
  else if 97 <= c ∧ c <= 122 then (c.toNat : Int) - 97 + 26
  else if 48 <= c ∧ c <= 57 then (c.toNat : Int) - 48 + 52
  else if c = 43 ∨ c = 45 then 62
  else if c = 47 ∨ c = 95 then 63
  else -1

structure DecodeState where
  buf : BitVec 32
  bits : Int
  out : Bytes

def octetAt (x : BitVec 32) (n : Nat) : UInt8 :=
  UInt8.ofNat (x.sshiftRight n &&& 0xFF#32).toNat

def decodeStep (s : DecodeState) (c : UInt8) : DecodeState :=
  let val := decodeChar c
  if val < 0 then
    s
  else
    let buf := (s.buf <<< 6) ||| BitVec.ofInt 32 val
    let bits := s.bits + 6
    if 8 <= bits then
      { buf := buf, bits := bits - 8, out := s.out ++ [octetAt buf (bits - 8).toNat] }
    else
      { buf := buf, bits := bits, out := s.out }

def base64urlDecode (encoded : Bytes) : Bytes :=
  (encoded.foldl decodeStep { buf := 0, bits := 0, out := [] }).out

/-!
## Character tables

The decoder's ranges invert the encoder's table on all sixty-four sextets.
-/

theorem length_alpha : alpha.length = 64 := by
  decide

theorem decodeChar_alphaAt {d : Nat} (hd : d < 64) :
    decodeChar (alphaAt d) = (d : Int) := by
  have hall : forall i : Fin 64, decodeChar (alphaAt i.val) = (i.val : Int) := by
    decide +kernel
  exact hall ⟨d, hd⟩

theorem alphaAt_mem_alpha {d : Nat} (hd : d < 64) : alphaAt d ∈ alpha := by
  have hlt : d < alpha.length := by
    rw [length_alpha]
    exact hd
  unfold alphaAt
  rw [List.getD_eq_getElem _ _ hlt]
  exact List.getElem_mem hlt

theorem decodeChar_lt (c : UInt8) : decodeChar c < 64 := by
  unfold decodeChar
  simp only [UInt8.le_iff_toNat_le, UInt8.reduceToNat]
  split_ifs <;> lia

/-!
## Encoder loop

Between two iterations the sextets written so far and the `bits + 6` low bits
of `val` spell the bytes read so far.  The higher bits of `val` are garbage.
-/

structure EncodeInvariant (consumed : Bytes) (s : EncodeState) : Prop where
  lower : -6 <= s.bits
  upper : s.bits <= 7
  spelled : exists digits : List Nat,
    (forall d, d ∈ digits -> d < 64) ∧ s.out = digits.map alphaAt ∧
      spell 6 digits ++ lowBits (s.bits + 6).toNat s.val.toNat =
        spell 8 (consumed.map UInt8.toNat)

theorem sextetAt_lt (x : BitVec 32) (n : Nat) : sextetAt x n < 64 := by
  unfold sextetAt
  rw [BitVec.toNat_and]
  exact Nat.lt_of_le_of_lt Nat.and_le_right (by decide)

theorem emitSextets_invariant (consumed : Bytes) (val : BitVec 32) (bits : Int)
    (out : Bytes) (h : EncodeInvariant consumed { val := val, bits := bits, out := out }) :
    EncodeInvariant consumed (emitSextets val bits out) ∧
      (emitSextets val bits out).bits < 0 := by
  fun_induction emitSextets val bits out with
  | case1 bits out hnonneg ih =>
      apply ih
      rcases h.spelled with ⟨digits, hdigits, hout, hspell⟩
      have hlower : -6 <= bits := h.lower
      have hupper : bits <= 7 := h.upper
      refine ⟨by simp only; lia, by simp only; lia,
        digits ++ [sextetAt val bits.toNat], ?_, ?_, ?_⟩
      · intro d hd
        rcases List.mem_append.mp hd with hold | hnew
        · exact hdigits d hold
        · rw [List.mem_singleton.mp hnew]
          exact sextetAt_lt val bits.toNat
      · simp only at hout
        rw [hout, List.map_append]
        rfl
      · simp only at hspell
        have hfront : lowBits (bits + 6).toNat val.toNat =
            lowBits 6 (sextetAt val bits.toNat) ++ lowBits bits.toNat val.toNat := by
          rw [show (bits + 6).toNat = 6 + bits.toNat by lia]
          exact lowBits_front val (by lia)
        rw [spell_concat, List.append_assoc, show (bits - 6 + 6).toNat = bits.toNat by lia,
          ← hfront]
        exact hspell
  | case2 bits out hneg =>
      exact ⟨h, by simp only; lia⟩

theorem encodeByte_invariant {consumed : Bytes} {s : EncodeState} (raw : UInt8)
    (h : EncodeInvariant consumed s) (hneg : s.bits < 0) :
    EncodeInvariant (consumed ++ [raw]) (encodeByte s raw) ∧
      (encodeByte s raw).bits < 0 := by
  unfold encodeByte
  apply emitSextets_invariant
  rcases h.spelled with ⟨digits, hdigits, hout, hspell⟩
  have hlower : -6 <= s.bits := h.lower
  refine ⟨by simp only; lia, by simp only; lia, digits, hdigits, hout, ?_⟩
  have hraw : (raw.toBitVec.setWidth 32).toNat = raw.toNat := by
    rw [BitVec.toNat_setWidth, UInt8.toNat_toBitVec]
    exact Nat.mod_eq_of_lt (Nat.lt_trans raw.toNat_lt (by decide))
  have hrawLt : (raw.toBitVec.setWidth 32).toNat < 2 ^ 8 := by
    rw [hraw]
    exact raw.toNat_lt
  simp only
  rw [show (s.bits + 8 + 6).toNat = (s.bits + 6).toNat + 8 by lia,
    lowBits_shiftLeft_add s.val hrawLt (by lia), hraw, ← List.append_assoc, hspell,
    List.map_append, List.map_singleton, spell_concat]

theorem encodeLoop_invariant {consumed : Bytes} {s : EncodeState} (data : Bytes)
    (h : EncodeInvariant consumed s) (hneg : s.bits < 0) :
    EncodeInvariant (consumed ++ data) (data.foldl encodeByte s) ∧
      (data.foldl encodeByte s).bits < 0 := by
  induction data generalizing consumed s with
  | nil =>
      rw [List.append_nil]
      exact ⟨h, hneg⟩
  | cons raw rest ih =>
      have hstep := encodeByte_invariant raw h hneg
      have hrest := ih hstep.left hstep.right
      rw [List.append_assoc] at hrest
      exact hrest

theorem lowBits_flush (val : BitVec 32) {p : Nat} (hp : p <= 6) :
    lowBits 6 (sextetAt (val <<< 8) (p + 2)) =
      lowBits p val.toNat ++ List.replicate (6 - p) false := by
  have hqueue : lowBits (p + 8) ((val <<< 8) + 0#32).toNat =
      lowBits p val.toNat ++ lowBits 8 (0#32).toNat :=
    lowBits_shiftLeft_add val (by decide) (by lia)
  have hfront : lowBits (6 + (p + 2)) (val <<< 8).toNat =
      lowBits 6 (sextetAt (val <<< 8) (p + 2)) ++ lowBits (p + 2) (val <<< 8).toNat :=
    lowBits_front (val <<< 8) (by lia)
  rw [BitVec.add_zero, show p + 8 = 6 + (p + 2) by lia, hfront] at hqueue
  have hzeros : lowBits 8 (0#32).toNat =
      List.replicate (6 - p) false ++ List.replicate (p + 2) false := by
    rw [BitVec.toNat_zero, lowBits_of_zero, List.replicate_append_replicate]
    congr 1
    lia
  rw [hzeros, ← List.append_assoc] at hqueue
  exact (List.append_inj hqueue (by simp; lia)).left

theorem base64urlEncodeImpl_spells (data : Bytes) :
    exists digits pad, (forall d, d ∈ digits -> d < 64) ∧ pad < 6 ∧
      base64urlEncodeImpl data = digits.map alphaAt ∧
      spell 6 digits =
        spell 8 (data.map UInt8.toNat) ++ List.replicate pad false := by
  have hstart : EncodeInvariant [] { val := 0, bits := -6, out := [] } :=
    ⟨by simp, by simp, [], by simp, rfl, by simp⟩
  have hloop := encodeLoop_invariant data hstart (by simp)
  rw [List.nil_append] at hloop
  generalize hs : data.foldl encodeByte { val := 0, bits := -6, out := [] } = s at hloop
  rcases hloop with ⟨hinv, hneg⟩
  rcases hinv.spelled with ⟨digits, hdigits, hout, hspell⟩
  have hlower : -6 <= s.bits := hinv.lower
  unfold base64urlEncodeImpl
  simp only [hs]
  by_cases hpending : s.bits > -6
  · have hflush := lowBits_flush s.val (p := (s.bits + 6).toNat) (by lia)
    rw [show (s.bits + 6).toNat + 2 = (s.bits + 8).toNat by lia] at hflush
    refine ⟨digits ++ [sextetAt (s.val <<< 8) (s.bits + 8).toNat],
      6 - (s.bits + 6).toNat, ?_, by lia, ?_, ?_⟩
    · intro d hd
      rcases List.mem_append.mp hd with hold | hnew
      · exact hdigits d hold
      · rw [List.mem_singleton.mp hnew]
        exact sextetAt_lt _ _
    · rw [if_pos hpending, hout, List.map_append]
      rfl
    · rw [spell_concat, hflush, ← List.append_assoc, hspell]
  · have hbits : (s.bits + 6).toNat = 0 := by lia
    refine ⟨digits, 0, hdigits, by decide, ?_, ?_⟩
    · rw [if_neg hpending, hout]
    · rw [hbits, lowBits_zero, List.append_nil] at hspell
      rw [hspell, List.replicate_zero, List.append_nil]

/-!
## Decoder loop

The octets written so far and the `bits` low bits of `buf` spell the sextets
of the characters that were not skipped.
-/

def sextets (encoded : Bytes) : List Nat :=
  encoded.filterMap (fun c =>
    if decodeChar c < 0 then none else some (decodeChar c).toNat)

theorem sextets_concat_of_neg (encoded : Bytes) {c : UInt8} (hc : decodeChar c < 0) :
    sextets (encoded ++ [c]) = sextets encoded := by
  simp [sextets, List.filterMap_append, hc]

theorem sextets_concat_of_nonneg (encoded : Bytes) {c : UInt8} (hc : ¬ decodeChar c < 0) :
    sextets (encoded ++ [c]) = sextets encoded ++ [(decodeChar c).toNat] := by
  simp [sextets, List.filterMap_append, hc]

theorem sextets_lt {encoded : Bytes} {d : Nat} (hd : d ∈ sextets encoded) : d < 64 := by
  rcases List.mem_filterMap.mp hd with ⟨c, _hc, hval⟩
  have hlt := decodeChar_lt c
  by_cases hneg : decodeChar c < 0
  · rw [if_pos hneg] at hval
    cases hval
  · rw [if_neg hneg] at hval
    injection hval with hval
    lia

theorem sextets_map_alphaAt {digits : List Nat} (h : forall d, d ∈ digits -> d < 64) :
    sextets (digits.map alphaAt) = digits := by
  induction digits with
  | nil => rfl
  | cons d rest ih =>
      have hd : decodeChar (alphaAt d) = (d : Int) :=
        decodeChar_alphaAt (h d List.mem_cons_self)
      have hrest := ih (fun x hx => h x (List.mem_cons_of_mem d hx))
      have hneg : ¬ ((d : Int) < 0) := by lia
      unfold sextets at hrest ⊢
      rw [List.map_cons, List.filterMap_cons, hd, if_neg hneg, hrest]
      rfl

structure DecodeInvariant (consumed : Bytes) (s : DecodeState) : Prop where
  lower : 0 <= s.bits
  upper : s.bits < 8
  spelled : spell 8 (s.out.map UInt8.toNat) ++ lowBits s.bits.toNat s.buf.toNat =
    spell 6 (sextets consumed)

theorem toNat_octetAt (x : BitVec 32) (n : Nat) :
    (octetAt x n).toNat = (x.sshiftRight n &&& 0xFF#32).toNat := by
  unfold octetAt
  rw [UInt8.toNat_ofNat']
  apply Nat.mod_eq_of_lt
  rw [BitVec.toNat_and]
  exact Nat.lt_of_le_of_lt Nat.and_le_right (by decide)

theorem decodeStep_invariant {consumed : Bytes} {s : DecodeState} (c : UInt8)
    (h : DecodeInvariant consumed s) :
    DecodeInvariant (consumed ++ [c]) (decodeStep s c) := by
  have hlower : 0 <= s.bits := h.lower
  have hupper : s.bits < 8 := h.upper
  have hlt := decodeChar_lt c
  unfold decodeStep
  simp only
  by_cases hneg : decodeChar c < 0
  · rw [if_pos hneg]
    exact ⟨hlower, hupper, by rw [sextets_concat_of_neg consumed hneg]; exact h.spelled⟩
  · rw [if_neg hneg]
    have hval : (BitVec.ofInt 32 (decodeChar c)).toNat = (decodeChar c).toNat := by
      rw [BitVec.toNat_ofInt]
      lia
    have hqueue : lowBits (s.bits + 6).toNat
          ((s.buf <<< 6) ||| BitVec.ofInt 32 (decodeChar c)).toNat =
        lowBits s.bits.toNat s.buf.toNat ++ lowBits 6 (decodeChar c).toNat := by
      have hsmall : (BitVec.ofInt 32 (decodeChar c)).toNat < 2 ^ 6 := by
        rw [hval]
        lia
      rw [shiftLeft_or_eq_add s.buf hsmall,
        show (s.bits + 6).toNat = s.bits.toNat + 6 by lia,
        lowBits_shiftLeft_add s.buf hsmall (by lia), hval]
    generalize (s.buf <<< 6) ||| BitVec.ofInt 32 (decodeChar c) = buf at hqueue ⊢
    have hspell : spell 8 (s.out.map UInt8.toNat) ++ lowBits (s.bits + 6).toNat buf.toNat =
        spell 6 (sextets (consumed ++ [c])) := by
      rw [hqueue, ← List.append_assoc, h.spelled, sextets_concat_of_nonneg consumed hneg,
        spell_concat]
    by_cases hfull : 8 <= s.bits + 6
    · rw [if_pos hfull]
      refine ⟨by simp only; lia, by simp only; lia, ?_⟩
      have hfront : lowBits (s.bits + 6).toNat buf.toNat =
          lowBits 8 (octetAt buf (s.bits + 6 - 8).toNat).toNat ++
            lowBits (s.bits + 6 - 8).toNat buf.toNat := by
        rw [toNat_octetAt, show (s.bits + 6).toNat = 8 + (s.bits + 6 - 8).toNat by lia]
        exact lowBits_front buf (by lia)
      simp only
      rw [List.map_append, List.map_singleton, spell_concat, List.append_assoc, ← hfront]
      exact hspell
    · rw [if_neg hfull]
      exact ⟨by simp only; lia, by simp only; lia, hspell⟩

theorem decodeLoop_invariant {consumed : Bytes} {s : DecodeState} (encoded : Bytes)
    (h : DecodeInvariant consumed s) :
    DecodeInvariant (consumed ++ encoded) (encoded.foldl decodeStep s) := by
  induction encoded generalizing consumed s with
  | nil =>
      rw [List.append_nil]
      exact h
  | cons c rest ih =>
      have hrest := ih (decodeStep_invariant c h)
      rw [List.append_assoc] at hrest
      exact hrest

theorem base64urlDecode_spells (encoded : Bytes) :
    exists rest : List Bool, rest.length < 8 ∧
      spell 8 ((base64urlDecode encoded).map UInt8.toNat) ++ rest =
        spell 6 (sextets encoded) := by
  have hstart : DecodeInvariant [] { buf := 0, bits := 0, out := [] } :=
    ⟨by simp, by simp, rfl⟩
  have hloop := decodeLoop_invariant encoded hstart
  rw [List.nil_append] at hloop
  have hlower := hloop.lower
  have hupper := hloop.upper
  refine ⟨_, ?_, hloop.spelled⟩
  rw [length_lowBits]
  lia

end Security
end CppCommons
