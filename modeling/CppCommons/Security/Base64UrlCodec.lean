import CppCommons.Security.Base64Url

/-!
# The base64url encoder and decoder as a codec

The loop specifications of `Base64Url` describe both directions by the bits
they spell.  Reading those descriptions against each other gives the round
trips, and with them the set of strings the encoder can produce.
-/

namespace CppCommons
namespace Security

open Foundation.BitString
open Cxx

/-!
## Canonical strings

A canonical string is over the alphabet, has a possible length, and the bits of its
last character that carry no data are zero.
-/

def unusedBits (length : Nat) : Nat :=
  if length % 4 = 2 then 4 else if length % 4 = 3 then 2 else 0

def OverAlphabet (e : Bytes) : Prop :=
  forall c, c ∈ e -> c ∈ alpha

def UnusedBitsZero (e : Bytes) : Prop :=
  forall c, e.getLast? = some c -> alpha.idxOf c % 2 ^ unusedBits e.length = 0

/-- The canonical unpadded base64url strings. -/
structure Canonical (e : Bytes) : Prop where
  alphabet : OverAlphabet e
  length : e.length % 4 ≠ 1
  unused : UnusedBitsZero e

/-!
## Strings over the alphabet and their sextets

Position in the alphabet and character determine each other, so a string over the
alphabet is the list of its sextets.
-/

theorem nodup_alpha : alpha.Nodup := by
  decide +kernel

theorem alpha_table :
    forall c, c ∈ alpha ->
      0 <= decodeChar c ∧ alphaAt (decodeChar c).toNat = c ∧
        alpha.idxOf c = (decodeChar c).toNat := by
  intro c hc
  rcases List.getElem_of_mem hc with ⟨d, hd, hdc⟩
  have hat : alphaAt d = c := by
    unfold alphaAt
    rw [List.getD_eq_getElem _ _ hd, hdc]
  have hdecode : decodeChar c = (d : Int) := by
    rw [← hat]
    exact decodeChar_alphaAt (length_alpha ▸ hd)
  have hindex : alpha.idxOf c = d := by
    rw [← hdc]
    exact nodup_alpha.idxOf_getElem d hd
  rw [hdecode, Int.toNat_natCast]
  exact ⟨Int.natCast_nonneg d, hat, hindex⟩

theorem sextets_of_overAlphabet {e : Bytes} (h : OverAlphabet e) :
    sextets e = e.map (fun c => (decodeChar c).toNat) := by
  induction e with
  | nil => rfl
  | cons c rest ih =>
      have hc := alpha_table c (h c List.mem_cons_self)
      have hneg : ¬ decodeChar c < 0 := by lia
      have hrest := ih (fun x hx => h x (List.mem_cons_of_mem c hx))
      unfold sextets at hrest ⊢
      rw [List.filterMap_cons, if_neg hneg, hrest]
      rfl

theorem length_sextets {e : Bytes} (h : OverAlphabet e) :
    (sextets e).length = e.length := by
  rw [sextets_of_overAlphabet h, List.length_map]

theorem map_alphaAt_sextets {e : Bytes} (h : OverAlphabet e) :
    (sextets e).map alphaAt = e := by
  rw [sextets_of_overAlphabet h, List.map_map]
  have hid : forall c, c ∈ e -> (alphaAt ∘ fun c => (decodeChar c).toNat) c = id c :=
    fun c hc => (alpha_table c (h c hc)).right.left
  rw [List.map_congr_left hid, List.map_id]

theorem overAlphabet_map_alphaAt {digits : List Nat}
    (h : forall d, d ∈ digits -> d < 64) : OverAlphabet (digits.map alphaAt) := by
  intro c hc
  rcases List.mem_map.mp hc with ⟨d, hd, hdc⟩
  rw [← hdc]
  exact alphaAt_mem_alpha (h d hd)

theorem overAlphabet_base64urlEncodeImpl (data : Bytes) :
    OverAlphabet (base64urlEncodeImpl data) := by
  rcases base64urlEncodeImpl_spells data with ⟨digits, _pad, hdigits, _hpad, henc, _hspell⟩
  rw [henc]
  exact overAlphabet_map_alphaAt hdigits

theorem dot_not_mem_base64urlEncodeImpl (data : Bytes) :
    dot ∉ base64urlEncodeImpl data := by
  intro hmem
  have hdot : dot ∉ alpha := by
    decide
  exact hdot (overAlphabet_base64urlEncodeImpl data dot hmem)

/-!
## Decoding an encoded string

Both loops are described by the bits they spell, and the bits of an encoded string
begin with those of the data.
-/

theorem toNat_lt_of_mem_map {data : Bytes} {n : Nat} (h : n ∈ data.map UInt8.toNat) :
    n < 2 ^ 8 := by
  rcases List.mem_map.mp h with ⟨b, _hb, hbn⟩
  rw [← hbn]
  exact b.toNat_lt

theorem map_toNat_inj {xs ys : Bytes} (h : xs.map UInt8.toNat = ys.map UInt8.toNat) :
    xs = ys :=
  List.map_injective_iff.mpr (fun _ _ hab => UInt8.toNat_inj.mp hab) h

theorem base64urlDecode_base64urlEncodeImpl (data : Bytes) :
    base64urlDecode (base64urlEncodeImpl data) = data := by
  rcases base64urlEncodeImpl_spells data with ⟨digits, pad, hdigits, hpad, henc, hspell⟩
  rcases base64urlDecode_spells (base64urlEncodeImpl data) with ⟨rest, hrest, hdec⟩
  have hsextets : sextets (base64urlEncodeImpl data) = digits := by
    rw [henc]
    exact sextets_map_alphaAt hdigits
  rw [hsextets, hspell] at hdec
  have hboth := spell_append_inj (fun _ => toNat_lt_of_mem_map) (fun _ => toNat_lt_of_mem_map)
    hrest (by rw [List.length_replicate]; lia) hdec
  exact map_toNat_inj hboth.left

/-!
## Encoding a decoded string

The decoder drops the bits behind the last full octet.  Encoding restores the
string exactly when fewer than a whole sextet was dropped and all of it was
zero.
-/

theorem encode_decode_iff_dropped_zero {e : Bytes} (he : OverAlphabet e)
    {rest : List Bool}
    (hdec : spell 8 ((base64urlDecode e).map UInt8.toNat) ++ rest = spell 6 (sextets e)) :
    base64urlEncodeImpl (base64urlDecode e) = e <->
      rest.length < 6 ∧ rest = List.replicate rest.length false := by
  rcases base64urlEncodeImpl_spells (base64urlDecode e) with
    ⟨digits, pad, hdigits, hpad, henc, hspell⟩
  constructor
  · intro heq
    have hsame : digits = sextets e := by
      rw [← heq, henc, sextets_map_alphaAt hdigits]
    rw [hsame, ← hdec] at hspell
    have hrest : rest = List.replicate pad false := List.append_cancel_left hspell
    rw [hrest, List.length_replicate]
    exact ⟨hpad, rfl⟩
  · intro hrest
    have hlen := congrArg List.length hdec
    have hlen' := congrArg List.length hspell
    simp only [List.length_append, length_spell, List.length_map, List.length_replicate]
      at hlen hlen'
    have hpadEq : pad = rest.length := by
      have hlt := hrest.left
      lia
    have hsame : spell 6 digits = spell 6 (sextets e) := by
      rw [hspell, ← hdec, hrest.right, hpadEq]
    have hdigitsEq : digits = sextets e :=
      spell_inj (by decide) hdigits (fun _ hd => sextets_lt hd) hsame
    rw [henc, hdigitsEq, map_alphaAt_sextets he]

theorem dropped_bits_of_concat {front : Bytes} {last : UInt8} {rest : List Bool}
    {octets : List Nat} (he : OverAlphabet (front ++ [last])) (hrest : rest.length <= 6)
    (hdec : spell 8 octets ++ rest = spell 6 (sextets (front ++ [last]))) :
    rest = lowBits rest.length (alpha.idxOf last) := by
  have hlast := alpha_table last (he last (by simp))
  have hneg : ¬ decodeChar last < 0 := by lia
  have hsplit : lowBits 6 (alpha.idxOf last) =
      lowBits (6 - rest.length) (alpha.idxOf last / 2 ^ rest.length) ++
        lowBits rest.length (alpha.idxOf last) := by
    rw [← lowBits_add]
    congr 1
    lia
  rw [sextets_concat_of_nonneg front hneg, spell_concat, ← hlast.right.right, hsplit,
    ← List.append_assoc] at hdec
  exact (List.append_inj' hdec (by simp)).right

theorem dropped_zero_iff {e : Bytes} (he : OverAlphabet e) {rest : List Bool}
    {octets : List Nat} (hrest : rest.length < 8)
    (hdec : spell 8 octets ++ rest = spell 6 (sextets e)) :
    (rest.length < 6 ∧ rest = List.replicate rest.length false) <->
      (e.length % 4 ≠ 1 ∧ UnusedBitsZero e) := by
  have hlen := congrArg List.length hdec
  simp only [List.length_append, length_spell, length_sextets he] at hlen
  have hcases : e.length % 4 = 1 ∧ rest.length = 6 ∨
      e.length % 4 ≠ 1 ∧ rest.length = unusedBits e.length := by
    unfold unusedBits
    by_cases hone : e.length % 4 = 1
    · exact Or.inl ⟨hone, by lia⟩
    · refine Or.inr ⟨hone, ?_⟩
      split_ifs <;> lia
  rcases hcases with ⟨hone, hsix⟩ | ⟨hne, hunused⟩
  · constructor
    · intro h
      lia
    · intro h
      exact absurd hone h.left
  · have hle : unusedBits e.length < 6 := by
      unfold unusedBits
      split_ifs <;> decide
    have hzero : rest = List.replicate rest.length false <-> UnusedBitsZero e := by
      rcases List.eq_nil_or_concat e with hnil | ⟨front, last, hconcat⟩
      · subst hnil
        have hempty : rest = [] := List.eq_nil_of_length_eq_zero hunused
        rw [hempty]
        simp [UnusedBitsZero]
      · rw [List.concat_eq_append] at hconcat
        subst hconcat
        have hbits := dropped_bits_of_concat he (by lia) hdec
        rw [hbits, length_lowBits, lowBits_eq_replicate_false_iff, hunused]
        simp [UnusedBitsZero]
    constructor
    · intro h
      exact ⟨hne, hzero.mp h.right⟩
    · intro h
      exact ⟨by lia, hzero.mpr h.right⟩

theorem base64urlEncodeImpl_base64urlDecode_iff {e : Bytes} (he : OverAlphabet e) :
    base64urlEncodeImpl (base64urlDecode e) = e <->
      e.length % 4 ≠ 1 ∧ UnusedBitsZero e := by
  rcases base64urlDecode_spells e with ⟨rest, hrest, hdec⟩
  exact (encode_decode_iff_dropped_zero he hdec).trans (dropped_zero_iff he hrest hdec)

theorem canonical_base64urlEncodeImpl (data : Bytes) :
    Canonical (base64urlEncodeImpl data) := by
  have halpha := overAlphabet_base64urlEncodeImpl data
  have hround : base64urlEncodeImpl (base64urlDecode (base64urlEncodeImpl data)) =
      base64urlEncodeImpl data := by
    rw [base64urlDecode_base64urlEncodeImpl]
  have hcanon := (base64urlEncodeImpl_base64urlDecode_iff halpha).mp hround
  exact ⟨halpha, hcanon.left, hcanon.right⟩

/-- The encoder is a bijection onto the canonical strings and the decoder inverts it. -/
theorem base64url_codec :
    (forall data : Bytes, base64urlDecode (base64urlEncodeImpl data) = data) ∧
      (forall e : Bytes, OverAlphabet e ->
        (base64urlEncodeImpl (base64urlDecode e) = e <->
          e.length % 4 ≠ 1 ∧ UnusedBitsZero e)) ∧
      Set.BijOn base64urlEncodeImpl Set.univ {e | Canonical e} ∧
      Set.InvOn base64urlDecode base64urlEncodeImpl Set.univ {e | Canonical e} := by
  have hleft := base64urlDecode_base64urlEncodeImpl
  have hright : forall e, Canonical e -> base64urlEncodeImpl (base64urlDecode e) = e := by
    intro e he
    exact (base64urlEncodeImpl_base64urlDecode_iff he.alphabet).mpr ⟨he.length, he.unused⟩
  refine ⟨hleft, fun e he => base64urlEncodeImpl_base64urlDecode_iff he, ⟨?_, ?_, ?_⟩, ?_, ?_⟩
  · intro data _hdata
    exact canonical_base64urlEncodeImpl data
  · intro xs _hxs ys _hys heq
    rw [← hleft xs, heq, hleft ys]
  · intro e he
    exact ⟨base64urlDecode e, Set.mem_univ _, hright e he⟩
  · intro data _hdata
    exact hleft data
  · intro e he
    exact hright e he

end Security
end CppCommons
