import CppCommons.Kernel.Identity

/-!
# The text of a UUID

`from_string` reads the five groups of digits into words and shifts them into
the two halves; `to_string` takes the halves apart again.  Both are compared
through the numbers that the groups denote.
-/

namespace CppCommons
namespace Kernel
namespace UUID

open Cxx

/-!
## One group of digits

Up to sixteen digits fit into a word, so shifting them in one after the other gives
the number that they denote.
-/

theorem hexNibble_eq :
    forall c : UInt8,
      hexNibble c = if isHexDigit c then some (UInt64.ofNat (hexDigitNumber c)) else none := by
  decide +kernel

theorem readHex_concat (s : Bytes) (c : UInt8) :
    readHex (s ++ [c]) =
      (readHex s).bind (fun v => (hexNibble c).map (fun d => (v <<< 4) ||| d)) := by
  rw [readHex, List.foldlM_append]
  simp [readHex]

theorem shiftLeft_or_ofNat {n d : Nat} {k : UInt64} (hk : k.toNat < 64)
    (hn : n * 2 ^ k.toNat < 2 ^ 64) (hd : d < 2 ^ k.toNat) :
    (UInt64.ofNat n <<< k) ||| UInt64.ofNat d = UInt64.ofNat (n * 2 ^ k.toNat + d) := by
  have hpos := Nat.two_pow_pos k.toNat
  have hlow : 2 ^ k.toNat <= 2 ^ 63 := Nat.pow_le_pow_right (by decide) (by lia)
  have hbound : n * 2 ^ k.toNat + d < 2 ^ 64 := by
    have hsplit : 2 ^ 64 = 2 ^ (64 - k.toNat) * 2 ^ k.toNat := by
      rw [← pow_add, Nat.sub_add_cancel (by lia)]
    rw [hsplit] at hn ⊢
    have hfactor := Nat.lt_of_mul_lt_mul_right hn
    calc
      n * 2 ^ k.toNat + d < n * 2 ^ k.toNat + 2 ^ k.toNat := Nat.add_lt_add_left hd _
      _ = (n + 1) * 2 ^ k.toNat := (Nat.succ_mul n _).symm
      _ <= 2 ^ (64 - k.toNat) * 2 ^ k.toNat := Nat.mul_le_mul_right _ hfactor
  have hword : (UInt64.ofNat n).toNat = n :=
    UInt64.toNat_ofNat_of_lt' (Nat.lt_of_le_of_lt (Nat.le_mul_of_pos_right n hpos) hn)
  have hdigit : (UInt64.ofNat d).toNat = d := UInt64.toNat_ofNat_of_lt' (by lia)
  apply UInt64.toNat_inj.mp
  rw [UInt64.toNat_or, UInt64.toNat_shiftLeft, hword, hdigit, UInt64.toNat_ofNat_of_lt' hbound,
    Nat.mod_eq_of_lt hk, Nat.shiftLeft_eq, Nat.mod_eq_of_lt hn, ← Nat.shiftLeft_eq,
    ← Nat.shiftLeft_add_eq_or_of_lt hd]

theorem readHex_eq {s : Bytes} (hlength : s.length <= 16) :
    readHex s = if s.all isHexDigit then some (UInt64.ofNat (hexNumber s)) else none := by
  induction s using List.reverseRecOn with
  | nil => rfl
  | append_singleton s c ih =>
      rw [List.length_append, List.length_singleton] at hlength
      rw [readHex_concat, ih (by lia), hexNibble_eq, List.all_append, List.all_cons, List.all_nil,
        Bool.and_true, hexNumber_concat]
      by_cases hs : s.all isHexDigit = true
      · by_cases hc : isHexDigit c = true
        · have hfront : hexNumber s < 2 ^ 60 := by
            calc
              hexNumber s < 16 ^ s.length := hexNumber_lt (List.all_eq_true.mp hs)
              _ <= 16 ^ 15 := Nat.pow_le_pow_right (by decide) (by lia)
              _ = 2 ^ 60 := by norm_num
          have hshift : (UInt64.ofNat (hexNumber s) <<< 4) ||| UInt64.ofNat (hexDigitNumber c) =
              UInt64.ofNat (16 * hexNumber s + hexDigitNumber c) := by
            rw [Nat.mul_comm]
            exact shiftLeft_or_ofNat (k := 4) (by decide) (by simp; lia) (hexDigitNumber_lt hc)
          simp [hs, hc, hshift]
        · simp [hs, hc]
      · simp [hs]

/-!
## The layout

Five groups of 8, 4, 4, 4 and 12 digits between dashes.  The parser accepts exactly
these, and the words of the groups do not overlap in the halves.
-/

structure Groups where
  a : Bytes
  b : Bytes
  c : Bytes
  d : Bytes
  e : Bytes
  length_a : a.length = 8
  length_b : b.length = 4
  length_c : c.length = 4
  length_d : d.length = 4
  length_e : e.length = 12

namespace Groups

def text (g : Groups) : Bytes :=
  g.a ++ 45 :: (g.b ++ 45 :: (g.c ++ 45 :: (g.d ++ 45 :: g.e)))

def AllHex (g : Groups) : Prop :=
  forall s, s ∈ [g.a, g.b, g.c, g.d, g.e] -> s.all isHexDigit = true

def halves (g : Groups) : UUID where
  hi := UInt64.ofNat
    (hexNumber g.a * 2 ^ 32 + (hexNumber g.b * 2 ^ 16 + hexNumber g.c))
  lo := UInt64.ofNat (hexNumber g.d * 2 ^ 48 + hexNumber g.e)

end Groups

theorem split_at {s : Bytes} {k : Nat} {c : UInt8} (h : s[k]? = some c) :
    s = s.take k ++ c :: s.drop (k + 1) := by
  rcases List.getElem?_eq_some_iff.mp h with ⟨hk, hc⟩
  rw [← hc, ← List.drop_eq_getElem_cons hk, List.take_append_drop]

theorem exists_groups {s : Bytes} (hlength : s.length = 36) (h8 : s[8]? = some 45)
    (h13 : s[13]? = some 45) (h18 : s[18]? = some 45) (h23 : s[23]? = some 45) :
    exists g : Groups, s = g.text := by
  have hb : (s.drop 9)[4]? = some 45 := by
    rw [List.getElem?_drop]
    exact h13
  have hc : (s.drop 14)[4]? = some 45 := by
    rw [List.getElem?_drop]
    exact h18
  have hd : (s.drop 19)[4]? = some 45 := by
    rw [List.getElem?_drop]
    exact h23
  have h14 := split_at hb
  have h19 := split_at hc
  have h24 := split_at hd
  rw [List.drop_drop] at h14 h19 h24
  refine ⟨⟨s.take 8, (s.drop 9).take 4, (s.drop 14).take 4, (s.drop 19).take 4, s.drop 24,
    ?_, ?_, ?_, ?_, ?_⟩, ?_⟩
  · simp [hlength]
  · simp [hlength]
  · simp [hlength]
  · simp [hlength]
  · simp [hlength]
  · rw [Groups.text, ← h24, ← h19, ← h14]
    exact split_at h8

theorem field_middle (pre block rest : Bytes) :
    field (pre ++ (block ++ rest)) pre.length block.length = block := by
  simp [field]

theorem fromString_text (g : Groups) :
    fromString g.text = do
      let p1 <- readHex g.a
      let p2 <- readHex g.b
      let p3 <- readHex g.c
      let p4 <- readHex g.d
      let p5 <- readHex g.e
      return { hi := (p1 <<< 32) ||| (p2 <<< 16) ||| p3, lo := (p4 <<< 48) ||| p5 } := by
  rcases g with ⟨a, b, c, d, e, ha, hb, hc, hd, he⟩
  have ha' := field_middle [] a (45 :: (b ++ 45 :: (c ++ 45 :: (d ++ 45 :: e))))
  have hb' := field_middle (a ++ [45]) b (45 :: (c ++ 45 :: (d ++ 45 :: e)))
  have hc' := field_middle (a ++ 45 :: (b ++ [45])) c (45 :: (d ++ 45 :: e))
  have hd' := field_middle (a ++ 45 :: (b ++ 45 :: (c ++ [45]))) d (45 :: e)
  have he' := field_middle (a ++ 45 :: (b ++ 45 :: (c ++ 45 :: (d ++ [45])))) e []
  simp only [List.length_append, List.length_cons, List.length_nil, ha, hb, hc, hd, he,
    List.append_assoc, List.cons_append, List.nil_append, List.append_nil] at ha' hb' hc' hd' he'
  simp [fromString, Groups.text, ha', hb', hc', hd', he', ha, hb, hc, hd, he]

namespace Groups

variable {g : Groups}

theorem hexNumber_lt_of_length {s : Bytes} {n : Nat} (h : s.all isHexDigit = true)
    (hlength : s.length = n) : hexNumber s < 16 ^ n := by
  rw [← hlength]
  exact hexNumber_lt (List.all_eq_true.mp h)

theorem length_le {s : Bytes} (hs : s ∈ [g.a, g.b, g.c, g.d, g.e]) : s.length <= 16 := by
  simp only [List.mem_cons, List.not_mem_nil, or_false] at hs
  have ha := g.length_a
  have hb := g.length_b
  have hc := g.length_c
  have hd := g.length_d
  have he := g.length_e
  rcases hs with rfl | rfl | rfl | rfl | rfl
  all_goals lia

structure Bounded (g : Groups) : Prop where
  a : hexNumber g.a < 2 ^ 32
  b : hexNumber g.b < 2 ^ 16
  c : hexNumber g.c < 2 ^ 16
  d : hexNumber g.d < 2 ^ 16
  e : hexNumber g.e < 2 ^ 48

theorem bounded_of_allHex (h : g.AllHex) : g.Bounded :=
  ⟨hexNumber_lt_of_length (h g.a (by simp)) g.length_a,
    hexNumber_lt_of_length (h g.b (by simp)) g.length_b,
    hexNumber_lt_of_length (h g.c (by simp)) g.length_c,
    hexNumber_lt_of_length (h g.d (by simp)) g.length_d,
    hexNumber_lt_of_length (h g.e (by simp)) g.length_e⟩

theorem assembled_eq (h : g.Bounded) :
    ({ hi := (UInt64.ofNat (hexNumber g.a) <<< 32) ||| (UInt64.ofNat (hexNumber g.b) <<< 16) |||
          UInt64.ofNat (hexNumber g.c)
       lo := (UInt64.ofNat (hexNumber g.d) <<< 48) ||| UInt64.ofNat (hexNumber g.e) } : UUID) =
      g.halves := by
  have ha := h.a
  have hb := h.b
  have hc := h.c
  have hd := h.d
  have hmiddle := shiftLeft_or_ofNat (k := 16) (by decide) (by simp; lia) hc (n := hexNumber g.b)
  have hhigh := shiftLeft_or_ofNat (n := hexNumber g.a) (k := 32)
    (d := hexNumber g.b * 2 ^ 16 + hexNumber g.c) (by decide) (by simp; lia) (by simp; lia)
  have hlow := shiftLeft_or_ofNat (k := 48) (by decide) (by simp; lia) h.e (n := hexNumber g.d)
  simp only [UInt64.reduceToNat] at hmiddle hhigh hlow
  rw [UInt64.or_assoc, hmiddle, hhigh, hlow, halves]

end Groups

theorem fromString_of_allHex {g : Groups} (h : g.AllHex) : fromString g.text = some g.halves := by
  have hread : forall s, s ∈ [g.a, g.b, g.c, g.d, g.e] ->
      readHex s = some (UInt64.ofNat (hexNumber s)) := by
    intro s hs
    rw [readHex_eq (Groups.length_le hs), if_pos (h s hs)]
  rw [fromString_text, hread g.a (by simp), hread g.b (by simp), hread g.c (by simp),
    hread g.d (by simp), hread g.e (by simp)]
  exact congrArg some (Groups.assembled_eq (Groups.bounded_of_allHex h))

theorem allHex_of_fromString {g : Groups} {u : UUID} (h : fromString g.text = some u) :
    g.AllHex := by
  rw [fromString_text] at h
  simp only [Option.bind_eq_bind, Option.bind_eq_some_iff] at h
  rcases h with ⟨p1, h1, p2, h2, p3, h3, p4, h4, p5, h5, _⟩
  have hread : forall s, s ∈ [g.a, g.b, g.c, g.d, g.e] -> exists p, readHex s = some p := by
    intro s hs
    simp only [List.mem_cons, List.not_mem_nil, or_false] at hs
    rcases hs with rfl | rfl | rfl | rfl | rfl
    · exact ⟨p1, h1⟩
    · exact ⟨p2, h2⟩
    · exact ⟨p3, h3⟩
    · exact ⟨p4, h4⟩
    · exact ⟨p5, h5⟩
  intro s hs
  rcases hread s hs with ⟨p, hp⟩
  by_contra hbad
  rw [readHex_eq (Groups.length_le hs), if_neg hbad] at hp
  cases hp

theorem fromString_eq_some_iff (s : Bytes) (u : UUID) :
    fromString s = some u <-> exists g : Groups, s = g.text ∧ g.AllHex ∧ u = g.halves := by
  constructor
  · intro h
    have hparts := h
    unfold fromString at hparts
    split at hparts
    · cases hparts
    · next hlength =>
        split at hparts
        · cases hparts
        · next hdashes =>
            simp only [not_or, not_not] at hlength hdashes
            rcases hdashes with ⟨h8, h13, h18, h23⟩
            rcases exists_groups hlength h8 h13 h18 h23 with ⟨g, hg⟩
            rw [hg] at h
            have hhex := allHex_of_fromString h
            rw [fromString_of_allHex hhex] at h
            exact ⟨g, hg, hhex, (Option.some.inj h).symm⟩
  · rintro ⟨g, rfl, hhex, rfl⟩
    exact fromString_of_allHex hhex

/-!
## Printing

`to_string` cuts the groups out of the halves again, so a text is printed as it was
read, in lower case.
-/

def groups (u : UUID) : Groups where
  a := hexFixed 8 (u.hi >>> 32).toUInt32.toNat
  b := hexFixed 4 (u.hi >>> 16).toUInt16.toNat
  c := hexFixed 4 u.hi.toUInt16.toNat
  d := hexFixed 4 (u.lo >>> 48).toUInt16.toNat
  e := hexFixed 12 (u.lo &&& 0x0000FFFFFFFFFFFF).toNat
  length_a := length_hexFixed _ _
  length_b := length_hexFixed _ _
  length_c := length_hexFixed _ _
  length_d := length_hexFixed _ _
  length_e := length_hexFixed _ _

theorem toString_eq_text (u : UUID) : u.toString = u.groups.text := by
  simp [toString, Groups.text, groups, ascii]

theorem allHex_groups (u : UUID) : u.groups.AllHex := by
  intro s hs
  simp only [groups, List.mem_cons, List.not_mem_nil, or_false] at hs
  rw [List.all_eq_true]
  intro c hc
  rcases hs with rfl | rfl | rfl | rfl | rfl <;> exact isHexDigit_of_mem_hexFixed hc

structure Printed (u : UUID) : Prop where
  a : (u.hi >>> 32).toUInt32.toNat = u.hi.toNat / 2 ^ 32
  b : (u.hi >>> 16).toUInt16.toNat = u.hi.toNat / 2 ^ 16 % 2 ^ 16
  c : u.hi.toUInt16.toNat = u.hi.toNat % 2 ^ 16
  d : (u.lo >>> 48).toUInt16.toNat = u.lo.toNat / 2 ^ 48
  e : (u.lo &&& 0x0000FFFFFFFFFFFF).toNat = u.lo.toNat % 2 ^ 48

theorem printed (u : UUID) : Printed u := by
  have hhi := u.hi.toNat_lt
  have hlo := u.lo.toNat_lt
  constructor
  · rw [UInt64.toNat_toUInt32, UInt64.toNat_shiftRight, Nat.shiftRight_eq_div_pow]
    simp only [UInt64.reduceToNat, Nat.reduceMod]
    lia
  · rw [UInt64.toNat_toUInt16, UInt64.toNat_shiftRight, Nat.shiftRight_eq_div_pow]
    rfl
  · exact UInt64.toNat_toUInt16 u.hi
  · rw [UInt64.toNat_toUInt16, UInt64.toNat_shiftRight, Nat.shiftRight_eq_div_pow]
    simp only [UInt64.reduceToNat, Nat.reduceMod]
    lia
  · rw [UInt64.toNat_and]
    exact Nat.and_two_pow_sub_one_eq_mod u.lo.toNat 48

theorem halves_groups (u : UUID) : u.groups.halves = u := by
  have hhi := u.hi.toNat_lt
  have hlo := u.lo.toNat_lt
  have h := printed u
  have hhigh : u.hi.toNat / 2 ^ 32 % 16 ^ 8 * 2 ^ 32 +
      (u.hi.toNat / 2 ^ 16 % 2 ^ 16 % 16 ^ 4 * 2 ^ 16 + u.hi.toNat % 2 ^ 16 % 16 ^ 4) =
      u.hi.toNat := by lia
  have hlow : u.lo.toNat / 2 ^ 48 % 16 ^ 4 * 2 ^ 48 + u.lo.toNat % 2 ^ 48 % 16 ^ 12 =
      u.lo.toNat := by
    rw [Nat.mod_eq_of_lt (by lia : u.lo.toNat / 2 ^ 48 < 16 ^ 4),
      show 16 ^ 12 = 2 ^ 48 by norm_num, Nat.mod_mod, Nat.div_add_mod']
  simp only [Groups.halves, groups, hexNumber_hexFixed, h.a, h.b, h.c, h.d, h.e, hhigh, hlow,
    UInt64.ofNat_toNat]

theorem fromString_toString (u : UUID) : fromString u.toString = some u := by
  rw [toString_eq_text, fromString_of_allHex (allHex_groups u), halves_groups]

theorem map_toLower_group {s : Bytes} {n : Nat} (h : s.all isHexDigit = true)
    (hlength : s.length = n) : hexFixed n (hexNumber s) = s.map toLower := by
  rw [← hlength]
  exact hexFixed_hexNumber (List.all_eq_true.mp h)

theorem toString_halves {g : Groups} (h : g.AllHex) :
    g.halves.toString = g.text.map toLower := by
  have hbounded := Groups.bounded_of_allHex h
  have ha := hbounded.a
  have hb := hbounded.b
  have hc := hbounded.c
  have hd := hbounded.d
  have he := hbounded.e
  have hhi : g.halves.hi.toNat =
      hexNumber g.a * 2 ^ 32 + (hexNumber g.b * 2 ^ 16 + hexNumber g.c) :=
    UInt64.toNat_ofNat_of_lt' (by simp only [UInt64.size]; lia)
  have hlo : g.halves.lo.toNat = hexNumber g.d * 2 ^ 48 + hexNumber g.e :=
    UInt64.toNat_ofNat_of_lt' (by simp only [UInt64.size]; lia)
  have h1 : (g.halves.hi >>> 32).toUInt32.toNat = hexNumber g.a := by
    rw [(printed g.halves).a, hhi]
    lia
  have h2 : (g.halves.hi >>> 16).toUInt16.toNat = hexNumber g.b := by
    rw [(printed g.halves).b, hhi]
    omega
  have h3 : g.halves.hi.toUInt16.toNat = hexNumber g.c := by
    rw [(printed g.halves).c, hhi]
    lia
  have h4 : (g.halves.lo >>> 48).toUInt16.toNat = hexNumber g.d := by
    rw [(printed g.halves).d, hlo]
    lia
  have h5 : (g.halves.lo &&& 0x0000FFFFFFFFFFFF).toNat = hexNumber g.e := by
    rw [(printed g.halves).e, hlo]
    lia
  rw [toString, h1, h2, h3, h4, h5, map_toLower_group (h g.a (by simp)) g.length_a,
    map_toLower_group (h g.b (by simp)) g.length_b, map_toLower_group (h g.c (by simp)) g.length_c,
    map_toLower_group (h g.d (by simp)) g.length_d, map_toLower_group (h g.e (by simp)) g.length_e]
  simp [Groups.text, toLower, ascii]

theorem filter_hexFixed (width n : Nat) :
    (hexFixed width n).filter (fun c => c != 45) = hexFixed width n := by
  rw [List.filter_eq_self]
  intro c hc
  have hhex := isHexDigit_of_mem_hexFixed hc
  rw [bne_iff_ne]
  intro hdash
  rw [hdash] at hhex
  cases hhex

theorem toStringNoDashes_eq_filter (u : UUID) :
    u.toStringNoDashes = u.toString.filter (fun c => c != 45) := by
  have h := printed u
  have hhi : hexFixed 16 u.hi.toNat =
      hexFixed 8 (u.hi.toNat / 2 ^ 32) ++
        (hexFixed 4 (u.hi.toNat / 2 ^ 16 % 2 ^ 16) ++ hexFixed 4 (u.hi.toNat % 2 ^ 16)) := by
    rw [hexFixed_add 8 8, hexFixed_add 4 4 u.hi.toNat, ← hexFixed_mod 4 (u.hi.toNat / 16 ^ 4),
      ← hexFixed_mod 4 u.hi.toNat]
    rfl
  have hlo : hexFixed 16 u.lo.toNat =
      hexFixed 4 (u.lo.toNat / 2 ^ 48) ++ hexFixed 12 (u.lo.toNat % 2 ^ 48) := by
    rw [hexFixed_add 4 12, ← hexFixed_mod 12 u.lo.toNat]
    rfl
  have hdash : (ascii "-").filter (fun c => c != 45) = [] := by decide
  rw [toStringNoDashes, hhi, hlo, toString, h.a, h.b, h.c, h.d, h.e]
  simp only [List.filter_append, filter_hexFixed, hdash, List.nil_append, List.append_assoc]

theorem toString_of_fromString {s : Bytes} {u : UUID} (h : fromString s = some u) :
    u.toString = s.map toLower := by
  rcases (fromString_eq_some_iff s u).mp h with ⟨g, hg, hhex, hhalves⟩
  rw [hhalves, hg]
  exact toString_halves hhex

/-- Groups of 8, 4, 4, 4 and 12 hexadecimal digits, separated by dashes. -/
def Layout (s : Bytes) : Prop :=
  exists g : Groups, s = g.text ∧ g.AllHex

/--
A UUID is read back from its text; the text without dashes is the other text;
the parser accepts exactly the layout, digits of either case; and what it
accepts is printed as it was, in lower case.
-/
theorem uuid_text (u : UUID) (s : Bytes) :
    fromString u.toString = some u ∧
      u.toStringNoDashes = u.toString.filter (fun c => c != 45) ∧
      ((fromString s).isSome = true <-> Layout s) ∧
      forall v, fromString s = some v -> v.toString = s.map toLower := by
  refine ⟨fromString_toString u, toStringNoDashes_eq_filter u, ?_, ?_⟩
  · rw [Option.isSome_iff_exists]
    constructor
    · rintro ⟨v, hv⟩
      rcases (fromString_eq_some_iff s v).mp hv with ⟨g, hg, hhex, _⟩
      exact ⟨g, hg, hhex⟩
    · rintro ⟨g, hg, hhex⟩
      exact ⟨g.halves, (fromString_eq_some_iff s g.halves).mpr ⟨g, hg, hhex, rfl⟩⟩
  · intro v hv
    exact toString_of_fromString hv

end UUID
end Kernel
end CppCommons
