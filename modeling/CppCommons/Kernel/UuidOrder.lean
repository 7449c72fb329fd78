import CppCommons.Kernel.UuidText

/-!
# The order of identities

`operator<` compares the halves as numbers.  Both texts list the hexadecimal
digits of the halves from the largest place to the smallest, in fields of fixed
width, so identities are ordered like their texts.  `std::string` compares
bytes, as the order of `Bytes` does.
-/

namespace CppCommons
namespace Kernel

open Cxx
open Foundation.Ascii

/-!
## Texts of the same length

The first place at which two texts differ decides.  Fields of one width compare like
the numbers in them, and a dash at the same place in both does not matter.
-/

theorem append_lt_append_iff {a b c d : Bytes} (h : a.length = c.length) :
    a ++ b < c ++ d <-> a < c ∨ a = c ∧ b < d := by
  induction a generalizing c with
  | nil =>
      cases c with
      | nil => simp
      | cons y c => cases h
  | cons x a ih =>
      cases c with
      | nil => cases h
      | cons y c =>
          rw [List.cons_append, List.cons_append, List.cons_lt_cons_iff, ih (Nat.succ.inj h),
            List.cons_lt_cons_iff, List.cons.injEq]
          tauto

theorem append_cons_lt_iff {a b b' c d d' : Bytes} (x : UInt8) (h : a.length = c.length)
    (hrest : b < d <-> b' < d') : a ++ x :: b < c ++ x :: d <-> a ++ b' < c ++ d' := by
  rw [append_lt_append_iff h, append_lt_append_iff h, List.cons_lt_cons_iff, hrest]
  simp [UInt8.lt_irrefl]

theorem hexDigit_lt_iff {d e : Nat} (hd : d < 16) (he : e < 16) :
    hexDigit d < hexDigit e <-> d < e := by
  interval_cases d <;> interval_cases e <;> decide

theorem hexFixed_injective {width n m : Nat} (hn : n < 16 ^ width) (hm : m < 16 ^ width)
    (h : hexFixed width n = hexFixed width m) : n = m := by
  have hnumber := congrArg hexNumber h
  rwa [hexNumber_hexFixed, hexNumber_hexFixed, Nat.mod_eq_of_lt hn, Nat.mod_eq_of_lt hm] at hnumber

theorem hexFixed_lt_iff {width n m : Nat} (hn : n < 16 ^ width) (hm : m < 16 ^ width) :
    hexFixed width n < hexFixed width m <-> n < m := by
  induction width generalizing n m with
  | zero => simp_all [hexFixed]
  | succ width ih =>
      have hnfront : n / 16 < 16 ^ width := by
        rw [pow_succ] at hn
        lia
      have hmfront : m / 16 < 16 ^ width := by
        rw [pow_succ] at hm
        lia
      have hsame : hexFixed width (n / 16) = hexFixed width (m / 16) <-> n / 16 = m / 16 :=
        ⟨hexFixed_injective hnfront hmfront, congrArg _⟩
      have hlast : [hexDigit (n % 16)] < [hexDigit (m % 16)] <-> n % 16 < m % 16 := by
        rw [List.cons_lt_cons_iff,
          hexDigit_lt_iff (Nat.mod_lt n (by decide)) (Nat.mod_lt m (by decide))]
        simp
      rw [hexFixed, hexFixed, append_lt_append_iff (by simp), ih hnfront hmfront, hsame, hlast]
      lia

namespace UUID

def less (u v : UUID) : Bool :=
  if u.hi ≠ v.hi then u.hi < v.hi else u.lo < v.lo

theorem less_iff (u v : UUID) :
    u.less v = true <-> u.hi.toNat < v.hi.toNat ∨ u.hi = v.hi ∧ u.lo.toNat < v.lo.toNat := by
  unfold less
  by_cases h : u.hi = v.hi
  · simp [h, UInt64.lt_iff_toNat_lt]
  · simp [h, UInt64.lt_iff_toNat_lt]

theorem less_iff_noDashes (u v : UUID) :
    u.less v = true <-> u.toStringNoDashes < v.toStringNoDashes := by
  have hhi : u.hi.toNat < 16 ^ 16 := u.hi.toNat_lt
  have hlo : u.lo.toNat < 16 ^ 16 := u.lo.toNat_lt
  have hhi' : v.hi.toNat < 16 ^ 16 := v.hi.toNat_lt
  have hlo' : v.lo.toNat < 16 ^ 16 := v.lo.toNat_lt
  have hsame : hexFixed 16 u.hi.toNat = hexFixed 16 v.hi.toNat <-> u.hi = v.hi :=
    ⟨fun h => UInt64.toNat_inj.mp (hexFixed_injective hhi hhi' h), fun h => by rw [h]⟩
  rw [less_iff, toStringNoDashes, toStringNoDashes, append_lt_append_iff (by simp),
    hexFixed_lt_iff hhi hhi', hexFixed_lt_iff hlo hlo', hsame]

theorem toStringNoDashes_eq_groups (u : UUID) :
    u.toStringNoDashes =
      u.groups.a ++ (u.groups.b ++ (u.groups.c ++ (u.groups.d ++ u.groups.e))) := by
  rw [toStringNoDashes_eq_filter]
  have hdash : (ascii "-").filter (fun c => c != 45) = [] := by decide
  simp only [toString, groups, List.filter_append, filter_hexFixed, hdash, List.nil_append,
    List.append_assoc]

theorem less_iff_toString (u v : UUID) : u.less v = true <-> u.toString < v.toString := by
  have ha := u.groups.length_a.trans v.groups.length_a.symm
  have hb := u.groups.length_b.trans v.groups.length_b.symm
  have hc := u.groups.length_c.trans v.groups.length_c.symm
  have hd := u.groups.length_d.trans v.groups.length_d.symm
  rw [less_iff_noDashes, toStringNoDashes_eq_groups, toStringNoDashes_eq_groups,
    toString_eq_text, toString_eq_text]
  symm
  exact append_cons_lt_iff 45 ha (append_cons_lt_iff 45 hb
    (append_cons_lt_iff 45 hc (append_cons_lt_iff 45 hd Iff.rfl)))

theorem less_irrefl (u : UUID) : ¬ u.less u = true := by
  simp [less]

theorem less_trans {u v w : UUID} (huv : u.less v = true) (hvw : v.less w = true) :
    u.less w = true := by
  rw [less_iff] at *
  rcases huv with hhi | ⟨hhi, hlo⟩ <;> rcases hvw with hhi' | ⟨hhi', hlo'⟩
  · exact .inl (hhi.trans hhi')
  · exact .inl (hhi' ▸ hhi)
  · exact .inl (hhi ▸ hhi')
  · exact .inr ⟨hhi.trans hhi', hlo.trans hlo'⟩

theorem eq_of_not_less {u v : UUID} (huv : ¬ u.less v = true) (hvu : ¬ v.less u = true) :
    u = v := by
  rw [less_iff, not_or] at huv hvu
  have hhi : u.hi = v.hi := UInt64.toNat_inj.mp (by lia)
  have hlo : u.lo = v.lo := by
    have huvlo := fun h => huv.right ⟨hhi, h⟩
    have hvulo := fun h => hvu.right ⟨hhi.symm, h⟩
    exact UInt64.toNat_inj.mp (by lia)
  exact congrArg₂ UUID.mk hhi hlo

end UUID

/-!
## Identities with a tag

A tag keeps identities of different kinds apart and has no part in the comparison.
-/

/-- The tag is a type that only keeps identities of different kinds apart. -/
structure StrongId (Tag : Type) where
  uuid : UUID
deriving DecidableEq

namespace StrongId

variable {Tag : Type}

def fromString (s : Bytes) : Option (StrongId Tag) :=
  match UUID.fromString s with
  | none => none
  | some uuid => some { uuid := uuid }

def toString (i : StrongId Tag) : Bytes :=
  i.uuid.toString

def less (i j : StrongId Tag) : Bool :=
  i.uuid.less j.uuid

theorem uuid_of_fromString {s : Bytes} {i : StrongId Tag} (h : fromString s = some i) :
    UUID.fromString s = some i.uuid := by
  unfold fromString at h
  cases huuid : UUID.fromString s with
  | none =>
      rw [huuid] at h
      cases h
  | some uuid =>
      rw [huuid] at h
      cases h
      rfl

theorem less_isStrictTotalOrder :
    IsStrictTotalOrder (StrongId Tag) (fun i j => i.less j = true) where
  irrefl i := UUID.less_irrefl i.uuid
  trans _ _ _ hij hjk := UUID.less_trans hij hjk
  trichotomous _ _ hij hji := congrArg mk (UUID.eq_of_not_less hij hji)

/--
The order of identities is the order of their texts, with and without dashes, and
that of any two texts they were parsed from as soon as these are in lower case;
it is a strict total order.
-/
theorem less_is_text_order (Tag : Type) :
    IsStrictTotalOrder (StrongId Tag) (fun i j => i.less j = true) ∧
      forall i j : StrongId Tag,
        (i.less j = true <-> i.toString < j.toString) ∧
        (i.less j = true <-> i.uuid.toStringNoDashes < j.uuid.toStringNoDashes) ∧
        forall s t, fromString s = some i -> fromString t = some j ->
          (i.less j = true <-> s.map toLower < t.map toLower) := by
  refine ⟨less_isStrictTotalOrder, fun i j => ⟨?_, ?_, ?_⟩⟩
  · exact UUID.less_iff_toString i.uuid j.uuid
  · exact UUID.less_iff_noDashes i.uuid j.uuid
  · intro s t hs ht
    rw [← UUID.toString_of_fromString (uuid_of_fromString hs),
      ← UUID.toString_of_fromString (uuid_of_fromString ht)]
    exact UUID.less_iff_toString i.uuid j.uuid

end StrongId
end Kernel
end CppCommons
