import Mathlib

/-!
# Byte strings

`std::string` and `std::string_view` are modelled as lists of bytes.  Only the
library calls the modelled sources make are given here: character search,
substring extraction with its range check, and string literals.
-/

namespace CppCommons
namespace Cxx

/-- Contents of a `std::string` or `std::string_view`. -/
abbrev Bytes := List UInt8

def ascii (s : String) : Bytes :=
  s.toList.map (fun c => UInt8.ofNat c.toNat)

def dot : UInt8 := 46

namespace Bytes

/-- `s.find(c, pos)`, with `none` for `npos`. -/
def find (s : Bytes) (c : UInt8) (pos : Nat) : Option Nat :=
  ((s.drop pos).findIdx? (fun x => x == c)).map (fun i => i + pos)

/-- `s.substr(pos, count)`; `none` is the `std::out_of_range` exit taken when
`pos` lies beyond the end. -/
def substr (s : Bytes) (pos count : Nat) : Option Bytes :=
  if s.length < pos then none else some ((s.drop pos).take count)

def substrFrom (s : Bytes) (pos : Nat) : Option Bytes :=
  if s.length < pos then none else some (s.drop pos)

/-!
## Search

`find` stops at the first occurrence behind the given position, so the text between
the two is free of the character.
-/

theorem findIdx?_eq_none_iff_not_mem (s : Bytes) (c : UInt8) :
    s.findIdx? (fun x => x == c) = none <-> c ∉ s := by
  rw [List.findIdx?_eq_none_iff]
  constructor
  · intro h hc
    simpa using h c hc
  · intro h x hx
    have hne : x ≠ c := by
      intro heq
      rw [heq] at hx
      exact h hx
    simpa using hne

theorem find_eq_none_iff (s : Bytes) (c : UInt8) (pos : Nat) :
    find s c pos = none <-> c ∉ s.drop pos := by
  unfold find
  rw [Option.map_eq_none_iff, findIdx?_eq_none_iff_not_mem]

theorem find_append_cons (pre : Bytes) {block : Bytes} {c : UInt8} (suffix : Bytes)
    (hblock : c ∉ block) :
    find (pre ++ (block ++ c :: suffix)) c pre.length =
      some (pre.length + block.length) := by
  have hnone := (findIdx?_eq_none_iff_not_mem block c).mpr hblock
  have hidx : (block ++ c :: suffix).findIdx? (fun x => x == c) = some block.length := by
    rw [List.findIdx?_append, hnone, List.findIdx?_cons]
    simp
  unfold find
  rw [List.drop_left, hidx]
  simp [Nat.add_comm]

theorem le_of_find_eq_some {s : Bytes} {c : UInt8} {pos i : Nat} (h : find s c pos = some i) :
    pos <= i := by
  rcases Option.map_eq_some_iff.mp h with ⟨k, _, hk⟩
  lia

theorem find_zero_append_cons {block : Bytes} {c : UInt8} (hblock : c ∉ block) (suffix : Bytes) :
    find (block ++ c :: suffix) c 0 = some block.length := by
  have hfind := find_append_cons [] suffix hblock
  simpa using hfind

theorem find_append_right (pre s : Bytes) (c : UInt8) (pos : Nat) :
    find (pre ++ s) c (pre.length + pos) = (find s c pos).map (fun i => pre.length + i) := by
  have hdrop : (pre ++ s).drop (pre.length + pos) = s.drop pos := by
    rw [← List.drop_drop, List.drop_left]
  unfold find
  rw [hdrop, Option.map_map]
  apply congrArg (fun f => Option.map f _)
  funext i
  exact Nat.add_left_comm i pre.length pos

/-!
## Substrings

Substrings of a text that is given by its parts.
-/

theorem substr_prefix (s suffix : Bytes) :
    substr (s ++ suffix) 0 s.length = some s := by
  simp [substr]

theorem substr_middle (pre block suffix : Bytes) :
    substr (pre ++ (block ++ suffix)) pre.length block.length = some block := by
  simp [substr]

theorem drop_append_cons (block : Bytes) (c : UInt8) (suffix : Bytes) :
    (block ++ c :: suffix).drop (block.length + 1) = suffix := by
  rw [← List.drop_drop, List.drop_left, List.drop_one, List.tail_cons]

theorem substrFrom_append (pre suffix : Bytes) :
    substrFrom (pre ++ suffix) pre.length = some suffix := by
  simp [substrFrom]

end Bytes

end Cxx
end CppCommons
