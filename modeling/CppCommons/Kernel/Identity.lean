import CppCommons.Cxx.Format

/-!
# Identities

`UUID` of the kernel: two 64-bit halves, drawn at random with the version and
variant bits of a version-4 UUID set, the two ways to print them, and the parser
of the printed form.
-/

namespace CppCommons
namespace Kernel

open Cxx

structure UUID where
  hi : UInt64
  lo : UInt64
deriving DecidableEq

namespace UUID

def generate (a b : UInt64) : UUID where
  hi := (a &&& 0xFFFFFFFFFFFF0FFF) ||| 0x0000000000004000
  lo := (b &&& 0x3FFFFFFFFFFFFFFF) ||| 0x8000000000000000

def toString (u : UUID) : Bytes :=
  hexFixed 8 (u.hi >>> 32).toUInt32.toNat ++ ascii "-" ++
    hexFixed 4 (u.hi >>> 16).toUInt16.toNat ++ ascii "-" ++
    hexFixed 4 u.hi.toUInt16.toNat ++ ascii "-" ++
    hexFixed 4 (u.lo >>> 48).toUInt16.toNat ++ ascii "-" ++
    hexFixed 12 (u.lo &&& 0x0000FFFFFFFFFFFF).toNat

def toStringNoDashes (u : UUID) : Bytes :=
  hexFixed 16 u.hi.toNat ++ hexFixed 16 u.lo.toNat

def hexNibble (c : UInt8) : Option UInt64 :=
  if 48 <= c && c <= 57 then some (c - 48).toUInt64
  else if 97 <= c && c <= 102 then some (c - 97 + 10).toUInt64
  else if 65 <= c && c <= 70 then some (c - 65 + 10).toUInt64
  else none

def readHex (src : Bytes) : Option UInt64 :=
  src.foldlM (fun v c => (hexNibble c).map (fun d => (v <<< 4) ||| d)) 0

def field (s : Bytes) (pos count : Nat) : Bytes :=
  (s.drop pos).take count

def fromString (s : Bytes) : Option UUID :=
  if s.length ≠ 36 then none
  else if s[8]? ≠ some 45 ∨ s[13]? ≠ some 45 ∨ s[18]? ≠ some 45 ∨ s[23]? ≠ some 45 then none
  else do
    let p1 <- readHex (field s 0 8)
    let p2 <- readHex (field s 9 4)
    let p3 <- readHex (field s 14 4)
    let p4 <- readHex (field s 19 4)
    let p5 <- readHex (field s 24 12)
    return { hi := (p1 <<< 32) ||| (p2 <<< 16) ||| p3, lo := (p4 <<< 48) ||| p5 }

theorem length_toString (u : UUID) : u.toString.length = 36 := by
  simp only [toString, List.length_append, length_hexFixed]
  rfl

theorem length_toStringNoDashes (u : UUID) : u.toStringNoDashes.length = 32 := by
  rw [toStringNoDashes, List.length_append, length_hexFixed, length_hexFixed]

theorem isHexDigit_of_mem_toStringNoDashes {u : UUID} {c : UInt8}
    (h : c ∈ u.toStringNoDashes) : isHexDigit c = true := by
  rcases List.mem_append.mp h with hhi | hlo
  · exact isHexDigit_of_mem_hexFixed hhi
  · exact isHexDigit_of_mem_hexFixed hlo

end UUID
end Kernel
end CppCommons
