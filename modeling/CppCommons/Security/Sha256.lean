import CppCommons.Cxx.ByteString

/-!
# SHA-256 and HMAC-SHA-256

The hash of `jwt_signer.cpp`, function by function: padding, message schedule,
compression rounds, digest layout, and the keyed construction on top.  The
schedule array is a list of 64 words that the loops overwrite in place.
-/

namespace CppCommons
namespace Security

open Cxx

/-!
## Constants and word operations

The table of the source and the rotation of a word.
-/

def k256 : List UInt32 :=
  [0x428a2f98, 0x71374491, 0xb5c0fbcf, 0xe9b5dba5, 0x3956c25b, 0x59f111f1, 0x923f82a4, 0xab1c5ed5,
   0xd807aa98, 0x12835b01, 0x243185be, 0x550c7dc3, 0x72be5d74, 0x80deb1fe, 0x9bdc06a7, 0xc19bf174,
   0xe49b69c1, 0xefbe4786, 0x0fc19dc6, 0x240ca1cc, 0x2de92c6f, 0x4a7484aa, 0x5cb0a9dc, 0x76f988da,
   0x983e5152, 0xa831c66d, 0xb00327c8, 0xbf597fc7, 0xc6e00bf3, 0xd5a79147, 0x06ca6351, 0x14292967,
   0x27b70a85, 0x2e1b2138, 0x4d2c6dfc, 0x53380d13, 0x650a7354, 0x766a0abb, 0x81c2c92e, 0x92722c85,
   0xa2bfe8a1, 0xa81a664b, 0xc24b8b70, 0xc76c51a3, 0xd192e819, 0xd6990624, 0xf40e3585, 0x106aa070,
   0x19a4c116, 0x1e376c08, 0x2748774c, 0x34b0bcb5, 0x391c0cb3, 0x4ed8aa4a, 0x5b9cca4f, 0x682e6ff3,
   0x748f82ee, 0x78a5636f, 0x84c87814, 0x8cc70208, 0x90befffa, 0xa4506ceb, 0xbef9a3f7, 0xc67178f2]

def rotr (x n : UInt32) : UInt32 :=
  (x >>> n) ||| (x <<< (32 - n))

/-!
## Padding

A byte `0x80`, zeros until the size is 56 modulo 64, and the number of bits in eight
bytes.
-/

/-- The loop that appends zero bytes until the size is 56 modulo 64. -/
def padZeros (padded : Bytes) : Bytes :=
  if padded.length % 64 ≠ 56 then padZeros (padded ++ [0]) else padded
termination_by (120 - padded.length % 64) % 64
decreasing_by
  rw [List.length_append, List.length_singleton]
  lia

def lengthBytes (bitLen : UInt64) : Bytes :=
  (List.range 8).map (fun i => ((bitLen >>> (UInt64.ofNat ((7 - i) * 8))) &&& 0xFF).toUInt8)

def pad (msg : Bytes) : Bytes :=
  padZeros (msg ++ [0x80]) ++ lengthBytes (UInt64.ofNat msg.length * 8)

/-!
## Compression

The loops over the words of a chunk, over the 64 rounds and over the chunks, each as
a function of the variables it changes.
-/

def wordAt (padded : Bytes) (base : Nat) : UInt32 :=
  ((padded.getD base 0).toUInt32 <<< 24) |||
    ((padded.getD (base + 1) 0).toUInt32 <<< 16) |||
    ((padded.getD (base + 2) 0).toUInt32 <<< 8) |||
    (padded.getD (base + 3) 0).toUInt32

def loadWords (padded : Bytes) (chunk : Nat) : List UInt32 :=
  (List.range 16).foldl
    (fun w i => w.set i (wordAt padded (chunk + i * 4))) (List.replicate 64 0)

def extendWord (w : List UInt32) (i : Nat) : List UInt32 :=
  let w15 := w.getD (i - 15) 0
  let w2 := w.getD (i - 2) 0
  let s0 := rotr w15 7 ^^^ rotr w15 18 ^^^ (w15 >>> 3)
  let s1 := rotr w2 17 ^^^ rotr w2 19 ^^^ (w2 >>> 10)
  w.set i (w.getD (i - 16) 0 + s0 + w.getD (i - 7) 0 + s1)

def schedule (padded : Bytes) (chunk : Nat) : List UInt32 :=
  (List.range' 16 48).foldl extendWord (loadWords padded chunk)

structure HashState where
  a : UInt32
  b : UInt32
  c : UInt32
  d : UInt32
  e : UInt32
  f : UInt32
  g : UInt32
  h : UInt32
deriving DecidableEq, Repr

def round (w : List UInt32) (s : HashState) (i : Nat) : HashState :=
  let bigS1 := rotr s.e 6 ^^^ rotr s.e 11 ^^^ rotr s.e 25
  let ch := (s.e &&& s.f) ^^^ (~~~s.e &&& s.g)
  let t1 := s.h + bigS1 + ch + k256.getD i 0 + w.getD i 0
  let bigS0 := rotr s.a 2 ^^^ rotr s.a 13 ^^^ rotr s.a 22
  let maj := (s.a &&& s.b) ^^^ (s.a &&& s.c) ^^^ (s.b &&& s.c)
  let t2 := bigS0 + maj
  { a := t1 + t2, b := s.a, c := s.b, d := s.c,
    e := s.d + t1, f := s.e, g := s.f, h := s.g }

def processChunk (padded : Bytes) (s : HashState) (chunk : Nat) : HashState :=
  let r := (List.range 64).foldl (round (schedule padded chunk)) s
  { a := s.a + r.a, b := s.b + r.b, c := s.c + r.c, d := s.d + r.d,
    e := s.e + r.e, f := s.f + r.f, g := s.g + r.g, h := s.h + r.h }

def initialHash : HashState :=
  { a := 0x6a09e667, b := 0xbb67ae85, c := 0x3c6ef372, d := 0xa54ff53a,
    e := 0x510e527f, f := 0x9b05688c, g := 0x1f83d9ab, h := 0x5be0cd19 }

def chunkOffsets (padded : Bytes) : List Nat :=
  (List.range ((padded.length + 63) / 64)).map (fun j => 64 * j)

def put (v : UInt32) : Bytes :=
  [((v >>> 24) &&& 0xFF).toUInt8, ((v >>> 16) &&& 0xFF).toUInt8,
   ((v >>> 8) &&& 0xFF).toUInt8, (v &&& 0xFF).toUInt8]

def sha256 (msg : Bytes) : Bytes :=
  let padded := pad msg
  let s := (chunkOffsets padded).foldl (processChunk padded) initialHash
  put s.a ++ put s.b ++ put s.c ++ put s.d ++ put s.e ++ put s.f ++ put s.g ++ put s.h

/-!
## Keyed hash

A key longer than a block is hashed, and every key is filled up with zeros.  Masked in
two ways it goes in front of the message and in front of the inner hash.
-/

def blockKey (key : Bytes) : Bytes :=
  let k := if key.length > 64 then sha256 key else key
  (k ++ List.replicate (64 - k.length) 0).take 64

def hmacSha256Impl (key msg : Bytes) : Bytes :=
  let k := blockKey key
  let ipad := List.zipWith (fun x y => x ^^^ y) (List.replicate 64 (0x36 : UInt8)) k
  let opad := List.zipWith (fun x y => x ^^^ y) (List.replicate 64 (0x5c : UInt8)) k
  sha256 (opad ++ sha256 (ipad ++ msg))

end Security
end CppCommons
