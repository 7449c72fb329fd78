import CppCommons.Foundation.Loop
import CppCommons.Cxx.Format
import CppCommons.Web.MiddlewareChain

/-!
# Compression middleware

`gzip_compress` hands a body to zlib and collects what `deflate` writes, one
buffer at a time, and `compression_middleware` sends the result in place of the
body.  zlib is a parameter that sees only the bytes it is told of.  The number of
these passes through a field of 32 bits.
-/

namespace CppCommons
namespace Web

open Cxx
open Foundation.Loop

/-!
## zlib

What one call of `deflate` does, and the chunks it writes when it is called until it
returns something other than `Z_OK`.
-/

def bufferSize : Nat := 16384

inductive ZlibCode where
  | ok
  | streamEnd
  | other (code : Int)
deriving DecidableEq

structure DeflateCall (stream : Type) where
  stream : stream
  consumed : Nat
  chunk : Bytes
  ret : ZlibCode

/-- The part of zlib that the source uses.  `deflate` is called with `Z_FINISH` on the
`avail_in` bytes at `next_in`, with so much room at `next_out`. -/
structure Zlib (stream : Type) where
  /-- the new stream, or `none` for a result other than `Z_OK` -/
  deflateInit2 : Option stream
  deflate : stream -> Bytes -> Nat -> DeflateCall stream
  consumed_le : forall s told room, (deflate s told room).consumed <= told.length
  chunk_le : forall s told room, (deflate s told room).chunk.length <= room

variable {stream : Type}

/-- The chunks that `deflate` writes when it is called until it returns something
other than `Z_OK`, and what it returns then. -/
inductive Deflates (lib : Zlib stream) : stream -> Bytes -> List Bytes -> ZlibCode -> Prop where
  | last {s : stream} {told : Bytes} :
      (lib.deflate s told bufferSize).ret ≠ .ok ->
      Deflates lib s told [(lib.deflate s told bufferSize).chunk]
        (lib.deflate s told bufferSize).ret
  | more {s : stream} {told : Bytes} {chunks : List Bytes} {ret : ZlibCode} :
      (lib.deflate s told bufferSize).ret = .ok ->
      Deflates lib (lib.deflate s told bufferSize).stream
        (told.drop (lib.deflate s told bufferSize).consumed) chunks ret ->
      Deflates lib s told ((lib.deflate s told bufferSize).chunk :: chunks) ret

/-- A stream that ends decompresses to the bytes `deflate` was told of. -/
def Zlib.Inverts (lib : Zlib stream) (gunzip : Bytes -> Option Bytes) : Prop :=
  forall s, lib.deflateInit2 = some s -> forall told chunks,
    Deflates lib s told chunks .streamEnd -> gunzip chunks.flatten = some told

/-!
## Compression

The loop of `gzip_compress` on the fields of the stream and the output buffer.
`avail_in` has 32 bits.
-/

abbrev OutputBuffer := { buf : Bytes // buf.length = bufferSize }

theorem OutputBuffer.length_write (buf : OutputBuffer) {chunk : Bytes}
    (h : chunk.length <= bufferSize) :
    (chunk ++ buf.val.drop chunk.length).length = bufferSize := by
  rw [List.length_append, List.length_drop, buf.property]
  lia

def OutputBuffer.write (buf : OutputBuffer) (chunk : Bytes) (h : chunk.length <= bufferSize) :
    OutputBuffer :=
  ⟨chunk ++ buf.val.drop chunk.length, buf.length_write h⟩

structure ZStream (stream : Type) where
  stream : stream
  nextIn : Bytes
  availIn : UInt32
  totalOut : Nat := 0

def ZStream.told (zs : ZStream stream) : Bytes :=
  zs.nextIn.take zs.availIn.toNat

structure Compression (stream : Type) where
  zs : ZStream stream
  buf : OutputBuffer
  out : Bytes := []

namespace Compression

def call (lib : Zlib stream) (c : Compression stream) : DeflateCall stream :=
  lib.deflate c.zs.stream c.zs.told bufferSize

def advance (lib : Zlib stream) (c : Compression stream) : Compression stream :=
  let written := c.call lib
  let buf := c.buf.write written.chunk (lib.chunk_le c.zs.stream c.zs.told bufferSize)
  let totalOut := c.zs.totalOut + written.chunk.length
  { zs :=
      { stream := written.stream
        nextIn := c.zs.nextIn.drop written.consumed
        availIn := c.zs.availIn - UInt32.ofNat written.consumed
        totalOut := totalOut }
    buf := buf
    out :=
      if c.out.length < totalOut then c.out ++ buf.val.take (totalOut - c.out.length) else c.out }

def pass (lib : Zlib stream) (c : Compression stream) :
    Pass (Compression stream) (ZlibCode × Bytes) :=
  if (c.call lib).ret = .ok then .again (c.advance lib)
  else .done ((c.call lib).ret, (c.advance lib).out)

end Compression

def startStream (s : stream) (input : Bytes) : ZStream stream where
  stream := s
  nextIn := input
  availIn := UInt32.ofNat input.length

/-- The compressed text or the exception; `none` if the loop takes more than `passes`
passes.  The buffer holds anything at first. -/
def gzipCompress (lib : Zlib stream) (buf : OutputBuffer) (passes : Nat) (input : Bytes) :
    Option (Except String Bytes) :=
  match lib.deflateInit2 with
  | none => some (.error "deflateInit2 failed")
  | some s =>
      (iterate (Compression.pass lib) passes { zs := startStream s input, buf := buf }).map
        fun last => if last.fst ≠ .streamEnd then .error "deflate did not finish" else .ok last.snd

/-!
## The middleware

A client that accepts gzip gets a compressed body with the two headers that belong
to it.
-/

def acceptsGzip (req : HttpRequest) : Bool :=
  ascii "gzip" <:+: (req.header (ascii "Accept-Encoding")).getD []

def HttpResponse.compressed (resp : HttpResponse) (body : Bytes) : HttpResponse :=
  { resp with
    body := body
    headers := (resp.headers.insert (ascii "Content-Encoding") (ascii "gzip")).insert
      (ascii "Content-Length") (decimalDigits body.length) }

variable {world exn : Type}

/-- `none` if the compression takes more than `passes` passes. -/
def compressionMiddleware (lib : Zlib stream) (runtimeError : String -> exn) (buf : OutputBuffer)
    (passes : Nat) (next : StatefulHandler world exn) (w : world) (req : HttpRequest) :
    world × Option (Except exn HttpResponse) :=
  match next w req with
  | (w', .error e) => (w', some (.error e))
  | (w', .ok resp) =>
      if !acceptsGzip req then (w', some (.ok resp))
      else if resp.body = [] then (w', some (.ok resp))
      else
        (w', (gzipCompress lib buf passes resp.body).map
          fun result => (result.map resp.compressed).mapError runtimeError)

/-!
## The loop collects the chunks

The invariant of the loop: everything written so far has been collected, and the
next call is told of the bytes that this one left.
-/

namespace Compression

def Collected (c : Compression stream) : Prop :=
  c.out.length = c.zs.totalOut

theorem advance_out {c : Compression stream} (h : c.Collected) (lib : Zlib stream) :
    (c.advance lib).out = c.out ++ (c.call lib).chunk := by
  rw [Collected] at h
  simp only [advance, h, Nat.add_sub_cancel_left, OutputBuffer.write, List.take_left]
  split
  · rfl
  · next hnothing =>
      -- an empty chunk is not appended
      have hempty : (c.call lib).chunk = [] := List.eq_nil_of_length_eq_zero (by lia)
      rw [hempty, List.append_nil]

theorem collected_advance {c : Compression stream} (h : c.Collected) (lib : Zlib stream) :
    (c.advance lib).Collected := by
  rw [Collected, advance_out h, List.length_append, h]
  rfl

theorem told_advance (c : Compression stream) (lib : Zlib stream) :
    (c.advance lib).zs.told = c.zs.told.drop (c.call lib).consumed := by
  have hconsumed : (c.call lib).consumed <= c.zs.availIn.toNat :=
    (lib.consumed_le c.zs.stream c.zs.told bufferSize).trans (List.length_take_le _ _)
  have hcast : (UInt32.ofNat (c.call lib).consumed).toNat = (c.call lib).consumed :=
    UInt32.toNat_ofNat_of_lt' (Nat.lt_of_le_of_lt hconsumed c.zs.availIn.toNat_lt)
  have hle : UInt32.ofNat (c.call lib).consumed <= c.zs.availIn := by
    rw [UInt32.le_iff_toNat_le, hcast]
    exact hconsumed
  simp only [advance, ZStream.told]
  rw [UInt32.toNat_sub_of_le _ _ hle, hcast, List.drop_take]

theorem iterate_pass {lib : Zlib stream} {s : stream} {told : Bytes} {chunks : List Bytes}
    {ret : ZlibCode} (h : Deflates lib s told chunks ret) {c : Compression stream}
    (hs : c.zs.stream = s) (htold : c.zs.told = told) (hcollected : c.Collected) :
    iterate (pass lib) chunks.length c = some (ret, c.out ++ chunks.flatten) := by
  induction h generalizing c with
  | @last s told hret =>
      subst hs htold
      have hpass : pass lib c = .done ((c.call lib).ret, (c.advance lib).out) := if_neg hret
      rw [List.length_singleton, iterate_of_done hpass, advance_out hcollected,
        List.flatten_singleton]
      rfl
  | @more s told chunks ret hret _ ih =>
      subst hs htold
      have hpass : pass lib c = .again (c.advance lib) := if_pos hret
      rw [List.length_cons, iterate_of_again hpass,
        ih rfl (c.told_advance lib) (collected_advance hcollected lib), advance_out hcollected,
        List.append_assoc, List.flatten_cons]
      rfl

end Compression

def gzipOutcome (ret : ZlibCode) (chunks : List Bytes) : Except String Bytes :=
  if ret = .streamEnd then .ok chunks.flatten else .error "deflate did not finish"

def fed (input : Bytes) : Bytes :=
  input.take (UInt32.ofNat input.length).toNat

theorem told_startStream (s : stream) (input : Bytes) : (startStream s input).told = fed input :=
  rfl

theorem gzipCompress_of_deflates {lib : Zlib stream} {s : stream} {input : Bytes}
    {chunks : List Bytes} {ret : ZlibCode} (hinit : lib.deflateInit2 = some s)
    (hdeflates : Deflates lib s (fed input) chunks ret) (buf : OutputBuffer) {passes : Nat}
    (hpasses : chunks.length <= passes) :
    gzipCompress lib buf passes input = some (gzipOutcome ret chunks) := by
  have hloop : iterate (Compression.pass lib) passes { zs := startStream s input, buf := buf } =
      some (ret, chunks.flatten) :=
    iterate_mono hpasses (Compression.iterate_pass hdeflates rfl (told_startStream s input) rfl)
  simp only [gzipCompress, hinit, hloop, Option.map_some, gzipOutcome]
  by_cases hret : ret = .streamEnd
  · rw [if_neg (not_not.mpr hret), if_pos hret]
  · rw [if_pos hret, if_neg hret]

theorem length_fed (input : Bytes) : (fed input).length = input.length % 2 ^ 32 := by
  rw [fed, List.length_take, UInt32.toNat_ofNat']
  exact Nat.min_eq_left (Nat.mod_le _ _)

theorem fed_eq_iff (input : Bytes) : fed input = input <-> input.length < 2 ^ 32 := by
  constructor
  · intro h
    have hlength := length_fed input
    rw [h] at hlength
    rw [hlength]
    exact Nat.mod_lt _ (by decide)
  · intro h
    rw [fed, UInt32.toNat_ofNat_of_lt' h, List.take_length]

/-!
## The middleware sends the chunks

The response with its body replaced reaches the client exactly if all of the body
was handed to zlib.
-/

theorem lookup_contentLength_compressed (resp : HttpResponse) (body : Bytes) :
    (resp.compressed body).headers.lookup (ascii "Content-Length") =
      some (decimalDigits body.length) :=
  Finmap.lookup_insert _

theorem compressionMiddleware_of_gzipCompress {lib : Zlib stream} {buf : OutputBuffer}
    {passes : Nat} {next : StatefulHandler world exn} {w w' : world} {req : HttpRequest}
    {resp : HttpResponse} {sent : Bytes} (hnext : next w req = (w', .ok resp))
    (haccepts : acceptsGzip req = true) (hbody : resp.body ≠ [])
    (hgzip : gzipCompress lib buf passes resp.body = some (.ok sent))
    (runtimeError : String -> exn) :
    compressionMiddleware lib runtimeError buf passes next w req =
      (w', some (.ok (resp.compressed sent))) := by
  rw [compressionMiddleware, hnext]
  simp only [haccepts, Bool.not_true, Bool.false_eq_true, if_false, if_neg hbody, hgzip,
    Option.map_some]
  rfl

/-- A body reaches the client: `deflate` is fed all of it and what it writes is returned,
unless the stream does not end; and the middleware sends something that decompresses to
the body, with its length. -/
structure Delivered (lib : Zlib stream) (gunzip : Bytes -> Option Bytes)
    (runtimeError : String -> exn) (world : Type) (body : Bytes) : Prop where
  feeds : fed body = body
  returns : forall s chunks ret, lib.deflateInit2 = some s ->
    Deflates lib s (fed body) chunks ret -> forall buf passes, chunks.length <= passes ->
      gzipCompress lib buf passes body = some (gzipOutcome ret chunks)
  sends : forall s chunks, lib.deflateInit2 = some s ->
    Deflates lib s (fed body) chunks .streamEnd ->
    forall (next : StatefulHandler world exn) w w' req resp, next w req = (w', .ok resp) ->
      resp.body = body -> acceptsGzip req = true -> body ≠ [] ->
      exists sent : HttpResponse,
        (forall buf passes, chunks.length <= passes ->
          compressionMiddleware lib runtimeError buf passes next w req = (w', some (.ok sent))) ∧
        gunzip sent.body = some body ∧
        sent.headers.lookup (ascii "Content-Length") = some (decimalDigits sent.body.length)

/-- Exactly the bodies whose size fits the field of the stream reach the client. -/
theorem delivered_iff (lib : Zlib stream) (gunzip : Bytes -> Option Bytes)
    (hinverts : lib.Inverts gunzip) (runtimeError : String -> exn) (world : Type) (body : Bytes) :
    Delivered lib gunzip runtimeError world body <-> body.length < 2 ^ 32 := by
  constructor
  · intro h
    exact (fed_eq_iff body).mp h.feeds
  · intro h
    have hfed := (fed_eq_iff body).mpr h
    refine ⟨hfed, ?_, ?_⟩
    · intro s chunks ret hinit hdeflates buf passes hpasses
      exact gzipCompress_of_deflates hinit hdeflates buf hpasses
    · intro s chunks hinit hdeflates next w w' req resp hnext hresp haccepts hbody
      subst hresp
      refine ⟨resp.compressed chunks.flatten, ?_, ?_, lookup_contentLength_compressed _ _⟩
      · intro buf passes hpasses
        exact compressionMiddleware_of_gzipCompress hnext haccepts hbody
          (gzipCompress_of_deflates hinit hdeflates buf hpasses) runtimeError
      · have hgunzip := hinverts s hinit _ chunks hdeflates
        rw [hfed] at hgunzip
        exact hgunzip

/-!
## A library

It hands out an encoded text in pieces that fill the room.
-/

namespace Zlib

def handOut (encode : Bytes -> Bytes) (pending : Option Bytes) (told : Bytes) : Bytes :=
  pending.getD (encode told)

def encoding (encode : Bytes -> Bytes) : Zlib (Option Bytes) where
  deflateInit2 := some none
  deflate pending told room :=
    let rest := handOut encode pending told
    { stream := some (rest.drop room)
      consumed := told.length
      chunk := rest.take room
      ret := if rest.length <= room then .streamEnd else .ok }
  consumed_le _ _ _ := Nat.le_refl _
  chunk_le _ _ _ := List.length_take_le _ _

theorem flatten_of_deflates_encoding {encode : Bytes -> Bytes} {pending : Option Bytes}
    {told : Bytes} {chunks : List Bytes} {ret : ZlibCode}
    (h : Deflates (encoding encode) pending told chunks ret) :
    chunks.flatten = handOut encode pending told := by
  induction h with
  | @last pending told hret =>
      have hfits : (handOut encode pending told).length <= bufferSize := by
        by_contra hlong
        exact hret (if_neg hlong)
      rw [List.flatten_singleton]
      exact List.take_of_length_le hfits
  | @more pending told chunks ret _ _ ih =>
      rw [List.flatten_cons, ih]
      exact List.take_append_drop bufferSize (handOut encode pending told)

theorem inverts_encoding {encode : Bytes -> Bytes} {gunzip : Bytes -> Option Bytes}
    (h : forall told, gunzip (encode told) = some told) : (encoding encode).Inverts gunzip := by
  intro s hinit told chunks hdeflates
  cases hinit
  rw [flatten_of_deflates_encoding hdeflates]
  exact h told

theorem deflates_encoding {encode : Bytes -> Bytes} {told : Bytes}
    (h : (encode told).length <= bufferSize) :
    Deflates (encoding encode) none told [encode told] .streamEnd := by
  have hret : ((encoding encode).deflate none told bufferSize).ret = .streamEnd := if_pos h
  have hchunk : ((encoding encode).deflate none told bufferSize).chunk = encode told :=
    List.take_of_length_le h
  rw [← hret, ← hchunk]
  refine .last ?_
  rw [hret]
  exact nofun

end Zlib

def helloWorld : Bytes := ascii "hello world"

def helloWorldGzip : Bytes :=
  [31, 139, 8, 0, 0, 0, 0, 0, 0, 3, 203, 72, 205, 201, 201, 87, 40, 207, 47, 202, 73, 1, 0, 133,
    17, 74, 13, 11, 0, 0, 0]

/-- Other texts are stored behind a mark. -/
def sampleGzip (text : Bytes) : Bytes :=
  if text = helloWorld then helloWorldGzip else 0 :: text

def sampleGunzip (sent : Bytes) : Option Bytes :=
  if sent = helloWorldGzip then some helloWorld
  else if sent.head? = some 0 then some sent.tail
  else none

theorem sampleGunzip_sampleGzip (text : Bytes) : sampleGunzip (sampleGzip text) = some text := by
  rw [sampleGzip]
  split
  · next htext =>
      rw [htext]
      rfl
  · have hmark : 0 :: text ≠ helloWorldGzip := by
      intro h
      cases h
    rw [sampleGunzip, if_neg hmark]
    rfl

theorem helloWorld_delivered :
    Delivered (Zlib.encoding sampleGzip) sampleGunzip (id : String -> String) Unit helloWorld :=
  (delivered_iff (Zlib.encoding sampleGzip) sampleGunzip
    (Zlib.inverts_encoding sampleGunzip_sampleGzip) id Unit helloWorld).mpr (by decide)

def hugeBody (size : Nat) : Bytes :=
  helloWorld ++ List.replicate size 0

theorem fed_hugeBody {size : Nat} (h : size = 2 ^ 32) : fed (hugeBody size) = helloWorld := by
  have hshort : helloWorld.length < 2 ^ 32 := by
    decide
  have hlength : (hugeBody size).length % 2 ^ 32 = helloWorld.length := by
    rw [hugeBody, List.length_append, List.length_replicate, h, Nat.add_mod_right,
      Nat.mod_eq_of_lt hshort]
  rw [fed, UInt32.toNat_ofNat', hlength, hugeBody, List.take_left]

def gzipRequest : HttpRequest :=
  { headers := Finmap.singleton (ascii "Accept-Encoding") (ascii "gzip") }

def clearBuffer : OutputBuffer :=
  ⟨List.replicate bufferSize 0, List.length_replicate⟩

def answerWith (body : Bytes) : StatefulHandler Unit String :=
  fun w _ => (w, .ok (.ok body))

theorem compressionMiddleware_hugeBody {size : Nat} (h : size = 2 ^ 32) :
    compressionMiddleware (Zlib.encoding sampleGzip) id clearBuffer 1 (answerWith (hugeBody size))
        () gzipRequest =
      ((), some (.ok ((HttpResponse.ok (hugeBody size)).compressed helloWorldGzip))) := by
  have haccepts : acceptsGzip gzipRequest = true := by
    decide
  have hdeflates : Deflates (Zlib.encoding sampleGzip) none (fed (hugeBody size))
      [helloWorldGzip] .streamEnd := by
    rw [fed_hugeBody h]
    exact Zlib.deflates_encoding (by decide)
  have hbody : hugeBody size ≠ [] := by
    rw [hugeBody]
    exact List.append_ne_nil_of_left_ne_nil (by decide) _
  exact compressionMiddleware_of_gzipCompress rfl haccepts hbody
    (gzipCompress_of_deflates rfl hdeflates clearBuffer (Nat.le_refl 1)) id

theorem hugeBody_truncated :
    exists sent : HttpResponse,
      compressionMiddleware (Zlib.encoding sampleGzip) id clearBuffer 1
          (answerWith (hugeBody (2 ^ 32))) () gzipRequest = ((), some (.ok sent)) ∧
        sampleGunzip sent.body = some helloWorld ∧
        (hugeBody (2 ^ 32)).length = helloWorld.length + 2 ^ 32 := by
  refine ⟨_, compressionMiddleware_hugeBody rfl, rfl, ?_⟩
  rw [hugeBody, List.length_append, List.length_replicate]

end Web
end CppCommons
