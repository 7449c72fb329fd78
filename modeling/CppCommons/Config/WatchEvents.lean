import CppCommons.Cxx.ByteOrder
import CppCommons.Foundation.CheckedReads

/-!
# The events of a watched file

The inner loop of `watch_loop` walks through the bytes that `read` has put into its
buffer.  The kernel puts whole events there, one behind the other: a header of four
words, the last of which is the size of the name behind it.  The reads of the loop
are logged, to see that it never looks at bytes of an earlier call.
-/

namespace CppCommons
namespace Config

open Cxx
open Foundation
open Foundation.CheckedReads

/-- The bytes of a 32-bit word in memory, the same for the kernel and the program. -/
structure WordLayout where
  toBytes : UInt32 -> Bytes
  ofBytes : Bytes -> UInt32
  length_toBytes : forall v, (toBytes v).length = 4
  ofBytes_toBytes : forall v, ofBytes (toBytes v) = v

namespace WordLayout

def littleEndian : WordLayout where
  toBytes v := [(v &&& 0xFF).toUInt8, ((v >>> 8) &&& 0xFF).toUInt8, ((v >>> 16) &&& 0xFF).toUInt8,
    ((v >>> 24) &&& 0xFF).toUInt8]
  ofBytes
    | [d0, d1, d2, d3] =>
        (d3.toUInt32 <<< 24) ||| (d2.toUInt32 <<< 16) ||| (d1.toUInt32 <<< 8) ||| d0.toUInt32
    | _ => 0
  length_toBytes _ := rfl
  ofBytes_toBytes := bigEndian_bytes

end WordLayout

def headerSize : Nat := 16

def bufSize : Nat := headerSize + 255 + 1

def watchMask : UInt32 := 0x00000008 ||| 0x00000080

structure InotifyEvent where
  wd : UInt32
  mask : UInt32
  cookie : UInt32
  /-- with its padding -/
  name : Bytes
  length_name : name.length < 2 ^ 32

namespace InotifyEvent

def bytes (layout : WordLayout) (e : InotifyEvent) : Bytes :=
  layout.toBytes e.wd ++ (layout.toBytes e.mask ++ (layout.toBytes e.cookie ++
    (layout.toBytes (UInt32.ofNat e.name.length) ++ e.name)))

def relevant (e : InotifyEvent) : Bool :=
  e.mask &&& watchMask ≠ 0

theorem length_bytes (layout : WordLayout) (e : InotifyEvent) :
    (e.bytes layout).length = headerSize + e.name.length := by
  simp only [bytes, List.length_append, layout.length_toBytes, headerSize]
  lia

end InotifyEvent

structure EventBatch (layout : WordLayout) where
  events : List InotifyEvent
  events_ne_nil : events ≠ []
  fits : (events.flatMap (InotifyEvent.bytes layout)).length <= bufSize

namespace EventBatch

def bytes {layout : WordLayout} (b : EventBatch layout) : Bytes :=
  b.events.flatMap (InotifyEvent.bytes layout)

end EventBatch

abbrev EventBuffer := { buf : Bytes // buf.length = bufSize }

theorem EventBuffer.length_fill (buf : EventBuffer) {layout : WordLayout}
    (b : EventBatch layout) : (b.bytes ++ buf.val.drop b.bytes.length).length = bufSize := by
  have hfits : b.bytes.length <= bufSize := b.fits
  rw [List.length_append, List.length_drop, buf.property]
  lia

/-- `read` overwrites the beginning of the buffer. -/
def EventBuffer.fill (buf : EventBuffer) {layout : WordLayout} (b : EventBatch layout) :
    EventBuffer :=
  ⟨b.bytes ++ buf.val.drop b.bytes.length, buf.length_fill b⟩

/-!
## The loops

The reads of the inner loop go through `CheckedReads`, which fails outside of the buffer and
logs the index.
-/

def readWord (layout : WordLayout) (buf : Bytes) (i : Nat) : Reading UInt32 := do
  let b0 <- CheckedReads.read buf i
  let b1 <- CheckedReads.read buf (i + 1)
  let b2 <- CheckedReads.read buf (i + 2)
  let b3 <- CheckedReads.read buf (i + 3)
  return layout.ofBytes [b0, b1, b2, b3]

def scanEvents (layout : WordLayout) (buf : Bytes) (len i callbacks : Nat) : Reading Nat :=
  if i < len then do
    let mask <- readWord layout buf (i + 4)
    let callbacks := if mask &&& watchMask ≠ 0 then callbacks + 1 else callbacks
    let nameSize <- readWord layout buf (i + 12)
    scanEvents layout buf len (i + (headerSize + nameSize.toNat)) callbacks
  else pure callbacks
termination_by len - i
decreasing_by
  simp only [headerSize]
  lia

inductive PollOutcome (layout : WordLayout) where
  | nothing
  | readFailed
  | batch (b : EventBatch layout)

/-- A round of the `while` loop: what its test sees and what it polls. -/
structure PollRound (layout : WordLayout) where
  running : Bool
  outcome : PollOutcome layout

/-- A call of `read`, by its result, with the indices at which the buffer is read after. -/
structure ScannedRead where
  len : Nat
  indices : List Nat

/-- The number of callbacks of the rounds until the loop is left, and what was read;
`none` if the loop reads outside of the buffer. -/
def watchRounds {layout : WordLayout} :
    EventBuffer -> List (PollRound layout) -> Option (Nat × List ScannedRead)
  | _, [] => some (0, [])
  | buf, round :: rest =>
      if !round.running then some (0, [])
      else
        match round.outcome with
        | .nothing => watchRounds buf rest
        | .readFailed => some (0, [])
        | .batch b =>
            (scanEvents layout (buf.fill b).val b.bytes.length 0 0 []).bind fun scanned =>
              (watchRounds (buf.fill b) rest).map fun later =>
                (scanned.fst + later.fst, ⟨b.bytes.length, scanned.snd⟩ :: later.snd)

/-!
## One batch

Induction on the events that are left, with the bytes of those before them in front.
-/

def wordAt (i : Nat) : List Nat := [i, i + 1, i + 2, i + 3]

theorem yields_readWord (layout : WordLayout) (front : Bytes) (v : UInt32) (back : Bytes)
    {i : Nat} (hi : front.length = i) :
    Yields (readWord layout (front ++ (layout.toBytes v ++ back)) i) (wordAt i) v := by
  subst hi
  rcases List.length_eq_four.mp (layout.length_toBytes v) with ⟨a, b, c, d, hword⟩
  have hv : layout.ofBytes [a, b, c, d] = v := by
    rw [← hword, layout.ofBytes_toBytes]
  rw [hword]
  have h0 : (front ++ ([a, b, c, d] ++ back))[front.length]? = some a := by
    simp
  have h1 : (front ++ ([a, b, c, d] ++ back))[front.length + 1]? = some b := by
    simp
  have h2 : (front ++ ([a, b, c, d] ++ back))[front.length + 2]? = some c := by
    simp
  have h3 : (front ++ ([a, b, c, d] ++ back))[front.length + 3]? = some d := by
    simp
  rw [← hv]
  exact (Yields.of_getElem? h0).bind ((Yields.of_getElem? h1).bind
    ((Yields.of_getElem? h2).bind ((Yields.of_getElem? h3).bind_pure _)))

def scannedIndices (layout : WordLayout) : Nat -> List InotifyEvent -> List Nat
  | _, [] => []
  | i, e :: rest =>
      wordAt (i + 4) ++ (wordAt (i + 12) ++ scannedIndices layout (i + (e.bytes layout).length) rest)

/-- The loop reads the headers of the events and nothing else, and calls back for the
relevant ones. -/
theorem yields_scanEvents (layout : WordLayout) (events : List InotifyEvent) (front back : Bytes)
    (callbacks : Nat) {i len : Nat} (hi : front.length = i)
    (hlen : i + (events.flatMap (InotifyEvent.bytes layout)).length = len) :
    Yields (scanEvents layout (front ++ (events.flatMap (InotifyEvent.bytes layout) ++ back)) len i
        callbacks) (scannedIndices layout i events)
      (callbacks + events.countP InotifyEvent.relevant) := by
  induction events generalizing front callbacks i with
  | nil =>
      rw [scanEvents, if_neg (by simpa using Nat.le_of_eq hlen.symm)]
      exact .of_pure callbacks
  | cons e rest ih =>
      have hsize := e.length_bytes layout
      rw [List.flatMap_cons, List.length_append, hsize] at hlen
      have hmore : i < len := by
        simp only [headerSize] at hlen
        lia
      rw [scanEvents, if_pos hmore, List.flatMap_cons]
      -- the words at their places in the buffer
      have hmask : Yields (readWord layout (front ++ (e.bytes layout ++
          rest.flatMap (InotifyEvent.bytes layout) ++ back)) (i + 4)) (wordAt (i + 4)) e.mask := by
        have hword := yields_readWord layout (front ++ layout.toBytes e.wd) e.mask
          (layout.toBytes e.cookie ++ (layout.toBytes (UInt32.ofNat e.name.length) ++ e.name) ++
            rest.flatMap (InotifyEvent.bytes layout) ++ back)
          (i := i + 4) (by rw [List.length_append, layout.length_toBytes, hi])
        simpa only [InotifyEvent.bytes, List.append_assoc] using hword
      have hname : Yields (readWord layout (front ++ (e.bytes layout ++
          rest.flatMap (InotifyEvent.bytes layout) ++ back)) (i + 12)) (wordAt (i + 12))
          (UInt32.ofNat e.name.length) := by
        have hword := yields_readWord layout
          (front ++ layout.toBytes e.wd ++ layout.toBytes e.mask ++ layout.toBytes e.cookie)
          (UInt32.ofNat e.name.length)
          (e.name ++ rest.flatMap (InotifyEvent.bytes layout) ++ back)
          (i := i + 12) (by simp only [List.length_append, layout.length_toBytes, hi])
        simpa only [InotifyEvent.bytes, List.append_assoc] using hword
      have hrest := ih (front ++ e.bytes layout)
        (if e.mask &&& watchMask ≠ 0 then callbacks + 1 else callbacks)
        (i := i + (headerSize + e.name.length))
        (by rw [List.length_append, hsize, hi]) (by lia)
      have hcount : (if e.mask &&& watchMask ≠ 0 then callbacks + 1 else callbacks) +
            rest.countP InotifyEvent.relevant =
          callbacks + (e :: rest).countP InotifyEvent.relevant := by
        simp only [List.countP_cons, InotifyEvent.relevant, decide_eq_true_eq]
        split <;> lia
      have hstep : (UInt32.ofNat e.name.length).toNat = e.name.length :=
        UInt32.toNat_ofNat_of_lt' e.length_name
      rw [List.append_assoc, ← List.append_assoc (e.bytes layout), hcount] at hrest
      rw [scannedIndices, hsize]
      refine hmask.bind (hname.bind ?_)
      rw [hstep]
      exact hrest

theorem lt_of_mem_wordAt {i j : Nat} (h : j ∈ wordAt i) : j < i + 4 := by
  simp only [wordAt, List.mem_cons, List.not_mem_nil, or_false] at h
  lia

theorem lt_of_mem_scannedIndices {layout : WordLayout} {events : List InotifyEvent} {i j : Nat}
    (h : j ∈ scannedIndices layout i events) :
    j < i + (events.flatMap (InotifyEvent.bytes layout)).length := by
  induction events generalizing i with
  | nil => cases h
  | cons e rest ih =>
      have hsize := e.length_bytes layout
      simp only [headerSize] at hsize
      rw [List.flatMap_cons, List.length_append]
      rw [scannedIndices, List.mem_append, List.mem_append] at h
      rcases h with hmask | hname | hrest
      · have hlt := lt_of_mem_wordAt hmask
        lia
      · have hlt := lt_of_mem_wordAt hname
        lia
      · have hlt := ih hrest
        lia

/-!
## Whole runs

What a batch leaves in the buffer is overwritten or never looked at.
-/

/-- The batches of the rounds until the loop is left. -/
def batchesSeen {layout : WordLayout} : List (PollRound layout) -> List (EventBatch layout)
  | [] => []
  | round :: rest =>
      if round.running then
        match round.outcome with
        | .nothing => batchesSeen rest
        | .readFailed => []
        | .batch b => b :: batchesSeen rest
      else []

/-- Whatever the buffer holds at first and however the rounds go, there is one callback for
each event with one of the two masks in the batches that are read, and after a call of
`read` only bytes of that call are looked at. -/
theorem watch_calls_back {layout : WordLayout} (buf : EventBuffer)
    (rounds : List (PollRound layout)) :
    exists reads, watchRounds buf rounds = some
        (((batchesSeen rounds).flatMap EventBatch.events).countP InotifyEvent.relevant,
          reads) ∧
      reads.map ScannedRead.len = (batchesSeen rounds).map (fun b => b.bytes.length) ∧
      forall r, r ∈ reads -> forall j, j ∈ r.indices -> j < r.len := by
  induction rounds generalizing buf with
  | nil => exact ⟨[], rfl, rfl, nofun⟩
  | cons round rest ih =>
      rcases round with ⟨running, outcome⟩
      cases running with
      | false => exact ⟨[], rfl, rfl, nofun⟩
      | true =>
          cases outcome with
          | nothing => exact ih buf
          | readFailed => exact ⟨[], rfl, rfl, nofun⟩
          | batch b =>
              rcases ih (buf.fill b) with ⟨reads, hrun, hlens, hbounds⟩
              have hscan := yields_scanEvents layout b.events [] (buf.val.drop b.bytes.length) 0
                (i := 0) rfl (Nat.zero_add b.bytes.length) []
              rw [List.nil_append, List.nil_append, Nat.zero_add] at hscan
              refine ⟨⟨b.bytes.length, scannedIndices layout 0 b.events⟩ :: reads, ?_, ?_, ?_⟩
              · have hfilled : scanEvents layout (buf.fill b).val b.bytes.length 0 0 [] =
                    some (b.events.countP InotifyEvent.relevant,
                      scannedIndices layout 0 b.events) := hscan
                simp [watchRounds, batchesSeen, hfilled, hrun]
              · simp only [batchesSeen, List.map_cons, if_true, hlens]
              · refine List.forall_mem_cons.mpr ⟨?_, hbounds⟩
                intro j hj
                have hlt := lt_of_mem_scannedIndices hj
                rw [Nat.zero_add] at hlt
                exact hlt

def paddedName : Bytes := ascii "app.yaml" ++ List.replicate 8 0

def closedEvent : InotifyEvent :=
  { wd := 1, mask := 0x8, cookie := 0, name := paddedName, length_name := by decide }

def movedEvent : InotifyEvent :=
  { wd := 1, mask := 0x80, cookie := 7, name := paddedName, length_name := by decide }

/-- `IN_IGNORED`, which is not asked for and comes all the same. -/
def ignoredEvent : InotifyEvent :=
  { wd := 1, mask := 0x8000, cookie := 0, name := [], length_name := by decide }

def closedBatch : EventBatch .littleEndian where
  events := [closedEvent]
  events_ne_nil := by decide
  fits := by decide

def movedBatch : EventBatch .littleEndian where
  events := [movedEvent, ignoredEvent]
  events_ne_nil := by decide
  fits := by decide

def savedTwice : List (PollRound .littleEndian) :=
  [⟨true, .nothing⟩, ⟨true, .batch closedBatch⟩, ⟨true, .batch movedBatch⟩, ⟨false, .nothing⟩]

theorem savedTwice_calls_back :
    exists reads,
      watchRounds ⟨List.replicate bufSize 0, List.length_replicate⟩ savedTwice = some (2, reads) ∧
        reads.map ScannedRead.len = [32, 48] ∧
        forall r, r ∈ reads -> forall j, j ∈ r.indices -> j < r.len :=
  watch_calls_back ⟨List.replicate bufSize 0, List.length_replicate⟩ savedTwice

end Config
end CppCommons
