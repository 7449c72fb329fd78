import CppCommons.Foundation.CheckedReads
import CppCommons.Security.JwtSigner
import CppCommons.Security.Sha256Standard

/-!
# Comparison in constant time

`ApiKey::operator==` and the signature check of `JwtSigner::verify` compare two
strings by one loop that accumulates the differences.  Here the loop reads its
bytes by their index, and all reads are recorded: which bytes are read, and in
which order, is what could be observed of the comparison from outside.
-/

namespace CppCommons
namespace Security

open Cxx
open Foundation.CheckedReads

/-- One pass of the loop; the bytes of the second string follow those of the first in memory. -/
def accumulateDifference (a b : Bytes) (diff : UInt8) (i : Nat) : Reading UInt8 :=
  read (a ++ b) i >>= fun x =>
    read (a ++ b) (a.length + i) >>= fun y => pure (diff ||| (x ^^^ y))

def accumulateDifferences (a b : Bytes) : Reading Bool :=
  if a.length ≠ b.length then pure false
  else
    (List.range a.length).foldlM (accumulateDifference a b) 0 >>= fun diff => pure (diff == 0)

/-- A key that the constructor has accepted. -/
structure ApiKey where
  raw : Bytes
  nonempty : raw ≠ []

namespace ApiKey

def make (raw : Bytes) : Except String ApiKey :=
  if h : raw = [] then .error "ApiKey must not be empty" else .ok ⟨raw, h⟩

def equal (key other : ApiKey) : Reading Bool :=
  accumulateDifferences key.raw other.raw

def notEqual (key other : ApiKey) : Reading Bool :=
  key.equal other >>= fun same => pure (!same)

end ApiKey

def constantTimeEqualReads (a b : Bytes) : Reading Bool :=
  accumulateDifferences a b

/-!
## Reads and result

Each byte of both strings is read once, whatever it is, and the accumulated
difference is zero exactly if the strings are equal.
-/

/-- The reads of a comparison of strings with these lengths. -/
def comparisonReads (m n : Nat) : List Nat :=
  if m = n then (List.range n).flatMap (fun i => [i, n + i]) else []

theorem zip_eq_map_range {a b : Bytes} (h : a.length = b.length) :
    a.zip b = (List.range a.length).map (fun i => (a.getD i 0, b.getD i 0)) := by
  apply List.ext_getElem
  · simp [h]
  · intro i hi _
    have ha : i < a.length := by
      rw [List.length_zip] at hi
      lia
    have hb : i < b.length := h ▸ ha
    simp [List.getElem?_eq_getElem ha, List.getElem?_eq_getElem hb]

theorem yields_accumulateDifference {a b : Bytes} {i : Nat} (ha : i < a.length)
    (hb : i < b.length) (diff : UInt8) :
    Yields (accumulateDifference a b diff i) [i, a.length + i]
      (diff ||| (a.getD i 0 ^^^ b.getD i 0)) := by
  have hfirst : Yields (read (a ++ b) i) [i] (a.getD i 0) := by
    apply Yields.of_getElem?
    simp [List.getElem?_append_left ha, List.getElem?_eq_getElem ha]
  have hsecond : Yields (read (a ++ b) (a.length + i)) [a.length + i] (b.getD i 0) := by
    apply Yields.of_getElem?
    rw [List.getElem?_append_right (Nat.le_add_right _ _), Nat.add_sub_cancel_left]
    simp [List.getElem?_eq_getElem hb]
  exact hfirst.bind (hsecond.bind_pure _)

theorem yields_accumulateDifferences (a b : Bytes) :
    Yields (accumulateDifferences a b) (comparisonReads a.length b.length)
      (constantTimeEqual a b) := by
  by_cases hlength : a.length = b.length
  · have hloop : Yields ((List.range a.length).foldlM (accumulateDifference a b) 0)
        ((List.range a.length).flatMap (fun i => [i, a.length + i]))
        ((List.range a.length).foldl
          (fun diff i => diff ||| (a.getD i 0 ^^^ b.getD i 0)) 0) := by
      apply Yields.foldlM
      intro diff i hi
      have ha : i < a.length := List.mem_range.mp hi
      exact yields_accumulateDifference ha (hlength ▸ ha) diff
    rw [accumulateDifferences, if_neg (not_not_intro hlength), comparisonReads, if_pos hlength,
      constantTimeEqual, if_neg (not_not_intro hlength), zip_eq_map_range hlength,
      List.foldl_map, ← hlength]
    exact hloop.bind_pure _
  · rw [accumulateDifferences, if_pos hlength, comparisonReads, if_neg hlength, constantTimeEqual,
      if_pos hlength]
    exact .of_pure false

theorem constantTimeEqual_eq_decide (a b : Bytes) : constantTimeEqual a b = decide (a = b) := by
  rw [Bool.eq_iff_iff, constantTimeEqual_iff, decide_eq_true_iff]

/-!
## Signatures

A signature has the same length under every secret, so a check of a signature reads
the same bytes for all secrets.
-/

theorem length_signature (signer : JwtSigner) (signingInput : Bytes) :
    (signer.signature signingInput).length = 43 := by
  rcases base64urlEncodeImpl_spells (JwtSigner.hmacSha256 signer.secret signingInput) with
    ⟨digits, padding, _, hpadding, hencoded, hspell⟩
  have hbits := congrArg List.length hspell
  have hhash : (JwtSigner.hmacSha256 signer.secret signingInput).length = 32 := length_sha256 _
  simp only [List.length_append, Foundation.BitString.length_spell, List.length_map,
    List.length_replicate, hhash] at hbits
  rw [JwtSigner.signature, JwtSigner.base64urlEncode, hencoded, List.length_map]
  lia

/--
Comparisons of keys and of signatures decide equality, and the bytes they read
depend on the lengths alone; in the check of a signature therefore neither on the
secret nor on how much of the signature is right.
-/
theorem comparisons_read_by_length :
    (forall key other : ApiKey,
      Yields (key.equal other) (comparisonReads key.raw.length other.raw.length)
        (decide (key.raw = other.raw)) ∧
      Yields (key.notEqual other) (comparisonReads key.raw.length other.raw.length)
        (decide (key.raw ≠ other.raw))) ∧
    forall (signer : JwtSigner) (signingInput candidate : Bytes),
      Yields (constantTimeEqualReads candidate (signer.signature signingInput))
        (comparisonReads candidate.length 43)
        (decide (candidate = signer.signature signingInput)) := by
  refine ⟨fun key other => ?_, fun signer signingInput candidate => ?_⟩
  · have hequal : Yields (key.equal other) (comparisonReads key.raw.length other.raw.length)
        (decide (key.raw = other.raw)) := by
      rw [← constantTimeEqual_eq_decide]
      exact yields_accumulateDifferences key.raw other.raw
    refine ⟨hequal, ?_⟩
    rw [decide_not]
    exact hequal.bind_pure _
  · rw [← constantTimeEqual_eq_decide, ← length_signature signer signingInput]
    exact yields_accumulateDifferences candidate (signer.signature signingInput)

end Security
end CppCommons
