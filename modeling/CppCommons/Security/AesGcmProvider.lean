import CppCommons.Foundation.FallibleCalls
import CppCommons.Cxx.SignedArithmetic
import CppCommons.Security.KeyRotation

/-!
# AES-256-GCM provider

`AesGcmProvider` drives OpenSSL through its `EVP` interface.  A call of OpenSSL
reports success, with the bytes it writes, or failure, which leaves the output
buffer and the length variable as they were.  Every pointer argument stands for
the bytes it points to.
-/

namespace CppCommons
namespace Security

open Foundation.FallibleCalls
open Cxx

inductive EvpCipher where
  | aes256Gcm
deriving DecidableEq

/-- The calls that `encrypt` and `decrypt` make. -/
inductive OpenSslCall where
  | randBytes (num : Int)
  | ctxNew
  | encryptInit (cipher : Option EvpCipher) (key iv : Option Bytes)
  | setIvLen (len : Int)
  | encryptUpdate (input : Bytes) (len : Int)
  | encryptFinal
  | getTag (len : Int)
  | decryptInit (cipher : Option EvpCipher) (key iv : Option Bytes)
  | decryptUpdate (input : Bytes) (len : Int)
  | setTag (tag : Bytes)
  | decryptFinal

abbrev OpenSsl : Type := Library OpenSslCall Bytes

def overwrite (buffer : Bytes) (offset : Nat) (data : Bytes) : Bytes :=
  buffer.take offset ++ data.take (buffer.length - offset) ++ buffer.drop (offset + data.length)

def store (buffer : Bytes) (offset : Nat) : Option Bytes -> Bytes
  | none => buffer
  | some data => overwrite buffer offset data

/-- What a call leaves in a length variable that was zero. -/
def written : Option Bytes -> Nat
  | none => 0
  | some data => data.length

namespace AesGcmProvider

def kIvLen : Nat := 12

def kTagLen : Nat := 16

def encrypt (lib : OpenSsl) (provider : AesGcmProvider) (plaintext : Bytes) :
    Program OpenSslCall Bytes (Except EncryptionError Bytes) := do
  let out := List.replicate ((kIvLen + plaintext.length + kTagLen) % 2 ^ 64) 0
  let random <- perform lib (.randBytes kIvLen)
  let out := store out 0 random
  let _ <- perform lib .ctxNew
  let _ <- perform lib (.encryptInit (some .aes256Gcm) none none)
  let _ <- perform lib (.setIvLen kIvLen)
  let _ <- perform lib (.encryptInit none (some provider.key) (some (out.take kIvLen)))
  let updated <- perform lib (.encryptUpdate plaintext (toInt32 plaintext.length))
  let out := store out kIvLen updated
  let len := written updated
  let finished <- perform lib .encryptFinal
  let out := store out (kIvLen + len) finished
  let finalLen := written finished
  let tag <- perform lib (.getTag kTagLen)
  return .ok (store out (kIvLen + len + finalLen) tag)

def decrypt (lib : OpenSsl) (provider : AesGcmProvider) (ciphertext : Bytes) :
    Program OpenSslCall Bytes (Except EncryptionError Bytes) :=
  if ciphertext.length < kIvLen + kTagLen then
    return .error { what := "ciphertext too short" }
  else do
    let ctLen := ciphertext.length - kIvLen - kTagLen
    let plaintext := List.replicate ctLen 0
    let _ <- perform lib .ctxNew
    let _ <- perform lib (.decryptInit (some .aes256Gcm) none none)
    let _ <- perform lib (.setIvLen kIvLen)
    let _ <- perform lib (.decryptInit none (some provider.key) (some (ciphertext.take kIvLen)))
    let updated <- perform lib (.decryptUpdate (ciphertext.drop kIvLen) (toInt32 ctLen))
    let plaintext := store plaintext 0 updated
    let len := written updated
    let _ <- perform lib (.setTag ((ciphertext.drop (kIvLen + ctLen)).take kTagLen))
    let finished <- perform lib .decryptFinal
    match finished with
    | none => return .error { what := "authentication tag mismatch" }
    | some data => return .ok (overwrite plaintext len data)

/-!
## Reported failures

Which calls fail is fixed beforehand, and what they write is left open.
-/

/-- A result is returned only if every call succeeded, and otherwise an exception is thrown. -/
structure ReportsFailures
    (run : Except EncryptionError Bytes × List (Performed OpenSslCall Bytes)) : Prop where
  returned : forall bytes, run.fst = .ok bytes -> AllSucceeded run.snd
  thrown : ¬ AllSucceeded run.snd -> exists error, run.fst = .error error

section Pattern

variable (pattern : Nat -> Bool)
  (writes : List (Performed OpenSslCall Bytes) -> OpenSslCall -> Bytes)
  (provider : AesGcmProvider)

theorem encrypt_ofPattern (plaintext : Bytes) :
    Triple (Follows pattern 0) (provider.encrypt (.ofPattern pattern writes) plaintext)
      (fun result history => (exists blob, result = .ok blob) ∧ Follows pattern 8 history) := by
  unfold encrypt
  iterate 8 refine Triple.perform_ofPattern (fun _ _ => ?_)
  exact Triple.of_pure (fun history hfollows => ⟨⟨_, rfl⟩, hfollows⟩)

theorem decrypt_ofPattern {ciphertext : Bytes} (h : kIvLen + kTagLen <= ciphertext.length) :
    Triple (Follows pattern 0) (provider.decrypt (.ofPattern pattern writes) ciphertext)
      (fun result history => ((exists plaintext, result = .ok plaintext) <-> pattern 6 = true) ∧
        Follows pattern 7 history) := by
  unfold decrypt
  rw [if_neg (Nat.not_lt.mpr h)]
  iterate 6 refine Triple.perform_ofPattern (fun _ _ => ?_)
  refine Triple.perform_ofPattern (fun finished hfinished => ?_)
  cases finished with
  | none => exact Triple.of_pure (fun history hfollows => ⟨by simp [← hfinished], hfollows⟩)
  | some data => exact Triple.of_pure (fun history hfollows => ⟨by simp [← hfinished], hfollows⟩)

end Pattern

theorem reportsFailures_of_follows {pattern : Nat -> Bool} {n : Nat}
    {run : Except EncryptionError Bytes × List (Performed OpenSslCall Bytes)}
    (h : Follows pattern n run.snd) :
    ReportsFailures run <->
      (exists error, run.fst = .error error) ∨ forall i, i < n -> pattern i = true := by
  rw [← h.allSucceeded_iff]
  constructor
  · intro hreports
    cases hresult : run.fst with
    | ok bytes => exact Or.inr (hreports.returned bytes hresult)
    | error error => exact Or.inl ⟨error, rfl⟩
  · rintro (⟨error, herror⟩ | hall)
    · refine ⟨fun bytes hok => ?_, fun _ => ⟨error, herror⟩⟩
      rw [herror] at hok
      cases hok
    · exact ⟨fun _ _ => hall, fun hfailed => absurd hall hfailed⟩

/--
`encrypt` reports failures only when there are none.  `decrypt` does so also for
a text that is too short, and when the last of its seven calls fails.
-/
theorem reportsFailures_iff (provider : AesGcmProvider) (pattern : Nat -> Bool)
    (writes : List (Performed OpenSslCall Bytes) -> OpenSslCall -> Bytes)
    (plaintext ciphertext : Bytes) :
    (ReportsFailures (provider.encrypt (.ofPattern pattern writes) plaintext []) <->
        forall i, i < 8 -> pattern i = true) ∧
      (ReportsFailures (provider.decrypt (.ofPattern pattern writes) ciphertext []) <->
        ciphertext.length < kIvLen + kTagLen ∨ pattern 6 = false ∨
          forall i, i < 7 -> pattern i = true) := by
  constructor
  · rcases encrypt_ofPattern pattern writes provider plaintext [] (follows_nil pattern) with
      ⟨⟨blob, hblob⟩, hfollows⟩
    rw [reportsFailures_of_follows hfollows, hblob]
    simp
  · by_cases hshort : ciphertext.length < kIvLen + kTagLen
    · have hrun : provider.decrypt (.ofPattern pattern writes) ciphertext [] =
          (.error { what := "ciphertext too short" }, []) := by
        rw [decrypt, if_pos hshort]
        rfl
      have hnone : Follows pattern 0
          (provider.decrypt (.ofPattern pattern writes) ciphertext []).snd := by
        rw [hrun]
        exact follows_nil pattern
      rw [reportsFailures_of_follows hnone, hrun]
      exact iff_of_true (Or.inl ⟨_, rfl⟩) (Or.inl hshort)
    · rcases decrypt_ofPattern pattern writes provider (Nat.not_lt.mp hshort) []
        (follows_nil pattern) with ⟨hreturns, hfollows⟩
      rw [reportsFailures_of_follows hfollows]
      cases hresult : (provider.decrypt (.ofPattern pattern writes) ciphertext []).fst with
      | ok bytes =>
          have hlast : pattern 6 = true := hreturns.mp ⟨bytes, hresult⟩
          simp [hshort, hlast]
      | error error =>
          have hlast : pattern 6 = false := by
            rw [Bool.eq_false_iff]
            intro htrue
            rcases hreturns.mpr htrue with ⟨bytes, hok⟩
            rw [hresult] at hok
            cases hok
          exact iff_of_true (Or.inl ⟨error, rfl⟩) (Or.inr (Or.inl hlast))

def zeroKey : AesGcmProvider where
  key := List.replicate 32 0
  size := by decide

def zeroWrites : List (Performed OpenSslCall Bytes) -> OpenSslCall -> Bytes
  | _, .randBytes num => List.replicate num.toNat 0
  | _, .encryptUpdate input len => Gcm.masked Gcm.zeroStream (input.take len.toNat)
  | _, .getTag _ => Gcm.zeroTag
  | _, .decryptUpdate input len => Gcm.masked Gcm.zeroStream (input.take len.toNat)
  | _, _ => []

/-- Two bytes with the tag of no bytes: it is the right one if `DecryptUpdate` has failed. -/
def unreadBlob : Bytes :=
  List.replicate 12 0 ++ ([1, 1] ++ Gcm.emptyTag)

/-- A failed `RAND_bytes` leaves zeros for the IV, a failed `DecryptUpdate` zeros for the text. -/
theorem failures_ignored :
    (zeroKey.encrypt (.ofPattern (fun n => n != 0) zeroWrites) (List.replicate 16 0) []).fst =
        .ok (List.replicate 12 0 ++ (Gcm.zeroStream ++ Gcm.zeroTag)) ∧
      ¬ ReportsFailures
        (zeroKey.encrypt (.ofPattern (fun n => n != 0) zeroWrites) (List.replicate 16 0) []) ∧
      (zeroKey.decrypt (.ofPattern (fun n => n != 4) zeroWrites) unreadBlob []).fst = .ok [0, 0] ∧
      ¬ ReportsFailures
        (zeroKey.decrypt (.ofPattern (fun n => n != 4) zeroWrites) unreadBlob []) := by
  have hencrypt : (zeroKey.encrypt (.ofPattern (fun n => n != 0) zeroWrites)
      (List.replicate 16 0) []).fst =
        .ok (List.replicate 12 0 ++ (Gcm.zeroStream ++ Gcm.zeroTag)) := by rfl
  have hdecrypt : (zeroKey.decrypt (.ofPattern (fun n => n != 4) zeroWrites) unreadBlob []).fst =
      .ok [0, 0] := by rfl
  refine ⟨hencrypt, fun hreports => ?_, hdecrypt, fun hreports => ?_⟩
  · have hall := hreports.returned _ hencrypt
    exact absurd (hall ⟨.randBytes 12, none⟩ (.head _)) (by decide)
  · have hall := hreports.returned _ hdecrypt
    exact absurd (hall ⟨.decryptUpdate _ 2, none⟩ (.tail _ (.tail _ (.tail _ (.tail _ (.head _))))))
      (by decide)

end AesGcmProvider
end Security
end CppCommons
