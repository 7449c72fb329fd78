import CppCommons.Cxx.ByteOrder
import CppCommons.Security.GcmCipher

/-!
# Key rotation

`KeyRotationService` keeps one AES-256-GCM provider for each key version.  It
encrypts under the largest version and puts the version in front of the
ciphertext as four big-endian bytes.  The cipher itself is a parameter: the
initialisation vector drawn by `RAND_bytes` is an argument of `encrypt`.
-/

namespace CppCommons
namespace Security

open Cxx

structure EncryptionError where
  what : String
deriving DecidableEq

structure KeyRotationError where
  what : String
deriving DecidableEq

/-- A provider that its constructor has accepted. -/
structure AesGcmProvider where
  key : Bytes
  size : key.length = 32

def AesGcmProvider.make (key : Bytes) : Except EncryptionError AesGcmProvider :=
  if h : key.length = 32 then .ok ⟨key, h⟩
  else .error { what := "AES-256-GCM requires a 32-byte key" }

/-- `encrypt` and `decrypt` of the provider, either of which may throw. -/
structure AesGcm where
  encrypt : AesGcmProvider -> Bytes -> Bytes -> Except EncryptionError Bytes
  decrypt : AesGcmProvider -> Bytes -> Except EncryptionError Bytes

/-- What the service relies on, for every key of 32 bytes. -/
def AesGcm.Inverts (cipher : AesGcm) : Prop :=
  forall provider iv plaintext ciphertext,
    cipher.encrypt provider iv plaintext = .ok ciphertext ->
      cipher.decrypt provider ciphertext = .ok plaintext

/-- The exceptions that leave the service. -/
inductive RotationException where
  | keyRotation (error : KeyRotationError)
  | encryption (error : EncryptionError)
deriving DecidableEq

structure KeyRotationService where
  keys : Std.TreeMap UInt32 AesGcmProvider := ∅

def versionPrefix (version : UInt32) : Bytes :=
  [((version >>> 24) &&& 0xFF).toUInt8, ((version >>> 16) &&& 0xFF).toUInt8,
    ((version >>> 8) &&& 0xFF).toUInt8, (version &&& 0xFF).toUInt8]

def readVersion (d0 d1 d2 d3 : UInt8) : UInt32 :=
  (d0.toUInt32 <<< 24) ||| (d1.toUInt32 <<< 16) ||| (d2.toUInt32 <<< 8) ||| d3.toUInt32

namespace KeyRotationService

/-- The provider is constructed before `emplace` looks at the map, and `emplace`
keeps an entry that is there already. -/
def addKey (s : KeyRotationService) (version : UInt32) (key : Bytes) :
    KeyRotationService × Except EncryptionError Unit :=
  match AesGcmProvider.make key with
  | .error e => (s, .error e)
  | .ok provider => ({ keys := s.keys.insertIfNew version provider }, .ok ())

def rbegin (s : KeyRotationService) : Option (UInt32 × AesGcmProvider) :=
  s.keys.maxKey?.bind
    (fun version => s.keys[version]?.map (fun provider => (version, provider)))

def encrypt (cipher : AesGcm) (s : KeyRotationService) (iv plaintext : Bytes) :
    Except RotationException Bytes :=
  match s.rbegin with
  | none => .error (.keyRotation { what := "no keys registered" })
  | some (version, provider) =>
      match cipher.encrypt provider iv plaintext with
      | .error e => .error (.encryption e)
      | .ok ciphertext => .ok (versionPrefix version ++ ciphertext)

def decrypt (cipher : AesGcm) (s : KeyRotationService) (data : Bytes) :
    Except RotationException Bytes :=
  match data with
  | d0 :: d1 :: d2 :: d3 :: ciphertext =>
      let version := readVersion d0 d1 d2 d3
      match s.keys[version]? with
      | none => .error (.keyRotation
          { what := "unknown key version: " ++ toString version.toNat })
      | some provider =>
          match cipher.decrypt provider ciphertext with
          | .error e => .error (.encryption e)
          | .ok plaintext => .ok plaintext
  | _ => .error (.keyRotation { what := "ciphertext too short" })

def currentVersion (s : KeyRotationService) : Except RotationException UInt32 :=
  match s.rbegin with
  | none => .error (.keyRotation { what := "no keys registered" })
  | some (version, _) => .ok version

def hasVersion (s : KeyRotationService) (version : UInt32) : Bool :=
  s.keys.contains version

end KeyRotationService

/-!
## The prefix codec

The version is read back from the four bytes in front of a blob.
-/

theorem toNat_readVersion (d0 d1 d2 d3 : UInt8) :
    (readVersion d0 d1 d2 d3).toNat =
      d0.toNat * 2 ^ 24 + (d1.toNat * 2 ^ 16 + (d2.toNat * 2 ^ 8 + d3.toNat)) := by
  unfold readVersion
  exact toNat_bigEndian d0 d1 d2 d3

theorem readVersion_versionPrefix (version : UInt32) :
    readVersion ((version >>> 24) &&& 0xFF).toUInt8 ((version >>> 16) &&& 0xFF).toUInt8
      ((version >>> 8) &&& 0xFF).toUInt8 (version &&& 0xFF).toUInt8 = version :=
  bigEndian_bytes version

/-!
## Single operations

What `add_key`, `encrypt` and `decrypt` do to a service given by its map of
versions.
-/

namespace KeyRotationService

theorem addKey_of_size {key : Bytes} (h : key.length = 32) (s : KeyRotationService)
    (version : UInt32) :
    s.addKey version key = ({ keys := s.keys.insertIfNew version ⟨key, h⟩ }, .ok ()) := by
  unfold addKey AesGcmProvider.make
  rw [dif_pos h]

theorem addKey_of_not_size {key : Bytes} (h : key.length ≠ 32) (s : KeyRotationService)
    (version : UInt32) :
    s.addKey version key = (s, .error { what := "AES-256-GCM requires a 32-byte key" }) := by
  unfold addKey AesGcmProvider.make
  rw [dif_neg h]

theorem greatest_of_rbegin {s : KeyRotationService} {version : UInt32}
    {provider : AesGcmProvider} (h : s.rbegin = some (version, provider)) :
    s.keys[version]? = some provider ∧ IsGreatest {v | v ∈ s.keys} version := by
  rcases Option.bind_eq_some_iff.mp h with ⟨v, hmax, hentry⟩
  rcases Option.map_eq_some_iff.mp hentry with ⟨p, hp, heq⟩
  cases heq
  rcases Std.TreeMap.maxKey?_eq_some_iff_mem_and_forall.mp hmax with ⟨hmem, hall⟩
  refine ⟨hp, hmem, ?_⟩
  intro k hk
  exact Std.isLE_compare.mp (hall k hk)

theorem encrypt_eq_ok {cipher : AesGcm} {s : KeyRotationService} {iv plaintext blob : Bytes}
    (h : s.encrypt cipher iv plaintext = .ok blob) :
    exists version provider ciphertext, s.rbegin = some (version, provider) ∧
      cipher.encrypt provider iv plaintext = .ok ciphertext ∧
      blob = versionPrefix version ++ ciphertext := by
  unfold encrypt at h
  cases hcurrent : s.rbegin with
  | none =>
      rw [hcurrent] at h
      cases h
  | some entry =>
      rcases entry with ⟨version, provider⟩
      rw [hcurrent] at h
      cases hcipher : cipher.encrypt provider iv plaintext with
      | error e =>
          simp only [hcipher] at h
          cases h
      | ok ciphertext =>
          simp only [hcipher] at h
          cases h
          exact ⟨version, provider, ciphertext, rfl, hcipher, rfl⟩

theorem decrypt_prefixed {cipher : AesGcm} {s : KeyRotationService} {version : UInt32}
    {provider : AesGcmProvider} {ciphertext plaintext : Bytes}
    (hkey : s.keys[version]? = some provider)
    (hcipher : cipher.decrypt provider ciphertext = .ok plaintext) :
    s.decrypt cipher (versionPrefix version ++ ciphertext) = .ok plaintext := by
  simp only [versionPrefix, List.cons_append, List.nil_append, decrypt,
    readVersion_versionPrefix, hkey, hcipher]

/-!
## Histories

An entry, once there, is never replaced, so the provider of a version stays the one
that was added first.
-/

inductive Operation where
  | addKey (version : UInt32) (key : Bytes)
  | encrypt (iv plaintext : Bytes)
  | decrypt (data : Bytes)
  | currentVersion
  | hasVersion (version : UInt32)
deriving DecidableEq

/-- The service after an operation; all but `add_key` are `const`. -/
def perform (s : KeyRotationService) : Operation -> KeyRotationService
  | .addKey version key => (s.addKey version key).fst
  | .encrypt _ _ => s
  | .decrypt _ => s
  | .currentVersion => s
  | .hasVersion _ => s

def after (history : List Operation) : KeyRotationService :=
  history.foldl perform {}

/-- The version an operation adds, or finds there already; none if it throws. -/
def addedBy : Operation -> Option UInt32
  | .addKey version key => if key.length = 32 then some version else none
  | _ => none

def added (history : List Operation) : List UInt32 :=
  history.filterMap addedBy

theorem getElem?_perform {s : KeyRotationService} {version : UInt32}
    {provider : AesGcmProvider} (h : s.keys[version]? = some provider) (op : Operation) :
    (s.perform op).keys[version]? = some provider := by
  cases op with
  | addKey v key =>
      by_cases hsize : key.length = 32
      · rw [perform, addKey_of_size hsize, Std.TreeMap.getElem?_insertIfNew]
        have hmem : version ∈ s.keys := by
          rw [Std.TreeMap.mem_iff_isSome_getElem?, h]
          rfl
        have hnot : ¬ (compare v version = .eq ∧ v ∉ s.keys) := by
          rintro ⟨heq, hnew⟩
          rw [Std.LawfulEqCmp.compare_eq_iff_eq] at heq
          rw [heq] at hnew
          exact hnew hmem
        rw [if_neg hnot]
        exact h
      · rw [perform, addKey_of_not_size hsize]
        exact h
  | encrypt iv plaintext => exact h
  | decrypt data => exact h
  | currentVersion => exact h
  | hasVersion v => exact h

theorem getElem?_foldl_perform {s : KeyRotationService} {version : UInt32}
    {provider : AesGcmProvider} (h : s.keys[version]? = some provider)
    (later : List Operation) :
    (later.foldl perform s).keys[version]? = some provider := by
  induction later generalizing s with
  | nil => exact h
  | cons op later ih => exact ih (getElem?_perform h op)

theorem mem_perform_iff {s : KeyRotationService} {version : UInt32} (op : Operation) :
    version ∈ (s.perform op).keys <-> version ∈ s.keys ∨ addedBy op = some version := by
  cases op with
  | addKey v key =>
      by_cases hsize : key.length = 32
      · rw [perform, addKey_of_size hsize, addedBy, if_pos hsize, Std.TreeMap.mem_insertIfNew,
          Std.LawfulEqCmp.compare_eq_iff_eq, Option.some.injEq, Or.comm]
      · rw [perform, addKey_of_not_size hsize, addedBy, if_neg hsize]
        simp
  | encrypt iv plaintext => simp [perform, addedBy]
  | decrypt data => simp [perform, addedBy]
  | currentVersion => simp [perform, addedBy]
  | hasVersion v => simp [perform, addedBy]

theorem mem_after_iff (history : List Operation) (version : UInt32) :
    version ∈ (after history).keys <-> version ∈ added history := by
  induction history using List.reverseRecOn with
  | nil => simp [after, added]
  | append_singleton history op ih =>
      have hlast : after (history ++ [op]) = (after history).perform op := by
        simp [after]
      have hadded : added (history ++ [op]) = added history ++ (addedBy op).toList := by
        simp [added, List.filterMap_cons]
        cases addedBy op <;> rfl
      rw [hlast, mem_perform_iff, hadded, List.mem_append, Option.mem_toList, ih]

/--
After any history of operations, a blob that `encrypt` returns is tagged with
the largest version added so far and decrypts to its plaintext, then and after
any further operations; an `add_key` with a key of another size than 32 bytes
throws and leaves the service as it is.
-/
theorem rotation_keeps_blobs (cipher : AesGcm) (hinverts : cipher.Inverts)
    (history later : List Operation) (iv plaintext blob : Bytes)
    (hblob : (after history).encrypt cipher iv plaintext = .ok blob) :
    (after history).decrypt cipher blob = .ok plaintext ∧
      (after (history ++ later)).decrypt cipher blob = .ok plaintext ∧
      (exists version ciphertext, blob = versionPrefix version ++ ciphertext ∧
        IsGreatest {v | v ∈ added history} version) ∧
      (forall version key, key.length ≠ 32 ->
        (after history).addKey version key =
          (after history, .error { what := "AES-256-GCM requires a 32-byte key" })) := by
  rcases encrypt_eq_ok hblob with ⟨version, provider, ciphertext, hcurrent, hcipher, rfl⟩
  rcases greatest_of_rbegin hcurrent with ⟨hkey, hgreatest⟩
  have hback := hinverts provider iv plaintext ciphertext hcipher
  refine ⟨decrypt_prefixed hkey hback, ?_, ⟨version, ciphertext, rfl, ?_⟩, ?_⟩
  · apply decrypt_prefixed _ hback
    rw [after, List.foldl_append]
    exact getElem?_foldl_perform hkey later
  · have hsame : {v | v ∈ added history} = {v | v ∈ (after history).keys} := by
      ext v
      exact (mem_after_iff history v).symm
    rw [hsame]
    exact hgreatest
  · intro v key hsize
    exact addKey_of_not_size hsize (after history) v

def providerOver (gcm : Gcm) : AesGcm where
  encrypt provider iv plaintext :=
    .ok (sealed gcm provider.key ((iv ++ List.replicate 12 0).take 12) plaintext)
  decrypt provider blob :=
    if blob.length < 28 then .error { what := "ciphertext too short" }
    else
      let iv := blob.take 12
      let ciphertext := (blob.drop 12).take (blob.length - 28)
      if (blob.drop 12).drop (blob.length - 28) = gcm.tag provider.key iv ciphertext then
        .ok (gcm.decipher provider.key iv ciphertext)
      else .error { what := "authentication tag mismatch" }

theorem providerOver_inverts (gcm : Gcm) : (providerOver gcm).Inverts := by
  intro provider iv plaintext blob h
  injection h with h
  generalize hdrawn : (iv ++ List.replicate 12 0).take 12 = drawn at h
  have hiv : drawn.length = 12 := by
    rw [← hdrawn, List.length_take, List.length_append, List.length_replicate]
    lia
  have hlength : blob.length = 12 + plaintext.length + 16 := by
    rw [← h, length_sealed, hiv]
  have hct : blob.length - 28 = (gcm.encipher provider.key drawn plaintext).length := by
    rw [gcm.length_encipher]
    lia
  have hshort : ¬ blob.length < 28 := by
    lia
  simp only [providerOver, if_neg hshort]
  rw [hct, ← h, sealed, List.take_left' hiv, List.drop_left' hiv, List.take_left, List.drop_left,
    if_pos rfl, gcm.decipher_encipher]

def twoKeys : List Operation :=
  [.addKey 1 (List.replicate 32 1), .addKey 70000 (List.replicate 32 0)]

/-- The version is added again with another key, and a larger one with a bad key first. -/
def rotatedAgain : List Operation :=
  [.addKey 70000 (List.replicate 32 9), .addKey 80000 [], .addKey 80000 (List.replicate 32 3)]

theorem rbegin_twoKeys :
    (after twoKeys).rbegin = some (70000, ⟨List.replicate 32 0, by simp⟩) := by
  have hmax : (after twoKeys).keys.maxKey? = some 70000 := by
    simp [after, twoKeys, perform, addKey_of_size, Std.TreeMap.maxKey?_insertIfNew]
    decide
  unfold rbegin
  rw [hmax]
  rfl

def zerosBlob : Bytes :=
  [0, 1, 17, 112] ++ (List.replicate 12 0 ++ (Gcm.zeroStream ++ Gcm.zeroTag))

theorem rotatedAgain_keeps_blob :
    (after twoKeys).encrypt (providerOver .zeroVector) (List.replicate 12 0)
        (List.replicate 16 0) = .ok zerosBlob ∧
      (after (twoKeys ++ rotatedAgain)).decrypt (providerOver .zeroVector) zerosBlob =
        .ok (List.replicate 16 0) := by
  have hblob : (after twoKeys).encrypt (providerOver .zeroVector) (List.replicate 12 0)
      (List.replicate 16 0) = .ok zerosBlob := by
    have hdrawn : (List.replicate 12 (0 : UInt8) ++ List.replicate 12 0).take 12 =
        List.replicate 12 0 := by decide
    simp only [encrypt, rbegin_twoKeys, providerOver, hdrawn, Gcm.sealed_zeros]
    rfl
  exact ⟨hblob, (rotation_keeps_blobs (providerOver .zeroVector) (providerOver_inverts .zeroVector)
    twoKeys rotatedAgain _ _ zerosBlob hblob).right.left⟩

end KeyRotationService
end Security
end CppCommons
