import CppCommons.Security.AesGcmRoundTrip

/-!
# Authentic blobs

The key rotation service over the AES-256-GCM provider over OpenSSL.  For a library
that refuses a wrong tag and none of the other calls of `decrypt`, the service decrypts
exactly the blobs that `encrypt` makes under a key that it holds; which keys it holds
follows from the history.
-/

namespace CppCommons
namespace Security

open Foundation.FallibleCalls
open Cxx

/-- The calls of `decrypt` succeed where it makes them, but for a wrong tag; the cipher is a
bijection for each key and vector. -/
structure Authenticates (gcm : Gcm) (lib : OpenSsl) : Prop
    extends ConformsDecrypting gcm lib where
  encipher_decipher : forall key iv ciphertext,
    gcm.encipher key iv (gcm.decipher key iv ciphertext) = ciphertext
  refuses : forall history (provider : AesGcmProvider) iv input tag, iv.length = 12 ->
    context history = { CipherContext.started false provider.key iv with
      input := input, tag := some tag } ->
      tag ≠ gcm.tag provider.key iv input -> lib history .decryptFinal = none

namespace AesGcmProvider

section Authenticating

variable {gcm : Gcm} {lib : OpenSsl} (hlib : Authenticates gcm lib) (provider : AesGcmProvider)
include hlib

theorem length_decipher (key iv ciphertext : Bytes) :
    (gcm.decipher key iv ciphertext).length = ciphertext.length := by
  rw [← gcm.length_encipher key iv, hlib.encipher_decipher]

theorem decrypt_parts {iv ciphertext tag : Bytes} (hiv : iv.length = kIvLen)
    (htag : tag.length = kTagLen) (hsize : ciphertext.length < 2 ^ 31) (ctx : CipherContext) :
    Triple (fun history => context history = ctx)
      (provider.decrypt lib (iv ++ (ciphertext ++ tag)))
      (fun result _ => result =
        if tag = gcm.tag provider.key iv ciphertext then
          .ok (gcm.decipher provider.key iv ciphertext)
        else .error { what := "authentication tag mismatch" }) := by
  rcases @blob_parts iv ciphertext tag hiv htag with ⟨hlong, hctLen, htagAt⟩
  unfold decrypt
  rw [if_neg hlong]
  simp only [hctLen, htagAt, List.take_left' hiv, List.drop_left' hiv]
  refine decrypt_before_final hlib.toConformsDecrypting provider hiv htag hsize ?_ ctx
  refine Triple.perform_bind
    (fun out _ => out = if tag = gcm.tag provider.key iv ciphertext then some [] else none) ?_ ?_
  · intro history hcontext
    split
    · next hsame =>
        rw [hsame] at hcontext
        exact hlib.decryptFinal history provider iv _ hiv hcontext
    · next hdifferent => exact hlib.refuses history provider iv _ _ hiv hcontext hdifferent
  · intro out history hout
    rw [hout]
    have hwhole := @overwrite_end [] (List.replicate ciphertext.length 0)
      (gcm.decipher provider.key iv ciphertext) 0 rfl
      (by rw [List.length_replicate, length_decipher hlib])
    split
    · simp only [store, overwrite_nil]
      exact congrArg Except.ok hwhole
    · rfl

theorem decrypt_eq_ok_iff {blob plaintext : Bytes} (hsize : blob.length < 2 ^ 31)
    (history : List (Performed OpenSslCall Bytes)) :
    (provider.decrypt lib blob history).fst = .ok plaintext <->
      exists iv, iv.length = kIvLen ∧ blob = sealed gcm provider.key iv plaintext := by
  constructor
  · intro hok
    by_cases hshort : blob.length < kIvLen + kTagLen
    · rw [decrypt, if_pos hshort] at hok
      cases hok
    · have hlong : 28 <= blob.length := Nat.not_lt.mp hshort
      let iv := blob.take kIvLen
      let ciphertext := (blob.drop kIvLen).take (blob.length - 28)
      let tag := (blob.drop kIvLen).drop (blob.length - 28)
      have hiv : iv.length = kIvLen := by
        rw [List.length_take, kIvLen]
        lia
      have htag : tag.length = kTagLen := by
        rw [List.length_drop, List.length_drop, kIvLen, kTagLen]
        lia
      have hct : ciphertext.length < 2 ^ 31 :=
        (List.length_take_le _ _).trans_lt (by lia)
      have hparts : blob = iv ++ (ciphertext ++ tag) := by
        rw [List.take_append_drop, List.take_append_drop]
      have hresult := decrypt_parts hlib provider hiv htag hct (context history) history rfl
      rw [hparts, hresult] at hok
      split at hok
      · next hsame =>
          injection hok with hplaintext
          refine ⟨iv, hiv, ?_⟩
          rw [sealed, ← hplaintext, hlib.encipher_decipher, ← hsame]
          exact hparts
      · cases hok
  · rintro ⟨iv, hiv, rfl⟩
    have hct : (gcm.encipher provider.key iv plaintext).length < 2 ^ 31 := by
      rw [sealed, List.length_append, List.length_append] at hsize
      lia
    have htag := gcm.length_tag provider.key iv (gcm.encipher provider.key iv plaintext)
    have hresult := decrypt_parts hlib provider hiv htag hct (context history) history rfl
    rw [if_pos rfl, gcm.decipher_encipher] at hresult
    exact hresult

end Authenticating

end AesGcmProvider

/-!
## The service

It holds the key that was first added for a version, and puts nothing in front of a blob but the
version.
-/

theorem versionPrefix_readVersion (d0 d1 d2 d3 : UInt8) :
    versionPrefix (readVersion d0 d1 d2 d3) = [d0, d1, d2, d3] := by
  have h0 := d0.toNat_lt
  have h1 := d1.toNat_lt
  have h2 := d2.toNat_lt
  have h3 := d3.toNat_lt
  have hread := toNat_readVersion d0 d1 d2 d3
  simp only [versionPrefix, List.cons.injEq, and_true]
  refine ⟨?_, ?_, ?_, ?_⟩
  all_goals
    apply UInt8.toNat_inj.mp
    rw [toNat_lowByte]
    simp only [UInt32.toNat_shiftRight, UInt32.reduceToNat, Nat.shiftRight_eq_div_pow, hread,
      Nat.reduceMod, Nat.reducePow]
    omega

namespace KeyRotationService

/-- The version and the key of an `add_key` that does not throw. -/
def additionBy : Operation -> Option (UInt32 × Bytes)
  | .addKey version key => if key.length = 32 then some (version, key) else none
  | _ => none

def additions (history : List Operation) : List (UInt32 × Bytes) :=
  history.filterMap additionBy

theorem key_perform (s : KeyRotationService) (op : Operation) (version : UInt32) :
    (s.perform op).keys[version]?.map AesGcmProvider.key =
      (s.keys[version]?.map AesGcmProvider.key).or ((additionBy op).toList.lookup version) := by
  cases hheld : s.keys[version]? with
  | some provider =>
      rw [getElem?_perform hheld op]
      rfl
  | none =>
      cases op with
      | addKey v key =>
          by_cases hsize : key.length = 32
          · have hnew : version ∉ s.keys := by
              rw [Std.TreeMap.mem_iff_isSome_getElem?, hheld]
              simp
            rw [perform, addKey_of_size hsize, additionBy, if_pos hsize,
              Std.TreeMap.getElem?_insertIfNew]
            simp only [Std.LawfulEqCmp.compare_eq_iff_eq]
            by_cases hsame : v = version
            · rw [if_pos ⟨hsame, hsame ▸ hnew⟩]
              simp [hsame]
            · rw [if_neg (fun h => hsame h.left), hheld]
              simp [List.lookup, beq_eq_false_iff_ne.mpr (Ne.symm hsame)]
          · rw [perform, addKey_of_not_size hsize, additionBy, if_neg hsize, hheld]
            rfl
      | encrypt iv plaintext => simp [perform, additionBy, hheld]
      | decrypt data => simp [perform, additionBy, hheld]
      | currentVersion => simp [perform, additionBy, hheld]
      | hasVersion v => simp [perform, additionBy, hheld]

theorem key_after (history : List Operation) (version : UInt32) :
    (after history).keys[version]?.map AesGcmProvider.key =
      (additions history).lookup version := by
  induction history using List.reverseRecOn with
  | nil => simp [after, additions]
  | append_singleton history op ih =>
      have hlast : after (history ++ [op]) = (after history).perform op := by
        simp [after]
      have hadditions :
          additions (history ++ [op]) = additions history ++ (additionBy op).toList := by
        rw [additions, List.filterMap_append, ← additions]
        cases h : additionBy op <;> simp [h]
      rw [hlast, key_perform, ih, hadditions, List.lookup_append]

theorem decrypt_eq_ok_iff {cipher : AesGcm} {s : KeyRotationService} {data plaintext : Bytes} :
    s.decrypt cipher data = .ok plaintext <->
      exists version provider ciphertext, s.keys[version]? = some provider ∧
        cipher.decrypt provider ciphertext = .ok plaintext ∧
        data = versionPrefix version ++ ciphertext := by
  constructor
  · intro h
    unfold decrypt at h
    split at h
    · next d0 d1 d2 d3 ciphertext =>
        simp only at h
        cases hkey : s.keys[readVersion d0 d1 d2 d3]? with
        | none =>
            rw [hkey] at h
            cases h
        | some provider =>
            simp only [hkey] at h
            cases hcipher : cipher.decrypt provider ciphertext with
            | error e =>
                rw [hcipher] at h
                cases h
            | ok text =>
                rw [hcipher] at h
                cases h
                refine ⟨_, provider, ciphertext, hkey, hcipher, ?_⟩
                rw [versionPrefix_readVersion]
                rfl
    · cases h
  · rintro ⟨version, provider, ciphertext, hkey, hcipher, rfl⟩
    exact decrypt_prefixed hkey hcipher

/-- After any history, the service decrypts exactly the blobs sealed under the key that was
first added for their version. -/
theorem rotation_accepts_iff {gcm : Gcm} {lib : Bytes -> OpenSsl}
    (hlib : forall iv, Authenticates gcm (lib iv)) (history : List Operation)
    {data : Bytes} (hsize : data.length < 2 ^ 31) (plaintext : Bytes) :
    (after history).decrypt (AesGcmProvider.cipherOf lib) data = .ok plaintext <->
      exists version key iv, (additions history).lookup version = some key ∧ iv.length = 12 ∧
        data = versionPrefix version ++ sealed gcm key iv plaintext := by
  rw [decrypt_eq_ok_iff]
  constructor
  · rintro ⟨version, provider, ciphertext, hkey, hcipher, rfl⟩
    rw [List.length_append] at hsize
    rcases (AesGcmProvider.decrypt_eq_ok_iff (hlib []) provider (by lia) []).mp hcipher with
      ⟨iv, hiv, hsealed⟩
    refine ⟨version, provider.key, iv, ?_, hiv, by rw [hsealed]⟩
    rw [← key_after, hkey]
    rfl
  · rintro ⟨version, key, iv, hkey, hiv, rfl⟩
    rw [← key_after, Option.map_eq_some_iff] at hkey
    rcases hkey with ⟨provider, hprovider, rfl⟩
    rw [List.length_append] at hsize
    refine ⟨version, provider, _, hprovider, ?_, rfl⟩
    exact (AesGcmProvider.decrypt_eq_ok_iff (hlib []) provider (by lia) []).mpr ⟨iv, hiv, rfl⟩

theorem openSslOver_authenticates (stream : Bytes -> Bytes -> Bytes)
    (tag : Bytes -> Bytes -> Bytes -> Bytes)
    (length_tag : forall key iv ciphertext, (tag key iv ciphertext).length = 16) :
    Authenticates (.ofStream stream tag length_tag)
      (AesGcmProvider.openSslOver (.ofStream stream tag length_tag)) where
  toConformsDecrypting := (AesGcmProvider.openSslOver_conforms _).toConformsDecrypting
  encipher_decipher key iv := Gcm.masked_masked (stream key iv)
  refuses history provider iv input tag _ h hdifferent := by
    simp only [AesGcmProvider.openSslOver, h]
    exact if_neg (fun hsame => hdifferent (Option.some.inj hsame))

def rotated : List Operation :=
  [.addKey 1 (List.replicate 32 0), .addKey 1 (List.replicate 32 2),
    .addKey 2 (List.replicate 32 2), .addKey 3 [7]]

theorem rotated_accepts :
    (after rotated).decrypt (AesGcmProvider.cipherOf fun _ => AesGcmProvider.openSslOver .zeroVector)
        ([0, 0, 0, 1] ++ (List.replicate 12 0 ++ (Gcm.zeroStream ++ Gcm.zeroTag))) =
      .ok (List.replicate 16 0) := by
  have hlib : Authenticates .zeroVector (AesGcmProvider.openSslOver .zeroVector) :=
    openSslOver_authenticates Gcm.vectorStream Gcm.vectorTag Gcm.length_vectorTag
  refine (rotation_accepts_iff (fun _ => hlib) rotated (by decide) (List.replicate 16 0)).mpr ?_
  refine ⟨1, List.replicate 32 0, List.replicate 12 0, by decide, by decide, ?_⟩
  rw [Gcm.sealed_zeros]
  rfl

end KeyRotationService
end Security
end CppCommons
