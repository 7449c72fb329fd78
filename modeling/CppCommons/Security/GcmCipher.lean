import CppCommons.Cxx.ByteString

/-!
# Authenticated encryption

What AES-256-GCM is to the provider: a cipher that keeps the length of a text, and a tag over the
ciphertext, both under a key and an initialisation vector.  A cipher of this kind masks the text
with a key stream.  Of AES-256-GCM itself two sealed texts are known here, that of zeros and the
empty one.
-/

namespace CppCommons
namespace Security

open Cxx

structure Gcm where
  encipher : Bytes -> Bytes -> Bytes -> Bytes
  decipher : Bytes -> Bytes -> Bytes -> Bytes
  tag : Bytes -> Bytes -> Bytes -> Bytes
  length_encipher : forall key iv plaintext, (encipher key iv plaintext).length = plaintext.length
  length_tag : forall key iv ciphertext, (tag key iv ciphertext).length = 16
  decipher_encipher : forall key iv plaintext,
    decipher key iv (encipher key iv plaintext) = plaintext

/-- A plaintext as the provider stores it. -/
def sealed (gcm : Gcm) (key iv plaintext : Bytes) : Bytes :=
  iv ++ (gcm.encipher key iv plaintext ++ gcm.tag key iv (gcm.encipher key iv plaintext))

theorem length_sealed (gcm : Gcm) (key iv plaintext : Bytes) :
    (sealed gcm key iv plaintext).length = iv.length + plaintext.length + 16 := by
  rw [sealed, List.length_append, List.length_append, gcm.length_encipher, gcm.length_tag,
    Nat.add_assoc]

namespace Gcm

/-!
## Key streams

The stream is added bit by bit; behind its end the text is left as it is.
-/

def masked : Bytes -> Bytes -> Bytes
  | mask :: stream, byte :: text => (byte ^^^ mask) :: masked stream text
  | _, text => text

theorem length_masked (stream text : Bytes) : (masked stream text).length = text.length := by
  induction stream generalizing text with
  | nil => cases text <;> rfl
  | cons mask stream ih =>
      cases text with
      | nil => rfl
      | cons byte text => rw [masked, List.length_cons, ih, List.length_cons]

theorem masked_masked (stream text : Bytes) : masked stream (masked stream text) = text := by
  induction stream generalizing text with
  | nil => cases text <;> rfl
  | cons mask stream ih =>
      cases text with
      | nil => rfl
      | cons byte text =>
          rw [masked, masked, ih, UInt8.xor_assoc, UInt8.xor_self, UInt8.xor_zero]

def ofStream (stream : Bytes -> Bytes -> Bytes) (tag : Bytes -> Bytes -> Bytes -> Bytes)
    (length_tag : forall key iv ciphertext, (tag key iv ciphertext).length = 16) : Gcm where
  encipher key iv := masked (stream key iv)
  decipher key iv := masked (stream key iv)
  tag := tag
  length_encipher key iv := length_masked (stream key iv)
  length_tag := length_tag
  decipher_encipher key iv := masked_masked (stream key iv)

/-!
## A text of zeros

The first block of the key stream for a key and an initialisation vector of zeros, which is the
ciphertext of sixteen zeros, and the tag over it.
-/

def zeroStream : Bytes :=
  [206, 167, 64, 61, 77, 96, 107, 110, 7, 78, 197, 211, 186, 243, 157, 24]

def zeroTag : Bytes :=
  [208, 209, 200, 167, 153, 153, 107, 240, 38, 91, 152, 181, 212, 138, 185, 25]

def emptyTag : Bytes :=
  [83, 15, 138, 251, 199, 69, 54, 185, 169, 99, 180, 241, 196, 203, 115, 139]

def IsZero (key iv : Bytes) : Prop :=
  key = List.replicate 32 0 ∧ iv = List.replicate 12 0

instance (key iv : Bytes) : Decidable (IsZero key iv) :=
  inferInstanceAs (Decidable (key = List.replicate 32 0 ∧ iv = List.replicate 12 0))

def vectorStream (key iv : Bytes) : Bytes :=
  if IsZero key iv then zeroStream else []

def vectorTag (key iv ciphertext : Bytes) : Bytes :=
  if IsZero key iv ∧ ciphertext = zeroStream then zeroTag
  else if IsZero key iv ∧ ciphertext = [] then emptyTag
  else List.replicate 16 0

theorem length_vectorTag (key iv ciphertext : Bytes) :
    (vectorTag key iv ciphertext).length = 16 := by
  rw [vectorTag]
  split
  · rfl
  · split
    · rfl
    · exact List.length_replicate

/-- AES-256-GCM on these two texts; other keys and other vectors mask nothing. -/
def zeroVector : Gcm :=
  ofStream vectorStream vectorTag length_vectorTag

theorem sealed_zeros :
    sealed zeroVector (List.replicate 32 0) (List.replicate 12 0) (List.replicate 16 0) =
      List.replicate 12 0 ++ (zeroStream ++ zeroTag) := by
  decide

end Gcm
end Security
end CppCommons
