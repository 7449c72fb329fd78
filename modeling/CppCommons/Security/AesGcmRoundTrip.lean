import CppCommons.Security.AesGcmProvider

/-!
# Round trips of the AES-256-GCM provider

What OpenSSL does for a call depends on what the successful calls before it have
put into the cipher context.  For a library that does what is documented of it,
the provider's two functions are inverse to each other as long as the length of
the plaintext fits the `int` that `EVP_EncryptUpdate` takes.
-/

namespace CppCommons
namespace Security

open Foundation.FallibleCalls
open Cxx

/-- What the calls have put into a cipher context. -/
structure CipherContext where
  cipher : Option EvpCipher := none
  encrypting : Option Bool := none
  ivLen : Option Int := none
  key : Option Bytes := none
  iv : Option Bytes := none
  /-- the bytes processed -/
  input : Bytes := []
  tag : Option Bytes := none

namespace CipherContext

def initialised (ctx : CipherContext) (encrypting : Bool) (cipher : Option EvpCipher)
    (key iv : Option Bytes) : CipherContext :=
  { ctx with
    cipher := cipher.or ctx.cipher
    encrypting := some encrypting
    key := key.or ctx.key
    iv := iv.or ctx.iv }

def after (ctx : CipherContext) : Performed OpenSslCall Bytes -> CipherContext
  | ⟨_, none⟩ => ctx
  | ⟨.ctxNew, some _⟩ => {}
  | ⟨.encryptInit cipher key iv, some _⟩ => ctx.initialised true cipher key iv
  | ⟨.decryptInit cipher key iv, some _⟩ => ctx.initialised false cipher key iv
  | ⟨.setIvLen len, some _⟩ => { ctx with ivLen := some len }
  | ⟨.encryptUpdate input len, some _⟩ => { ctx with input := ctx.input ++ input.take len.toNat }
  | ⟨.decryptUpdate input len, some _⟩ => { ctx with input := ctx.input ++ input.take len.toNat }
  | ⟨.setTag tag, some _⟩ => { ctx with tag := some tag }
  | ⟨.randBytes _, some _⟩ => ctx
  | ⟨.encryptFinal, some _⟩ => ctx
  | ⟨.getTag _, some _⟩ => ctx
  | ⟨.decryptFinal, some _⟩ => ctx

def chosen (encrypting : Bool) : CipherContext where
  cipher := some .aes256Gcm
  encrypting := some encrypting

def sized (encrypting : Bool) : CipherContext :=
  { chosen encrypting with ivLen := some 12 }

def started (encrypting : Bool) (key iv : Bytes) : CipherContext :=
  { sized encrypting with key := some key, iv := some iv }

theorem input_after_encryptUpdate (ctx : CipherContext) (input out : Bytes) (len : Int) :
    (ctx.after ⟨.encryptUpdate input len, some out⟩).input = ctx.input ++ input.take len.toNat :=
  rfl

theorem started_after_encryptUpdate (key iv input out : Bytes) (len : Int) :
    (started true key iv).after ⟨.encryptUpdate input len, some out⟩ =
      { started true key iv with input := input.take len.toNat } := rfl

theorem started_after_decryptUpdate (key iv input out : Bytes) (len : Int) :
    (started false key iv).after ⟨.decryptUpdate input len, some out⟩ =
      { started false key iv with input := input.take len.toNat } := rfl

end CipherContext

def context (history : List (Performed OpenSslCall Bytes)) : CipherContext :=
  history.foldl CipherContext.after {}

/-!
## What is documented of OpenSSL

Each call succeeds where the provider makes it, in the order in which the context is set up:
nothing is asked of other contexts, of other lengths, or of a wrong tag.
-/

/-- The calls of `decrypt`. -/
structure ConformsDecrypting (gcm : Gcm) (lib : OpenSsl) : Prop where
  ctxNew : forall history, exists out, lib history .ctxNew = some out
  decryptCipher : forall history, context history = {} ->
    exists out, lib history (.decryptInit (some .aes256Gcm) none none) = some out
  decryptIvLen : forall history, context history = .chosen false ->
    exists out, lib history (.setIvLen 12) = some out
  decryptKey : forall history (provider : AesGcmProvider) iv, iv.length = 12 ->
    context history = .sized false ->
      exists out, lib history (.decryptInit none (some provider.key) (some iv)) = some out
  decryptUpdate : forall history (provider : AesGcmProvider) iv input len, iv.length = 12 ->
    context history = .started false provider.key iv -> 0 <= len -> len <= input.length ->
      lib history (.decryptUpdate input len) =
        some (gcm.decipher provider.key iv (input.take len.toNat))
  setTag : forall history (provider : AesGcmProvider) iv input tag, iv.length = 12 ->
    context history = { CipherContext.started false provider.key iv with input := input } ->
      tag.length = 16 -> exists out, lib history (.setTag tag) = some out
  decryptFinal : forall history (provider : AesGcmProvider) iv input, iv.length = 12 ->
    context history = { CipherContext.started false provider.key iv with
      input := input, tag := some (gcm.tag provider.key iv input) } ->
      lib history .decryptFinal = some []

structure Conforms (gcm : Gcm) (lib : OpenSsl) : Prop extends ConformsDecrypting gcm lib where
  randBytes : forall history, exists out, lib history (.randBytes 12) = some out ∧ out.length = 12
  encryptCipher : forall history, context history = {} ->
    exists out, lib history (.encryptInit (some .aes256Gcm) none none) = some out
  encryptIvLen : forall history, context history = .chosen true ->
    exists out, lib history (.setIvLen 12) = some out
  encryptKey : forall history (provider : AesGcmProvider) iv, iv.length = 12 ->
    context history = .sized true ->
      exists out, lib history (.encryptInit none (some provider.key) (some iv)) = some out
  encryptUpdate : forall history (provider : AesGcmProvider) iv input len, iv.length = 12 ->
    context history = .started true provider.key iv -> 0 <= len -> len <= input.length ->
      lib history (.encryptUpdate input len) =
        some (gcm.encipher provider.key iv (input.take len.toNat))
  encryptFinal : forall history (provider : AesGcmProvider) iv input, iv.length = 12 ->
    context history = { CipherContext.started true provider.key iv with input := input } ->
      lib history .encryptFinal = some []
  getTag : forall history (provider : AesGcmProvider) iv input, iv.length = 12 ->
    context history = { CipherContext.started true provider.key iv with input := input } ->
      lib history (.getTag 16) =
        some (gcm.tag provider.key iv (gcm.encipher provider.key iv input))

theorem triple_context {lib : OpenSsl} {c : OpenSslCall} {result : Type} (ctx : CipherContext)
    (good : Bytes -> Prop) {next : Option Bytes -> Program OpenSslCall Bytes result}
    {post : result -> List (Performed OpenSslCall Bytes) -> Prop}
    (hcall : forall history, context history = ctx ->
      exists out, lib history c = some out ∧ good out)
    (hnext : forall out, good out ->
      Triple (fun history => context history = ctx.after ⟨c, some out⟩) (next (some out)) post) :
    Triple (fun history => context history = ctx) (perform lib c >>= next) post := by
  refine Triple.perform_bind
    (fun reported history => exists out, reported = some out ∧ good out ∧
      context history = ctx.after ⟨c, some out⟩) ?_ ?_
  · intro history hcontext
    rcases hcall history hcontext with ⟨out, hout, hgood⟩
    refine ⟨out, hout, hgood, ?_⟩
    rw [hout, context, List.foldl_concat, ← context, hcontext]
  · rintro reported history ⟨out, hreported, hgood, hcontext⟩
    rw [hreported]
    exact hnext out hgood history hcontext

theorem triple_succeeds {lib : OpenSsl} {c : OpenSslCall} {result : Type} (ctx : CipherContext)
    {next : Option Bytes -> Program OpenSslCall Bytes result}
    {post : result -> List (Performed OpenSslCall Bytes) -> Prop}
    (hcall : forall history, context history = ctx -> exists out, lib history c = some out)
    (hnext : forall out,
      Triple (fun history => context history = ctx.after ⟨c, some out⟩) (next (some out)) post) :
    Triple (fun history => context history = ctx) (perform lib c >>= next) post := by
  refine triple_context ctx (fun _ => True) ?_ (fun out _ => hnext out)
  intro history hcontext
  rcases hcall history hcontext with ⟨out, hout⟩
  exact ⟨out, hout, trivial⟩

theorem triple_input {lib : OpenSsl} {c : OpenSslCall} {result : Type} (P Q : Bytes -> Prop)
    {next : Option Bytes -> Program OpenSslCall Bytes result}
    {post : result -> List (Performed OpenSslCall Bytes) -> Prop}
    (hcall : forall (ctx : CipherContext) out, P ctx.input -> Q (ctx.after ⟨c, out⟩).input)
    (hnext : forall out, Triple (fun history => Q (context history).input) (next out) post) :
    Triple (fun history => P (context history).input) (perform lib c >>= next) post := by
  refine Triple.perform_bind (fun _ history => Q (context history).input) ?_ hnext
  intro history hinput
  rw [context, List.foldl_concat, ← context]
  exact hcall (context history) _ hinput

theorem overwrite_middle {front old back data : Bytes} {offset : Nat}
    (hfront : front.length = offset) (hold : old.length = data.length) :
    overwrite (front ++ (old ++ back)) offset data = front ++ (data ++ back) := by
  have htake : (front ++ (old ++ back)).take offset = front := List.take_left' hfront
  have hdrop : (front ++ (old ++ back)).drop (offset + data.length) = back := by
    rw [← List.append_assoc]
    exact List.drop_left' (by rw [List.length_append, hfront, hold])
  have hdata : data.take ((front ++ (old ++ back)).length - offset) = data := by
    apply List.take_of_length_le
    simp only [List.length_append]
    lia
  rw [overwrite, htake, hdrop, hdata, List.append_assoc]

theorem overwrite_front {old back data : Bytes} (hold : old.length = data.length) :
    overwrite (old ++ back) 0 data = data ++ back :=
  @overwrite_middle [] old back data 0 rfl hold

theorem overwrite_end {front old data : Bytes} {offset : Nat} (hfront : front.length = offset)
    (hold : old.length = data.length) : overwrite (front ++ old) offset data = front ++ data := by
  have hmiddle := @overwrite_middle front old [] data offset hfront hold
  rwa [List.append_nil, List.append_nil] at hmiddle

theorem buffer_eq {n : Nat} (h : n < 2 ^ 31) :
    List.replicate ((AesGcmProvider.kIvLen + n + AesGcmProvider.kTagLen) % 2 ^ 64) (0 : UInt8) =
      List.replicate AesGcmProvider.kIvLen 0 ++
        (List.replicate n 0 ++ List.replicate AesGcmProvider.kTagLen 0) := by
  have hfits : AesGcmProvider.kIvLen + n + AesGcmProvider.kTagLen < 2 ^ 64 := by
    simp only [AesGcmProvider.kIvLen, AesGcmProvider.kTagLen]
    omega
  rw [Nat.mod_eq_of_lt hfits, List.replicate_append_replicate, List.replicate_append_replicate,
    Nat.add_assoc]

theorem overwrite_nil (buffer : Bytes) (offset : Nat) : overwrite buffer offset [] = buffer := by
  simp [overwrite]

theorem blob_written {iv ciphertext tag : Bytes} {n : Nat}
    (hiv : iv.length = AesGcmProvider.kIvLen) (hlength : ciphertext.length = n)
    (htag : tag.length = AesGcmProvider.kTagLen) :
    overwrite (overwrite (iv ++ (List.replicate n 0 ++ List.replicate AesGcmProvider.kTagLen 0))
        AesGcmProvider.kIvLen ciphertext) (AesGcmProvider.kIvLen + ciphertext.length) tag =
      iv ++ (ciphertext ++ tag) := by
  rw [overwrite_middle hiv (by rw [List.length_replicate, hlength]), ← List.append_assoc,
    overwrite_end (by rw [List.length_append, hiv]) (by rw [List.length_replicate, htag]),
    List.append_assoc]

theorem blob_parts {iv ciphertext tag : Bytes} (hiv : iv.length = AesGcmProvider.kIvLen)
    (htag : tag.length = AesGcmProvider.kTagLen) :
    ¬ (iv ++ (ciphertext ++ tag)).length < AesGcmProvider.kIvLen + AesGcmProvider.kTagLen ∧
      (iv ++ (ciphertext ++ tag)).length - AesGcmProvider.kIvLen - AesGcmProvider.kTagLen =
        ciphertext.length ∧
      ((iv ++ (ciphertext ++ tag)).drop (AesGcmProvider.kIvLen + ciphertext.length)).take
        AesGcmProvider.kTagLen = tag := by
  have hblob : (iv ++ (ciphertext ++ tag)).length =
      AesGcmProvider.kIvLen + ciphertext.length + AesGcmProvider.kTagLen := by
    rw [List.length_append, List.length_append, hiv, htag, Nat.add_assoc]
  refine ⟨by lia, by lia, ?_⟩
  rw [← List.append_assoc, List.drop_left' (by rw [List.length_append, hiv]), ← htag,
    List.take_length]

namespace AesGcmProvider

section Conforming

variable {gcm : Gcm} {lib : OpenSsl}

theorem decrypt_setup (hlib : ConformsDecrypting gcm lib) (provider : AesGcmProvider) {iv : Bytes}
    (hiv : iv.length = 12) {result : Type} {next : Program OpenSslCall Bytes result}
    {post : result -> List (Performed OpenSslCall Bytes) -> Prop}
    (hnext : Triple (fun history => context history = .started false provider.key iv) next post)
    (ctx : CipherContext) :
    Triple (fun history => context history = ctx)
      (do
        let _ <- perform lib .ctxNew
        let _ <- perform lib (.decryptInit (some .aes256Gcm) none none)
        let _ <- perform lib (.setIvLen kIvLen)
        let _ <- perform lib (.decryptInit none (some provider.key) (some iv))
        next) post := by
  refine triple_succeeds ctx (fun history _ => hlib.ctxNew history) (fun _ => ?_)
  refine triple_succeeds {} hlib.decryptCipher (fun _ => ?_)
  refine triple_succeeds (.chosen false) hlib.decryptIvLen (fun _ => ?_)
  refine triple_succeeds (.sized false) (fun history => hlib.decryptKey history provider iv hiv)
    (fun _ => ?_)
  exact hnext

/-- The calls of `decrypt` before the last one, on a blob in its parts. -/
theorem decrypt_before_final (hlib : ConformsDecrypting gcm lib) (provider : AesGcmProvider)
    {iv ciphertext tag : Bytes} (hiv : iv.length = kIvLen) (htag : tag.length = kTagLen)
    (hsize : ciphertext.length < 2 ^ 31) {result : Type}
    {next : Option Bytes -> Program OpenSslCall Bytes result}
    {post : result -> List (Performed OpenSslCall Bytes) -> Prop}
    (hnext : Triple
      (fun history => context history = { CipherContext.started false provider.key iv with
        input := ciphertext, tag := some tag })
      (next (some (gcm.decipher provider.key iv ciphertext))) post)
    (ctx : CipherContext) :
    Triple (fun history => context history = ctx)
      (do
        let _ <- perform lib .ctxNew
        let _ <- perform lib (.decryptInit (some .aes256Gcm) none none)
        let _ <- perform lib (.setIvLen kIvLen)
        let _ <- perform lib (.decryptInit none (some provider.key) (some iv))
        let updated <- perform lib (.decryptUpdate (ciphertext ++ tag) (toInt32 ciphertext.length))
        let _ <- perform lib (.setTag tag)
        next updated) post := by
  refine decrypt_setup hlib provider hiv ?_ ctx
  have hinput : (ciphertext ++ tag).take (toInt32 ciphertext.length).toNat = ciphertext := by
    rw [toInt32_of_lt hsize, Int.toNat_natCast]
    exact List.take_left
  refine triple_context (.started false provider.key iv)
    (fun out => out = gcm.decipher provider.key iv ciphertext) ?_ (fun updated hupdated => ?_)
  · intro history hcontext
    have hfits : toInt32 ciphertext.length <= (ciphertext ++ tag).length := by
      rw [toInt32_of_lt hsize, List.length_append]
      lia
    have hout := hlib.decryptUpdate history provider iv (ciphertext ++ tag) _ hiv hcontext
      (by rw [toInt32_of_lt hsize]; lia) hfits
    rw [hinput] at hout
    exact ⟨_, hout, rfl⟩
  subst hupdated
  rw [CipherContext.started_after_decryptUpdate, hinput]
  exact triple_succeeds _ (fun history hcontext =>
    hlib.setTag history provider iv ciphertext tag hiv hcontext htag) (fun _ => hnext)

theorem encrypt_setup (hlib : Conforms gcm lib) (provider : AesGcmProvider) {iv : Bytes}
    (hiv : iv.length = 12) {result : Type} {next : Program OpenSslCall Bytes result}
    {post : result -> List (Performed OpenSslCall Bytes) -> Prop}
    (hnext : Triple (fun history => context history = .started true provider.key iv) next post)
    (ctx : CipherContext) :
    Triple (fun history => context history = ctx)
      (do
        let _ <- perform lib .ctxNew
        let _ <- perform lib (.encryptInit (some .aes256Gcm) none none)
        let _ <- perform lib (.setIvLen kIvLen)
        let _ <- perform lib (.encryptInit none (some provider.key) (some iv))
        next) post := by
  refine triple_succeeds ctx (fun history _ => hlib.ctxNew history) (fun _ => ?_)
  refine triple_succeeds {} hlib.encryptCipher (fun _ => ?_)
  refine triple_succeeds (.chosen true) hlib.encryptIvLen (fun _ => ?_)
  refine triple_succeeds (.sized true) (fun history => hlib.encryptKey history provider iv hiv)
    (fun _ => ?_)
  exact hnext

variable (hlib : Conforms gcm lib) (provider : AesGcmProvider)
include hlib

theorem encrypt_triple {plaintext : Bytes} (hsize : plaintext.length < 2 ^ 31)
    (ctx : CipherContext) :
    Triple (fun history => context history = ctx) (provider.encrypt lib plaintext)
      (fun result history => (context history).input = plaintext ∧
        exists iv, iv.length = kIvLen ∧
          result = .ok (iv ++ (gcm.encipher provider.key iv plaintext ++
            gcm.tag provider.key iv (gcm.encipher provider.key iv plaintext)))) := by
  unfold encrypt
  refine triple_context ctx (fun iv => iv.length = kIvLen) (fun history _ => hlib.randBytes history)
    (fun iv hiv => ?_)
  have hrandom : store (List.replicate ((kIvLen + plaintext.length + kTagLen) % 2 ^ 64) 0) 0
      (some iv) = iv ++ (List.replicate plaintext.length 0 ++ List.replicate kTagLen 0) := by
    rw [store, buffer_eq hsize, overwrite_front (by rw [List.length_replicate, hiv])]
  simp only [hrandom, List.take_left' hiv]
  refine encrypt_setup hlib provider hiv ?_ _
  refine triple_context (.started true provider.key iv)
    (fun out => out = gcm.encipher provider.key iv plaintext) ?_ (fun updated hupdated => ?_)
  · intro history hcontext
    have hout := hlib.encryptUpdate history provider iv plaintext plaintext.length hiv hcontext
      (by lia) (by lia)
    rw [Int.toNat_natCast, List.take_length] at hout
    rw [toInt32_of_lt hsize]
    exact ⟨_, hout, rfl⟩
  have hlength : updated.length = plaintext.length := by
    rw [hupdated, gcm.length_encipher]
  rw [CipherContext.started_after_encryptUpdate, toInt32_of_lt hsize, Int.toNat_natCast,
    List.take_length]
  refine triple_context _ (fun out => out = [])
    (fun history hcontext => ⟨_, hlib.encryptFinal history provider iv _ hiv hcontext, rfl⟩)
    (fun finished hfinished => ?_)
  refine triple_context _ (fun out => out = gcm.tag provider.key iv updated)
    (fun history hcontext => ⟨_, hlib.getTag history provider iv _ hiv hcontext, by rw [hupdated]⟩)
    (fun tag htag => ?_)
  refine Triple.of_pure (fun history hcontext => ⟨by rw [hcontext]; rfl, iv, hiv, ?_⟩)
  rw [hfinished, ← hupdated, ← htag]
  simp only [store, written, List.length_nil, Nat.add_zero, overwrite_nil]
  rw [blob_written hiv hlength (by rw [htag, gcm.length_tag]; rfl)]

theorem decrypt_triple {iv plaintext : Bytes} (hiv : iv.length = kIvLen)
    (hsize : plaintext.length < 2 ^ 31) (ctx : CipherContext) :
    Triple (fun history => context history = ctx)
      (provider.decrypt lib (iv ++ (gcm.encipher provider.key iv plaintext ++
        gcm.tag provider.key iv (gcm.encipher provider.key iv plaintext))))
      (fun result _ => result = .ok plaintext) := by
  generalize hciphertext : gcm.encipher provider.key iv plaintext = ciphertext
  generalize htag : gcm.tag provider.key iv ciphertext = tag
  have hlength : ciphertext.length = plaintext.length := by
    rw [← hciphertext, gcm.length_encipher]
  have htagLength : tag.length = kTagLen := by
    rw [← htag, gcm.length_tag]
    rfl
  have hdeciphered : gcm.decipher provider.key iv ciphertext = plaintext := by
    rw [← hciphertext, gcm.decipher_encipher]
  rcases @blob_parts iv ciphertext tag hiv htagLength with ⟨hlong, hctLen, htagAt⟩
  unfold decrypt
  rw [if_neg hlong]
  simp only [hctLen, htagAt, List.take_left' hiv, List.drop_left' hiv]
  refine decrypt_before_final hlib.toConformsDecrypting provider hiv htagLength
    (by rw [hlength]; exact hsize) ?_ ctx
  refine triple_context { CipherContext.started false provider.key iv with
    input := ciphertext, tag := some tag } (fun out => out = []) ?_ (fun finished hfinished => ?_)
  · intro history hcontext
    rw [← htag] at hcontext
    exact ⟨_, hlib.decryptFinal history provider iv _ hiv hcontext, rfl⟩
  refine Triple.of_pure (fun history _ => ?_)
  rw [hfinished, overwrite_nil, hdeciphered]
  have hplaintext := @overwrite_end [] (List.replicate ciphertext.length 0) plaintext 0 rfl
    (by rw [List.length_replicate, hlength])
  exact congrArg Except.ok hplaintext

/-- What `encrypt` passes to the cipher of any plaintext: the bytes that the length counts,
or nothing if a call is refused. -/
theorem encrypt_input (plaintext : Bytes) (ctx : CipherContext) :
    Triple (fun history => context history = ctx) (provider.encrypt lib plaintext)
      (fun _ history => (context history).input = [] ∨
        (context history).input = plaintext.take (toInt32 plaintext.length).toNat) := by
  unfold encrypt
  -- the length and the buffer are variables from here on, so that contexts compare by reduction
  generalize toInt32 plaintext.length = len
  refine triple_context ctx (fun _ => True) ?_ (fun random _ => ?_)
  · intro history _
    rcases hlib.randBytes history with ⟨random, hrandom, _⟩
    exact ⟨random, hrandom, trivial⟩
  generalize store (List.replicate ((kIvLen + plaintext.length + kTagLen) % 2 ^ 64) 0) 0
    (some random) = out
  refine triple_succeeds _ (fun history _ => hlib.ctxNew history) (fun _ => ?_)
  -- the context is new, and only one of the calls that follow adds to its bytes
  let empty : Bytes -> Prop := fun input => input = []
  let cut : Bytes -> Prop := fun input => input = [] ∨ input = plaintext.take len.toNat
  refine Triple.of_weaker (fun history => empty (context history).input)
    (fun history hcontext => congrArg CipherContext.input hcontext) ?_
  refine triple_input empty empty ?_ (fun _ => ?_)
  · rintro ctx (_ | _) hinput <;> exact hinput
  refine triple_input empty empty ?_ (fun _ => ?_)
  · rintro ctx (_ | _) hinput <;> exact hinput
  refine triple_input empty empty ?_ (fun _ => ?_)
  · rintro ctx (_ | _) hinput <;> exact hinput
  refine triple_input empty cut ?_ (fun _ => ?_)
  · rintro ctx (_ | data) hinput
    · exact .inl hinput
    · have hempty : ctx.input = [] := hinput
      right
      rw [CipherContext.input_after_encryptUpdate, hempty, List.nil_append]
  refine triple_input cut cut ?_ (fun _ => ?_)
  · rintro ctx (_ | _) hinput <;> exact hinput
  refine triple_input cut cut ?_ (fun _ => ?_)
  · rintro ctx (_ | _) hinput <;> exact hinput
  exact Triple.of_pure (fun _ hinput => hinput)

end Conforming

/-!
## Lengths

A plaintext that is too long is cut, or refused by a call whose report is not looked at.
-/

/-- What `encrypt` and `decrypt` should do with a plaintext, at any two points of time. -/
structure RoundTrips (gcm : Gcm) (lib : OpenSsl) (provider : AesGcmProvider) (plaintext : Bytes) :
    Prop where
  layout : forall history, exists iv, iv.length = 12 ∧
    (provider.encrypt lib plaintext history).fst =
      .ok (iv ++ (gcm.encipher provider.key iv plaintext ++
        gcm.tag provider.key iv (gcm.encipher provider.key iv plaintext)))
  size : forall history blob, (provider.encrypt lib plaintext history).fst = .ok blob ->
    blob.length = 12 + plaintext.length + 16
  inverts : forall history later blob, (provider.encrypt lib plaintext history).fst = .ok blob ->
    (provider.decrypt lib blob later).fst = .ok plaintext
  /-- every byte is passed to the cipher -/
  processed : forall history,
    (context (provider.encrypt lib plaintext history).snd).input = plaintext

theorem roundTrips_of_lt {gcm : Gcm} {lib : OpenSsl} (hlib : Conforms gcm lib)
    (provider : AesGcmProvider) {plaintext : Bytes} (hsize : plaintext.length < 2 ^ 31) :
    RoundTrips gcm lib provider plaintext := by
  have hencrypt : forall history, (context (provider.encrypt lib plaintext history).snd).input =
      plaintext ∧ exists iv, iv.length = kIvLen ∧
        (provider.encrypt lib plaintext history).fst =
          .ok (iv ++ (gcm.encipher provider.key iv plaintext ++
            gcm.tag provider.key iv (gcm.encipher provider.key iv plaintext))) :=
    fun history => encrypt_triple hlib provider hsize (context history) history rfl
  refine ⟨fun history => (hencrypt history).right, ?_, ?_, fun history => (hencrypt history).left⟩
  · intro history blob hblob
    rcases (hencrypt history).right with ⟨iv, hiv, hresult⟩
    rw [hresult] at hblob
    injection hblob with hblob
    rw [← hblob, List.length_append, List.length_append, hiv, gcm.length_encipher, gcm.length_tag,
      ← Nat.add_assoc]
    rfl
  · intro history later blob hblob
    rcases (hencrypt history).right with ⟨iv, hiv, hresult⟩
    rw [hresult] at hblob
    injection hblob with hblob
    rw [← hblob]
    exact decrypt_triple hlib provider hiv hsize (context later) later rfl

/-- The two functions are inverse to each other exactly when the length fits an `int`. -/
theorem roundTrips_iff {gcm : Gcm} {lib : OpenSsl} (hlib : Conforms gcm lib)
    (provider : AesGcmProvider) (plaintext : Bytes) :
    RoundTrips gcm lib provider plaintext <-> plaintext.length < 2 ^ 31 := by
  constructor
  · intro hround
    by_contra hsize
    have hlength := congrArg List.length (hround.processed [])
    have hless := toNat_toInt32_lt (Nat.not_lt.mp hsize)
    rcases encrypt_input hlib provider plaintext (context []) [] rfl with hnone | hcut
    · rw [hnone, List.length_nil] at hlength
      lia
    · rw [hcut, List.length_take, Nat.min_eq_left (Nat.le_of_lt hless)] at hlength
      lia
  · intro hsize
    exact roundTrips_of_lt hlib provider hsize

/-- OpenSSL over a cipher, as far as the provider sees it; `RAND_bytes` draws zeros. -/
def openSslOver (gcm : Gcm) : OpenSsl := fun history c =>
  let ctx := context history
  let key := ctx.key.getD []
  let iv := ctx.iv.getD []
  match c with
  | .randBytes num => some (List.replicate num.toNat 0)
  | .encryptUpdate input len => some (gcm.encipher key iv (input.take len.toNat))
  | .getTag _ => some (gcm.tag key iv (gcm.encipher key iv ctx.input))
  | .decryptUpdate input len => some (gcm.decipher key iv (input.take len.toNat))
  | .decryptFinal => if ctx.tag = some (gcm.tag key iv ctx.input) then some [] else none
  | _ => some []

theorem openSslOver_conforms (gcm : Gcm) : Conforms gcm (openSslOver gcm) where
  ctxNew _ := ⟨_, rfl⟩
  decryptCipher _ _ := ⟨_, rfl⟩
  decryptIvLen _ _ := ⟨_, rfl⟩
  decryptKey _ _ _ _ _ := ⟨_, rfl⟩
  decryptUpdate history provider iv input len _ h _ _ := by
    simp only [openSslOver, h]
    rfl
  setTag _ _ _ _ _ _ _ _ := ⟨_, rfl⟩
  decryptFinal history provider iv input _ h := by
    simp only [openSslOver, h]
    exact if_pos rfl
  randBytes _ := ⟨_, rfl, rfl⟩
  encryptCipher _ _ := ⟨_, rfl⟩
  encryptIvLen _ _ := ⟨_, rfl⟩
  encryptKey _ _ _ _ _ := ⟨_, rfl⟩
  encryptUpdate history provider iv input len _ h _ _ := by
    simp only [openSslOver, h]
    rfl
  encryptFinal _ _ _ _ _ _ := rfl
  getTag history provider iv input _ h := by
    simp only [openSslOver, h]
    rfl

theorem roundTrips_zeros :
    (zeroKey.encrypt (openSslOver .zeroVector) (List.replicate 16 0) []).fst =
        .ok (List.replicate 12 0 ++ (Gcm.zeroStream ++ Gcm.zeroTag)) ∧
      RoundTrips .zeroVector (openSslOver .zeroVector) zeroKey (List.replicate 16 0) := by
  refine ⟨by decide, ?_⟩
  exact (roundTrips_iff (openSslOver_conforms .zeroVector) zeroKey (List.replicate 16 0)).mpr
    (by decide)

theorem large_plaintext_not_processed :
    (context (zeroKey.encrypt (openSslOver .zeroVector) (List.replicate (2 ^ 32) 97) []).snd).input =
        [] ∧
      ¬ RoundTrips .zeroVector (openSslOver .zeroVector) zeroKey (List.replicate (2 ^ 32) 97) := by
  have hlen : (toInt32 (List.replicate (2 ^ 32) (97 : UInt8)).length).toNat = 0 := by
    rw [List.length_replicate]
    decide
  have hinput : (context (zeroKey.encrypt (openSslOver .zeroVector)
      (List.replicate (2 ^ 32) 97) []).snd).input = [] := by
    have hcases := encrypt_input (openSslOver_conforms .zeroVector) zeroKey
      (List.replicate (2 ^ 32) 97) (context []) [] rfl
    rw [hlen, List.take_zero, or_self] at hcases
    exact hcases
  refine ⟨hinput, fun hround => ?_⟩
  have hlength := congrArg List.length (hinput.symm.trans (hround.processed []))
  rw [List.length_replicate] at hlength
  exact absurd hlength (by decide)

/-!
## The cipher of the key rotation service

The service knows the provider by its two functions alone.
-/

/-- The provider as the service sees it; `lib iv` is OpenSSL when `RAND_bytes` draws `iv`. -/
def cipherOf (lib : Bytes -> OpenSsl) : AesGcm where
  encrypt provider iv plaintext := (provider.encrypt (lib iv) plaintext []).fst
  decrypt provider ciphertext := (provider.decrypt (lib []) ciphertext []).fst

theorem cipherOf_inverts {gcm : Gcm} {lib : Bytes -> OpenSsl}
    (hlib : forall iv, Conforms gcm (lib iv)) {provider : AesGcmProvider}
    {iv plaintext ciphertext : Bytes} (hsize : plaintext.length < 2 ^ 31)
    (h : (cipherOf lib).encrypt provider iv plaintext = .ok ciphertext) :
    (cipherOf lib).decrypt provider ciphertext = .ok plaintext := by
  rcases encrypt_triple (hlib iv) provider hsize (context []) [] rfl with
    ⟨_, drawn, hdrawn, hresult⟩
  have hblob := hresult.symm.trans h
  injection hblob with hblob
  rw [← hblob]
  exact decrypt_triple (hlib []) provider hdrawn hsize (context []) [] rfl

end AesGcmProvider
end Security
end CppCommons
