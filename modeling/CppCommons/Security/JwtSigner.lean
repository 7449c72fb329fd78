import CppCommons.Security.Base64UrlCodec
import CppCommons.Security.JwtDecoder
import CppCommons.Security.Sha256

/-!
# JWT signer

`JwtSigner::sign` frames three base64url segments with dots and
`JwtSigner::verify` accepts a token when its third segment is the signature of
the first two.  The system clock is a reading in nanoseconds since the epoch.
-/

namespace CppCommons
namespace Security

open Cxx

structure JwtSigner where
  secret : Bytes

def constantTimeEqual (a b : Bytes) : Bool :=
  if a.length ≠ b.length then
    false
  else
    (a.zip b).foldl (fun (diff : UInt8) xy => diff ||| (xy.fst ^^^ xy.snd)) 0 == 0

/-- A library call whose `json::exception` is not caught. -/
def orJsonException {alpha : Type} : Except String alpha -> Except Thrown alpha
  | .ok a => .ok a
  | .error what => .error (.jsonException what)

/-- `duration_cast<seconds>` of a reading in nanoseconds truncates towards zero. -/
def clockSeconds (now : Int) : Int :=
  now.tdiv 1000000000

/-- The payload as signed: `"iat"` is added when absent. -/
def withIssuedAt (payload : Json) (now : Int) : Except String Json :=
  if payload.contains (ascii "iat") then
    .ok payload
  else
    payload.setMember (ascii "iat") (.integer (clockSeconds now))

/-- The header object `{"alg":"HS256","typ":"JWT"}`. -/
def jwtHeader : Json :=
  .object [(ascii "alg", .string (ascii "HS256")), (ascii "typ", .string (ascii "JWT"))]

namespace JwtSigner

def hmacSha256 (key msg : Bytes) : Bytes :=
  hmacSha256Impl key msg

def base64urlEncode (data : Bytes) : Bytes :=
  base64urlEncodeImpl data

/-- The signature segment belonging to a signing input. -/
def signature (signer : JwtSigner) (signingInput : Bytes) : Bytes :=
  base64urlEncode (hmacSha256 signer.secret signingInput)

def sign (json : JsonText) (signer : JwtSigner) (payload : Json) (now : Int) :
    Except Thrown Bytes := do
  let payload <- orJsonException (withIssuedAt payload now)
  let headerText <- orJsonException (json.dump jwtHeader)
  let payloadText <- orJsonException (json.dump payload)
  let signingInput := base64urlEncode headerText ++ dot :: base64urlEncode payloadText
  return signingInput ++ dot :: signer.signature signingInput

def verify (json : JsonText) (signer : JwtSigner) (token : Bytes) :
    Except Thrown JwtClaims := do
  let (_, secondDot) <- findDots token
  let signingInput <- orOutOfRange (Bytes.substr token 0 secondDot)
  let sigB64 <- orOutOfRange (Bytes.substrFrom token (secondDot + 1))
  if constantTimeEqual sigB64 (signer.signature signingInput) then
    decodeJwt json token
  else
    throw (.jwtError "JWT signature verification failed")

end JwtSigner

/-!
## Comparison and framing

The comparison decides equality, and a token with two dots is framed in one way.
-/

theorem foldl_or_xor_eq_zero_iff (pairs : List (UInt8 × UInt8)) (diff : UInt8) :
    pairs.foldl (fun (d : UInt8) xy => d ||| (xy.fst ^^^ xy.snd)) diff = 0 <->
      diff = 0 ∧ forall xy, xy ∈ pairs -> xy.fst = xy.snd := by
  induction pairs generalizing diff with
  | nil => simp
  | cons xy rest ih =>
      rw [List.foldl_cons, ih, UInt8.or_eq_zero_iff, UInt8.xor_eq_zero_iff,
        List.forall_mem_cons, and_assoc]

theorem forall_mem_zip_eq_iff {a b : Bytes} (hlen : a.length = b.length) :
    (forall xy, xy ∈ a.zip b -> xy.fst = xy.snd) <-> a = b := by
  induction a generalizing b with
  | nil =>
      rw [List.eq_nil_of_length_eq_zero hlen.symm]
      simp
  | cons x a ih =>
      cases b with
      | nil => cases hlen
      | cons y b =>
          rw [List.zip_cons_cons, List.forall_mem_cons, ih (Nat.succ_inj.mp hlen),
            List.cons_eq_cons]

theorem constantTimeEqual_iff (a b : Bytes) :
    constantTimeEqual a b = true <-> a = b := by
  unfold constantTimeEqual
  by_cases hlen : a.length = b.length
  · rw [if_neg (not_not_intro hlen), beq_iff_eq, foldl_or_xor_eq_zero_iff,
      forall_mem_zip_eq_iff hlen]
    exact and_iff_right rfl
  · rw [if_pos hlen]
    constructor
    · intro h
      cases h
    · intro h
      exact absurd (congrArg List.length h) hlen

namespace JwtSigner

theorem verify_of_segments (json : JsonText) (signer : JwtSigner) {h p : Bytes}
    (g : Bytes) (hh : dot ∉ h) (hp : dot ∉ p) :
    verify json signer (h ++ dot :: (p ++ dot :: g)) =
      if g = signer.signature (h ++ dot :: p) then
        decodeJwt json (h ++ dot :: (p ++ dot :: g))
      else
        .error (.jwtError "JWT signature verification failed") := by
  have hsplit : h ++ dot :: (p ++ dot :: g) = (h ++ dot :: p) ++ dot :: g := by
    simp
  have hlen : h.length + 1 + p.length = (h ++ dot :: p).length := by
    simp
    lia
  have hinput : Bytes.substr (h ++ dot :: (p ++ dot :: g)) 0
      (h.length + 1 + p.length) = some (h ++ dot :: p) := by
    rw [hsplit, hlen]
    exact Bytes.substr_prefix _ _
  have hsig : Bytes.substrFrom (h ++ dot :: (p ++ dot :: g))
      (h.length + 1 + p.length + 1) = some g := by
    have happ := Bytes.substrFrom_append ((h ++ dot :: p) ++ [dot]) g
    rw [List.length_append, List.length_singleton, ← hlen, List.append_assoc] at happ
    rw [hsplit]
    exact happ
  unfold verify
  rw [findDots_of_segments g hh hp]
  simp only [bind, Except.bind, hinput, hsig, orOutOfRange, constantTimeEqual_iff]
  rfl

/-!
## Accepted tokens

`h.p.g` with dot-free `h` and `p`, the signature of `h.p` as `g`, and JSON in both
segments.
-/

def Accepts (json : JsonText) (signer : JwtSigner) (token : Bytes) (claims : JwtClaims) :
    Prop :=
  exists h p g : Bytes, token = h ++ dot :: (p ++ dot :: g) ∧ dot ∉ h ∧ dot ∉ p ∧
    g = base64urlEncode (hmacSha256 signer.secret (h ++ dot :: p)) ∧
    json.parse (base64urlDecode h) = .ok claims.header ∧
    json.parse (base64urlDecode p) = .ok claims.payload

theorem verify_of_accepts {json : JsonText} {signer : JwtSigner} {token : Bytes}
    {claims : JwtClaims} (h : Accepts json signer token claims) :
    verify json signer token = .ok claims := by
  rcases h with ⟨h, p, g, htoken, hh, hp, hg, hheader, hpayload⟩
  have hsig : g = signer.signature (h ++ dot :: p) := hg
  rw [htoken, verify_of_segments json signer g hh hp, if_pos hsig,
    decodeJwt_of_segments json g hh hp, (parseSegment_eq_ok_iff json h _).mpr hheader,
    (parseSegment_eq_ok_iff json p _).mpr hpayload]
  rfl

/-- Verification either accepts with the claims of the signed segments or
throws `JwtError`. -/
theorem verify_outcome (json : JsonText) (signer : JwtSigner) (token : Bytes) :
    (exists claims, verify json signer token = .ok claims ∧
      Accepts json signer token claims) ∨
    exists message, verify json signer token = .error (.jwtError message) := by
  rcases token_cases token with hnone | hone | htwo
  · apply Or.inr
    unfold verify
    rw [findDots_of_no_dot hnone]
    exact ⟨_, rfl⟩
  · apply Or.inr
    rcases hone with ⟨h, r, htoken, hh, hr⟩
    unfold verify
    rw [htoken, findDots_of_one_dot hh hr]
    exact ⟨_, rfl⟩
  · rcases htwo with ⟨h, p, g, htoken, hh, hp⟩
    by_cases hg : g = signer.signature (h ++ dot :: p)
    · have hverify : verify json signer token =
          decodeJwt json (h ++ dot :: (p ++ dot :: g)) := by
        rw [htoken, verify_of_segments json signer g hh hp, if_pos hg]
      rw [decodeJwt_of_segments json g hh hp] at hverify
      cases hheader : parseSegment json h with
      | error e =>
          rcases parseSegment_error json hheader with ⟨message, he⟩
          rw [hheader, he] at hverify
          exact Or.inr ⟨message, hverify⟩
      | ok header =>
          cases hpayload : parseSegment json p with
          | error e =>
              rcases parseSegment_error json hpayload with ⟨message, he⟩
              rw [hheader, hpayload, he] at hverify
              exact Or.inr ⟨message, hverify⟩
          | ok payload =>
              rw [hheader, hpayload] at hverify
              exact Or.inl ⟨{ header := header, payload := payload }, hverify,
                h, p, g, htoken, hh, hp, hg,
                (parseSegment_eq_ok_iff json h header).mp hheader,
                (parseSegment_eq_ok_iff json p payload).mp hpayload⟩
    · apply Or.inr
      rw [htoken, verify_of_segments json signer g hh hp, if_neg hg]
      exact ⟨_, rfl⟩

theorem accepts_of_verify {json : JsonText} {signer : JwtSigner} {token : Bytes}
    {claims : JwtClaims} (hok : verify json signer token = .ok claims) :
    Accepts json signer token claims := by
  rcases verify_outcome json signer token with ⟨found, hfound, haccepts⟩ | ⟨message, herr⟩
  · rw [hok] at hfound
    cases hfound
    exact haccepts
  · rw [hok] at herr
    cases herr

theorem verify_throws_of_not_accepts {json : JsonText} {signer : JwtSigner} {token : Bytes}
    (h : forall claims, ¬ Accepts json signer token claims) :
    exists message, verify json signer token = .error (.jwtError message) := by
  rcases verify_outcome json signer token with ⟨claims, _hok, haccepts⟩ | herr
  · exact absurd haccepts (h claims)
  · exact herr

theorem count_dot_of_accepts {json : JsonText} {signer : JwtSigner} {token : Bytes}
    {claims : JwtClaims} (h : Accepts json signer token claims) :
    token.count dot = 2 := by
  rcases h with ⟨h, p, g, htoken, hh, hp, hg, _hheader, _hpayload⟩
  have hgdot : dot ∉ g := by
    rw [hg]
    exact dot_not_mem_base64urlEncodeImpl _
  rw [htoken]
  simp [List.count_append, List.count_eq_zero_of_not_mem hh,
    List.count_eq_zero_of_not_mem hp, List.count_eq_zero_of_not_mem hgdot]

theorem segments_inj {h p g h2 p2 g2 : Bytes}
    (hh : dot ∉ h) (hp : dot ∉ p) (hh2 : dot ∉ h2) (hp2 : dot ∉ p2)
    (heq : h ++ dot :: (p ++ dot :: g) = h2 ++ dot :: (p2 ++ dot :: g2)) :
    h = h2 ∧ p = p2 ∧ g = g2 := by
  have hdots := findDots_of_segments g hh hp
  rw [heq, findDots_of_segments g2 hh2 hp2] at hdots
  injection hdots with hpair
  have hlen : h.length = h2.length := (congrArg Prod.fst hpair).symm
  have hlen2 : h.length + 1 + p.length = h2.length + 1 + p2.length :=
    (congrArg Prod.snd hpair).symm
  have hfirst := List.append_inj heq hlen
  injection hfirst.right with _ htail
  have hsecond := List.append_inj htail (by lia)
  injection hsecond.right with _ hg
  exact ⟨hfirst.left, hsecond.left, hg⟩

/--
Verification accepts exactly the tokens `h.p.g` whose last segment is the
signature of `h.p` and whose first two decode to JSON, and returns what these
two parse to.  Every other token is answered by a `JwtError`; no second
signature segment is accepted for a signing input, and no token with a third dot.
-/
theorem verify_accepts_iff_signed (json : JsonText) (signer : JwtSigner) (token : Bytes) :
    (forall claims, verify json signer token = .ok claims <->
      exists h p g : Bytes, token = h ++ dot :: (p ++ dot :: g) ∧ dot ∉ h ∧ dot ∉ p ∧
        g = base64urlEncode (hmacSha256 signer.secret (h ++ dot :: p)) ∧
        json.parse (base64urlDecode h) = .ok claims.header ∧
        json.parse (base64urlDecode p) = .ok claims.payload) ∧
    ((forall claims, verify json signer token ≠ .ok claims) ->
      exists message, verify json signer token = .error (.jwtError message)) ∧
    (forall h p g claims, dot ∉ h -> dot ∉ p -> token = h ++ dot :: (p ++ dot :: g) ->
      verify json signer token = .ok claims ->
        g = base64urlEncode (hmacSha256 signer.secret (h ++ dot :: p))) ∧
    (3 <= token.count dot ->
      exists message, verify json signer token = .error (.jwtError message)) := by
  refine ⟨fun claims => ⟨accepts_of_verify, verify_of_accepts⟩, ?_, ?_, ?_⟩
  · intro hnot
    exact verify_throws_of_not_accepts
      (fun claims haccepts => hnot claims (verify_of_accepts haccepts))
  · intro h p g claims hh hp htoken hok
    rcases accepts_of_verify hok with ⟨h2, p2, g2, htoken2, hh2, hp2, hg2, _, _⟩
    rcases segments_inj hh hp hh2 hp2 (htoken.symm.trans htoken2) with ⟨heq, heqp, heqg⟩
    rw [heq, heqp, heqg]
    exact hg2
  · intro hdots
    apply verify_throws_of_not_accepts
    intro claims haccepts
    have htwo := count_dot_of_accepts haccepts
    lia

/-!
## Signing and verifying again

A freshly signed token is accepted, and gives the payload back with the time of
issue if it had none.
-/

/-- The library writes `j` as a text that it parses back to `j`. -/
def RoundTrips (json : JsonText) (j : Json) : Prop :=
  exists text, json.dump j = .ok text ∧ json.parse text = .ok j

def stampedMembers (members : List (Bytes × Json)) (now : Int) : List (Bytes × Json) :=
  if Json.contains (.object members) (ascii "iat") then
    members
  else
    Json.insertMember (ascii "iat") (.integer (clockSeconds now)) members

theorem withIssuedAt_object (members : List (Bytes × Json)) (now : Int) :
    withIssuedAt (.object members) now = .ok (.object (stampedMembers members now)) := by
  unfold withIssuedAt stampedMembers
  by_cases hiat : Json.contains (.object members) (ascii "iat") = true
  · rw [if_pos hiat, if_pos hiat]
  · rw [if_neg hiat, if_neg hiat]
    rfl

theorem sign_object {json : JsonText} (signer : JwtSigner)
    {members : List (Bytes × Json)} {now : Int} {headerText payloadText : Bytes}
    (hheader : json.dump jwtHeader = .ok headerText)
    (hpayload : json.dump (.object (stampedMembers members now)) = .ok payloadText) :
    sign json signer (.object members) now =
      .ok (base64urlEncode headerText ++ dot :: (base64urlEncode payloadText ++ dot ::
        signer.signature (base64urlEncode headerText ++ dot :: base64urlEncode payloadText))) := by
  unfold sign
  rw [withIssuedAt_object, hheader]
  simp only [bind, Except.bind, orJsonException, hpayload, pure, Except.pure,
    List.append_assoc, List.cons_append]

/--
Verifying a freshly signed token returns the fixed header and the payload,
extended by the member `iat` exactly when it was missing.
-/
theorem verify_sign (json : JsonText) (signer : JwtSigner)
    (members : List (Bytes × Json)) (now : Int)
    (hheader : RoundTrips json jwtHeader)
    (hpayload : RoundTrips json (.object (stampedMembers members now))) :
    exists token, sign json signer (.object members) now = .ok token ∧
      verify json signer token =
        .ok { header := jwtHeader, payload := .object (stampedMembers members now) } ∧
      token.count dot = 2 ∧
      (Json.contains (.object members) (ascii "iat") = true ->
        stampedMembers members now = members) ∧
      (Json.contains (.object members) (ascii "iat") = false ->
        (stampedMembers members now).Perm
          ((ascii "iat", .integer (clockSeconds now)) :: members)) := by
  rcases hheader with ⟨headerText, hdumpHeader, hparseHeader⟩
  rcases hpayload with ⟨payloadText, hdumpPayload, hparsePayload⟩
  have haccepts : Accepts json signer
      (base64urlEncode headerText ++ dot :: (base64urlEncode payloadText ++ dot ::
        signer.signature (base64urlEncode headerText ++ dot :: base64urlEncode payloadText)))
      { header := jwtHeader, payload := .object (stampedMembers members now) } := by
    refine ⟨_, _, _, rfl, dot_not_mem_base64urlEncodeImpl _,
      dot_not_mem_base64urlEncodeImpl _, rfl, ?_, ?_⟩
    · unfold base64urlEncode
      rw [base64urlDecode_base64urlEncodeImpl]
      exact hparseHeader
    · unfold base64urlEncode
      rw [base64urlDecode_base64urlEncodeImpl]
      exact hparsePayload
  refine ⟨_, sign_object signer hdumpHeader hdumpPayload, verify_of_accepts haccepts,
    count_dot_of_accepts haccepts, ?_, ?_⟩
  · intro hiat
    exact if_pos hiat
  · intro hiat
    have hstamped : stampedMembers members now =
        Json.insertMember (ascii "iat") (.integer (clockSeconds now)) members :=
      if_neg (by rw [hiat]; decide)
    rw [hstamped]
    exact Json.insertMember_perm _ hiat

def aliceText : JsonText where
  parse text :=
    if text = ascii "\x7b\"alg\":\"HS256\",\"typ\":\"JWT\"\x7d" then
      .ok jwtHeader
    else if text = ascii "\x7b\"iat\":1700000000,\"sub\":\"alice\"\x7d" then
      .ok (.object [(ascii "iat", .integer 1700000000), (ascii "sub", .string (ascii "alice"))])
    else
      .error "[json.exception.parse_error.101] parse error"
  dump
    | .object [(k1, .string s1), (k2, .string s2)] =>
        .ok (ascii "\x7b\"" ++ k1 ++ ascii "\":\"" ++ s1 ++ ascii "\",\"" ++ k2 ++
          ascii "\":\"" ++ s2 ++ ascii "\"\x7d")
    | .object [(k1, .integer n), (k2, .string s2)] =>
        .ok (ascii "\x7b\"" ++ k1 ++ ascii "\":" ++ ascii (toString n) ++ ascii ",\"" ++ k2 ++
          ascii "\":\"" ++ s2 ++ ascii "\"\x7d")
    | _ => .error "[json.exception.other_error] unsupported value"

theorem verify_sign_alice :
    exists token,
      sign aliceText { secret := [] } (.object [(ascii "sub", .string (ascii "alice"))])
          1700000000000000000 = .ok token ∧
        verify aliceText { secret := [] } token =
          .ok { header := jwtHeader,
                payload := .object [(ascii "iat", .integer 1700000000),
                  (ascii "sub", .string (ascii "alice"))] } ∧
        token.count dot = 2 := by
  have hstamped : stampedMembers [(ascii "sub", .string (ascii "alice"))]
      1700000000000000000 =
        [(ascii "iat", .integer 1700000000), (ascii "sub", .string (ascii "alice"))] := by
    rfl
  have hheader : RoundTrips aliceText jwtHeader :=
    ⟨ascii "\x7b\"alg\":\"HS256\",\"typ\":\"JWT\"\x7d", by rfl, by rfl⟩
  have hpayload : RoundTrips aliceText (.object (stampedMembers
      [(ascii "sub", .string (ascii "alice"))] 1700000000000000000)) :=
    ⟨ascii "\x7b\"iat\":1700000000,\"sub\":\"alice\"\x7d", by rfl, by rfl⟩
  rcases verify_sign aliceText { secret := [] } [(ascii "sub", .string (ascii "alice"))]
    1700000000000000000 hheader hpayload with ⟨token, hsign, hverify, hdots, _, _⟩
  rw [hstamped] at hverify
  exact ⟨token, hsign, hverify, hdots⟩

end JwtSigner
end Security
end CppCommons
