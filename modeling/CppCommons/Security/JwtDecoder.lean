import CppCommons.Cxx.Json
import CppCommons.Security.Base64Url

/-!
# JWT decoder

`decode_jwt` splits a token at its first two dots and parses the decoded header
and payload segments.
-/

namespace CppCommons
namespace Security

open Cxx

/-- Exceptions the JWT functions let escape. -/
inductive Thrown where
  | jwtError (message : String)
  | jsonException (what : String)
  | outOfRange
deriving DecidableEq, Repr

structure JwtClaims where
  header : Json
  payload : Json

/-- A `substr` call, whose range check throws `std::out_of_range`. -/
def orOutOfRange : Option Bytes -> Except Thrown Bytes
  | some s => .ok s
  | none => .error .outOfRange

def findDots (token : Bytes) : Except Thrown (Nat × Nat) :=
  match Bytes.find token dot 0 with
  | none => .error (.jwtError "malformed JWT: missing first dot")
  | some firstDot =>
      match Bytes.find token dot (firstDot + 1) with
      | none => .error (.jwtError "malformed JWT: missing second dot")
      | some secondDot => .ok (firstDot, secondDot)

/-- One `json::parse(base64url_decode(..))` under the handler that rethrows as `JwtError`. -/
def parseSegment (json : JsonText) (segment : Bytes) : Except Thrown Json :=
  match json.parse (base64urlDecode segment) with
  | .ok j => .ok j
  | .error what => .error (.jwtError ("malformed JWT JSON: " ++ what))

def decodeJwt (json : JsonText) (token : Bytes) : Except Thrown JwtClaims := do
  let (firstDot, secondDot) <- findDots token
  let headerB64 <- orOutOfRange (Bytes.substr token 0 firstDot)
  let payloadB64 <-
    orOutOfRange (Bytes.substr token (firstDot + 1) (secondDot - firstDot - 1))
  let header <- parseSegment json headerB64
  let payload <- parseSegment json payloadB64
  return { header := header, payload := payload }

/-!
## Token shapes

Every token has no dot, one dot, or two leading dot-free segments.
-/

theorem token_cases (token : Bytes) :
    dot ∉ token ∨
      (exists h r, token = h ++ dot :: r ∧ dot ∉ h ∧ dot ∉ r) ∨
      (exists h p g, token = h ++ dot :: (p ++ dot :: g) ∧ dot ∉ h ∧ dot ∉ p) := by
  by_cases hfirst : dot ∈ token
  · rcases List.eq_append_cons_of_mem hfirst with ⟨h, r, htoken, hh⟩
    by_cases hsecond : dot ∈ r
    · rcases List.eq_append_cons_of_mem hsecond with ⟨p, g, hr, hp⟩
      exact Or.inr (Or.inr ⟨h, p, g, by rw [htoken, hr], hh, hp⟩)
    · exact Or.inr (Or.inl ⟨h, r, htoken, hh, hsecond⟩)
  · exact Or.inl hfirst

theorem find_first_dot {h : Bytes} (r : Bytes) (hh : dot ∉ h) :
    Bytes.find (h ++ dot :: r) dot 0 = some h.length := by
  simpa using Bytes.find_append_cons [] r hh

theorem findDots_of_no_dot {token : Bytes} (h : dot ∉ token) :
    findDots token = .error (.jwtError "malformed JWT: missing first dot") := by
  have hnone : Bytes.find token dot 0 = none :=
    (Bytes.find_eq_none_iff token dot 0).mpr h
  unfold findDots
  rw [hnone]

theorem findDots_of_one_dot {h r : Bytes} (hh : dot ∉ h) (hr : dot ∉ r) :
    findDots (h ++ dot :: r) = .error (.jwtError "malformed JWT: missing second dot") := by
  have hnone : Bytes.find (h ++ dot :: r) dot (h.length + 1) = none := by
    rw [Bytes.find_eq_none_iff]
    simpa using hr
  unfold findDots
  rw [find_first_dot r hh]
  simp only
  rw [hnone]

theorem findDots_of_segments {h p : Bytes} (g : Bytes) (hh : dot ∉ h) (hp : dot ∉ p) :
    findDots (h ++ dot :: (p ++ dot :: g)) =
      .ok (h.length, h.length + 1 + p.length) := by
  have hsecond : Bytes.find (h ++ dot :: (p ++ dot :: g)) dot (h.length + 1) =
      some (h.length + 1 + p.length) := by
    have hfind := Bytes.find_append_cons (h ++ [dot]) g hp
    rw [List.length_append, List.length_singleton, List.append_assoc] at hfind
    exact hfind
  unfold findDots
  rw [find_first_dot _ hh]
  simp only
  rw [hsecond]

theorem decodeJwt_of_segments (json : JsonText) {h p : Bytes} (g : Bytes)
    (hh : dot ∉ h) (hp : dot ∉ p) :
    decodeJwt json (h ++ dot :: (p ++ dot :: g)) = do
      let header <- parseSegment json h
      let payload <- parseSegment json p
      return { header := header, payload := payload } := by
  have hheader : Bytes.substr (h ++ dot :: (p ++ dot :: g)) 0 h.length = some h :=
    Bytes.substr_prefix h _
  have hpayload : Bytes.substr (h ++ dot :: (p ++ dot :: g)) (h.length + 1)
      (h.length + 1 + p.length - h.length - 1) = some p := by
    have hmiddle := Bytes.substr_middle (h ++ [dot]) p (dot :: g)
    rw [List.length_append, List.length_singleton, List.append_assoc] at hmiddle
    rw [show h.length + 1 + p.length - h.length - 1 = p.length by lia]
    exact hmiddle
  unfold decodeJwt
  rw [findDots_of_segments g hh hp]
  simp only [bind, Except.bind, hheader, hpayload, orOutOfRange]

theorem parseSegment_eq_ok_iff (json : JsonText) (segment : Bytes) (j : Json) :
    parseSegment json segment = .ok j <-> json.parse (base64urlDecode segment) = .ok j := by
  unfold parseSegment
  cases json.parse (base64urlDecode segment) with
  | ok value => simp
  | error what => simp

theorem parseSegment_error (json : JsonText) {segment : Bytes} {e : Thrown}
    (h : parseSegment json segment = .error e) : exists message, e = .jwtError message := by
  unfold parseSegment at h
  cases hparse : json.parse (base64urlDecode segment) with
  | ok value =>
      rw [hparse] at h
      cases h
  | error what =>
      rw [hparse] at h
      injection h with he
      exact ⟨_, he.symm⟩

end Security
end CppCommons
