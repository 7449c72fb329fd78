import CppCommons.Security.Base64UrlCodec
import CppCommons.Security.JwtDecoder

/-!
# Segments of a token

The decoder skips every character that is not of base64 and drops the bits of an
incomplete last octet.  So a segment is read by what its base64 characters
spell, whatever stands between and behind them.
-/

namespace CppCommons
namespace Security

open Foundation.BitString
open Cxx

def base64Characters : Bytes := alpha ++ ascii "+/"

structure CleanSegment (segment : Bytes) : Prop where
  characters : forall c, c ∈ segment -> c ∈ base64Characters
  whole : segment.length % 4 ≠ 1

/-- The first two dots of the token end `h` and `p`. -/
structure Segments (token h p g : Bytes) : Prop where
  text : token = h ++ dot :: (p ++ dot :: g)
  header : dot ∉ h
  payload : dot ∉ p

/-- The base64 characters of the segment spell `data` and less than an octet more. -/
def Carries (segment data : Bytes) : Prop :=
  exists rest : List Bool, rest.length < 8 ∧
    spell 8 (data.map UInt8.toNat) ++ rest = spell 6 (sextets segment)

def CarriesJson (json : JsonText) (segment : Bytes) : Prop :=
  exists data j, Carries segment data ∧ json.parse data = .ok j

/-- Accepted tokens have clean segments, and the others are rejected with `JwtError`. -/
structure AcceptsOnlyClean (json : JsonText) (token : Bytes) : Prop where
  accepted : forall claims, decodeJwt json token = .ok claims ->
    exists h p g, Segments token h p g ∧ CleanSegment h ∧ CleanSegment p
  rejected : forall h p g, Segments token h p g -> ¬ (CleanSegment h ∧ CleanSegment p) ->
    exists message, decodeJwt json token = .error (.jwtError message)

theorem carries_iff (segment data : Bytes) :
    Carries segment data <-> base64urlDecode segment = data := by
  rcases base64urlDecode_spells segment with ⟨rest, hrest, hspell⟩
  constructor
  · rintro ⟨rest', hrest', hspell'⟩
    have hsame := spell_append_inj (fun _ => toNat_lt_of_mem_map) (fun _ => toNat_lt_of_mem_map)
      hrest hrest' (hspell.trans hspell'.symm)
    exact map_toNat_inj hsame.left
  · intro hdata
    rw [← hdata]
    exact ⟨rest, hrest, hspell⟩

theorem carriesJson_iff (json : JsonText) (segment : Bytes) :
    CarriesJson json segment <-> exists j, parseSegment json segment = .ok j := by
  simp only [CarriesJson, carries_iff, parseSegment_eq_ok_iff]
  constructor
  · rintro ⟨data, j, hdata, hparse⟩
    exact ⟨j, hdata ▸ hparse⟩
  · rintro ⟨j, hparse⟩
    exact ⟨_, j, rfl, hparse⟩

/-- A token with two dots is accepted when both segments carry JSON, and rejected otherwise. -/
theorem decodeJwt_cases (json : JsonText) {token h p g : Bytes} (hs : Segments token h p g) :
    (CarriesJson json h ∧ CarriesJson json p ∧ exists claims, decodeJwt json token = .ok claims) ∨
      (¬ (CarriesJson json h ∧ CarriesJson json p) ∧
        exists message, decodeJwt json token = .error (.jwtError message)) := by
  rw [carriesJson_iff, carriesJson_iff, hs.text, decodeJwt_of_segments json g hs.header hs.payload]
  cases hheader : parseSegment json h with
  | error e =>
      rcases parseSegment_error json hheader with ⟨message, he⟩
      exact Or.inr ⟨by simp, message, by rw [he]; rfl⟩
  | ok header =>
      cases hpayload : parseSegment json p with
      | error e =>
          rcases parseSegment_error json hpayload with ⟨message, he⟩
          exact Or.inr ⟨by simp, message, by rw [he]; rfl⟩
      | ok payload => exact Or.inl ⟨⟨header, rfl⟩, ⟨payload, rfl⟩, _, rfl⟩

theorem not_acceptsOnlyClean {json : JsonText} {token h p g : Bytes} {claims : JwtClaims}
    (hok : decodeJwt json token = .ok claims) (hs : Segments token h p g)
    (hunclean : ¬ (CleanSegment h ∧ CleanSegment p)) : ¬ AcceptsOnlyClean json token := by
  intro hclean
  rcases hclean.rejected h p g hs hunclean with ⟨message, herror⟩
  rw [hok] at herror
  cases herror

theorem segments_of_decodeJwt {json : JsonText} {token : Bytes} {claims : JwtClaims}
    (h : decodeJwt json token = .ok claims) : exists h p g, Segments token h p g := by
  rcases token_cases token with hnone | ⟨h1, r, htoken, hh, hr⟩ | ⟨h1, p, g, htoken, hh, hp⟩
  · rw [decodeJwt, findDots_of_no_dot hnone] at h
    cases h
  · rw [decodeJwt, htoken, findDots_of_one_dot hh hr] at h
    cases h
  · exact ⟨h1, p, g, htoken, hh, hp⟩

/--
The decoder accepts clean tokens only, unless the base64 characters of an
unclean token carry JSON in both of its segments.
-/
theorem acceptsOnlyClean_iff (json : JsonText) (token : Bytes) :
    AcceptsOnlyClean json token <->
      forall h p g, Segments token h p g ->
        (CleanSegment h ∧ CleanSegment p) ∨ ¬ (CarriesJson json h ∧ CarriesJson json p) := by
  constructor
  · intro hclean h p g hs
    rcases decodeJwt_cases json hs with ⟨_hh, _hp, claims, hok⟩ | ⟨hcarry, _herror⟩
    · exact Or.inl (by_contra fun hunclean => not_acceptsOnlyClean hok hs hunclean hclean)
    · exact Or.inr hcarry
  · intro hcond
    constructor
    · intro claims hok
      rcases segments_of_decodeJwt hok with ⟨h, p, g, hs⟩
      refine ⟨h, p, g, hs, ?_⟩
      rcases decodeJwt_cases json hs with ⟨hh, hp, _⟩ | ⟨_hcarry, message, herror⟩
      · exact (hcond h p g hs).resolve_right (fun hnot => hnot ⟨hh, hp⟩)
      · rw [hok] at herror
        cases herror
    · intro h p g hs hunclean
      rcases decodeJwt_cases json hs with ⟨hh, hp, _⟩ | ⟨_hcarry, herror⟩
      · exact absurd ⟨hh, hp⟩ ((hcond h p g hs).resolve_left hunclean)
      · exact herror

def emptyObjectText : JsonText where
  parse text :=
    if text = ascii "\x7b\x7d" ∨ text = ascii "\x7b \x7d" then .ok (.object [])
    else .error "[json.exception.parse_error.101] parse error"
  dump _ := .ok (ascii "\x7b\x7d")

theorem unclean_tokens_accepted :
    decodeJwt emptyObjectText (ascii "e!30.e30.sig") =
        .ok { header := .object [], payload := .object [] } ∧
      decodeJwt emptyObjectText (ascii "eyB9A.e30.sig") =
        .ok { header := .object [], payload := .object [] } ∧
      ¬ AcceptsOnlyClean emptyObjectText (ascii "e!30.e30.sig") ∧
      ¬ AcceptsOnlyClean emptyObjectText (ascii "eyB9A.e30.sig") := by
  have hbang : decodeJwt emptyObjectText (ascii "e!30.e30.sig") =
      .ok { header := .object [], payload := .object [] } := by rfl
  have hfive : decodeJwt emptyObjectText (ascii "eyB9A.e30.sig") =
      .ok { header := .object [], payload := .object [] } := by rfl
  refine ⟨hbang, hfive, ?_, ?_⟩
  · have hs : Segments (ascii "e!30.e30.sig") (ascii "e!30") (ascii "e30") (ascii "sig") :=
      ⟨by decide, by decide, by decide⟩
    exact not_acceptsOnlyClean hbang hs
      (fun h => absurd (h.left.characters 33 (by decide)) (by decide))
  · have hs : Segments (ascii "eyB9A.e30.sig") (ascii "eyB9A") (ascii "e30") (ascii "sig") :=
      ⟨by decide, by decide, by decide⟩
    exact not_acceptsOnlyClean hfive hs (fun h => h.left.whole (by decide))

end Security
end CppCommons
