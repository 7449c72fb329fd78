import CppCommons.Cxx.Format
import CppCommons.Web.MiddlewareChain

/-!
# CORS middleware

`cors_middleware` answers a preflight request itself and adds its headers to the
response of every other request.  The origin it allows is `*` when that is the
only origin in its options, and else the origin of the request, if listed.
-/

namespace CppCommons
namespace Web

open Cxx
open MiddlewareChain

structure CorsOptions where
  allowedOrigins : List Bytes := [ascii "*"]
  allowedMethods : Bytes := ascii "GET, POST, PUT, DELETE, OPTIONS"
  allowedHeaders : Bytes := ascii "Content-Type, Authorization"
  allowCredentials : Bool := false
  maxAgeSeconds : Int := 3600

def allowOriginHeader : Bytes := ascii "Access-Control-Allow-Origin"

def allowCredentialsHeader : Bytes := ascii "Access-Control-Allow-Credentials"

namespace CorsOptions

def requestOrigin (req : HttpRequest) : Bytes :=
  (req.header (ascii "Origin")).getD []

/-- The variable `allow_origin`; empty if the origin is not allowed. -/
def allowOrigin (opts : CorsOptions) (req : HttpRequest) : Bytes :=
  if opts.allowedOrigins = [ascii "*"] then ascii "*"
  else if opts.allowedOrigins.any (fun o => o == requestOrigin req) then requestOrigin req
  else []

def allowingCredentials (opts : CorsOptions) (headers : StringMap Bytes) : StringMap Bytes :=
  if opts.allowCredentials then headers.insert allowCredentialsHeader (ascii "true") else headers

def preflight (opts : CorsOptions) (req : HttpRequest) : HttpResponse :=
  let resp : HttpResponse := { statusCode := 204, headers := ∅, body := [] }
  let origin := opts.allowOrigin req
  if origin.isEmpty then resp
  else
    let headers := resp.headers.insert allowOriginHeader origin
    let headers := headers.insert (ascii "Access-Control-Allow-Methods") opts.allowedMethods
    let headers := headers.insert (ascii "Access-Control-Allow-Headers") opts.allowedHeaders
    let headers := headers.insert (ascii "Access-Control-Max-Age") (decimal opts.maxAgeSeconds)
    { resp with headers := opts.allowingCredentials headers }

def decorate (opts : CorsOptions) (req : HttpRequest) (resp : HttpResponse) : HttpResponse :=
  let origin := opts.allowOrigin req
  if origin.isEmpty then resp
  else
    { resp with
      headers := opts.allowingCredentials (resp.headers.insert allowOriginHeader origin) }

end CorsOptions

variable {world exn : Type}

def corsMiddleware (opts : CorsOptions) : Middleware world exn :=
  fun w req =>
    if req.method = .options then .done w (.ok (opts.preflight req))
    else .call w req (fun w' outcome => .done w' (outcome.map (opts.decorate req)))

/-!
## Origins

The loop over the listed origins finds the origin of the request exactly if it is
listed.
-/

namespace CorsOptions

/-- The options allow the origin to the sender of the request. -/
def Allows (opts : CorsOptions) (req : HttpRequest) (origin : Bytes) : Prop :=
  (opts.allowedOrigins = [ascii "*"] ∧ origin = ascii "*") ∨
    (opts.allowedOrigins ≠ [ascii "*"] ∧ origin ∈ opts.allowedOrigins ∧
      req.header (ascii "Origin") = some origin ∧ origin ≠ [])

theorem Allows.ne_nil {opts : CorsOptions} {req : HttpRequest} {origin : Bytes}
    (h : opts.Allows req origin) : origin ≠ [] := by
  rcases h with ⟨_, rfl⟩ | ⟨_, _, _, hne⟩
  · decide
  · exact hne

theorem any_eq_requestOrigin_iff (opts : CorsOptions) (req : HttpRequest) :
    opts.allowedOrigins.any (fun o => o == requestOrigin req) = true <->
      requestOrigin req ∈ opts.allowedOrigins := by
  simp [List.any_eq_true]

theorem allowOrigin_eq_iff (opts : CorsOptions) (req : HttpRequest) {origin : Bytes}
    (hne : origin ≠ []) : opts.allowOrigin req = origin <-> opts.Allows req origin := by
  unfold allowOrigin Allows
  by_cases hwild : opts.allowedOrigins = [ascii "*"]
  · simp [hwild, eq_comm]
  · have horigin : requestOrigin req = origin <-> req.header (ascii "Origin") = some origin := by
      unfold requestOrigin
      cases req.header (ascii "Origin") with
      | none => simpa using Ne.symm hne
      | some value => simp
    rw [if_neg hwild]
    by_cases hlisted : requestOrigin req ∈ opts.allowedOrigins
    · rw [if_pos ((any_eq_requestOrigin_iff opts req).mpr hlisted), horigin]
      constructor
      · intro hheader
        refine Or.inr ⟨hwild, ?_, hheader, hne⟩
        rw [← horigin.mpr hheader]
        exact hlisted
      · rintro (⟨hwild', _⟩ | ⟨_, _, hheader, _⟩)
        · exact absurd hwild' hwild
        · exact hheader
    · rw [if_neg (fun hany => hlisted ((any_eq_requestOrigin_iff opts req).mp hany))]
      constructor
      · intro hnil
        exact absurd hnil.symm hne
      · rintro (⟨hwild', _⟩ | ⟨_, hmem, hheader, _⟩)
        · exact absurd hwild' hwild
        · rw [← horigin.mpr hheader] at hmem
          exact absurd hmem hlisted

/-!
## The headers of the answer

Which headers the middleware sets, and which it leaves to the response.
-/

theorem lookup_allowingCredentials (opts : CorsOptions) (headers : StringMap Bytes) {name : Bytes}
    (hname : name ≠ allowCredentialsHeader) :
    (opts.allowingCredentials headers).lookup name = headers.lookup name := by
  unfold allowingCredentials
  split
  · exact Finmap.lookup_insert_of_ne _ hname
  · rfl

def namedOrigin (opts : CorsOptions) (req : HttpRequest) : Option Bytes :=
  if opts.allowOrigin req = [] then none else some (opts.allowOrigin req)

theorem namedOrigin_eq_some_iff (opts : CorsOptions) (req : HttpRequest) (origin : Bytes) :
    opts.namedOrigin req = some origin <-> opts.Allows req origin := by
  unfold namedOrigin
  constructor
  · intro hnamed
    split at hnamed
    · cases hnamed
    · next hsome =>
        rw [Option.some.injEq] at hnamed
        rw [hnamed] at hsome
        exact (allowOrigin_eq_iff opts req hsome).mp hnamed
  · intro hallows
    have horigin := (allowOrigin_eq_iff opts req hallows.ne_nil).mpr hallows
    rw [horigin, if_neg hallows.ne_nil]

theorem lookup_allowOrigin_preflight (opts : CorsOptions) (req : HttpRequest) :
    (opts.preflight req).headers.lookup allowOriginHeader = opts.namedOrigin req := by
  unfold preflight namedOrigin
  simp only [List.isEmpty_iff]
  split
  · exact Finmap.lookup_empty _
  · rw [lookup_allowingCredentials opts _ (by decide), Finmap.lookup_insert_of_ne _ (by decide),
      Finmap.lookup_insert_of_ne _ (by decide), Finmap.lookup_insert_of_ne _ (by decide),
      Finmap.lookup_insert]

theorem lookup_allowOrigin_decorate (opts : CorsOptions) (req : HttpRequest)
    (resp : HttpResponse) :
    (opts.decorate req resp).headers.lookup allowOriginHeader =
      (opts.namedOrigin req).or (resp.headers.lookup allowOriginHeader) := by
  unfold decorate namedOrigin
  simp only [List.isEmpty_iff]
  split
  · rfl
  · rw [lookup_allowingCredentials opts _ (by decide), Finmap.lookup_insert, Option.some_or]

theorem lookup_decorate (opts : CorsOptions) (req : HttpRequest) (resp : HttpResponse)
    {name : Bytes} (horigin : name ≠ allowOriginHeader)
    (hcredentials : name ≠ allowCredentialsHeader) :
    (opts.decorate req resp).headers.lookup name = resp.headers.lookup name := by
  unfold decorate
  simp only [List.isEmpty_iff]
  split
  · rfl
  · rw [lookup_allowingCredentials opts _ hcredentials, Finmap.lookup_insert_of_ne _ horigin]

end CorsOptions

end Web
end CppCommons
