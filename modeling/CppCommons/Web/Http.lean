import CppCommons.Cxx.Json
import CppCommons.Cxx.StandardLibrary

/-!
# HTTP requests and responses

The records that pass through the middleware chain, and the two callable types
of `middleware_chain.hpp`.  A handler returns a response or throws.  An error
response carries a problem document, printed by the JSON library.
-/

namespace CppCommons
namespace Web

open Cxx

inductive HttpMethod where
  | get
  | post
  | put
  | patch
  | delete
  | head
  | options
deriving DecidableEq

structure HttpRequest where
  method : HttpMethod := .get
  path : Bytes := []
  headers : StringMap Bytes := ∅
  queryParams : StringMap Bytes := ∅
  body : Bytes := []
deriving DecidableEq

structure HttpResponse where
  statusCode : Int := 200
  headers : StringMap Bytes := ∅
  body : Bytes := []
  contentType : Bytes := ascii "application/json"
deriving DecidableEq

/-- The value of a header, looked up by its exact name. -/
def HttpRequest.header (req : HttpRequest) (name : Bytes) : Option Bytes :=
  req.headers.lookup name

abbrev Handler (exn : Type) := HttpRequest -> Except exn HttpResponse

/-- What one request made of the wrapped handler: the calls and the outcome. -/
structure Exchange (exn : Type) where
  calls : List HttpRequest
  outcome : Except exn HttpResponse
deriving DecidableEq

structure ProblemDetails where
  type : Bytes
  title : Bytes
  status : Int := 500
  detail : Bytes
  instanceUri : Bytes

/-- The members of an object are kept in the order of their keys. -/
def ProblemDetails.toJson (pd : ProblemDetails) : Json :=
  .object [(ascii "detail", .string pd.detail), (ascii "instance", .string pd.instanceUri),
    (ascii "status", .integer pd.status), (ascii "title", .string pd.title),
    (ascii "type", .string pd.type)]

namespace HttpResponse

def ok (body : Bytes) : HttpResponse :=
  { statusCode := 200, headers := ∅, body := body }

def fromProblem (json : JsonText) (pd : ProblemDetails) : Except String HttpResponse := do
  let body <- json.dump pd.toJson
  return { statusCode := pd.status
           headers := Finmap.singleton (ascii "Content-Type") (ascii "application/problem+json")
           body := body }

end HttpResponse

end Web
end CppCommons
