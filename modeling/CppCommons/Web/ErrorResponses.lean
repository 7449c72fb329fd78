import CppCommons.Cxx.JsonDump
import CppCommons.Web.Http

/-!
# Error responses

`HttpResponse::from_error` answers an exception with a problem document.  Under what is
documented of the JSON library, a client reads the document again; the library
refuses a message that is not UTF-8, and then `from_error` throws itself.
-/

namespace CppCommons
namespace Web

open Cxx
open Foundation.JsonSyntax

/-- The classes of `domain_error.hpp`; every other class of exceptions is `other`. -/
inductive ErrorClass where
  | domainError
  | notFoundError
  | conflictError
  | invariantViolationError
  | applicationError
  | validationError
  | unauthorizedError
  | forbiddenError
  | rateLimitError
  | timeoutError
  | infrastructureError
  | externalServiceError
  | other
deriving DecidableEq

/-- An exception, with the message it was constructed from. -/
structure StdException where
  dynamicType : ErrorClass
  message : Bytes

/-- The string made from `what()`, which ends at the first NUL. -/
def StdException.what (e : StdException) : Bytes :=
  e.message.takeWhile (fun c => c != 0)

namespace ProblemDetails

def notFound (detail : Bytes) : ProblemDetails where
  type := ascii "urn:cpp-commons:error:not-found"
  title := ascii "Not Found"
  status := 404
  detail := detail
  instanceUri := []

def conflict (detail : Bytes) : ProblemDetails where
  type := ascii "urn:cpp-commons:error:conflict"
  title := ascii "Conflict"
  status := 409
  detail := detail
  instanceUri := []

def validationError (detail : Bytes) : ProblemDetails where
  type := ascii "urn:cpp-commons:error:validation"
  title := ascii "Unprocessable Entity"
  status := 422
  detail := detail
  instanceUri := []

def unauthorized : ProblemDetails where
  type := ascii "urn:cpp-commons:error:unauthorized"
  title := ascii "Unauthorized"
  status := 401
  detail := ascii "Authentication required"
  instanceUri := []

def internalError : ProblemDetails where
  type := ascii "urn:cpp-commons:error:internal"
  title := ascii "Internal Server Error"
  status := 500
  detail := ascii "An unexpected error occurred"
  instanceUri := []

end ProblemDetails

namespace HttpResponse

variable (json : JsonText)

def badRequest (detail : Bytes) : Except String HttpResponse :=
  fromProblem json (.validationError detail)

def unauthorized : Except String HttpResponse :=
  fromProblem json .unauthorized

def notFound (detail : Bytes) : Except String HttpResponse :=
  fromProblem json (.notFound detail)

def conflict (detail : Bytes) : Except String HttpResponse :=
  fromProblem json (.conflict detail)

def internalError : Except String HttpResponse :=
  fromProblem json .internalError

/-- The classes asked for are `final`, so a cast succeeds for this class only. -/
def fromError (e : StdException) : Except String HttpResponse :=
  if e.dynamicType = .notFoundError then notFound json e.what
  else if e.dynamicType = .validationError then badRequest json e.what
  else if e.dynamicType = .unauthorizedError then unauthorized json
  else if e.dynamicType = .forbiddenError then
    fromProblem json
      { type := ascii "urn:cpp-commons:error:forbidden", title := ascii "Forbidden"
        status := 403, detail := e.what, instanceUri := [] }
  else if e.dynamicType = .conflictError then conflict json e.what
  else if e.dynamicType = .rateLimitError then
    fromProblem json
      { type := ascii "urn:cpp-commons:error:rate-limited", title := ascii "Too Many Requests"
        status := 429, detail := e.what, instanceUri := [] }
  else if e.dynamicType = .timeoutError then
    fromProblem json
      { type := ascii "urn:cpp-commons:error:timeout", title := ascii "Gateway Timeout"
        status := 504, detail := e.what, instanceUri := [] }
  else internalError json

end HttpResponse

/-!
## Documents

What a client reads of a problem document.  The texts of a `ProblemDetails` are its only
strings that can fail to be UTF-8.
-/

def problemValue (pd : ProblemDetails) : Value :=
  .object [(ascii "detail", .string pd.detail), (ascii "instance", .string pd.instanceUri),
    (ascii "status", .number (decimal pd.status)), (ascii "title", .string pd.title),
    (ascii "type", .string pd.type)]

theorem value_toJson (float : UInt64 -> Value) (pd : ProblemDetails) :
    pd.toJson.value float = problemValue pd := by
  simp [ProblemDetails.toJson, problemValue, Json.value, Json.memberValues]

theorem strings_problemValue (pd : ProblemDetails) :
    strings (problemValue pd) =
      [ascii "detail", pd.detail, ascii "instance", pd.instanceUri, ascii "status",
        ascii "title", pd.title, ascii "type", pd.type] := by
  simp only [strings, problemValue, Value.tokens, moreMembers, List.cons_append,
    List.nil_append]
  rfl

theorem utf8_strings_problemValue {pd : ProblemDetails}
    (hutf8 : forall s, s ∈ [pd.type, pd.title, pd.detail, pd.instanceUri] -> Utf8 s) :
    forall s, s ∈ strings (problemValue pd) -> Utf8 s := by
  have hname : forall s, isPlainAscii s = true -> Utf8 s :=
    fun s hs => (plain_of_isPlainAscii hs).left
  intro s hs
  simp only [strings_problemValue, List.mem_cons, List.not_mem_nil, or_false] at hs
  rcases hs with rfl | rfl | rfl | rfl | rfl | rfl | rfl | rfl | rfl
  · exact hname _ (by decide)
  · exact hutf8 _ (by simp)
  · exact hname _ (by decide)
  · exact hutf8 _ (by simp)
  · exact hname _ (by decide)
  · exact hname _ (by decide)
  · exact hutf8 _ (by simp)
  · exact hname _ (by decide)
  · exact hutf8 _ (by simp)

namespace HttpResponse

theorem fromProblem_documentText (pd : ProblemDetails)
    (hplain : (strings (problemValue pd)).all isPlainAscii = true) :
    fromProblem documentText pd =
      .ok { statusCode := pd.status
            headers := Finmap.singleton (ascii "Content-Type") (ascii "application/problem+json")
            body := written (problemValue pd) } := by
  have hdump : documentText.dump pd.toJson = .ok (written (problemValue pd)) := by
    have hvalue := value_toJson (fun _ => .word .null) pd
    rw [← hvalue] at hplain
    rw [← hvalue]
    exact compactDump_of_plain hplain
  rw [fromProblem, hdump]
  rfl

variable {json : JsonText} {float : UInt64 -> Value} (hjson : PrintsJson json float)

include hjson

theorem fromProblem_of_utf8 {pd : ProblemDetails}
    (hutf8 : forall s, s ∈ [pd.type, pd.title, pd.detail, pd.instanceUri] -> Utf8 s) :
    exists body,
      fromProblem json pd =
        .ok { statusCode := pd.status
              headers := Finmap.singleton (ascii "Content-Type") (ascii "application/problem+json")
              body := body } ∧
      Denotes body (problemValue pd) := by
  have hstrings := utf8_strings_problemValue hutf8
  rw [← value_toJson float] at hstrings
  rcases hjson.denotes pd.toJson hstrings with ⟨body, hdump, hdenotes⟩
  rw [value_toJson] at hdenotes
  refine ⟨body, ?_, hdenotes⟩
  rw [fromProblem, hdump]
  rfl

theorem fromProblem_of_not_utf8 {pd : ProblemDetails} (hinvalid : ¬ Utf8 pd.detail) :
    exists what, fromProblem json pd = .error what := by
  have hmem : pd.detail ∈ strings (pd.toJson.value float) := by
    rw [value_toJson, strings_problemValue]
    simp
  rcases hjson.throws pd.toJson pd.detail hmem hinvalid with ⟨what, hdump⟩
  refine ⟨what, ?_⟩
  rw [fromProblem, hdump]
  rfl

end HttpResponse

/-!
## Exceptions

Six classes show their message, a seventh has a text of its own, and all others look alike.
-/

namespace ErrorClass

/-- The response to these exceptions says what they say. -/
def showsMessage : ErrorClass -> Bool
  | notFoundError | validationError | forbiddenError | conflictError | rateLimitError
  | timeoutError => true
  | _ => false

def reportedAs : ErrorClass -> ErrorClass
  | domainError | invariantViolationError | applicationError | infrastructureError
  | externalServiceError => other
  | c => c

/-- The document for an exception of the class. -/
def problem (c : ErrorClass) (what : Bytes) : ProblemDetails :=
  match c with
  | notFoundError => .notFound what
  | validationError => .validationError what
  | unauthorizedError => .unauthorized
  | forbiddenError =>
      { type := ascii "urn:cpp-commons:error:forbidden", title := ascii "Forbidden"
        status := 403, detail := what, instanceUri := [] }
  | conflictError => .conflict what
  | rateLimitError =>
      { type := ascii "urn:cpp-commons:error:rate-limited", title := ascii "Too Many Requests"
        status := 429, detail := what, instanceUri := [] }
  | timeoutError =>
      { type := ascii "urn:cpp-commons:error:timeout", title := ascii "Gateway Timeout"
        status := 504, detail := what, instanceUri := [] }
  | _ => .internalError

theorem utf8_problem (c : ErrorClass) {what : Bytes} (h : c.showsMessage = true -> Utf8 what) :
    forall s, s ∈ [(c.problem what).type, (c.problem what).title, (c.problem what).detail,
      (c.problem what).instanceUri] -> Utf8 s := by
  have hfixed : forall s, isPlainAscii s = true -> Utf8 s :=
    fun s hs => (plain_of_isPlainAscii hs).left
  have hdetail : Utf8 (c.problem what).detail := by
    cases c <;> first | exact h rfl | exact hfixed _ rfl
  have htype : isPlainAscii (c.problem what).type = true := by
    cases c <;> rfl
  have htitle : isPlainAscii (c.problem what).title = true := by
    cases c <;> rfl
  have hinstance : isPlainAscii (c.problem what).instanceUri = true := by
    cases c <;> rfl
  intro s hs
  simp only [List.mem_cons, List.not_mem_nil, or_false] at hs
  rcases hs with rfl | rfl | rfl | rfl
  · exact hfixed _ htype
  · exact hfixed _ htitle
  · exact hdetail
  · exact hfixed _ hinstance

theorem detail_of_showsMessage {c : ErrorClass} (h : c.showsMessage = true) (what : Bytes) :
    (c.problem what).detail = what := by
  cases c <;> first | rfl | cases h

theorem problem_of_hidden {c : ErrorClass} (h : c.showsMessage = false) (what what' : Bytes) :
    c.problem what = c.problem what' := by
  cases c <;> first | rfl | cases h

theorem status_problem (c : ErrorClass) (what : Bytes) :
    (c.problem what).status = (c.problem []).status := by
  cases c <;> rfl

theorem status_problem_eq_iff (c c' : ErrorClass) (what what' : Bytes) :
    (c.problem what).status = (c'.problem what').status <-> c.reportedAs = c'.reportedAs := by
  rw [status_problem, status_problem c']
  cases c <;> cases c' <;> decide

theorem status_problem_range (c : ErrorClass) (what : Bytes) :
    400 <= (c.problem what).status ∧ (c.problem what).status < 600 := by
  rw [status_problem]
  cases c <;> decide

end ErrorClass

namespace HttpResponse

theorem fromError_eq (json : JsonText) (e : StdException) :
    fromError json e = fromProblem json (e.dynamicType.problem e.what) := by
  rcases e with ⟨c, message⟩
  cases c <;> rfl

/-- What a client reads of an exception. -/
structure Reports (e : StdException) (resp : HttpResponse) : Prop where
  status : 400 <= resp.statusCode ∧ resp.statusCode < 600
  headers : resp.headers =
    Finmap.singleton (ascii "Content-Type") (ascii "application/problem+json")
  document : exists detail title type,
    Denotes resp.body (.object [(ascii "detail", .string detail),
      (ascii "instance", .string []), (ascii "status", .number (decimal resp.statusCode)),
      (ascii "title", .string title), (ascii "type", .string type)]) ∧
    (e.dynamicType.showsMessage = true -> detail = e.what)

variable {json : JsonText} {float : UInt64 -> Value} (hjson : PrintsJson json float)

include hjson

theorem fromError_cases (e : StdException) :
    (e.dynamicType.showsMessage = true ∧ ¬ Utf8 e.what ∧
      exists what, fromError json e = .error what) ∨
    (e.dynamicType.showsMessage = true -> Utf8 e.what) ∧
      exists body, fromError json e =
        .ok { statusCode := (e.dynamicType.problem e.what).status
              headers := Finmap.singleton (ascii "Content-Type") (ascii "application/problem+json")
              body := body } ∧
        Denotes body (problemValue (e.dynamicType.problem e.what)) := by
  rw [fromError_eq]
  by_cases hutf8 : e.dynamicType.showsMessage = true -> Utf8 e.what
  · right
    exact ⟨hutf8, fromProblem_of_utf8 hjson (e.dynamicType.utf8_problem hutf8)⟩
  · left
    rcases Classical.not_imp.mp hutf8 with ⟨hshows, hinvalid⟩
    refine ⟨hshows, hinvalid, fromProblem_of_not_utf8 hjson ?_⟩
    rwa [ErrorClass.detail_of_showsMessage hshows]

theorem fromError_returns {e : StdException} {resp : HttpResponse}
    (h : fromError json e = .ok resp) :
    (e.dynamicType.showsMessage = true -> Utf8 e.what) ∧
      resp.statusCode = (e.dynamicType.problem e.what).status ∧ Reports e resp := by
  rcases fromError_cases hjson e with ⟨_, _, what, hthrown⟩ | ⟨hutf8, body, hreturned, hbody⟩
  · rw [h] at hthrown
    cases hthrown
  · rw [h] at hreturned
    cases hreturned
    refine ⟨hutf8, rfl, e.dynamicType.status_problem_range e.what, rfl, ?_⟩
    have hinstance : (e.dynamicType.problem e.what).instanceUri = [] := by
      cases e.dynamicType <;> rfl
    rw [problemValue, hinstance] at hbody
    exact ⟨_, _, _, hbody, fun hshows => ErrorClass.detail_of_showsMessage hshows e.what⟩

/--
`from_error` returns exactly if the message it would show is UTF-8.  What it
returns is a problem document with the status of the response, and with the
message where the class shows it; the message of any other class changes nothing.
The status tells the class, as far as it is reported.
-/
theorem fromError_reports (e : StdException) :
    ((exists resp, fromError json e = .ok resp) <->
      (e.dynamicType.showsMessage = true -> Utf8 e.what)) ∧
    (forall resp, fromError json e = .ok resp -> Reports e resp) ∧
    (forall message, e.dynamicType.showsMessage = false ->
      fromError json { e with message := message } =
        fromError json e) ∧
    forall e' resp resp', fromError json e = .ok resp ->
      fromError json e' = .ok resp' ->
        (resp.statusCode = resp'.statusCode <->
          e.dynamicType.reportedAs = e'.dynamicType.reportedAs) := by
  refine ⟨⟨?_, ?_⟩, ?_, ?_, ?_⟩
  · rintro ⟨resp, hresp⟩
    exact (fromError_returns hjson hresp).left
  · intro hutf8
    rcases fromError_cases hjson e with ⟨hshows, hinvalid, _⟩ | ⟨_, body, hreturned, _⟩
    · exact absurd (hutf8 hshows) hinvalid
    · exact ⟨_, hreturned⟩
  · intro resp hresp
    exact (fromError_returns hjson hresp).right.right
  · intro message hhidden
    rw [fromError_eq, fromError_eq]
    exact congrArg _ (ErrorClass.problem_of_hidden hhidden _ _)
  · intro e' resp resp' hresp hresp'
    rw [(fromError_returns hjson hresp).right.left,
      (fromError_returns hjson hresp').right.left]
    exact ErrorClass.status_problem_eq_iff _ _ _ _

end HttpResponse

theorem missingUser_reported :
    exists resp, HttpResponse.fromError documentText ⟨.notFoundError, ascii "user 7"⟩ = .ok resp ∧
      resp.body = ascii ("\x7b\"detail\":\"user 7\",\"instance\":\"\",\"status\":404," ++
        "\"title\":\"Not Found\",\"type\":\"urn:cpp-commons:error:not-found\"\x7d") ∧
      HttpResponse.Reports ⟨.notFoundError, ascii "user 7"⟩ resp := by
  have hresp := HttpResponse.fromProblem_documentText (.notFound (ascii "user 7")) (by decide)
  refine ⟨_, hresp, by decide, ?_⟩
  exact (HttpResponse.fromError_reports printsJson_documentText
    ⟨.notFoundError, ascii "user 7"⟩).right.left _ hresp

end Web
end CppCommons
