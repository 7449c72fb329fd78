import CppCommons.Cxx.Numeric
import CppCommons.Web.ErrorResponses
import CppCommons.Web.MiddlewareChain

/-!
# Body limit middleware

`body_limit_middleware` answers 413 itself when the declared or the actual size
of the body is over the limit.  A declared size that `std::stoull` cannot read
is ignored, and that includes every numeral from `2^64` on.
-/

namespace CppCommons
namespace Web

open Cxx
open Foundation.Ascii
open Foundation.JsonSyntax

variable {world exn : Type}

def bodyTooLarge : ProblemDetails where
  type := ascii "https://httpproblems.com/http-status/413"
  title := ascii "Request Entity Too Large"
  status := 413
  detail := ascii "Body exceeds maximum allowed size"
  instanceUri := []

/-- The answer over the limit; an exception of the JSON library passes through. -/
def rejectBody (json : JsonText) (jsonException : String -> exn) : Except exn HttpResponse :=
  (HttpResponse.fromProblem json bodyTooLarge).mapError jsonException

/-- Both exceptions of `std::stoull` are caught and dropped. -/
def declaredTooLarge (maxBytes : UInt64) (req : HttpRequest) : Bool :=
  match req.header (ascii "Content-Length") with
  | none => false
  | some cl =>
      match stoull cl with
      | none => false
      | some declared => maxBytes < declared

def bodyLimitMiddleware (json : JsonText) (jsonException : String -> exn) (maxBytes : UInt64) :
    Middleware world exn :=
  fun w req =>
    if declaredTooLarge maxBytes req then .done w (rejectBody json jsonException)
    else if maxBytes.toNat < req.body.length then .done w (rejectBody json jsonException)
    else .call w req .done

/-!
## Declared sizes

A decimal numeral of 64 bits is compared with the limit.  A longer one makes
`std::stoull` throw, and is taken for no declaration.
-/

def IsDigits (s : Bytes) : Prop :=
  s ≠ [] ∧ forall c, c ∈ s -> isDigit c = true

def digitsNumeral {s : Bytes} (h : IsDigits s) : Numeral where
  spaces := []
  sign := .absent
  digits := s
  isSpace_spaces := isSpace_of_mem_nil
  isDigit_digits := h.right
  digits_ne_nil := h.left

theorem readInteger_digits {s : Bytes} (h : IsDigits s) :
    readInteger s = some (decimalValue s, s.length) := by
  have hnil : NoDigitNext [] := List.takeWhile_nil
  have hread := readInteger_text_append (digitsNumeral h) hnil
  have htext : (digitsNumeral h).text = s := rfl
  have hvalue : (digitsNumeral h).value = decimalValue s := Int.one_mul (decimalValue s)
  rw [htext, hvalue, List.append_nil] at hread
  exact hread

/-- The request is within the limit, by its body and by the size it declares. -/
structure WithinLimit (maxBytes : UInt64) (req : HttpRequest) : Prop where
  body_le : req.body.length <= maxBytes.toNat
  declared_le : forall cl, req.header (ascii "Content-Length") = some cl -> IsDigits cl ->
    decimalValue cl <= maxBytes.toNat

/-- The declared size is a numeral that does not fit in 64 bits. -/
def DeclaresHuge (req : HttpRequest) : Prop :=
  exists cl, req.header (ascii "Content-Length") = some cl ∧ IsDigits cl ∧
    2 ^ 64 <= decimalValue cl

theorem declaredTooLarge_of_digits {maxBytes : UInt64} {req : HttpRequest} {cl : Bytes}
    (hheader : req.header (ascii "Content-Length") = some cl) (hdigits : IsDigits cl) :
    declaredTooLarge maxBytes req = true <->
      (maxBytes.toNat : Int) < decimalValue cl ∧ decimalValue cl < 2 ^ 64 := by
  have hread := readInteger_digits hdigits
  have hpos := decimalValue_nonneg hdigits.right
  rw [declaredTooLarge, hheader]
  by_cases hfits : decimalValue cl < 2 ^ 64
  · rcases stoull_of_readInteger hread hpos hfits with ⟨declared, hstoull, hvalue⟩
    simp only [hstoull, decide_eq_true_eq, UInt64.lt_iff_toNat_lt, hfits, and_true]
    simp only at hvalue
    lia
  · simp only [stoull_eq_none hread (Int.not_lt.mp hfits), Bool.false_eq_true, hfits, and_false]

/-!
## What reaches the next handler

Over the limit, the next handler is not to be called.  The requests that are passed
on nevertheless are those with a small body and a declared size that does not fit.
-/

/-- The library prints the document; it throws only on text that is not UTF-8. -/
def Prints (json : JsonText) (document : Json) : Prop :=
  exists text, json.dump document = .ok text

/--
Over the limit the answer is a 413 response, the state is unchanged and the next
handler, whatever it is, is not invoked.
-/
def Guards (json : JsonText) (jsonException : String -> exn) (maxBytes : UInt64) (w : world)
    (req : HttpRequest) : Prop :=
  ¬ WithinLimit maxBytes req -> exists response : HttpResponse, response.statusCode = 413 ∧
    forall next : world -> HttpRequest -> Observed world exn,
      (bodyLimitMiddleware json jsonException maxBytes w req).observe next =
        { result := (w, .ok response), invocations := [] }

theorem rejectBody_eq_ok {json : JsonText} (jsonException : String -> exn)
    (hprints : Prints json bodyTooLarge.toJson) :
    exists response, rejectBody json jsonException = .ok response ∧
      response.statusCode = 413 := by
  rcases hprints with ⟨text, hdump⟩
  have hreject : rejectBody json jsonException =
      .ok { statusCode := 413
            headers := Finmap.singleton (ascii "Content-Type") (ascii "application/problem+json")
            body := text } := by
    rw [rejectBody, HttpResponse.fromProblem, hdump]
    rfl
  exact ⟨_, hreject, rfl⟩

theorem guards_of_rejects {json : JsonText} (jsonException : String -> exn)
    (hprints : Prints json bodyTooLarge.toJson) {maxBytes : UInt64} (w : world)
    {req : HttpRequest}
    (h : declaredTooLarge maxBytes req = true ∨ maxBytes.toNat < req.body.length) :
    Guards json jsonException maxBytes w req := by
  intro _
  rcases rejectBody_eq_ok jsonException hprints with ⟨response, hreject, hstatus⟩
  have hscript : bodyLimitMiddleware json jsonException maxBytes w req =
      .done w (.ok response) := by
    rw [bodyLimitMiddleware, hreject]
    by_cases hdeclared : declaredTooLarge maxBytes req = true
    · rw [if_pos hdeclared]
    · rw [if_neg hdeclared, if_pos (h.resolve_left hdeclared)]
  refine ⟨response, hstatus, ?_⟩
  intro next
  rw [hscript]
  rfl

theorem not_guards_of_passes {json : JsonText} (jsonException : String -> exn)
    {maxBytes : UInt64} (w : world) {req : HttpRequest}
    (hdeclared : declaredTooLarge maxBytes req = false)
    (hbody : req.body.length <= maxBytes.toNat) (hover : ¬ WithinLimit maxBytes req) :
    ¬ Guards json jsonException maxBytes w req := by
  intro h
  rcases h hover with ⟨response, hstatus, hdone⟩
  have hscript : bodyLimitMiddleware json jsonException maxBytes w req = .call w req .done := by
    rw [bodyLimitMiddleware, hdeclared, if_neg (by simp), if_neg (Nat.not_lt.mpr hbody)]
  -- a handler that answers 200 makes the difference visible
  have hanswer := hdone (fun w' _ => { result := (w', .ok {}), invocations := [] })
  rw [hscript] at hanswer
  have hresponse : (.ok {} : Except exn HttpResponse) = .ok response :=
    congrArg (fun observed => observed.result.snd) hanswer
  rw [← Except.ok.inj hresponse] at hstatus
  cases hstatus

theorem not_withinLimit_of_declaresHuge {maxBytes : UInt64} {req : HttpRequest}
    (h : DeclaresHuge req) : ¬ WithinLimit maxBytes req := by
  intro hwithin
  rcases h with ⟨cl, hheader, hdigits, hhuge⟩
  have hle := hwithin.declared_le cl hheader hdigits
  have hmax := maxBytes.toNat_lt
  lia

theorem declaredTooLarge_of_declaresHuge {maxBytes : UInt64} {req : HttpRequest}
    (h : DeclaresHuge req) : declaredTooLarge maxBytes req = false := by
  rcases h with ⟨cl, hheader, hdigits, hhuge⟩
  rw [Bool.eq_false_iff, ne_eq, declaredTooLarge_of_digits hheader hdigits]
  lia

/--
For every limit, request, state and next handler: over the limit the answer is
413 and the next handler is not invoked, if and only if the request does not
declare a numeral of more than 64 bits for a body within the limit.
-/
theorem guards_iff (json : JsonText) (jsonException : String -> exn)
    (hprints : Prints json bodyTooLarge.toJson) (maxBytes : UInt64) (w : world)
    (req : HttpRequest) :
    Guards json jsonException maxBytes w req <->
      ¬ (req.body.length <= maxBytes.toNat ∧ DeclaresHuge req) := by
  constructor
  · intro h hhuge
    exact not_guards_of_passes jsonException w (declaredTooLarge_of_declaresHuge hhuge.right)
      hhuge.left (not_withinLimit_of_declaresHuge hhuge.right) h
  · intro h hover
    have hrejects : declaredTooLarge maxBytes req = true ∨ maxBytes.toNat < req.body.length := by
      by_contra hpasses
      rw [not_or, Nat.not_lt] at hpasses
      apply hover
      refine ⟨hpasses.right, ?_⟩
      intro cl hheader hdigits
      have hdeclared := hpasses.left
      rw [declaredTooLarge_of_digits hheader hdigits] at hdeclared
      have hsmall : ¬ 2 ^ 64 <= decimalValue cl := by
        intro hlarge
        exact h ⟨hpasses.right, cl, hheader, hdigits, hlarge⟩
      lia
    exact guards_of_rejects jsonException hprints w hrejects hover

def declaring (size : Bytes) : HttpRequest where
  headers := Finmap.singleton (ascii "Content-Length") size

theorem header_declaring (size : Bytes) :
    (declaring size).header (ascii "Content-Length") = some size :=
  Finmap.lookup_singleton_eq

theorem hugeDeclaration_not_guarded :
    declaredTooLarge 100 (declaring (ascii "18446744073709551616")) = false ∧
      ¬ Guards documentText id 100 () (declaring (ascii "18446744073709551616")) := by
  have hdigits : IsDigits (ascii "18446744073709551616") :=
    ⟨by decide, List.all_eq_true.mp (by decide)⟩
  have hhuge : DeclaresHuge (declaring (ascii "18446744073709551616")) :=
    ⟨_, header_declaring _, hdigits, by decide⟩
  have hdeclared := @declaredTooLarge_of_declaresHuge 100 _ hhuge
  exact ⟨hdeclared, not_guards_of_passes id () hdeclared (by decide)
    (not_withinLimit_of_declaresHuge hhuge)⟩

def bodyTooLargeText : Bytes :=
  ascii ("\x7b\"detail\":\"Body exceeds maximum allowed size\",\"instance\":\"\",\"status\":413," ++
    "\"title\":\"Request Entity Too Large\"," ++
    "\"type\":\"https://httpproblems.com/http-status/413\"\x7d")

theorem dump_bodyTooLarge : documentText.dump bodyTooLarge.toJson = .ok bodyTooLargeText := by
  have hplain : (strings (problemValue bodyTooLarge)).all isPlainAscii = true := by
    decide
  have hwritten : written (problemValue bodyTooLarge) = bodyTooLargeText := by
    decide +kernel
  rw [← value_toJson (fun _ => .word .null)] at hplain hwritten
  rw [← hwritten]
  exact compactDump_of_plain hplain

theorem thousand_guarded :
    documentText.dump bodyTooLarge.toJson = .ok bodyTooLargeText ∧
      ¬ WithinLimit 100 (declaring (ascii "1000")) ∧
      Guards documentText id 100 () (declaring (ascii "1000")) := by
  refine ⟨dump_bodyTooLarge, ?_, ?_⟩
  · intro hwithin
    have hdigits : IsDigits (ascii "1000") := ⟨by decide, List.all_eq_true.mp (by decide)⟩
    exact absurd (hwithin.declared_le _ (header_declaring _) hdigits) (by decide)
  apply (guards_iff documentText id ⟨_, dump_bodyTooLarge⟩ 100 ()
    (declaring (ascii "1000"))).mpr
  intro h
  rcases h.right with ⟨cl, hheader, _, hlarge⟩
  rw [header_declaring] at hheader
  cases hheader
  exact absurd hlarge (by decide)

end Web
end CppCommons
