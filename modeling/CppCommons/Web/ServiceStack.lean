import CppCommons.Web.AuthMiddleware
import CppCommons.Web.BodyLimitMiddleware
import CppCommons.Web.CompressionMiddleware
import CppCommons.Web.ContentNegotiation
import CppCommons.Web.CorsMiddleware
import CppCommons.Web.Filters

/-!
# Service stack

The stateless middlewares of the library, in any number and any order around a
handler.  Each one is a filter, so the chain is settled by who admits the
request, and the answer by what each stage adds on the way back.
-/

namespace CppCommons
namespace Web

open Cxx
open Foundation
open MiddlewareChain

variable {world exn Q : Type} [LinearOrder Q]

/-- What the middlewares are built over: the JSON library, `std::stod`, `std::sort`, the
compression of a body, and the exceptions that can pass through. -/
structure StackLibrary (exn Q : Type) [LinearOrder Q] where
  json : JsonText
  jsonException : String -> exn
  stod : Bytes -> Option Q
  sorter : QualitySort Q
  compress : Bytes -> Except String Bytes
  runtimeError : String -> exn

namespace StackLibrary

/-- The compression of the body is what the loop over `deflate` returns, given passes
enough. -/
def Runs {stream : Type} (lib : StackLibrary exn Q) (zlib : Zlib stream) (body : Bytes) : Prop :=
  exists enough, forall buf passes, enough <= passes ->
    gzipCompress zlib buf passes body = some (lib.compress body)

theorem compress_of_deflates {stream : Type} {lib : StackLibrary exn Q} {zlib : Zlib stream}
    {body : Bytes} (hruns : lib.Runs zlib body) (hsize : body.length < 2 ^ 32) {s : stream}
    (hinit : zlib.deflateInit2 = some s) {chunks : List Bytes}
    (hdeflates : Deflates zlib s body chunks .streamEnd) :
    lib.compress body = .ok chunks.flatten := by
  rcases hruns with ⟨enough, hgzip⟩
  rw [← (fed_eq_iff body).mpr hsize] at hdeflates
  have hloop := gzipCompress_of_deflates hinit hdeflates clearBuffer
    (Nat.le_max_right enough chunks.length)
  rw [hgzip clearBuffer _ (Nat.le_max_left enough chunks.length)] at hloop
  exact (Option.some.inj hloop).trans (if_pos rfl)

def compressAnswer (lib : StackLibrary exn Q) (req : HttpRequest) (resp : HttpResponse) :
    Except exn HttpResponse :=
  if !acceptsGzip req then .ok resp
  else if resp.body = [] then .ok resp
  else ((lib.compress resp.body).map resp.compressed).mapError lib.runtimeError

variable [One Q]

def negotiated (lib : StackLibrary exn Q) (supported : List Bytes) (req : HttpRequest) : Bytes :=
  negotiateContentType lib.stod lib.sorter ((req.header (ascii "Accept")).getD (ascii "*/*"))
    supported

end StackLibrary

variable [One Q]

inductive Stage (world exn : Type) where
  | cors (opts : CorsOptions)
  | bodyLimit (maxBytes : UInt64)
  | compression
  | negotiation (supported : List Bytes)
  | auth (verify : VerifyFn world exn)

namespace Stage

def middleware (lib : StackLibrary exn Q) : Stage world exn -> Middleware world exn
  | .cors opts => corsMiddleware opts
  | .bodyLimit maxBytes => bodyLimitMiddleware lib.json lib.jsonException maxBytes
  | .compression =>
      fun w req => .call w req (fun w' answer => .done w' (answer.bind (lib.compressAnswer req)))
  | .negotiation supported => contentNegotiationMiddleware lib.stod lib.sorter supported
  | .auth verify => authMiddleware verify

theorem run_compression {stream : Type} {lib : StackLibrary exn Q} {zlib : Zlib stream}
    {next : StatefulHandler world exn} {w : world} {req : HttpRequest}
    (hruns : forall resp, (next w req).snd = .ok resp -> lib.Runs zlib resp.body) :
    exists enough, forall buf passes, enough <= passes ->
      compressionMiddleware zlib lib.runtimeError buf passes next w req =
        (((Stage.compression.middleware lib w req).run next).fst,
          some ((Stage.compression.middleware lib w req).run next).snd) := by
  cases hnext : next w req with
  | mk w' outcome =>
      cases outcome with
      | error e =>
          refine ⟨0, ?_⟩
          intro buf passes _
          simp only [compressionMiddleware, middleware, Script.run, hnext]
          rfl
      | ok resp =>
          rcases hruns resp (congrArg Prod.snd hnext) with ⟨enough, hgzip⟩
          refine ⟨enough, ?_⟩
          intro buf passes hpasses
          simp only [compressionMiddleware, middleware, Script.run, hnext, hgzip buf passes hpasses]
          simp only [Except.bind, StackLibrary.compressAnswer, Option.map_some]
          split
          · rfl
          · split <;> rfl

/-!
## Stages as filters

A stage answers by itself, or it passes the request on unchanged and finishes the
answer.
-/

def finish (lib : StackLibrary exn Q) : Stage world exn -> HttpRequest -> HttpResponse ->
    Except exn HttpResponse
  | .cors opts, req, resp => .ok (opts.decorate req resp)
  | .bodyLimit _, _, resp => .ok resp
  | .compression, req, resp => lib.compressAnswer req resp
  | .negotiation supported, req, resp => .ok (setContentType (lib.negotiated supported req) resp)
  | .auth _, _, resp => .ok resp

def filter (lib : StackLibrary exn Q) (stage : Stage world exn) : Filter world exn where
  enter w req := (stage.middleware lib w req).entered
  leave req _ w' outcome := (w', outcome.bind (stage.finish lib req))

def Admits (lib : StackLibrary exn Q) : Stage world exn -> world -> HttpRequest -> Prop
  | .cors _, _, req => req.method ≠ .options
  | .bodyLimit maxBytes, _, req =>
      declaredTooLarge maxBytes req = false ∧ req.body.length <= maxBytes.toNat
  | .compression, _, _ => True
  | .negotiation supported, _, req => lib.negotiated supported req ≠ []
  | .auth verify, w, req => Authorized verify w req

/-- A stage answers by itself, or it admits the request, passes it on unchanged and
finishes the answer. -/
theorem middleware_cases (lib : StackLibrary exn Q) (stage : Stage world exn) (w : world)
    (req : HttpRequest) :
    (stage.Admits lib w req ∧ exists w', stage.middleware lib w req =
        .call w' req (fun w'' outcome => .done w'' (outcome.bind (stage.finish lib req)))) ∨
      (¬ stage.Admits lib w req ∧
        exists w' outcome, stage.middleware lib w req = .done w' outcome) := by
  -- the stages that only look at the request keep the answer
  have hkeep : (fun w'' outcome => Script.done w'' (outcome.bind Except.ok)) =
      (Script.done : world -> Except exn HttpResponse -> Script world exn) := by
    funext w'' outcome
    cases outcome <;> rfl
  cases stage with
  | cors opts =>
      by_cases hoptions : req.method = .options
      · exact Or.inr ⟨not_not.mpr hoptions, _, _, if_pos hoptions⟩
      · refine Or.inl ⟨hoptions, w, (if_neg hoptions).trans ?_⟩
        rfl
  | bodyLimit maxBytes =>
      have hfinish : finish lib (.bodyLimit maxBytes : Stage world exn) req = Except.ok := rfl
      rw [hfinish, hkeep]
      simp only [Admits, middleware, bodyLimitMiddleware]
      by_cases hdeclared : declaredTooLarge maxBytes req = true
      · rw [if_pos hdeclared]
        exact Or.inr ⟨by simp [hdeclared], _, _, rfl⟩
      · rw [if_neg hdeclared]
        by_cases hbody : maxBytes.toNat < req.body.length
        · rw [if_pos hbody]
          exact Or.inr ⟨by lia, _, _, rfl⟩
        · rw [if_neg hbody]
          exact Or.inl ⟨⟨Bool.eq_false_iff.mpr hdeclared, Nat.not_lt.mp hbody⟩, w, rfl⟩
  | compression => exact Or.inl ⟨trivial, w, rfl⟩
  | negotiation supported =>
      by_cases hnone : (lib.negotiated supported req).isEmpty
      · exact Or.inr ⟨not_not.mpr (List.isEmpty_iff.mp hnone), _, _, if_pos hnone⟩
      · refine Or.inl ⟨fun hnil => hnone (List.isEmpty_iff.mpr hnil), w, (if_neg hnone).trans ?_⟩
        rfl
  | auth verify =>
      have hfinish : finish lib (.auth verify) req = Except.ok := rfl
      rw [hfinish, hkeep]
      exact authMiddleware_cases verify w req

theorem middleware_filter (lib : StackLibrary exn Q) (stage : Stage world exn) :
    (stage.filter lib).middleware = stage.middleware lib := by
  funext w req
  rcases stage.middleware_cases lib w req with ⟨_, w', hcall⟩ | ⟨_, w', outcome, hdone⟩
  · simp [Filter.middleware, filter, hcall, Script.entered]
  · simp [Filter.middleware, filter, hdone, Script.entered]

theorem entered_eq_none_iff (lib : StackLibrary exn Q) (stage : Stage world exn) (w : world)
    (req : HttpRequest) :
    (stage.middleware lib w req).entered.snd = none <-> stage.Admits lib w req := by
  rcases stage.middleware_cases lib w req with ⟨hadmits, w', hcall⟩ | ⟨hrefuses, w', outcome, hdone⟩
  · simp [hcall, Script.entered, hadmits]
  · simp [hdone, Script.entered, hrefuses]

/-!
## Who is invoked

The state in which a stage is entered is the one that the stages before it leave on
the way in.
-/

/-- Every stage admits the request, in the state that the stages before it leave. -/
def AdmitAll (lib : StackLibrary exn Q) : List (Stage world exn) -> world -> HttpRequest -> Prop
  | [], _, _ => True
  | stage :: rest, w, req =>
      stage.Admits lib w req ∧ AdmitAll lib rest (stage.middleware lib w req).entered.fst req

/-- The state that the stages leave on the way in. -/
def stateAfter (lib : StackLibrary exn Q) : List (Stage world exn) -> world -> HttpRequest -> world
  | [], w, _ => w
  | stage :: rest, w, req => stateAfter lib rest (stage.middleware lib w req).entered.fst req

def chain (lib : StackLibrary exn Q) (stages : List (Stage world exn)) :
    MiddlewareChain world exn :=
  (stages.map (middleware lib)).foldl use {}

theorem middlewares_chain (lib : StackLibrary exn Q) (stages : List (Stage world exn)) :
    (chain lib stages).middlewares = (stages.map (filter lib)).map Filter.middleware := by
  rw [chain, middlewares_foldl_use, List.map_map]
  exact List.map_congr_left fun stage _ => (stage.middleware_filter lib).symm

theorem exists_answer_of_not_admits {lib : StackLibrary exn Q} {stage : Stage world exn}
    {w : world} {req : HttpRequest} (h : ¬ stage.Admits lib w req) :
    exists answer, ((stage.filter lib).enter w req).snd = some answer := by
  rw [← entered_eq_none_iff] at h
  exact Option.ne_none_iff_exists'.mp h

theorem le_passed_iff (lib : StackLibrary exn Q) {stages : List (Stage world exn)} {n : Nat}
    (hn : n <= stages.length) (w : world) (req : HttpRequest) :
    n <= Filter.passed (stages.map (filter lib)) w req <-> AdmitAll lib (stages.take n) w req := by
  induction stages generalizing n w with
  | nil =>
      rw [List.take_nil]
      simp only [List.length_nil, Nat.le_zero] at hn
      simp [hn, AdmitAll]
  | cons stage rest ih =>
      cases n with
      | zero => simp [AdmitAll]
      | succ n =>
          rw [List.map_cons, List.take_succ_cons, AdmitAll]
          by_cases hadmits : stage.Admits lib w req
          · rw [Filter.passed_cons_of_none ((entered_eq_none_iff lib stage w req).mpr hadmits),
              Nat.add_le_add_iff_right, ih (Nat.le_of_succ_le_succ hn)]
            simp only [hadmits, true_and]
            rfl
          · rcases exists_answer_of_not_admits hadmits with ⟨answer, hanswer⟩
            rw [Filter.passed_cons_of_some hanswer]
            simp [hadmits]

/-- In one `dispatch`, every stage from the front up to one is invoked, once and with the
request as it came; a stage is among them, and the handler is, exactly if all stages
before admit. -/
theorem stack_invokes (lib : StackLibrary exn Q) (stages : List (Stage world exn))
    (handler : StatefulHandler world exn) (w : world) (req : HttpRequest) :
    ((chain lib stages).observeChain 0 handler [] w req).result =
      (chain lib stages).dispatch w req handler ∧
    exists last, last <= stages.length ∧
      ((chain lib stages).invocations w req handler).map Invocation.visit =
        (List.range (last + 1)).map (fun position => (position, req)) ∧
      forall position, position <= stages.length ->
        (position <= last <-> AdmitAll lib (stages.take position) w req) := by
  refine ⟨observeChain_zero_result w req, Filter.passed (stages.map (filter lib)) w req, ?_, ?_, ?_⟩
  · have hle := Filter.passed_le (stages.map (filter lib)) w req
    rw [List.length_map] at hle
    exact hle
  · rw [List.range_eq_range']
    exact Filter.visits_observeChain (middlewares_chain lib stages) handler 0 [] w req
  · intro position hposition
    exact le_passed_iff lib hposition w req

/-!
## What the client receives

Stages other than compression add headers at most.  The response in the hands of the
client is the handler's, its body packed or not.
-/

theorem dispatch_chain (lib : StackLibrary exn Q) (stages : List (Stage world exn))
    (handler : StatefulHandler world exn) (w : world) (req : HttpRequest) :
    (chain lib stages).dispatch w req handler =
      Filter.respond handler (stages.map (filter lib)) w req :=
  Filter.buildChain_eq_respond (middlewares_chain lib stages) handler 0 w req

theorem respond_cons_of_admits {lib : StackLibrary exn Q} {stage : Stage world exn} {w : world}
    {req : HttpRequest} (h : stage.Admits lib w req) (handler : StatefulHandler world exn)
    (rest : List (Stage world exn)) :
    Filter.respond handler ((stage :: rest).map (filter lib)) w req =
      let inner := Filter.respond handler (rest.map (filter lib))
        (stage.middleware lib w req).entered.fst req
      (inner.fst, inner.snd.bind (stage.finish lib req)) :=
  Filter.respond_cons_of_none ((entered_eq_none_iff lib stage w req).mpr h) handler _

def isCompression : Stage world exn -> Bool
  | .compression => true
  | _ => false

def contentEncodingHeader : Bytes := ascii "Content-Encoding"

def contentLengthHeader : Bytes := ascii "Content-Length"

def contentTypeHeader : Bytes := ascii "Content-Type"

structure Decorated (resp sent : HttpResponse) : Prop where
  statusCode_eq : sent.statusCode = resp.statusCode
  contentType_eq : sent.contentType = resp.contentType
  body_eq : sent.body = resp.body
  headers_eq : forall name,
    name ∉ [allowOriginHeader, allowCredentialsHeader, contentTypeHeader] ->
      sent.headers.lookup name = resp.headers.lookup name
  typed : forall type, resp.headers.lookup contentTypeHeader = some type ->
    sent.headers.lookup contentTypeHeader = some type

theorem Decorated.refl (resp : HttpResponse) : Decorated resp resp :=
  ⟨rfl, rfl, rfl, fun _ _ => rfl, fun _ htyped => htyped⟩

theorem decorated_decorate (opts : CorsOptions) (req : HttpRequest) (resp : HttpResponse) :
    Decorated resp (opts.decorate req resp) := by
  refine ⟨?_, ?_, ?_, ?_, ?_⟩
  · rw [CorsOptions.decorate]
    split <;> rfl
  · rw [CorsOptions.decorate]
    split <;> rfl
  · rw [CorsOptions.decorate]
    split <;> rfl
  · intro name hname
    simp only [List.mem_cons, not_or] at hname
    exact CorsOptions.lookup_decorate opts req resp hname.left hname.right.left
  · intro type htyped
    rw [CorsOptions.lookup_decorate opts req resp (by decide) (by decide)]
    exact htyped

theorem decorated_setContentType (type : Bytes) (resp : HttpResponse) :
    Decorated resp (setContentType type resp) := by
  rw [setContentType]
  split
  · next hnone =>
      refine ⟨rfl, rfl, rfl, ?_, ?_⟩
      · intro name hname
        simp only [List.mem_cons, not_or] at hname
        exact Finmap.lookup_insert_of_ne _ hname.right.right.left
      · intro type' htyped
        cases hnone.symm.trans htyped
  · exact Decorated.refl resp

theorem finish_decorates (lib : StackLibrary exn Q) {stage : Stage world exn}
    (h : stage.isCompression = false) (req : HttpRequest) (resp : HttpResponse) :
    exists sent, stage.finish lib req resp = .ok sent ∧ Decorated resp sent := by
  cases stage with
  | cors opts => exact ⟨_, rfl, decorated_decorate opts req resp⟩
  | bodyLimit maxBytes => exact ⟨_, rfl, Decorated.refl resp⟩
  | compression => cases h
  | negotiation supported => exact ⟨_, rfl, decorated_setContentType _ resp⟩
  | auth verify => exact ⟨_, rfl, Decorated.refl resp⟩

/-- The response in the hands of the client, its body packed or not. -/
structure Received (gunzip : Bytes -> Option Bytes) (packed : Bool) (resp sent : HttpResponse) :
    Prop where
  statusCode_eq : sent.statusCode = resp.statusCode
  contentType_eq : sent.contentType = resp.contentType
  plain : packed = false -> sent.body = resp.body
  unpacks : packed = true ->
    gunzip sent.body = some resp.body ∧
      sent.headers.lookup contentEncodingHeader = some (ascii "gzip") ∧
      sent.headers.lookup contentLengthHeader = some (decimalDigits sent.body.length)
  headers_eq : forall name,
    name ∉ [allowOriginHeader, allowCredentialsHeader, contentTypeHeader] ->
    (packed = true -> name ∉ [contentEncodingHeader, contentLengthHeader]) ->
      sent.headers.lookup name = resp.headers.lookup name
  typed : forall type, resp.headers.lookup contentTypeHeader = some type ->
    sent.headers.lookup contentTypeHeader = some type

variable {gunzip : Bytes -> Option Bytes} {resp mid sent : HttpResponse}

theorem Decorated.received (h : Decorated resp sent) : Received gunzip false resp sent where
  statusCode_eq := h.statusCode_eq
  contentType_eq := h.contentType_eq
  plain _ := h.body_eq
  unpacks hpacked := by cases hpacked
  headers_eq name hname _ := h.headers_eq name hname
  typed := h.typed

theorem Received.decorated {packed : Bool} (h : Received gunzip packed resp mid)
    (hdecorated : Decorated mid sent) : Received gunzip packed resp sent where
  statusCode_eq := hdecorated.statusCode_eq.trans h.statusCode_eq
  contentType_eq := hdecorated.contentType_eq.trans h.contentType_eq
  plain hplain := hdecorated.body_eq.trans (h.plain hplain)
  unpacks hpacked := by
    rcases h.unpacks hpacked with ⟨hbody, hencoding, hlength⟩
    rw [hdecorated.body_eq, hdecorated.headers_eq contentEncodingHeader (by decide),
      hdecorated.headers_eq contentLengthHeader (by decide)]
    exact ⟨hbody, hencoding, hlength⟩
  headers_eq name hname hpacking :=
    (hdecorated.headers_eq name hname).trans (h.headers_eq name hname hpacking)
  typed type htyped := hdecorated.typed type (h.typed type htyped)

theorem Received.compressed (h : Received gunzip false resp mid) {text : Bytes}
    (htext : gunzip text = some resp.body) : Received gunzip true resp (mid.compressed text) where
  statusCode_eq := h.statusCode_eq
  contentType_eq := h.contentType_eq
  plain hplain := by cases hplain
  unpacks _ := by
    refine ⟨htext, ?_, lookup_contentLength_compressed mid text⟩
    exact (Finmap.lookup_insert_of_ne _ (by decide)).trans (Finmap.lookup_insert _)
  headers_eq name hname hpacking := by
    have hkept := hpacking rfl
    simp only [List.mem_cons, not_or] at hkept
    have hunpacked : false = true -> name ∉ [contentEncodingHeader, contentLengthHeader] := by
      intro hpacked
      cases hpacked
    rw [← h.headers_eq name hname hunpacked]
    exact (Finmap.lookup_insert_of_ne _ hkept.right.left).trans
      (Finmap.lookup_insert_of_ne _ hkept.left)
  typed type htyped := by
    rw [← h.typed type htyped]
    exact (Finmap.lookup_insert_of_ne _ (by decide)).trans
      (Finmap.lookup_insert_of_ne _ (by decide))

def packs (stages : List (Stage world exn)) (req : HttpRequest) (resp : HttpResponse) : Bool :=
  stages.any isCompression && acceptsGzip req && !resp.body.isEmpty

theorem exists_received (lib : StackLibrary exn Q) {req : HttpRequest} {text : Bytes}
    (hcompress : lib.compress resp.body = .ok text) (htext : gunzip text = some resp.body)
    {stages : List (Stage world exn)} (hsingle : stages.countP isCompression <= 1)
    {w w' : world} (hadmits : AdmitAll lib stages w req) {handler : StatefulHandler world exn}
    (hhandler : handler (stateAfter lib stages w req) req = (w', .ok resp)) :
    exists sent, Filter.respond handler (stages.map (filter lib)) w req = (w', .ok sent) ∧
      Received gunzip (packs stages req resp) resp sent := by
  induction stages generalizing w with
  | nil => exact ⟨resp, hhandler, (Decorated.refl resp).received⟩
  | cons stage rest ih =>
      rw [List.countP_cons] at hsingle
      rcases ih (by lia) hadmits.right hhandler with ⟨mid, hmid, hreceived⟩
      rw [respond_cons_of_admits hadmits.left, hmid]
      by_cases hcompression : stage.isCompression = true
      · -- the other stages hand over the plain body
        rw [if_pos hcompression] at hsingle
        have hnone : rest.any isCompression = false := by
          rw [List.any_eq_false]
          exact List.countP_eq_zero.mp (by lia)
        have hplain : packs rest req resp = false := by
          rw [packs, hnone, Bool.false_and, Bool.false_and]
        rw [hplain] at hreceived
        have hstage : stage = .compression := by
          cases stage with
          | compression => rfl
          | _ => cases hcompression
        subst hstage
        have hfinish : finish lib (.compression : Stage world exn) req = lib.compressAnswer req :=
          rfl
        simp only [hfinish, Except.bind, StackLibrary.compressAnswer, packs, List.any_cons,
          isCompression, Bool.true_or, Bool.true_and, hreceived.plain rfl]
        cases acceptsGzip req with
        | false => exact ⟨mid, rfl, hreceived⟩
        | true =>
            by_cases hbody : resp.body = []
            · refine ⟨mid, by simp [hbody], ?_⟩
              simpa [hbody] using hreceived
            · refine ⟨mid.compressed text, by simp [hbody, hcompress, Except.map, Except.mapError],
                ?_⟩
              have hfull : resp.body.isEmpty = false := by simpa using hbody
              rw [hfull]
              exact hreceived.compressed htext
      · have hother := Bool.eq_false_iff.mpr hcompression
        rcases finish_decorates lib hother req mid with ⟨sent, hfinish, hdecorated⟩
        refine ⟨sent, by simp [Except.bind, hfinish], ?_⟩
        have hpacks : packs (stage :: rest) req resp = packs rest req resp := by
          rw [packs, packs, List.any_cons, hother, Bool.false_or]
        rw [hpacks]
        exact hreceived.decorated hdecorated

/-- With at most one compression among them, admitting stages deliver the handler's
response: its status, its body, to be decompressed if it was packed, and every header that
no stage sets. -/
theorem stack_delivers {stream : Type} (lib : StackLibrary exn Q) {zlib : Zlib stream}
    {gunzip : Bytes -> Option Bytes} (hinverts : zlib.Inverts gunzip)
    {stages : List (Stage world exn)} (hsingle : stages.countP isCompression <= 1)
    {w w' : world} {req : HttpRequest} (hadmits : AdmitAll lib stages w req)
    {handler : StatefulHandler world exn} {resp : HttpResponse}
    (hhandler : handler (stateAfter lib stages w req) req = (w', .ok resp))
    (hruns : lib.Runs zlib resp.body) (hsize : resp.body.length < 2 ^ 32) {s : stream}
    (hinit : zlib.deflateInit2 = some s) {chunks : List Bytes}
    (hdeflates : Deflates zlib s resp.body chunks .streamEnd) :
    exists sent, (chain lib stages).dispatch w req handler = (w', .ok sent) ∧
      Received gunzip (packs stages req resp) resp sent := by
  rw [dispatch_chain]
  exact exists_received lib (StackLibrary.compress_of_deflates hruns hsize hinit hdeflates)
    (hinverts s hinit _ chunks hdeflates) hsingle hadmits hhandler

def documentedStack : List (Stage Unit Unit) :=
  [.cors { allowedOrigins := [ascii "https://app.example.com"] }, .bodyLimit 1048576,
    .compression, .auth secretOnly]

def sampleLibrary : StackLibrary Unit Nat where
  json := documentText
  jsonException _ := ()
  stod := readZero
  sorter := DescendingSort.favouring (fun entry : AcceptEntry Nat => entry.q)
    { type := [], q := 0 }
  compress body := .ok (sampleGzip (fed body))
  runtimeError _ := ()

def pageRequest : HttpRequest :=
  { headers := (((∅ : StringMap Bytes).insert (ascii "Origin")
      (ascii "https://app.example.com")).insert (ascii "Accept-Encoding") (ascii "gzip")).insert
        (ascii "Authorization") (ascii "Bearer secret") }

theorem admitAll_documentedStack : AdmitAll sampleLibrary documentedStack () pageRequest := by
  have hget : pageRequest.method ≠ .options := by
    decide
  refine ⟨hget, ⟨by decide, by decide⟩, trivial, ?_, trivial⟩
  exact ⟨ascii "secret", by decide, by decide, by decide⟩

theorem deflates_hello :
    Deflates (Zlib.encoding sampleGzip) none helloWorld [helloWorldGzip] .streamEnd :=
  Zlib.deflates_encoding (by decide)

theorem runs_hello : sampleLibrary.Runs (Zlib.encoding sampleGzip) helloWorld := by
  have hfed : fed helloWorld = helloWorld := (fed_eq_iff _).mpr (by decide)
  refine ⟨1, ?_⟩
  intro buf passes hpasses
  rw [gzipCompress_of_deflates rfl (hfed.symm ▸ deflates_hello) buf hpasses]
  simp only [sampleLibrary, hfed, gzipOutcome, List.flatten_singleton, if_pos]
  rfl

theorem greet_pageRequest :
    greet (stateAfter sampleLibrary documentedStack () pageRequest) pageRequest =
      ((), .ok (HttpResponse.ok helloWorld)) :=
  rfl

theorem hello_delivered :
    exists sent, (chain sampleLibrary documentedStack).dispatch () pageRequest greet =
        ((), .ok sent) ∧
      Received sampleGunzip true (HttpResponse.ok helloWorld) sent :=
  stack_delivers sampleLibrary (Zlib.inverts_encoding sampleGunzip_sampleGzip) (by decide)
    admitAll_documentedStack greet_pageRequest runs_hello (by decide) rfl deflates_hello

/-!
## Which origin is named

Stages other than CORS hand on the origin that the answer behind them names, or
refuse the request and name none.
-/

def isCors : Stage world exn -> Bool
  | .cors _ => true
  | _ => false

def namedIn (resp : HttpResponse) : Option Bytes :=
  resp.headers.lookup allowOriginHeader

theorem namedIn_of_singleton {type : Bytes}
    (h : sent.headers = Finmap.singleton contentTypeHeader type) : namedIn sent = none := by
  rw [namedIn, h, Finmap.lookup_eq_none, Finmap.mem_singleton]
  decide

theorem namedIn_rejectBody {json : JsonText} {jsonException : String -> exn}
    (h : rejectBody json jsonException = .ok sent) : namedIn sent = none := by
  rw [rejectBody, HttpResponse.fromProblem] at h
  cases hdump : json.dump bodyTooLarge.toJson with
  | error e =>
      rw [hdump] at h
      cases h
  | ok text =>
      rw [hdump] at h
      cases h
      exact namedIn_of_singleton rfl

theorem namedIn_of_auth_done {verify : VerifyFn world exn} {w w' : world} {req : HttpRequest}
    (h : authMiddleware verify w req = .done w' (.ok sent)) : namedIn sent = none := by
  have hunauthorized : sent = missingAuthorization ∨ sent = verificationFailed := by
    unfold authMiddleware at h
    split at h
    · cases h
      exact Or.inl rfl
    · split at h
      · cases h
        exact Or.inl rfl
      · split at h
        · cases h
        · cases h
          exact Or.inr rfl
        · cases h
  rcases hunauthorized with rfl | rfl
  · exact Finmap.lookup_empty _
  · exact Finmap.lookup_empty _

theorem namedIn_of_done {lib : StackLibrary exn Q} {stage : Stage world exn}
    (hother : stage.isCors = false) {w w' : world} {req : HttpRequest}
    (h : stage.middleware lib w req = .done w' (.ok sent)) : namedIn sent = none := by
  cases stage with
  | cors opts => cases hother
  | bodyLimit maxBytes =>
      simp only [middleware, bodyLimitMiddleware] at h
      have hreject : rejectBody lib.json lib.jsonException = .ok sent := by
        split at h
        · injection h
        · split at h
          · injection h
          · cases h
      exact namedIn_rejectBody hreject
  | compression => cases h
  | negotiation supported =>
      simp only [middleware, contentNegotiationMiddleware] at h
      split at h
      · cases h
        exact namedIn_of_singleton rfl
      · cases h
  | auth verify => exact namedIn_of_auth_done h

theorem namedIn_finish {lib : StackLibrary exn Q} {stage : Stage world exn}
    (hother : stage.isCors = false) {req : HttpRequest}
    (h : stage.finish lib req resp = .ok sent) : namedIn sent = namedIn resp := by
  cases stage with
  | cors opts => cases hother
  | bodyLimit maxBytes =>
      cases h
      rfl
  | compression =>
      simp only [finish, StackLibrary.compressAnswer] at h
      split at h
      · cases h
        rfl
      · split at h
        · cases h
          rfl
        · cases hcompress : lib.compress resp.body with
          | error e =>
              rw [hcompress] at h
              cases h
          | ok text =>
              rw [hcompress] at h
              cases h
              exact (Finmap.lookup_insert_of_ne _ (by decide)).trans
                (Finmap.lookup_insert_of_ne _ (by decide))
  | negotiation supported =>
      cases h
      simp only [setContentType]
      split
      · exact Finmap.lookup_insert_of_ne _ (by decide)
      · rfl
  | auth verify =>
      cases h
      rfl

/-- Stages other than CORS hand on the origin that the answer behind them names, or
refuse the request and name none. -/
theorem namedIn_respond {lib : StackLibrary exn Q} {stages : List (Stage world exn)}
    (hother : forall stage, stage ∈ stages -> stage.isCors = false)
    {inner : StatefulHandler world exn} {w : world} {req : HttpRequest}
    (h : (Filter.respond inner (stages.map (filter lib)) w req).snd = .ok sent) :
    (AdmitAll lib stages w req ∧ exists mid,
        (inner (stateAfter lib stages w req) req).snd = .ok mid ∧ namedIn sent = namedIn mid) ∨
      (¬ AdmitAll lib stages w req ∧ namedIn sent = none) := by
  induction stages generalizing w sent with
  | nil => exact Or.inl ⟨trivial, sent, h, rfl⟩
  | cons stage rest ih =>
      rcases List.forall_mem_cons.mp hother with ⟨hstage, hrest⟩
      by_cases hadmits : stage.Admits lib w req
      · rw [respond_cons_of_admits hadmits] at h
        cases hinner : (Filter.respond inner (rest.map (filter lib))
            (stage.middleware lib w req).entered.fst req).snd with
        | error e =>
            simp only [hinner] at h
            cases h
        | ok mid =>
            simp only [hinner] at h
            have hkept := namedIn_finish hstage h
            rw [hkept]
            rcases ih hrest hinner with ⟨hall, mid', hmid', hnamed⟩ | ⟨hnot, hnone⟩
            · exact Or.inl ⟨⟨hadmits, hall⟩, mid', hmid', hnamed⟩
            · exact Or.inr ⟨fun hall => hnot hall.right, hnone⟩
      · refine Or.inr ⟨fun hall => hadmits hall.left, ?_⟩
        rcases stage.middleware_cases lib w req with ⟨hyes, _⟩ | ⟨_, w', outcome, hdone⟩
        · exact absurd hyes hadmits
        · have henter : ((stage.filter lib).enter w req).snd = some outcome :=
            congrArg (fun script => script.entered.snd) hdone
          rw [List.map_cons, Filter.respond_cons_of_some henter] at h
          rw [show outcome = .ok sent from h] at hdone
          exact namedIn_of_done hstage hdone

/-- In a stack with one CORS stage the answer names an origin exactly if its options allow
it and the stages in front admit the request.  A refusal by one of those names none. -/
theorem stack_names_origin (lib : StackLibrary exn Q) (front rest : List (Stage world exn))
    (opts : CorsOptions) (hother : forall stage, stage ∈ front ++ rest -> stage.isCors = false)
    {handler : StatefulHandler world exn} {w : world} {req : HttpRequest}
    (hhandler : forall w' resp, (handler w' req).snd = .ok resp -> namedIn resp = none)
    {sent : HttpResponse}
    (hsent : ((chain lib (front ++ .cors opts :: rest)).dispatch w req handler).snd = .ok sent)
    (origin : Bytes) :
    sent.headers.lookup allowOriginHeader = some origin <->
      AdmitAll lib front w req ∧ opts.Allows req origin := by
  rw [dispatch_chain, List.map_append, Filter.respond_append] at hsent
  have hfront : forall stage, stage ∈ front -> stage.isCors = false := by
    intro stage hstage
    exact hother stage (List.mem_append_left rest hstage)
  have hrest : forall stage, stage ∈ rest -> stage.isCors = false := by
    intro stage hstage
    exact hother stage (List.mem_append_right front hstage)
  rcases namedIn_respond hfront hsent with ⟨hadmits, mid, hmid, hnamed⟩ | ⟨hnot, hnone⟩
  · -- what the CORS stage answers, by itself or on the way back
    have horigin : namedIn mid = opts.namedOrigin req := by
      by_cases hoptions : req.method = .options
      · have hdone : (Stage.cors opts).middleware lib (stateAfter lib front w req) req =
            .done (stateAfter lib front w req) (.ok (opts.preflight req)) :=
          if_pos hoptions
        have henter : ((filter lib (.cors opts)).enter (stateAfter lib front w req) req).snd =
            some (.ok (opts.preflight req)) :=
          congrArg (fun script => script.entered.snd) hdone
        rw [List.map_cons, Filter.respond_cons_of_some henter] at hmid
        cases hmid
        exact CorsOptions.lookup_allowOrigin_preflight opts req
      · have hcors : Admits lib (.cors opts) (stateAfter lib front w req) req := hoptions
        rw [respond_cons_of_admits hcors] at hmid
        cases hinner : (Filter.respond handler (rest.map (filter lib))
            ((Stage.cors opts).middleware lib (stateAfter lib front w req) req).entered.fst
            req).snd with
        | error e =>
            simp only [hinner] at hmid
            cases hmid
        | ok behind =>
            simp only [hinner] at hmid
            cases hmid
            have hbehind : namedIn behind = none := by
              rcases namedIn_respond hrest hinner with ⟨_, resp, hresp, hkept⟩ | ⟨_, hnone⟩
              · rw [hkept]
                exact hhandler _ resp hresp
              · exact hnone
            have hdecorate := CorsOptions.lookup_allowOrigin_decorate opts req behind
            rw [show behind.headers.lookup allowOriginHeader = none from hbehind,
              Option.or_none] at hdecorate
            exact hdecorate
    rw [← CorsOptions.namedOrigin_eq_some_iff, ← horigin, ← hnamed]
    exact (and_iff_right hadmits).symm
  · constructor
    · intro hsome
      cases hnone.symm.trans hsome
    · intro h
      exact absurd h.left hnot

theorem hello_names_page :
    exists sent, ((chain sampleLibrary documentedStack).dispatch () pageRequest greet).snd =
        .ok sent ∧
      sent.headers.lookup allowOriginHeader = some (ascii "https://app.example.com") := by
  have hplain : forall w' resp, (greet w' pageRequest).snd = .ok resp -> namedIn resp = none := by
    intro w' resp h
    cases h
    exact Finmap.lookup_empty _
  have hresponds := dispatch_chain sampleLibrary documentedStack greet () pageRequest
  have hcompress := StackLibrary.compress_of_deflates runs_hello (by decide) rfl deflates_hello
  rcases exists_received sampleLibrary hcompress (sampleGunzip_sampleGzip helloWorld)
    (by decide) admitAll_documentedStack greet_pageRequest with ⟨sent, hsent, _⟩
  have hok := congrArg Prod.snd (hresponds.trans hsent)
  refine ⟨sent, hok, ?_⟩
  apply (stack_names_origin sampleLibrary [] documentedStack.tail _ (by decide) hplain hok _).mpr
  exact ⟨trivial, Or.inr ⟨by decide, by decide, by decide, by decide⟩⟩

end Stage

end Web
end CppCommons
