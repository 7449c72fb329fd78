import CppCommons.Web.Filters

/-!
# Bearer token middleware

`auth_middleware` lets a request through when its `Authorization` header is
`Bearer ` followed by a token that the verifier accepts, and answers 401 itself
otherwise.  The verifier is the caller's function; it may keep a state and it
may throw.
-/

namespace CppCommons
namespace Web

open Cxx
open MiddlewareChain

variable {world exn : Type}

abbrev VerifyFn (world exn : Type) := world -> Bytes -> world × Except exn Bool

def missingAuthorization : HttpResponse where
  statusCode := 401
  body := ascii "\x7b\"error\":\"missing or invalid Authorization header\"\x7d"

def verificationFailed : HttpResponse where
  statusCode := 401
  body := ascii "\x7b\"error\":\"token verification failed\"\x7d"

def authMiddleware (verify : VerifyFn world exn) : Middleware world exn :=
  fun w req =>
    match req.header (ascii "Authorization") with
    | none => .done w (.ok missingAuthorization)
    | some auth =>
        if auth.length < 8 ∨ auth.take 7 ≠ ascii "Bearer " then
          .done w (.ok missingAuthorization)
        else
          -- the size test keeps `substr(7)` within the string
          match verify w (auth.drop 7) with
          | (w', .ok true) => .call w' req .done
          | (w', .ok false) => .done w' (.ok verificationFailed)
          | (w', .error e) => .done w' (.error e)

/-- The request carries a bearer token that the verifier accepts. -/
def Authorized (verify : VerifyFn world exn) (w : world) (req : HttpRequest) : Prop :=
  exists token : Bytes,
    token ≠ [] ∧
      req.header (ascii "Authorization") = some (ascii "Bearer " ++ token) ∧
        (verify w token).snd = .ok true

theorem length_ascii_bearer : (ascii "Bearer ").length = 7 := by
  decide

theorem bearer_iff (auth : Bytes) :
    ¬ (auth.length < 8 ∨ auth.take 7 ≠ ascii "Bearer ") <->
      auth.drop 7 ≠ [] ∧ auth = ascii "Bearer " ++ auth.drop 7 := by
  have hsplit : auth.take 7 ++ auth.drop 7 = auth := List.take_append_drop 7 auth
  constructor
  · intro hpass
    push Not at hpass
    rcases hpass with ⟨hlength, hprefix⟩
    constructor
    · rw [ne_eq, List.drop_eq_nil_iff]
      lia
    · rw [← hprefix]
      exact hsplit.symm
  · rintro ⟨htoken, hauth⟩
    have hlength : 7 < auth.length := by
      rw [ne_eq, List.drop_eq_nil_iff] at htoken
      lia
    push Not
    constructor
    · exact hlength
    · rw [hauth, List.take_left' length_ascii_bearer]

theorem authorized_iff {verify : VerifyFn world exn} {w : world} {req : HttpRequest}
    {auth : Bytes} (hheader : req.header (ascii "Authorization") = some auth) :
    Authorized verify w req <->
      ¬ (auth.length < 8 ∨ auth.take 7 ≠ ascii "Bearer ") ∧
        (verify w (auth.drop 7)).snd = .ok true := by
  rw [bearer_iff]
  constructor
  · intro hauthorized
    rcases hauthorized with ⟨token, htoken, hauth, hok⟩
    have hvalue : auth = ascii "Bearer " ++ token :=
      Option.some.inj (hheader.symm.trans hauth)
    have hdrop : auth.drop 7 = token := by
      rw [hvalue, List.drop_left' length_ascii_bearer]
    rw [hdrop]
    exact ⟨⟨htoken, hvalue⟩, hok⟩
  · intro h
    rcases h with ⟨⟨htoken, hvalue⟩, hok⟩
    exact ⟨auth.drop 7, htoken, hheader.trans (congrArg some hvalue), hok⟩

theorem authMiddleware_cases (verify : VerifyFn world exn) (w : world) (req : HttpRequest) :
    (Authorized verify w req ∧ exists w', authMiddleware verify w req = .call w' req .done) ∨
      (¬ Authorized verify w req ∧
        exists w' outcome, authMiddleware verify w req = .done w' outcome) := by
  cases hheader : req.header (ascii "Authorization") with
  | none => simp [authMiddleware, Authorized, hheader]
  | some auth =>
      rw [authorized_iff hheader]
      simp only [authMiddleware, hheader]
      split
      next hfail => exact Or.inr ⟨fun h => h.left hfail, _, _, rfl⟩
      next hpass =>
        rcases hverify : verify w (auth.drop 7) with ⟨w', _ | _ | _⟩
        · exact Or.inr ⟨by simp, _, _, rfl⟩
        · exact Or.inr ⟨by simp, _, _, rfl⟩
        · exact Or.inl ⟨⟨hpass, rfl⟩, w', rfl⟩

/-!
## What the middleware guards

The middleware is a gate, so everything behind it runs inside an authorized invocation of it.
-/

def Invocation.Guarded (verify : VerifyFn world exn) (position : Nat)
    (inv : Invocation world) : Prop :=
  exists frame, frame ∈ inv.inside ∧ frame.stage = position ∧
    Authorized verify frame.entry frame.req

theorem authMiddleware_gates (verify : VerifyFn world exn) :
    Gates (authMiddleware verify) (Authorized verify) := by
  intro w req hnot
  rcases authMiddleware_cases verify w req with ⟨hauthorized, _⟩ | ⟨_, hdone⟩
  · exact absurd hauthorized hnot
  · exact hdone

/-- In one `dispatch` of a chain with the middleware, every later stage is invoked inside an
authorized invocation of it, and without one the final handler does not run. -/
theorem auth_guards (added : List (Middleware world exn)) (verify : VerifyFn world exn)
    (position : Nat) (hauth : added[position]? = some (authMiddleware verify))
    (finalHandler : StatefulHandler world exn) (w : world) (req : HttpRequest) :
    let chain := added.foldl use {}
    let invoked := chain.invocations w req finalHandler
    (chain.observeChain 0 finalHandler [] w req).result = chain.dispatch w req finalHandler ∧
    (forall inv, inv ∈ invoked -> position < inv.frame.stage -> inv.Guarded verify position) ∧
    ((forall inv, inv ∈ invoked -> inv.frame.stage = position ->
        ¬ Authorized verify inv.frame.entry inv.frame.req) ->
      forall inv, inv ∈ invoked -> inv.frame.stage ≠ chain.finalStage) := by
  intro chain invoked
  have hmiddlewares : chain.middlewares = added := middlewares_foldl_use {} added
  have hposition : chain.middlewares[position]? = some (authMiddleware verify) := by
    rw [hmiddlewares]
    exact hauth
  have hguarded : forall inv, inv ∈ invoked ->
      position < inv.frame.stage -> inv.Guarded verify position := by
    intro inv hinv hbehind
    exact behind_of_mem_observeChain (authMiddleware_gates verify) hposition
      (Nat.zero_le position) hinv hbehind
  refine ⟨observeChain_zero_result w req, hguarded, ?_⟩
  intro hnone inv hinv hfinal
  have hbehind : position < inv.frame.stage := by
    rw [hfinal]
    exact (List.getElem?_eq_some_iff.mp hposition).choose
  rcases hguarded inv hinv hbehind with ⟨frame, hframe, hstage, hauthorized⟩
  -- the enclosing frame is an invocation of the middleware in its own right
  rcases enclosing_invoked hinv hframe with hstart | ⟨outer, houter⟩
  · cases hstart
  · exact hnone _ houter hstage hauthorized

def secretOnly : VerifyFn Unit Unit :=
  fun w token => (w, .ok (decide (token = ascii "secret")))

def askTwice : Middleware Unit Unit :=
  fun w req => .call w req (fun w' _ => .call w' req .done)

def signedRequest : HttpRequest :=
  { headers := (∅ : StringMap Bytes).insert (ascii "Authorization") (ascii "Bearer secret") }

def greet : StatefulHandler Unit Unit :=
  fun w _ => (w, .ok (HttpResponse.ok (ascii "hello world")))

theorem signedRequest_guarded :
    let chain := [askTwice, authMiddleware secretOnly].foldl use {}
    let invoked := chain.invocations () signedRequest greet
    (exists inv, inv ∈ invoked ∧ inv.frame.stage = chain.finalStage) ∧
      forall inv, inv ∈ invoked -> 1 < inv.frame.stage -> inv.Guarded secretOnly 1 := by
  intro chain invoked
  have hforwarded : authMiddleware secretOnly () signedRequest = .call () signedRequest .done :=
    rfl
  constructor
  · refine ⟨⟨⟨2, (), signedRequest⟩, [⟨1, (), signedRequest⟩, ⟨0, (), signedRequest⟩]⟩, ?_, rfl⟩
    have hfirst : chain.middlewares[0]? = some askTwice := rfl
    have hsecond : chain.middlewares[1]? = some (authMiddleware secretOnly) := rfl
    simp only [invoked, MiddlewareChain.invocations]
    rw [observeChain_of_getElem? _ _ _ hfirst]
    simp only [askTwice, Script.observe]
    rw [observeChain_of_getElem? _ _ _ hsecond]
    simp only [hforwarded, Script.observe]
    rw [observeChain_of_length_le _ _ _ (Nat.le_refl 2)]
    simp
  · exact (auth_guards [askTwice, authMiddleware secretOnly] secretOnly 1 rfl greet ()
      signedRequest).right.left

end Web
end CppCommons
