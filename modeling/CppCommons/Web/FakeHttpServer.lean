import CppCommons.Cxx.Format
import CppCommons.Web.MiddlewareChain

/-!
# In-memory server

`FakeHttpServer` keeps one chain of middlewares for all its routes, and the
handlers in a map whose key is the number of the method and the path in one
string.  The second part is the server as its users think of it: one handler for
each method and path, inside the middlewares.  A request without a route is
answered before any middleware sees it.
-/

namespace CppCommons
namespace Web

open Cxx
open MiddlewareChain

variable {world exn : Type}

def HttpMethod.toInt : HttpMethod -> Int
  | .get => 0
  | .post => 1
  | .put => 2
  | .patch => 3
  | .delete => 4
  | .head => 5
  | .options => 6

structure FakeHttpServer (world exn : Type) where
  chain : MiddlewareChain world exn := {}
  routes : StringMap (StatefulHandler world exn) := ∅

def routeNotFound : HttpResponse where
  statusCode := 404
  body := ascii "Not Found"

namespace FakeHttpServer

def key (m : HttpMethod) (path : Bytes) : Bytes :=
  decimal m.toInt ++ 58 :: path

def use (server : FakeHttpServer world exn) (mw : Middleware world exn) :
    FakeHttpServer world exn :=
  { server with chain := server.chain.use mw }

def route (server : FakeHttpServer world exn) (method : HttpMethod) (path : Bytes)
    (handler : StatefulHandler world exn) : FakeHttpServer world exn :=
  { server with routes := server.routes.insert (key method path) handler }

def dispatch (server : FakeHttpServer world exn) (w : world) (req : HttpRequest) :
    world × Except exn HttpResponse :=
  match server.routes.lookup (key req.method req.path) with
  | none => (w, .ok routeNotFound)
  | some handler => server.chain.dispatch w req handler

def get (server : FakeHttpServer world exn) (w : world) (path : Bytes)
    (hdrs : StringMap Bytes := ∅) : world × Except exn HttpResponse :=
  server.dispatch w { method := .get, path := path, headers := hdrs }

def post (server : FakeHttpServer world exn) (w : world) (path body : Bytes)
    (hdrs : StringMap Bytes := ∅) : world × Except exn HttpResponse :=
  server.dispatch w { method := .post, path := path, headers := hdrs, body := body }

end FakeHttpServer

/-!
## Sessions

A session is a list of calls on the server.  Its outcomes are those of the requests
among them, with the state they leave.
-/

/-- A call of a member function of the server. -/
inductive ServerCall (world exn : Type) where
  | use (mw : Middleware world exn)
  | route (method : HttpMethod) (path : Bytes) (handler : StatefulHandler world exn)
  | dispatch (req : HttpRequest)
  | get (path : Bytes) (hdrs : StringMap Bytes)
  | post (path body : Bytes) (hdrs : StringMap Bytes)

namespace FakeHttpServer

/-- The outcomes of the requests among the calls, in order, and the state they leave. -/
def session : FakeHttpServer world exn -> world -> List (ServerCall world exn) ->
    world × List (Except exn HttpResponse)
  | _, w, [] => (w, [])
  | server, w, .use mw :: rest => (server.use mw).session w rest
  | server, w, .route method path handler :: rest =>
      (server.route method path handler).session w rest
  | server, w, .dispatch req :: rest =>
      let answer := server.dispatch w req
      let later := server.session answer.fst rest
      (later.fst, answer.snd :: later.snd)
  | server, w, .get path hdrs :: rest =>
      let answer := server.get w path hdrs
      let later := server.session answer.fst rest
      (later.fst, answer.snd :: later.snd)
  | server, w, .post path body hdrs :: rest =>
      let answer := server.post w path body hdrs
      let later := server.session answer.fst rest
      (later.fst, answer.snd :: later.snd)

end FakeHttpServer

/-!
## The site

One handler for each method and path, and the middlewares around all of them.
-/

/-- One handler for each method and path, and the middlewares around all of them. -/
structure Site (world exn : Type) where
  around : List (Middleware world exn)
  handlerFor : HttpMethod × Bytes -> Option (StatefulHandler world exn)

namespace Site

def wrap (around : List (Middleware world exn)) (handler : StatefulHandler world exn) :
    StatefulHandler world exn :=
  around.foldr (fun mw next w req => (mw w req).run next) handler

def answer (site : Site world exn) (w : world) (req : HttpRequest) :
    world × Except exn HttpResponse :=
  ((site.handlerFor (req.method, req.path)).map fun handler => wrap site.around handler w req).getD
    (w, .ok routeNotFound)

def change (site : Site world exn) : ServerCall world exn -> Site world exn
  | .use mw => { site with around := site.around ++ [mw] }
  | .route method path handler =>
      { site with handlerFor := Function.update site.handlerFor (method, path) (some handler) }
  | _ => site

end Site

def ServerCall.request? : ServerCall world exn -> Option HttpRequest
  | .dispatch req => some req
  | .get path hdrs => some { method := .get, path := path, headers := hdrs }
  | .post path body hdrs => some { method := .post, path := path, headers := hdrs, body := body }
  | _ => none

namespace Site

def session : Site world exn -> world -> List (ServerCall world exn) ->
    world × List (Except exn HttpResponse)
  | _, w, [] => (w, [])
  | site, w, call :: rest =>
      match call.request? with
      | none => (site.change call).session w rest
      | some req =>
          let answer := site.answer w req
          let later := site.session answer.fst rest
          (later.fst, answer.snd :: later.snd)

end Site

/-!
## The server is the site

The number of a method has one digit and a colon behind it, so a key determines
method and path; the lookups of the server and of the site agree.
-/

namespace FakeHttpServer

theorem decimal_toInt (m : HttpMethod) : exists digit, decimal m.toInt = [digit] := by
  cases m <;> exact ⟨_, rfl⟩

theorem decimal_toInt_injective {m m' : HttpMethod} (h : decimal m.toInt = decimal m'.toInt) :
    m = m' := by
  cases m <;> cases m' <;> first | rfl | exact absurd h (by decide)

theorem key_injective {m m' : HttpMethod} {path path' : Bytes} (h : key m path = key m' path') :
    (m, path) = (m', path') := by
  rcases decimal_toInt m with ⟨digit, hdigit⟩
  rcases decimal_toInt m' with ⟨digit', hdigit'⟩
  rw [key, key, hdigit, hdigit'] at h
  injection h with hhead htail
  injection htail with _ hpath
  rw [hhead, ← hdigit'] at hdigit
  rw [decimal_toInt_injective hdigit, hpath]

def site (server : FakeHttpServer world exn) : Site world exn where
  around := server.chain.middlewares
  handlerFor place := server.routes.lookup (key place.fst place.snd)

theorem site_empty : ({} : FakeHttpServer world exn).site = ⟨[], fun _ => none⟩ := by
  rfl

theorem site_route (server : FakeHttpServer world exn) (method : HttpMethod) (path : Bytes)
    (handler : StatefulHandler world exn) :
    (server.route method path handler).site =
      server.site.change (.route method path handler) := by
  simp only [site, route, Site.change]
  congr 1
  funext place
  by_cases hhere : place = (method, path)
  · subst hhere
    rw [Function.update_self, Finmap.lookup_insert]
  · have hkey : key place.fst place.snd ≠ key method path := fun h => hhere (key_injective h)
    rw [Function.update_of_ne hhere, Finmap.lookup_insert_of_ne _ hkey]

theorem buildChain_eq_wrap (chain : MiddlewareChain world exn)
    (handler : StatefulHandler world exn) (idx : Nat) :
    chain.buildChain idx handler = Site.wrap (chain.middlewares.drop idx) handler := by
  induction idx using chain.stage_induction with
  | hfinal idx h =>
      rw [buildChain_of_length_le chain handler h, List.drop_of_length_le h]
      rfl
  | hstage idx mw hmw ih =>
      rcases List.getElem?_eq_some_iff.mp hmw with ⟨hidx, hget⟩
      rw [buildChain_of_getElem? chain handler hmw, ih, List.drop_eq_getElem_cons hidx, hget]
      rfl

theorem dispatch_eq_answer (server : FakeHttpServer world exn) (w : world) (req : HttpRequest) :
    server.dispatch w req = server.site.answer w req := by
  simp only [dispatch, Site.answer, site]
  cases server.routes.lookup (key req.method req.path) with
  | none => rfl
  | some handler =>
      simp only [MiddlewareChain.dispatch, Option.map_some, Option.getD_some]
      rw [buildChain_eq_wrap, List.drop_zero]

theorem session_eq_site (server : FakeHttpServer world exn) (w : world)
    (calls : List (ServerCall world exn)) :
    server.session w calls = server.site.session w calls := by
  induction calls generalizing server w with
  | nil => rfl
  | cons call rest ih =>
      cases call with
      | use mw => exact ih (server.use mw) w
      | route method path handler =>
          rw [session, Site.session, ih, site_route]
          rfl
      | dispatch req =>
          simp only [session, Site.session, ServerCall.request?, ih, dispatch_eq_answer]
      | get path hdrs =>
          simp only [session, Site.session, ServerCall.request?, get, ih, dispatch_eq_answer]
      | post path body hdrs =>
          simp only [session, Site.session, ServerCall.request?, post, ih, dispatch_eq_answer]

/-- Registrations and requests in any order give what the site gives that starts empty:
a route is found by its method and path alone, a later handler replaces an earlier one, and
every middleware used so far surrounds every route, also those registered before it. -/
theorem server_refines_site (w : world) (calls : List (ServerCall world exn)) :
    ({} : FakeHttpServer world exn).session w calls =
      (⟨[], fun _ => none⟩ : Site world exn).session w calls := by
  rw [session_eq_site, site_empty]

end FakeHttpServer

end Web
end CppCommons
