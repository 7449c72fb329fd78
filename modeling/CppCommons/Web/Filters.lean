import CppCommons.Web.MiddlewareChain

/-!
# Filters

Most middlewares of the library do no more than look at a request, answer it
themselves or pass it on unchanged, and look at the answer.  `Filter` is the
middleware of that form.  In a chain of filters every stage is entered at most
once and sees the request that came in.  In any chain, what stands behind a gate
runs inside an invocation of the gate that let a request pass.
-/

namespace CppCommons
namespace Web

open MiddlewareChain

variable {world exn : Type}

/-- The stage and the request of an invocation. -/
def Invocation.visit (inv : Invocation world) : Nat × HttpRequest :=
  (inv.frame.stage, inv.frame.req)

/-- What a middleware does before it calls `next`: the state, and the answer if it never
calls. -/
def Script.entered : Script world exn -> world × Option (Except exn HttpResponse)
  | .done w outcome => (w, some outcome)
  | .call w _ _ => (w, none)

/-- The two parts of a filter: `enter` may answer the request, `leave` sees the state at
the beginning and the outcome of what follows. -/
structure Filter (world exn : Type) where
  enter : world -> HttpRequest -> world × Option (Except exn HttpResponse)
  leave : HttpRequest -> world -> world -> Except exn HttpResponse ->
    world × Except exn HttpResponse

namespace Filter

def middleware (f : Filter world exn) : Middleware world exn :=
  fun w req =>
    match f.enter w req with
    | (w', some answer) => .done w' answer
    | (w', none) =>
        .call w' req (fun w'' outcome =>
          .done (f.leave req w w'' outcome).fst (f.leave req w w'' outcome).snd)

def passed : List (Filter world exn) -> world -> HttpRequest -> Nat
  | [], _, _ => 0
  | f :: rest, w, req =>
      match f.enter w req with
      | (_, some _) => 0
      | (w', none) => passed rest w' req + 1

def respond (handler : StatefulHandler world exn) :
    List (Filter world exn) -> world -> HttpRequest -> world × Except exn HttpResponse
  | [], w, req => handler w req
  | f :: rest, w, req =>
      match f.enter w req with
      | (w', some answer) => (w', answer)
      | (w', none) =>
          let inner := respond handler rest w' req
          f.leave req w inner.fst inner.snd

theorem passed_cons_of_none {f : Filter world exn} {w : world} {req : HttpRequest}
    (h : (f.enter w req).snd = none) (rest : List (Filter world exn)) :
    passed (f :: rest) w req = passed rest (f.enter w req).fst req + 1 := by
  rw [passed]
  split
  · next henter =>
      rw [henter] at h
      cases h
  · next henter => rw [henter]

theorem passed_cons_of_some {f : Filter world exn} {w : world} {req : HttpRequest}
    {answer : Except exn HttpResponse} (h : (f.enter w req).snd = some answer)
    (rest : List (Filter world exn)) : passed (f :: rest) w req = 0 := by
  rw [passed]
  split
  · rfl
  · next henter =>
      rw [henter] at h
      cases h

theorem respond_cons_of_none {f : Filter world exn} {w : world} {req : HttpRequest}
    (h : (f.enter w req).snd = none) (handler : StatefulHandler world exn)
    (rest : List (Filter world exn)) :
    respond handler (f :: rest) w req =
      let inner := respond handler rest (f.enter w req).fst req
      f.leave req w inner.fst inner.snd := by
  rw [respond]
  split
  · next henter =>
      rw [henter] at h
      cases h
  · next henter => rw [henter]

theorem respond_cons_of_some {f : Filter world exn} {w : world} {req : HttpRequest}
    {answer : Except exn HttpResponse} (h : (f.enter w req).snd = some answer)
    (handler : StatefulHandler world exn) (rest : List (Filter world exn)) :
    respond handler (f :: rest) w req = ((f.enter w req).fst, answer) := by
  rw [respond]
  split
  · next henter =>
      rw [henter] at h
      cases h
      rw [henter]
  · next henter =>
      rw [henter] at h
      cases h

theorem respond_append (handler : StatefulHandler world exn) (front rest : List (Filter world exn))
    (w : world) (req : HttpRequest) :
    respond handler (front ++ rest) w req = respond (respond handler rest) front w req := by
  induction front generalizing w with
  | nil => rfl
  | cons f front ih =>
      rw [List.cons_append]
      cases henter : (f.enter w req).snd with
      | none => rw [respond_cons_of_none henter, respond_cons_of_none henter, ih]
      | some answer => rw [respond_cons_of_some henter, respond_cons_of_some henter]

theorem passed_le (filters : List (Filter world exn)) (w : world) (req : HttpRequest) :
    passed filters w req <= filters.length := by
  induction filters generalizing w with
  | nil => exact Nat.le_refl 0
  | cons f rest ih =>
      unfold passed
      split
      · exact Nat.zero_le _
      · exact Nat.succ_le_succ (ih _)

variable {chain : MiddlewareChain world exn} {filters : List (Filter world exn)}

theorem visits_observeChain (hchain : chain.middlewares = filters.map middleware)
    (handler : StatefulHandler world exn) (idx : Nat) (inside : List (Frame world)) (w : world)
    (req : HttpRequest) :
    ((chain.observeChain idx handler inside w req).invocations.map Invocation.visit) =
      (List.range' idx (passed (filters.drop idx) w req + 1)).map fun stage => (stage, req) := by
  induction idx using chain.stage_induction generalizing inside w with
  | hfinal idx h =>
      rw [observeChain_of_length_le inside w req h]
      rw [hchain, List.length_map] at h
      rw [List.drop_of_length_le h]
      rfl
  | hstage idx mw hmw ih =>
      rw [observeChain_of_getElem? inside w req hmw]
      rw [hchain, List.getElem?_map, Option.map_eq_some_iff] at hmw
      rcases hmw with ⟨f, hf, rfl⟩
      rcases List.getElem?_eq_some_iff.mp hf with ⟨hidx, hget⟩
      rw [List.drop_eq_getElem_cons hidx, hget]
      simp only [middleware, passed, List.map_cons]
      split
      · rfl
      · next w' henter =>
          simp only [Script.observe, List.append_nil, ih]
          rw [List.range'_succ, List.map_cons]
          rfl

theorem buildChain_eq_respond (hchain : chain.middlewares = filters.map middleware)
    (handler : StatefulHandler world exn) (idx : Nat) (w : world) (req : HttpRequest) :
    chain.buildChain idx handler w req = respond handler (filters.drop idx) w req := by
  induction idx using chain.stage_induction generalizing w with
  | hfinal idx h =>
      rw [buildChain_of_length_le chain handler h]
      rw [hchain, List.length_map] at h
      rw [List.drop_of_length_le h]
      rfl
  | hstage idx mw hmw ih =>
      rw [buildChain_of_getElem? chain handler hmw]
      rw [hchain, List.getElem?_map, Option.map_eq_some_iff] at hmw
      rcases hmw with ⟨f, hf, rfl⟩
      rcases List.getElem?_eq_some_iff.mp hf with ⟨hidx, hget⟩
      rw [List.drop_eq_getElem_cons hidx, hget]
      simp only [middleware, respond]
      split
      · rfl
      · simp only [Script.run, ih]

end Filter

/-!
## Gates

A gate answers every request that it does not accept.  The stages before it forward what they
like; the stages behind it see only what passed.
-/

/-- A request for which `ok` does not hold is answered without a call of `next`. -/
def Gates (mw : Middleware world exn) (ok : world -> HttpRequest -> Prop) : Prop :=
  forall w req, ¬ ok w req -> exists w' outcome, mw w req = .done w' outcome

def Invocation.Behind (ok : world -> HttpRequest -> Prop) (position : Nat)
    (inv : Invocation world) : Prop :=
  exists frame, frame ∈ inv.inside ∧ frame.stage = position ∧ ok frame.entry frame.req

theorem behind_of_mem_observeChain {chain : MiddlewareChain world exn}
    {finalHandler : StatefulHandler world exn} {mw : Middleware world exn}
    {ok : world -> HttpRequest -> Prop} (hgates : Gates mw ok) {position : Nat}
    (hposition : chain.middlewares[position]? = some mw)
    {idx : Nat} {inside : List (Frame world)} {w : world} {req : HttpRequest}
    {inv : Invocation world} (hidx : idx <= position)
    (hinv : inv ∈ (chain.observeChain idx finalHandler inside w req).invocations)
    (hbehind : position < inv.frame.stage) : inv.Behind ok position := by
  -- down the chain from `idx` to the gate; the stages before it only forward
  induction hdistance : position - idx generalizing idx inside w req with
  | zero =>
      have hhere : idx = position := by lia
      subst hhere
      rcases own_or_next_of_mem_observeChain hinv with hown | ⟨mw', hmw', hbody⟩
      · rw [hown] at hbehind
        exact absurd hbehind (Nat.lt_irrefl idx)
      · cases hposition.symm.trans hmw'
        by_cases hok : ok w req
        · rcases Script.exists_of_mem_observe hbody with ⟨w', req', hmem, _⟩
          exact ⟨⟨idx, w, req⟩, inside_subset_of_mem_observeChain hmem List.mem_cons_self, rfl, hok⟩
        · rcases hgates w req hok with ⟨w', outcome, hdone⟩
          rw [hdone] at hbody
          cases hbody
  | succ distance ih =>
      rcases own_or_next_of_mem_observeChain hinv with hown | ⟨mw', hmw', hbody⟩
      · rw [hown] at hbehind
        have hearlier : position < idx := hbehind
        lia
      · rcases Script.exists_of_mem_observe hbody with ⟨w', req', hmem, _⟩
        exact ih (by lia) hmem (by lia)

end Web
end CppCommons
