import CppCommons.Web.Http

/-!
# Middleware chain

`MiddlewareChain` composes middlewares around a final handler.  A middleware is
unknown code: it reads and writes a state it may share with the others, calls
its `next` as often as it likes and with any request, sees every answer or
exception, and returns or throws.  `Script` is that code, with one node for each
call of `next`.

The first part is the chain as the source computes it.  The second part runs
the same chain and records which stage is invoked inside which.
-/

namespace CppCommons
namespace Web

open Cxx

/-- A handler over a state that survives it. -/
abbrev StatefulHandler (world exn : Type) :=
  world -> HttpRequest -> world × Except exn HttpResponse

/-- The remaining code of one middleware invocation. -/
inductive Script (world exn : Type) where
  | done (w : world) (outcome : Except exn HttpResponse)
  | call (w : world) (req : HttpRequest)
      (resume : world -> Except exn HttpResponse -> Script world exn)

abbrev Middleware (world exn : Type) := world -> HttpRequest -> Script world exn

variable {world exn : Type}

def Script.run (next : StatefulHandler world exn) :
    Script world exn -> world × Except exn HttpResponse
  | .done w outcome => (w, outcome)
  | .call w req resume =>
      let answer := next w req
      (resume answer.fst answer.snd).run next

structure MiddlewareChain (world exn : Type) where
  middlewares : List (Middleware world exn) := []

namespace MiddlewareChain

def use (chain : MiddlewareChain world exn) (mw : Middleware world exn) :
    MiddlewareChain world exn :=
  { middlewares := chain.middlewares ++ [mw] }

def buildChain (chain : MiddlewareChain world exn) (idx : Nat)
    (finalHandler : StatefulHandler world exn) : StatefulHandler world exn :=
  if h : chain.middlewares.length <= idx then finalHandler
  else
    have hidx : idx < chain.middlewares.length := Nat.lt_of_not_le h
    let mw := chain.middlewares[idx]
    let next := chain.buildChain (idx + 1) finalHandler
    fun w req => (mw w req).run next
termination_by chain.middlewares.length - idx

def dispatch (chain : MiddlewareChain world exn) (w : world) (req : HttpRequest)
    (finalHandler : StatefulHandler world exn) : world × Except exn HttpResponse :=
  chain.buildChain 0 finalHandler w req

theorem middlewares_foldl_use (chain : MiddlewareChain world exn)
    (added : List (Middleware world exn)) :
    (added.foldl use chain).middlewares = chain.middlewares ++ added := by
  induction added generalizing chain with
  | nil => simp
  | cons mw added ih =>
      rw [List.foldl_cons, ih]
      simp [use]

theorem stage_induction (chain : MiddlewareChain world exn) {P : Nat -> Prop}
    (hfinal : forall idx, chain.middlewares.length <= idx -> P idx)
    (hstage : forall idx mw, chain.middlewares[idx]? = some mw -> P (idx + 1) -> P idx)
    (idx : Nat) : P idx := by
  induction hremaining : chain.middlewares.length - idx generalizing idx with
  | zero => exact hfinal idx (by lia)
  | succ remaining ih =>
      have hidx : idx < chain.middlewares.length := by lia
      exact hstage idx chain.middlewares[idx] (List.getElem?_eq_getElem hidx)
        (ih (idx + 1) (by lia))

theorem buildChain_of_length_le (chain : MiddlewareChain world exn) {idx : Nat}
    (finalHandler : StatefulHandler world exn) (h : chain.middlewares.length <= idx) :
    chain.buildChain idx finalHandler = finalHandler := by
  rw [buildChain, dif_pos h]

theorem buildChain_of_getElem? (chain : MiddlewareChain world exn) {idx : Nat}
    {mw : Middleware world exn} (finalHandler : StatefulHandler world exn)
    (hmw : chain.middlewares[idx]? = some mw) :
    chain.buildChain idx finalHandler =
      fun w req => (mw w req).run (chain.buildChain (idx + 1) finalHandler) := by
  rcases List.getElem?_eq_some_iff.mp hmw with ⟨hidx, hget⟩
  rw [buildChain, dif_neg (Nat.not_le_of_lt hidx)]
  simp only [hget]

end MiddlewareChain

/-!
## Invocations

A stage is a position in the chain; the final handler is the stage after the
last middleware.  An invocation carries the invocations that have not returned
when it starts, innermost first.
-/

structure Frame (world : Type) where
  stage : Nat
  entry : world
  req : HttpRequest

structure Invocation (world : Type) where
  frame : Frame world
  inside : List (Frame world)

/-- A result together with the invocations made on the way, in order. -/
structure Observed (world exn : Type) where
  result : world × Except exn HttpResponse
  invocations : List (Invocation world)

def Script.observe (next : world -> HttpRequest -> Observed world exn) :
    Script world exn -> Observed world exn
  | .done w outcome => { result := (w, outcome), invocations := [] }
  | .call w req resume =>
      let answer := next w req
      let rest := (resume answer.result.fst answer.result.snd).observe next
      { result := rest.result, invocations := answer.invocations ++ rest.invocations }

theorem Script.observe_result {next : world -> HttpRequest -> Observed world exn}
    {handler : StatefulHandler world exn}
    (hnext : forall w req, (next w req).result = handler w req) (script : Script world exn) :
    (script.observe next).result = script.run handler := by
  induction script with
  | done w outcome => rfl
  | call w req resume ih =>
      simp only [Script.observe, Script.run]
      rw [ih, hnext]

theorem Script.exists_of_mem_observe {next : world -> HttpRequest -> Observed world exn}
    {script : Script world exn} {inv : Invocation world}
    (hinv : inv ∈ (script.observe next).invocations) :
    exists w req, inv ∈ (next w req).invocations ∧
      (next w req).invocations ⊆ (script.observe next).invocations := by
  induction script with
  | done w outcome => simp [Script.observe] at hinv
  | call w req resume ih =>
      simp only [Script.observe] at hinv ⊢
      rcases List.mem_append.mp hinv with hfirst | hlater
      · exact ⟨w, req, hfirst, List.subset_append_left _ _⟩
      · rcases ih _ _ hlater with ⟨w', req', hmem, hsubset⟩
        exact ⟨w', req', hmem, List.subset_append_of_subset_right _ hsubset⟩

namespace MiddlewareChain

/-- `buildChain`, entered inside the given frames. -/
def observeChain (chain : MiddlewareChain world exn) (idx : Nat)
    (finalHandler : StatefulHandler world exn) (inside : List (Frame world))
    (w : world) (req : HttpRequest) : Observed world exn :=
  let frame : Frame world := { stage := idx, entry := w, req := req }
  if h : chain.middlewares.length <= idx then
    { result := finalHandler w req, invocations := [{ frame := frame, inside := inside }] }
  else
    have hidx : idx < chain.middlewares.length := Nat.lt_of_not_le h
    let mw := chain.middlewares[idx]
    let body := (mw w req).observe
      (chain.observeChain (idx + 1) finalHandler (frame :: inside))
    { result := body.result
      invocations := { frame := frame, inside := inside } :: body.invocations }
termination_by chain.middlewares.length - idx

def invocations (chain : MiddlewareChain world exn) (w : world) (req : HttpRequest)
    (finalHandler : StatefulHandler world exn) : List (Invocation world) :=
  (chain.observeChain 0 finalHandler [] w req).invocations

def finalStage (chain : MiddlewareChain world exn) : Nat :=
  chain.middlewares.length

variable {chain : MiddlewareChain world exn} {finalHandler : StatefulHandler world exn}

theorem observeChain_of_length_le {idx : Nat} (inside : List (Frame world)) (w : world)
    (req : HttpRequest) (h : chain.middlewares.length <= idx) :
    chain.observeChain idx finalHandler inside w req =
      { result := finalHandler w req, invocations := [⟨⟨idx, w, req⟩, inside⟩] } := by
  rw [observeChain, dif_pos h]

theorem observeChain_of_getElem? {idx : Nat} {mw : Middleware world exn}
    (inside : List (Frame world)) (w : world) (req : HttpRequest)
    (hmw : chain.middlewares[idx]? = some mw) :
    chain.observeChain idx finalHandler inside w req =
      let body := (mw w req).observe
        (chain.observeChain (idx + 1) finalHandler (⟨idx, w, req⟩ :: inside))
      { result := body.result, invocations := ⟨⟨idx, w, req⟩, inside⟩ :: body.invocations } := by
  rcases List.getElem?_eq_some_iff.mp hmw with ⟨hidx, hget⟩
  rw [observeChain, dif_neg (Nat.not_le_of_lt hidx)]
  simp only [hget]

theorem observeChain_result (idx : Nat) (inside : List (Frame world)) (w : world)
    (req : HttpRequest) :
    (chain.observeChain idx finalHandler inside w req).result =
      chain.buildChain idx finalHandler w req := by
  induction idx using chain.stage_induction generalizing inside w req with
  | hfinal idx h => rw [observeChain_of_length_le inside w req h, buildChain_of_length_le _ _ h]
  | hstage idx mw hmw ih =>
      rw [observeChain_of_getElem? inside w req hmw, buildChain_of_getElem? _ _ hmw]
      exact Script.observe_result (ih _) (mw w req)

theorem observeChain_zero_result (w : world) (req : HttpRequest) :
    (chain.observeChain 0 finalHandler [] w req).result = chain.dispatch w req finalHandler :=
  observeChain_result 0 [] w req

theorem own_or_next_of_mem_observeChain {idx : Nat} {inside : List (Frame world)} {w : world}
    {req : HttpRequest} {inv : Invocation world}
    (hinv : inv ∈ (chain.observeChain idx finalHandler inside w req).invocations) :
    inv = ⟨⟨idx, w, req⟩, inside⟩ ∨
      exists mw, chain.middlewares[idx]? = some mw ∧
        inv ∈ ((mw w req).observe
          (chain.observeChain (idx + 1) finalHandler (⟨idx, w, req⟩ :: inside))).invocations := by
  rcases Nat.lt_or_ge idx chain.middlewares.length with hidx | hidx
  · have hmw := List.getElem?_eq_getElem hidx
    rw [observeChain_of_getElem? inside w req hmw] at hinv
    rcases List.mem_cons.mp hinv with hown | hbody
    · exact Or.inl hown
    · exact Or.inr ⟨_, hmw, hbody⟩
  · rw [observeChain_of_length_le inside w req hidx] at hinv
    exact Or.inl (List.mem_singleton.mp hinv)

theorem own_mem_observeChain (idx : Nat) (inside : List (Frame world)) (w : world)
    (req : HttpRequest) :
    ⟨⟨idx, w, req⟩, inside⟩ ∈ (chain.observeChain idx finalHandler inside w req).invocations := by
  rcases Nat.lt_or_ge idx chain.middlewares.length with hidx | hidx
  · rw [observeChain_of_getElem? inside w req (List.getElem?_eq_getElem hidx)]
    exact List.mem_cons_self
  · rw [observeChain_of_length_le inside w req hidx]
    exact List.mem_cons_self

theorem inside_subset_of_mem_observeChain {idx : Nat} {inside : List (Frame world)} {w : world}
    {req : HttpRequest} {inv : Invocation world}
    (hinv : inv ∈ (chain.observeChain idx finalHandler inside w req).invocations) :
    inside ⊆ inv.inside := by
  induction idx using chain.stage_induction generalizing inside w req with
  | hfinal idx h =>
      rw [observeChain_of_length_le inside w req h] at hinv
      rw [List.mem_singleton.mp hinv]
      exact List.Subset.refl _
  | hstage idx mw hmw ih =>
      rcases own_or_next_of_mem_observeChain hinv with rfl | ⟨mw', _, hbody⟩
      · exact List.Subset.refl _
      · rcases Script.exists_of_mem_observe hbody with ⟨w', req', hmem, _⟩
        exact List.Subset.trans (List.subset_cons_self _ _) (ih hmem)

theorem enclosing_invoked {idx : Nat} {inside : List (Frame world)} {w : world}
    {req : HttpRequest} {inv : Invocation world} {frame : Frame world}
    (hinv : inv ∈ (chain.observeChain idx finalHandler inside w req).invocations)
    (hframe : frame ∈ inv.inside) :
    frame ∈ inside ∨
      exists outer, ⟨frame, outer⟩ ∈
        (chain.observeChain idx finalHandler inside w req).invocations := by
  induction idx using chain.stage_induction generalizing inside w req with
  | hfinal idx h =>
      rw [observeChain_of_length_le inside w req h] at hinv
      rw [List.mem_singleton.mp hinv] at hframe
      exact Or.inl hframe
  | hstage idx mw hmw ih =>
      rcases own_or_next_of_mem_observeChain hinv with rfl | ⟨mw', hmw', hbody⟩
      · exact Or.inl hframe
      · rcases Script.exists_of_mem_observe hbody with ⟨w', req', hmem, hsubset⟩
        rcases ih hmem with hmember | ⟨outer, houter⟩
        · rcases List.mem_cons.mp hmember with rfl | hearlier
          · exact Or.inr ⟨inside, own_mem_observeChain idx inside w req⟩
          · exact Or.inl hearlier
        · rw [observeChain_of_getElem? inside w req hmw']
          exact Or.inr ⟨outer, List.mem_cons_of_mem _ (hsubset houter)⟩

end MiddlewareChain

end Web
end CppCommons
