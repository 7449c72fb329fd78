import CppCommons.Application.OutboxDelivery
import CppCommons.Foundation.Placement

/-!
# The outbox shared by several threads

Threads interleave at the steps the mutex makes atomic and at the single calls
of publishers.  A thread that is not inside `flush` may store or start a flush;
inside a publisher it may store.  The entries a flush has swapped out belong to
its thread until their publisher is called.  The lists `stored` and `published`
record in order what was appended and on which events publishers were invoked.
-/

namespace CppCommons
namespace Application

open Foundation.LabelledRun
open Foundation.Placement

inductive FlushPhase (type payload : Type) where
  | idle
  | publishing (batch : List (Entry type (Stored payload)))
  | inPublisher (entry : Entry type (Stored payload))
      (rest : List (Entry type (Stored payload)))

inductive ThreadAction (thread type payload : Type) where
  | store (th : thread) (t : type) (value : payload)
  | swap (th : thread)
  | publish (th : thread)
  | publisherReturns (th : thread)
  | publisherThrows (th : thread)
  | finish (th : thread)
deriving DecidableEq

structure SharedOutbox (thread type payload bus exn : Type) where
  publisher : OutboxPublisher type (Stored payload) bus exn
  phase : thread -> FlushPhase type payload
  nextId : Nat
  stored : List (Entry type (Stored payload))
  published : List (Entry type (Stored payload))

namespace FlushPhase

variable {type payload : Type}

def batch : FlushPhase type payload -> List (Entry type (Stored payload))
  | idle => []
  | publishing entries => entries
  | inPublisher _ rest => rest

end FlushPhase

namespace SharedOutbox

variable {thread type payload bus exn : Type}

def start (publishers : type -> Option (PublishFn bus (Stored payload) exn)) :
    SharedOutbox thread type payload bus exn :=
  { publisher := { outbox := [], publishers := publishers }
    phase := fun _ => .idle
    nextId := 0
    stored := []
    published := [] }

def afterStore (w : SharedOutbox thread type payload bus exn) (t : type) (value : payload) :
    SharedOutbox thread type payload bus exn :=
  { w with
    publisher := w.publisher.store t { id := w.nextId, value := value }
    nextId := w.nextId + 1
    stored := w.stored ++ [{ type := t, event := { id := w.nextId, value := value } }] }

variable [DecidableEq thread]

def withPhase (w : SharedOutbox thread type payload bus exn) (th : thread)
    (ph : FlushPhase type payload) : SharedOutbox thread type payload bus exn :=
  { w with phase := Function.update w.phase th ph }

def afterSwap (w : SharedOutbox thread type payload bus exn) (th : thread) :
    SharedOutbox thread type payload bus exn :=
  { w.withPhase th (.publishing w.publisher.swapOut.fst) with
    publisher := w.publisher.swapOut.snd }

def afterInvoke (w : SharedOutbox thread type payload bus exn) (th : thread)
    (entry : Entry type (Stored payload)) (rest : List (Entry type (Stored payload))) :
    SharedOutbox thread type payload bus exn :=
  { w.withPhase th (.inPublisher entry rest) with published := w.published ++ [entry] }

def step (w : SharedOutbox thread type payload bus exn) :
    ThreadAction thread type payload -> Option (SharedOutbox thread type payload bus exn)
  | .store th t value =>
      match w.phase th with
      | .publishing _ => none
      | _ => some (w.afterStore t value)
  | .swap th =>
      match w.phase th with
      | .idle => some (w.afterSwap th)
      | _ => none
  | .publish th =>
      match w.phase th with
      | .publishing (entry :: rest) =>
          match w.publisher.publishers entry.type with
          | none => some (w.withPhase th (.publishing rest))
          | some _ => some (w.afterInvoke th entry rest)
      | _ => none
  | .publisherReturns th =>
      match w.phase th with
      | .inPublisher _ rest => some (w.withPhase th (.publishing rest))
      | _ => none
  | .publisherThrows th =>
      match w.phase th with
      | .inPublisher _ _ => some (w.withPhase th .idle)
      | _ => none
  | .finish th =>
      match w.phase th with
      | .publishing [] => some (w.withPhase th .idle)
      | _ => none

inductive Stepped (w : SharedOutbox thread type payload bus exn) :
    ThreadAction thread type payload -> SharedOutbox thread type payload bus exn -> Prop where
  | store (th : thread) (t : type) (value : payload) :
      Stepped w (.store th t value) (w.afterStore t value)
  | swap {th : thread} : w.phase th = .idle -> Stepped w (.swap th) (w.afterSwap th)
  | skip {th : thread} {entry : Entry type (Stored payload)}
      {rest : List (Entry type (Stored payload))} :
      w.phase th = .publishing (entry :: rest) ->
      w.publisher.publishers entry.type = none ->
      Stepped w (.publish th) (w.withPhase th (.publishing rest))
  | invoke {th : thread} {entry : Entry type (Stored payload)}
      {rest : List (Entry type (Stored payload))} :
      w.phase th = .publishing (entry :: rest) ->
      Stepped w (.publish th) (w.afterInvoke th entry rest)
  | returns {th : thread} {entry : Entry type (Stored payload)}
      {rest : List (Entry type (Stored payload))} :
      w.phase th = .inPublisher entry rest ->
      Stepped w (.publisherReturns th) (w.withPhase th (.publishing rest))
  | throws {th : thread} {entry : Entry type (Stored payload)}
      {rest : List (Entry type (Stored payload))} :
      w.phase th = .inPublisher entry rest ->
      Stepped w (.publisherThrows th) (w.withPhase th .idle)
  | finish {th : thread} :
      w.phase th = .publishing [] -> Stepped w (.finish th) (w.withPhase th .idle)

theorem stepped_of_step {w v : SharedOutbox thread type payload bus exn}
    {a : ThreadAction thread type payload} (h : step w a = some v) : Stepped w a v := by
  -- Each action is split along the branches of its own match; a branch that
  -- refuses the action leaves `none = some v`.
  cases a with
  | store th t value =>
      simp only [step] at h
      split at h
      · cases h
      · cases h
        exact Stepped.store th t value
  | swap th =>
      simp only [step] at h
      split at h
      · next hph =>
          cases h
          exact Stepped.swap hph
      · cases h
  | publish th =>
      simp only [step] at h
      split at h
      · next entry rest hph =>
          cases hfn : w.publisher.publishers entry.type with
          | none =>
              simp only [hfn] at h
              cases h
              exact Stepped.skip hph hfn
          | some fn =>
              simp only [hfn] at h
              cases h
              exact Stepped.invoke hph
      · cases h
  | publisherReturns th =>
      simp only [step] at h
      split at h
      · next entry rest hph =>
          cases h
          exact Stepped.returns hph
      · cases h
  | publisherThrows th =>
      simp only [step] at h
      split at h
      · next entry rest hph =>
          cases h
          exact Stepped.throws hph
      · cases h
  | finish th =>
      simp only [step] at h
      split at h
      · next hph =>
          cases h
          exact Stepped.finish hph
      · cases h

/-!
## A flush that is not interrupted

A thread that takes all its steps in a row does to the outbox what `flush`
does, and publishes the events on which `flush` calls a publisher.
-/

def publishSteps (publishers : type -> Option (PublishFn bus (Stored payload) exn))
    (th : thread) :
    List (Entry type (Stored payload)) -> bus -> List (ThreadAction thread type payload)
  | [], _ => [.finish th]
  | entry :: rest, b =>
      match publishers entry.type with
      | none => .publish th :: publishSteps publishers th rest b
      | some fn =>
          match fn b entry.event with
          | (b', .ok ()) =>
              .publish th :: .publisherReturns th :: publishSteps publishers th rest b'
          | (_, .error _) => [.publish th, .publisherThrows th]

theorem run_publishSteps {w : SharedOutbox thread type payload bus exn} {th : thread}
    {entries : List (Entry type (Stored payload))} (hphase : w.phase th = .publishing entries)
    (b : bus) :
    run step w (publishSteps w.publisher.publishers th entries b) =
      some { w.withPhase th .idle with
        published := w.published ++
          (OutboxPublisher.publishLoop w.publisher.publishers entries b).calls.map Prod.fst } := by
  induction entries generalizing w b with
  | nil =>
      simp only [publishSteps, run_singleton, step, hphase, OutboxPublisher.publishLoop,
        List.map_nil, List.append_nil]
      rfl
  | cons entry rest ih =>
      cases hfn : w.publisher.publishers entry.type with
      | none =>
          have hstep : step w (.publish th) = some (w.withPhase th (.publishing rest)) := by
            simp only [step, hphase, hfn]
          have hrest := ih (w := w.withPhase th (.publishing rest))
            (by simp [withPhase]) b
          simp only [publishSteps, OutboxPublisher.publishLoop, hfn]
          rw [run_cons_of_step hstep]
          simpa [withPhase] using hrest
      | some fn =>
          have hstep : step w (.publish th) = some (w.afterInvoke th entry rest) := by
            simp only [step, hphase, hfn]
          have hinside : (w.afterInvoke th entry rest).phase th = .inPublisher entry rest := by
            simp [afterInvoke, withPhase]
          cases hcall : fn b entry.event with
          | mk b' result =>
              cases result with
              | ok value =>
                  have hreturn : step (w.afterInvoke th entry rest) (.publisherReturns th) =
                      some ((w.afterInvoke th entry rest).withPhase th (.publishing rest)) := by
                    simp only [step, hinside]
                  have hrest := ih
                    (w := (w.afterInvoke th entry rest).withPhase th (.publishing rest))
                    (by simp [withPhase]) b'
                  simp only [publishSteps, OutboxPublisher.publishLoop, hfn, hcall]
                  rw [run_cons_of_step hstep, run_cons_of_step hreturn]
                  simpa [afterInvoke, withPhase] using hrest
              | error e =>
                  have hthrow : step (w.afterInvoke th entry rest) (.publisherThrows th) =
                      some ((w.afterInvoke th entry rest).withPhase th .idle) := by
                    simp only [step, hinside]
                  simp only [publishSteps, OutboxPublisher.publishLoop, hfn, hcall]
                  rw [run_cons_of_step hstep, run_cons_of_step hthrow]
                  simp [afterInvoke, withPhase]

theorem run_flush {w : SharedOutbox thread type payload bus exn} {th : thread}
    (hphase : w.phase th = .idle) (b : bus) :
    run step w (.swap th :: publishSteps w.publisher.publishers th w.publisher.outbox b) =
      some { w with
        publisher := (w.publisher.flush b).fst
        published := w.published ++ (w.publisher.flush b).snd.calls.map Prod.fst } := by
  have hstep : step w (.swap th) = some (w.afterSwap th) := by
    simp only [step, hphase]
  have hswapped : (w.afterSwap th).phase th = .publishing w.publisher.outbox := by
    simp [afterSwap, withPhase, OutboxPublisher.swapOut]
  have hloop := run_publishSteps hswapped b
  have hkeep : Function.update w.phase th .idle = w.phase := by
    rw [← hphase]
    exact Function.update_eq_self th w.phase
  rw [run_cons_of_step hstep]
  simpa [afterSwap, withPhase, OutboxPublisher.swapOut, OutboxPublisher.flush, hkeep] using hloop

/-!
## Accounting

The outbox, the batch of each thread and the published list are places; storing
puts a new entry into the outbox, a swap carries the outbox to a batch, and a
publisher call carries the head of a batch to the published list.
-/

inductive Place (thread : Type) where
  | outbox
  | batch (th : thread)
  | published
deriving DecidableEq

omit [DecidableEq thread] in
def contents (w : SharedOutbox thread type payload bus exn) :
    Place thread -> List (Entry type (Stored payload))
  | .outbox => w.publisher.outbox
  | .batch th => (w.phase th).batch
  | .published => w.published

theorem contents_afterStore (w : SharedOutbox thread type payload bus exn) (t : type)
    (value : payload) :
    contents (w.afterStore t value) =
      deposit (contents w) .outbox
        { type := t, event := { id := w.nextId, value := value } } := by
  funext p
  cases p with
  | outbox => rfl
  | batch th => simp [contents, deposit, afterStore]
  | published => simp [contents, deposit, afterStore]

theorem contents_afterSwap {w : SharedOutbox thread type payload bus exn} {th : thread}
    (h : w.phase th = .idle) :
    contents (w.afterSwap th) =
      transfer (contents w) .outbox (.batch th) w.publisher.outbox [] := by
  funext p
  cases p with
  | outbox =>
      rw [transfer_source _ (by simp)]
      rfl
  | batch th' =>
      by_cases hth : th' = th
      · subst hth
        rw [transfer_target]
        simp [contents, afterSwap, withPhase, h, FlushPhase.batch, OutboxPublisher.swapOut]
      · rw [transfer_other _ _ _ (by simp) (by simp [hth])]
        simp [contents, afterSwap, withPhase, hth]
  | published =>
      rw [transfer_other _ _ _ (by simp) (by simp)]
      rfl

theorem contents_afterInvoke {w : SharedOutbox thread type payload bus exn} {th : thread}
    (entry : Entry type (Stored payload)) (rest : List (Entry type (Stored payload))) :
    contents (w.afterInvoke th entry rest) =
      transfer (contents w) (.batch th) .published [entry] rest := by
  funext p
  cases p with
  | outbox =>
      rw [transfer_other _ _ _ (by simp) (by simp)]
      rfl
  | batch th' =>
      by_cases hth : th' = th
      · subst hth
        rw [transfer_source _ (by simp)]
        simp [contents, afterInvoke, withPhase, FlushPhase.batch]
      · rw [transfer_other _ _ _ (by simp [hth]) (by simp)]
        simp [contents, afterInvoke, withPhase, hth]
  | published =>
      rw [transfer_target]
      rfl

theorem contents_withPhase {w : SharedOutbox thread type payload bus exn} {th : thread}
    {ph : FlushPhase type payload} (h : ph.batch = (w.phase th).batch) :
    contents (w.withPhase th ph) = contents w := by
  funext p
  cases p with
  | outbox => rfl
  | batch th' =>
      by_cases hth : th' = th
      · subst hth
        simp [contents, withPhase, h]
      · simp [contents, withPhase, hth]
  | published => rfl

omit [DecidableEq thread] in
structure Ledger (w : SharedOutbox thread type payload bus exn) : Prop where
  registered : forall t, w.publisher.Registered t
  separated : Separated (contents w)
  accounted : forall x, Holds (contents w) x <-> x ∈ w.stored
  storedNodup : w.stored.Nodup
  storedBelow : forall x, x ∈ w.stored -> x.event.id < w.nextId

omit [DecidableEq thread] in
theorem ledger_start {publishers : type -> Option (PublishFn bus (Stored payload) exn)}
    (h : forall t, (publishers t).isSome = true) :
    Ledger (start publishers : SharedOutbox thread type payload bus exn) := by
  have hempty : forall p, contents
      (start publishers : SharedOutbox thread type payload bus exn) p = [] := by
    intro p
    cases p <;> rfl
  constructor
  · exact h
  · constructor
    · intro p
      rw [hempty p]
      exact List.nodup_nil
    · intro p q x _hpq hx
      rw [hempty p] at hx
      cases hx
  · intro x
    constructor
    · rintro ⟨p, hx⟩
      rw [hempty p] at hx
      cases hx
    · intro hx
      cases hx
  · exact List.nodup_nil
  · intro x hx
    cases hx

theorem ledger_afterStore {w : SharedOutbox thread type payload bus exn} (h : Ledger w)
    (t : type) (value : payload) : Ledger (w.afterStore t value) := by
  have hnew : forall x : Entry type (Stored payload), x ∈ w.stored ->
      x ≠ { type := t, event := { id := w.nextId, value := value } } := by
    intro x hx heq
    have hlt := h.storedBelow x hx
    rw [heq] at hlt
    exact Nat.lt_irrefl _ hlt
  constructor
  · exact h.registered
  · rw [contents_afterStore]
    apply separated_deposit h.separated
    intro hholds
    exact hnew _ ((h.accounted _).mp hholds) rfl
  · intro x
    rw [contents_afterStore, holds_deposit_iff, h.accounted x]
    unfold afterStore
    rw [List.mem_append, List.mem_singleton]
  · refine List.nodup_append.mpr ⟨h.storedNodup, List.nodup_singleton _, ?_⟩
    intro x hx y hy
    rw [List.mem_singleton.mp hy]
    exact hnew x hx
  · intro x hx
    rcases List.mem_append.mp hx with hold | hadded
    · exact Nat.lt_succ_of_lt (h.storedBelow x hold)
    · rw [List.mem_singleton.mp hadded]
      exact Nat.lt_succ_self w.nextId

omit [DecidableEq thread] in
theorem ledger_of_moved {w v : SharedOutbox thread type payload bus exn} (h : Ledger w)
    (hpublishers : v.publisher.publishers = w.publisher.publishers)
    (hstored : v.stored = w.stored) (hnext : v.nextId = w.nextId)
    (hseparated : Separated (contents v))
    (hholds : forall x, Holds (contents v) x <-> Holds (contents w) x) : Ledger v := by
  constructor
  · intro t
    unfold OutboxPublisher.Registered
    rw [hpublishers]
    exact h.registered t
  · exact hseparated
  · intro x
    rw [hholds x, hstored]
    exact h.accounted x
  · rw [hstored]
    exact h.storedNodup
  · rw [hstored, hnext]
    exact h.storedBelow

theorem ledger_withPhase {w : SharedOutbox thread type payload bus exn} (h : Ledger w)
    {th : thread} {ph : FlushPhase type payload} (hbatch : ph.batch = (w.phase th).batch) :
    Ledger (w.withPhase th ph) := by
  have hcontents := contents_withPhase hbatch
  refine ledger_of_moved h rfl rfl rfl ?_ ?_
  · rw [hcontents]
    exact h.separated
  · intro x
    rw [hcontents]

omit [DecidableEq thread] in
theorem publisher_ne_none {w : SharedOutbox thread type payload bus exn} (h : Ledger w)
    (t : type) : w.publisher.publishers t ≠ none := by
  have hsome : (w.publisher.publishers t).isSome = true := h.registered t
  intro hnone
  rw [hnone] at hsome
  cases hsome

theorem ledger_step {w v : SharedOutbox thread type payload bus exn} (h : Ledger w)
    {a : ThreadAction thread type payload} (hstep : Stepped w a v)
    (hthrow : forall th, a ≠ .publisherThrows th) : Ledger v := by
  cases hstep with
  | store th t value => exact ledger_afterStore h t value
  | swap hidle =>
      rename_i th
      have hsource : contents w .outbox = w.publisher.outbox ++ [] := by
        rw [List.append_nil]
        rfl
      refine ledger_of_moved h rfl rfl rfl ?_ ?_
      · rw [contents_afterSwap hidle]
        exact separated_transfer h.separated (by simp) hsource
      · intro x
        rw [contents_afterSwap hidle]
        exact holds_transfer_iff (by simp) hsource
  | skip hphase hnone => exact absurd hnone (publisher_ne_none h _)
  | invoke hphase =>
      rename_i th entry rest
      have hsource : contents w (.batch th) = [entry] ++ rest := by
        simp [contents, hphase, FlushPhase.batch]
      refine ledger_of_moved h rfl rfl rfl ?_ ?_
      · rw [contents_afterInvoke]
        exact separated_transfer h.separated (by simp) hsource
      · intro x
        rw [contents_afterInvoke]
        exact holds_transfer_iff (by simp) hsource
  | returns hphase => exact ledger_withPhase h (by rw [hphase]; rfl)
  | throws hphase => exact absurd rfl (hthrow _)
  | finish hphase => exact ledger_withPhase h (by rw [hphase]; rfl)

section Runs

variable {publishers : type -> Option (PublishFn bus (Stored payload) exn)}

theorem stepsMeet_of_no_throw (s : SharedOutbox thread type payload bus exn)
    {actions : List (ThreadAction thread type payload)}
    (hthrow : forall th, .publisherThrows th ∉ actions) :
    StepsMeet step (fun _ a => forall th, a ≠ .publisherThrows th) s actions := by
  apply stepsMeet_of_forall
  intro a ha th heq
  rw [heq] at ha
  exact hthrow th ha

theorem ledger_of_run {s w : SharedOutbox thread type payload bus exn} (h : Ledger s)
    {actions : List (ThreadAction thread type payload)}
    (hthrow : forall th, .publisherThrows th ∉ actions)
    (hrun : run step s actions = some w) : Ledger w := by
  refine invariant_of_stepsMeet (P := fun _ w => Ledger w) h ?_
    (stepsMeet_of_no_throw s hthrow) hrun
  intro _actions m a n _hm hledger hreturns hstep
  exact ledger_step hledger (stepped_of_step hstep) hreturns

/-!
## Completeness

An entry that has left the outbox never returns to it, so once no flush is
under way it can only be among the published ones.
-/

theorem not_pending_step {w v : SharedOutbox thread type payload bus exn} (h : Ledger w)
    {a : ThreadAction thread type payload} (hstep : Stepped w a v)
    {x : Entry type (Stored payload)} (hx : x ∈ w.stored)
    (hout : x ∉ w.publisher.outbox) : x ∈ v.stored ∧ x ∉ v.publisher.outbox := by
  cases hstep with
  | store th t value =>
      constructor
      · exact List.mem_append.mpr (Or.inl hx)
      · intro hmem
        rcases List.mem_append.mp hmem with hold | hadded
        · exact hout hold
        · have hlt := h.storedBelow x hx
          rw [List.mem_singleton.mp hadded] at hlt
          exact Nat.lt_irrefl _ hlt
  | swap hidle => exact ⟨hx, List.not_mem_nil⟩
  | skip hphase hnone => exact ⟨hx, hout⟩
  | invoke hphase => exact ⟨hx, hout⟩
  | returns hphase => exact ⟨hx, hout⟩
  | throws hphase => exact ⟨hx, hout⟩
  | finish hphase => exact ⟨hx, hout⟩

theorem not_pending_of_run {s w : SharedOutbox thread type payload bus exn} (h : Ledger s)
    {actions : List (ThreadAction thread type payload)}
    (hthrow : forall th, .publisherThrows th ∉ actions)
    (hrun : run step s actions = some w) {x : Entry type (Stored payload)}
    (hx : x ∈ s.stored) (hout : x ∉ s.publisher.outbox) :
    x ∈ w.stored ∧ x ∉ w.publisher.outbox := by
  have hboth : Ledger w ∧ x ∈ w.stored ∧ x ∉ w.publisher.outbox := by
    refine invariant_of_stepsMeet
      (P := fun _ w => Ledger w ∧ x ∈ w.stored ∧ x ∉ w.publisher.outbox) ⟨h, hx, hout⟩ ?_
      (stepsMeet_of_no_throw s hthrow) hrun
    intro _actions m a n _hm hold hreturns hstep
    have hstepped := stepped_of_step hstep
    constructor
    · exact ledger_step hold.left hstepped hreturns
    · exact not_pending_step hold.left hstepped hold.right.left hold.right.right
  exact hboth.right

omit [DecidableEq thread] in
theorem published_of_idle {w : SharedOutbox thread type payload bus exn} (h : Ledger w)
    (hidle : forall th, w.phase th = .idle) {x : Entry type (Stored payload)}
    (hx : x ∈ w.stored) (hout : x ∉ w.publisher.outbox) : x ∈ w.published := by
  rcases (h.accounted x).mpr hx with ⟨p, hp⟩
  cases p with
  | outbox => exact absurd hp hout
  | batch th =>
      simp only [contents, hidle th, FlushPhase.batch] at hp
      cases hp
  | published => exact hp

/-!
## Order

When a flush swaps only while no other flush is under way, the published
entries, the batch of the one active flush and the outbox spell the stored
sequence.
-/

omit [DecidableEq thread] in
/-- A swap taken while no thread is inside `flush`. -/
def SwapAlone (w : SharedOutbox thread type payload bus exn) :
    ThreadAction thread type payload -> Prop
  | .swap _ => forall th, w.phase th = .idle
  | _ => True

omit [DecidableEq thread] in
structure InOrder (w : SharedOutbox thread type payload bus exn) : Prop where
  solo : forall th th', w.phase th ≠ .idle -> w.phase th' ≠ .idle -> th' = th
  busy : forall th, w.phase th ≠ .idle ->
    w.published ++ ((w.phase th).batch ++ w.publisher.outbox) = w.stored
  quiet : (forall th, w.phase th = .idle) -> w.published ++ w.publisher.outbox = w.stored

omit [DecidableEq thread] in
theorem inOrder_of_only_busy {w : SharedOutbox thread type payload bus exn} (th : thread)
    (hbusy : w.phase th ≠ .idle) (hothers : forall th', th' ≠ th -> w.phase th' = .idle)
    (hseq : w.published ++ ((w.phase th).batch ++ w.publisher.outbox) = w.stored) :
    InOrder w := by
  have hthis : forall th', w.phase th' ≠ .idle -> th' = th := by
    intro th' hth'
    by_contra hne
    exact hth' (hothers th' hne)
  constructor
  · intro th1 th2 h1 h2
    rw [hthis th1 h1, hthis th2 h2]
  · intro th' hth'
    rw [hthis th' hth']
    exact hseq
  · intro hidle
    exact absurd (hidle th) hbusy

omit [DecidableEq thread] in
theorem inOrder_of_all_idle {w : SharedOutbox thread type payload bus exn}
    (hidle : forall th, w.phase th = .idle)
    (hseq : w.published ++ w.publisher.outbox = w.stored) : InOrder w := by
  constructor
  · intro th _th' hbusy
    exact absurd (hidle th) hbusy
  · intro th hbusy
    exact absurd (hidle th) hbusy
  · intro _hidle
    exact hseq

omit [DecidableEq thread] in
theorem busy_of_phase {w : SharedOutbox thread type payload bus exn} (h : InOrder w)
    {th : thread} {ph : FlushPhase type payload} (hphase : w.phase th = ph) (hph : ph ≠ .idle) :
    w.phase th ≠ .idle ∧ w.published ++ (ph.batch ++ w.publisher.outbox) = w.stored := by
  subst hphase
  exact ⟨hph, h.busy th hph⟩

omit [DecidableEq thread] in
theorem others_idle {w : SharedOutbox thread type payload bus exn} (h : InOrder w) {th : thread}
    (hbusy : w.phase th ≠ .idle) (th' : thread) (hne : th' ≠ th) : w.phase th' = .idle := by
  by_contra hbusy'
  exact hne (h.solo th th' hbusy hbusy')

theorem inOrder_of_stays_busy {w v : SharedOutbox thread type payload bus exn} (h : InOrder w)
    {th : thread} {ph : FlushPhase type payload} (hbusy : w.phase th ≠ .idle)
    (hphase : v.phase = Function.update w.phase th ph) (hph : ph ≠ .idle)
    (hseq : v.published ++ (ph.batch ++ v.publisher.outbox) = v.stored) : InOrder v := by
  apply inOrder_of_only_busy th
  · rw [hphase, Function.update_self]
    exact hph
  · intro th' hne
    rw [hphase, Function.update_of_ne hne]
    exact others_idle h hbusy th' hne
  · rw [hphase, Function.update_self]
    exact hseq

theorem inOrder_step {w v : SharedOutbox thread type payload bus exn}
    (hledger : Ledger w) (h : InOrder w)
    {a : ThreadAction thread type payload} (hstep : Stepped w a v) (halone : SwapAlone w a)
    (hthrow : forall th, a ≠ .publisherThrows th) : InOrder v := by
  cases hstep with
  | store th t value =>
      constructor
      · exact h.solo
      · intro th' hbusy
        have hseq := h.busy th' hbusy
        simp only [afterStore, OutboxPublisher.store]
        rw [← hseq]
        simp
      · intro hidle
        have hseq := h.quiet hidle
        simp only [afterStore, OutboxPublisher.store]
        rw [← hseq]
        simp
  | swap hidle =>
      rename_i th
      apply inOrder_of_only_busy th
      · simp [afterSwap, withPhase]
      · intro th' hne
        simp only [afterSwap, withPhase, Function.update_of_ne hne]
        exact halone th'
      · have hseq := h.quiet halone
        simp [afterSwap, withPhase, FlushPhase.batch, OutboxPublisher.swapOut, hseq]
  | skip hphase hnone => exact absurd hnone (publisher_ne_none hledger _)
  | invoke hphase =>
      rcases busy_of_phase h hphase (by simp) with ⟨hbusy, hseq⟩
      refine inOrder_of_stays_busy h hbusy rfl (by simp) ?_
      simpa [afterInvoke, withPhase, FlushPhase.batch] using hseq
  | returns hphase =>
      rcases busy_of_phase h hphase (by simp) with ⟨hbusy, hseq⟩
      refine inOrder_of_stays_busy h hbusy rfl (by simp) ?_
      simpa [withPhase, FlushPhase.batch] using hseq
  | throws hphase => exact absurd rfl (hthrow _)
  | finish hphase =>
      -- The one active flush has emptied its batch, so the outbox is what remains.
      rename_i th
      rcases busy_of_phase h hphase (by simp) with ⟨hbusy, hseq⟩
      refine inOrder_of_all_idle ?_ hseq
      intro th'
      by_cases hne : th' = th
      · rw [hne]
        simp [withPhase]
      · simp only [withPhase, Function.update_of_ne hne]
        exact others_idle h hbusy th' hne

theorem inOrder_of_run {w : SharedOutbox thread type payload bus exn}
    (hregistered : forall t, (publishers t).isSome = true)
    {actions : List (ThreadAction thread type payload)}
    (hthrow : forall th, .publisherThrows th ∉ actions)
    (halone : StepsMeet step SwapAlone (start publishers) actions)
    (hrun : run step (start publishers) actions = some w) : InOrder w := by
  have hstart : InOrder (start publishers : SharedOutbox thread type payload bus exn) :=
    inOrder_of_all_idle (fun _ => rfl) rfl
  have hboth : Ledger w ∧ InOrder w := by
    refine invariant_of_stepsMeet (P := fun _ w => Ledger w ∧ InOrder w)
      ⟨ledger_start hregistered, hstart⟩ ?_
      (stepsMeet_and halone (stepsMeet_of_no_throw (start publishers) hthrow)) hrun
    intro _actions m a n _hm hold hok hstep
    have hstepped := stepped_of_step hstep
    constructor
    · exact ledger_step hold.left hstepped hok.right
    · exact inOrder_step hold.left hold.right hstepped hok.left hok.right
  exact hboth.right

omit [DecidableEq thread] in
theorem published_prefix_stored {w : SharedOutbox thread type payload bus exn}
    (h : InOrder w) : w.published <+: w.stored := by
  by_cases hidle : forall th, w.phase th = .idle
  · exact ⟨w.publisher.outbox, h.quiet hidle⟩
  · rcases not_forall.mp hidle with ⟨th, hbusy⟩
    exact ⟨(w.phase th).batch ++ w.publisher.outbox, h.busy th hbusy⟩

/--
With all types registered beforehand and publishers that return, over every
interleaving: no stored event is published twice; once no flush is under way,
every event stored before a swap has been published; and when flushes do not
overlap, events are published in the order they were stored.
-/
theorem sharedOutbox_exactly_once
    (publishers : type -> Option (PublishFn bus (Stored payload) exn))
    (hregistered : forall t, (publishers t).isSome = true)
    (actions : List (ThreadAction thread type payload))
    (hthrow : forall th, .publisherThrows th ∉ actions)
    (w : SharedOutbox thread type payload bus exn)
    (hrun : run step (start publishers) actions = some w) :
    (w.stored.Nodup ∧ w.published.Nodup ∧ forall x, x ∈ w.published -> x ∈ w.stored) ∧
      ((forall th, w.phase th = .idle) ->
        forall before th after m, actions = before ++ .swap th :: after ->
          run step (start publishers) before = some m ->
          forall x, x ∈ m.stored -> x ∈ w.published) ∧
      (StepsMeet step SwapAlone (start publishers) actions ->
        w.published <+: w.stored) := by
  have hledger := ledger_of_run (ledger_start hregistered) hthrow hrun
  refine ⟨⟨hledger.storedNodup, hledger.separated.nodup .published, ?_⟩, ?_, ?_⟩
  · intro x hx
    exact (hledger.accounted x).mp ⟨.published, hx⟩
  · intro hidle before th after m hsplit hm x hx
    subst hsplit
    have hthrowBefore : forall th, .publisherThrows th ∉ before :=
      fun th hth => hthrow th (List.mem_append.mpr (Or.inl hth))
    have hthrowAfter : forall th, .publisherThrows th ∉ after :=
      fun th hth => hthrow th (List.mem_append.mpr (Or.inr (List.mem_cons_of_mem _ hth)))
    have hledgerBefore := ledger_of_run (ledger_start hregistered) hthrowBefore hm
    rcases (run_append_eq_some_iff before (.swap th :: after)).mp hrun with ⟨m', hm', hrest⟩
    rw [hm] at hm'
    cases hm'
    rcases (run_append_eq_some_iff [.swap th] after).mp hrest with ⟨n, hswap, htail⟩
    rw [run_singleton] at hswap
    have hstepped := stepped_of_step hswap
    have hledgerSwap := ledger_step hledgerBefore hstepped (by simp)
    have hgone : x ∈ n.stored ∧ x ∉ n.publisher.outbox := by
      cases hstepped with
      | swap hphase => exact ⟨hx, List.not_mem_nil⟩
    have hfinal := not_pending_of_run hledgerSwap hthrowAfter htail hgone.left hgone.right
    exact published_of_idle hledger hidle hfinal.left hfinal.right
  · intro halone
    exact published_prefix_stored (inOrder_of_run hregistered hthrow halone hrun)

end Runs

def countingPublishers : Unit -> Option (PublishFn Nat (Stored Nat) Empty) :=
  fun _ => some (fun count _ => (count + 1, .ok ()))

/--
Two overlapping flushes: the first thread stores from inside a publisher, and
the second swaps and publishes while that publisher is still running.
-/
def overlappingRun : List (ThreadAction Bool Unit Nat) :=
  [.store true () 10, .store false () 20, .swap true, .store false () 30, .publish true,
    .store true () 40, .swap false, .publish false, .publisherReturns false,
    .publisherReturns true, .publish true, .publish false, .publisherReturns true,
    .publisherReturns false, .finish true, .finish false]

theorem overlappingRun_exactly_once :
    exists m w, run step (start countingPublishers) (overlappingRun.take 6) = some m ∧
      run step (start countingPublishers) overlappingRun = some w ∧
      m.stored.length = 4 ∧ w.published.Nodup ∧
      forall x, x ∈ m.stored -> x ∈ w.published := by
  have hbefore : exists m, run step (start countingPublishers) (overlappingRun.take 6) = some m ∧
      m.stored.length = 4 := ⟨_, rfl, rfl⟩
  have hafter : exists w, run step (start countingPublishers) overlappingRun = some w ∧
      w.phase true = .idle ∧ w.phase false = .idle := ⟨_, rfl, rfl, rfl⟩
  rcases hbefore with ⟨m, hm, hlength⟩
  rcases hafter with ⟨w, hw, htrue, hfalse⟩
  rcases sharedOutbox_exactly_once countingPublishers (fun _ => rfl) overlappingRun
    (by decide) w hw with ⟨hdistinct, hcomplete, _horder⟩
  refine ⟨m, w, hm, hw, hlength, hdistinct.right.left, ?_⟩
  refine hcomplete ?_ (overlappingRun.take 6) false (overlappingRun.drop 7) m rfl hm
  intro th
  cases th with
  | true => exact htrue
  | false => exact hfalse

end SharedOutbox
end Application
end CppCommons
