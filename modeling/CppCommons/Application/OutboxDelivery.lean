import CppCommons.Application.OutboxPublisher

/-!
# Delivery over runs of outbox operations

Clients call `register_publisher`, `store` and `flush` one after the other.
Every `store` creates a new event object, so a run numbers the objects it
stores and keeps the entries whose publisher has been called and returned.  The
bus a flush is given, and with it the outcome of every publisher call, is part
of the operation.
-/

namespace CppCommons
namespace Application

open Foundation.LabelledRun

/-- An event object: its identity, and the value it was constructed with. -/
structure Stored (payload : Type) where
  id : Nat
  value : payload
deriving DecidableEq, Repr

inductive Operation (type payload bus exn : Type) where
  | registerPublisher (t : type) (fn : PublishFn bus (Stored payload) exn)
  | store (t : type) (value : payload)
  | flush (b : bus)

structure OutboxRun (type payload bus exn : Type) where
  publisher : OutboxPublisher type (Stored payload) bus exn
  nextId : Nat
  delivered : List (Entry type (Stored payload))

namespace OutboxRun

variable {type payload bus exn : Type}

def start : OutboxRun type payload bus exn :=
  { publisher := OutboxPublisher.empty, nextId := 0, delivered := [] }

def step [DecidableEq type] (w : OutboxRun type payload bus exn) :
    Operation type payload bus exn -> Option (OutboxRun type payload bus exn)
  | .registerPublisher t fn =>
      some { w with publisher := w.publisher.registerPublisher t fn }
  | .store t value =>
      some { w with
        publisher := w.publisher.store t { id := w.nextId, value := value }
        nextId := w.nextId + 1 }
  | .flush b =>
      let (p, trace) := w.publisher.flush b
      some { w with publisher := p, delivered := w.delivered ++ trace.delivered }

/--
Once an event is in the outbox and its type has a publisher, it is in the
outbox or delivered after every later operation.
-/
def AtLeastOnce [DecidableEq type] (ops : List (Operation type payload bus exn)) : Prop :=
  forall before middle after m n entry, ops = before ++ (middle ++ after) ->
    run step start before = some m -> run step m middle = some n ->
    entry ∈ m.publisher.outbox -> m.publisher.Registered entry.type ->
      entry ∈ n.publisher.outbox ∨ entry ∈ n.delivered

/-- A flush that is about to call only publishers that return. -/
def FlushReturns (w : OutboxRun type payload bus exn) :
    Operation type payload bus exn -> Prop
  | .flush b =>
      OutboxPublisher.PublishersReturn w.publisher.publishers w.publisher.outbox b
  | _ => True

/-!
## Event identities

Pending entries are pairwise different and none of them has been delivered.
-/

structure FreshIds (w : OutboxRun type payload bus exn) : Prop where
  pendingNodup : w.publisher.outbox.Nodup
  pendingBelow : forall e, e ∈ w.publisher.outbox -> e.event.id < w.nextId
  deliveredBelow : forall e, e ∈ w.delivered -> e.event.id < w.nextId
  pendingNew : forall e, e ∈ w.publisher.outbox -> e ∉ w.delivered

theorem freshIds_start : FreshIds (start : OutboxRun type payload bus exn) := by
  constructor
  · exact List.nodup_nil
  · intro e he
    cases he
  · intro e he
    cases he
  · intro e he
    cases he

theorem freshIds_store {w : OutboxRun type payload bus exn} (h : FreshIds w)
    (t : type) (value : payload) :
    FreshIds { w with
      publisher := w.publisher.store t { id := w.nextId, value := value }
      nextId := w.nextId + 1 } := by
  have hnew : forall e : Entry type (Stored payload), e.event.id < w.nextId ->
      e ≠ { type := t, event := { id := w.nextId, value := value } } := by
    intro e he heq
    rw [heq] at he
    exact Nat.lt_irrefl _ he
  constructor
  · apply List.nodup_append.mpr
    refine ⟨h.pendingNodup, List.nodup_singleton _, ?_⟩
    intro e he f hf
    rw [List.mem_singleton.mp hf]
    exact hnew e (h.pendingBelow e he)
  · intro e he
    rcases List.mem_append.mp he with hold | hadded
    · exact Nat.lt_succ_of_lt (h.pendingBelow e hold)
    · rw [List.mem_singleton.mp hadded]
      exact Nat.lt_succ_self w.nextId
  · intro e he
    exact Nat.lt_succ_of_lt (h.deliveredBelow e he)
  · intro e he hdelivered
    rcases List.mem_append.mp he with hold | hadded
    · exact h.pendingNew e hold hdelivered
    · exact hnew e (h.deliveredBelow e hdelivered) (List.mem_singleton.mp hadded)

theorem freshIds_flush {w : OutboxRun type payload bus exn} (h : FreshIds w) (b : bus) :
    FreshIds { w with
      publisher := (w.publisher.flush b).fst
      delivered := w.delivered ++ (w.publisher.flush b).snd.delivered } := by
  constructor
  · exact List.nodup_nil
  · intro e he
    cases he
  · intro e he
    rcases List.mem_append.mp he with hold | hadded
    · exact h.deliveredBelow e hold
    · exact h.pendingBelow e (OutboxPublisher.delivered_subset hadded)
  · intro e he
    cases he

theorem freshIds_step [DecidableEq type] {w v : OutboxRun type payload bus exn}
    (h : FreshIds w) {op : Operation type payload bus exn} (hstep : step w op = some v) :
    FreshIds v := by
  cases op with
  | registerPublisher t fn =>
      cases hstep
      exact ⟨h.pendingNodup, h.pendingBelow, h.deliveredBelow, h.pendingNew⟩
  | store t value =>
      cases hstep
      exact freshIds_store h t value
  | flush b =>
      cases hstep
      exact freshIds_flush h b

theorem freshIds_of_run [DecidableEq type] {w : OutboxRun type payload bus exn}
    {ops : List (Operation type payload bus exn)} (hrun : run step start ops = some w) :
    FreshIds w :=
  invariant_of_run (P := fun _ w => FreshIds w) freshIds_start
    (fun _ _ _ _ _ h hstep => freshIds_step h hstep) hrun

/-!
## Delivery

An owed entry stays owed or becomes delivered, as long as flushes call only
publishers that return.
-/

def Accounted (entry : Entry type (Stored payload)) (w : OutboxRun type payload bus exn) :
    Prop :=
  (entry ∈ w.publisher.outbox ∧ w.publisher.Registered entry.type) ∨ entry ∈ w.delivered

theorem registered_registerPublisher [DecidableEq type] {event : Type}
    {p : OutboxPublisher type event bus exn} {t : type} (h : p.Registered t) (u : type)
    (fn : PublishFn bus event exn) : (p.registerPublisher u fn).Registered t := by
  unfold OutboxPublisher.Registered OutboxPublisher.registerPublisher
  by_cases htu : t = u
  · rw [htu]
    simp
  · simp only [Function.update_of_ne htu]
    exact h

theorem accounted_step [DecidableEq type] {w v : OutboxRun type payload bus exn}
    {entry : Entry type (Stored payload)} (h : Accounted entry w)
    {op : Operation type payload bus exn} (hreturn : FlushReturns w op)
    (hstep : step w op = some v) : Accounted entry v := by
  cases h with
  | inl hpending =>
      cases op with
      | registerPublisher t fn =>
          cases hstep
          exact Or.inl ⟨hpending.left, registered_registerPublisher hpending.right t fn⟩
      | store t value =>
          cases hstep
          exact Or.inl ⟨List.mem_append.mpr (Or.inl hpending.left), hpending.right⟩
      | flush b =>
          cases hstep
          apply Or.inr
          apply List.mem_append.mpr
          apply Or.inr
          exact OutboxPublisher.mem_delivered_of_publishersReturn hreturn hpending.left
            hpending.right
  | inr hdelivered =>
      cases op with
      | registerPublisher t fn =>
          cases hstep
          exact Or.inr hdelivered
      | store t value =>
          cases hstep
          exact Or.inr hdelivered
      | flush b =>
          cases hstep
          exact Or.inr (List.mem_append.mpr (Or.inl hdelivered))

theorem atLeastOnce_of_flushReturns [DecidableEq type]
    {ops : List (Operation type payload bus exn)}
    (h : StepsMeet step FlushReturns start ops) : AtLeastOnce ops := by
  intro before middle after m n entry hsplit hm hn hentry hregistered
  have hmiddle : StepsMeet step FlushReturns m middle := by
    rw [hsplit] at h
    exact stepsMeet_of_append (stepsMeet_suffix hm h)
  have haccounted : Accounted entry n :=
    invariant_of_stepsMeet (P := fun _ w => Accounted entry w)
      (Or.inl ⟨hentry, hregistered⟩)
      (fun _ _ _ _ _ hacc hreturn hstep => accounted_step hacc hreturn hstep) hmiddle hn
  cases haccounted with
  | inl hpending => exact Or.inl hpending.left
  | inr hdelivered => exact Or.inr hdelivered

theorem lost_of_throw [DecidableEq type] {w v : OutboxRun type payload bus exn} (h : FreshIds w)
    {b : bus} (hthrow : ¬ FlushReturns w (.flush b)) (hstep : step w (.flush b) = some v) :
    exists entry, entry ∈ w.publisher.outbox ∧ w.publisher.Registered entry.type ∧
      entry ∉ v.publisher.outbox ∧ entry ∉ v.delivered := by
  rcases OutboxPublisher.delivered_before_throw hthrow with
    ⟨front, entry, rest, hsplit, hregistered, hfront⟩
  have hmem : entry ∈ w.publisher.outbox := by
    rw [hsplit]
    simp
  have hnotFront : entry ∉ front := by
    have hnodup := h.pendingNodup
    rw [hsplit, List.nodup_append] at hnodup
    intro hin
    exact hnodup.right.right entry hin entry List.mem_cons_self rfl
  cases hstep
  refine ⟨entry, hmem, hregistered, List.not_mem_nil, ?_⟩
  intro hdelivered
  rcases List.mem_append.mp hdelivered with hold | hadded
  · exact h.pendingNew entry hmem hold
  · exact hnotFront (hfront entry hadded)

/--
At-least-once delivery holds of a run exactly when no publisher that one of its
flushes calls throws.
-/
theorem atLeastOnce_iff_flushReturns [DecidableEq type]
    (ops : List (Operation type payload bus exn)) :
    AtLeastOnce ops <-> StepsMeet step FlushReturns start ops := by
  constructor
  · intro h before op after m hsplit hm
    -- A flush that meets a throwing publisher is itself the run that loses an event.
    by_contra hthrow
    cases op with
    | registerPublisher t fn => exact hthrow True.intro
    | store t value => exact hthrow True.intro
    | flush b =>
        cases hstep : step m (.flush b) with
        | none => cases hstep
        | some v =>
            rcases lost_of_throw (freshIds_of_run hm) hthrow hstep with
              ⟨entry, hmem, hregistered, hgone, hundelivered⟩
            have hrun : run step m [.flush b] = some v := by
              rw [run_singleton, hstep]
            rcases h before [.flush b] after m v entry hsplit hm hrun hmem hregistered with
              hpending | hdelivered
            · exact hgone hpending
            · exact hundelivered hdelivered
  · exact atLeastOnce_of_flushReturns

/-- A publisher that throws on its first event; a second event waits behind it. -/
def throwingRun : List (Operation Unit Nat Unit String) :=
  [.registerPublisher () (fun b e => if e.id = 0 then (b, .error "bus down") else (b, .ok ())),
    .store () 7, .store () 8, .flush ()]

theorem throwingRun_not_atLeastOnce : ¬ AtLeastOnce throwingRun := by
  intro h
  have hlost := h (throwingRun.take 3) (throwingRun.drop 3) [] _ _
    { type := (), event := { id := 1, value := 8 } } rfl rfl rfl
    (by simp [OutboxPublisher.registerPublisher, OutboxPublisher.store, start,
      OutboxPublisher.empty]) rfl
  revert hlost
  decide

end OutboxRun
end Application
end CppCommons
