import CppCommons.Cxx.SignedArithmetic
import CppCommons.Kernel.AggregateRoot
import CppCommons.Kernel.Money

/-!
# Orders

The aggregate of the example service.  An order is placed with at least one item
and can be cancelled once; both record an event.  The total is summed up in a
64-bit integer that nothing guards, and it takes its currency from the first item.
-/

namespace CppCommons
namespace OrderService

open Cxx
open Kernel (UUID DomainError DomainEvent EventDraw AggregateRoot Delivery)

structure Money where
  cents : Int64 := 0
  currency : Bytes := ascii "BRL"
deriving DecidableEq

structure OrderItem where
  productId : Bytes
  quantity : UInt32 := 0
  unitPrice : Money
deriving DecidableEq

def orderPlaced (draw : EventDraw) : DomainEvent :=
  DomainEvent.make (ascii "OrderPlaced") draw

def orderCancelled (draw : EventDraw) : DomainEvent :=
  DomainEvent.make (ascii "OrderCancelled") draw

inductive OrderStatus where
  | pending
  | confirmed
  | cancelled
deriving DecidableEq

structure Order where
  root : AggregateRoot UUID
  customerId : Bytes
  items : List OrderItem
  status : OrderStatus := .pending
deriving DecidableEq

namespace Order

def place (id : UUID) (customerId : Bytes) (items : List OrderItem) (draw : EventDraw) :
    Except DomainError Order :=
  if items.isEmpty then .error { message := "order must have at least one item" }
  else
    let o : Order := { root := { id := id }, customerId := customerId, items := items }
    .ok { o with root := o.root.record (orderPlaced draw) }

def cancel (o : Order) (draw : EventDraw) : Order × Except DomainError Bool :=
  if o.status = .cancelled then (o, .error { message := "order is already cancelled" })
  else
    ({ o with status := .cancelled, root := o.root.record (orderCancelled draw) }, .ok true)

def sumItems {exn : Type} (sum : Int64) : List OrderItem -> Evaluation exn Int64
  | [] => .returns sum
  | item :: rest => do
      let line <- mul64 item.unitPrice.cents (Int64.ofNat item.quantity.toNat)
      let sum <- add64 sum line
      sumItems sum rest

def total {exn : Type} (o : Order) : Evaluation exn Money := do
  let sum <- sumItems 0 o.items
  return { cents := sum, currency := (o.items.head?.map (·.unitPrice.currency)).getD (ascii "BRL") }

end Order

/-!
## The total

The loop multiplies and adds in 64 bits.  It returns exactly if no product and no
partial sum overflows, and then the exact cost.
-/

namespace OrderItem

def cost (item : OrderItem) : Int :=
  item.unitPrice.cents.toInt * item.quantity.toNat

theorem toInt_quantity (item : OrderItem) :
    (Int64.ofNat item.quantity.toNat).toInt = item.quantity.toNat := by
  have hlt := item.quantity.toNat_lt
  exact Int64.toInt_ofNat_of_lt (by lia)

end OrderItem

def orderCost (items : List OrderItem) : Int :=
  (items.map OrderItem.cost).sum

@[simp] theorem orderCost_nil : orderCost [] = 0 :=
  rfl

@[simp] theorem orderCost_cons (item : OrderItem) (rest : List OrderItem) :
    orderCost (item :: rest) = item.cost + orderCost rest := by
  simp [orderCost]

/-- The cost of each item and of the first items, however many, is a value of the type. -/
structure Representable (items : List OrderItem) : Prop where
  costs : forall item, item ∈ items -> fitsInt64 item.cost = true
  sums : forall n, fitsInt64 (orderCost (items.take n)) = true

def Summable (sum : Int) : List OrderItem -> Prop
  | [] => True
  | item :: rest =>
      fitsInt64 item.cost = true ∧ fitsInt64 (sum + item.cost) = true ∧
        Summable (sum + item.cost) rest

theorem summable_iff {sum : Int} (hsum : fitsInt64 sum = true) (items : List OrderItem) :
    Summable sum items <->
      (forall item, item ∈ items -> fitsInt64 item.cost = true) ∧
        forall n, fitsInt64 (sum + orderCost (items.take n)) = true := by
  induction items generalizing sum with
  | nil => simp [Summable, hsum]
  | cons item rest ih =>
      rw [Summable, List.forall_mem_cons]
      constructor
      · rintro ⟨hcost, hnext, hrest⟩
        rcases (ih hnext).mp hrest with ⟨hcosts, hsums⟩
        refine ⟨⟨hcost, hcosts⟩, ?_⟩
        intro n
        cases n with
        | zero => simpa using hsum
        | succ n =>
            rw [List.take_succ_cons, orderCost_cons, ← Int.add_assoc]
            exact hsums n
      · rintro ⟨⟨hcost, hcosts⟩, hsums⟩
        have hnext : fitsInt64 (sum + item.cost) = true := by
          simpa using hsums 1
        refine ⟨hcost, hnext, (ih hnext).mpr ⟨hcosts, ?_⟩⟩
        intro n
        have hlater := hsums (n + 1)
        rw [List.take_succ_cons, orderCost_cons, ← Int.add_assoc] at hlater
        exact hlater

theorem representable_iff (items : List OrderItem) :
    Representable items <-> Summable (0 : Int64).toInt items := by
  have hzero : (0 : Int64).toInt = 0 := rfl
  rw [hzero, summable_iff (by decide)]
  simp only [Int.zero_add]
  exact ⟨fun h => ⟨h.costs, h.sums⟩, fun h => ⟨h.left, h.right⟩⟩

namespace Order

variable {exn : Type}

theorem mul64_item (item : OrderItem) :
    (mul64 item.unitPrice.cents (Int64.ofNat item.quantity.toNat) : Evaluation exn Int64) =
      signed64 item.cost := by
  rw [mul64, item.toInt_quantity, OrderItem.cost]

theorem sumItems_of_summable {sum : Int64} {items : List OrderItem}
    (h : Summable sum.toInt items) :
    exists s : Int64, (sumItems sum items : Evaluation exn Int64) = .returns s ∧
      s.toInt = sum.toInt + orderCost items := by
  induction items generalizing sum with
  | nil => exact ⟨sum, rfl, by simp⟩
  | cons item rest ih =>
      rcases h with ⟨hcost, hsum, hrest⟩
      rw [← toInt_ofInt_of_fits hsum] at hrest
      rcases ih hrest with ⟨s, hs, hvalue⟩
      refine ⟨s, ?_, ?_⟩
      · rw [sumItems, mul64_item, signed64_of_fits hcost, Evaluation.returns_bind, add64,
          toInt_ofInt_of_fits hcost, signed64_of_fits hsum, Evaluation.returns_bind, hs]
      · rw [hvalue, toInt_ofInt_of_fits hsum, orderCost_cons, Int.add_assoc]

theorem sumItems_of_not_summable {sum : Int64} {items : List OrderItem}
    (h : ¬ Summable sum.toInt items) :
    (sumItems sum items : Evaluation exn Int64) = .undefined := by
  induction items generalizing sum with
  | nil => exact absurd trivial h
  | cons item rest ih =>
      rw [sumItems, mul64_item]
      by_cases hcost : fitsInt64 item.cost = true
      · rw [signed64_of_fits hcost, Evaluation.returns_bind, add64, toInt_ofInt_of_fits hcost]
        by_cases hsum : fitsInt64 (sum.toInt + item.cost) = true
        · rw [signed64_of_fits hsum, Evaluation.returns_bind]
          apply ih
          rw [toInt_ofInt_of_fits hsum]
          exact fun hrest => h ⟨hcost, hsum, hrest⟩
        · rw [signed64_of_not_fits hsum, Evaluation.undefined_bind]
      · rw [signed64_of_not_fits hcost, Evaluation.undefined_bind]

theorem total_of_representable (exn : Type) {o : Order} (h : Representable o.items) :
    exists m : Money, (o.total : Evaluation exn Money) = .returns m ∧
      m.cents.toInt = orderCost o.items ∧
      forall first rest, o.items = first :: rest -> m.currency = first.unitPrice.currency := by
  rcases sumItems_of_summable ((representable_iff o.items).mp h) with ⟨s, hs, hvalue⟩
  have hzero : (0 : Int64).toInt = 0 := rfl
  refine ⟨_, by rw [total, hs, Evaluation.returns_bind, Evaluation.pure_eq], ?_, ?_⟩
  · rw [hvalue, hzero, Int.zero_add]
  · intro first rest hitems
    simp [hitems]

theorem total_of_not_representable (exn : Type) {o : Order} (h : ¬ Representable o.items) :
    (o.total : Evaluation exn Money) = .undefined := by
  rw [representable_iff] at h
  rw [total, sumItems_of_not_summable h, Evaluation.undefined_bind]

/-- The total is the exact cost of the items if no product and no partial sum overflows, and
is undefined otherwise.  The currency is that of the first item, whatever the others have. -/
theorem total_exact (exn : Type) (o : Order) :
    ((exists m : Money, (o.total : Evaluation exn Money) = .returns m) <->
      Representable o.items) ∧
    ((o.total : Evaluation exn Money) = .undefined <-> ¬ Representable o.items) ∧
    forall m : Money, (o.total : Evaluation exn Money) = .returns m ->
      m.cents.toInt = orderCost o.items ∧
        forall first rest, o.items = first :: rest -> m.currency = first.unitPrice.currency := by
  by_cases h : Representable o.items
  · rcases total_of_representable exn h with ⟨m, hm, hvalue, hcurrency⟩
    rw [hm]
    refine ⟨iff_of_true ⟨m, rfl⟩ h, iff_of_false nofun (not_not_intro h), ?_⟩
    intro m' hsame
    cases hsame
    exact ⟨hvalue, hcurrency⟩
  · rw [total_of_not_representable exn h]
    exact ⟨iff_of_false nofun h, iff_of_true rfl h, nofun⟩

def mixedOrder : Order where
  root := { id := ⟨0, 0⟩ }
  customerId := ascii "customer-42"
  items :=
    [{ productId := ascii "prod-001", quantity := 2, unitPrice := { cents := 1500 } },
      { productId := ascii "prod-002", quantity := 1
        unitPrice := { cents := 3000, currency := ascii "USD" } }]

theorem mixedOrder_total :
    exists m : Money, (mixedOrder.total : Evaluation Empty Money) = .returns m ∧
      m.cents.toInt = 6000 ∧ m.currency = ascii "BRL" := by
  have hitems : Representable mixedOrder.items :=
    (representable_iff _).mpr ⟨by decide, by decide, by decide, by decide, trivial⟩
  rcases total_exact Empty mixedOrder with ⟨hreturns, _, hvalue⟩
  rcases hreturns.mpr hitems with ⟨m, hm⟩
  rcases hvalue m hm with ⟨hcents, hcurrency⟩
  exact ⟨m, hm, hcents.trans (by decide), hcurrency _ _ rfl⟩

end Order

/-!
## The life of an order

After the placement an order is cancelled and its events are pulled, in any order.
The events recorded so far are the history of its delivery.
-/

/-- A call of a member function that changes the order. -/
inductive OrderAction where
  | cancel (draw : EventDraw)
  | pullEvents

structure OrderRun where
  order : Order
  pulled : List DomainEvent := []
  cancellations : List (Except DomainError Bool) := []

namespace OrderRun

def step (r : OrderRun) : OrderAction -> OrderRun
  | .cancel draw =>
      let result := r.order.cancel draw
      { r with order := result.fst, cancellations := r.cancellations ++ [result.snd] }
  | .pullEvents =>
      let result := r.order.root.pullEvents
      { r with order := { r.order with root := result.snd }, pulled := r.pulled ++ result.fst }

def run (o : Order) (actions : List OrderAction) : OrderRun :=
  actions.foldl step { order := o }

def delivery (r : OrderRun) : Delivery UUID where
  root := r.order.root
  pulled := r.pulled

end OrderRun

def cancelDraws (actions : List OrderAction) : List EventDraw :=
  actions.filterMap fun action =>
    match action with
    | .cancel draw => some draw
    | .pullEvents => none

def cancelResults : List EventDraw -> List (Except DomainError Bool)
  | [] => []
  | _ :: later => .ok true :: later.map fun _ => .error { message := "order is already cancelled" }

structure Lived (placed : Order) (draw : EventDraw) (draws : List EventDraw) (r : OrderRun) :
    Prop where
  history : r.delivery.history =
    orderPlaced draw :: (draws.head?.map orderCancelled).toList
  status : r.order.status = if draws = [] then .pending else .cancelled
  cancellations : r.cancellations = cancelResults draws
  id : r.order.root.id = placed.root.id
  customerId : r.order.customerId = placed.customerId
  items : r.order.items = placed.items

theorem Lived.step {placed : Order} {draw : EventDraw} {actions : List OrderAction}
    {r : OrderRun} (h : Lived placed draw (cancelDraws actions) r) (action : OrderAction) :
    Lived placed draw (cancelDraws (actions ++ [action])) (r.step action) := by
  cases action with
  | pullEvents =>
      have hdraws : cancelDraws (actions ++ [.pullEvents]) = cancelDraws actions := by
        simp [cancelDraws]
      rw [hdraws]
      exact ⟨(Delivery.history_pull r.delivery).trans h.history, h.status, h.cancellations, h.id,
        h.customerId, h.items⟩
  | cancel next =>
      have hdraws : cancelDraws (actions ++ [.cancel next]) = cancelDraws actions ++ [next] := by
        simp [cancelDraws]
      rw [hdraws]
      cases hbefore : cancelDraws actions with
      | nil =>
          rw [hbefore] at h
          have hpending : r.order.status ≠ .cancelled := by
            rw [h.status]
            decide
          have hcancel : r.order.cancel next =
              ({ r.order with
                status := .cancelled, root := r.order.root.record (orderCancelled next) },
                .ok true) :=
            if_neg hpending
          simp only [OrderRun.step, hcancel, h.cancellations]
          refine ⟨?_, rfl, rfl, h.id, h.customerId, h.items⟩
          have hrecord := Delivery.history_record r.delivery (orderCancelled next)
          rw [h.history] at hrecord
          exact hrecord
      | cons first later =>
          rw [hbefore] at h
          have hcancelled : r.order.status = .cancelled := h.status
          have hcancel : r.order.cancel next =
              (r.order, .error { message := "order is already cancelled" }) :=
            if_pos hcancelled
          simp only [OrderRun.step, hcancel, h.cancellations]
          refine ⟨h.history, hcancelled, ?_, h.id, h.customerId, h.items⟩
          simp [cancelResults]

theorem lived_run {placed : Order} {draw : EventDraw}
    (hplaced : Lived placed draw [] { order := placed }) (actions : List OrderAction) :
    Lived placed draw (cancelDraws actions) (OrderRun.run placed actions) := by
  induction actions using List.reverseRecOn with
  | nil => exact hplaced
  | append_singleton actions action ih =>
      rw [OrderRun.run, List.foldl_append]
      exact ih.step action

theorem delivery_run_pull (o : Order) (before : List OrderAction) :
    (OrderRun.run o (before ++ [.pullEvents])).delivery =
      (OrderRun.run o before).delivery.pull := by
  rw [OrderRun.run, List.foldl_append]
  rfl

theorem lived_placed {id : UUID} {customerId : Bytes} {items : List OrderItem} {draw : EventDraw}
    {o : Order} (h : Order.place id customerId items draw = .ok o) :
    items ≠ [] ∧ o.root.id = id ∧ o.customerId = customerId ∧ o.items = items ∧
      Lived o draw [] { order := o } := by
  rw [Order.place] at h
  split at h
  · cases h
  · next hitems =>
      cases h
      exact ⟨fun hnil => hitems (List.isEmpty_iff.mpr hnil), rfl, rfl, rfl, rfl, rfl, rfl, rfl, rfl,
        rfl⟩

/--
Whatever calls follow the placement: the first cancellation succeeds and no other,
the events handed over and pending are those of the placement and of that
cancellation, each once, and the status follows from them; nothing else of the order
changes.  A pull leaves nothing pending, so it hands over what has been recorded since
the pull before it.
-/
theorem order_lifecycle {id : UUID} {customerId : Bytes} {items : List OrderItem}
    {draw : EventDraw} {o : Order} (hplaced : Order.place id customerId items draw = .ok o)
    (actions : List OrderAction) :
    let r := OrderRun.run o actions
    let draws := cancelDraws actions
    r.pulled ++ r.order.root.pendingEvents =
      orderPlaced draw :: (draws.head?.map orderCancelled).toList ∧
    (forall before, actions = before ++ [.pullEvents] ->
      r.order.root.hasPendingEvents = false ∧
        r.pulled = orderPlaced draw :: (draws.head?.map orderCancelled).toList) ∧
    r.cancellations = cancelResults draws ∧
    r.order.status = (if draws = [] then .pending else .cancelled) ∧
    r.order.root.id = id ∧ r.order.customerId = customerId ∧ r.order.items = items := by
  intro r draws
  rcases lived_placed hplaced with ⟨_, hid, hcustomer, hitems, hstart⟩
  have hlived := lived_run hstart actions
  refine ⟨hlived.history, ?_, hlived.cancellations, hlived.status, ?_, ?_, ?_⟩
  · intro before hactions
    have hpull : r.delivery = (OrderRun.run o before).delivery.pull := by
      rw [← delivery_run_pull, ← hactions]
    have hhistory := hlived.history
    change r.delivery.history = _ at hhistory
    refine ⟨?_, ?_⟩
    · change r.delivery.root.hasPendingEvents = false
      rw [hpull, Delivery.hasPendingEvents_pull]
    · change r.delivery.pulled = _
      rw [hpull, Delivery.history_pull] at hhistory
      rw [hpull, ← hhistory]
      rfl
  · exact hlived.id.trans hid
  · exact hlived.customerId.trans hcustomer
  · exact hlived.items.trans hitems

def sampleDraw (now : Nanoseconds) : EventDraw where
  first := 1
  second := 2
  now := now

def sampleItem : OrderItem where
  productId := ascii "prod-001"
  quantity := 2
  unitPrice := { cents := 1500 }

theorem cancelledTwice_lifecycle :
    exists o, Order.place ⟨0, 0⟩ (ascii "customer-42") [sampleItem] (sampleDraw 0) = .ok o ∧
      let r := OrderRun.run o
        [.cancel (sampleDraw 1), .pullEvents, .cancel (sampleDraw 2), .pullEvents]
      r.pulled = [orderPlaced (sampleDraw 0), orderCancelled (sampleDraw 1)] ∧
        r.order.root.hasPendingEvents = false ∧
        r.cancellations = [.ok true, .error { message := "order is already cancelled" }] := by
  have hplaced : exists o,
      Order.place ⟨0, 0⟩ (ascii "customer-42") [sampleItem] (sampleDraw 0) = .ok o :=
    ⟨_, rfl⟩
  rcases hplaced with ⟨o, hplaced⟩
  have h := order_lifecycle hplaced
    [.cancel (sampleDraw 1), .pullEvents, .cancel (sampleDraw 2), .pullEvents]
  rcases h.right.left [.cancel (sampleDraw 1), .pullEvents, .cancel (sampleDraw 2)] rfl with
    ⟨hpending, hpulled⟩
  exact ⟨o, hplaced, hpulled, hpending, h.right.right.left⟩

end OrderService
end CppCommons
