import CppCommons.Application.Mediator
import CppCommons.OrderService.Order
import CppCommons.Resilience.CircuitBreaker

/-!
# The order service

The example program sends commands over a bus to a handler that runs the use case
under a circuit breaker and logs how it ended.  A refused order is a result, not
an exception, so the breaker counts it as a success.
-/

namespace CppCommons
namespace OrderService

open Cxx
open Kernel (UUID DomainError DomainEvent EventDraw AggregateRoot)
open Application
open Resilience

inductive LogLevel where
  | info
  | error
deriving DecidableEq

structure LogEntry where
  level : LogLevel
  message : Bytes
deriving DecidableEq

structure PlaceOrderInput where
  customerId : Bytes
  items : List OrderItem

structure PlaceOrderOutput where
  orderId : Bytes
  total : Money
deriving DecidableEq

/-- What one command draws from the generator and the clocks. -/
structure CommandDraws where
  first : UInt64
  second : UInt64
  event : EventDraw
  checkNow : Nanoseconds

def placingMessage (customerId : Bytes) : Bytes :=
  ascii "placing order for customer " ++ customerId

def emittedMessage (count : Nat) : Bytes :=
  ascii "order placed, events emitted: " ++ decimalDigits count

/-- The dash is the one of the source, in UTF-8. -/
def placedMessage (orderId : Bytes) (cents : Int) : Bytes :=
  ascii "order " ++ orderId ++ ascii " placed " ++ [226, 128, 148] ++ ascii " total " ++
    decimal cents ++ ascii " cents"

def failedMessage (what : String) : Bytes :=
  ascii "failed to place order: " ++ ascii what

def execute (input : PlaceOrderInput) (draws : CommandDraws) (log : List LogEntry) :
    Evaluation Empty (List LogEntry × Except DomainError PlaceOrderOutput) :=
  let log := log ++ [⟨.info, placingMessage input.customerId⟩]
  let uuid := UUID.generate draws.first draws.second
  match Order.place uuid input.customerId input.items draws.event with
  | .error e => return (log, .error e)
  | .ok order => do
      let pulled := order.root.pullEvents
      let order := { order with root := pulled.snd }
      let log := log ++ [⟨.info, emittedMessage pulled.fst.length⟩]
      let total <- order.total
      return (log, .ok { orderId := uuid.toString, total := total })

/-!
## The program

The handler runs the use case inside `call` of the breaker and logs how it ended.
The bus carries one type of command; an overflow makes the rest of the program
undefined.
-/

structure PlaceOrderCommand where
  customerId : Bytes
  items : List OrderItem

structure ServiceState where
  breaker : CircuitBreaker
  log : List LogEntry := []
  /-- the number of commands so far -/
  handled : Nat := 0

/-- The handler that the program registers.  `call` reports a success to the breaker
whenever the use case returns. -/
def handleCommand (draws : CommandDraws) (cmd : PlaceOrderCommand) (s : ServiceState) :
    Evaluation Empty (ServiceState × Except CircuitOpenError Unit) :=
  let input : PlaceOrderInput := { customerId := cmd.customerId, items := cmd.items }
  let s := { s with handled := s.handled + 1 }
  match s.breaker.checkState draws.checkNow with
  | (breaker, .error e) => return ({ s with breaker := breaker }, .error e)
  | (breaker, .ok ()) => do
      let executed <- execute input draws s.log
      let entry : LogEntry :=
        match executed.snd with
        | .ok output => ⟨.info, placedMessage output.orderId output.total.cents.toInt⟩
        | .error e => ⟨.error, failedMessage e.message⟩
      return ({ s with breaker := breaker.onSuccess, log := executed.fst ++ [entry] }, .ok ())

inductive ServiceMessage where
  | placeOrder
deriving DecidableEq

def ServiceMessage.denote : ServiceMessage -> Type
  | .placeOrder => PlaceOrderCommand

/-- The state of the program, undefined after an overflow. -/
abbrev ServiceWorld := Evaluation Empty ServiceState

def serviceHandler (draws : Nat -> CommandDraws) (cmd : PlaceOrderCommand) :
    BusCode ServiceMessage.denote ServiceWorld CircuitOpenError Unit :=
  fun w =>
    match w >>= fun s => handleCommand (draws s.handled) cmd s with
    | .returns (s, outcome) => .done (.returns s) (outcome.mapError .thrown)
    | .throws e => .done (.throws e) (.ok ())
    | .undefined => .done .undefined (.ok ())

def serviceBus (draws : Nat -> CommandDraws) :
    CommandBus ServiceMessage.denote ServiceWorld CircuitOpenError :=
  ({} : CommandBus ServiceMessage.denote ServiceWorld CircuitOpenError).registerHandler .placeOrder
    (serviceHandler draws)

def noServices : BusServices ServiceMessage.denote ServiceWorld CircuitOpenError where
  send _ _ _ := none
  query _ _ _ _ := none

def sendAll (draws : Nat -> CommandDraws) : ServiceWorld -> List PlaceOrderCommand ->
    Option (ServiceWorld × List (Except (BusException CircuitOpenError) Unit))
  | w, [] => some (w, [])
  | w, cmd :: rest =>
      (((serviceBus draws).send .placeOrder cmd w).run noServices).bind fun ended =>
        (sendAll draws ended.fst rest).map fun later => (later.fst, ended.snd :: later.snd)

def serviceConfig : CircuitBreakerConfig where
  failureThreshold := 3
  openDuration := 5

/-!
## What is logged

What one command adds to the log, and that it leaves a breaker without failures as
it was.
-/

def expectedEntries (draws : CommandDraws) (cmd : PlaceOrderCommand) : List LogEntry :=
  ⟨.info, placingMessage cmd.customerId⟩ ::
    if cmd.items = [] then [⟨.error, failedMessage "order must have at least one item"⟩]
    else
      [⟨.info, emittedMessage 1⟩,
        ⟨.info, placedMessage (UUID.generate draws.first draws.second).toString
          (orderCost cmd.items)⟩]

def expectedLog (draws : Nat -> CommandDraws) : Nat -> List PlaceOrderCommand -> List LogEntry
  | _, [] => []
  | n, cmd :: rest => expectedEntries (draws n) cmd ++ expectedLog draws (n + 1) rest

theorem representable_nil : Representable [] :=
  (representable_iff []).mpr trivial

theorem execute_of_empty {input : PlaceOrderInput} (h : input.items = []) (draws : CommandDraws)
    (log : List LogEntry) :
    execute input draws log =
      .returns (log ++ [⟨.info, placingMessage input.customerId⟩],
        .error { message := "order must have at least one item" }) := by
  simp [execute, Order.place, h]

def pulledOrder (input : PlaceOrderInput) (draws : CommandDraws) : Order where
  root := { id := UUID.generate draws.first draws.second }
  customerId := input.customerId
  items := input.items

theorem execute_of_items {input : PlaceOrderInput} (h : input.items ≠ []) (draws : CommandDraws)
    (log : List LogEntry) :
    execute input draws log = (pulledOrder input draws).total >>= fun total =>
      .returns (log ++ [⟨.info, placingMessage input.customerId⟩] ++ [⟨.info, emittedMessage 1⟩],
        .ok { orderId := (UUID.generate draws.first draws.second).toString, total := total }) := by
  simp only [execute, Order.place, List.isEmpty_iff, if_neg h]
  rfl

/-- The state after a command that was handled. -/
def ServiceState.after (draws : CommandDraws) (cmd : PlaceOrderCommand) (s : ServiceState) :
    ServiceState :=
  { s with log := s.log ++ expectedEntries draws cmd, handled := s.handled + 1 }

/-- On a breaker that has seen no failure a command leaves its entries, and the breaker as
it was. -/
theorem handleCommand_of_representable {s : ServiceState} (hclosed : s.breaker.state = .closed)
    (hfailures : s.breaker.failureCount = 0) {cmd : PlaceOrderCommand}
    (hcost : Representable cmd.items) (draws : CommandDraws) :
    handleCommand draws cmd s = .returns (s.after draws cmd, .ok ()) := by
  have hcheck := CircuitBreaker.checkState_of_not_opened (b := s.breaker) (by simp [hclosed])
    draws.checkNow
  have hreport : s.breaker.onSuccess = s.breaker := by
    rw [CircuitBreaker.onSuccess_of_not_halfOpen (by simp [hclosed]), ← hfailures]
  simp only [handleCommand, hcheck, ServiceState.after, expectedEntries]
  by_cases hitems : cmd.items = []
  · rw [execute_of_empty hitems, if_pos hitems, Evaluation.returns_bind, hreport]
    simp
  · rcases Order.total_of_representable Empty
        (o := pulledOrder ⟨cmd.customerId, cmd.items⟩ draws) hcost with
      ⟨total, htotal, hcents, _⟩
    rw [execute_of_items hitems, htotal, if_neg hitems, Evaluation.returns_bind,
      Evaluation.returns_bind, hreport]
    simp only [hcents]
    simp [pulledOrder]

theorem handleCommand_of_not_representable {s : ServiceState}
    (hclosed : s.breaker.state = .closed) {cmd : PlaceOrderCommand}
    (hcost : ¬ Representable cmd.items) (draws : CommandDraws) :
    handleCommand draws cmd s = .undefined := by
  have hcheck := CircuitBreaker.checkState_of_not_opened (b := s.breaker) (by simp [hclosed])
    draws.checkNow
  have hitems : cmd.items ≠ [] := by
    intro hnil
    rw [hnil] at hcost
    exact hcost representable_nil
  simp only [handleCommand, hcheck]
  rw [execute_of_items hitems, Order.total_of_not_representable Empty hcost,
    Evaluation.undefined_bind, Evaluation.undefined_bind]

/-!
## Whole runs

By induction over the commands.  From an overflow on, the program means nothing.
-/

theorem send_serviceBus (draws : Nat -> CommandDraws) (cmd : PlaceOrderCommand) :
    (serviceBus draws).send .placeOrder cmd = serviceHandler draws cmd := by
  have hlookup : (serviceBus draws).handlers.lookup .placeOrder =
      some (CommandBus.erased .placeOrder (serviceHandler draws)) :=
    Finmap.lookup_insert _
  unfold CommandBus.send
  rw [hlookup]
  exact @CommandBus.erased_self _ ServiceMessage.denote _ _ _ .placeOrder (serviceHandler draws) cmd

theorem sendAll_cons (draws : Nat -> CommandDraws) {s : ServiceState}
    (hclosed : s.breaker.state = .closed) (hfailures : s.breaker.failureCount = 0)
    {cmd : PlaceOrderCommand} (hcost : Representable cmd.items) (rest : List PlaceOrderCommand) :
    sendAll draws (.returns s) (cmd :: rest) =
      (sendAll draws (.returns (s.after (draws s.handled) cmd)) rest).map fun later =>
        (later.fst, .ok () :: later.snd) := by
  rw [sendAll, send_serviceBus]
  simp only [serviceHandler, Evaluation.returns_bind,
    handleCommand_of_representable hclosed hfailures hcost]
  rfl

theorem sendAll_of_representable (draws : Nat -> CommandDraws) {s : ServiceState}
    (hclosed : s.breaker.state = .closed) (hfailures : s.breaker.failureCount = 0)
    {commands : List PlaceOrderCommand}
    (hcosts : forall cmd, cmd ∈ commands -> Representable cmd.items) :
    sendAll draws (.returns s) commands = some
      (.returns { s with log := s.log ++ expectedLog draws s.handled commands
                         handled := s.handled + commands.length },
        commands.map fun _ => .ok ()) := by
  induction commands generalizing s with
  | nil => simp [sendAll, expectedLog]
  | cons cmd rest ih =>
      rcases List.forall_mem_cons.mp hcosts with ⟨hcost, hrest⟩
      rw [sendAll_cons draws hclosed hfailures hcost]
      have hlater := ih (s := s.after (draws s.handled) cmd) hclosed hfailures hrest
      rw [hlater]
      simp [expectedLog, ServiceState.after, Nat.add_assoc, Nat.add_comm 1]

theorem sendAll_undefined (draws : Nat -> CommandDraws) (commands : List PlaceOrderCommand) :
    sendAll draws .undefined commands = some (.undefined, commands.map fun _ => .ok ()) := by
  induction commands with
  | nil => rfl
  | cons cmd rest ih =>
      rw [sendAll, send_serviceBus]
      simp only [serviceHandler, Evaluation.undefined_bind, BusProgram.run, Option.bind_some, ih]
      rfl

theorem sendAll_of_not_representable (draws : Nat -> CommandDraws) {s : ServiceState}
    (hclosed : s.breaker.state = .closed) (hfailures : s.breaker.failureCount = 0)
    {commands : List PlaceOrderCommand} {cmd : PlaceOrderCommand} (hmem : cmd ∈ commands)
    (hcost : ¬ Representable cmd.items) :
    exists outcomes, sendAll draws (.returns s) commands = some (.undefined, outcomes) := by
  induction commands generalizing s with
  | nil => cases hmem
  | cons first rest ih =>
      by_cases hfirst : Representable first.items
      · rw [sendAll_cons draws hclosed hfailures hfirst]
        rcases List.mem_cons.mp hmem with rfl | hlater
        · exact absurd hfirst hcost
        · rcases ih (s := s.after (draws s.handled) first) hclosed hfailures hlater with
            ⟨outcomes, houtcomes⟩
          rw [houtcomes]
          exact ⟨.ok () :: outcomes, rfl⟩
      · rw [sendAll, send_serviceBus]
        simp only [serviceHandler, Evaluation.returns_bind,
          handleCommand_of_not_representable hclosed hfirst]
        simp only [BusProgram.run, Option.bind_some, sendAll_undefined]
        exact ⟨_, rfl⟩

/-- For any commands whose totals can be computed, every send returns, the log holds the
entries of the commands in order, and the breaker is as it was at first: a refused order
does not count against it.  An order whose total overflows makes the program undefined. -/
theorem service_run (draws : Nat -> CommandDraws) (commands : List PlaceOrderCommand) :
    let start : ServiceState := { breaker := { cfg := serviceConfig } }
    ((forall cmd, cmd ∈ commands -> Representable cmd.items) ->
      sendAll draws (.returns start) commands = some
        (.returns { breaker := start.breaker, log := expectedLog draws 0 commands
                    handled := commands.length },
          commands.map fun _ => .ok ())) ∧
    ((exists cmd, cmd ∈ commands ∧ ¬ Representable cmd.items) ->
      exists outcomes, sendAll draws (.returns start) commands = some (.undefined, outcomes)) := by
  intro start
  constructor
  · intro hcosts
    have hrun := sendAll_of_representable draws (s := start) rfl rfl hcosts
    rw [hrun]
    simp [start]
  · rintro ⟨cmd, hmem, hcost⟩
    exact sendAll_of_not_representable draws (s := start) rfl rfl hmem hcost

def scenarios : List PlaceOrderCommand :=
  [{ customerId := ascii "customer-42"
     items :=
      [{ productId := ascii "prod-001", quantity := 2, unitPrice := { cents := 1500 } },
        { productId := ascii "prod-002", quantity := 1, unitPrice := { cents := 3000 } }] },
    { customerId := ascii "customer-42", items := [] }]

def zeroDraws (_ : Nat) : CommandDraws where
  first := 0
  second := 0
  event := sampleDraw 0
  checkNow := 0

theorem scenarios_run :
    exists log, sendAll zeroDraws (.returns { breaker := { cfg := serviceConfig } }) scenarios =
        some (.returns { breaker := { cfg := serviceConfig }, log := log, handled := 2 },
          [.ok (), .ok ()]) ∧
      log.getLast? = some ⟨.error, failedMessage "order must have at least one item"⟩ := by
  have hcosts : forall cmd, cmd ∈ scenarios -> Representable cmd.items := by
    intro cmd hcmd
    simp only [scenarios, List.mem_cons, List.not_mem_nil, or_false] at hcmd
    rcases hcmd with rfl | rfl
    · exact (representable_iff _).mpr ⟨by decide, by decide, by decide, by decide, trivial⟩
    · exact representable_nil
  exact ⟨_, (service_run zeroDraws scenarios).left hcosts, rfl⟩

end OrderService
end CppCommons
