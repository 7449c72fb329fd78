import CppCommons.Cxx.StandardLibrary

/-!
# Command bus, query bus and mediator

The buses keep their handlers in maps from types to functions on `std::any`, and
cast on the way in and, for queries, on the way out.  Handlers send commands and
ask queries themselves; `BusProgram` is the code of a handler as far as the
buses see it.  The second part is a dispatcher without type erasure, to which the
mediator is compared.

The messages and results are of types other than `std::any`.  A value of that type is
not wrapped but copied when it is stored, so a command of it would not pass its own
cast, and a result of it would be cast to what it holds.
-/

namespace CppCommons
namespace Application

variable {Ty : Type} {denote : Ty -> Type} {world exn ret ret' : Type}

/-- A value together with its type, which is not `std::any`. -/
structure Any (denote : Ty -> Type) where
  type : Ty
  value : denote type

/-- The exceptions that pass through the buses; the last kind is that of the handlers. -/
inductive BusException (exn : Type) where
  | commandNotRegistered (message : String)
  | queryNotRegistered (message : String)
  | badAnyCast
  | thrown (e : exn)
deriving DecidableEq

def Any.cast [DecidableEq Ty] (t : Ty) (a : Any denote) :
    Except (BusException exn) (denote t) :=
  if h : a.type = t then .ok (h ▸ a.value) else .error .badAnyCast

inductive BusProgram (denote : Ty -> Type) (world exn ret : Type) where
  | done (w : world) (outcome : Except (BusException exn) ret)
  | send (w : world) (t : Ty) (cmd : denote t)
      (resume : world -> Except (BusException exn) Unit -> BusProgram denote world exn ret)
  | query (w : world) (result t : Ty) (q : denote t)
      (resume : world -> Except (BusException exn) (denote result) ->
        BusProgram denote world exn ret)

abbrev BusCode (denote : Ty -> Type) (world exn ret : Type) :=
  world -> BusProgram denote world exn ret

/-- What becomes of a send or a query; `none` if handlers are nested too deeply. -/
structure BusServices (denote : Ty -> Type) (world exn : Type) where
  send : world -> (t : Ty) -> denote t -> Option (world × Except (BusException exn) Unit)
  query : world -> (result t : Ty) -> denote t ->
    Option (world × Except (BusException exn) (denote result))

namespace BusProgram

def run (services : BusServices denote world exn) :
    BusProgram denote world exn ret -> Option (world × Except (BusException exn) ret)
  | done w outcome => some (w, outcome)
  | send w t cmd resume =>
      (services.send w t cmd).bind fun answer => (resume answer.fst answer.snd).run services
  | query w result t q resume =>
      (services.query w result t q).bind fun answer => (resume answer.fst answer.snd).run services

def map (f : ret -> ret') : BusProgram denote world exn ret -> BusProgram denote world exn ret'
  | done w outcome => done w (outcome.map f)
  | send w t cmd resume => send w t cmd (fun w' answer => (resume w' answer).map f)
  | query w result t q resume => query w result t q (fun w' answer => (resume w' answer).map f)

theorem run_map (services : BusServices denote world exn) (f : ret -> ret')
    (p : BusProgram denote world exn ret) :
    (p.map f).run services =
      (p.run services).map (fun answer => (answer.fst, answer.snd.map f)) := by
  induction p with
  | done w outcome => rfl
  | send w t cmd resume ih => simp only [map, run, ih, Option.map_bind, Function.comp_def]
  | query w result t q resume ih => simp only [map, run, ih, Option.map_bind, Function.comp_def]

end BusProgram

/-!
## The buses

What is stored for a handler casts the `std::any` it gets back to the type of the
registration.
-/

variable [DecidableEq Ty]

structure CommandBus (denote : Ty -> Type) (world exn : Type) where
  handlers : Finmap (fun _ : Ty => Any denote -> BusCode denote world exn Unit) := ∅

namespace CommandBus

def erased (t : Ty) (handler : denote t -> BusCode denote world exn Unit) (cmd : Any denote) :
    BusCode denote world exn Unit :=
  match cmd.cast t with
  | .ok cmd => handler cmd
  | .error e => fun w => .done w (.error e)

def registerHandler (bus : CommandBus denote world exn) (t : Ty)
    (handler : denote t -> BusCode denote world exn Unit) : CommandBus denote world exn :=
  { handlers := bus.handlers.insert t (erased t handler) }

def send (bus : CommandBus denote world exn) (t : Ty) (cmd : denote t) :
    BusCode denote world exn Unit :=
  match bus.handlers.lookup t with
  | none => fun w => .done w (.error (.commandNotRegistered "no handler registered for command"))
  | some handler => handler ⟨t, cmd⟩

end CommandBus

structure QueryBus (denote : Ty -> Type) (world exn : Type) where
  handlers : Finmap (fun _ : Ty => Any denote -> BusCode denote world exn (Any denote)) := ∅

namespace QueryBus

def erased (t result : Ty) (handler : denote t -> BusCode denote world exn (denote result))
    (q : Any denote) : BusCode denote world exn (Any denote) :=
  match q.cast t with
  | .ok q => fun w => (handler q w).map (Any.mk result)
  | .error e => fun w => .done w (.error e)

def registerHandler (bus : QueryBus denote world exn) (t result : Ty)
    (handler : denote t -> BusCode denote world exn (denote result)) :
    QueryBus denote world exn :=
  { handlers := bus.handlers.insert t (erased t result handler) }

def query (bus : QueryBus denote world exn) (services : BusServices denote world exn) (w : world)
    (result t : Ty) (q : denote t) : Option (world × Except (BusException exn) (denote result)) :=
  match bus.handlers.lookup t with
  | none => some (w, .error (.queryNotRegistered "no handler registered for query"))
  | some handler =>
      ((handler ⟨t, q⟩ w).run services).map fun answer =>
        (answer.fst, answer.snd.bind (Any.cast result))

end QueryBus

structure Mediator (denote : Ty -> Type) (world exn : Type) where
  commands : CommandBus denote world exn := {}
  queries : QueryBus denote world exn := {}

/-- What a program does with a mediator, in order.  Handlers are not registered from
within a handler. -/
inductive MediatorCall (denote : Ty -> Type) (world exn : Type) where
  | registerCommand (t : Ty) (handler : denote t -> BusCode denote world exn Unit)
  | registerQuery (t result : Ty) (handler : denote t -> BusCode denote world exn (denote result))
  | run (code : BusCode denote world exn Unit)

namespace Mediator

def registerCommand (m : Mediator denote world exn) (t : Ty)
    (handler : denote t -> BusCode denote world exn Unit) : Mediator denote world exn :=
  { m with commands := m.commands.registerHandler t handler }

def registerQuery (m : Mediator denote world exn) (t result : Ty)
    (handler : denote t -> BusCode denote world exn (denote result)) :
    Mediator denote world exn :=
  { m with queries := m.queries.registerHandler t result handler }

/-- The two buses, for handlers nested up to a depth. -/
def services (m : Mediator denote world exn) : Nat -> BusServices denote world exn
  | 0 => { send := fun _ _ _ => none, query := fun _ _ _ _ => none }
  | depth + 1 =>
      { send := fun w t cmd => (m.commands.send t cmd w).run (m.services depth)
        query := fun w result t q => m.queries.query (m.services depth) w result t q }

/-- The state and how each piece of code ended; `none` beyond the depth. -/
def session (depth : Nat) : Mediator denote world exn -> world ->
    List (MediatorCall denote world exn) ->
    Option (world × List (Except (BusException exn) Unit))
  | _, w, [] => some (w, [])
  | m, w, .registerCommand t handler :: rest => (m.registerCommand t handler).session depth w rest
  | m, w, .registerQuery t result handler :: rest =>
      (m.registerQuery t result handler).session depth w rest
  | m, w, .run code :: rest =>
      ((code w).run (m.services depth)).bind fun ended =>
        (m.session depth ended.fst rest).map fun later => (later.fst, ended.snd :: later.snd)

end Mediator

/-!
## The dispatcher

The same sessions with a typed handler for each type, and no cast but that of a result.
-/

structure QueryHandler (denote : Ty -> Type) (world exn : Type) (t : Ty) where
  result : Ty
  body : denote t -> BusCode denote world exn (denote result)

/-- One handler for each type of commands, and one for each type of queries. -/
structure Dispatcher (denote : Ty -> Type) (world exn : Type) where
  commandFor : (t : Ty) -> Option (denote t -> BusCode denote world exn Unit) := fun _ => none
  queryFor : (t : Ty) -> Option (QueryHandler denote world exn t) := fun _ => none

namespace Dispatcher

def send (d : Dispatcher denote world exn) (t : Ty) (cmd : denote t) :
    BusCode denote world exn Unit :=
  match d.commandFor t with
  | none => fun w => .done w (.error (.commandNotRegistered "no handler registered for command"))
  | some handler => handler cmd

def expect (result : Ty) {actual : Ty} (value : denote actual) :
    Except (BusException exn) (denote result) :=
  if h : actual = result then .ok (h ▸ value) else .error .badAnyCast

def query (d : Dispatcher denote world exn) (services : BusServices denote world exn) (w : world)
    (result t : Ty) (q : denote t) : Option (world × Except (BusException exn) (denote result)) :=
  match d.queryFor t with
  | none => some (w, .error (.queryNotRegistered "no handler registered for query"))
  | some handler =>
      ((handler.body q w).run services).map fun answer =>
        (answer.fst, answer.snd.bind (expect result))

def services (d : Dispatcher denote world exn) : Nat -> BusServices denote world exn
  | 0 => { send := fun _ _ _ => none, query := fun _ _ _ _ => none }
  | depth + 1 =>
      { send := fun w t cmd => (d.send t cmd w).run (d.services depth)
        query := fun w result t q => d.query (d.services depth) w result t q }

def session (depth : Nat) : Dispatcher denote world exn -> world ->
    List (MediatorCall denote world exn) ->
    Option (world × List (Except (BusException exn) Unit))
  | _, w, [] => some (w, [])
  | d, w, .registerCommand t handler :: rest =>
      { d with commandFor := Function.update d.commandFor t (some handler) }.session depth w rest
  | d, w, .registerQuery t result handler :: rest =>
      { d with queryFor := Function.update d.queryFor t (some ⟨result, handler⟩) }.session
        depth w rest
  | d, w, .run code :: rest =>
      ((code w).run (d.services depth)).bind fun ended =>
        (d.session depth ended.fst rest).map fun later => (later.fst, ended.snd :: later.snd)

end Dispatcher

/-!
## The mediator is the dispatcher

The maps represent the dispatcher after every registration, so that each send and each query
gives the same.
-/

theorem CommandBus.erased_self (t : Ty) (handler : denote t -> BusCode denote world exn Unit)
    (cmd : denote t) : CommandBus.erased t handler ⟨t, cmd⟩ = handler cmd := by
  simp [CommandBus.erased, Any.cast]

theorem QueryBus.erased_self (t result : Ty)
    (handler : denote t -> BusCode denote world exn (denote result)) (q : denote t) :
    QueryBus.erased t result handler ⟨t, q⟩ = fun w => (handler q w).map (Any.mk result) := by
  simp [QueryBus.erased, Any.cast]

namespace Mediator

/-- The maps hold the erased handlers of the dispatcher and nothing else. -/
structure Represents (m : Mediator denote world exn) (d : Dispatcher denote world exn) :
    Prop where
  commands : forall t, m.commands.handlers.lookup t = (d.commandFor t).map (CommandBus.erased t)
  queries : forall t, m.queries.handlers.lookup t =
    (d.queryFor t).map fun handler => QueryBus.erased t handler.result handler.body

variable {m : Mediator denote world exn} {d : Dispatcher denote world exn}

theorem represents_empty :
    ({} : Mediator denote world exn).Represents ({} : Dispatcher denote world exn) where
  commands _ := Finmap.lookup_empty _
  queries _ := Finmap.lookup_empty _

theorem Represents.registerCommand (h : m.Represents d) (t : Ty)
    (handler : denote t -> BusCode denote world exn Unit) :
    (m.registerCommand t handler).Represents
      { d with commandFor := Function.update d.commandFor t (some handler) } where
  commands t' := by
    by_cases hsame : t' = t
    · subst hsame
      simp [Mediator.registerCommand, CommandBus.registerHandler]
    · simp [Mediator.registerCommand, CommandBus.registerHandler, Finmap.lookup_insert_of_ne, hsame,
        h.commands t']
  queries := h.queries

theorem Represents.registerQuery (h : m.Represents d) (t result : Ty)
    (handler : denote t -> BusCode denote world exn (denote result)) :
    (m.registerQuery t result handler).Represents
      { d with queryFor := Function.update d.queryFor t (some ⟨result, handler⟩) } where
  commands := h.commands
  queries t' := by
    by_cases hsame : t' = t
    · subst hsame
      simp [Mediator.registerQuery, QueryBus.registerHandler]
    · simp [Mediator.registerQuery, QueryBus.registerHandler, Finmap.lookup_insert_of_ne, hsame,
        h.queries t']

theorem Represents.send_eq (h : m.Represents d) (t : Ty) (cmd : denote t) :
    m.commands.send t cmd = d.send t cmd := by
  rw [CommandBus.send, Dispatcher.send, h.commands t]
  cases d.commandFor t with
  | none => rfl
  | some handler => exact CommandBus.erased_self t handler cmd

theorem Represents.query_eq (h : m.Represents d) (services : BusServices denote world exn)
    (w : world) (result t : Ty) (q : denote t) :
    m.queries.query services w result t q = d.query services w result t q := by
  rw [QueryBus.query, Dispatcher.query, h.queries t]
  cases d.queryFor t with
  | none => rfl
  | some handler =>
      simp only [Option.map_some]
      rw [QueryBus.erased_self, BusProgram.run_map, Option.map_map]
      congr 1
      funext answer
      -- the cast of the wrapped result looks at the type of the handler
      rcases answer with ⟨w', _ | value⟩ <;> rfl

theorem Represents.services_eq (h : m.Represents d) (depth : Nat) :
    m.services depth = d.services depth := by
  induction depth with
  | zero => rfl
  | succ depth ih => simp only [services, Dispatcher.services, ih, h.send_eq, h.query_eq]

theorem Represents.session_eq (h : m.Represents d) (depth : Nat) (w : world)
    (calls : List (MediatorCall denote world exn)) :
    m.session depth w calls = d.session depth w calls := by
  induction calls generalizing m d w with
  | nil => rfl
  | cons call rest ih =>
      cases call with
      | registerCommand t handler => exact ih (h.registerCommand t handler) w
      | registerQuery t result handler => exact ih (h.registerQuery t result handler) w
      | run code => simp only [session, Dispatcher.session, h.services_eq, ih h]

/-- Registrations and code that uses the buses, in any order and with handlers that use
the buses in turn, give what the dispatcher gives that starts empty. -/
theorem mediator_refines_dispatcher (depth : Nat) (w : world)
    (calls : List (MediatorCall denote world exn)) :
    ({} : Mediator denote world exn).session depth w calls =
      ({} : Dispatcher denote world exn).session depth w calls :=
  represents_empty.session_eq depth w calls

end Mediator

end Application
end CppCommons
