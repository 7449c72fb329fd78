import CppCommons.Application.Mediator
import CppCommons.Cxx.Format

/-!
# Decorated handlers

`logging_command_handler`, `tracing_command_handler` and `validating_command_handler`,
and the first two for queries, wrap a handler before it is registered; they can be
put around each other in any order.  The logger, the tracer and the clock are known
by the calls they receive.  Apart from these calls, logging and tracing change nothing
of what a mediator does.
-/

namespace CppCommons
namespace Application

open Cxx

variable {Ty : Type} {denote : Ty -> Type} {world exn ret ret' obs A : Type}

/-- A call of `LoggerPort`, of `TracerPort` or of the clock. -/
inductive PortCall where
  | now (reading : Nanoseconds)
  | debug (message : Bytes)
  | startSpan (name : Bytes)
  | endSpan
deriving DecidableEq

inductive MessageKind where
  | command
  | query
deriving DecidableEq

def MessageKind.word : MessageKind -> Bytes
  | command => ascii "command"
  | query => ascii "query"

/-!
## Programs

Code that uses the buses is a program tree.  `andThen` appends code that runs unless
the program throws, and `takeUp` says how its end is taken up.
-/

namespace BusProgram

/-- The program, followed by more code unless it throws. -/
def andThen (p : BusProgram denote world exn ret)
    (next : world -> ret -> BusProgram denote world exn ret') : BusProgram denote world exn ret' :=
  match p with
  | done w (.ok result) => next w result
  | done w (.error e) => done w (.error e)
  | send w t cmd resume => send w t cmd (fun w' answer => (resume w' answer).andThen next)
  | query w result t q resume =>
      query w result t q (fun w' answer => (resume w' answer).andThen next)

/-- Code that has no part in what the decorators report. -/
def observed : BusProgram denote world exn ret -> obs -> BusProgram denote (world × obs) exn ret
  | done w outcome, o => done (w, o) outcome
  | send w t cmd resume, o =>
      send (w, o) t cmd (fun w' answer => (resume w'.fst answer).observed w'.snd)
  | query w result t q resume, o =>
      query (w, o) result t q (fun w' answer => (resume w'.fst answer).observed w'.snd)

def takeUp (services : BusServices denote world exn)
    (next : world -> ret -> BusProgram denote world exn ret') :
    world × Except (BusException exn) ret -> Option (world × Except (BusException exn) ret')
  | (w, .ok result) => (next w result).run services
  | (w, .error e) => some (w, .error e)

theorem run_andThen (services : BusServices denote world exn) (p : BusProgram denote world exn ret)
    (next : world -> ret -> BusProgram denote world exn ret') :
    (p.andThen next).run services = (p.run services).bind (takeUp services next) := by
  induction p with
  | done w outcome => cases outcome <;> rfl
  | send w t cmd resume ih => simp only [andThen, run, ih, Option.bind_assoc]
  | query w result t q resume ih => simp only [andThen, run, ih, Option.bind_assoc]

end BusProgram

/-!
## The decorators

Each decorator makes its calls before the handler, and its later ones only if the
handler returns.  A validator throws instead of calling the handler if its text is
not empty.
-/

namespace Decorators

def startedLine (kind : MessageKind) (name : Bytes) : Bytes :=
  kind.word ++ ascii " " ++ name ++ ascii " started"

def finishedLine (kind : MessageKind) (name : Bytes) (elapsed : Nanoseconds) : Bytes :=
  kind.word ++ ascii " " ++ name ++ ascii " finished in " ++ decimal (elapsed.tdiv 1000000) ++
    ascii "ms"

/-- Calls before the code, and calls behind it unless it throws. -/
def reporting (before : List PortCall -> List PortCall)
    (behind : List PortCall -> List PortCall -> List PortCall)
    (code : BusCode denote (world × List PortCall) exn ret) :
    BusCode denote (world × List PortCall) exn ret := fun w =>
  (code (w.fst, w.snd ++ before w.snd)).andThen fun w' result =>
    .done (w'.fst, w'.snd ++ behind w.snd w'.snd) (.ok result)

section Wrappers

-- what the clock shows may depend on everything that was called before
variable (clock : List PortCall -> Nanoseconds)

def logged (kind : MessageKind) (name : Bytes)
    (code : BusCode denote (world × List PortCall) exn ret) :
    BusCode denote (world × List PortCall) exn ret :=
  reporting (fun calls => [.now (clock calls), .debug (startedLine kind name)])
    (fun start calls =>
      [.now (clock calls), .debug (finishedLine kind name (clock calls - clock start))])
    code

variable {t : Ty}

def loggingCommandHandler (name : Bytes)
    (handler : denote t -> BusCode denote (world × List PortCall) exn Unit) (cmd : denote t) :
    BusCode denote (world × List PortCall) exn Unit :=
  logged clock .command name (handler cmd)

def loggingQueryHandler (name : Bytes)
    (handler : denote t -> BusCode denote (world × List PortCall) exn ret) (q : denote t) :
    BusCode denote (world × List PortCall) exn ret :=
  logged clock .query name (handler q)

def traced (name : Bytes) (code : BusCode denote (world × List PortCall) exn ret) :
    BusCode denote (world × List PortCall) exn ret :=
  reporting (fun _ => [.startSpan name]) (fun _ _ => [.endSpan]) code

def tracingCommandHandler (name : Bytes)
    (handler : denote t -> BusCode denote (world × List PortCall) exn Unit) (cmd : denote t) :
    BusCode denote (world × List PortCall) exn Unit :=
  traced name (handler cmd)

def tracingQueryHandler (name : Bytes)
    (handler : denote t -> BusCode denote (world × List PortCall) exn ret) (q : denote t) :
    BusCode denote (world × List PortCall) exn ret :=
  traced name (handler q)

def validatingCommandHandler (validationError : Bytes -> exn)
    (validator : denote t -> Except exn Bytes) (handler : denote t -> BusCode denote world exn Unit)
    (cmd : denote t) : BusCode denote world exn Unit := fun w =>
  match validator cmd with
  | .error e => .done w (.error (.thrown e))
  | .ok err => if err ≠ [] then .done w (.error (.thrown (validationError err))) else handler cmd w

end Wrappers

end Decorators

/-!
## Registrations

What a program does with a mediator: it registers handlers with decorators, listed
from the outside in, and runs code.  `silent` is the same call with the validators
alone.
-/

inductive CommandDecorator (denote : Ty -> Type) (exn : Type) (t : Ty) where
  | logging
  | tracing
  | validating (validator : denote t -> Except exn Bytes)

inductive QueryDecorator where
  | logging
  | tracing
deriving DecidableEq

/-- What a program does with a mediator; decorators are listed from the outside in. -/
inductive DecoratedCall (denote : Ty -> Type) (world exn : Type) where
  | registerCommand (t : Ty) (decorators : List (CommandDecorator denote exn t))
      (handler : denote t -> BusCode denote world exn Unit)
  | registerQuery (t result : Ty) (decorators : List QueryDecorator)
      (handler : denote t -> BusCode denote world exn (denote result))
  | run (code : BusCode denote world exn Unit)

/-- The surroundings of the decorators: the clock, `typeid(T).name()`, and the exception
for a text of a validator. -/
structure DecoratorSetting (Ty exn : Type) where
  clock : List PortCall -> Nanoseconds
  typeName : Ty -> Bytes
  validationError : Bytes -> exn

namespace DecoratorSetting

variable (setting : DecoratorSetting Ty exn)

def command (t : Ty) : List (CommandDecorator denote exn t) ->
    (denote t -> BusCode denote (world × List PortCall) exn Unit) ->
    denote t -> BusCode denote (world × List PortCall) exn Unit
  | [], handler => handler
  | .logging :: inner, handler =>
      Decorators.loggingCommandHandler setting.clock (setting.typeName t)
        (command t inner handler)
  | .tracing :: inner, handler =>
      Decorators.tracingCommandHandler (setting.typeName t) (command t inner handler)
  | .validating validator :: inner, handler =>
      Decorators.validatingCommandHandler setting.validationError validator
        (command t inner handler)

def query (t : Ty) : List QueryDecorator ->
    (denote t -> BusCode denote (world × List PortCall) exn ret) ->
    denote t -> BusCode denote (world × List PortCall) exn ret
  | [], handler => handler
  | .logging :: inner, handler =>
      Decorators.loggingQueryHandler setting.clock (setting.typeName t)
        (query t inner handler)
  | .tracing :: inner, handler =>
      Decorators.tracingQueryHandler (setting.typeName t) (query t inner handler)

def validated (t : Ty) : List (CommandDecorator denote exn t) ->
    (denote t -> BusCode denote world exn Unit) -> denote t -> BusCode denote world exn Unit
  | [], handler => handler
  | .validating validator :: inner, handler =>
      Decorators.validatingCommandHandler setting.validationError validator
        (validated t inner handler)
  | _ :: inner, handler => validated t inner handler

def decorated : DecoratedCall denote world exn -> MediatorCall denote (world × List PortCall) exn
  | .registerCommand t decorators handler =>
      .registerCommand t
        (setting.command t decorators (fun cmd w => (handler cmd w.fst).observed w.snd))
  | .registerQuery t result decorators handler =>
      .registerQuery t result
        (setting.query t decorators (fun q w => (handler q w.fst).observed w.snd))
  | .run code => .run (fun w => (code w.fst).observed w.snd)

def silent : DecoratedCall denote world exn -> MediatorCall denote world exn
  | .registerCommand t decorators handler =>
      .registerCommand t (setting.validated t decorators handler)
  | .registerQuery t result _ handler => .registerQuery t result handler
  | .run code => .run code

end DecoratorSetting

/-!
## Erasure

One program erases to another if dropping what the first reports leaves the run of
the second.  The relation is kept by everything that programs are made of.
-/

/-- A result without what was reported on the way. -/
def dropReports (answer : (world × obs) × A) : world × A :=
  (answer.fst.fst, answer.snd)

structure BusServices.Erases (s : BusServices denote (world × obs) exn)
    (s' : BusServices denote world exn) : Prop where
  send : forall w o t cmd, (s.send (w, o) t cmd).map dropReports = s'.send w t cmd
  query : forall w o result t q,
    (s.query (w, o) result t q).map dropReports = s'.query w result t q

def BusProgram.Erases (p : BusProgram denote (world × obs) exn ret)
    (q : BusProgram denote world exn ret) : Prop :=
  forall s s', s.Erases s' -> (p.run s).map dropReports = q.run s'

def BusCode.Erases (code : BusCode denote (world × obs) exn ret)
    (code' : BusCode denote world exn ret) : Prop :=
  forall w o, (code (w, o)).Erases (code' w)

theorem map_bind_of_map_eq {answers : Option ((world × obs) × A)} {answers' : Option (world × A)}
    (h : answers.map dropReports = answers') {B : Type}
    {resume : (world × obs) × A -> Option ((world × obs) × B)}
    {resume' : world × A -> Option (world × B)}
    (hresume : forall w o a, (resume ((w, o), a)).map dropReports = resume' (w, a)) :
    (answers.bind resume).map dropReports = answers'.bind resume' := by
  subst h
  rcases answers with _ | ⟨⟨w, o⟩, a⟩
  · rfl
  · exact hresume w o a

theorem BusProgram.observed_erases (p : BusProgram denote world exn ret) (o : obs) :
    (p.observed o).Erases p := by
  intro s s' hs
  induction p generalizing o with
  | done w outcome => rfl
  | send w t cmd resume ih =>
      exact map_bind_of_map_eq (hs.send w o t cmd) (fun w' o' answer => ih w' answer o')
  | query w result t q resume ih =>
      exact map_bind_of_map_eq (hs.query w o result t q) (fun w' o' answer => ih w' answer o')

theorem BusProgram.Erases.map {p : BusProgram denote (world × obs) exn ret}
    {q : BusProgram denote world exn ret} (h : p.Erases q) (f : ret -> ret') :
    (p.map f).Erases (q.map f) := by
  intro s s' hs
  rw [BusProgram.run_map, BusProgram.run_map, ← h s s' hs, Option.map_map, Option.map_map]
  rfl

section Erasure

variable {code : BusCode denote (world × List PortCall) exn ret}
  {code' : BusCode denote world exn ret}

theorem Decorators.reporting_erases (before : List PortCall -> List PortCall)
    (behind : List PortCall -> List PortCall -> List PortCall) (h : BusCode.Erases code code') :
    BusCode.Erases (reporting before behind code) code' := by
  intro w calls s s' hs
  have hinner := h w (calls ++ before calls) s s' hs
  rw [reporting, BusProgram.run_andThen, ← Option.bind_fun_some ((code' w).run s')]
  refine map_bind_of_map_eq hinner (fun w' calls' outcome => ?_)
  cases outcome <;> rfl

end Erasure

theorem Decorators.validating_erases {t : Ty} (validationError : Bytes -> exn)
    (validator : denote t -> Except exn Bytes)
    {handler : denote t -> BusCode denote (world × obs) exn Unit}
    {handler' : denote t -> BusCode denote world exn Unit} {cmd : denote t}
    (h : BusCode.Erases (handler cmd) (handler' cmd)) :
    BusCode.Erases (validatingCommandHandler validationError validator handler cmd)
      (validatingCommandHandler validationError validator handler' cmd) := by
  intro w o s s' hs
  simp only [validatingCommandHandler]
  cases validator cmd with
  | error e => rfl
  | ok err =>
      by_cases herr : err ≠ []
      · simp only [if_pos herr]
        rfl
      · simp only [if_neg herr]
        exact h w o s s' hs

namespace DecoratorSetting

variable (setting : DecoratorSetting Ty exn)

theorem command_erases {t : Ty} (decorators : List (CommandDecorator denote exn t))
    (handler : denote t -> BusCode denote world exn Unit) (cmd : denote t) :
    BusCode.Erases
      (setting.command t decorators (fun cmd w => (handler cmd w.fst).observed w.snd) cmd)
      (setting.validated t decorators handler cmd) := by
  induction decorators with
  | nil => exact fun w calls => (handler cmd w).observed_erases calls
  | cons decorator inner ih =>
      cases decorator with
      | logging =>
          simp only [command, validated, Decorators.loggingCommandHandler, Decorators.logged]
          exact Decorators.reporting_erases _ _ ih
      | tracing =>
          simp only [command, validated, Decorators.tracingCommandHandler, Decorators.traced]
          exact Decorators.reporting_erases _ _ ih
      | validating validator => exact Decorators.validating_erases _ validator ih

theorem query_erases {t : Ty} (decorators : List QueryDecorator)
    (handler : denote t -> BusCode denote world exn ret) (q : denote t) :
    BusCode.Erases
      (setting.query t decorators (fun q w => (handler q w.fst).observed w.snd) q) (handler q) := by
  induction decorators with
  | nil => exact fun w calls => (handler q w).observed_erases calls
  | cons decorator inner ih =>
      cases decorator with
      | logging =>
          simp only [query, Decorators.loggingQueryHandler, Decorators.logged]
          exact Decorators.reporting_erases _ _ ih
      | tracing =>
          simp only [query, Decorators.tracingQueryHandler, Decorators.traced]
          exact Decorators.reporting_erases _ _ ih

end DecoratorSetting

/-!
## The mediator

Two mediators with the same types registered and with erasing handlers run the same
code alike, at every depth of dispatches.
-/

namespace Mediator

variable [DecidableEq Ty]

/-- The same types are registered, and handlers of the first are those of the second with
reports. -/
structure Erases (m : Mediator denote (world × obs) exn) (m' : Mediator denote world exn) :
    Prop where
  commands : forall t, Option.Rel (fun h h' => forall cmd, BusCode.Erases (h cmd) (h' cmd))
    (m.commands.handlers.lookup t) (m'.commands.handlers.lookup t)
  queries : forall t, Option.Rel (fun h h' => forall q, BusCode.Erases (h q) (h' q))
    (m.queries.handlers.lookup t) (m'.queries.handlers.lookup t)

variable {m : Mediator denote (world × obs) exn} {m' : Mediator denote world exn}

theorem erases_empty :
    ({} : Mediator denote (world × obs) exn).Erases ({} : Mediator denote world exn) where
  commands _ := .none
  queries _ := .none

theorem Erases.registerCommand (h : m.Erases m') {t : Ty}
    {handler : denote t -> BusCode denote (world × obs) exn Unit}
    {handler' : denote t -> BusCode denote world exn Unit}
    (hhandler : forall cmd, BusCode.Erases (handler cmd) (handler' cmd)) :
    (m.registerCommand t handler).Erases (m'.registerCommand t handler') where
  commands t' := by
    simp only [Mediator.registerCommand, CommandBus.registerHandler]
    by_cases hsame : t' = t
    · subst hsame
      rw [Finmap.lookup_insert, Finmap.lookup_insert]
      refine .some (fun cmd => ?_)
      simp only [CommandBus.erased]
      cases (cmd.cast t' : Except (BusException exn) (denote t')) with
      | error e => exact fun w o s s' _ => rfl
      | ok cmd => exact hhandler cmd
    · rw [Finmap.lookup_insert_of_ne _ hsame, Finmap.lookup_insert_of_ne _ hsame]
      exact h.commands t'
  queries := h.queries

theorem Erases.registerQuery (h : m.Erases m') {t result : Ty}
    {handler : denote t -> BusCode denote (world × obs) exn (denote result)}
    {handler' : denote t -> BusCode denote world exn (denote result)}
    (hhandler : forall q, BusCode.Erases (handler q) (handler' q)) :
    (m.registerQuery t result handler).Erases (m'.registerQuery t result handler') where
  commands := h.commands
  queries t' := by
    simp only [Mediator.registerQuery, QueryBus.registerHandler]
    by_cases hsame : t' = t
    · subst hsame
      rw [Finmap.lookup_insert, Finmap.lookup_insert]
      refine .some (fun q => ?_)
      simp only [QueryBus.erased]
      cases (q.cast t' : Except (BusException exn) (denote t')) with
      | error e => exact fun w o s s' _ => rfl
      | ok q => exact fun w o => BusProgram.Erases.map (hhandler q w o) (Any.mk result)
    · rw [Finmap.lookup_insert_of_ne _ hsame, Finmap.lookup_insert_of_ne _ hsame]
      exact h.queries t'

theorem Erases.services (h : m.Erases m') (depth : Nat) :
    (m.services depth).Erases (m'.services depth) := by
  induction depth with
  | zero => exact ⟨fun _ _ _ _ => rfl, fun _ _ _ _ _ => rfl⟩
  | succ depth ih =>
      constructor
      · intro w o t cmd
        simp only [Mediator.services, CommandBus.send]
        have hfound := h.commands t
        generalize m.commands.handlers.lookup t = found, m'.commands.handlers.lookup t = found'
          at hfound
        cases hfound with
        | none => rfl
        | some hhandler => exact hhandler ⟨t, cmd⟩ w o _ _ ih
      · intro w o result t q
        simp only [Mediator.services, QueryBus.query]
        have hfound := h.queries t
        generalize m.queries.handlers.lookup t = found, m'.queries.handlers.lookup t = found'
          at hfound
        cases hfound with
        | none => rfl
        | some hhandler =>
            have hanswer := hhandler ⟨t, q⟩ w o _ _ ih
            simp only [← hanswer, Option.map_map]
            rfl

end Mediator

namespace DecoratorSetting

variable [DecidableEq Ty]

theorem session_erases (setting : DecoratorSetting Ty exn) (depth : Nat)
    {m : Mediator denote (world × List PortCall) exn} {m' : Mediator denote world exn}
    (h : m.Erases m') (w : world) (reports : List PortCall)
    (calls : List (DecoratedCall denote world exn)) :
    (m.session depth (w, reports) (calls.map setting.decorated)).map dropReports =
      m'.session depth w (calls.map setting.silent) := by
  induction calls generalizing m m' w reports with
  | nil => rfl
  | cons call rest ih =>
      cases call with
      | registerCommand t decorators handler =>
          exact ih (h.registerCommand (setting.command_erases decorators handler)) w reports
      | registerQuery t result decorators handler =>
          exact ih (h.registerQuery (setting.query_erases decorators handler)) w reports
      | run code =>
          have hcode := (code w).observed_erases reports _ _ (h.services depth)
          refine map_bind_of_map_eq hcode (fun w' reports' outcome => ?_)
          rw [← ih h w' reports', Option.map_map, Option.map_map]
          rfl

/--
Logging and tracing, put around any of the handlers in any order and with validation
at any place between them, do not change what a mediator does: the state, the outcome
of every piece of code and the depth of nesting that is needed are those of the
mediator whose handlers have the validators alone.
-/
theorem decorators_transparent (setting : DecoratorSetting Ty exn) (depth : Nat) (w : world)
    (reports : List PortCall) (calls : List (DecoratedCall denote world exn)) :
    (({} : Mediator denote (world × List PortCall) exn).session depth (w, reports)
        (calls.map setting.decorated)).map dropReports =
      ({} : Mediator denote world exn).session depth w (calls.map setting.silent) :=
  setting.session_erases depth Mediator.erases_empty w reports calls

end DecoratorSetting

end Application
end CppCommons
