import CppCommons.Application.HandlerDecorators

/-!
# What decorated handlers report

The calls that a dispatch makes on the logger, the tracer and the clock.  Each layer
around a handler reports before the layers within it and, if the handler returns,
again behind them; between the two stand the reports of the dispatches the handler
makes itself, under the registrations in force.  A handler that throws leaves the
layers around it without their second report.
-/

namespace CppCommons
namespace Application

open Cxx

variable {Ty : Type} {denote : Ty -> Type} {world exn ret A : Type}

inductive Layer (exn : Type) where
  | logging
  | tracing
  | validating (verdict : Except exn Bytes)

def CommandDecorator.layer {t : Ty} (cmd : denote t) : CommandDecorator denote exn t -> Layer exn
  | logging => .logging
  | tracing => .tracing
  | validating validator => .validating (validator cmd)

def QueryDecorator.layer : QueryDecorator -> Layer exn
  | logging => .logging
  | tracing => .tracing

/-!
## Registrations in force

Of the registrations for a type the last one counts; the code of the handler is kept as it was
before it was decorated.
-/

structure DecoratedCommand (denote : Ty -> Type) (world exn : Type) (t : Ty) where
  decorators : List (CommandDecorator denote exn t)
  handler : denote t -> BusCode denote world exn Unit

structure DecoratedQuery (denote : Ty -> Type) (world exn : Type) (t : Ty) where
  result : Ty
  decorators : List QueryDecorator
  handler : denote t -> BusCode denote world exn (denote result)

structure Registry (denote : Ty -> Type) (world exn : Type) where
  commandFor : (t : Ty) -> Option (DecoratedCommand denote world exn t) := fun _ => none
  queryFor : (t : Ty) -> Option (DecoratedQuery denote world exn t) := fun _ => none

namespace Registry

variable [DecidableEq Ty]

def register (r : Registry denote world exn) :
    DecoratedCall denote world exn -> Registry denote world exn
  | .registerCommand t decorators handler =>
      { r with commandFor := Function.update r.commandFor t (some ⟨decorators, handler⟩) }
  | .registerQuery t result decorators handler =>
      { r with queryFor := Function.update r.queryFor t (some ⟨result, decorators, handler⟩) }
  | .run _ => r

def after (calls : List (DecoratedCall denote world exn)) : Registry denote world exn :=
  calls.foldl register {}

theorem commandFor_after (before : List (DecoratedCall denote world exn))
    {later : List (DecoratedCall denote world exn)} {t : Ty}
    (decorators : List (CommandDecorator denote exn t))
    (handler : denote t -> BusCode denote world exn Unit)
    (hlast : forall decorators' handler', .registerCommand t decorators' handler' ∉ later) :
    (after (before ++ .registerCommand t decorators handler :: later)).commandFor t =
      some ⟨decorators, handler⟩ := by
  have hkept : forall r : Registry denote world exn,
      (later.foldl register r).commandFor t = r.commandFor t := by
    induction later with
    | nil => exact fun r => rfl
    | cons call later ih =>
        intro r
        have hrest := ih (fun decorators' handler' hmem =>
          hlast decorators' handler' (List.mem_cons_of_mem call hmem))
        rw [List.foldl_cons, hrest]
        cases call with
        | registerCommand t' decorators' handler' =>
            have hne : t ≠ t' := by
              intro hsame
              subst hsame
              exact hlast decorators' handler' List.mem_cons_self
            exact Function.update_of_ne hne _ _
        | registerQuery t' result decorators' handler' => rfl
        | run code => rfl
  rw [after, List.foldl_append, List.foldl_cons, hkept]
  exact Function.update_self _ _ _

end Registry

/-!
## The form of the reports

A run of code, and what it reports: the code is that of the handlers, and every dispatch it
makes is looked up in the registry.
-/

inductive ReportPart (denote : Ty -> Type) (world exn : Type) : Type 1 where
  | code {ret : Type} (program : BusProgram denote world exn ret) (w' : world)
      (outcome : Except (BusException exn) ret)
  | send (w : world) (t : Ty) (cmd : denote t) (w' : world)
      (outcome : Except (BusException exn) Unit)
  | query (w : world) (result t : Ty) (q : denote t) (w' : world)
      (outcome : Except (BusException exn) (denote result))
  | wrapped {ret : Type} (kind : MessageKind) (name : Bytes) (layers : List (Layer exn))
      (handler : BusCode denote world exn ret) (w w' : world)
      (outcome : Except (BusException exn) ret)

def whenReturned (returned : Bool) (calls : List PortCall) : List PortCall :=
  if returned then calls else []

/-- What is thrown for a verdict that is not the empty text. -/
def DecoratorSetting.rejection (setting : DecoratorSetting Ty exn) : Except exn Bytes -> exn
  | .error e => e
  | .ok err => setting.validationError err

section Form

variable [DecidableEq Ty] (setting : DecoratorSetting Ty exn) (r : Registry denote world exn)

open Decorators in
inductive Reports : ReportPart denote world exn -> List PortCall -> Prop where
  | done {ret : Type} (w : world) (outcome : Except (BusException exn) ret) :
      Reports (.code (.done w outcome) w outcome) []
  | sends {ret : Type} {w w' w'' : world} {t : Ty} {cmd : denote t}
      {resume : world -> Except (BusException exn) Unit -> BusProgram denote world exn ret}
      {answer : Except (BusException exn) Unit} {outcome : Except (BusException exn) ret}
      {calls rest : List PortCall} (first : Reports (.send w t cmd w' answer) calls)
      (later : Reports (.code (resume w' answer) w'' outcome) rest) :
      Reports (.code (.send w t cmd resume) w'' outcome) (calls ++ rest)
  | asks {ret : Type} {w w' w'' : world} {result t : Ty} {q : denote t}
      {resume : world -> Except (BusException exn) (denote result) ->
        BusProgram denote world exn ret}
      {answer : Except (BusException exn) (denote result)}
      {outcome : Except (BusException exn) ret}
      {calls rest : List PortCall} (first : Reports (.query w result t q w' answer) calls)
      (later : Reports (.code (resume w' answer) w'' outcome) rest) :
      Reports (.code (.query w result t q resume) w'' outcome) (calls ++ rest)
  | unknownCommand {w : world} {t : Ty} {cmd : denote t} (missing : r.commandFor t = none) :
      Reports (.send w t cmd w
        (.error (.commandNotRegistered "no handler registered for command"))) []
  | command {w w' : world} {t : Ty} {cmd : denote t}
      {registered : DecoratedCommand denote world exn t}
      {outcome : Except (BusException exn) Unit} {calls : List PortCall}
      (found : r.commandFor t = some registered)
      (dispatched : Reports (.wrapped .command (setting.typeName t)
        (registered.decorators.map (CommandDecorator.layer cmd)) (registered.handler cmd) w w'
        outcome) calls) :
      Reports (.send w t cmd w' outcome) calls
  | unknownQuery {w : world} {result t : Ty} {q : denote t} (missing : r.queryFor t = none) :
      Reports (.query w result t q w
        (.error (.queryNotRegistered "no handler registered for query"))) []
  | query {w w' : world} {result t : Ty} {q : denote t}
      {registered : DecoratedQuery denote world exn t}
      {outcome : Except (BusException exn) (denote registered.result)} {calls : List PortCall}
      (found : r.queryFor t = some registered)
      (dispatched : Reports (.wrapped .query (setting.typeName t)
        (registered.decorators.map QueryDecorator.layer) (registered.handler q) w w' outcome)
        calls) :
      Reports (.query w result t q w' (outcome.bind (Dispatcher.expect result))) calls
  | handler {ret : Type} {kind : MessageKind} {name : Bytes} {code : BusCode denote world exn ret}
      {w w' : world} {outcome : Except (BusException exn) ret} {calls : List PortCall}
      (inner : Reports (.code (code w) w' outcome) calls) :
      Reports (.wrapped kind name [] code w w' outcome) calls
  | logging {ret : Type} {kind : MessageKind} {name : Bytes} {layers : List (Layer exn)}
      {code : BusCode denote world exn ret} {w w' : world}
      {outcome : Except (BusException exn) ret} {calls : List PortCall}
      (start finish : Nanoseconds)
      (inner : Reports (.wrapped kind name layers code w w' outcome) calls) :
      Reports (.wrapped kind name (.logging :: layers) code w w' outcome)
        ([.now start, .debug (startedLine kind name)] ++ calls ++
          whenReturned outcome.isOk
            [.now finish, .debug (finishedLine kind name (finish - start))])
  | tracing {ret : Type} {kind : MessageKind} {name : Bytes} {layers : List (Layer exn)}
      {code : BusCode denote world exn ret} {w w' : world}
      {outcome : Except (BusException exn) ret} {calls : List PortCall}
      (inner : Reports (.wrapped kind name layers code w w' outcome) calls) :
      Reports (.wrapped kind name (.tracing :: layers) code w w' outcome)
        ([.startSpan name] ++ calls ++ whenReturned outcome.isOk [.endSpan])
  | accepted {ret : Type} {kind : MessageKind} {name : Bytes} {layers : List (Layer exn)}
      {code : BusCode denote world exn ret} {w w' : world}
      {outcome : Except (BusException exn) ret} {calls : List PortCall}
      (inner : Reports (.wrapped kind name layers code w w' outcome) calls) :
      Reports (.wrapped kind name (.validating (.ok []) :: layers) code w w' outcome) calls
  | rejected {ret : Type} {kind : MessageKind} {name : Bytes} {layers : List (Layer exn)}
      {code : BusCode denote world exn ret} {w : world} {verdict : Except exn Bytes}
      (refused : verdict ≠ .ok []) :
      Reports (.wrapped kind name (.validating verdict :: layers) code w w
        (.error (.thrown (setting.rejection verdict)))) []

end Form

/-- The number of open spans, from a number at the start; an `end_span` without one is an
error. -/
def openSpans : Nat -> List PortCall -> Option Nat
  | n, [] => some n
  | n, .startSpan _ :: calls => openSpans (n + 1) calls
  | 0, .endSpan :: _ => none
  | n + 1, .endSpan :: calls => openSpans n calls
  | n, _ :: calls => openSpans n calls

theorem openSpans_append (n : Nat) (calls calls' : List PortCall) :
    openSpans n (calls ++ calls') = (openSpans n calls).bind fun m => openSpans m calls' := by
  induction calls generalizing n with
  | nil => rfl
  | cons call calls ih =>
      cases call with
      | endSpan =>
          cases n with
          | zero => rfl
          | succ n => exact ih n
      | startSpan name => exact ih (n + 1)
      | now reading => cases n <;> exact ih _
      | debug message => cases n <;> exact ih _

section Spans

variable [DecidableEq Ty] {setting : DecoratorSetting Ty exn} {r : Registry denote world exn}

theorem openSpans_sequence {calls rest : List PortCall}
    (hfirst : forall n, exists left, openSpans n calls = some left ∧ n <= left)
    (hlater : forall n, exists left, openSpans n rest = some left ∧ n <= left) (n : Nat) :
    exists left, openSpans n (calls ++ rest) = some left ∧ n <= left := by
  rcases hfirst n with ⟨m, hm, hle⟩
  rcases hlater m with ⟨left, hleft, hle'⟩
  exact ⟨left, by rw [openSpans_append, hm, Option.bind_some, hleft], Nat.le_trans hle hle'⟩

theorem Reports.openSpans_le {part : ReportPart denote world exn} {calls : List PortCall}
    (h : Reports setting r part calls) (n : Nat) :
    exists left, openSpans n calls = some left ∧ n <= left := by
  induction h generalizing n with
  | done _ _ => exact ⟨n, rfl, Nat.le_refl n⟩
  | sends _ _ ih ih' => exact openSpans_sequence ih ih' n
  | asks _ _ ih ih' => exact openSpans_sequence ih ih' n
  | unknownCommand _ => exact ⟨n, rfl, Nat.le_refl n⟩
  | command _ _ ih => exact ih n
  | unknownQuery _ => exact ⟨n, rfl, Nat.le_refl n⟩
  | query _ _ ih => exact ih n
  | handler _ ih => exact ih n
  | @logging ret kind name layers code w w' outcome calls start finish _ ih =>
      rcases ih n with ⟨left, hleft, hle⟩
      refine ⟨left, ?_, hle⟩
      have hfront : openSpans n [.now start, .debug (Decorators.startedLine kind name)] =
          some n := by
        cases n <;> rfl
      rw [openSpans_append, openSpans_append, hfront, Option.bind_some, hleft, Option.bind_some]
      cases outcome.isOk <;> cases left <;> rfl
  | @tracing ret kind name layers code w w' outcome calls _ ih =>
      rcases ih (n + 1) with ⟨left, hleft, hle⟩
      rw [openSpans_append, openSpans_append, openSpans, openSpans, Option.bind_some, hleft,
        Option.bind_some]
      cases outcome.isOk with
      | false => exact ⟨left, rfl, by lia⟩
      | true =>
          -- the span that is ended is the one started here
          cases left with
          | zero => lia
          | succ left => exact ⟨left, rfl, by lia⟩
  | accepted _ ih => exact ih n
  | rejected _ => exact ⟨n, rfl, Nat.le_refl n⟩

end Spans

/-!
## Code and its reports

Each decorator adds its layer to what the code within it reports.
-/

section Code

variable [DecidableEq Ty] (setting : DecoratorSetting Ty exn) (r : Registry denote world exn)

def Adds (reports : List PortCall) (part : ReportPart denote world exn)
    (reports' : List PortCall) : Prop :=
  exists written, reports' = reports ++ written ∧ Reports setting r part written

structure BusServices.Report (s : BusServices denote (world × List PortCall) exn) : Prop where
  send : forall w reports t cmd w' reports' outcome,
    s.send (w, reports) t cmd = some ((w', reports'), outcome) ->
      Adds setting r reports (.send w t cmd w' outcome) reports'
  query : forall w reports result t q w' reports' outcome,
    s.query (w, reports) result t q = some ((w', reports'), outcome) ->
      Adds setting r reports (.query w result t q w' outcome) reports'

def BusCode.Report (code : BusCode denote (world × List PortCall) exn ret) (kind : MessageKind)
    (name : Bytes) (layers : List (Layer exn)) (handler : BusCode denote world exn ret) : Prop :=
  forall (s : BusServices denote (world × List PortCall) exn), s.Report setting r ->
    forall w reports w' reports' outcome,
      (code (w, reports)).run s = some ((w', reports'), outcome) ->
        Adds setting r reports (.wrapped kind name layers handler w w' outcome) reports'

variable {setting r}

theorem BusProgram.observed_adds {s : BusServices denote (world × List PortCall) exn}
    (hs : s.Report setting r) (p : BusProgram denote world exn ret)
    {reports reports' : List PortCall} {w' : world} {outcome : Except (BusException exn) ret}
    (h : (p.observed reports).run s = some ((w', reports'), outcome)) :
    Adds setting r reports (.code p w' outcome) reports' := by
  induction p generalizing reports with
  | done w outcome =>
      cases h
      exact ⟨[], (List.append_nil _).symm, .done _ _⟩
  | send w t cmd resume ih =>
      rcases Option.bind_eq_some_iff.mp h with ⟨⟨⟨w'', reports''⟩, answer⟩, hsent, hrest⟩
      rcases hs.send w reports t cmd w'' reports'' answer hsent with ⟨calls, rfl, hcalls⟩
      rcases ih w'' answer hrest with ⟨rest, hreports, hlater⟩
      rw [List.append_assoc] at hreports
      exact ⟨calls ++ rest, hreports, .sends hcalls hlater⟩
  | query w result t q resume ih =>
      rcases Option.bind_eq_some_iff.mp h with ⟨⟨⟨w'', reports''⟩, answer⟩, hasked, hrest⟩
      rcases hs.query w reports result t q w'' reports'' answer hasked with ⟨calls, rfl, hcalls⟩
      rcases ih w'' answer hrest with ⟨rest, hreports, hlater⟩
      rw [List.append_assoc] at hreports
      exact ⟨calls ++ rest, hreports, .asks hcalls hlater⟩

theorem observed_report (code : BusCode denote world exn ret) (kind : MessageKind) (name : Bytes) :
    BusCode.Report setting r (fun w => (code w.fst).observed w.snd) kind name [] code := by
  intro s hs w reports w' reports' outcome h
  rcases (code w).observed_adds hs h with ⟨written, hreports, hwritten⟩
  exact ⟨written, hreports, .handler hwritten⟩

omit [DecidableEq Ty] in
theorem run_reporting {before : List PortCall -> List PortCall}
    {behind : List PortCall -> List PortCall -> List PortCall}
    {code : BusCode denote (world × List PortCall) exn ret}
    {s : BusServices denote (world × List PortCall) exn} {w w' : world}
    {reports reports' : List PortCall} {outcome : Except (BusException exn) ret}
    (h : (Decorators.reporting before behind code (w, reports)).run s =
      some ((w', reports'), outcome)) :
    exists inner, (code (w, reports ++ before reports)).run s = some ((w', inner), outcome) ∧
      reports' = inner ++ whenReturned outcome.isOk (behind reports inner) := by
  rw [Decorators.reporting, BusProgram.run_andThen] at h
  rcases Option.bind_eq_some_iff.mp h with ⟨⟨⟨w'', inner⟩, answer⟩, hinner, htaken⟩
  cases answer with
  | error e =>
      cases htaken
      exact ⟨_, hinner, (List.append_nil _).symm⟩
  | ok result =>
      cases htaken
      exact ⟨_, hinner, rfl⟩

section Layers

variable {kind : MessageKind} {name : Bytes} {layers : List (Layer exn)}
  {code : BusCode denote (world × List PortCall) exn ret} {handler : BusCode denote world exn ret}

theorem logged_report (clock : List PortCall -> Nanoseconds)
    (h : BusCode.Report setting r code kind name layers handler) :
    BusCode.Report setting r (Decorators.logged clock kind name code) kind name
      (.logging :: layers) handler := by
  intro s hs w reports w' reports' outcome hrun
  rcases run_reporting hrun with ⟨inner, hinner, hreports⟩
  rcases h s hs w _ w' inner outcome hinner with ⟨written, hwritten, hform⟩
  refine ⟨_, ?_, .logging (clock reports) (clock inner) hform⟩
  simp only [hreports, hwritten, List.append_assoc]

theorem traced_report (h : BusCode.Report setting r code kind name layers handler) :
    BusCode.Report setting r (Decorators.traced name code) kind name (.tracing :: layers)
      handler := by
  intro s hs w reports w' reports' outcome hrun
  rcases run_reporting hrun with ⟨inner, hinner, hreports⟩
  rcases h s hs w _ w' inner outcome hinner with ⟨written, hwritten, hform⟩
  refine ⟨_, ?_, .tracing hform⟩
  simp only [hreports, hwritten, List.append_assoc]

end Layers

theorem validated_report {t : Ty} {name : Bytes} {layers : List (Layer exn)}
    (validator : denote t -> Except exn Bytes)
    {code : denote t -> BusCode denote (world × List PortCall) exn Unit} {cmd : denote t}
    {handler : BusCode denote world exn Unit}
    (h : BusCode.Report setting r (code cmd) .command name layers handler) :
    BusCode.Report setting r
      (Decorators.validatingCommandHandler setting.validationError validator code cmd)
      .command name (.validating (validator cmd) :: layers) handler := by
  intro s hs w reports w' reports' outcome hrun
  rw [Decorators.validatingCommandHandler] at hrun
  rcases hverdict : validator cmd with e | err
  · rw [hverdict] at hrun
    cases hrun
    exact ⟨[], (List.append_nil reports).symm, .rejected (by simp)⟩
  · rw [hverdict] at hrun
    cases err with
    | nil =>
        rcases h s hs w reports w' reports' outcome hrun with ⟨written, hreports, hform⟩
        exact ⟨written, hreports, .accepted hform⟩
    | cons c err =>
        cases hrun
        exact ⟨[], (List.append_nil reports).symm, .rejected (by simp)⟩

end Code

namespace DecoratorSetting

variable [DecidableEq Ty] (setting : DecoratorSetting Ty exn) {r : Registry denote world exn}

theorem command_report {t : Ty} (decorators : List (CommandDecorator denote exn t))
    (handler : denote t -> BusCode denote world exn Unit) (cmd : denote t) :
    BusCode.Report setting r
      (setting.command t decorators (fun cmd w => (handler cmd w.fst).observed w.snd) cmd)
      .command (setting.typeName t) (decorators.map (CommandDecorator.layer cmd))
      (handler cmd) := by
  induction decorators with
  | nil => exact observed_report (handler cmd) _ _
  | cons decorator inner ih =>
      cases decorator with
      | logging => exact logged_report setting.clock ih
      | tracing => exact traced_report ih
      | validating validator => exact validated_report validator ih

theorem query_report {t : Ty} (decorators : List QueryDecorator)
    (handler : denote t -> BusCode denote world exn ret) (q : denote t) :
    BusCode.Report setting r
      (setting.query t decorators (fun q w => (handler q w.fst).observed w.snd) q)
      .query (setting.typeName t) (decorators.map QueryDecorator.layer) (handler q) := by
  induction decorators with
  | nil => exact observed_report (handler q) _ _
  | cons decorator inner ih =>
      cases decorator with
      | logging => exact logged_report setting.clock ih
      | tracing => exact traced_report ih

end DecoratorSetting

/-!
## Dispatches

The mediator after the registrations is the dispatcher whose handlers are those of the
registry, decorated.
-/

variable [DecidableEq Ty]

def Mediator.register (m : Mediator denote world exn) :
    MediatorCall denote world exn -> Mediator denote world exn
  | .registerCommand t handler => m.registerCommand t handler
  | .registerQuery t result handler => m.registerQuery t result handler
  | .run _ => m

namespace DecoratorSetting

variable (setting : DecoratorSetting Ty exn)

def mediator (calls : List (DecoratedCall denote world exn)) :
    Mediator denote (world × List PortCall) exn :=
  (calls.map setting.decorated).foldl Mediator.register {}

def dispatcher (r : Registry denote world exn) :
    Dispatcher denote (world × List PortCall) exn where
  commandFor t := (r.commandFor t).map fun registered =>
    setting.command t registered.decorators fun cmd w =>
      (registered.handler cmd w.fst).observed w.snd
  queryFor t := (r.queryFor t).map fun registered =>
    { result := registered.result
      body := setting.query t registered.decorators fun q w =>
        (registered.handler q w.fst).observed w.snd }

theorem dispatcher_registerCommand (r : Registry denote world exn) (t : Ty)
    (decorators : List (CommandDecorator denote exn t))
    (handler : denote t -> BusCode denote world exn Unit) :
    setting.dispatcher (r.register (.registerCommand t decorators handler)) =
      { setting.dispatcher r with
        commandFor := Function.update (setting.dispatcher r).commandFor t
          (some (setting.command t decorators fun cmd w =>
            (handler cmd w.fst).observed w.snd)) } := by
  simp only [dispatcher, Registry.register, Dispatcher.mk.injEq, and_true]
  funext t'
  by_cases hsame : t' = t
  · subst hsame
    simp
  · simp [hsame]

theorem dispatcher_registerQuery (r : Registry denote world exn) (t result : Ty)
    (decorators : List QueryDecorator)
    (handler : denote t -> BusCode denote world exn (denote result)) :
    setting.dispatcher (r.register (.registerQuery t result decorators handler)) =
      { setting.dispatcher r with
        queryFor := Function.update (setting.dispatcher r).queryFor t
          (some ⟨result, setting.query t decorators fun q w =>
            (handler q w.fst).observed w.snd⟩) } := by
  simp only [dispatcher, Registry.register, Dispatcher.mk.injEq, true_and]
  funext t'
  by_cases hsame : t' = t
  · subst hsame
    simp
  · simp [hsame]

theorem represents_register {m : Mediator denote (world × List PortCall) exn}
    {r : Registry denote world exn} (h : m.Represents (setting.dispatcher r))
    (call : DecoratedCall denote world exn) :
    (m.register (setting.decorated call)).Represents (setting.dispatcher (r.register call)) := by
  cases call with
  | registerCommand t decorators handler =>
      rw [dispatcher_registerCommand]
      exact h.registerCommand t _
  | registerQuery t result decorators handler =>
      rw [dispatcher_registerQuery]
      exact h.registerQuery t result _
  | run code => exact h

theorem mediator_represents (calls : List (DecoratedCall denote world exn)) :
    (setting.mediator calls).Represents (setting.dispatcher (Registry.after calls)) := by
  have hall : forall (m : Mediator denote (world × List PortCall) exn)
      (r : Registry denote world exn), m.Represents (setting.dispatcher r) ->
      ((calls.map setting.decorated).foldl Mediator.register m).Represents
        (setting.dispatcher (calls.foldl Registry.register r)) := by
    induction calls with
    | nil => exact fun m r h => h
    | cons call calls ih =>
        intro m r h
        exact ih _ _ (setting.represents_register h call)
  exact hall {} {} Mediator.represents_empty

theorem services_report (r : Registry denote world exn) (depth : Nat) :
    ((setting.dispatcher r).services depth).Report setting r := by
  induction depth with
  | zero =>
      constructor
      · intro w reports t cmd w' reports' outcome hsend
        cases hsend
      · intro w reports result t q w' reports' outcome hquery
        cases hquery
  | succ depth ih =>
      constructor
      · intro w reports t cmd w' reports' outcome hsend
        simp only [Dispatcher.services, Dispatcher.send, dispatcher] at hsend
        cases hfound : r.commandFor t with
        | none =>
            simp only [hfound, Option.map_none] at hsend
            cases hsend
            exact ⟨[], (List.append_nil reports).symm, .unknownCommand hfound⟩
        | some registered =>
            simp only [hfound, Option.map_some] at hsend
            rcases setting.command_report registered.decorators registered.handler cmd _ ih
              w reports w' reports' outcome hsend with ⟨written, hreports, hform⟩
            exact ⟨written, hreports, .command hfound hform⟩
      · intro w reports result t q w' reports' outcome hquery
        simp only [Dispatcher.services, Dispatcher.query, dispatcher] at hquery
        cases hfound : r.queryFor t with
        | none =>
            simp only [hfound, Option.map_none] at hquery
            cases hquery
            exact ⟨[], (List.append_nil reports).symm, .unknownQuery hfound⟩
        | some registered =>
            simp only [hfound, Option.map_some] at hquery
            rcases Option.map_eq_some_iff.mp hquery with ⟨⟨⟨w'', inner⟩, answer⟩, hinner, hcast⟩
            cases hcast
            rcases setting.query_report registered.decorators registered.handler q _ ih
              w reports w' reports' answer hinner with ⟨written, hreports, hform⟩
            -- the cast of the result reports nothing
            exact ⟨written, hreports, .query hfound hform⟩

/--
A command that is sent, from any state and at any depth, adds the reports of the
layers that were last registered for its type: from the outside in up to the handler
or to the first validator that rejects it, then those of the dispatches the handler
makes in this run, and the second reports of the same layers exactly if the handler
returns.  No `end_span` is left without its `start_span`.
-/
theorem send_reports {before later : List (DecoratedCall denote world exn)} {t : Ty}
    {decorators : List (CommandDecorator denote exn t)}
    {handler : denote t -> BusCode denote world exn Unit}
    (hlast : forall decorators' handler', .registerCommand t decorators' handler' ∉ later)
    {calls : List (DecoratedCall denote world exn)}
    (hcalls : calls = before ++ .registerCommand t decorators handler :: later) {depth : Nat}
    {w w' : world} {reports reports' : List PortCall} {cmd : denote t}
    {outcome : Except (BusException exn) Unit}
    (hsend : ((setting.mediator calls).services depth).send (w, reports) t cmd =
      some ((w', reports'), outcome)) :
    exists written, reports' = reports ++ written ∧
      Reports setting (Registry.after calls)
        (.wrapped .command (setting.typeName t) (decorators.map (CommandDecorator.layer cmd))
          (handler cmd) w w' outcome) written ∧
      exists left, openSpans 0 written = some left := by
  rw [(setting.mediator_represents calls).services_eq] at hsend
  rcases (setting.services_report _ depth).send w reports t cmd w' reports' outcome hsend with
    ⟨written, hreports, hform⟩
  rcases hform.openSpans_le 0 with ⟨left, hleft, _⟩
  have hfound := Registry.commandFor_after before decorators handler hlast
  rw [← hcalls] at hfound
  cases hform with
  | unknownCommand hmissing => cases hmissing.symm.trans hfound
  | command hregistered hwrapped =>
      cases hregistered.symm.trans hfound
      exact ⟨written, hreports, hwrapped, left, hleft⟩

end DecoratorSetting

/-!
## A command that is rejected within a command

An order sends a charge, whose validator rejects it, and catches what is thrown.
-/

def shopSetting : DecoratorSetting Bool Bytes where
  clock calls := 1000000 * calls.length
  typeName isOrder := if isOrder then ascii "Order" else ascii "Charge"
  validationError err := err

def chargeDecorators : List (CommandDecorator (fun _ : Bool => Nat) Bytes false) :=
  [.tracing, .validating (fun amount => .ok (if amount = 0 then ascii "nothing" else []))]

def charge (amount : Nat) : BusCode (fun _ : Bool => Nat) Nat Bytes Unit :=
  fun charged => .done (charged + amount) (.ok ())

def order (amount : Nat) : BusCode (fun _ : Bool => Nat) Nat Bytes Unit :=
  fun charged => .send charged false amount (fun charged' _ => .done charged' (.ok ()))

def shopCalls : List (DecoratedCall (fun _ : Bool => Nat) Nat Bytes) :=
  [.registerCommand false chargeDecorators charge, .registerCommand true [.logging] order]

theorem shop_reports :
    exists written,
      ((shopSetting.mediator shopCalls).services 2).send (5, []) true 0 =
        some ((5, written), .ok ()) ∧
      Reports shopSetting (Registry.after shopCalls)
        (.wrapped .command (ascii "Order") [.logging] (order 0) 5 5 (.ok ())) written ∧
      openSpans 0 written = some 1 := by
  have hsend : ((shopSetting.mediator shopCalls).services 2).send (5, []) true 0 =
      some ((5, [.now 0, .debug (ascii "command Order started"), .startSpan (ascii "Charge"),
        .now 3000000, .debug (ascii "command Order finished in 3ms")]), .ok ()) := by
    rfl
  have hcalls : shopCalls = [.registerCommand false chargeDecorators charge] ++
      .registerCommand true [.logging] order :: [] := rfl
  rcases shopSetting.send_reports (by simp) hcalls hsend with ⟨written, hwritten, hform, _⟩
  rw [List.nil_append] at hwritten
  subst hwritten
  exact ⟨_, hsend, hform, rfl⟩

end Application
end CppCommons
