import CppCommons.Config.Settings

/-!
# Collecting validator

`ConfigValidator` reads variables like the accessors of `settings.hpp`, but
collects the messages of the errors and goes on with a default value.  A
duration that overflows is undefined for both, so the calls after it are not
described.
-/

namespace CppCommons
namespace Config

open Cxx

structure ConfigValidator where
  errors : List Bytes := []
deriving DecidableEq

/-- The string made from a `const char*` that points into `s`. -/
def fromCString (s : Bytes) : Bytes :=
  s.takeWhile (fun c => c != 0)

namespace ConfigValidator

def report (v : ConfigValidator) (message : Bytes) : ConfigValidator :=
  { errors := v.errors ++ [message] }

def require (v : ConfigValidator) (env : Environment) (name : CString) :
    ConfigValidator × Bytes :=
  match present env name with
  | none => (v.report (ascii "Missing required env var: " ++ name.val), [])
  | some s => (v, s)

def requireInt (v : ConfigValidator) (env : Environment) (name : CString) :
    ConfigValidator × Int :=
  let required := v.require env name
  let s := required.snd
  if s.isEmpty then (required.fst, 0)
  else
    match stoi s with
    | some n => (required.fst, n)
    | none =>
        (required.fst.report (ascii "Invalid integer for " ++ name.val ++ ascii ": " ++ s), 0)

/-- `none` when the conversion of the duration overflows. -/
def requireDuration (v : ConfigValidator) (env : Environment) (name : CString) :
    Option (ConfigValidator × Milliseconds) :=
  let required := v.require env name
  let s := required.snd
  if s.isEmpty then some (required.fst, 0)
  else
    match parseDuration name s with
    | .returns ms => some (required.fst, ms)
    | .throws e => some (required.fst.report (fromCString e.what), 0)
    | .undefined => none

def checkMessage (errors : List Bytes) : Bytes :=
  errors.foldl (fun msg e => msg ++ (ascii "  - " ++ e ++ ascii "\n"))
    (ascii "Config validation failed:\n")

def check (v : ConfigValidator) : Except ConfigError Unit :=
  if v.errors.isEmpty then .ok () else .error { what := checkMessage v.errors }

end ConfigValidator

inductive ConfigCall where
  | require (name : CString)
  | requireInt (name : CString)
  | requireDuration (name : CString)

inductive ConfigValue where
  | text (s : Bytes)
  | int (n : Int)
  | duration (ms : Milliseconds)
deriving DecidableEq

def asValue {A : Type} (wrap : A -> ConfigValue) :
    Evaluation ConfigError A -> Evaluation ConfigError ConfigValue
  | .returns result => .returns (wrap result)
  | .throws e => .throws e
  | .undefined => .undefined

/-- What the accessor that throws at once does for the same name. -/
def counterpart (env : Environment) : ConfigCall -> Evaluation ConfigError ConfigValue
  | .require name => asValue .text (requireEnv env name)
  | .requireInt name => asValue .int (envAsInt env name)
  | .requireDuration name => asValue .duration (envAsMilliseconds env name)

/-- The message of the error, if the accessor throws one. -/
def thrownMessage : Evaluation ConfigError ConfigValue -> Option Bytes
  | .throws e => some e.what
  | _ => none

namespace ConfigValidator

def perform (v : ConfigValidator) (env : Environment) :
    ConfigCall -> Option (ConfigValidator × ConfigValue)
  | .require name => some ((v.require env name).fst, .text (v.require env name).snd)
  | .requireInt name => some ((v.requireInt env name).fst, .int (v.requireInt env name).snd)
  | .requireDuration name =>
      (v.requireDuration env name).map (fun required => (required.fst, .duration required.snd))

/-- The calls of a sequence one after the other, with what they return. -/
def performAll (env : Environment) :
    ConfigValidator -> List ConfigCall -> Option (ConfigValidator × List ConfigValue)
  | v, [] => some (v, [])
  | v, call :: calls =>
      match v.perform env call with
      | none => none
      | some (v', value) =>
          (performAll env v' calls).map (fun rest => (rest.fst, value :: rest.snd))

/-!
## One call

A call of the validator is described by its counterpart in `settings.hpp`: it
returns the same value, or records the message that the counterpart throws.
-/

theorem toMilliseconds_ne_throws (count unit : Int) (e : ConfigError) :
    toMilliseconds count unit ≠ .throws e := by
  unfold toMilliseconds
  split <;> simp

theorem nul_not_mem_parseDuration {name : CString} {s : Bytes} {e : ConfigError}
    (hs : (0 : UInt8) ∉ s) (h : parseDuration name s = .throws e) : (0 : UInt8) ∉ e.what := by
  have hname := name.property
  have htail : forall pos, (0 : UInt8) ∉ s.drop pos := by
    intro pos hmem
    exact hs (List.mem_of_mem_drop hmem)
  unfold parseDuration at h
  split at h
  · cases h
    simp [hname, ascii]
  · split at h
    · cases h
      simp [hname, hs, ascii]
    · simp only at h
      split_ifs at h
      · exact absurd h (toMilliseconds_ne_throws _ _ e)
      · exact absurd h (toMilliseconds_ne_throws _ _ e)
      · exact absurd h (toMilliseconds_ne_throws _ _ e)
      · cases h
        simp [hname, htail, ascii]

theorem fromCString_of_nul_not_mem {s : Bytes} (h : (0 : UInt8) ∉ s) : fromCString s = s := by
  apply List.takeWhile_eq_self_iff.mpr
  intro c hc
  rw [bne_iff_ne]
  intro hzero
  rw [hzero] at hc
  exact h hc

theorem present_eq_some {env : Environment} {name : CString} {s : Bytes}
    (h : present env name = some s) : s ≠ [] ∧ (0 : UInt8) ∉ s := by
  unfold present at h
  split at h
  · cases h
  · next v _ =>
      split at h
      · cases h
      · next hne =>
          cases h
          exact ⟨by simpa using hne, v.property⟩

/-- What a call does to the validator, by what its counterpart does. -/
inductive Performed (v : ConfigValidator) (performed : Option (ConfigValidator × ConfigValue)) :
    Evaluation ConfigError ConfigValue -> Prop where
  | returned {value : ConfigValue} : performed = some (v, value) ->
      Performed v performed (.returns value)
  | reported {e : ConfigError} (value : ConfigValue) :
      performed = some (v.report e.what, value) -> Performed v performed (.throws e)
  | undefined : performed = none -> Performed v performed .undefined

theorem performed_require (v : ConfigValidator) (env : Environment) (name : CString) :
    Performed v (v.perform env (.require name)) (counterpart env (.require name)) := by
  cases hpresent : present env name with
  | none =>
      simp only [counterpart, requireEnv, hpresent, asValue]
      exact .reported (.text []) (by simp [perform, require, hpresent])
  | some s =>
      simp only [counterpart, requireEnv, hpresent, asValue]
      exact .returned (by simp [perform, require, hpresent])

theorem performed_requireInt (v : ConfigValidator) (env : Environment) (name : CString) :
    Performed v (v.perform env (.requireInt name)) (counterpart env (.requireInt name)) := by
  cases hpresent : present env name with
  | none =>
      simp only [counterpart, envAsInt, requireEnv, hpresent, asValue]
      exact .reported (.int 0) (by simp [perform, requireInt, require, hpresent])
  | some s =>
      have hne := (present_eq_some hpresent).left
      cases hstoi : stoi s with
      | none =>
          simp only [counterpart, envAsInt, requireEnv, hpresent, hstoi, asValue]
          exact .reported (.int 0) (by simp [perform, requireInt, require, hpresent, hne, hstoi])
      | some n =>
          simp only [counterpart, envAsInt, requireEnv, hpresent, hstoi, asValue]
          exact .returned (by simp [perform, requireInt, require, hpresent, hne, hstoi])

theorem performed_requireDuration (v : ConfigValidator) (env : Environment) (name : CString) :
    Performed v (v.perform env (.requireDuration name))
      (counterpart env (.requireDuration name)) := by
  cases hpresent : present env name with
  | none =>
      simp only [counterpart, envAsMilliseconds, requireEnv, hpresent, asValue]
      exact .reported (.duration 0) (by simp [perform, requireDuration, require, hpresent])
  | some s =>
      rcases present_eq_some hpresent with ⟨hne, hnul⟩
      cases hparse : parseDuration name s with
      | returns ms =>
          simp only [counterpart, envAsMilliseconds, requireEnv, hpresent, hparse, asValue]
          exact .returned (by simp [perform, requireDuration, require, hpresent, hne, hparse])
      | throws e =>
          have hwhat := fromCString_of_nul_not_mem (nul_not_mem_parseDuration hnul hparse)
          simp only [counterpart, envAsMilliseconds, requireEnv, hpresent, hparse, asValue]
          exact .reported (.duration 0)
            (by simp [perform, requireDuration, require, hpresent, hne, hparse, hwhat])
      | undefined =>
          simp only [counterpart, envAsMilliseconds, requireEnv, hpresent, hparse, asValue]
          exact .undefined (by simp [perform, requireDuration, require, hpresent, hne, hparse])

theorem performed (v : ConfigValidator) (env : Environment) (call : ConfigCall) :
    Performed v (v.perform env call) (counterpart env call) := by
  cases call with
  | require name => exact performed_require v env name
  | requireInt name => exact performed_requireInt v env name
  | requireDuration name => exact performed_requireDuration v env name

/-!
## A sequence of calls

The messages are collected in the order of the calls, behind those already there.
After an overflow nothing is said.
-/

def Agrees (env : Environment) (call : ConfigCall) (value : ConfigValue) : Prop :=
  forall expected, counterpart env call = .returns expected -> value = expected

theorem performAll_of_undefined {env : Environment} {calls : List ConfigCall}
    (h : exists call, call ∈ calls ∧ counterpart env call = .undefined) (v : ConfigValidator) :
    performAll env v calls = none := by
  induction calls generalizing v with
  | nil =>
      rcases h with ⟨call, hcall, _⟩
      cases hcall
  | cons first calls ih =>
      rcases h with ⟨call, hcall, hundefined⟩
      rw [performAll]
      rcases List.mem_cons.mp hcall with rfl | hlater
      · have hnone := performed v env call
        rw [hundefined] at hnone
        cases hnone with
        | undefined hperform => rw [hperform]
      · cases hperform : v.perform env first with
        | none => rfl
        | some next => simp [ih ⟨call, hlater, hundefined⟩ next.fst]

theorem performAll_of_defined {env : Environment} {calls : List ConfigCall}
    (h : forall call, call ∈ calls -> counterpart env call ≠ .undefined) (v : ConfigValidator) :
    exists values, performAll env v calls =
        some ({ errors := v.errors ++
          calls.filterMap (fun call => thrownMessage (counterpart env call)) }, values) ∧
      List.Forall₂ (Agrees env) calls values := by
  induction calls generalizing v with
  | nil => exact ⟨[], by simp [performAll], .nil⟩
  | cons call calls ih =>
      have hrest : forall call', call' ∈ calls -> counterpart env call' ≠ .undefined := by
        intro call' hcall'
        exact h call' (List.mem_cons_of_mem call hcall')
      have hcall := performed v env call
      cases hcounterpart : counterpart env call with
      | undefined => exact absurd hcounterpart (h call List.mem_cons_self)
      | returns value =>
          rw [hcounterpart] at hcall
          cases hcall with
          | returned hperform =>
              rcases ih hrest v with ⟨values, hperformed, hvalues⟩
              refine ⟨value :: values, ?_, .cons ?_ hvalues⟩
              · simp [performAll, hperform, hperformed, hcounterpart, thrownMessage]
              · intro expected hexpected
                rw [hcounterpart] at hexpected
                cases hexpected
                rfl
      | throws e =>
          rw [hcounterpart] at hcall
          cases hcall with
          | reported value hperform =>
              rcases ih hrest (v.report e.what) with ⟨values, hperformed, hvalues⟩
              refine ⟨value :: values, ?_, .cons ?_ hvalues⟩
              · have hmessage : thrownMessage (counterpart env call) = some e.what := by
                  rw [hcounterpart]
                  rfl
                simp only [performAll, hperform, hperformed, List.filterMap_cons, hmessage]
                simp [report]
              · intro expected hexpected
                rw [hcounterpart] at hexpected
                cases hexpected

/-!
## The combined error

`check` throws one error whose text contains all the messages, and throws exactly if
there is one.
-/

theorem checkMessage_begins (start : Bytes) (errors : List Bytes) :
    start <+: errors.foldl (fun msg e => msg ++ (ascii "  - " ++ e ++ ascii "\n")) start := by
  induction errors generalizing start with
  | nil => exact List.prefix_rfl
  | cons e errors ih =>
      rw [List.foldl_cons]
      exact List.IsPrefix.trans (List.prefix_append _ _) (ih _)

theorem infix_checkMessage {errors : List Bytes} {e : Bytes} (h : e ∈ errors) :
    e <:+: checkMessage errors := by
  unfold checkMessage
  generalize ascii "Config validation failed:\n" = start
  induction errors generalizing start with
  | nil => cases h
  | cons first errors ih =>
      rw [List.foldl_cons]
      rcases List.mem_cons.mp h with rfl | hlater
      · have hhere : e <:+: start ++ (ascii "  - " ++ e ++ ascii "\n") :=
          ⟨start ++ ascii "  - ", ascii "\n", by simp⟩
        exact hhere.trans (checkMessage_begins _ errors).isInfix
      · exact ih hlater _

theorem check_eq_error_iff (v : ConfigValidator) (e : ConfigError) :
    v.check = .error e <-> v.errors ≠ [] ∧ e = { what := checkMessage v.errors } := by
  unfold check
  cases hempty : v.errors with
  | nil => simp
  | cons first rest => simp [eq_comm]

theorem mem_thrownMessages_iff (env : Environment) (calls : List ConfigCall) (message : Bytes) :
    message ∈ calls.filterMap (fun call => thrownMessage (counterpart env call)) <->
      exists call e, call ∈ calls ∧ counterpart env call = .throws e ∧ e.what = message := by
  rw [List.mem_filterMap]
  constructor
  · intro h
    rcases h with ⟨call, hcall, hmessage⟩
    cases hcounterpart : counterpart env call with
    | returns value => simp [hcounterpart, thrownMessage] at hmessage
    | undefined => simp [hcounterpart, thrownMessage] at hmessage
    | throws e =>
        rw [hcounterpart] at hmessage
        exact ⟨call, e, hcall, hcounterpart, Option.some.inj hmessage⟩
  · intro h
    rcases h with ⟨call, e, hcall, hthrows, hmessage⟩
    refine ⟨call, hcall, ?_⟩
    rw [hthrows, ← hmessage]
    rfl

/--
For every environment and every sequence of calls: if some accessor overflows,
so does the sequence.  Otherwise the errors are the messages the accessors would
throw, in the order of the calls; a call whose accessor returns gives the same
value and adds nothing; and `check` throws exactly when some accessor does, with
all these messages in its text.
-/
theorem validator_agrees (env : Environment) (calls : List ConfigCall) :
    ((exists call, call ∈ calls ∧ counterpart env call = .undefined) ∧
      performAll env {} calls = none) ∨
    ((forall call, call ∈ calls -> counterpart env call ≠ .undefined) ∧
      exists v values, performAll env {} calls = some (v, values) ∧
        v.errors = calls.filterMap (fun call => thrownMessage (counterpart env call)) ∧
        List.Forall₂ (Agrees env) calls values ∧
        (forall (w : ConfigValidator) call value, counterpart env call = .returns value ->
          w.perform env call = some (w, value)) ∧
        ((exists e, v.check = .error e) <->
          exists call e, call ∈ calls ∧ counterpart env call = .throws e) ∧
        forall combined, v.check = .error combined ->
          forall call e, call ∈ calls -> counterpart env call = .throws e ->
            e.what <:+: combined.what) := by
  by_cases hundefined : exists call, call ∈ calls ∧ counterpart env call = .undefined
  · exact Or.inl ⟨hundefined, performAll_of_undefined hundefined {}⟩
  · have hdefined : forall call, call ∈ calls -> counterpart env call ≠ .undefined := by
      intro call hcall heq
      exact hundefined ⟨call, hcall, heq⟩
    rcases performAll_of_defined hdefined {} with ⟨values, hperformed, hvalues⟩
    refine Or.inr ⟨hdefined, _, values, hperformed, by simp, hvalues, ?_, ?_, ?_⟩
    · intro w call value hvalue
      have hcall := performed w env call
      rw [hvalue] at hcall
      cases hcall with
      | returned hperform => exact hperform
    · constructor
      · intro h
        rcases h with ⟨e, hcheck⟩
        have hnonempty := ((check_eq_error_iff _ _).mp hcheck).left
        rcases List.exists_mem_of_ne_nil _ hnonempty with ⟨message, hmessage⟩
        rcases (mem_thrownMessages_iff env calls message).mp hmessage with
          ⟨call, e', hcall, hthrows, _⟩
        exact ⟨call, e', hcall, hthrows⟩
      · intro h
        rcases h with ⟨call, e, hcall, hthrows⟩
        have hmessage :=
          (mem_thrownMessages_iff env calls e.what).mpr ⟨call, e, hcall, hthrows, rfl⟩
        exact ⟨_, (check_eq_error_iff _ _).mpr ⟨List.ne_nil_of_mem hmessage, rfl⟩⟩
    · intro combined hcheck call e hcall hthrows
      rw [((check_eq_error_iff _ _).mp hcheck).right]
      exact infix_checkMessage
        ((mem_thrownMessages_iff env calls e.what).mpr ⟨call, e, hcall, hthrows, rfl⟩)

end ConfigValidator
end Config
end CppCommons
