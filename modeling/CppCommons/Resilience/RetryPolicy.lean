import CppCommons.Cxx.StandardLibrary

/-!
# Retry policy

`with_retry` calls a function until it returns, its exception is not to be
retried, the deadline has passed or the attempts are used up.  The function runs
over a state of its own.  Clock readings and random draws are arguments, given
for each attempt; the back-off multiplier is an exact rational.
-/

namespace CppCommons
namespace Resilience

open Cxx

inductive JitterStrategy where
  | none
  | full
  | equal
deriving DecidableEq

structure RetryConfig (exn : Type) where
  maxAttempts : UInt32 := 3
  initialDelay : Int := 100
  backoffMultiplier : Rat := 2
  maxDelay : Int := 30000
  jitter : JitterStrategy := .none
  shouldRetry : Option (exn -> Bool) := none
  deadline : Option Nanoseconds := none

/-- What the attempts of one `with_retry` meet, by the index of the attempt. -/
structure RetrySurroundings where
  /-- the clock before the attempt -/
  before : Nat -> Nanoseconds
  /-- the clock after the attempt has failed -/
  after : Nat -> Nanoseconds
  /-- the draw of the random number generator -/
  draw : Nat -> Int

inductive RetryExit (exn value : Type) where
  | returned (result : value)
  | rethrown (error : exn)
  | deadlineExceeded (what : String)
  | retryExhausted (what : String)
deriving DecidableEq

structure RetryReport (world exn value : Type) where
  world : world
  exit : RetryExit exn value
  /-- how often the function was called -/
  attempts : Nat
  /-- the durations slept, in milliseconds -/
  sleeps : List Int

def applyJitter (base : Int) (strategy : JitterStrategy) (draw : Int) : Int :=
  if strategy = .none ∨ base = 0 then base
  else if strategy = .full then draw
  else base.tdiv 2 + draw

def isExpired (deadline : Option Nanoseconds) (now : Nanoseconds) : Bool :=
  match deadline with
  | none => false
  | some limit => decide (limit <= now)

/-- The delay after `delay`: scaled, cut to whole milliseconds, and capped. -/
def nextDelay {exn : Type} (cfg : RetryConfig exn) (delay : Int) : Int :=
  let scaled := (delay : Rat) * cfg.backoffMultiplier
  let next := scaled.num.tdiv scaled.den
  if next < cfg.maxDelay then next else cfg.maxDelay

namespace RetryConfig

variable {world exn value : Type}

def retryLoop (cfg : RetryConfig exn) (around : RetrySurroundings)
    (fn : world -> world × Except exn value) :
    Nat -> Nat -> Int -> world -> RetryReport world exn value
  | 0, _, _, w =>
      { world := w, exit := .retryExhausted "all retry attempts exhausted", attempts := 0,
        sleeps := [] }
  | remaining + 1, attempt, delay, w =>
      if isExpired cfg.deadline (around.before attempt) then
        { world := w
          exit := .deadlineExceeded ("deadline exceeded before attempt " ++ toString attempt)
          attempts := 0
          sleeps := [] }
      else
        match fn w with
        | (w', .ok result) =>
            { world := w', exit := .returned result, attempts := 1, sleeps := [] }
        | (w', .error e) =>
            if cfg.shouldRetry.any (fun retry => !retry e) then
              { world := w', exit := .rethrown e, attempts := 1, sleeps := [] }
            else if attempt + 1 < cfg.maxAttempts.toNat then
              if isExpired cfg.deadline (around.after attempt) then
                { world := w'
                  exit := .deadlineExceeded
                    ("deadline exceeded after attempt " ++ toString attempt)
                  attempts := 1
                  sleeps := [] }
              else
                let slept := applyJitter delay cfg.jitter (around.draw attempt)
                let rest := cfg.retryLoop around fn remaining (attempt + 1) (nextDelay cfg delay) w'
                { rest with attempts := rest.attempts + 1, sleeps := slept :: rest.sleeps }
            else
              let rest := cfg.retryLoop around fn remaining (attempt + 1) delay w'
              { rest with attempts := rest.attempts + 1 }

def withRetry (cfg : RetryConfig exn) (around : RetrySurroundings)
    (fn : world -> world × Except exn value) (w : world) : RetryReport world exn value :=
  cfg.retryLoop around fn cfg.maxAttempts.toNat 0 cfg.initialDelay w

/-!
## Attempts that all fail

Without a predicate and a deadline, attempts that all fail use up the loop.
-/

def worldAfter (fn : world -> world × Except exn value) (w : world) (count : Nat) : world :=
  (fun v => (fn v).fst)^[count] w

theorem worldAfter_succ (fn : world -> world × Except exn value) (w : world) (count : Nat) :
    worldAfter fn w (count + 1) = (fn (worldAfter fn w count)).fst :=
  Function.iterate_succ_apply' (fun v => (fn v).fst) count w

theorem retryLoop_of_failing {cfg : RetryConfig exn} (hretry : cfg.shouldRetry = none)
    (hdeadline : cfg.deadline = none) (around : RetrySurroundings)
    {fn : world -> world × Except exn value} {w : world} {remaining : Nat}
    (hfails : forall i, i < remaining -> exists e, (fn (worldAfter fn w i)).snd = .error e)
    (attempt : Nat) (delay : Int) :
    (cfg.retryLoop around fn remaining attempt delay w).world = worldAfter fn w remaining ∧
      (cfg.retryLoop around fn remaining attempt delay w).exit =
        .retryExhausted "all retry attempts exhausted" ∧
      (cfg.retryLoop around fn remaining attempt delay w).attempts = remaining := by
  induction remaining generalizing w attempt delay with
  | zero => exact ⟨rfl, rfl, rfl⟩
  | succ remaining ih =>
      rcases hfails 0 (Nat.zero_lt_succ remaining) with ⟨e, he⟩
      have hfn : fn w = ((fn w).fst, .error e) := Prod.ext rfl he
      have hrest : forall i, i < remaining ->
          exists e, (fn (worldAfter fn (fn w).fst i)).snd = .error e := by
        intro i hi
        exact hfails (i + 1) (Nat.succ_lt_succ hi)
      have hnever : forall now, isExpired cfg.deadline now = false := by
        intro now
        rw [hdeadline]
        rfl
      rw [retryLoop, hfn]
      simp only [hnever, hretry, Option.any_none, Bool.false_eq_true, if_false]
      split
      · rcases ih hrest (attempt + 1) (nextDelay cfg delay) with ⟨hworld, hexit, hcount⟩
        exact ⟨hworld, hexit, congrArg (· + 1) hcount⟩
      · rcases ih hrest (attempt + 1) delay with ⟨hworld, hexit, hcount⟩
        exact ⟨hworld, hexit, congrArg (· + 1) hcount⟩

theorem withRetry_of_failing {cfg : RetryConfig exn} (hretry : cfg.shouldRetry = none)
    (hdeadline : cfg.deadline = none) (around : RetrySurroundings)
    {fn : world -> world × Except exn value} {w : world}
    (hfails : forall i, i < cfg.maxAttempts.toNat ->
      exists e, (fn (worldAfter fn w i)).snd = .error e) :
    (cfg.withRetry around fn w).world = worldAfter fn w cfg.maxAttempts.toNat ∧
      (cfg.withRetry around fn w).exit = .retryExhausted "all retry attempts exhausted" ∧
      (cfg.withRetry around fn w).attempts = cfg.maxAttempts.toNat :=
  retryLoop_of_failing hretry hdeadline around hfails 0 cfg.initialDelay

end RetryConfig
end Resilience
end CppCommons
