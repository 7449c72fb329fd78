import CppCommons.Resilience.RetryPolicy

/-!
# Runs of the retry loop

A run is told by its events, the calls of the function and the sleeps, in their
order.  Which attempt ends it is said without the loop: the least attempt at
which one of the four conditions holds.
-/

namespace CppCommons
namespace Resilience

open Cxx

inductive RetryEvent where
  | invoked (attempt : Nat)
  | slept (attempt : Nat) (duration : Int)

namespace RetryEvent

def isInvocation : RetryEvent -> Bool
  | invoked _ => true
  | slept _ _ => false

def duration? : RetryEvent -> Option Int
  | invoked _ => none
  | slept _ duration => some duration

@[simp] theorem isInvocation_invoked (attempt : Nat) : (invoked attempt).isInvocation = true := rfl

@[simp] theorem isInvocation_slept (attempt : Nat) (duration : Int) :
    (slept attempt duration).isInvocation = false := rfl

@[simp] theorem duration?_invoked (attempt : Nat) : (invoked attempt).duration? = none := rfl

@[simp] theorem duration?_slept (attempt : Nat) (duration : Int) :
    (slept attempt duration).duration? = some duration := rfl

/-- Calls and sleeps take turns, beginning with the call of attempt `a`. -/
inductive Alternates : Nat -> List RetryEvent -> Prop where
  | none (a : Nat) : Alternates a []
  | last (a : Nat) : Alternates a [invoked a]
  | more {a : Nat} {rest : List RetryEvent} (duration : Int) :
      Alternates (a + 1) rest -> Alternates a (invoked a :: slept a duration :: rest)

theorem Alternates.separated {a : Nat} {events : List RetryEvent} (h : Alternates a events)
    {front between back : List RetryEvent} {i j : Nat}
    (hevents : events = front ++ invoked i :: (between ++ invoked j :: back))
    (hbetween : forall e, e ∈ between -> e.isInvocation = false) :
    exists duration, between = [slept i duration] := by
  induction h generalizing front with
  | none a =>
      have hlength := congrArg List.length hevents
      simp at hlength
  | last a =>
      have hlength := congrArg List.length hevents
      simp only [List.length_append, List.length_cons, List.length_nil] at hlength
      lia
  | @more a rest duration hrest ih =>
      rcases front with _ | ⟨first, _ | ⟨second, front⟩⟩
      · rcases between with _ | ⟨event, between⟩
        · cases hevents
        · injection hevents with hi htail
          injection hi with hi
          injection htail with hevent htail
          rw [← hevent, ← hi]
          cases between with
          | nil => exact ⟨duration, rfl⟩
          | cons next between =>
              -- the rest begins with a call, which is not between the two
              have hnext := hbetween next (by simp)
              cases hrest with
              | none => cases htail
              | last =>
                  injection htail with hhead
                  rw [← hhead] at hnext
                  cases hnext
              | more =>
                  injection htail with hhead
                  rw [← hhead] at hnext
                  cases hnext
      · injection hevents with _ htail
        cases htail
      · injection hevents with _ htail
        injection htail with _ htail
        exact ih htail

end RetryEvent

namespace RetryConfig

variable {world exn value : Type}

/-!
## One attempt

One pass through the body of the loop: it goes on, or it ends the run.  The events
are the calls and the sleeps in their order.
-/

inductive Attempt (world exn value : Type) where
  /-- the function was not called -/
  | refused (exit : RetryExit exn value)
  | ended (after : world) (exit : RetryExit exn value)
  /-- the loop goes on, with the delay for the next attempt -/
  | again (after : world) (slept : Option Int) (delay : Int)

def attemptAt (cfg : RetryConfig exn) (around : RetrySurroundings)
    (fn : world -> world × Except exn value) (attempt : Nat) (delay : Int) (w : world) :
    Attempt world exn value :=
  if isExpired cfg.deadline (around.before attempt) then
    .refused (.deadlineExceeded ("deadline exceeded before attempt " ++ toString attempt))
  else
    match fn w with
    | (w', .ok result) => .ended w' (.returned result)
    | (w', .error e) =>
        if cfg.shouldRetry.any (fun retry => !retry e) then
          .ended w' (.rethrown e)
        else if attempt + 1 < cfg.maxAttempts.toNat then
          if isExpired cfg.deadline (around.after attempt) then
            .ended w' (.deadlineExceeded ("deadline exceeded after attempt " ++ toString attempt))
          else
            .again w' (some (applyJitter delay cfg.jitter (around.draw attempt)))
              (nextDelay cfg delay)
        else
          .again w' none delay

theorem retryLoop_succ (cfg : RetryConfig exn) (around : RetrySurroundings)
    (fn : world -> world × Except exn value) (remaining attempt : Nat) (delay : Int) (w : world) :
    cfg.retryLoop around fn (remaining + 1) attempt delay w =
      match cfg.attemptAt around fn attempt delay w with
      | .refused exit => { world := w, exit := exit, attempts := 0, sleeps := [] }
      | .ended w' exit => { world := w', exit := exit, attempts := 1, sleeps := [] }
      | .again w' slept delay' =>
          let rest := cfg.retryLoop around fn remaining (attempt + 1) delay' w'
          { rest with attempts := rest.attempts + 1, sleeps := slept.toList ++ rest.sleeps } := by
  rw [retryLoop, attemptAt]
  split
  · rfl
  · rcases fn w with ⟨w', e | result⟩
    · simp only
      split
      · rfl
      · split
        · split
          · rfl
          · rfl
        · rfl
    · rfl

def retryEvents (cfg : RetryConfig exn) (around : RetrySurroundings)
    (fn : world -> world × Except exn value) : Nat -> Nat -> Int -> world -> List RetryEvent
  | 0, _, _, _ => []
  | remaining + 1, attempt, delay, w =>
      match cfg.attemptAt around fn attempt delay w with
      | .refused _ => []
      | .ended _ _ => [.invoked attempt]
      | .again w' slept delay' =>
          .invoked attempt :: (slept.toList.map (.slept attempt) ++
            cfg.retryEvents around fn remaining (attempt + 1) delay' w')

def events (cfg : RetryConfig exn) (around : RetrySurroundings)
    (fn : world -> world × Except exn value) (w : world) : List RetryEvent :=
  cfg.retryEvents around fn cfg.maxAttempts.toNat 0 cfg.initialDelay w

theorem retryLoop_counts (cfg : RetryConfig exn) (around : RetrySurroundings)
    (fn : world -> world × Except exn value) (remaining attempt : Nat) (delay : Int) (w : world) :
    (cfg.retryLoop around fn remaining attempt delay w).attempts =
        (cfg.retryEvents around fn remaining attempt delay w).countP RetryEvent.isInvocation ∧
      (cfg.retryLoop around fn remaining attempt delay w).sleeps =
        (cfg.retryEvents around fn remaining attempt delay w).filterMap RetryEvent.duration? := by
  induction remaining generalizing attempt delay w with
  | zero => exact ⟨rfl, rfl⟩
  | succ remaining ih =>
      rw [retryLoop_succ, retryEvents]
      cases cfg.attemptAt around fn attempt delay w with
      | refused exit => exact ⟨rfl, rfl⟩
      | ended w' exit => exact ⟨rfl, rfl⟩
      | again w' slept delay' =>
          rcases ih (attempt + 1) delay' w' with ⟨hattempts, hsleeps⟩
          cases slept with
          | none => simp [hattempts, hsleeps, List.countP_cons, List.filterMap_cons]
          | some duration => simp [hattempts, hsleeps, List.countP_cons, List.filterMap_cons]

theorem withRetry_counts (cfg : RetryConfig exn) (around : RetrySurroundings)
    (fn : world -> world × Except exn value) (w : world) :
    (cfg.withRetry around fn w).attempts =
        (cfg.events around fn w).countP RetryEvent.isInvocation ∧
      (cfg.withRetry around fn w).sleeps =
        (cfg.events around fn w).filterMap RetryEvent.duration? :=
  retryLoop_counts cfg around fn _ _ _ w

/-!
## Where a run stops

`stopAt` says how an attempt ends the run, if it does, without the loop.  The first
attempt that does decides the whole run.
-/

/-- What the `k`-th call gives, if the loop comes to it. -/
def outcome (fn : world -> world × Except exn value) (w : world) (k : Nat) : Except exn value :=
  (fn (worldAfter fn w k)).snd

/--
How the attempt `k` ends the run, if it does: the deadline has passed before it,
the function returns, its exception is not to be retried, or the deadline has
passed after it and another attempt remains.
-/
def stopAt (cfg : RetryConfig exn) (around : RetrySurroundings)
    (fn : world -> world × Except exn value) (w : world) (k : Nat) :
    Option (RetryExit exn value) :=
  if isExpired cfg.deadline (around.before k) then
    some (.deadlineExceeded ("deadline exceeded before attempt " ++ toString k))
  else
    match outcome fn w k with
    | .ok result => some (.returned result)
    | .error e =>
        if cfg.shouldRetry.any (fun retry => !retry e) then some (.rethrown e)
        else if k + 1 < cfg.maxAttempts.toNat ∧ isExpired cfg.deadline (around.after k) then
          some (.deadlineExceeded ("deadline exceeded after attempt " ++ toString k))
        else none

def delayAt (cfg : RetryConfig exn) : Nat -> Int
  | 0 => cfg.initialDelay
  | i + 1 => nextDelay cfg (cfg.delayAt i)

def sleepAt (cfg : RetryConfig exn) (around : RetrySurroundings) (i : Nat) : Int :=
  applyJitter (cfg.delayAt i) cfg.jitter (around.draw i)

/-- Attempts `a` to `a + n - 1`, each with a call and a sleep. -/
def rounds (cfg : RetryConfig exn) (around : RetrySurroundings) (a n : Nat) : List RetryEvent :=
  (List.range' a n).flatMap (fun i => [.invoked i, .slept i (cfg.sleepAt around i)])

section Run

variable {cfg : RetryConfig exn} {around : RetrySurroundings}
  {fn : world -> world × Except exn value} {w : world}

theorem not_expired_of_stopAt_none {k : Nat} (h : cfg.stopAt around fn w k = none) :
    isExpired cfg.deadline (around.before k) = false := by
  cases hbefore : isExpired cfg.deadline (around.before k) with
  | false => rfl
  | true =>
      rw [stopAt, if_pos hbefore] at h
      cases h

theorem attemptAt_of_stopAt {k : Nat} {exit : RetryExit exn value}
    (h : cfg.stopAt around fn w k = some exit) (delay : Int) :
    cfg.attemptAt around fn k delay (worldAfter fn w k) =
      if isExpired cfg.deadline (around.before k) then .refused exit
      else .ended (worldAfter fn w (k + 1)) exit := by
  rw [worldAfter_succ]
  rw [stopAt, outcome] at h
  rw [attemptAt]
  cases hbefore : isExpired cfg.deadline (around.before k) with
  | true =>
      simp only [hbefore, if_true] at h ⊢
      injection h with h
      rw [h]
  | false =>
      simp only [hbefore, Bool.false_eq_true, if_false] at h ⊢
      generalize fn (worldAfter fn w k) = call at h ⊢
      rcases call with ⟨w', e | result⟩
      · simp only at h ⊢
        split at h
        · next hreject =>
          injection h with h
          rw [if_pos hreject, h]
        · next hreject =>
          split at h
          · next hafter =>
            injection h with h
            rw [if_neg hreject, if_pos hafter.left, if_pos hafter.right, h]
          · cases h
      · injection h with h
        rw [← h]

theorem attemptAt_of_stopAt_none {k : Nat} (h : cfg.stopAt around fn w k = none) (delay : Int) :
    cfg.attemptAt around fn k delay (worldAfter fn w k) =
      if k + 1 < cfg.maxAttempts.toNat then
        .again (worldAfter fn w (k + 1)) (some (applyJitter delay cfg.jitter (around.draw k)))
          (nextDelay cfg delay)
      else .again (worldAfter fn w (k + 1)) none delay := by
  have hbefore := not_expired_of_stopAt_none h
  rw [worldAfter_succ]
  rw [stopAt, outcome, hbefore] at h
  rw [attemptAt, hbefore]
  generalize fn (worldAfter fn w k) = call at h ⊢
  rcases call with ⟨w', e | result⟩
  · simp only [Bool.false_eq_true, if_false] at h ⊢
    split at h
    · cases h
    · next hreject =>
      split at h
      · cases h
      · next hafter =>
        rw [if_neg hreject]
        split
        · next hmore =>
          rw [if_neg (fun hexpired => hafter ⟨hmore, hexpired⟩)]
        · rfl
  · cases h

theorem run_to {k : Nat} (hk : k < cfg.maxAttempts.toNat)
    (hnone : forall j, j < k -> cfg.stopAt around fn w j = none) :
    (cfg.withRetry around fn w).exit =
        (cfg.retryLoop around fn (cfg.maxAttempts.toNat - k) k (cfg.delayAt k)
          (worldAfter fn w k)).exit ∧
      cfg.events around fn w =
        cfg.rounds around 0 k ++
          cfg.retryEvents around fn (cfg.maxAttempts.toNat - k) k (cfg.delayAt k)
            (worldAfter fn w k) := by
  induction k with
  | zero => exact ⟨rfl, rfl⟩
  | succ k ih =>
      rcases ih (by lia) (fun j hj => hnone j (by lia)) with ⟨hexit, hevents⟩
      have hattempt := attemptAt_of_stopAt_none (hnone k (Nat.lt_succ_self k)) (cfg.delayAt k)
      rw [if_pos hk] at hattempt
      have hremaining : cfg.maxAttempts.toNat - k = cfg.maxAttempts.toNat - (k + 1) + 1 := by lia
      constructor
      · rw [hexit, hremaining, retryLoop_succ, hattempt]
        rfl
      · rw [hevents, hremaining, retryEvents, hattempt, rounds, rounds, List.range'_concat,
          List.flatMap_append]
        simp [sleepAt, delayAt]

theorem run_of_stop {k : Nat} {exit : RetryExit exn value} (hk : k < cfg.maxAttempts.toNat)
    (hnone : forall j, j < k -> cfg.stopAt around fn w j = none)
    (hstop : cfg.stopAt around fn w k = some exit) :
    (cfg.withRetry around fn w).exit = exit ∧
      cfg.events around fn w =
        cfg.rounds around 0 k ++
          if isExpired cfg.deadline (around.before k) then [] else [.invoked k] := by
  rcases run_to hk hnone with ⟨hexit, hevents⟩
  have hattempt := attemptAt_of_stopAt hstop (cfg.delayAt k)
  have hremaining : cfg.maxAttempts.toNat - k = cfg.maxAttempts.toNat - (k + 1) + 1 := by lia
  rw [hexit, hevents, hremaining, retryLoop_succ, retryEvents, hattempt]
  cases isExpired cfg.deadline (around.before k) with
  | true => exact ⟨rfl, rfl⟩
  | false => exact ⟨rfl, rfl⟩

theorem run_of_no_stop
    (hnone : forall j, j < cfg.maxAttempts.toNat -> cfg.stopAt around fn w j = none) :
    (cfg.withRetry around fn w).exit = .retryExhausted "all retry attempts exhausted" ∧
      cfg.events around fn w =
        cfg.rounds around 0 (cfg.maxAttempts.toNat - 1) ++
          if cfg.maxAttempts.toNat = 0 then [] else [.invoked (cfg.maxAttempts.toNat - 1)] := by
  cases hmax : cfg.maxAttempts.toNat with
  | zero =>
      rw [withRetry, events, hmax]
      exact ⟨rfl, rfl⟩
  | succ last =>
      have hlast : last < cfg.maxAttempts.toNat := by lia
      rcases run_to hlast (fun j hj => hnone j (by lia)) with ⟨hexit, hevents⟩
      have hattempt := attemptAt_of_stopAt_none (hnone last hlast) (cfg.delayAt last)
      rw [if_neg (by lia)] at hattempt
      have hremaining : cfg.maxAttempts.toNat - last = 0 + 1 := by lia
      rw [hexit, hevents, hremaining, retryLoop_succ, retryEvents, hattempt]
      exact ⟨rfl, rfl⟩

theorem stops_or_not (cfg : RetryConfig exn) (around : RetrySurroundings)
    (fn : world -> world × Except exn value) (w : world) :
    (exists k exit, k < cfg.maxAttempts.toNat ∧
        (forall j, j < k -> cfg.stopAt around fn w j = none) ∧
        cfg.stopAt around fn w k = some exit) ∨
      forall j, j < cfg.maxAttempts.toNat -> cfg.stopAt around fn w j = none := by
  generalize cfg.maxAttempts.toNat = max
  induction max with
  | zero => exact Or.inr (fun j hj => absurd hj (Nat.not_lt_zero j))
  | succ max ih =>
      rcases ih with ⟨k, exit, hk, hnone, hstop⟩ | hnone
      · exact Or.inl ⟨k, exit, Nat.lt_succ_of_lt hk, hnone, hstop⟩
      · cases hstop : cfg.stopAt around fn w max with
        | some exit => exact Or.inl ⟨max, exit, Nat.lt_succ_self max, hnone, hstop⟩
        | none =>
            refine Or.inr (fun j hj => ?_)
            rcases Nat.lt_succ_iff_lt_or_eq.mp hj with hlt | heq
            · exact hnone j hlt
            · rw [heq]
              exact hstop

/--
The events of every run: whole rounds, in each of which the deadline had not
passed, and perhaps one more call.
-/
theorem events_shape (cfg : RetryConfig exn) (around : RetrySurroundings)
    (fn : world -> world × Except exn value) (w : world) :
    exists n last, cfg.events around fn w = cfg.rounds around 0 n ++ last ∧
      n <= cfg.maxAttempts.toNat ∧
      (forall i, i < n -> isExpired cfg.deadline (around.before i) = false) ∧
      (last = [] ∨ last = [.invoked n] ∧ n < cfg.maxAttempts.toNat ∧
        isExpired cfg.deadline (around.before n) = false) := by
  rcases stops_or_not cfg around fn w with ⟨k, exit, hk, hnone, hstop⟩ | hnone
  · refine ⟨k, _, (run_of_stop hk hnone hstop).right, Nat.le_of_lt hk,
      fun i hi => not_expired_of_stopAt_none (hnone i hi), ?_⟩
    cases hbefore : isExpired cfg.deadline (around.before k) with
    | true => exact Or.inl (if_pos rfl)
    | false => exact Or.inr ⟨if_neg Bool.false_ne_true, hk, rfl⟩
  · refine ⟨cfg.maxAttempts.toNat - 1, _, (run_of_no_stop hnone).right, Nat.sub_le _ _,
      fun i hi => not_expired_of_stopAt_none (hnone i (by lia)), ?_⟩
    by_cases hzero : cfg.maxAttempts.toNat = 0
    · exact Or.inl (if_pos hzero)
    · have hlast : cfg.maxAttempts.toNat - 1 < cfg.maxAttempts.toNat := by lia
      exact Or.inr ⟨if_neg hzero, hlast, not_expired_of_stopAt_none (hnone _ hlast)⟩

theorem alternates_rounds (cfg : RetryConfig exn) (around : RetrySurroundings)
    {last : List RetryEvent} (a n : Nat) (hlast : last = [] ∨ last = [.invoked (a + n)]) :
    RetryEvent.Alternates a (cfg.rounds around a n ++ last) := by
  induction n generalizing a with
  | zero =>
      rcases hlast with hlast | hlast
      · rw [hlast]
        exact .none a
      · rw [hlast]
        exact .last a
  | succ n ih =>
      have hrest : last = [] ∨ last = [.invoked (a + 1 + n)] := by
        rwa [Nat.add_right_comm]
      exact .more (cfg.sleepAt around a) (ih (a + 1) hrest)

theorem countP_rounds (cfg : RetryConfig exn) (around : RetrySurroundings) (a n : Nat) :
    (cfg.rounds around a n).countP RetryEvent.isInvocation = n := by
  induction n generalizing a with
  | zero => rfl
  | succ n ih =>
      have hrounds : cfg.rounds around a (n + 1) =
          .invoked a :: .slept a (cfg.sleepAt around a) :: cfg.rounds around (a + 1) n := rfl
      simp [hrounds, List.countP_cons, ih]

theorem lt_of_invoked_mem_rounds {n i : Nat} (h : .invoked i ∈ cfg.rounds around 0 n) : i < n := by
  rcases List.mem_flatMap.mp h with ⟨j, hj, hi⟩
  simp only [List.mem_cons, RetryEvent.invoked.injEq, reduceCtorEq, List.not_mem_nil,
    or_false] at hi
  rw [hi]
  simpa using hj

end Run

/-!
## The behaviour of `with_retry`

Everything that a run is asked for, assembled from its shape.
-/

structure RetryBehaves (cfg : RetryConfig exn) (around : RetrySurroundings)
    (fn : world -> world × Except exn value) (w : world) : Prop where
  /-- the first attempt that stops the run says how it ends -/
  stops : forall k exit, k < cfg.maxAttempts.toNat ->
    (forall j, j < k -> cfg.stopAt around fn w j = none) ->
    cfg.stopAt around fn w k = some exit -> (cfg.withRetry around fn w).exit = exit
  exhausts : (forall k, k < cfg.maxAttempts.toNat -> cfg.stopAt around fn w k = none) ->
    (cfg.withRetry around fn w).exit = .retryExhausted "all retry attempts exhausted"
  bounded : (cfg.events around fn w).countP RetryEvent.isInvocation <= cfg.maxAttempts.toNat
  inTime : forall i, .invoked i ∈ cfg.events around fn w ->
    isExpired cfg.deadline (around.before i) = false
  separated : forall (front between back : List RetryEvent) (i j : Nat),
    cfg.events around fn w =
        front ++ RetryEvent.invoked i :: (between ++ RetryEvent.invoked j :: back) ->
      (forall e, e ∈ between -> e.isInvocation = false) ->
        exists duration, between = [RetryEvent.slept i duration]

theorem withRetry_behaves (cfg : RetryConfig exn) (around : RetrySurroundings)
    (fn : world -> world × Except exn value) (w : world) : cfg.RetryBehaves around fn w := by
  rcases events_shape cfg around fn w with ⟨n, last, hevents, hn, htime, hlast⟩
  refine ⟨fun k exit hk hnone hstop => (run_of_stop hk hnone hstop).left,
    fun hnone => (run_of_no_stop hnone).left, ?_, ?_, ?_⟩
  · rw [hevents, List.countP_append, countP_rounds]
    rcases hlast with hlast | ⟨hlast, hlt, _⟩
    · rw [hlast]
      exact hn
    · rw [hlast]
      exact hlt
  · intro i hi
    rw [hevents] at hi
    rcases List.mem_append.mp hi with hrounds | hi
    · exact htime i (lt_of_invoked_mem_rounds hrounds)
    · rcases hlast with hlast | ⟨hlast, _, hbefore⟩
      · rw [hlast] at hi
        cases hi
      · rw [hlast, List.mem_singleton] at hi
        injection hi with hi
        rw [hi]
        exact hbefore
  · intro front between back i j hsplit hbetween
    have halternates : RetryEvent.Alternates 0 (cfg.events around fn w) := by
      rw [hevents]
      apply alternates_rounds
      rw [Nat.zero_add]
      exact hlast.imp_right And.left
    exact halternates.separated hsplit hbetween

end RetryConfig
end Resilience
end CppCommons
