import Mathlib

/-!
# Token bucket

`RateLimiter` over exact rationals: amounts are rational numbers of tokens and
readings of the clock rational numbers of seconds.  Each public call takes the
lock and one reading, so a run is a sequence of calls with their readings.
-/

namespace CppCommons
namespace Resilience

/-- A reading of `steady_clock`, in seconds. -/
abbrev Seconds := Rat

@[ext]
structure RateLimiter where
  maxTokens : Rat
  refillRate : Rat
  tokens : Rat
  lastRefill : Seconds
deriving DecidableEq

/-- The public calls, each with the reading it takes under the lock. -/
inductive LimiterCall where
  | tryAcquire (cost : Rat) (now : Seconds)
  | availableTokens (now : Seconds)
  | reset (now : Seconds)
deriving DecidableEq

inductive LimiterResult where
  | acquired (granted : Bool)
  | tokens (amount : Rat)
  | nothing
deriving DecidableEq

namespace LimiterCall

def now : LimiterCall -> Seconds
  | .tryAcquire _ now => now
  | .availableTokens now => now
  | .reset now => now

/-- The cost is not negative; only `try_acquire` has one. -/
def CostNonneg : LimiterCall -> Prop
  | .tryAcquire cost _ => 0 <= cost
  | .availableTokens _ => True
  | .reset _ => True

def Resets (c : LimiterCall) : Prop :=
  exists now, c = .reset now

/-- The readings do not decrease, and none is before `start`. -/
def ClockFrom (start : Seconds) (calls : List LimiterCall) : Prop :=
  (start :: calls.map now).Pairwise (fun earlier later => earlier <= later)

theorem clockFrom_cons {start : Seconds} {c : LimiterCall} {calls : List LimiterCall}
    (h : ClockFrom start (c :: calls)) : start <= c.now ∧ ClockFrom c.now calls := by
  rcases List.pairwise_cons.mp h with ⟨hstart, hrest⟩
  exact ⟨hstart c.now (by simp), hrest⟩

theorem clockFrom_of_append {start : Seconds} {before after : List LimiterCall}
    (h : ClockFrom start (before ++ after)) : ClockFrom start before := by
  unfold ClockFrom at h ⊢
  rw [List.map_append, ← List.cons_append] at h
  exact (List.pairwise_append.mp h).left

end LimiterCall

namespace RateLimiter

open LimiterCall

/-- The constructor, with the reading it takes. -/
def make (maxTokens refillRate : Rat) (created : Seconds) : RateLimiter :=
  { maxTokens := maxTokens, refillRate := refillRate, tokens := maxTokens, lastRefill := created }

def refill (l : RateLimiter) (now : Seconds) : RateLimiter :=
  { l with
    tokens := min l.maxTokens (l.tokens + (now - l.lastRefill) * l.refillRate)
    lastRefill := now }

def tryAcquire (l : RateLimiter) (cost : Rat) (now : Seconds) : RateLimiter × Bool :=
  let l' := l.refill now
  if l'.tokens < cost then (l', false)
  else ({ l' with tokens := l'.tokens - cost }, true)

def availableTokens (l : RateLimiter) (now : Seconds) : RateLimiter × Rat :=
  let l' := l.refill now
  (l', l'.tokens)

def reset (l : RateLimiter) (now : Seconds) : RateLimiter :=
  { l with tokens := l.maxTokens, lastRefill := now }

def serve (l : RateLimiter) : LimiterCall -> RateLimiter × LimiterResult
  | .tryAcquire cost now => ((l.tryAcquire cost now).fst, .acquired (l.tryAcquire cost now).snd)
  | .availableTokens now => ((l.availableTokens now).fst, .tokens (l.availableTokens now).snd)
  | .reset now => (l.reset now, .nothing)

def after (l : RateLimiter) (calls : List LimiterCall) : RateLimiter :=
  calls.foldl (fun l c => (l.serve c).fst) l

def grantedCost : LimiterCall -> LimiterResult -> Rat
  | .tryAcquire cost _, .acquired true => cost
  | _, _ => 0

/-- The sum of the costs granted to the calls, made from `l` on. -/
def granted (l : RateLimiter) : List LimiterCall -> Rat
  | [] => 0
  | c :: calls => grantedCost c (l.serve c).snd + granted (l.serve c).fst calls

/-!
## One call

A call first brings the bucket up to date, or fills it up if it is a `reset`, and
then takes from it what it grants.
-/

def upToDate (l : RateLimiter) : LimiterCall -> RateLimiter
  | .tryAcquire _ now => l.refill now
  | .availableTokens now => l.refill now
  | .reset now => l.reset now

theorem tryAcquire_denied {l : RateLimiter} {cost : Rat} {now : Seconds}
    (h : (l.refill now).tokens < cost) : l.tryAcquire cost now = (l.refill now, false) := by
  unfold tryAcquire
  rw [if_pos h]

theorem tryAcquire_granted {l : RateLimiter} {cost : Rat} {now : Seconds}
    (h : ¬ (l.refill now).tokens < cost) :
    l.tryAcquire cost now =
      ({ l.refill now with tokens := (l.refill now).tokens - cost }, true) := by
  unfold tryAcquire
  rw [if_neg h]

theorem serve_fst (l : RateLimiter) (c : LimiterCall) :
    (l.serve c).fst =
      { l.upToDate c with
        tokens := (l.upToDate c).tokens - grantedCost c (l.serve c).snd } := by
  cases c with
  | availableTokens now => simp [serve, availableTokens, grantedCost, upToDate]
  | reset now => simp [serve, grantedCost, upToDate]
  | tryAcquire cost now =>
      by_cases hdenied : (l.refill now).tokens < cost
      · simp [serve, tryAcquire_denied hdenied, grantedCost, upToDate]
      · simp [serve, tryAcquire_granted hdenied, grantedCost, upToDate]

theorem grantedCost_bounds (l : RateLimiter) {c : LimiterCall} (hcost : c.CostNonneg)
    (htokens : 0 <= (l.upToDate c).tokens) :
    0 <= grantedCost c (l.serve c).snd ∧
      grantedCost c (l.serve c).snd <= (l.upToDate c).tokens := by
  cases c with
  | availableTokens now => exact ⟨le_refl 0, htokens⟩
  | reset now => exact ⟨le_refl 0, htokens⟩
  | tryAcquire cost now =>
      by_cases hdenied : (l.refill now).tokens < cost
      · simp only [serve, tryAcquire_denied hdenied, grantedCost]
        exact ⟨le_refl 0, htokens⟩
      · simp only [serve, tryAcquire_granted hdenied, grantedCost]
        exact ⟨hcost, not_lt.mp hdenied⟩

structure Filled (maxTokens refillRate : Rat) (l : RateLimiter) : Prop where
  capacity : l.maxTokens = maxTokens
  rate : l.refillRate = refillRate
  nonneg : 0 <= l.tokens
  bounded : l.tokens <= maxTokens

section Bounds

variable {maxTokens refillRate : Rat}

theorem filled_make (hmax : 0 <= maxTokens) (created : Seconds) :
    Filled maxTokens refillRate (make maxTokens refillRate created) :=
  ⟨rfl, rfl, hmax, le_refl maxTokens⟩

theorem Filled.capacity_nonneg {l : RateLimiter} (h : Filled maxTokens refillRate l) :
    0 <= l.maxTokens := by
  rw [h.capacity]
  exact le_trans h.nonneg h.bounded

theorem filled_refill {l : RateLimiter} (h : Filled maxTokens refillRate l)
    (hrate : 0 <= refillRate) {now : Seconds} (hnow : l.lastRefill <= now) :
    Filled maxTokens refillRate (l.refill now) := by
  have hgain : 0 <= (now - l.lastRefill) * l.refillRate := by
    rw [h.rate]
    exact mul_nonneg (sub_nonneg.mpr hnow) hrate
  refine ⟨h.capacity, h.rate, le_min h.capacity_nonneg (add_nonneg h.nonneg hgain), ?_⟩
  rw [← h.capacity]
  exact min_le_left _ _

theorem filled_reset {l : RateLimiter} (h : Filled maxTokens refillRate l) (now : Seconds) :
    Filled maxTokens refillRate (l.reset now) :=
  ⟨h.capacity, h.rate, h.capacity_nonneg, le_of_eq h.capacity⟩

theorem filled_upToDate {l : RateLimiter} (h : Filled maxTokens refillRate l)
    (hrate : 0 <= refillRate) {c : LimiterCall} (hnow : l.lastRefill <= c.now) :
    Filled maxTokens refillRate (l.upToDate c) := by
  cases c with
  | tryAcquire cost now => exact filled_refill h hrate hnow
  | availableTokens now => exact filled_refill h hrate hnow
  | reset now => exact filled_reset h now

theorem upToDate_le_gain {l : RateLimiter} (h : Filled maxTokens refillRate l) {c : LimiterCall}
    (hkeeps : ¬ c.Resets) :
    (l.upToDate c).tokens <= l.tokens + refillRate * (c.now - l.lastRefill) := by
  rw [← h.rate, mul_comm]
  cases c with
  | tryAcquire cost now => exact min_le_right _ _
  | availableTokens now => exact min_le_right _ _
  | reset now => exact absurd ⟨now, rfl⟩ hkeeps

theorem filled_serve {l : RateLimiter} (h : Filled maxTokens refillRate l)
    (hrate : 0 <= refillRate) {c : LimiterCall} (hcost : c.CostNonneg)
    (hnow : l.lastRefill <= c.now) : Filled maxTokens refillRate (l.serve c).fst := by
  have hfound := filled_upToDate h hrate hnow
  rcases grantedCost_bounds l hcost hfound.nonneg with ⟨hnonneg, hle⟩
  rw [serve_fst]
  refine ⟨hfound.capacity, hfound.rate, sub_nonneg.mpr hle, ?_⟩
  exact le_trans (sub_le_self _ hnonneg) hfound.bounded

theorem lastRefill_serve (l : RateLimiter) (c : LimiterCall) :
    (l.serve c).fst.lastRefill = c.now := by
  rw [serve_fst]
  cases c <;> rfl

theorem filled_after {l : RateLimiter} (h : Filled maxTokens refillRate l)
    (hrate : 0 <= refillRate) {calls : List LimiterCall}
    (hclock : ClockFrom l.lastRefill calls) (hcosts : forall c, c ∈ calls -> c.CostNonneg) :
    Filled maxTokens refillRate (l.after calls) := by
  induction calls generalizing l with
  | nil => exact h
  | cons c calls ih =>
      rcases clockFrom_cons hclock with ⟨hnow, hrest⟩
      apply ih (filled_serve h hrate (hcosts c (by simp)) hnow)
      · rw [lastRefill_serve]
        exact hrest
      · intro d hd
        exact hcosts d (by simp [hd])

/-!
## Windows

The tokens in the bucket are the potential: what is granted comes out of them,
and they grow by at most the refill rate while nothing resets the limiter.
-/

theorem granted_le_of_clock {l : RateLimiter} (h : Filled maxTokens refillRate l)
    (hrate : 0 <= refillRate) {calls : List LimiterCall}
    (hclock : ClockFrom l.lastRefill calls) (hcosts : forall c, c ∈ calls -> c.CostNonneg)
    (hkeeps : forall c, c ∈ calls -> ¬ c.Resets) {stop : Seconds} (hstart : l.lastRefill <= stop)
    (hstop : forall c, c ∈ calls -> c.now <= stop) :
    l.granted calls <= l.tokens + refillRate * (stop - l.lastRefill) := by
  induction calls generalizing l with
  | nil => exact add_nonneg h.nonneg (mul_nonneg hrate (sub_nonneg.mpr hstart))
  | cons c calls ih =>
      rcases clockFrom_cons hclock with ⟨hnow, hrest⟩
      have hserved := filled_serve h hrate (hcosts c (by simp)) hnow
      have htail : (l.serve c).fst.granted calls <=
          (l.serve c).fst.tokens + refillRate * (stop - c.now) := by
        have hlast := lastRefill_serve l c
        have hbound := ih hserved (by rw [hlast]; exact hrest)
          (fun d hd => hcosts d (by simp [hd])) (fun d hd => hkeeps d (by simp [hd]))
          (by rw [hlast]; exact hstop c (by simp)) (fun d hd => hstop d (by simp [hd]))
        rw [hlast] at hbound
        exact hbound
      have hgain := upToDate_le_gain h (hkeeps c (by simp))
      rw [serve_fst] at htail
      rw [granted]
      calc
        grantedCost c (l.serve c).snd + (l.serve c).fst.granted calls
            <= grantedCost c (l.serve c).snd +
              ((l.upToDate c).tokens - grantedCost c (l.serve c).snd +
                refillRate * (stop - c.now)) := by
          rw [serve_fst]
          exact add_le_add_right htail _
        _ = (l.upToDate c).tokens + refillRate * (stop - c.now) := by ring
        _ <= l.tokens + refillRate * (c.now - l.lastRefill) + refillRate * (stop - c.now) :=
          add_le_add_left hgain _
        _ = l.tokens + refillRate * (stop - l.lastRefill) := by ring

theorem granted_window_le {l : RateLimiter} (h : Filled maxTokens refillRate l)
    (hrate : 0 <= refillRate) {window : List LimiterCall}
    (hclock : ClockFrom l.lastRefill window) (hcosts : forall c, c ∈ window -> c.CostNonneg)
    (hkeeps : forall c, c ∈ window -> ¬ c.Resets) {t0 t1 : Seconds} (ht : t0 <= t1)
    (hinside : forall c, c ∈ window -> t0 <= c.now ∧ c.now <= t1) :
    l.granted window <= maxTokens + refillRate * (t1 - t0) := by
  cases window with
  | nil =>
      exact add_nonneg (le_trans h.nonneg h.bounded) (mul_nonneg hrate (sub_nonneg.mpr ht))
  | cons c window =>
      rcases clockFrom_cons hclock with ⟨hnow, hrest⟩
      rcases hinside c (by simp) with ⟨hfrom, hto⟩
      have hserved := filled_serve h hrate (hcosts c (by simp)) hnow
      have hlast := lastRefill_serve l c
      have htail : (l.serve c).fst.granted window <=
          (l.serve c).fst.tokens + refillRate * (t1 - c.now) := by
        have hbound := granted_le_of_clock hserved hrate (by rw [hlast]; exact hrest)
          (fun d hd => hcosts d (by simp [hd])) (fun d hd => hkeeps d (by simp [hd]))
          (by rw [hlast]; exact hto) (fun d hd => (hinside d (by simp [hd])).right)
        rw [hlast] at hbound
        exact hbound
      have hfull := (filled_upToDate h hrate hnow).bounded
      have hless : refillRate * (t1 - c.now) <= refillRate * (t1 - t0) :=
        mul_le_mul_of_nonneg_left (sub_le_sub_left hfrom t1) hrate
      have htokens : (l.serve c).fst.tokens =
          (l.upToDate c).tokens - grantedCost c (l.serve c).snd := by
        rw [serve_fst]
      rw [granted]
      linarith

theorem clockFrom_after {l : RateLimiter} {before window : List LimiterCall}
    (h : ClockFrom l.lastRefill (before ++ window)) :
    ClockFrom (l.after before).lastRefill window := by
  induction before generalizing l with
  | nil => exact h
  | cons c before ih =>
      apply ih
      rw [lastRefill_serve]
      exact (clockFrom_cons h).right

end Bounds

/-!
## Calls that only observe

A refill in between does not change what a later refill arrives at, and a
denied call does no more than refill.
-/

def level (l : RateLimiter) (t : Seconds) : Rat :=
  (l.refill t).tokens

theorem level_refill (l : RateLimiter) (hrate : 0 <= l.refillRate) {now t : Seconds}
    (hnow : now <= t) : (l.refill now).level t = l.level t := by
  have hgain : 0 <= (t - now) * l.refillRate := mul_nonneg (sub_nonneg.mpr hnow) hrate
  have hsplit : l.tokens + (t - l.lastRefill) * l.refillRate =
      l.tokens + (now - l.lastRefill) * l.refillRate + (t - now) * l.refillRate := by
    ring
  unfold level refill
  simp only [hsplit]
  rcases le_total l.maxTokens (l.tokens + (now - l.lastRefill) * l.refillRate) with hfull | hroom
  · rw [min_eq_left hfull, min_eq_left (le_add_of_nonneg_right hgain),
      min_eq_left (le_trans hfull (le_add_of_nonneg_right hgain))]
  · rw [min_eq_right hroom]

/-- `l` has been observed more often than `l'`: from its last refill on, both
refill to the same level. -/
structure Observed (l l' : RateLimiter) : Prop where
  maxTokens : l.maxTokens = l'.maxTokens
  refillRate : l.refillRate = l'.refillRate
  level : forall t, l.lastRefill <= t -> l.level t = l'.level t

theorem observed_refl (l : RateLimiter) : Observed l l :=
  ⟨rfl, rfl, fun _ _ => rfl⟩

theorem refill_eq_of_observed {l l' : RateLimiter} (h : Observed l l') {now : Seconds}
    (hnow : l.lastRefill <= now) : l.refill now = l'.refill now := by
  apply RateLimiter.ext
  · exact h.maxTokens
  · exact h.refillRate
  · exact h.level now hnow
  · rfl

theorem serve_eq_of_observed {l l' : RateLimiter} (h : Observed l l') {c : LimiterCall}
    (hnow : l.lastRefill <= c.now) : l.serve c = l'.serve c := by
  cases c with
  | availableTokens now =>
      have hsame : l.refill now = l'.refill now := refill_eq_of_observed h hnow
      simp only [serve, availableTokens, hsame]
  | tryAcquire cost now =>
      have hsame : l.refill now = l'.refill now := refill_eq_of_observed h hnow
      simp only [serve, tryAcquire, hsame]
  | reset now => simp only [serve, reset, h.maxTokens, h.refillRate]

def observes (c : LimiterCall) (result : LimiterResult) : Prop :=
  (exists now, c = .availableTokens now) ∨ result = .acquired false

theorem serve_of_observes {l : RateLimiter} {c : LimiterCall}
    (h : observes c (l.serve c).snd) : (l.serve c).fst = l.refill c.now := by
  cases c with
  | availableTokens now => rfl
  | reset now => simp [observes, serve] at h
  | tryAcquire cost now =>
      by_cases hdenied : (l.refill now).tokens < cost
      · simp [serve, tryAcquire_denied hdenied, LimiterCall.now]
      · simp [observes, serve, tryAcquire_granted hdenied] at h

theorem observed_serve {l l' : RateLimiter} (h : Observed l l') (hrate : 0 <= l.refillRate)
    {c : LimiterCall} (hnow : l.lastRefill <= c.now) (hobserves : observes c (l.serve c).snd) :
    Observed (l.serve c).fst l' := by
  rw [serve_of_observes hobserves]
  refine ⟨h.maxTokens, h.refillRate, ?_⟩
  intro t ht
  have hlater : c.now <= t := ht
  rw [level_refill l hrate hlater]
  exact h.level t (le_trans hnow hlater)

/-- A run whose calls are marked: `true` for an extra call, `false` for a common one. -/
abbrev MarkedRun := List (LimiterCall × Bool)

def common (marked : MarkedRun) : List LimiterCall :=
  (marked.filter (fun e => !e.snd)).map Prod.fst

/-- The results of the common calls, when the whole run is made from `l` on. -/
def commonResults (l : RateLimiter) : MarkedRun -> List LimiterResult
  | [] => []
  | (c, true) :: rest => commonResults (l.serve c).fst rest
  | (c, false) :: rest => (l.serve c).snd :: commonResults (l.serve c).fst rest

/-- Every extra call only observes in this run. -/
def ExtrasObserve (l : RateLimiter) : MarkedRun -> Prop
  | [] => True
  | (c, true) :: rest => observes c (l.serve c).snd ∧ ExtrasObserve (l.serve c).fst rest
  | (c, false) :: rest => ExtrasObserve (l.serve c).fst rest

def results (l : RateLimiter) : List LimiterCall -> List LimiterResult
  | [] => []
  | c :: calls => (l.serve c).snd :: results (l.serve c).fst calls

theorem refillRate_serve (l : RateLimiter) (c : LimiterCall) :
    (l.serve c).fst.refillRate = l.refillRate := by
  rw [serve_fst]
  cases c <;> rfl

theorem commonResults_eq_results {l l' : RateLimiter} (h : Observed l l')
    (hrate : 0 <= l.refillRate) {marked : MarkedRun}
    (hclock : ClockFrom l.lastRefill (marked.map Prod.fst)) (hextras : ExtrasObserve l marked) :
    l.commonResults marked = l'.results (common marked) := by
  induction marked generalizing l l' with
  | nil => rfl
  | cons e marked ih =>
      rcases e with ⟨c, extra⟩
      rcases clockFrom_cons hclock with ⟨hnow, hrest⟩
      have hrest' : ClockFrom (l.serve c).fst.lastRefill (marked.map Prod.fst) := by
        rw [lastRefill_serve]
        exact hrest
      have hrate' : 0 <= (l.serve c).fst.refillRate := by
        rw [refillRate_serve]
        exact hrate
      cases extra with
      | true => exact ih (observed_serve h hrate hnow hextras.left) hrate' hrest' hextras.right
      | false =>
          have hserve := serve_eq_of_observed h hnow
          have htail : (l.serve c).fst.commonResults marked =
              (l.serve c).fst.results (common marked) :=
            ih (observed_refl _) hrate' hrest' hextras
          have hcommon : common ((c, false) :: marked) = c :: common marked := rfl
          rw [commonResults, hcommon, results, htail, hserve]

/--
Two runs of one limiter that differ only in extra calls that observe (reads of
the tokens, and acquisitions that were denied), inserted anywhere: the common
calls get the same results in both.
-/
theorem observation_neutral (maxTokens refillRate : Rat) (hrate : 0 <= refillRate)
    (created : Seconds) (first second : MarkedRun) (hcommon : common first = common second)
    (hclock : ClockFrom created (first.map Prod.fst))
    (hclock' : ClockFrom created (second.map Prod.fst))
    (hextras : ExtrasObserve (make maxTokens refillRate created) first)
    (hextras' : ExtrasObserve (make maxTokens refillRate created) second) :
    (make maxTokens refillRate created).commonResults first =
      (make maxTokens refillRate created).commonResults second := by
  have hfirst := commonResults_eq_results (observed_refl (make maxTokens refillRate created))
    hrate hclock hextras
  have hsecond := commonResults_eq_results (observed_refl (make maxTokens refillRate created))
    hrate hclock' hextras'
  rw [hfirst, hsecond, hcommon]

def polling : MarkedRun :=
  [(.tryAcquire 4 0, false), (.availableTokens 1, true), (.tryAcquire 3 2, true),
    (.tryAcquire 3 3, false)]

def notPolling : MarkedRun :=
  [(.tryAcquire 4 0, false), (.tryAcquire 3 3, false)]

theorem polling_neutral :
    (make 4 1 0).commonResults polling = (make 4 1 0).commonResults notPolling := by
  refine observation_neutral 4 1 (by norm_num) 0 polling notPolling rfl ?_ ?_ ?_ ?_
  · unfold ClockFrom polling
    decide
  · unfold ClockFrom notPolling
    decide
  · refine ⟨Or.inl ⟨_, rfl⟩, Or.inr ?_, trivial⟩
    norm_num [serve, tryAcquire, availableTokens, refill, make]
  · exact trivial

end RateLimiter
end Resilience
end CppCommons
