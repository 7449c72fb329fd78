import CppCommons.Web.Http
import CppCommons.Resilience.RateLimiter

/-!
# Rate limiting middleware

`rate_limit_middleware` asks its limiter for one token for each request, and
answers 429 itself when there is none.  Requests are listed in the order in
which they take the limiter's lock.
-/

namespace CppCommons
namespace Web

open Cxx
open Resilience
open Resilience.LimiterCall
open Resilience.RateLimiter

def tooManyRequests (retryAfterSeconds : Bytes) : HttpResponse where
  statusCode := 429
  headers := ((∅ : StringMap Bytes).insert (ascii "Retry-After") retryAfterSeconds).insert
    (ascii "Content-Type") (ascii "application/problem+json")
  body := ascii
    "\x7b\"type\":\"about:blank\",\"title\":\"Too Many Requests\",\"status\":429\x7d"

def rateLimitMiddleware {exn : Type} (retryAfterSeconds : Bytes) (limiter : RateLimiter)
    (now : Seconds) (req : HttpRequest) (next : Handler exn) : RateLimiter × Exchange exn :=
  match limiter.tryAcquire 1 now with
  | (limiter', false) =>
      (limiter', { calls := [], outcome := .ok (tooManyRequests retryAfterSeconds) })
  | (limiter', true) => (limiter', { calls := [req], outcome := next req })

/-- A request at the middleware, with the reading its acquisition takes. -/
structure LimitedArrival (exn : Type) where
  req : HttpRequest
  now : Seconds
  next : Handler exn

variable {exn : Type}

def LimitedArrival.acquisition (a : LimitedArrival exn) : LimiterCall :=
  .tryAcquire 1 a.now

def limiterAfter (retryAfterSeconds : Bytes) (limiter : RateLimiter)
    (arrivals : List (LimitedArrival exn)) : RateLimiter :=
  arrivals.foldl
    (fun l a => (rateLimitMiddleware retryAfterSeconds l a.now a.req a.next).fst) limiter

/-- The requests that reach the wrapped handler. -/
def forwarded (retryAfterSeconds : Bytes) (limiter : RateLimiter) :
    List (LimitedArrival exn) -> List HttpRequest
  | [] => []
  | a :: rest =>
      let answer := rateLimitMiddleware retryAfterSeconds limiter a.now a.req a.next
      answer.snd.calls ++ forwarded retryAfterSeconds answer.fst rest

theorem rateLimitMiddleware_eq (retryAfterSeconds : Bytes) (limiter : RateLimiter)
    (a : LimitedArrival exn) :
    (rateLimitMiddleware retryAfterSeconds limiter a.now a.req a.next).fst =
        (limiter.serve a.acquisition).fst ∧
      ((rateLimitMiddleware retryAfterSeconds limiter a.now a.req a.next).snd.calls.length : Rat) =
        grantedCost a.acquisition (limiter.serve a.acquisition).snd := by
  unfold rateLimitMiddleware LimitedArrival.acquisition
  by_cases hdenied : (limiter.refill a.now).tokens < 1
  · simp [RateLimiter.serve, tryAcquire_denied hdenied, grantedCost]
  · simp [RateLimiter.serve, tryAcquire_granted hdenied, grantedCost]

theorem limiterAfter_eq_after (retryAfterSeconds : Bytes) (limiter : RateLimiter)
    (arrivals : List (LimitedArrival exn)) :
    limiterAfter retryAfterSeconds limiter arrivals =
      limiter.after (arrivals.map LimitedArrival.acquisition) := by
  induction arrivals generalizing limiter with
  | nil => rfl
  | cons a arrivals ih =>
      have hstate := (rateLimitMiddleware_eq retryAfterSeconds limiter a).left
      rw [limiterAfter, List.foldl_cons, hstate]
      exact ih _

theorem length_forwarded (retryAfterSeconds : Bytes) (limiter : RateLimiter)
    (arrivals : List (LimitedArrival exn)) :
    ((forwarded retryAfterSeconds limiter arrivals).length : Rat) =
      limiter.granted (arrivals.map LimitedArrival.acquisition) := by
  induction arrivals generalizing limiter with
  | nil => rfl
  | cons a arrivals ih =>
      rcases rateLimitMiddleware_eq retryAfterSeconds limiter a with ⟨hstate, hcalls⟩
      rw [forwarded, List.length_append, Nat.cast_add, hcalls, hstate, ih]
      rfl

theorem costNonneg_of_mem_acquisitions {arrivals : List (LimitedArrival exn)} {c : LimiterCall}
    (h : c ∈ arrivals.map LimitedArrival.acquisition) : c.CostNonneg := by
  rcases List.mem_map.mp h with ⟨a, _, rfl⟩
  exact zero_le_one

theorem not_resets_of_mem_acquisitions {arrivals : List (LimitedArrival exn)} {c : LimiterCall}
    (h : c ∈ arrivals.map LimitedArrival.acquisition) : ¬ c.Resets := by
  rintro ⟨now, rfl⟩
  rcases List.mem_map.mp h with ⟨a, _, ha⟩
  cases ha

theorem granted_after_make_le {maxTokens refillRate : Rat} (hmax : 0 <= maxTokens)
    (hrate : 0 <= refillRate) {created : Seconds} {before window later : List LimiterCall}
    (hclock : ClockFrom created (before ++ (window ++ later)))
    (hcosts : forall c, c ∈ before ++ (window ++ later) -> c.CostNonneg)
    (hkeeps : forall c, c ∈ window -> ¬ c.Resets) {t0 t1 : Seconds} (ht : t0 <= t1)
    (hinside : forall c, c ∈ window -> t0 <= c.now ∧ c.now <= t1) :
    ((make maxTokens refillRate created).after before).granted window <=
      maxTokens + refillRate * (t1 - t0) := by
  have hfilled : Filled maxTokens refillRate
      ((make maxTokens refillRate created).after before) :=
    filled_after (filled_make hmax created) hrate (clockFrom_of_append hclock)
      (fun c hc => hcosts c (by simp [hc]))
  exact granted_window_le hfilled hrate (clockFrom_of_append (clockFrom_after hclock))
    (fun c hc => hcosts c (by simp [hc])) hkeeps ht hinside

variable (exn) in
/--
With a capacity and a rate that are not negative, costs that are not negative
and a clock that does not go back: after every sequence of calls the bucket
holds between nothing and its capacity; the costs granted in any window of
consecutive calls without a `reset` whose readings lie in `[t0, t1]` add up to at
most `maxTokens + refillRate * (t1 - t0)`; and the middleware forwards at most that
many requests in such a window.
-/
theorem rateLimit_window (maxTokens refillRate : Rat) (hmax : 0 <= maxTokens)
    (hrate : 0 <= refillRate) (created : Seconds) :
    (forall calls, ClockFrom created calls -> (forall c, c ∈ calls -> c.CostNonneg) ->
      0 <= ((make maxTokens refillRate created).after calls).tokens ∧
        ((make maxTokens refillRate created).after calls).tokens <= maxTokens) ∧
    (forall before window later, ClockFrom created (before ++ (window ++ later)) ->
      (forall c, c ∈ before ++ (window ++ later) -> c.CostNonneg) ->
      (forall c, c ∈ window -> ¬ c.Resets) ->
      forall t0 t1, t0 <= t1 -> (forall c, c ∈ window -> t0 <= c.now ∧ c.now <= t1) ->
        ((make maxTokens refillRate created).after before).granted window <=
          maxTokens + refillRate * (t1 - t0)) ∧
    (forall (retryAfterSeconds : Bytes) (before window later : List (LimitedArrival exn)),
      ClockFrom created ((before ++ (window ++ later)).map LimitedArrival.acquisition) ->
      forall t0 t1, t0 <= t1 -> (forall a, a ∈ window -> t0 <= a.now ∧ a.now <= t1) ->
        ((forwarded retryAfterSeconds
            (limiterAfter retryAfterSeconds (make maxTokens refillRate created) before)
            window).length : Rat) <=
          maxTokens + refillRate * (t1 - t0)) := by
  refine ⟨?_, ?_, ?_⟩
  · intro calls hclock hcosts
    have hfilled := filled_after (filled_make hmax created) hrate hclock hcosts
    exact ⟨hfilled.nonneg, hfilled.bounded⟩
  · intro before window later hclock hcosts hkeeps t0 t1 ht hinside
    exact granted_after_make_le hmax hrate hclock hcosts hkeeps ht hinside
  · intro retryAfterSeconds before window later hclock t0 t1 ht hinside
    rw [length_forwarded, limiterAfter_eq_after]
    have hcosts : forall c, c ∈ (before ++ (window ++ later)).map LimitedArrival.acquisition ->
        c.CostNonneg := fun _ hc => costNonneg_of_mem_acquisitions hc
    rw [List.map_append, List.map_append] at hclock hcosts
    refine granted_after_make_le hmax hrate hclock hcosts
      (fun _ hc => not_resets_of_mem_acquisitions hc) ht ?_
    intro c hc
    rcases List.mem_map.mp hc with ⟨a, ha, rfl⟩
    exact hinside a ha

def arrivalsAt (readings : List Seconds) : List (LimitedArrival Unit) :=
  readings.map (fun now => { req := {}, now := now, next := fun _ => .ok (HttpResponse.ok []) })

theorem burst_limited :
    ((forwarded (ascii "1") (limiterAfter (ascii "1") (make 2 1 0) (arrivalsAt [1]))
        (arrivalsAt [2, 2, 3, 3])).length : Rat) <= 2 + 1 * (3 - 2) := by
  have hwindow := (rateLimit_window Unit 2 1 (by norm_num) (by norm_num) 0).right.right
  refine hwindow (ascii "1") (arrivalsAt [1]) (arrivalsAt [2, 2, 3, 3]) [] ?_ 2 3 (by norm_num) ?_
  · unfold ClockFrom arrivalsAt LimitedArrival.acquisition
    decide
  · unfold arrivalsAt
    simp
    norm_num

end Web
end CppCommons
