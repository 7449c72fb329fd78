import CppCommons.Foundation.LabelledRun
import CppCommons.Web.IdempotencyMiddleware

/-!
# Overlapping requests with one idempotency key

Requests interleave at their three steps: the locked lookup, the call of the
wrapped handler and the locked insert.  A request without a key only calls the
handler.  The list `invocations` records the handler calls in order.
-/

namespace CppCommons
namespace Web

open Cxx
open Foundation.LabelledRun

inductive RequestPhase (exn : Type) where
  | waiting
  | missed (now : Nanoseconds)
  | responded (now : Nanoseconds) (response : HttpResponse)
  | finished (outcome : Except exn HttpResponse)

/-- A step of request `i`; the handler's outcome is chosen by the environment. -/
inductive RequestAction (rid exn : Type) where
  | lookup (i : rid) (now : Nanoseconds)
  | call (i : rid) (outcome : Except exn HttpResponse)
  | insert (i : rid)

structure SharedCache (rid exn : Type) where
  cache : Cache
  phase : rid -> RequestPhase exn
  invocations : List (rid × Except exn HttpResponse)

namespace RequestPhase

variable {exn : Type}

/-- Between a missed lookup and the end of the request. -/
def InFlight : RequestPhase exn -> Prop
  | missed _ => True
  | responded _ _ => True
  | _ => False

end RequestPhase

namespace RequestAction

def actor {rid exn : Type} : RequestAction rid exn -> rid
  | lookup i _ => i
  | call i _ => i
  | insert i => i

end RequestAction

namespace SharedCache

variable {rid exn : Type}

def start : SharedCache rid exn :=
  { cache := ∅, phase := fun _ => .waiting, invocations := [] }

variable [DecidableEq rid] (ttl : Int) (request : rid -> HttpRequest)

def withPhase (w : SharedCache rid exn) (i : rid) (ph : RequestPhase exn) :
    SharedCache rid exn :=
  { w with phase := Function.update w.phase i ph }

def afterCall (w : SharedCache rid exn) (i : rid) (outcome : Except exn HttpResponse)
    (ph : RequestPhase exn) : SharedCache rid exn :=
  { w.withPhase i ph with invocations := w.invocations ++ [(i, outcome)] }

def step (w : SharedCache rid exn) :
    RequestAction rid exn -> Option (SharedCache rid exn)
  | .lookup i now =>
      match w.phase i, idempotencyKey (request i) with
      | .waiting, some key =>
          match lookupCached w.cache key now with
          | (cache', some response) =>
              some { w.withPhase i (.finished (.ok response)) with cache := cache' }
          | (cache', none) => some { w.withPhase i (.missed now) with cache := cache' }
      | _, _ => none
  | .call i outcome =>
      match w.phase i, idempotencyKey (request i) with
      | .waiting, none => some (w.afterCall i outcome (.finished outcome))
      | .missed now, some _ =>
          match outcome with
          | .ok response => some (w.afterCall i outcome (.responded now response))
          | .error _ => some (w.afterCall i outcome (.finished outcome))
      | _, _ => none
  | .insert i =>
      match w.phase i, idempotencyKey (request i) with
      | .responded now response, some key =>
          some { w.withPhase i (.finished (.ok response)) with
            cache := storeResponse ttl w.cache key now response }
      | _, _ => none

inductive Stepped (w : SharedCache rid exn) :
    RequestAction rid exn -> SharedCache rid exn -> Prop where
  | hit {i : rid} {now : Nanoseconds} {key : Bytes} {r : HttpResponse} :
      w.phase i = .waiting -> idempotencyKey (request i) = some key ->
      (lookupCached w.cache key now).snd = some r ->
      Stepped w (.lookup i now) (w.withPhase i (.finished (.ok r)))
  | miss {i : rid} {now : Nanoseconds} {key : Bytes} :
      w.phase i = .waiting -> idempotencyKey (request i) = some key ->
      (lookupCached w.cache key now).snd = none ->
      Stepped w (.lookup i now)
        { w.withPhase i (.missed now) with cache := (lookupCached w.cache key now).fst }
  | pass {i : rid} {outcome : Except exn HttpResponse} :
      w.phase i = .waiting -> idempotencyKey (request i) = none ->
      Stepped w (.call i outcome) (w.afterCall i outcome (.finished outcome))
  | returns {i : rid} {now : Nanoseconds} {key : Bytes} {r : HttpResponse} :
      w.phase i = .missed now -> idempotencyKey (request i) = some key ->
      Stepped w (.call i (.ok r)) (w.afterCall i (.ok r) (.responded now r))
  | throws {i : rid} {now : Nanoseconds} {key : Bytes} {e : exn} :
      w.phase i = .missed now -> idempotencyKey (request i) = some key ->
      Stepped w (.call i (.error e)) (w.afterCall i (.error e) (.finished (.error e)))
  | insert {i : rid} {now : Nanoseconds} {key : Bytes} {r : HttpResponse} :
      w.phase i = .responded now r -> idempotencyKey (request i) = some key ->
      Stepped w (.insert i)
        { w.withPhase i (.finished (.ok r)) with cache := storeResponse ttl w.cache key now r }

variable {ttl request}

theorem stepped_of_step {w v : SharedCache rid exn} {a : RequestAction rid exn}
    (h : step ttl request w a = some v) : Stepped ttl request w a v := by
  -- Each action is split along the branches of its own match; a branch that
  -- refuses the action leaves `none = some v`.
  cases a with
  | lookup i now =>
      simp only [step] at h
      split at h
      · next key hphase hkey =>
          cases hfound : (lookupCached w.cache key now).snd with
          | some r =>
              have hpair : lookupCached w.cache key now = (w.cache, some r) :=
                Prod.ext (lookupCached_fst_of_hit hfound) hfound
              simp only [hpair] at h
              cases h
              exact Stepped.hit hphase hkey hfound
          | none =>
              have hpair : lookupCached w.cache key now =
                  ((lookupCached w.cache key now).fst, none) := Prod.ext rfl hfound
              rw [hpair] at h
              cases h
              exact Stepped.miss hphase hkey hfound
      · cases h
  | call i outcome =>
      simp only [step] at h
      split at h
      · next hphase hkey =>
          cases h
          exact Stepped.pass hphase hkey
      · next now key hphase hkey =>
          cases outcome with
          | ok r =>
              cases h
              exact Stepped.returns hphase hkey
          | error e =>
              cases h
              exact Stepped.throws hphase hkey
      · cases h
  | insert i =>
      simp only [step] at h
      split at h
      · next now r key hphase hkey =>
          cases h
          exact Stepped.insert hphase hkey
      · cases h

/-!
## A request that is not interrupted

The steps of one request, taken in a row, are the sequential middleware.
-/

def requestSteps (cache : Cache) (i : rid) (now : Nanoseconds) (req : HttpRequest)
    (next : Handler exn) : List (RequestAction rid exn) :=
  match idempotencyKey req with
  | none => [.call i (next req)]
  | some key =>
      match (lookupCached cache key now).snd with
      | some _ => [.lookup i now]
      | none =>
          match next req with
          | .ok response => [.lookup i now, .call i (.ok response), .insert i]
          | .error e => [.lookup i now, .call i (.error e)]

theorem run_requestSteps {w : SharedCache rid exn} {i : rid} (hphase : w.phase i = .waiting)
    (now : Nanoseconds) (next : Handler exn) :
    run (step ttl request) w (requestSteps w.cache i now (request i) next) =
      some { cache := (idempotencyMiddleware ttl w.cache now (request i) next).fst
             phase := Function.update w.phase i
               (.finished (idempotencyMiddleware ttl w.cache now (request i) next).snd.outcome)
             invocations := w.invocations ++
               (idempotencyMiddleware ttl w.cache now (request i) next).snd.calls.map
                 (fun req => (i, next req)) } := by
  cases hkey : idempotencyKey (request i) with
  | none =>
      rw [middleware_of_no_key hkey]
      simp [requestSteps, hkey, run_singleton, step, hphase, afterCall, withPhase]
  | some key =>
      cases hfound : (lookupCached w.cache key now).snd with
      | some r =>
          have hpair : lookupCached w.cache key now = (w.cache, some r) :=
            Prod.ext (lookupCached_fst_of_hit hfound) hfound
          rw [middleware_of_hit hkey ttl hfound]
          simp [requestSteps, hkey, run_singleton, step, hphase, hpair, withPhase]
      | none =>
          have hlookup : step ttl request w (.lookup i now) =
              some { w.withPhase i (.missed now) with
                cache := (lookupCached w.cache key now).fst } := by
            have hpair : lookupCached w.cache key now =
                ((lookupCached w.cache key now).fst, none) := Prod.ext rfl hfound
            simp only [step, hphase, hkey]
            rw [hpair]
          rw [middleware_of_miss hkey ttl hfound]
          cases hnext : next (request i) with
          | error e =>
              simp only [requestSteps, hkey, hfound, hnext]
              rw [run_cons_of_step hlookup, run_singleton]
              simp [step, hkey, afterCall, withPhase, hnext]
          | ok r =>
              simp only [requestSteps, hkey, hfound, hnext]
              rw [run_cons_of_step hlookup]
              simp [run, step, hkey, afterCall, withPhase, hnext]

/-!
## One key

`OneInvocation` is the guarantee for a key: at most one handler call, and every
finished request has returned its response.  `Exclusive` is the condition under
which the two critical sections give it.
-/

variable (request) in
omit [DecidableEq rid] in
def Carries (k : Bytes) (i : rid) : Prop :=
  idempotencyKey (request i) = some k

variable (request) in
omit [DecidableEq rid] in
def invocationsFor (k : Bytes) (w : SharedCache rid exn) :
    List (rid × Except exn HttpResponse) :=
  w.invocations.filter (fun call => decide (idempotencyKey (request call.fst) = some k))

variable (request) in
omit [DecidableEq rid] in
def OneInvocation (k : Bytes) (w : SharedCache rid exn) : Prop :=
  (invocationsFor request k w).length <= 1 ∧
    forall i outcome, Carries request k i -> w.phase i = .finished outcome ->
      exists j r, outcome = .ok r ∧ invocationsFor request k w = [(j, .ok r)]

variable (request) in
omit [DecidableEq rid] in
/-- No lookup of `k` while another request with `k` is in flight, and no handler
call for `k` throws. -/
def Exclusive (k : Bytes) (w : SharedCache rid exn) : RequestAction rid exn -> Prop
  | .lookup i _ => Carries request k i -> forall j, Carries request k j -> ¬ (w.phase j).InFlight
  | .call i outcome => Carries request k i -> exists r, outcome = .ok r
  | .insert _ => True

variable (request) in
omit [DecidableEq rid] in
structure Agree (k : Bytes) (w v : SharedCache rid exn) : Prop where
  cache : v.cache.lookup k = w.cache.lookup k
  phase : forall j, Carries request k j -> v.phase j = w.phase j
  invocations : invocationsFor request k v = invocationsFor request k w

omit [DecidableEq rid] in
theorem carries_unique {k key : Bytes} {i : rid} (h : Carries request k i)
    (hkey : idempotencyKey (request i) = some key) : key = k := by
  unfold Carries at h
  rw [hkey] at h
  exact Option.some.inj h

theorem withPhase_self (w : SharedCache rid exn) (i : rid) (ph : RequestPhase exn) :
    (w.withPhase i ph).phase i = ph := by
  simp [withPhase]

theorem withPhase_other (w : SharedCache rid exn) {i j : rid} (h : j ≠ i)
    (ph : RequestPhase exn) : (w.withPhase i ph).phase j = w.phase j := by
  simp only [withPhase, Function.update_of_ne h]

theorem invocationsFor_afterCall_carrier {k : Bytes} {i : rid} (h : Carries request k i)
    (w : SharedCache rid exn) (outcome : Except exn HttpResponse) (ph : RequestPhase exn) :
    invocationsFor request k (w.afterCall i outcome ph) =
      invocationsFor request k w ++ [(i, outcome)] := by
  unfold Carries at h
  simp [invocationsFor, afterCall, withPhase, h]

theorem invocationsFor_afterCall_other {k : Bytes} {i : rid} (h : ¬ Carries request k i)
    (w : SharedCache rid exn) (outcome : Except exn HttpResponse) (ph : RequestPhase exn) :
    invocationsFor request k (w.afterCall i outcome ph) = invocationsFor request k w := by
  unfold Carries at h
  simp [invocationsFor, afterCall, withPhase, h]

theorem agree_of_other {k : Bytes} {w v : SharedCache rid exn} {a : RequestAction rid exn}
    (h : Stepped ttl request w a v) (hother : ¬ Carries request k a.actor) :
    Agree request k w v := by
  have hphase : forall i ph, ¬ Carries request k i -> forall j, Carries request k j ->
      (w.withPhase i ph).phase j = w.phase j := by
    intro i ph hi j hj
    apply withPhase_other
    intro heq
    rw [heq] at hj
    exact hi hj
  have hkeys : forall i key, ¬ Carries request k i -> idempotencyKey (request i) = some key ->
      k ≠ key := by
    intro i key hi hkey heq
    rw [← heq] at hkey
    exact hi hkey
  cases h with
  | hit hwait hkey hfound => exact ⟨rfl, hphase _ _ hother, rfl⟩
  | miss hwait hkey hfound =>
      exact ⟨lookup_lookupCached_of_ne w.cache (hkeys _ _ hother hkey) _,
        hphase _ _ hother, rfl⟩
  | pass hwait hkey =>
      exact ⟨rfl, hphase _ _ hother, invocationsFor_afterCall_other hother w _ _⟩
  | returns hmissed hkey =>
      exact ⟨rfl, hphase _ _ hother, invocationsFor_afterCall_other hother w _ _⟩
  | throws hmissed hkey =>
      exact ⟨rfl, hphase _ _ hother, invocationsFor_afterCall_other hother w _ _⟩
  | insert hresponded hkey =>
      exact ⟨lookup_storeResponse_of_ne ttl w.cache (hkeys _ _ hother hkey) _ _,
        hphase _ _ hother, rfl⟩

/-!
## Requests that do not overlap

Under `Exclusive` the requests with `k` pass through four stages: none has
started, one is asking the handler, one holds the response, and the response is
in the cache, where it outlives all readings considered.
-/

variable (ttl request) in
omit [DecidableEq rid] in
inductive Stage (k : Bytes) (t0 : Nanoseconds) (w : SharedCache rid exn) : Prop where
  | untouched (hcalls : invocationsFor request k w = [])
      (hcache : w.cache.lookup k = none)
      (hwait : forall j, Carries request k j -> w.phase j = .waiting)
  | asking (i : rid) (now : Nanoseconds) (hcarries : Carries request k i)
      (hi : w.phase i = .missed now) (hnow : t0 <= now)
      (hcalls : invocationsFor request k w = [])
      (hcache : w.cache.lookup k = none)
      (hwait : forall j, Carries request k j -> j ≠ i -> w.phase j = .waiting)
  | answered (i : rid) (now : Nanoseconds) (r : HttpResponse) (hcarries : Carries request k i)
      (hi : w.phase i = .responded now r) (hnow : t0 <= now)
      (hcalls : invocationsFor request k w = [(i, .ok r)])
      (hcache : w.cache.lookup k = none)
      (hwait : forall j, Carries request k j -> j ≠ i -> w.phase j = .waiting)
  | settled (i : rid) (cached : IdempotencyEntry)
      (hcalls : invocationsFor request k w = [(i, .ok cached.response)])
      (hcache : w.cache.lookup k = some cached)
      (hexpires : t0 + nanoseconds ttl <= cached.expiresAt)
      (hdone : forall j, Carries request k j ->
        w.phase j = .waiting ∨ w.phase j = .finished (.ok cached.response))

omit [DecidableEq rid] in
theorem stage_of_agree {k : Bytes} {t0 : Nanoseconds} {w v : SharedCache rid exn}
    (h : Stage ttl request k t0 w) (hagree : Agree request k w v) :
    Stage ttl request k t0 v := by
  cases h with
  | untouched hcalls hcache hwait =>
      refine Stage.untouched (hagree.invocations.trans hcalls) (hagree.cache.trans hcache) ?_
      intro j hj
      rw [hagree.phase j hj]
      exact hwait j hj
  | asking i now hcarries hi hnow hcalls hcache hwait =>
      refine Stage.asking i now hcarries ((hagree.phase i hcarries).trans hi) hnow
        (hagree.invocations.trans hcalls) (hagree.cache.trans hcache) ?_
      intro j hj hne
      rw [hagree.phase j hj]
      exact hwait j hj hne
  | answered i now r hcarries hi hnow hcalls hcache hwait =>
      refine Stage.answered i now r hcarries ((hagree.phase i hcarries).trans hi) hnow
        (hagree.invocations.trans hcalls) (hagree.cache.trans hcache) ?_
      intro j hj hne
      rw [hagree.phase j hj]
      exact hwait j hj hne
  | settled i cached hcalls hcache hexpires hdone =>
      refine Stage.settled i cached (hagree.invocations.trans hcalls)
        (hagree.cache.trans hcache) hexpires ?_
      intro j hj
      rw [hagree.phase j hj]
      exact hdone j hj

theorem stage_hit {k : Bytes} {t0 : Nanoseconds} {w : SharedCache rid exn}
    (h : Stage ttl request k t0 w) {i : rid} {now : Nanoseconds} {r : HttpResponse}
    (hfound : (lookupCached w.cache k now).snd = some r) :
    Stage ttl request k t0 (w.withPhase i (.finished (.ok r))) := by
  rcases lookupCached_eq_some_iff.mp hfound with ⟨cached, hlookup, _hlive, hr⟩
  have habsent : w.cache.lookup k ≠ none := by
    rw [hlookup]
    simp
  cases h with
  | untouched hcalls hcache hwait => exact absurd hcache habsent
  | asking j t hcarries hj hnow hcalls hcache hwait => exact absurd hcache habsent
  | answered j t r' hcarries hj hnow hcalls hcache hwait => exact absurd hcache habsent
  | settled j cached' hcalls hcache hexpires hdone =>
      rw [hlookup] at hcache
      cases hcache
      refine Stage.settled j cached hcalls hlookup hexpires ?_
      intro l hl
      by_cases hli : l = i
      · rw [hli, withPhase_self, hr]
        exact Or.inr rfl
      · rw [withPhase_other w hli]
        exact hdone l hl

theorem stage_miss {k : Bytes} {t0 : Nanoseconds} {w : SharedCache rid exn}
    (h : Stage ttl request k t0 w) {i : rid} (hcarries : Carries request k i)
    {now : Nanoseconds} (hfirst : t0 <= now) (hlast : now < t0 + nanoseconds ttl)
    (hfound : (lookupCached w.cache k now).snd = none)
    (halone : forall j, Carries request k j -> ¬ (w.phase j).InFlight) :
    Stage ttl request k t0
      { w.withPhase i (.missed now) with cache := (lookupCached w.cache k now).fst } := by
  cases h with
  | untouched hcalls hcache hwait =>
      refine Stage.asking i now hcarries (withPhase_self w i _) hfirst hcalls
        (lookup_lookupCached_of_miss hfound) ?_
      intro j hj hne
      exact (withPhase_other w hne _).trans (hwait j hj)
  | asking j t hj hphase hnow hcalls hcache hwait =>
      have hnot := halone j hj
      rw [hphase] at hnot
      exact absurd True.intro hnot
  | answered j t r hj hphase hnow hcalls hcache hwait =>
      have hnot := halone j hj
      rw [hphase] at hnot
      exact absurd True.intro hnot
  | settled j cached hcalls hcache hexpires hdone =>
      -- The cached entry outlives every reading in the window, so this lookup hits.
      have hexpired := lookupCached_eq_none_iff.mp hfound cached hcache
      exact absurd (Int.lt_of_lt_of_le hlast hexpires) (Int.not_lt.mpr hexpired)

omit [DecidableEq rid] in
theorem stage_missed {k : Bytes} {t0 : Nanoseconds} {w : SharedCache rid exn}
    (h : Stage ttl request k t0 w) {i : rid} (hcarries : Carries request k i)
    {now : Nanoseconds} (hmissed : w.phase i = .missed now) :
    t0 <= now ∧ invocationsFor request k w = [] ∧ w.cache.lookup k = none ∧
      forall j, Carries request k j -> j ≠ i -> w.phase j = .waiting := by
  cases h with
  | untouched hcalls hcache hwait =>
      rw [hwait i hcarries] at hmissed
      cases hmissed
  | asking j t hj hphase hnow hcalls hcache hwait =>
      by_cases hij : i = j
      · subst hij
        rw [hmissed] at hphase
        cases hphase
        exact ⟨hnow, hcalls, hcache, hwait⟩
      · rw [hwait i hcarries hij] at hmissed
        cases hmissed
  | answered j t r hj hphase hnow hcalls hcache hwait =>
      by_cases hij : i = j
      · rw [hij, hphase] at hmissed
        cases hmissed
      · rw [hwait i hcarries hij] at hmissed
        cases hmissed
  | settled j cached hcalls hcache hexpires hdone =>
      rcases hdone i hcarries with hphase | hphase
      · rw [hphase] at hmissed
        cases hmissed
      · rw [hphase] at hmissed
        cases hmissed

omit [DecidableEq rid] in
theorem stage_responded {k : Bytes} {t0 : Nanoseconds} {w : SharedCache rid exn}
    (h : Stage ttl request k t0 w) {i : rid} (hcarries : Carries request k i)
    {now : Nanoseconds} {r : HttpResponse} (hresponded : w.phase i = .responded now r) :
    t0 <= now ∧ invocationsFor request k w = [(i, .ok r)] ∧ w.cache.lookup k = none ∧
      forall j, Carries request k j -> j ≠ i -> w.phase j = .waiting := by
  cases h with
  | untouched hcalls hcache hwait =>
      rw [hwait i hcarries] at hresponded
      cases hresponded
  | asking j t hj hphase hnow hcalls hcache hwait =>
      by_cases hij : i = j
      · rw [hij, hphase] at hresponded
        cases hresponded
      · rw [hwait i hcarries hij] at hresponded
        cases hresponded
  | answered j t r' hj hphase hnow hcalls hcache hwait =>
      by_cases hij : i = j
      · subst hij
        rw [hresponded] at hphase
        cases hphase
        exact ⟨hnow, hcalls, hcache, hwait⟩
      · rw [hwait i hcarries hij] at hresponded
        cases hresponded
  | settled j cached hcalls hcache hexpires hdone =>
      rcases hdone i hcarries with hphase | hphase
      · rw [hphase] at hresponded
        cases hresponded
      · rw [hphase] at hresponded
        cases hresponded

theorem stage_returns {k : Bytes} {t0 : Nanoseconds} {w : SharedCache rid exn}
    (h : Stage ttl request k t0 w) {i : rid} (hcarries : Carries request k i)
    {now : Nanoseconds} (hmissed : w.phase i = .missed now) (r : HttpResponse) :
    Stage ttl request k t0 (w.afterCall i (.ok r) (.responded now r)) := by
  rcases stage_missed h hcarries hmissed with ⟨hnow, hcalls, hcache, hwait⟩
  refine Stage.answered i now r hcarries (withPhase_self w i _) hnow ?_ hcache ?_
  · rw [invocationsFor_afterCall_carrier hcarries, hcalls]
    rfl
  · intro l hl hne
    exact (withPhase_other w hne _).trans (hwait l hl hne)

theorem stage_insert {k : Bytes} {t0 : Nanoseconds} {w : SharedCache rid exn}
    (h : Stage ttl request k t0 w) {i : rid} (hcarries : Carries request k i)
    {now : Nanoseconds} {r : HttpResponse} (hresponded : w.phase i = .responded now r) :
    Stage ttl request k t0
      { w.withPhase i (.finished (.ok r)) with cache := storeResponse ttl w.cache k now r } := by
  rcases stage_responded h hcarries hresponded with ⟨hnow, hcalls, _hcache, hwait⟩
  refine Stage.settled i { response := r, expiresAt := now + nanoseconds ttl } hcalls
    (lookup_storeResponse_self ttl w.cache k now r) ?_ ?_
  · exact Int.add_le_add_right hnow _
  · intro l hl
    by_cases hli : l = i
    · rw [hli]
      exact Or.inr (withPhase_self w i _)
    · exact Or.inl ((withPhase_other w hli _).trans (hwait l hl hli))

/-- The reading of a lookup of `k` lies within `ttl` of `t0`. -/
def ReadWithin (ttl : Int) (request : rid -> HttpRequest) (k : Bytes) (t0 : Nanoseconds) :
    RequestAction rid exn -> Prop
  | .lookup i now => Carries request k i -> t0 <= now ∧ now < t0 + nanoseconds ttl
  | _ => True

theorem stage_step {k : Bytes} {t0 : Nanoseconds} {w v : SharedCache rid exn}
    {a : RequestAction rid exn} (h : Stage ttl request k t0 w)
    (hstep : Stepped ttl request w a v) (hexclusive : Exclusive request k w a)
    (hread : ReadWithin ttl request k t0 a) : Stage ttl request k t0 v := by
  by_cases hcarries : Carries request k a.actor
  · cases hstep with
    | hit hwait hkey hfound =>
        cases carries_unique hcarries hkey
        exact stage_hit h hfound
    | miss hwait hkey hfound =>
        cases carries_unique hcarries hkey
        have hwindow := hread hcarries
        exact stage_miss h hcarries hwindow.left hwindow.right hfound (hexclusive hcarries)
    | pass hwait hkey =>
        cases hkey.symm.trans hcarries
    | returns hmissed hkey => exact stage_returns h hcarries hmissed _
    | throws hmissed hkey =>
        rcases hexclusive hcarries with ⟨r, hr⟩
        cases hr
    | insert hresponded hkey =>
        cases carries_unique hcarries hkey
        exact stage_insert h hcarries hresponded
  · exact stage_of_agree h (agree_of_other hstep hcarries)

omit [DecidableEq rid] in
theorem oneInvocation_of_stage {k : Bytes} {t0 : Nanoseconds} {w : SharedCache rid exn}
    (h : Stage ttl request k t0 w) : OneInvocation request k w := by
  cases h with
  | untouched hcalls hcache hwait =>
      constructor
      · rw [hcalls]
        exact Nat.zero_le 1
      · intro i outcome hi hfinished
        rw [hwait i hi] at hfinished
        cases hfinished
  | asking j now hcarries hj hnow hcalls hcache hwait =>
      constructor
      · rw [hcalls]
        exact Nat.zero_le 1
      · intro i outcome hi hfinished
        by_cases hij : i = j
        · rw [hij, hj] at hfinished
          cases hfinished
        · rw [hwait i hi hij] at hfinished
          cases hfinished
  | answered j now r hcarries hj hnow hcalls hcache hwait =>
      constructor
      · rw [hcalls]
        exact Nat.le_refl 1
      · intro i outcome hi hfinished
        by_cases hij : i = j
        · rw [hij, hj] at hfinished
          cases hfinished
        · rw [hwait i hi hij] at hfinished
          cases hfinished
  | settled j cached hcalls hcache hexpires hdone =>
      constructor
      · rw [hcalls]
        exact Nat.le_refl 1
      · intro i outcome hi hfinished
        rcases hdone i hi with hphase | hphase
        · rw [hphase] at hfinished
          cases hfinished
        · rw [hphase] at hfinished
          cases hfinished
          exact ⟨j, cached.response, rfl, hcalls⟩

theorem stage_of_run {k : Bytes} {t0 : Nanoseconds} {actions : List (RequestAction rid exn)}
    {w : SharedCache rid exn} (hread : forall a, a ∈ actions -> ReadWithin ttl request k t0 a)
    (hmeet : StepsMeet (step ttl request) (Exclusive request k) start actions)
    (hrun : run (step ttl request) start actions = some w) : Stage ttl request k t0 w := by
  refine invariant_of_stepsMeet (P := fun _ w => Stage ttl request k t0 w)
    (Stage.untouched rfl rfl (fun _ _ => rfl)) ?_
    (stepsMeet_and hmeet (stepsMeet_of_forall hread)) hrun
  intro _actions m a n _hm hstage hok hstep
  exact stage_step hstage (stepped_of_step hstep) hok.left hok.right

/-!
## Requests that overlap

A finished request stays finished, and a request that has missed will have
called the handler by the time it is finished.  Two such requests break the
guarantee.
-/

theorem finished_step {w v : SharedCache rid exn} {a : RequestAction rid exn}
    (h : Stepped ttl request w a v) {i : rid} {outcome : Except exn HttpResponse}
    (hfinished : w.phase i = .finished outcome) : v.phase i = .finished outcome := by
  have hmoved : forall j ph, w.phase j = ph -> (forall o, ph ≠ .finished o) -> i ≠ j := by
    intro j ph hj hne heq
    rw [heq, hj] at hfinished
    exact hne outcome hfinished
  cases h with
  | hit hwait hkey hfound =>
      exact (withPhase_other w (hmoved _ _ hwait (by simp)) _).trans hfinished
  | miss hwait hkey hfound =>
      exact (withPhase_other w (hmoved _ _ hwait (by simp)) _).trans hfinished
  | pass hwait hkey =>
      exact (withPhase_other w (hmoved _ _ hwait (by simp)) _).trans hfinished
  | returns hmissed hkey =>
      exact (withPhase_other w (hmoved _ _ hmissed (by simp)) _).trans hfinished
  | throws hmissed hkey =>
      exact (withPhase_other w (hmoved _ _ hmissed (by simp)) _).trans hfinished
  | insert hresponded hkey =>
      exact (withPhase_other w (hmoved _ _ hresponded (by simp)) _).trans hfinished

omit [DecidableEq rid] in
def Committed (i : rid) (w : SharedCache rid exn) : Prop :=
  (exists now, w.phase i = .missed now) ∨ exists outcome, (i, outcome) ∈ w.invocations

theorem committed_afterCall {w : SharedCache rid exn} {i : rid} (h : Committed i w) (j : rid)
    (outcome : Except exn HttpResponse) (ph : RequestPhase exn) :
    Committed i (w.afterCall j outcome ph) := by
  rcases h with ⟨now, hmissed⟩ | ⟨o, ho⟩
  · by_cases hij : i = j
    · subst hij
      exact Or.inr ⟨outcome, List.mem_append.mpr (Or.inr (List.mem_singleton.mpr rfl))⟩
    · exact Or.inl ⟨now, (withPhase_other w hij ph).trans hmissed⟩
  · exact Or.inr ⟨o, List.mem_append.mpr (Or.inl ho)⟩

theorem committed_moved {w v : SharedCache rid exn} {i : rid} (h : Committed i w) {j : rid}
    {ph ph' : RequestPhase exn} (hj : w.phase j = ph) (hne : forall now, ph ≠ .missed now)
    (hphase : v.phase = (w.withPhase j ph').phase) (hcalls : v.invocations = w.invocations) :
    Committed i v := by
  rcases h with ⟨now, hmissed⟩ | ⟨o, ho⟩
  · have hij : i ≠ j := by
      intro heq
      rw [heq, hj] at hmissed
      exact hne now hmissed
    refine Or.inl ⟨now, ?_⟩
    rw [hphase, withPhase_other w hij]
    exact hmissed
  · refine Or.inr ⟨o, ?_⟩
    rw [hcalls]
    exact ho

theorem committed_step {w v : SharedCache rid exn} {a : RequestAction rid exn}
    (h : Stepped ttl request w a v) {i : rid} (hcommitted : Committed i w) : Committed i v := by
  cases h with
  | hit hwait hkey hfound => exact committed_moved hcommitted hwait (by simp) rfl rfl
  | miss hwait hkey hfound => exact committed_moved hcommitted hwait (by simp) rfl rfl
  | pass hwait hkey => exact committed_afterCall hcommitted _ _ _
  | returns hmissed hkey => exact committed_afterCall hcommitted _ _ _
  | throws hmissed hkey => exact committed_afterCall hcommitted _ _ _
  | insert hresponded hkey => exact committed_moved hcommitted hresponded (by simp) rfl rfl

omit [DecidableEq rid] in
theorem invoked_of_committed {k : Bytes} {i : rid} (hcarries : Carries request k i)
    {w : SharedCache rid exn} (h : Committed i w) (hdone : ¬ (w.phase i).InFlight) :
    exists outcome, (i, outcome) ∈ invocationsFor request k w := by
  rcases h with ⟨now, hmissed⟩ | ⟨outcome, hmem⟩
  · rw [hmissed] at hdone
    exact absurd True.intro hdone
  · exact ⟨outcome, List.mem_filter.mpr ⟨hmem, decide_eq_true hcarries⟩⟩

omit [DecidableEq rid] in
theorem two_invocations {k : Bytes} {w : SharedCache rid exn} {i j : rid}
    {o p : Except exn HttpResponse} (hi : (i, o) ∈ invocationsFor request k w)
    (hj : (j, p) ∈ invocationsFor request k w) (hne : i ≠ j) : ¬ OneInvocation request k w := by
  intro h
  have hlength := h.left
  cases hcalls : invocationsFor request k w with
  | nil =>
      rw [hcalls] at hi
      cases hi
  | cons call rest =>
      rw [hcalls] at hi hj hlength
      have hrest : rest = [] := List.length_eq_zero_iff.mp
        (Nat.le_zero.mp (Nat.le_of_succ_le_succ hlength))
      rw [hrest] at hi hj
      have heq : (i, o) = (j, p) :=
        (List.mem_singleton.mp hi).trans (List.mem_singleton.mp hj).symm
      exact hne (congrArg Prod.fst heq)

theorem committed_of_run {s w : SharedCache rid exn} {i : rid}
    {actions : List (RequestAction rid exn)} (h : Committed i s)
    (hrun : run (step ttl request) s actions = some w) : Committed i w :=
  invariant_of_run (P := fun _ w => Committed i w) h
    (fun _ _ _ _ _ hm hstep => committed_step (stepped_of_step hstep) hm) hrun

theorem finished_of_run {s w : SharedCache rid exn} {i : rid}
    {outcome : Except exn HttpResponse} {actions : List (RequestAction rid exn)}
    (h : s.phase i = .finished outcome) (hrun : run (step ttl request) s actions = some w) :
    w.phase i = .finished outcome :=
  invariant_of_run (P := fun _ w => w.phase i = .finished outcome) h
    (fun _ _ _ _ _ hm hstep => finished_step (stepped_of_step hstep) hm) hrun

omit [DecidableEq rid] in
theorem inFlight_of_stage {k : Bytes} {t0 : Nanoseconds} {w : SharedCache rid exn}
    (h : Stage ttl request k t0 w) {j : rid} (hcarries : Carries request k j)
    (hflight : (w.phase j).InFlight) : w.cache.lookup k = none ∧ Committed j w := by
  cases hphase : w.phase j with
  | waiting =>
      rw [hphase] at hflight
      cases hflight
  | missed now =>
      rcases stage_missed h hcarries hphase with ⟨_hnow, _hcalls, hcache, _hwait⟩
      exact ⟨hcache, Or.inl ⟨now, hphase⟩⟩
  | responded now r =>
      rcases stage_responded h hcarries hphase with ⟨_hnow, hcalls, hcache, _hwait⟩
      have hmem : (j, Except.ok r) ∈ invocationsFor request k w := by
        rw [hcalls]
        exact List.mem_singleton.mpr rfl
      exact ⟨hcache, Or.inr ⟨.ok r, (List.mem_filter.mp hmem).left⟩⟩
  | finished outcome =>
      rw [hphase] at hflight
      cases hflight

theorem not_oneInvocation_of_overlap {k : Bytes} {t0 : Nanoseconds}
    {m w : SharedCache rid exn} (hstage : Stage ttl request k t0 m) {i j : rid}
    (hi : Carries request k i) (hj : Carries request k j) (hflight : (m.phase j).InFlight)
    {now : Nanoseconds} {after : List (RequestAction rid exn)}
    (hrun : run (step ttl request) m (.lookup i now :: after) = some w)
    (hdone : forall l, Carries request k l -> ¬ (w.phase l).InFlight) :
    ¬ OneInvocation request k w := by
  rcases inFlight_of_stage hstage hj hflight with ⟨hcache, hcommittedJ⟩
  rcases (run_append_eq_some_iff [.lookup i now] after).mp hrun with ⟨n, hlookup, htail⟩
  rw [run_singleton] at hlookup
  have hstepped := stepped_of_step hlookup
  have hwaiting : m.phase i = .waiting := by
    cases hstepped with
    | hit hwait hkey hfound => exact hwait
    | miss hwait hkey hfound => exact hwait
  have hcommittedI : Committed i n := by
    cases hstepped with
    | hit hwait hkey hfound =>
        cases carries_unique hi hkey
        rcases lookupCached_eq_some_iff.mp hfound with ⟨cached, hsome, _hlive, _hr⟩
        rw [hcache] at hsome
        cases hsome
    | miss hwait hkey hfound => exact Or.inl ⟨now, withPhase_self m i _⟩
  have hne : i ≠ j := by
    intro heq
    rw [← heq, hwaiting] at hflight
    cases hflight
  rcases invoked_of_committed hi (committed_of_run hcommittedI htail) (hdone i hi) with ⟨o, ho⟩
  rcases invoked_of_committed hj
    (committed_of_run (committed_step hstepped hcommittedJ) htail) (hdone j hj) with ⟨p, hp⟩
  exact two_invocations ho hp hne

theorem not_oneInvocation_of_throw {k : Bytes} {m w : SharedCache rid exn} {i : rid}
    (hi : Carries request k i) {e : exn} {after : List (RequestAction rid exn)}
    (hrun : run (step ttl request) m (.call i (.error e) :: after) = some w) :
    ¬ OneInvocation request k w := by
  intro h
  rcases (run_append_eq_some_iff [.call i (.error e)] after).mp hrun with ⟨n, hcall, htail⟩
  rw [run_singleton] at hcall
  have hfinished : n.phase i = .finished (.error e) := by
    cases stepped_of_step hcall with
    | pass hwait hkey => exact withPhase_self m i _
    | throws hmissed hkey => exact withPhase_self m i _
  rcases h.right i (.error e) hi (finished_of_run hfinished htail) with ⟨j, r, hr, _hcalls⟩
  cases hr

/-- Once all requests with `k` are through, the guarantee needs the condition at every step. -/
theorem exclusive_of_oneInvocation {k : Bytes} {t0 : Nanoseconds}
    {actions : List (RequestAction rid exn)} {w : SharedCache rid exn}
    (hread : forall a, a ∈ actions -> ReadWithin ttl request k t0 a)
    (hrun : run (step ttl request) start actions = some w)
    (hdone : forall i, Carries request k i -> ¬ (w.phase i).InFlight)
    (hone : OneInvocation request k w) :
    StepsMeet (step ttl request) (Exclusive request k) start actions := by
  by_contra hviolated
  -- Up to the first violation the stages hold, so the violating lookup misses as well.
  rcases exists_first_violation hrun hviolated with
    ⟨before, a, after, m, hsplit, hm, hmeet, hnot⟩
  rw [hsplit] at hrun hread
  rcases (run_append_eq_some_iff before (a :: after)).mp hrun with ⟨m', hm', hrest⟩
  rw [hm] at hm'
  cases hm'
  have hstage : Stage ttl request k t0 m :=
    stage_of_run (fun b hb => hread b (List.mem_append.mpr (Or.inl hb))) hmeet hm
  cases a with
  | lookup i now =>
      unfold Exclusive at hnot
      push Not at hnot
      rcases hnot with ⟨hi, j, hj, hflight⟩
      exact not_oneInvocation_of_overlap hstage hi hj hflight hrest hdone hone
  | call i outcome =>
      cases outcome with
      | ok r => exact hnot (fun _ => ⟨r, rfl⟩)
      | error e =>
          by_cases hi : Carries request k i
          · exact not_oneInvocation_of_throw hi hrest hone
          · exact hnot (fun hcarries => absurd hcarries hi)
  | insert i => exact hnot True.intro

/--
With all readings for the key within `ttl` of `t0`, requests that do not
overlap share one handler call; and once all requests with the key are through,
only runs without overlap and without throwing handlers have shared one.
-/
theorem oneInvocation_iff_exclusive (ttl : Int) (request : rid -> HttpRequest) (k : Bytes)
    (t0 : Nanoseconds) (actions : List (RequestAction rid exn)) (w : SharedCache rid exn)
    (hread : forall a, a ∈ actions -> ReadWithin ttl request k t0 a)
    (hrun : run (step ttl request) start actions = some w) :
    (StepsMeet (step ttl request) (Exclusive request k) start actions ->
      OneInvocation request k w) ∧
    ((forall i, Carries request k i -> ¬ (w.phase i).InFlight) ->
      (OneInvocation request k w <->
        StepsMeet (step ttl request) (Exclusive request k) start actions)) := by
  have hsufficient : StepsMeet (step ttl request) (Exclusive request k) start actions ->
      OneInvocation request k w := by
    intro hmeet
    exact oneInvocation_of_stage (stage_of_run hread hmeet hrun)
  constructor
  · exact hsufficient
  · intro hdone
    constructor
    · exact exclusive_of_oneInvocation hread hrun hdone
    · exact hsufficient

def sameKey (_ : Bool) : HttpRequest :=
  { headers := (∅ : StringMap Bytes).insert (ascii "Idempotency-Key") (ascii "key-dup") }

def overlappingRequests : List (RequestAction Bool Unit) :=
  [.lookup true 0, .lookup false 1,
    .call true (.ok (HttpResponse.ok (ascii "first"))),
    .call false (.ok (HttpResponse.ok (ascii "second"))), .insert true, .insert false]

theorem overlappingRequests_invoke_twice :
    exists w, run (step 3600 sameKey) start overlappingRequests = some w ∧
      (forall a, a ∈ overlappingRequests ->
        ReadWithin 3600 sameKey (ascii "key-dup") 0 a) ∧
      ¬ OneInvocation sameKey (ascii "key-dup") w := by
  refine ⟨_, rfl, ?_, ?_⟩
  · intro a ha
    simp only [overlappingRequests, List.mem_cons, List.not_mem_nil, or_false] at ha
    rcases ha with rfl | rfl | rfl | rfl | rfl | rfl <;> simp [ReadWithin, nanoseconds]
  · intro h
    exact absurd h.left (by decide)

def sequentialRequests : List (RequestAction Bool Unit) :=
  [.lookup true 0, .call true (.ok (HttpResponse.ok (ascii "first"))), .insert true,
    .lookup false 1]

theorem sequentialRequests_invoke_once :
    exists w, run (step 3600 sameKey) start sequentialRequests = some w ∧
      OneInvocation sameKey (ascii "key-dup") w := by
  have hread : forall a, a ∈ sequentialRequests ->
      ReadWithin 3600 sameKey (ascii "key-dup") 0 a := by
    intro a ha
    simp only [sequentialRequests, List.mem_cons, List.not_mem_nil, or_false] at ha
    rcases ha with rfl | rfl | rfl | rfl <;> simp [ReadWithin, nanoseconds]
  refine ⟨_, rfl, ?_⟩
  refine (oneInvocation_iff_exclusive 3600 sameKey (ascii "key-dup") 0 sequentialRequests _
    hread rfl).left ?_
  refine stepsMeet_cons ?_ rfl (stepsMeet_cons ?_ rfl (stepsMeet_cons ?_ rfl
    (stepsMeet_cons ?_ rfl stepsMeet_nil)))
  · intro _hi j _hj hflight
    exact hflight
  · intro _hi
    exact ⟨_, rfl⟩
  · exact True.intro
  · intro _hi j _hj hflight
    cases j with
    | true => exact hflight
    | false => exact hflight

end SharedCache
end Web
end CppCommons
