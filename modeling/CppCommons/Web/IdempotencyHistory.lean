import CppCommons.Web.IdempotencyMiddleware

/-!
# Idempotent replies and the request history

When requests do not overlap, the outcome of a request is a function of the
history: it depends on the most recent earlier request with the same key whose
handler was called and returned.  The cache is related to that request by an
invariant over the requests served so far.
-/

namespace CppCommons
namespace Web

open Cxx

/-- A request, the clock reading taken for it, and the handler wrapped around it. -/
structure Arrival (exn : Type) where
  req : HttpRequest
  now : Nanoseconds
  next : Handler exn

structure Session (exn : Type) where
  cache : Cache
  log : List (Arrival exn × Exchange exn)

variable {exn : Type}

def serve (ttl : Int) (s : Session exn) (a : Arrival exn) : Session exn :=
  let (cache', x) := idempotencyMiddleware ttl s.cache a.now a.req a.next
  { cache := cache', log := (a, x) :: s.log }

def session (ttl : Int) (arrivals : List (Arrival exn)) : Session exn :=
  arrivals.foldl (serve ttl) { cache := ∅, log := [] }

/-- What the request `a` sees after the requests `before`. -/
def exchange (ttl : Int) (before : List (Arrival exn)) (a : Arrival exn) : Exchange exn :=
  (idempotencyMiddleware ttl (session ttl before).cache a.now a.req a.next).snd

/-- The reading and response of an exchange for `k` whose handler was called and returned. -/
def completion (k : Bytes) (entry : Arrival exn × Exchange exn) :
    Option (Nanoseconds × HttpResponse) :=
  if idempotencyKey entry.fst.req = some k then
    match entry.snd.calls, entry.snd.outcome with
    | _ :: _, .ok r => some (entry.fst.now, r)
    | _, _ => none
  else none

def lastCompleted (k : Bytes) (log : List (Arrival exn × Exchange exn)) :
    Option (Nanoseconds × HttpResponse) :=
  log.findSome? (completion k)

/-- Clock readings do not decrease; requests without a key read no clock. -/
def ClockMonotone (arrivals : List (Arrival exn)) : Prop :=
  arrivals.Pairwise (fun b a => (idempotencyKey b.req).isSome = true ->
    (idempotencyKey a.req).isSome = true -> b.now <= a.now)

/-- The request carries `k` and its handler returns. -/
def relevant (k : Bytes) (a : Arrival exn) : Bool :=
  decide (idempotencyKey a.req = some k) &&
    match a.next a.req with
    | .ok _ => true
    | .error _ => false

def stillValid (ttl : Int) (cell : Option (Nanoseconds × HttpResponse)) (now : Nanoseconds) :
    Option HttpResponse :=
  match cell with
  | none => none
  | some (t0, r) => if now < t0 + nanoseconds ttl then some r else none

def expected (recalled : Option HttpResponse) (a : Arrival exn) : Exchange exn :=
  match recalled with
  | some r => { calls := [], outcome := .ok r }
  | none => { calls := [a.req], outcome := a.next a.req }

/-!
## One request

What one request does to the outcomes and to the last completed request of its key,
by whether the cache answers, the handler throws or it returns.
-/

theorem session_concat (ttl : Int) (before : List (Arrival exn)) (a : Arrival exn) :
    session ttl (before ++ [a]) =
      { cache := (idempotencyMiddleware ttl (session ttl before).cache a.now a.req a.next).fst
        log := (a, exchange ttl before a) :: (session ttl before).log } := by
  unfold session
  rw [List.foldl_append]
  rfl

theorem lastCompleted_cons_of_none {k : Bytes} {entry : Arrival exn × Exchange exn}
    (h : completion k entry = none) (log : List (Arrival exn × Exchange exn)) :
    lastCompleted k (entry :: log) = lastCompleted k log := by
  unfold lastCompleted
  rw [List.findSome?_cons, h]

theorem lastCompleted_cons_of_some {k : Bytes} {entry : Arrival exn × Exchange exn}
    {done : Nanoseconds × HttpResponse} (h : completion k entry = some done)
    (log : List (Arrival exn × Exchange exn)) :
    lastCompleted k (entry :: log) = some done := by
  unfold lastCompleted
  rw [List.findSome?_cons, h]

theorem completion_of_other {k : Bytes} {a : Arrival exn}
    (h : idempotencyKey a.req ≠ some k) (x : Exchange exn) : completion k (a, x) = none := by
  unfold completion
  rw [if_neg h]

theorem completion_of_hit (k : Bytes) (a : Arrival exn) (r : HttpResponse) :
    completion k (a, { calls := [], outcome := .ok r }) = none := by
  unfold completion
  split_ifs <;> rfl

theorem completion_of_throw (k : Bytes) (a : Arrival exn) (calls : List HttpRequest) (e : exn) :
    completion k (a, { calls := calls, outcome := .error e }) = none := by
  unfold completion
  cases calls <;> split_ifs <;> rfl

theorem completion_of_return {k : Bytes} {a : Arrival exn} (h : idempotencyKey a.req = some k)
    (r : HttpResponse) :
    completion k (a, { calls := [a.req], outcome := .ok r }) = some (a.now, r) := by
  unfold completion
  rw [if_pos h]

/-!
## The cache entry of one key

`Tracks` relates the entry of `k` to the history.  An entry stems from the last
completed request.  Without an entry that request, if there is one, had expired
by some reading already taken.
-/

structure Tracks (ttl : Int) (k : Bytes) (before : List (Arrival exn)) (s : Session exn) :
    Prop where
  live : forall cached, s.cache.lookup k = some cached ->
    exists t0, lastCompleted k s.log = some (t0, cached.response) ∧
      cached.expiresAt = t0 + nanoseconds ttl
  gone : s.cache.lookup k = none -> forall now,
    (forall b, b ∈ before -> idempotencyKey b.req = some k -> b.now <= now) ->
    stillValid ttl (lastCompleted k s.log) now = none

theorem stillValid_eq_some_iff {ttl : Int} {cell : Option (Nanoseconds × HttpResponse)}
    {now : Nanoseconds} {r : HttpResponse} :
    stillValid ttl cell now = some r <->
      exists t0, cell = some (t0, r) ∧ now < t0 + nanoseconds ttl := by
  unfold stillValid
  cases cell with
  | none => simp
  | some done =>
      rcases done with ⟨t0, r0⟩
      by_cases hfresh : now < t0 + nanoseconds ttl
      · simp only [if_pos hfresh, Option.some.injEq, Prod.mk.injEq]
        constructor
        · intro h
          exact ⟨t0, ⟨rfl, h⟩, hfresh⟩
        · intro h
          rcases h with ⟨_t, ⟨_ht, hr⟩, _hlt⟩
          exact hr
      · simp only [if_neg hfresh]
        constructor
        · intro h
          cases h
        · intro h
          rcases h with ⟨t, ht, hlt⟩
          cases ht
          exact absurd hlt hfresh

theorem stillValid_of_expired {ttl : Int} {t0 now : Nanoseconds}
    (h : t0 + nanoseconds ttl <= now) (r : HttpResponse) :
    stillValid ttl (some (t0, r)) now = none := by
  unfold stillValid
  simp only [if_neg (Int.not_lt.mpr h)]

theorem lookupCached_eq_stillValid {ttl : Int} {k : Bytes} {before : List (Arrival exn)}
    {s : Session exn} (h : Tracks ttl k before s) {now : Nanoseconds}
    (hnow : forall b, b ∈ before -> idempotencyKey b.req = some k -> b.now <= now) :
    (lookupCached s.cache k now).snd = stillValid ttl (lastCompleted k s.log) now := by
  cases hfind : s.cache.lookup k with
  | none =>
      rw [h.gone hfind now hnow]
      apply lookupCached_eq_none_iff.mpr
      intro cached hcached
      rw [hfind] at hcached
      cases hcached
  | some cached =>
      rcases h.live cached hfind with ⟨t0, hlast, hexpires⟩
      rw [hlast]
      unfold lookupCached stillValid
      simp only [hfind, hexpires]
      split_ifs <;> rfl

theorem exchange_of_tracks {ttl : Int} {k : Bytes} {before : List (Arrival exn)}
    (h : Tracks ttl k before (session ttl before)) {a : Arrival exn}
    (hkey : idempotencyKey a.req = some k)
    (hnow : forall b, b ∈ before -> idempotencyKey b.req = some k -> b.now <= a.now) :
    exchange ttl before a =
      expected (stillValid ttl (lastCompleted k (session ttl before).log) a.now) a := by
  have hlookup := lookupCached_eq_stillValid h hnow
  unfold exchange
  rw [← hlookup]
  cases hfound : (lookupCached (session ttl before).cache k a.now).snd with
  | some r =>
      rw [middleware_of_hit hkey ttl hfound]
      rfl
  | none =>
      rw [middleware_of_miss hkey ttl hfound]
      rfl

theorem tracks_of_unchanged {ttl : Int} {k : Bytes} {before : List (Arrival exn)}
    {s t : Session exn} (h : Tracks ttl k before s) (a : Arrival exn)
    (hcache : t.cache.lookup k = s.cache.lookup k)
    (hlast : lastCompleted k t.log = lastCompleted k s.log) :
    Tracks ttl k (before ++ [a]) t := by
  constructor
  · intro cached hcached
    rw [hcache] at hcached
    rw [hlast]
    exact h.live cached hcached
  · intro hnone now hnow
    rw [hcache] at hnone
    rw [hlast]
    exact h.gone hnone now (fun b hb => hnow b (List.mem_append.mpr (Or.inl hb)))

theorem tracks_of_throw {ttl : Int} {k : Bytes} {before : List (Arrival exn)}
    {s t : Session exn} (h : Tracks ttl k before s) {a : Arrival exn}
    (hkey : idempotencyKey a.req = some k)
    (hmiss : (lookupCached s.cache k a.now).snd = none)
    (hcache : t.cache = (lookupCached s.cache k a.now).fst)
    (hlast : lastCompleted k t.log = lastCompleted k s.log) :
    Tracks ttl k (before ++ [a]) t := by
  have hnone : t.cache.lookup k = none := by
    rw [hcache]
    exact lookup_lookupCached_of_miss hmiss
  constructor
  · intro cached hcached
    rw [hnone] at hcached
    cases hcached
  · intro _hnone now hnow
    rw [hlast]
    cases hfind : s.cache.lookup k with
    | none =>
        exact h.gone hfind now (fun b hb => hnow b (List.mem_append.mpr (Or.inl hb)))
    | some cached =>
        rcases h.live cached hfind with ⟨t0, hdone, hexpires⟩
        have hexpired : cached.expiresAt <= a.now :=
          lookupCached_eq_none_iff.mp hmiss cached hfind
        -- The erased entry had expired by `a.now`, and later readings are not smaller.
        have hlater : a.now <= now := hnow a (by simp) hkey
        rw [hdone]
        apply stillValid_of_expired
        rw [← hexpires]
        exact Int.le_trans hexpired hlater

theorem tracks_of_return {ttl : Int} {k : Bytes} {before : List (Arrival exn)}
    {s t : Session exn} {a : Arrival exn} {r : HttpResponse}
    (hcache : t.cache = storeResponse ttl (lookupCached s.cache k a.now).fst k a.now r)
    (hlast : lastCompleted k t.log = some (a.now, r)) : Tracks ttl k (before ++ [a]) t := by
  have hsome : t.cache.lookup k =
      some { response := r, expiresAt := a.now + nanoseconds ttl } := by
    rw [hcache]
    exact lookup_storeResponse_self ttl _ k a.now r
  constructor
  · intro cached hcached
    rw [hsome] at hcached
    cases hcached
    exact ⟨a.now, hlast, rfl⟩
  · intro hnone
    rw [hsome] at hnone
    cases hnone

theorem tracks_step {ttl : Int} {k : Bytes} {before : List (Arrival exn)}
    (h : Tracks ttl k before (session ttl before)) (a : Arrival exn) :
    Tracks ttl k (before ++ [a]) (session ttl (before ++ [a])) := by
  rw [session_concat]
  by_cases hkey : idempotencyKey a.req = some k
  · cases hfound : (lookupCached (session ttl before).cache k a.now).snd with
    | some r =>
        have hmw := middleware_of_hit hkey ttl hfound a.next
        have hexchange : exchange ttl before a = { calls := [], outcome := .ok r } := by
          unfold exchange
          rw [hmw]
        apply tracks_of_unchanged h a
        · simp only [hmw]
        · rw [hexchange]
          exact lastCompleted_cons_of_none (completion_of_hit k a r) _
    | none =>
        have hmw := middleware_of_miss hkey ttl hfound a.next
        have hexchange : exchange ttl before a =
            { calls := [a.req], outcome := a.next a.req } := by
          unfold exchange
          rw [hmw]
        cases hnext : a.next a.req with
        | error e =>
            rw [hnext] at hmw hexchange
            refine tracks_of_throw h hkey hfound (by simp only [hmw]) ?_
            rw [hexchange]
            exact lastCompleted_cons_of_none (completion_of_throw k a _ e) _
        | ok r =>
            rw [hnext] at hmw hexchange
            refine tracks_of_return (s := session ttl before) (r := r) (by simp only [hmw]) ?_
            rw [hexchange]
            exact lastCompleted_cons_of_some (completion_of_return hkey r) _
  · apply tracks_of_unchanged h a
    · exact lookup_middleware_of_other hkey ttl _ a.now a.next
    · exact lastCompleted_cons_of_none (completion_of_other hkey _) _

theorem tracks_session (ttl : Int) (k : Bytes) (before : List (Arrival exn)) :
    Tracks ttl k before (session ttl before) := by
  induction before using List.reverseRecOn with
  | nil =>
      constructor
      · intro cached hcached
        cases hcached
      · intro _hnone now _hnow
        rfl
  | append_singleton before a ih => exact tracks_step ih a

/-!
## Requests that do not matter

Only requests with the key `k` whose handler returns can change what `k` is
answered.
-/

theorem readings_before {before : List (Arrival exn)} {a : Arrival exn}
    (h : ClockMonotone (before ++ [a])) {k : Bytes} (hkey : idempotencyKey a.req = some k) :
    forall b, b ∈ before -> idempotencyKey b.req = some k -> b.now <= a.now := by
  intro b hb hbkey
  have hpair := (List.pairwise_append.mp h).right.right b hb a (List.mem_singleton.mpr rfl)
  exact hpair (by rw [hbkey]; rfl) (by rw [hkey]; rfl)

theorem clockMonotone_of_concat {before : List (Arrival exn)} {a : Arrival exn}
    (h : ClockMonotone (before ++ [a])) : ClockMonotone before :=
  (List.pairwise_append.mp h).left

theorem idempotencyKey_of_relevant {k : Bytes} {a : Arrival exn} (h : relevant k a = true) :
    idempotencyKey a.req = some k := by
  unfold relevant at h
  rw [Bool.and_eq_true] at h
  exact of_decide_eq_true h.left

theorem completion_of_irrelevant {k : Bytes} {a : Arrival exn} (h : relevant k a = false)
    (ttl : Int) (before : List (Arrival exn)) :
    completion k (a, exchange ttl before a) = none := by
  by_cases hkey : idempotencyKey a.req = some k
  · cases hnext : a.next a.req with
    | ok r =>
        unfold relevant at h
        simp [hkey, hnext] at h
    | error e =>
        unfold exchange
        cases hfound : (lookupCached (session ttl before).cache k a.now).snd with
        | some r =>
            rw [middleware_of_hit hkey ttl hfound]
            exact completion_of_hit k a r
        | none =>
            rw [middleware_of_miss hkey ttl hfound, hnext]
            exact completion_of_throw k a [a.req] e
  · exact completion_of_other hkey _

theorem lastCompleted_filter (ttl : Int) (k : Bytes) (before : List (Arrival exn))
    (hclock : ClockMonotone before) :
    lastCompleted k (session ttl (before.filter (relevant k))).log =
      lastCompleted k (session ttl before).log := by
  induction before using List.reverseRecOn with
  | nil => rfl
  | append_singleton before a ih =>
      have hlast := ih (clockMonotone_of_concat hclock)
      rw [List.filter_append, session_concat]
      cases hrel : relevant k a with
      | false =>
          have hdrop : [a].filter (relevant k) = [] := by simp [hrel]
          rw [hdrop, List.append_nil, hlast]
          exact (lastCompleted_cons_of_none (completion_of_irrelevant hrel ttl before) _).symm
      | true =>
          have hkeep : [a].filter (relevant k) = [a] := by simp [hrel]
          have hkey := idempotencyKey_of_relevant hrel
          have hnow := readings_before hclock hkey
          have hsame : exchange ttl (before.filter (relevant k)) a = exchange ttl before a := by
            rw [exchange_of_tracks (tracks_session ttl k before) hkey hnow,
              exchange_of_tracks (tracks_session ttl k _) hkey
                (fun b hb => hnow b (List.mem_filter.mp hb).left), hlast]
          rw [hkeep, session_concat, hsame]
          cases hdone : completion k (a, exchange ttl before a) with
          | none =>
              rw [lastCompleted_cons_of_none hdone, lastCompleted_cons_of_none hdone, hlast]
          | some done =>
              rw [lastCompleted_cons_of_some hdone, lastCompleted_cons_of_some hdone]

/--
A request with key `k` is answered without its handler exactly while the last
completed request with that key is younger than `ttl`; otherwise the handler is
called once and decides the outcome.  Histories that differ only in requests
without `k` or with throwing handlers give the same answer.
-/
theorem idempotencyMiddleware_by_history (ttl : Int) (before : List (Arrival exn))
    (a : Arrival exn) (hclock : ClockMonotone (before ++ [a])) :
    (forall k, idempotencyKey a.req = some k ->
      (forall r, exchange ttl before a = { calls := [], outcome := .ok r } <->
        exists t0, lastCompleted k (session ttl before).log = some (t0, r) ∧
          a.now < t0 + nanoseconds ttl) ∧
      ((¬ exists t0 r, lastCompleted k (session ttl before).log = some (t0, r) ∧
          a.now < t0 + nanoseconds ttl) ->
        exchange ttl before a = { calls := [a.req], outcome := a.next a.req }) ∧
      (forall before', ClockMonotone (before' ++ [a]) ->
        before'.filter (relevant k) = before.filter (relevant k) ->
        exchange ttl before' a = exchange ttl before a)) ∧
    (idempotencyKey a.req = none ->
      exchange ttl before a = { calls := [a.req], outcome := a.next a.req }) := by
  constructor
  · intro k hkey
    have hexchange := exchange_of_tracks (tracks_session ttl k before) hkey
      (readings_before hclock hkey)
    refine ⟨?_, ?_, ?_⟩
    · intro r
      rw [hexchange, ← stillValid_eq_some_iff]
      cases stillValid ttl (lastCompleted k (session ttl before).log) a.now with
      | none => simp [expected]
      | some r' => simp [expected]
    · intro hnone
      rw [hexchange]
      cases hvalid : stillValid ttl (lastCompleted k (session ttl before).log) a.now with
      | none => rfl
      | some r =>
          rcases stillValid_eq_some_iff.mp hvalid with ⟨t0, hlast, hlt⟩
          exact absurd ⟨t0, r, hlast, hlt⟩ hnone
    · intro before' hclock' hfilter
      rw [hexchange, exchange_of_tracks (tracks_session ttl k before') hkey
        (readings_before hclock' hkey),
        ← lastCompleted_filter ttl k before (clockMonotone_of_concat hclock),
        ← lastCompleted_filter ttl k before' (clockMonotone_of_concat hclock'), hfilter]
  · intro hkey
    unfold exchange
    rw [middleware_of_no_key hkey]

def keyedArrival (k : String) (now : Nanoseconds) (body : String) : Arrival Unit :=
  { req := { headers := (∅ : StringMap Bytes).insert (ascii "Idempotency-Key") (ascii k) }
    now := now
    next := fun _ => .ok (HttpResponse.ok (ascii body)) }

theorem repeated_key_returns_first_response :
    exchange 1 [keyedArrival "a" 0 "first", keyedArrival "b" 5 "other"]
        (keyedArrival "a" 999999999 "second") =
      { calls := [], outcome := .ok (HttpResponse.ok (ascii "first")) } := by
  have hclock : ClockMonotone ([keyedArrival "a" 0 "first", keyedArrival "b" 5 "other"] ++
      [keyedArrival "a" 999999999 "second"]) := by
    simp [ClockMonotone, keyedArrival]
  have hhistory := (idempotencyMiddleware_by_history 1
    [keyedArrival "a" 0 "first", keyedArrival "b" 5 "other"]
    (keyedArrival "a" 999999999 "second") hclock).left (ascii "a") rfl
  exact (hhistory.left (HttpResponse.ok (ascii "first"))).mpr ⟨0, rfl, by decide⟩

end Web
end CppCommons
