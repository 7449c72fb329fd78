import CppCommons.Web.Http

/-!
# Idempotency middleware

`idempotency_middleware` caches responses under the `Idempotency-Key` header.
Its two critical sections are definitions of their own, because requests that
overlap interleave between them.
-/

namespace CppCommons
namespace Web

open Cxx

structure IdempotencyEntry where
  response : HttpResponse
  expiresAt : Nanoseconds
deriving DecidableEq

abbrev Cache := StringMap IdempotencyEntry

/-- The header's value, unless it is missing or empty. -/
def idempotencyKey (req : HttpRequest) : Option Bytes :=
  match req.headers.lookup (ascii "Idempotency-Key") with
  | none => none
  | some key => if key.isEmpty then none else some key

/-- First critical section: a live entry is returned, an expired one erased. -/
def lookupCached (cache : Cache) (key : Bytes) (now : Nanoseconds) :
    Cache × Option HttpResponse :=
  match cache.lookup key with
  | none => (cache, none)
  | some cached =>
      if now < cached.expiresAt then (cache, some cached.response)
      else (cache.erase key, none)

/-- Second critical section: `insert_or_assign`, expiring `ttl` after the first reading. -/
def storeResponse (ttl : Int) (cache : Cache) (key : Bytes) (now : Nanoseconds)
    (response : HttpResponse) : Cache :=
  cache.insert key { response := response, expiresAt := now + nanoseconds ttl }

def idempotencyMiddleware {exn : Type} (ttl : Int) (cache : Cache) (now : Nanoseconds)
    (req : HttpRequest) (next : Handler exn) : Cache × Exchange exn :=
  match idempotencyKey req with
  | none => (cache, { calls := [req], outcome := next req })
  | some key =>
      match lookupCached cache key now with
      | (cache', some response) => (cache', { calls := [], outcome := .ok response })
      | (cache', none) =>
          match next req with
          | .error e => (cache', { calls := [req], outcome := .error e })
          | .ok response =>
              (storeResponse ttl cache' key now response,
                { calls := [req], outcome := .ok response })

/-!
## The critical sections

The lookup and the store, each under the lock, change the entry of their own key
only.
-/

theorem lookupCached_eq_some_iff {cache : Cache} {key : Bytes} {now : Nanoseconds}
    {r : HttpResponse} :
    (lookupCached cache key now).snd = some r <->
      exists cached, cache.lookup key = some cached ∧ now < cached.expiresAt ∧
        cached.response = r := by
  unfold lookupCached
  cases hfind : cache.lookup key with
  | none => simp
  | some cached =>
      by_cases hlive : now < cached.expiresAt
      · simp [hlive]
      · simp [hlive]

theorem lookupCached_eq_none_iff {cache : Cache} {key : Bytes} {now : Nanoseconds} :
    (lookupCached cache key now).snd = none <->
      forall cached, cache.lookup key = some cached -> cached.expiresAt <= now := by
  unfold lookupCached
  cases hfind : cache.lookup key with
  | none => simp
  | some cached =>
      by_cases hlive : now < cached.expiresAt
      · simp [hlive]
      · simp [hlive, Int.not_lt.mp hlive]

theorem lookupCached_fst_of_hit {cache : Cache} {key : Bytes} {now : Nanoseconds}
    {r : HttpResponse} (h : (lookupCached cache key now).snd = some r) :
    (lookupCached cache key now).fst = cache := by
  rcases lookupCached_eq_some_iff.mp h with ⟨cached, hfind, hlive, _hr⟩
  unfold lookupCached
  simp only [hfind, if_pos hlive]

theorem lookup_lookupCached_of_miss {cache : Cache} {key : Bytes} {now : Nanoseconds}
    (h : (lookupCached cache key now).snd = none) :
    (lookupCached cache key now).fst.lookup key = none := by
  have hexpired := lookupCached_eq_none_iff.mp h
  unfold lookupCached
  cases hfind : cache.lookup key with
  | none => exact hfind
  | some cached =>
      simp only [if_neg (Int.not_lt.mpr (hexpired cached hfind))]
      exact Finmap.lookup_erase key cache

theorem lookup_lookupCached_of_ne (cache : Cache) {k key : Bytes} (h : k ≠ key)
    (now : Nanoseconds) : (lookupCached cache key now).fst.lookup k = cache.lookup k := by
  unfold lookupCached
  cases hfind : cache.lookup key with
  | none => rfl
  | some cached =>
      by_cases hlive : now < cached.expiresAt
      · simp only [if_pos hlive]
      · simp only [if_neg hlive]
        exact Finmap.lookup_erase_ne h

theorem lookup_storeResponse_self (ttl : Int) (cache : Cache) (key : Bytes)
    (now : Nanoseconds) (response : HttpResponse) :
    (storeResponse ttl cache key now response).lookup key =
      some { response := response, expiresAt := now + nanoseconds ttl } :=
  Finmap.lookup_insert cache

theorem lookup_storeResponse_of_ne (ttl : Int) (cache : Cache) {k key : Bytes}
    (h : k ≠ key) (now : Nanoseconds) (response : HttpResponse) :
    (storeResponse ttl cache key now response).lookup k = cache.lookup k :=
  Finmap.lookup_insert_of_ne cache h

/-!
## The whole middleware

A request without a key goes straight to the handler; one with a key is answered
from the cache or stores its response.
-/

section Middleware

variable {exn : Type}

theorem middleware_of_no_key {req : HttpRequest} (h : idempotencyKey req = none) (ttl : Int)
    (cache : Cache) (now : Nanoseconds) (next : Handler exn) :
    idempotencyMiddleware ttl cache now req next =
      (cache, { calls := [req], outcome := next req }) := by
  unfold idempotencyMiddleware
  simp only [h]

theorem middleware_of_hit {req : HttpRequest} {k : Bytes} (h : idempotencyKey req = some k)
    (ttl : Int) {cache : Cache} {now : Nanoseconds} {r : HttpResponse}
    (hhit : (lookupCached cache k now).snd = some r) (next : Handler exn) :
    idempotencyMiddleware ttl cache now req next = (cache, { calls := [], outcome := .ok r }) := by
  have hpair : lookupCached cache k now = (cache, some r) :=
    Prod.ext (lookupCached_fst_of_hit hhit) hhit
  unfold idempotencyMiddleware
  simp only [h, hpair]

theorem middleware_of_miss {req : HttpRequest} {k : Bytes} (h : idempotencyKey req = some k)
    (ttl : Int) {cache : Cache} {now : Nanoseconds}
    (hmiss : (lookupCached cache k now).snd = none) (next : Handler exn) :
    idempotencyMiddleware ttl cache now req next =
      (match next req with
        | .error _ => (lookupCached cache k now).fst
        | .ok response => storeResponse ttl (lookupCached cache k now).fst k now response,
        { calls := [req], outcome := next req }) := by
  have hpair : lookupCached cache k now = ((lookupCached cache k now).fst, none) :=
    Prod.ext rfl hmiss
  unfold idempotencyMiddleware
  simp only [h]
  rw [hpair]
  cases next req with
  | error e => rfl
  | ok response => rfl

theorem lookup_middleware_of_other {req : HttpRequest} {k : Bytes}
    (h : idempotencyKey req ≠ some k) (ttl : Int) (cache : Cache) (now : Nanoseconds)
    (next : Handler exn) :
    (idempotencyMiddleware ttl cache now req next).fst.lookup k = cache.lookup k := by
  cases hkey : idempotencyKey req with
  | none => rw [middleware_of_no_key hkey]
  | some key =>
      have hne : k ≠ key := by
        intro heq
        rw [heq] at h
        exact h hkey
      cases hfound : (lookupCached cache key now).snd with
      | some r => rw [middleware_of_hit hkey ttl hfound]
      | none =>
          rw [middleware_of_miss hkey ttl hfound]
          cases next req with
          | error e => exact lookup_lookupCached_of_ne cache hne now
          | ok response =>
              simp only
              rw [lookup_storeResponse_of_ne ttl _ hne, lookup_lookupCached_of_ne cache hne]

end Middleware

end Web
end CppCommons
