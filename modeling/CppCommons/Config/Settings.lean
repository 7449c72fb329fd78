import CppCommons.Cxx.Numeric

/-!
# Typed access to the environment

The helpers of `settings.hpp` that read a text, an integer or a duration from an
environment variable.  Names and values are C strings, without a zero byte.
-/

namespace CppCommons
namespace Config

open Cxx

/-- A `const char*` up to its terminator. -/
abbrev CString := { s : Bytes // (0 : UInt8) ∉ s }

/-- What `std::getenv` returns for each name. -/
abbrev Environment := CString -> Option CString

structure ConfigError where
  what : Bytes
deriving DecidableEq

abbrev Milliseconds := Int

/-- The value of a variable that is set and not empty. -/
def present (env : Environment) (name : CString) : Option Bytes :=
  match env name with
  | none => none
  | some v => if v.val.isEmpty then none else some v.val

def requireEnv (env : Environment) (name : CString) : Evaluation ConfigError Bytes :=
  match present env name with
  | none => .throws { what := ascii "Missing required env var: " ++ name.val }
  | some v => .returns v

def envAsInt (env : Environment) (name : CString) : Evaluation ConfigError Int :=
  match requireEnv env name with
  | .returns s =>
      match stoi s with
      | some n => .returns n
      | none =>
          .throws { what := ascii "Invalid integer for " ++ name.val ++ ascii ": " ++ s }
  | .throws e => .throws e
  | .undefined => .undefined

def envAsUInt16 (env : Environment) (name : CString) : Evaluation ConfigError UInt16 :=
  match envAsInt env name with
  | .returns v =>
      if v < 0 ∨ v > 65535 then .throws { what := ascii "Port out of range for " ++ name.val }
      else .returns (UInt16.ofInt v)
  | .throws e => .throws e
  | .undefined => .undefined

def envDurationMs (env : Environment) (name : CString) (defaultVal : Milliseconds) :
    Evaluation ConfigError Milliseconds :=
  match present env name with
  | none => .returns defaultVal
  | some v =>
      match stoll v with
      | some (count, _) => .returns count
      | none => .throws { what := ascii "Invalid duration (ms) for " ++ name.val }

def toMilliseconds (count unit : Int) : Evaluation ConfigError Milliseconds :=
  if fitsInt64 (count * unit) then .returns (count * unit) else .undefined

def parseDuration (name : CString) (s : Bytes) : Evaluation ConfigError Milliseconds :=
  if s.isEmpty then .throws { what := ascii "Empty duration for " ++ name.val }
  else
    match stoll s with
    | none => .throws { what := ascii "Invalid duration for " ++ name.val ++ ascii ": " ++ s }
    | some (count, pos) =>
        let suffix := s.drop pos
        if suffix = ascii "ms" then .returns count
        else if suffix = ascii "s" then toMilliseconds count 1000
        else if suffix = ascii "m" then toMilliseconds count 60000
        else if suffix = ascii "h" then toMilliseconds count 3600000
        else
          .throws { what := ascii "Unknown duration suffix '" ++ suffix ++ ascii "' for " ++
            name.val ++ ascii " (use ms/s/m/h)" }

def envAsMilliseconds (env : Environment) (name : CString) :
    Evaluation ConfigError Milliseconds :=
  match requireEnv env name with
  | .returns s => parseDuration name s
  | .throws e => .throws e
  | .undefined => .undefined

/-!
## The two readers of a duration

`env_duration_ms` takes the number at the front of a value for milliseconds,
`parse_duration` scales it by its unit.  They agree on the unit `ms` and on zero.
-/

/-- The value is a number of milliseconds with its unit, or zero in any unit. -/
def InMilliseconds (v : Bytes) : Prop :=
  exists count pos, stoll v = some (count, pos) ∧ (v.drop pos = ascii "ms" ∨ count = 0)

theorem toMilliseconds_eq_returns {count unit ms : Int}
    (h : toMilliseconds count unit = .returns ms) : ms = count * unit := by
  unfold toMilliseconds at h
  split at h
  · cases h
    rfl
  · cases h

theorem parseDuration_eq_returns {name : CString} {v : Bytes} {count : Int} {pos : Nat}
    {ms : Milliseconds} (hstoll : stoll v = some (count, pos))
    (h : parseDuration name v = .returns ms) :
    (v.drop pos = ascii "ms" ∧ ms = count) ∨
      (v.drop pos ≠ ascii "ms" ∧ exists unit, 1 < unit ∧ ms = count * unit) := by
  unfold parseDuration at h
  split at h
  · cases h
  · rw [hstoll] at h
    simp only at h
    by_cases hms : v.drop pos = ascii "ms"
    · rw [if_pos hms] at h
      cases h
      exact Or.inl ⟨hms, rfl⟩
    · rw [if_neg hms] at h
      refine Or.inr ⟨hms, ?_⟩
      split at h
      · exact ⟨1000, by decide, toMilliseconds_eq_returns h⟩
      · split at h
        · exact ⟨60000, by decide, toMilliseconds_eq_returns h⟩
        · split at h
          · exact ⟨3600000, by decide, toMilliseconds_eq_returns h⟩
          · cases h

/--
For every value on which both readers of a duration return: they return the same
duration exactly when the value has the unit `ms` or is zero.
-/
theorem duration_readers_agree_iff (env : Environment) (name : CString) (v : CString)
    (hv : env name = some v) (hne : v.val ≠ []) (defaultVal a b : Milliseconds)
    (ha : envDurationMs env name defaultVal = .returns a)
    (hb : envAsMilliseconds env name = .returns b) :
    a = b <-> InMilliseconds v.val := by
  have hpresent : present env name = some v.val := by
    simp [present, hv, hne]
  simp only [envDurationMs, hpresent] at ha
  simp only [envAsMilliseconds, requireEnv, hpresent] at hb
  cases hstoll : stoll v.val with
  | none => simp [hstoll] at ha
  | some number =>
      rcases number with ⟨count, pos⟩
      simp only [hstoll, Evaluation.returns.injEq] at ha
      rw [← ha, InMilliseconds]
      rcases parseDuration_eq_returns hstoll hb with ⟨hms, hcount⟩ | ⟨hms, unit, hunit, hscaled⟩
      · simp [hstoll, hms, hcount]
      · have hscale : count = count * unit <-> count = 0 := by
          constructor
          · intro heq
            by_contra hzero
            have hone : unit = 1 := by
              have hcancel : count * 1 = count * unit := by
                rw [mul_one]
                exact heq
              exact (mul_left_cancel₀ hzero hcancel).symm
            lia
          · intro hzero
            rw [hzero, zero_mul]
        rw [hscaled, hscale]
        simp [hstoll, hms]

def everywhere (v : CString) : Environment := fun _ => some v

def timeout : CString := ⟨ascii "TIMEOUT", by decide⟩

theorem tenSeconds_readers_differ :
    envDurationMs (everywhere ⟨ascii "10s", by decide⟩) timeout 0 = .returns 10 ∧
      envAsMilliseconds (everywhere ⟨ascii "10s", by decide⟩) timeout = .returns 10000 := by
  decide

theorem halfSecond_readers_agree :
    exists a b, envDurationMs (everywhere ⟨ascii "500ms", by decide⟩) timeout 0 = .returns a ∧
      envAsMilliseconds (everywhere ⟨ascii "500ms", by decide⟩) timeout = .returns b ∧ a = b := by
  refine ⟨500, 500, by decide, by decide, ?_⟩
  exact (duration_readers_agree_iff (everywhere ⟨ascii "500ms", by decide⟩) timeout
    ⟨ascii "500ms", by decide⟩ rfl (by decide) 0 500 500 (by decide) (by decide)).mpr
    ⟨500, 3, by decide, Or.inl (by decide)⟩

end Config
end CppCommons
