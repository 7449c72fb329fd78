import Mathlib.Data.Nat.Basic

/-!
# Loops

A loop is its body: one pass either goes on with a new state or leaves with a
result.  A bound on the number of passes keeps the loop total; the loop
terminates when some bound is enough.
-/

namespace CppCommons
namespace Foundation
namespace Loop

variable {state result : Type}

inductive Pass (state result : Type) where
  | again (s : state)
  | done (r : result)

/-- The result after at most so many passes; `none` when they are not enough. -/
def iterate (body : state -> Pass state result) : Nat -> state -> Option result
  | 0, _ => none
  | passes + 1, s =>
      match body s with
      | .again s' => iterate body passes s'
      | .done r => some r

section Rules

variable {body : state -> Pass state result} {s s' : state} {r : result}

theorem iterate_of_again (h : body s = .again s') (passes : Nat) :
    iterate body (passes + 1) s = iterate body passes s' := by
  rw [iterate, h]

theorem iterate_of_done (h : body s = .done r) (passes : Nat) :
    iterate body (passes + 1) s = some r := by
  rw [iterate, h]

theorem iterate_mono {passes more : Nat} (hle : passes <= more)
    (h : iterate body passes s = some r) : iterate body more s = some r := by
  induction passes generalizing s more with
  | zero => cases h
  | succ passes ih =>
      cases more with
      | zero => cases Nat.not_succ_le_zero passes hle
      | succ more =>
          cases hbody : body s with
          | done r' =>
              rw [iterate_of_done hbody] at h ⊢
              exact h
          | again s' =>
              rw [iterate_of_again hbody] at h ⊢
              exact ih (Nat.le_of_succ_le_succ hle) h

theorem exists_iterate_of_measure (measure : state -> Nat)
    (hbody : forall s s', body s = .again s' -> measure s' < measure s) {passes : Nat}
    (h : measure s < passes) : exists r, iterate body passes s = some r := by
  induction passes generalizing s with
  | zero => cases Nat.not_lt_zero (measure s) h
  | succ passes ih =>
      cases hpass : body s with
      | done r => exact ⟨r, iterate_of_done hpass passes⟩
      | again s' =>
          rw [iterate_of_again hpass]
          exact ih (Nat.lt_of_lt_of_le (hbody s s' hpass) (Nat.le_of_lt_succ h))

end Rules

/-!
## Simulation

A loop whose passes go on with related states, or leave with related results, has
related results.
-/

variable {state' result' : Type}

inductive Simulates (R : state -> state' -> Prop) (Q : result -> result' -> Prop) :
    Pass state result -> Pass state' result' -> Prop where
  | again {s : state} {s' : state'} : R s s' -> Simulates R Q (.again s) (.again s')
  | done {r : result} {r' : result'} : Q r r' -> Simulates R Q (.done r) (.done r')

theorem iterate_of_simulates {R : state -> state' -> Prop} {Q : result -> result' -> Prop}
    {body : state -> Pass state result} {body' : state' -> Pass state' result'}
    (hbody : forall s s', R s s' -> Simulates R Q (body s) (body' s')) {passes : Nat}
    {s : state} {s' : state'} (hs : R s s') {r' : result'}
    (h : iterate body' passes s' = some r') :
    exists r, iterate body passes s = some r ∧ Q r r' := by
  induction passes generalizing s s' with
  | zero => cases h
  | succ passes ih =>
      have hpass := hbody s s' hs
      generalize hb : body s = pass at hpass
      generalize hb' : body' s' = pass' at hpass
      cases hpass with
      | again hnext =>
          rw [iterate_of_again hb'] at h
          rw [iterate_of_again hb]
          exact ih hnext h
      | done hresult =>
          rw [iterate_of_done hb'] at h
          cases h
          exact ⟨_, iterate_of_done hb passes, hresult⟩

end Loop
end Foundation
end CppCommons
