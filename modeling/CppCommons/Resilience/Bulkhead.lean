import CppCommons.Foundation.LabelledRun

/-!
# Bulkhead

`Bulkhead::call` acquires a slot, runs the function and releases the slot in
the destructor of a guard, on a return as on an exception.  Any number of calls
overlap or nest: a call is two locked steps, `acquire` and the release at its
end, and between them anything may happen, also further calls by the function
itself.
-/

namespace CppCommons
namespace Resilience

open Foundation.LabelledRun

structure BulkheadFullError where
  what : String
deriving DecidableEq

structure Bulkhead where
  max : UInt32
  active : UInt32 := 0
deriving DecidableEq

/-- The exceptions that leave `call`. -/
inductive BulkheadCallError (exn : Type) where
  | full (error : BulkheadFullError)
  | rethrown (error : exn)
deriving DecidableEq

namespace Bulkhead

def available (b : Bulkhead) : UInt32 :=
  if b.active < b.max then b.max - b.active else 0

def acquire (b : Bulkhead) : Bulkhead × Except BulkheadFullError Unit :=
  if b.max <= b.active then (b, .error { what := "bulkhead capacity reached" })
  else ({ b with active := b.active + 1 }, .ok ())

def release (b : Bulkhead) : Bulkhead :=
  if 0 < b.active then { b with active := b.active - 1 } else b

/-- `call(fn)`; the function may itself use the bulkhead. -/
def call {value exn : Type} (b : Bulkhead) (fn : Bulkhead -> Bulkhead × Except exn value) :
    Bulkhead × Except (BulkheadCallError exn) value :=
  match b.acquire with
  | (b', .error e) => (b', .error (.full e))
  | (b', .ok ()) =>
      match fn b' with
      | (b'', .ok result) => (b''.release, .ok result)
      | (b'', .error e) => (b''.release, .error (.rethrown e))

theorem acquire_of_full {b : Bulkhead} (h : b.max <= b.active) :
    b.acquire = (b, .error { what := "bulkhead capacity reached" }) := by
  unfold acquire
  rw [if_pos h]

theorem acquire_of_room {b : Bulkhead} (h : ¬ b.max <= b.active) :
    b.acquire = ({ b with active := b.active + 1 }, .ok ()) := by
  unfold acquire
  rw [if_neg h]

theorem toNat_active_succ {b : Bulkhead} (h : ¬ b.max <= b.active) :
    (b.active + 1).toNat = b.active.toNat + 1 := by
  have hlt : b.active.toNat < b.max.toNat := UInt32.lt_iff_toNat_lt.mp (UInt32.not_le.mp h)
  have hmax := b.max.toNat_lt
  rw [UInt32.toNat_add]
  exact Nat.mod_eq_of_lt (by lia)

theorem toNat_release {b : Bulkhead} (h : 0 < b.active.toNat) :
    b.release.active.toNat = b.active.toNat - 1 := by
  have hpos : 0 < b.active := UInt32.lt_iff_toNat_lt.mpr h
  have hone : (1 : UInt32) <= b.active := UInt32.le_iff_toNat_le.mpr h
  unfold release
  rw [if_pos hpos]
  exact UInt32.toNat_sub_of_le b.active 1 hone

theorem toNat_available {b : Bulkhead} (h : b.active.toNat <= b.max.toNat) :
    b.available.toNat = b.max.toNat - b.active.toNat := by
  unfold available
  by_cases hlt : b.active < b.max
  · rw [if_pos hlt]
    exact UInt32.toNat_sub_of_le b.max b.active (UInt32.le_iff_toNat_le.mpr h)
  · rw [if_neg hlt]
    have hge : b.max.toNat <= b.active.toNat := UInt32.le_iff_toNat_le.mp (UInt32.not_lt.mp hlt)
    rw [Nat.sub_eq_zero_of_le hge]
    rfl

end Bulkhead

inductive BulkheadPhase (value exn : Type) where
  | waiting
  | running
  | ended (outcome : Except (BulkheadCallError exn) value)
deriving DecidableEq

inductive BulkheadEvent (callId : Type) where
  | acquired (call : callId)
  | rejected (call : callId)
  | released (call : callId)
deriving DecidableEq

/-- The function of a call ends with an outcome, and the guard releases the slot. -/
inductive BulkheadAction (callId value exn : Type) where
  | acquire (call : callId)
  | finish (call : callId) (outcome : Except exn value)

structure SharedBulkhead (callId value exn : Type) where
  bulkhead : Bulkhead
  phase : callId -> BulkheadPhase value exn
  log : List (BulkheadEvent callId)

namespace SharedBulkhead

variable {callId value exn : Type}

def start (maxConcurrent : UInt32) : SharedBulkhead callId value exn :=
  { bulkhead := { max := maxConcurrent }, phase := fun _ => .waiting, log := [] }

def leaving : Except exn value -> Except (BulkheadCallError exn) value
  | .ok result => .ok result
  | .error e => .error (.rethrown e)

variable [DecidableEq callId]

def record (w : SharedBulkhead callId value exn) (i : callId) (ph : BulkheadPhase value exn)
    (b : Bulkhead) (event : BulkheadEvent callId) : SharedBulkhead callId value exn :=
  { bulkhead := b, phase := Function.update w.phase i ph, log := event :: w.log }

def step (w : SharedBulkhead callId value exn) :
    BulkheadAction callId value exn -> Option (SharedBulkhead callId value exn)
  | .acquire i =>
      match w.phase i with
      | .waiting =>
          match w.bulkhead.acquire with
          | (b, .ok ()) => some (w.record i .running b (.acquired i))
          | (b, .error e) => some (w.record i (.ended (.error (.full e))) b (.rejected i))
      | _ => none
  | .finish i outcome =>
      match w.phase i with
      | .running =>
          some (w.record i (.ended (leaving outcome)) w.bulkhead.release (.released i))
      | _ => none

/-- The calls that have acquired and not yet released. -/
def inFlight : List (BulkheadEvent callId) -> List callId
  | [] => []
  | .acquired i :: log => i :: inFlight log
  | .rejected _ :: log => inFlight log
  | .released i :: log => (inFlight log).erase i

inductive Stepped (w : SharedBulkhead callId value exn) :
    BulkheadAction callId value exn -> SharedBulkhead callId value exn -> Prop where
  | acquired {i : callId} : w.phase i = .waiting -> ¬ w.bulkhead.max <= w.bulkhead.active ->
      Stepped w (.acquire i) (w.record i .running
        { w.bulkhead with active := w.bulkhead.active + 1 } (.acquired i))
  | rejected {i : callId} : w.phase i = .waiting -> w.bulkhead.max <= w.bulkhead.active ->
      Stepped w (.acquire i) (w.record i
        (.ended (.error (.full { what := "bulkhead capacity reached" }))) w.bulkhead
        (.rejected i))
  | released {i : callId} {outcome : Except exn value} : w.phase i = .running ->
      Stepped w (.finish i outcome)
        (w.record i (.ended (leaving outcome)) w.bulkhead.release (.released i))

theorem stepped_of_step {w v : SharedBulkhead callId value exn}
    {a : BulkheadAction callId value exn} (h : step w a = some v) : Stepped w a v := by
  cases a with
  | acquire i =>
      cases hphase : w.phase i with
      | waiting =>
          by_cases hfull : w.bulkhead.max <= w.bulkhead.active
          · simp only [step, hphase, Bulkhead.acquire_of_full hfull] at h
            cases h
            exact .rejected hphase hfull
          · simp only [step, hphase, Bulkhead.acquire_of_room hfull] at h
            cases h
            exact .acquired hphase hfull
      | running =>
          simp only [step, hphase] at h
          cases h
      | ended outcome =>
          simp only [step, hphase] at h
          cases h
  | finish i outcome =>
      cases hphase : w.phase i with
      | waiting =>
          simp only [step, hphase] at h
          cases h
      | running =>
          simp only [step, hphase] at h
          cases h
          exact .released hphase
      | ended outcome' =>
          simp only [step, hphase] at h
          cases h

/-!
## Accounting

The counter is the number of calls that have acquired and not yet released, and
these are the running ones.  Every step keeps this.
-/

structure Accounted (maxConcurrent : UInt32) (w : SharedBulkhead callId value exn) : Prop where
  max : w.bulkhead.max = maxConcurrent
  count : w.bulkhead.active.toNat = (inFlight w.log).length
  bounded : (inFlight w.log).length <= maxConcurrent.toNat
  nodup : (inFlight w.log).Nodup
  running : forall i, w.phase i = .running <-> i ∈ inFlight w.log
  waiting : forall i, w.phase i = .waiting -> .acquired i ∉ w.log

theorem accounted_start (maxConcurrent : UInt32) :
    Accounted maxConcurrent (start maxConcurrent : SharedBulkhead callId value exn) := by
  refine ⟨rfl, rfl, Nat.zero_le _, List.nodup_nil, ?_, ?_⟩
  · intro i
    simp [start, inFlight]
  · intro i _hwaiting
    exact List.not_mem_nil

theorem active_pos {maxConcurrent : UInt32} {w : SharedBulkhead callId value exn}
    (h : Accounted maxConcurrent w) {i : callId} (hphase : w.phase i = .running) :
    0 < w.bulkhead.active.toNat := by
  rw [h.count]
  exact List.length_pos_of_mem ((h.running i).mp hphase)

theorem not_inFlight_of_waiting {maxConcurrent : UInt32} {w : SharedBulkhead callId value exn}
    (h : Accounted maxConcurrent w) {i : callId} (hphase : w.phase i = .waiting) :
    i ∉ inFlight w.log := by
  intro hmem
  rw [(h.running i).mpr hmem] at hphase
  cases hphase

theorem waiting_record {w : SharedBulkhead callId value exn}
    (h : forall i, w.phase i = .waiting -> .acquired i ∉ w.log) {i : callId}
    {ph : BulkheadPhase value exn} (hph : ph ≠ .waiting) (b : Bulkhead)
    {event : BulkheadEvent callId} (hevent : forall j, j ≠ i -> event ≠ .acquired j) :
    forall j, (w.record i ph b event).phase j = .waiting ->
      .acquired j ∉ (w.record i ph b event).log := by
  intro j hj
  by_cases hij : j = i
  · simp [record, hij, hph] at hj
  · rw [record, List.mem_cons, not_or]
    refine ⟨fun heq => hevent j hij heq.symm, h j ?_⟩
    simpa [record, hij] using hj

theorem accounted_step {maxConcurrent : UInt32} {w v : SharedBulkhead callId value exn}
    {a : BulkheadAction callId value exn} (h : Accounted maxConcurrent w)
    (hstep : Stepped w a v) : Accounted maxConcurrent v := by
  cases hstep with
  | @acquired i hphase hroom =>
      have hnew := not_inFlight_of_waiting h hphase
      have hsucc := Bulkhead.toNat_active_succ hroom
      have hlt : w.bulkhead.active.toNat < w.bulkhead.max.toNat :=
        UInt32.lt_iff_toNat_lt.mp (UInt32.not_le.mp hroom)
      refine ⟨h.max, ?_, ?_, List.nodup_cons.mpr ⟨hnew, h.nodup⟩, ?_,
        waiting_record h.waiting (by simp) _ (fun j hj => by simp [Ne.symm hj])⟩
      · simp only [record, inFlight, List.length_cons]
        rw [hsucc, h.count]
      · simp only [record, inFlight, List.length_cons]
        rw [← h.max, ← h.count]
        exact hlt
      · intro j
        by_cases hij : j = i
        · simp [record, inFlight, hij]
        · simp [record, inFlight, hij, h.running j]
  | @rejected i hphase hfull =>
      refine ⟨h.max, h.count, h.bounded, h.nodup, ?_,
        waiting_record h.waiting (by simp) _ (by simp)⟩
      intro j
      by_cases hij : j = i
      · simp [record, inFlight, hij, not_inFlight_of_waiting h hphase]
      · simp [record, inFlight, hij, h.running j]
  | @released i outcome hphase =>
      have hmem : i ∈ inFlight w.log := (h.running i).mp hphase
      have hlength : ((inFlight w.log).erase i).length = (inFlight w.log).length - 1 :=
        List.length_erase_of_mem hmem
      refine ⟨?_, ?_, ?_, h.nodup.erase i, ?_,
        waiting_record h.waiting (by simp) _ (by simp)⟩
      · rw [← h.max]
        simp only [record, Bulkhead.release]
        split_ifs <;> rfl
      · simp only [record, inFlight]
        rw [Bulkhead.toNat_release (active_pos h hphase), hlength, h.count]
      · simp only [record, inFlight]
        rw [hlength]
        exact Nat.le_trans (Nat.sub_le _ 1) h.bounded
      · intro j
        by_cases hij : j = i
        · simp [record, inFlight, hij, h.nodup.not_mem_erase]
        · simp [record, inFlight, hij, h.running j, List.mem_erase_of_ne hij]

theorem accounted_of_run {maxConcurrent : UInt32} {w : SharedBulkhead callId value exn}
    {actions : List (BulkheadAction callId value exn)}
    (hrun : run step (start maxConcurrent) actions = some w) : Accounted maxConcurrent w :=
  invariant_of_run (P := fun _ w => Accounted maxConcurrent w) (accounted_start maxConcurrent)
    (fun _ _ _ _ _ h hstep => accounted_step h (stepped_of_step hstep)) hrun

theorem acquire_phase {maxConcurrent : UInt32} {w v : SharedBulkhead callId value exn}
    (h : Accounted maxConcurrent w) {i : callId} (hstep : Stepped w (.acquire i) v) :
    ((inFlight w.log).length = maxConcurrent.toNat ∧
      v.phase i = .ended (.error (.full { what := "bulkhead capacity reached" })) ∧
      .acquired i ∉ v.log) ∨
    ((inFlight w.log).length ≠ maxConcurrent.toNat ∧ v.phase i = .running) := by
  cases hstep with
  | acquired hphase hroom =>
      refine Or.inr ⟨?_, by simp [record]⟩
      rw [← h.count, ← h.max]
      exact Nat.ne_of_lt (UInt32.lt_iff_toNat_lt.mp (UInt32.not_le.mp hroom))
  | rejected hphase hfull =>
      refine Or.inl ⟨?_, by simp [record], by simp [record, h.waiting i hphase]⟩
      have hge := UInt32.le_iff_toNat_le.mp hfull
      rw [h.max, h.count] at hge
      exact Nat.le_antisymm h.bounded hge

/--
For every interleaving of calls, nested or not: the counter is the number of
calls that have acquired and not yet released, at most the maximum;
`available` is the difference; a call is rejected, without its function having
run, exactly when the maximum is in flight at its acquire step; no release
meets a counter of zero; and when no call is running every slot is free.
-/
theorem bulkhead_accounting (maxConcurrent : UInt32)
    (actions : List (BulkheadAction callId value exn)) (w : SharedBulkhead callId value exn)
    (hrun : run step (start maxConcurrent) actions = some w) :
    w.bulkhead.active.toNat = (inFlight w.log).length ∧
      w.bulkhead.active.toNat <= maxConcurrent.toNat ∧
      w.bulkhead.available.toNat = maxConcurrent.toNat - w.bulkhead.active.toNat ∧
      (forall i v, step w (.acquire i) = some v ->
        ((inFlight w.log).length = maxConcurrent.toNat ∧
          v.phase i = .ended (.error (.full { what := "bulkhead capacity reached" })) ∧
          .acquired i ∉ v.log) ∨
        ((inFlight w.log).length ≠ maxConcurrent.toNat ∧ v.phase i = .running)) ∧
      (forall i outcome v, step w (.finish i outcome) = some v ->
        0 < w.bulkhead.active.toNat) ∧
      ((forall i, w.phase i ≠ .running) -> w.bulkhead.available = maxConcurrent) := by
  have h := accounted_of_run hrun
  have hbounded : w.bulkhead.active.toNat <= maxConcurrent.toNat := by
    rw [h.count]
    exact h.bounded
  have havailable : w.bulkhead.available.toNat =
      maxConcurrent.toNat - w.bulkhead.active.toNat := by
    rw [← h.max]
    exact Bulkhead.toNat_available (by rw [h.max]; exact hbounded)
  refine ⟨h.count, hbounded, havailable, ?_, ?_, ?_⟩
  · intro i v hstep
    exact acquire_phase h (stepped_of_step hstep)
  · intro i outcome v hstep
    cases stepped_of_step hstep with
    | released hphase => exact active_pos h hphase
  · intro hidle
    have hempty : inFlight w.log = [] := by
      apply List.eq_nil_iff_forall_not_mem.mpr
      intro i hmem
      exact hidle i ((h.running i).mpr hmem)
    apply UInt32.toNat_inj.mp
    rw [havailable, h.count, hempty]
    rfl

def nestedCalls : List (BulkheadAction (Fin 3) Unit String) :=
  [.acquire 0, .acquire 1, .acquire 2, .finish 1 (.error "failed"), .finish 0 (.ok ())]

theorem nestedCalls_free :
    exists w, run step (start 2) nestedCalls = some w ∧ w.bulkhead.available = 2 := by
  have hrun : exists w, run step (start 2) nestedCalls = some w ∧
      forall i, w.phase i ≠ .running := ⟨_, rfl, by decide⟩
  rcases hrun with ⟨w, hw, hidle⟩
  rcases bulkhead_accounting 2 nestedCalls w hw with ⟨_, _, _, _, _, hfree⟩
  exact ⟨w, hw, hfree hidle⟩

/-!
## A call on one thread

The steps of `call` around the steps its function takes do to the bulkhead what
`call` does, also when the function calls the bulkhead again.
-/

theorem run_call_of_full {w : SharedBulkhead callId value exn} {i : callId}
    (hphase : w.phase i = .waiting) (hfull : w.bulkhead.max <= w.bulkhead.active)
    (fn : Bulkhead -> Bulkhead × Except exn value) :
    exists v, run step w [.acquire i] = some v ∧
      v.bulkhead = (w.bulkhead.call fn).fst ∧ v.phase i = .ended (w.bulkhead.call fn).snd := by
  refine ⟨w.record i (.ended (.error (.full { what := "bulkhead capacity reached" })))
    w.bulkhead (.rejected i), ?_, ?_, ?_⟩
  · rw [run_singleton]
    simp only [step, hphase, Bulkhead.acquire_of_full hfull]
  · simp [Bulkhead.call, Bulkhead.acquire_of_full hfull, record]
  · simp [Bulkhead.call, Bulkhead.acquire_of_full hfull, record]

theorem run_call_of_room {w inside : SharedBulkhead callId value exn} {i : callId}
    (hphase : w.phase i = .waiting) (hroom : ¬ w.bulkhead.max <= w.bulkhead.active)
    (fn : Bulkhead -> Bulkhead × Except exn value)
    {inner : List (BulkheadAction callId value exn)}
    (hinner : run step (w.record i .running
      { w.bulkhead with active := w.bulkhead.active + 1 } (.acquired i)) inner = some inside)
    (hrunning : inside.phase i = .running)
    (hfn : inside.bulkhead =
      (fn { w.bulkhead with active := w.bulkhead.active + 1 }).fst) :
    exists v, run step w (.acquire i :: (inner ++
        [.finish i (fn { w.bulkhead with active := w.bulkhead.active + 1 }).snd])) = some v ∧
      v.bulkhead = (w.bulkhead.call fn).fst ∧ v.phase i = .ended (w.bulkhead.call fn).snd := by
  have hacquire : step w (.acquire i) = some (w.record i .running
      { w.bulkhead with active := w.bulkhead.active + 1 } (.acquired i)) := by
    simp only [step, hphase, Bulkhead.acquire_of_room hroom]
  rw [run_cons_of_step hacquire]
  cases hcall : fn { w.bulkhead with active := w.bulkhead.active + 1 } with
  | mk b outcome =>
      rw [hcall] at hfn
      refine ⟨inside.record i (.ended (leaving outcome)) inside.bulkhead.release (.released i),
        ?_, ?_, ?_⟩
      · apply (run_concat_eq_some_iff inner _).mpr
        refine ⟨inside, hinner, ?_⟩
        simp only [step, hrunning]
      · cases outcome with
        | ok result => simp [Bulkhead.call, Bulkhead.acquire_of_room hroom, hcall, record, hfn]
        | error e => simp [Bulkhead.call, Bulkhead.acquire_of_room hroom, hcall, record, hfn]
      · cases outcome with
        | ok result =>
            simp [Bulkhead.call, Bulkhead.acquire_of_room hroom, hcall, record, leaving]
        | error e =>
            simp [Bulkhead.call, Bulkhead.acquire_of_room hroom, hcall, record, leaving]

end SharedBulkhead
end Resilience
end CppCommons
