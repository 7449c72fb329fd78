import CppCommons.Foundation.LabelledRun
import CppCommons.Observability.CorrelationContext

/-!
# Correlation scopes

The current context is a variable of each thread.  A `CorrelationScope` keeps a
copy of the value it replaces and puts it back when it is destroyed, at the end
of its block or while an exception passes.  A `ContextAwareExecutor` hands every
function to its inner executor wrapped in such a scope.

Threads run programs of nested blocks.  The inner executors are unknown: a
function that was handed over may start on any thread at any later point, in the
middle of what that thread is doing, and an exception that leaves it is passed
on or swallowed.
-/

namespace CppCommons
namespace Observability

open Foundation.LabelledRun

structure CorrelationScope where
  previous : CorrelationContext

namespace CorrelationScope

def construct (current ctx : CorrelationContext) : CorrelationScope × CorrelationContext :=
  ({ previous := current }, ctx)

def destroy (scope : CorrelationScope) : CorrelationContext :=
  scope.previous

end CorrelationScope

structure ContextAwareExecutor where
  ctx : CorrelationContext

/-- Code that uses scopes and executors; `current` reads `current_correlation()`. -/
inductive Program (exn : Type) where
  | skip
  | seq (first second : Program exn)
  | scope (ctx : CorrelationContext) (body : Program exn)
  | throw (e : exn)
  | tryCatch (body : Program exn) (handler : exn -> Program exn)
  | current (resume : CorrelationContext -> Program exn)
  | submit (executor : ContextAwareExecutor) (fn : Program exn)

variable {exn : Type}

namespace ContextAwareExecutor

def fromCurrent (current : CorrelationContext) : ContextAwareExecutor where
  ctx := current

/-- The function that the inner executor gets, by `dispatch`, `post` or `defer`. -/
def wrap (executor : ContextAwareExecutor) (fn : Program exn) : Program exn :=
  .scope executor.ctx fn

end ContextAwareExecutor

/-- What an inner executor was handed, and by which executor. -/
structure Submission (exn : Type) where
  executor : ContextAwareExecutor
  task : Program exn

/-!
## Threads

A block or a task that was entered has a number, so that its end can be compared
with its beginning.  The frame of a task names the executor that handed it over.
-/

inductive Control (exn : Type) where
  | run (program : Program exn)
  | returned
  | thrown (e : exn)

inductive ScopeFrame (exn : Type) where
  | next (program : Program exn)
  | handler (handler : exn -> Program exn)
  | scope (ctx : CorrelationContext) (guard : CorrelationScope) (number : Nat)
  | task (executor : ContextAwareExecutor) (interrupted : Control exn) (number : Nat)

/-- The current context of the thread right before a block or task, and right after it. -/
inductive ScopeEvent where
  | entered (number : Nat) (before : CorrelationContext)
  | left (number : Nat) (after : CorrelationContext)

structure ScopeThread (exn : Type) where
  current : CorrelationContext := {}
  control : Control exn
  frames : List (ScopeFrame exn) := []

structure Advance (exn : Type) where
  thread : ScopeThread exn
  events : List ScopeEvent := []
  submitted : List (Submission exn) := []

namespace ScopeThread

/-- A step into the program the thread is about to run. -/
def enter (t : ScopeThread exn) (number : Nat) : Program exn -> Advance exn
  | .skip => { thread := { t with control := .returned } }
  | .seq first second =>
      { thread := { t with control := .run first, frames := .next second :: t.frames } }
  | .scope ctx body =>
      let constructed := CorrelationScope.construct t.current ctx
      { thread :=
          { current := constructed.snd
            control := .run body
            frames := .scope ctx constructed.fst number :: t.frames }
        events := [.entered number t.current] }
  | .throw e => { thread := { t with control := .thrown e } }
  | .tryCatch body handler =>
      { thread := { t with control := .run body, frames := .handler handler :: t.frames } }
  | .current resume => { thread := { t with control := .run (resume t.current) } }
  | .submit executor fn =>
      { thread := { t with control := .returned }, submitted := [⟨executor, executor.wrap fn⟩] }

/-- The end of a block, whether the program goes on or an exception passes. -/
def leave (t : ScopeThread exn) (guard : CorrelationScope) (number : Nat)
    (rest : List (ScopeFrame exn)) : Advance exn where
  thread := { t with current := guard.destroy, frames := rest }
  events := [.left number guard.destroy]

def finish (t : ScopeThread exn) (control : Control exn) (number : Nat)
    (rest : List (ScopeFrame exn)) : Advance exn where
  thread := { t with control := control, frames := rest }
  events := [.left number t.current]

def resume (t : ScopeThread exn) : Option (Advance exn) :=
  match t.frames with
  | [] => none
  | .next program :: rest =>
      some { thread := { t with control := .run program, frames := rest } }
  | .handler _ :: rest => some { thread := { t with frames := rest } }
  | .scope _ guard number :: rest => some (t.leave guard number rest)
  | .task _ interrupted number :: rest => some (t.finish interrupted number rest)

/-- A step of an exception towards its handler; it leaves a task into what the
task interrupted. -/
def unwind (t : ScopeThread exn) (e : exn) : Option (Advance exn) :=
  match t.frames with
  | [] => none
  | .next _ :: rest => some { thread := { t with frames := rest } }
  | .handler handler :: rest =>
      some { thread := { t with control := .run (handler e), frames := rest } }
  | .scope _ guard number :: rest => some (t.leave guard number rest)
  | .task _ _ number :: rest => some (t.finish (.thrown e) number rest)

def advance (t : ScopeThread exn) (number : Nat) : Option (Advance exn) :=
  match t.control with
  | .run program => some (t.enter number program)
  | .returned => t.resume
  | .thrown e => t.unwind e

/-- A task starts in the middle of what the thread does; destructors start none. -/
def begin (t : ScopeThread exn) (number : Nat) (s : Submission exn) : Option (Advance exn) :=
  match t.control with
  | .thrown _ => none
  | control =>
      some
        { thread :=
            { t with control := .run s.task, frames := .task s.executor control number :: t.frames }
          events := [.entered number t.current] }

/-- An exception that leaves a task is swallowed by the inner executor. -/
def swallow (t : ScopeThread exn) : Option (Advance exn) :=
  match t.control, t.frames with
  | .thrown _, .task _ interrupted number :: rest => some (t.finish interrupted number rest)
  | _, _ => none

end ScopeThread

/-!
## Interleavings

A step advances one thread, or starts on it any function that was handed over before.
-/

inductive ScopeAction (thread : Type) where
  | advance (th : thread)
  | begin (th : thread) (index : Nat)
  | swallow (th : thread)

structure ScopeWorld (thread exn : Type) where
  threads : thread -> ScopeThread exn
  /-- the functions handed to inner executors that have not started -/
  pending : List (Submission exn) := []
  /-- how many steps were taken -/
  steps : Nat := 0
  log : List ScopeEvent := []

namespace ScopeWorld

variable {thread : Type} [DecidableEq thread]

/-- Every thread begins with the default context. -/
def start (programs : thread -> Program exn) : ScopeWorld thread exn where
  threads := fun th => { control := .run (programs th) }

def record (w : ScopeWorld thread exn) (th : thread) (a : Advance exn) :
    ScopeWorld thread exn where
  threads := Function.update w.threads th a.thread
  pending := w.pending ++ a.submitted
  steps := w.steps + 1
  log := a.events ++ w.log

def step (w : ScopeWorld thread exn) : ScopeAction thread -> Option (ScopeWorld thread exn)
  | .advance th => ((w.threads th).advance w.steps).map (w.record th)
  | .begin th index =>
      match w.pending[index]? with
      | none => none
      | some submission =>
          ((w.threads th).begin w.steps submission).map
            ({ w with pending := w.pending.eraseIdx index }.record th)
  | .swallow th => (w.threads th).swallow.map (w.record th)

end ScopeWorld

/-!
## Saved copies follow the nesting

The value of the variable is that of the innermost scope, the scopes that executors add
among them.
-/

def installed : List (ScopeFrame exn) -> CorrelationContext
  | [] => {}
  | .scope ctx _ _ :: _ => ctx
  | _ :: rest => installed rest

/-- Each copy that was saved, and each value that was logged when a block or task
was entered, is the context of what lies around it. -/
def Kept (log : List ScopeEvent) : List (ScopeFrame exn) -> Prop
  | [] => True
  | .scope _ guard number :: rest =>
      guard.previous = installed rest ∧ .entered number (installed rest) ∈ log ∧ Kept log rest
  | .task _ _ number :: rest => .entered number (installed rest) ∈ log ∧ Kept log rest
  | _ :: rest => Kept log rest

theorem Kept.mono {log log' : List ScopeEvent} (hsubset : log ⊆ log')
    {frames : List (ScopeFrame exn)} (h : Kept log frames) : Kept log' frames := by
  induction frames with
  | nil => trivial
  | cons frame rest ih =>
      cases frame with
      | next program => exact ih h
      | handler handler => exact ih h
      | scope ctx guard number => exact ⟨h.left, hsubset h.right.left, ih h.right.right⟩
      | task executor interrupted number => exact ⟨hsubset h.left, ih h.right⟩

structure Disciplined (log : List ScopeEvent) (t : ScopeThread exn) : Prop where
  current : t.current = installed t.frames
  kept : Kept log t.frames

/-- A step keeps the discipline; what it enters bears its own number, and what it
leaves was entered with the value it leaves behind. -/
structure Orderly (log : List ScopeEvent) (number : Nat) (a : Advance exn) : Prop where
  disciplined : Disciplined (a.events ++ log) a.thread
  entered : forall n before, .entered n before ∈ a.events -> n = number
  single : forall x y, x ∈ a.events -> y ∈ a.events -> x = y
  left : forall n after, .left n after ∈ a.events -> .entered n after ∈ log

theorem orderly_of_silent {log : List ScopeEvent} {number : Nat} {t : ScopeThread exn}
    (h : Disciplined log t) (submitted : List (Submission exn)) :
    Orderly log number { thread := t, submitted := submitted } where
  disciplined := h
  entered := by
    intro n before hmem
    cases hmem
  single := by
    intro x y hx
    cases hx
  left := by
    intro n after hmem
    cases hmem

theorem orderly_of_entered {log : List ScopeEvent} {number : Nat} {before : CorrelationContext}
    {t : ScopeThread exn} (h : Disciplined (.entered number before :: log) t) :
    Orderly log number { thread := t, events := [.entered number before] } where
  disciplined := h
  entered := by
    intro n before' hmem
    cases List.mem_singleton.mp hmem
    rfl
  single := by
    intro x y hx hy
    rw [List.mem_singleton.mp hx, List.mem_singleton.mp hy]
  left := by
    intro n after hmem
    cases List.mem_singleton.mp hmem

theorem orderly_of_left {log : List ScopeEvent} {number n : Nat} {after : CorrelationContext}
    {t : ScopeThread exn} (h : Disciplined log t) (hentered : .entered n after ∈ log) :
    Orderly log number { thread := t, events := [.left n after] } where
  disciplined := ⟨h.current, h.kept.mono (List.subset_cons_self _ _)⟩
  entered := by
    intro n' before hmem
    cases List.mem_singleton.mp hmem
  single := by
    intro x y hx hy
    rw [List.mem_singleton.mp hx, List.mem_singleton.mp hy]
  left := by
    intro n' after' hmem
    cases List.mem_singleton.mp hmem
    exact hentered

section Step

variable {log : List ScopeEvent} {t : ScopeThread exn} {a : Advance exn}

theorem orderly_enter (h : Disciplined log t) (number : Nat) (program : Program exn) :
    Orderly log number (t.enter number program) := by
  cases program with
  | skip =>
      refine orderly_of_silent ?_ []
      exact ⟨h.current, h.kept⟩
  | seq first second =>
      refine orderly_of_silent ?_ []
      exact ⟨h.current, h.kept⟩
  | scope ctx body =>
      apply orderly_of_entered
      refine ⟨rfl, h.current, ?_, h.kept.mono (List.subset_cons_self _ _)⟩
      rw [h.current]
      exact List.mem_cons_self
  | throw e =>
      refine orderly_of_silent ?_ []
      exact ⟨h.current, h.kept⟩
  | tryCatch body handler =>
      refine orderly_of_silent ?_ []
      exact ⟨h.current, h.kept⟩
  | current resume =>
      refine orderly_of_silent ?_ []
      exact ⟨h.current, h.kept⟩
  | submit executor fn =>
      refine orderly_of_silent ?_ [⟨executor, executor.wrap fn⟩]
      exact ⟨h.current, h.kept⟩

theorem orderly_leave {ctx : CorrelationContext} {guard : CorrelationScope} {n : Nat}
    {rest : List (ScopeFrame exn)} (hframes : t.frames = .scope ctx guard n :: rest)
    (h : Disciplined log t) (number : Nat) : Orderly log number (t.leave guard n rest) := by
  have hkept := h.kept
  rw [hframes] at hkept
  rcases hkept with ⟨hprevious, hentered, hrest⟩
  rw [← hprevious] at hentered
  exact orderly_of_left ⟨hprevious, hrest⟩ hentered

theorem orderly_finish {executor : ContextAwareExecutor} {interrupted : Control exn} {n : Nat}
    {rest : List (ScopeFrame exn)} (hframes : t.frames = .task executor interrupted n :: rest)
    (h : Disciplined log t) (number : Nat) (control : Control exn) :
    Orderly log number (t.finish control n rest) := by
  have hkept := h.kept
  have hcurrent := h.current
  rw [hframes] at hkept hcurrent
  rcases hkept with ⟨hentered, hrest⟩
  have hsame : t.current = installed rest := hcurrent
  rw [← hsame] at hentered
  exact orderly_of_left ⟨hsame, hrest⟩ hentered

theorem disciplined_of_plain {frame : ScopeFrame exn} {rest : List (ScopeFrame exn)}
    (hframes : t.frames = frame :: rest)
    (hinstalled : installed (frame :: rest) = installed rest)
    (hkept : Kept log (frame :: rest) -> Kept log rest) (h : Disciplined log t)
    (control : Control exn) :
    Disciplined log { current := t.current, control := control, frames := rest } := by
  have hcurrent := h.current
  have hall := h.kept
  rw [hframes] at hcurrent hall
  exact ⟨hcurrent.trans hinstalled, hkept hall⟩

theorem orderly_resume (h : Disciplined log t) (number : Nat) (ha : t.resume = some a) :
    Orderly log number a := by
  unfold ScopeThread.resume at ha
  split at ha
  · cases ha
  · next program rest hframes =>
    cases ha
    exact orderly_of_silent (disciplined_of_plain hframes rfl id h (.run program)) []
  · next handler rest hframes =>
    cases ha
    exact orderly_of_silent (disciplined_of_plain hframes rfl id h t.control) []
  · next ctx guard n rest hframes =>
    cases ha
    exact orderly_leave hframes h number
  · next executor interrupted n rest hframes =>
    cases ha
    exact orderly_finish hframes h number interrupted

theorem orderly_unwind (h : Disciplined log t) (number : Nat) {e : exn}
    (ha : t.unwind e = some a) : Orderly log number a := by
  unfold ScopeThread.unwind at ha
  split at ha
  · cases ha
  · next program rest hframes =>
    cases ha
    exact orderly_of_silent (disciplined_of_plain hframes rfl id h t.control) []
  · next handler rest hframes =>
    cases ha
    exact orderly_of_silent (disciplined_of_plain hframes rfl id h (.run (handler e))) []
  · next ctx guard n rest hframes =>
    cases ha
    exact orderly_leave hframes h number
  · next executor interrupted n rest hframes =>
    cases ha
    exact orderly_finish hframes h number (.thrown e)

theorem orderly_advance (h : Disciplined log t) {number : Nat} (ha : t.advance number = some a) :
    Orderly log number a := by
  unfold ScopeThread.advance at ha
  split at ha
  · next program hcontrol =>
    cases ha
    exact orderly_enter h number program
  · exact orderly_resume h number ha
  · exact orderly_unwind h number ha

theorem orderly_begin (h : Disciplined log t) {number : Nat} {s : Submission exn}
    (ha : t.begin number s = some a) : Orderly log number a := by
  unfold ScopeThread.begin at ha
  split at ha
  · cases ha
  · cases ha
    apply orderly_of_entered
    refine ⟨h.current, ?_, h.kept.mono (List.subset_cons_self _ _)⟩
    rw [h.current]
    exact List.mem_cons_self

theorem orderly_swallow (h : Disciplined log t) (number : Nat) (ha : t.swallow = some a) :
    Orderly log number a := by
  unfold ScopeThread.swallow at ha
  split at ha
  · next e executor interrupted n rest hcontrol hframes =>
    cases ha
    exact orderly_finish hframes h number interrupted
  · cases ha

end Step

/-!
## Snapshots

A task runs in a scope of its own, which its executor put around the function.  So the code
of the function never runs right on the frame of the task, and reads the snapshot.
-/

/-- The context of the innermost block or task around the code that runs.  The scope right
on a task belongs to the task. -/
def innermost : List (ScopeFrame exn) -> CorrelationContext
  | [] => {}
  | .task executor _ _ :: _ => executor.ctx
  | .scope _ _ _ :: .task executor _ _ :: _ => executor.ctx
  | .scope ctx _ _ :: _ => ctx
  | .next _ :: rest => innermost rest
  | .handler _ :: rest => innermost rest

/-- The function of the task has not started, or has ended. -/
def AroundTask : List (ScopeFrame exn) -> Prop
  | .task _ _ _ :: _ => True
  | _ => False

def Control.MayWrap (executor : ContextAwareExecutor) : Control exn -> Prop
  | .run program => exists fn, program = .scope executor.ctx fn
  | .returned => True
  | .thrown _ => True

/-- Right on a task there is nothing but a scope with its snapshot; `onTask` says which
tasks the frames may begin with. -/
def Wrapped (onTask : ContextAwareExecutor -> Prop) : List (ScopeFrame exn) -> Prop
  | [] => True
  | .task executor interrupted _ :: rest =>
      onTask executor ∧ Wrapped (fun outer => interrupted.MayWrap outer) rest
  | .scope ctx _ _ :: rest => Wrapped (fun executor => executor.ctx = ctx) rest
  | .next _ :: rest => Wrapped (fun _ => False) rest
  | .handler _ :: rest => Wrapped (fun _ => False) rest

theorem Wrapped.mono {onTask onTask' : ContextAwareExecutor -> Prop}
    (hweaker : forall executor, onTask executor -> onTask' executor)
    {frames : List (ScopeFrame exn)} (h : Wrapped onTask frames) : Wrapped onTask' frames := by
  cases frames with
  | nil => trivial
  | cons frame rest =>
      cases frame with
      | next program => exact h
      | handler handler => exact h
      | scope ctx guard number => exact h
      | task executor interrupted number => exact ⟨hweaker executor h.left, h.right⟩

theorem installed_eq_innermost {onTask : ContextAwareExecutor -> Prop}
    {frames : List (ScopeFrame exn)} (h : Wrapped onTask frames) (hinside : ¬ AroundTask frames) :
    installed frames = innermost frames := by
  induction frames generalizing onTask with
  | nil => rfl
  | cons frame rest ih =>
      have hno : Wrapped (fun _ => False) rest -> ¬ AroundTask rest := by
        intro hrest
        cases rest with
        | nil => exact id
        | cons inner _ =>
            cases inner with
            | task executor interrupted number => exact absurd hrest.left id
            | _ => exact id
      cases frame with
      | next program => exact ih h (hno h)
      | handler handler => exact ih h (hno h)
      | task executor interrupted number => exact absurd trivial hinside
      | scope ctx guard number =>
          cases rest with
          | nil => rfl
          | cons inner _ =>
              cases inner with
              | task executor interrupted number' => exact h.left.symm
              | _ => rfl

def ScopeThread.TasksWrapped (t : ScopeThread exn) : Prop :=
  Wrapped (fun executor => t.control.MayWrap executor) t.frames

theorem ScopeThread.current_of_wrapped {log : List ScopeEvent} {t : ScopeThread exn}
    (hdisciplined : Disciplined log t) (hwrapped : t.TasksWrapped)
    (hinside : ¬ AroundTask t.frames) : t.current = innermost t.frames :=
  hdisciplined.current.trans (installed_eq_innermost hwrapped hinside)

theorem ScopeThread.not_aroundTask_of_reads {t : ScopeThread exn} (hwrapped : t.TasksWrapped)
    {resume : CorrelationContext -> Program exn} (hcontrol : t.control = .run (.current resume)) :
    ¬ AroundTask t.frames := by
  intro haround
  rw [TasksWrapped, hcontrol] at hwrapped
  cases hframes : t.frames with
  | nil =>
      rw [hframes] at haround
      exact haround
  | cons frame rest =>
      rw [hframes] at haround hwrapped
      cases frame with
      | task executor interrupted number =>
          rcases hwrapped.left with ⟨fn, hfn⟩
          cases hfn
      | _ => exact haround

def Submission.IsWrapped (s : Submission exn) : Prop :=
  exists fn, s.task = .scope s.executor.ctx fn

structure Wrapping (a : Advance exn) : Prop where
  thread : a.thread.TasksWrapped
  submitted : forall s, s ∈ a.submitted -> s.IsWrapped

section Wrapping

variable {t : ScopeThread exn} {a : Advance exn}

theorem wrapping_of_thread {u : ScopeThread exn} (h : u.TasksWrapped)
    (events : List ScopeEvent) : Wrapping { thread := u, events := events } where
  thread := h
  submitted := by
    intro s hs
    cases hs

theorem wrapping_enter {program : Program exn} (hcontrol : t.control = .run program)
    (h : t.TasksWrapped) (number : Nat) : Wrapping (t.enter number program) := by
  rw [ScopeThread.TasksWrapped, hcontrol] at h
  have hplain : (forall ctx body, program ≠ .scope ctx body) ->
      forall onTask, Wrapped onTask t.frames := by
    intro hnot onTask
    apply h.mono
    rintro executor ⟨fn, hfn⟩
    exact absurd hfn (hnot _ _)
  cases program with
  | skip =>
      refine wrapping_of_thread ?_ []
      exact hplain nofun _
  | seq first second =>
      refine wrapping_of_thread ?_ []
      exact hplain nofun _
  | scope ctx body =>
      refine wrapping_of_thread ?_ _
      apply h.mono
      rintro executor ⟨fn, hfn⟩
      cases hfn
      rfl
  | throw e =>
      refine wrapping_of_thread ?_ []
      exact hplain nofun _
  | tryCatch body handler =>
      refine wrapping_of_thread ?_ []
      exact hplain nofun _
  | current resume =>
      refine wrapping_of_thread ?_ []
      exact hplain nofun _
  | submit executor fn =>
      refine ⟨hplain nofun _, ?_⟩
      intro s hs
      cases List.mem_singleton.mp hs
      exact ⟨fn, rfl⟩

theorem wrapped_of_cons {onTask onTask' : ContextAwareExecutor -> Prop} {frame : ScopeFrame exn}
    {rest : List (ScopeFrame exn)} (h : Wrapped onTask (frame :: rest))
    (hends : forall executor, onTask' executor) : Wrapped onTask' rest := by
  cases frame with
  | next program => exact Wrapped.mono (fun executor _ => hends executor) h
  | handler handler => exact Wrapped.mono (fun executor _ => hends executor) h
  | scope ctx guard number => exact Wrapped.mono (fun executor _ => hends executor) h
  | task executor interrupted number => exact h.right.mono (fun executor _ => hends executor)

theorem wrapping_resume (hcontrol : t.control = .returned) (h : t.TasksWrapped)
    (ha : t.resume = some a) : Wrapping a := by
  have hends : forall executor, t.control.MayWrap executor := by
    intro executor
    rw [hcontrol]
    trivial
  unfold ScopeThread.TasksWrapped at h
  unfold ScopeThread.resume at ha
  split at ha
  · cases ha
  · next program rest hframes =>
    cases ha
    rw [hframes] at h
    refine wrapping_of_thread ?_ []
    exact Wrapped.mono (fun executor hfalse => absurd hfalse id) h
  · next handler rest hframes =>
    cases ha
    rw [hframes] at h
    refine wrapping_of_thread ?_ []
    exact wrapped_of_cons h hends
  · next ctx guard n rest hframes =>
    cases ha
    rw [hframes] at h
    refine wrapping_of_thread ?_ _
    exact wrapped_of_cons h hends
  · next executor interrupted n rest hframes =>
    cases ha
    rw [hframes] at h
    refine wrapping_of_thread ?_ _
    exact h.right

theorem wrapping_unwind {e : exn} (hcontrol : t.control = .thrown e) (h : t.TasksWrapped)
    (ha : t.unwind e = some a) : Wrapping a := by
  have hends : forall executor, t.control.MayWrap executor := by
    intro executor
    rw [hcontrol]
    trivial
  unfold ScopeThread.TasksWrapped at h
  unfold ScopeThread.unwind at ha
  split at ha
  · cases ha
  · next program rest hframes =>
    cases ha
    rw [hframes] at h
    refine wrapping_of_thread ?_ []
    exact wrapped_of_cons h hends
  · next handler rest hframes =>
    cases ha
    rw [hframes] at h
    refine wrapping_of_thread ?_ []
    exact Wrapped.mono (fun executor hfalse => absurd hfalse id) h
  · next ctx guard n rest hframes =>
    cases ha
    rw [hframes] at h
    refine wrapping_of_thread ?_ _
    exact wrapped_of_cons h hends
  · next executor interrupted n rest hframes =>
    cases ha
    rw [hframes] at h
    refine wrapping_of_thread ?_ _
    exact wrapped_of_cons h (fun _ => trivial)

theorem wrapping_advance (h : t.TasksWrapped) {number : Nat} (ha : t.advance number = some a) :
    Wrapping a := by
  unfold ScopeThread.advance at ha
  split at ha
  · next program hcontrol =>
    cases ha
    exact wrapping_enter hcontrol h number
  · next hcontrol => exact wrapping_resume hcontrol h ha
  · next e hcontrol => exact wrapping_unwind hcontrol h ha

theorem wrapping_begin (h : t.TasksWrapped) {number : Nat} {s : Submission exn}
    (hs : s.IsWrapped) (ha : t.begin number s = some a) : Wrapping a := by
  unfold ScopeThread.begin at ha
  split at ha
  · cases ha
  · cases ha
    refine wrapping_of_thread ?_ _
    exact ⟨hs, h⟩

theorem wrapping_swallow (h : t.TasksWrapped) (ha : t.swallow = some a) : Wrapping a := by
  unfold ScopeThread.TasksWrapped at h
  unfold ScopeThread.swallow at ha
  split at ha
  · next e executor interrupted n rest hcontrol hframes =>
    cases ha
    rw [hframes] at h
    refine wrapping_of_thread ?_ _
    exact h.right
  · cases ha

end Wrapping

namespace ScopeWorld

variable {thread : Type} [DecidableEq thread]

/-- Every thread is disciplined, numbers are not used twice, and what was left was
entered with the same value. -/
structure Restoring (w : ScopeWorld thread exn) : Prop where
  disciplined : forall th, Disciplined w.log (w.threads th)
  numbered : forall n before, .entered n before ∈ w.log -> n < w.steps
  unique : forall n before before', .entered n before ∈ w.log -> .entered n before' ∈ w.log ->
    before = before'
  left : forall n after, .left n after ∈ w.log -> .entered n after ∈ w.log

omit [DecidableEq thread] in
theorem restoring_start (programs : thread -> Program exn) : Restoring (start programs) where
  disciplined th := ⟨rfl, trivial⟩
  numbered := by
    intro n before hmem
    cases hmem
  unique := by
    intro n before before' hmem
    cases hmem
  left := by
    intro n after hmem
    cases hmem

theorem restoring_record {w : ScopeWorld thread exn} (h : Restoring w) (th : thread)
    {a : Advance exn} (ha : Orderly w.log w.steps a) : Restoring (w.record th a) where
  disciplined th' := by
    by_cases hth : th' = th
    · simp only [record, hth, Function.update_self]
      exact ha.disciplined
    · simp only [record, Function.update_of_ne hth]
      have hother := h.disciplined th'
      exact ⟨hother.current, hother.kept.mono (List.subset_append_right _ _)⟩
  numbered := by
    intro n before hmem
    rcases List.mem_append.mp hmem with hnew | hold
    · rw [ha.entered n before hnew]
      exact Nat.lt_succ_self w.steps
    · exact Nat.lt_succ_of_lt (h.numbered n before hold)
  unique := by
    intro n before before' hmem hmem'
    rcases List.mem_append.mp hmem with hnew | hold
    · rcases List.mem_append.mp hmem' with hnew' | hold'
      · -- at most one event is new
        cases ha.single _ _ hnew hnew'
        rfl
      · have hn := ha.entered n before hnew
        have hlt := h.numbered n before' hold'
        lia
    · rcases List.mem_append.mp hmem' with hnew' | hold'
      · have hn := ha.entered n before' hnew'
        have hlt := h.numbered n before hold
        lia
      · exact h.unique n before before' hold hold'
  left := by
    intro n after hmem
    rcases List.mem_append.mp hmem with hnew | hold
    · exact List.mem_append_right _ (ha.left n after hnew)
    · exact List.mem_append_right _ (h.left n after hold)

theorem restoring_step {w v : ScopeWorld thread exn} {action : ScopeAction thread}
    (h : Restoring w) (hstep : step w action = some v) : Restoring v := by
  cases action with
  | advance th =>
      rcases Option.map_eq_some_iff.mp hstep with ⟨a, ha, rfl⟩
      exact restoring_record h th (orderly_advance (h.disciplined th) ha)
  | begin th index =>
      simp only [step] at hstep
      split at hstep
      · cases hstep
      · rcases Option.map_eq_some_iff.mp hstep with ⟨a, ha, rfl⟩
        have htaken : Restoring { w with pending := w.pending.eraseIdx index } :=
          ⟨h.disciplined, h.numbered, h.unique, h.left⟩
        exact restoring_record htaken th (orderly_begin (h.disciplined th) ha)
  | swallow th =>
      rcases Option.map_eq_some_iff.mp hstep with ⟨a, ha, rfl⟩
      exact restoring_record h th (orderly_swallow (h.disciplined th) w.steps ha)

theorem restoring_of_run {programs : thread -> Program exn} {w : ScopeWorld thread exn}
    {actions : List (ScopeAction thread)} (hrun : run step (start programs) actions = some w) :
    Restoring w := by
  refine invariant_of_run (P := fun _ w => Restoring w) (restoring_start programs) ?_ hrun
  intro _actions m a n _hm hrestoring hstep
  exact restoring_step hrestoring hstep

structure AllWrapped (w : ScopeWorld thread exn) : Prop where
  threads : forall th, (w.threads th).TasksWrapped
  pending : forall s, s ∈ w.pending -> s.IsWrapped

omit [DecidableEq thread] in
theorem allWrapped_start (programs : thread -> Program exn) : AllWrapped (start programs) where
  threads th := trivial
  pending := by
    intro s hs
    cases hs

theorem allWrapped_record {w : ScopeWorld thread exn} (h : AllWrapped w) (th : thread)
    {a : Advance exn} (ha : Wrapping a) : AllWrapped (w.record th a) where
  threads th' := by
    by_cases hth : th' = th
    · simp only [record, hth, Function.update_self]
      exact ha.thread
    · simp only [record, Function.update_of_ne hth]
      exact h.threads th'
  pending := by
    intro s hs
    rcases List.mem_append.mp hs with hold | hnew
    · exact h.pending s hold
    · exact ha.submitted s hnew

theorem allWrapped_step {w v : ScopeWorld thread exn} {action : ScopeAction thread}
    (h : AllWrapped w) (hstep : step w action = some v) : AllWrapped v := by
  cases action with
  | advance th =>
      rcases Option.map_eq_some_iff.mp hstep with ⟨a, ha, rfl⟩
      exact allWrapped_record h th (wrapping_advance (h.threads th) ha)
  | begin th index =>
      simp only [step] at hstep
      split at hstep
      · cases hstep
      · next submission hpending =>
        rcases Option.map_eq_some_iff.mp hstep with ⟨a, ha, rfl⟩
        have htaken : AllWrapped { w with pending := w.pending.eraseIdx index } :=
          ⟨h.threads, fun s hs => h.pending s (List.mem_of_mem_eraseIdx hs)⟩
        have hwrapped := h.pending submission (List.mem_of_getElem? hpending)
        exact allWrapped_record htaken th (wrapping_begin (h.threads th) hwrapped ha)
  | swallow th =>
      rcases Option.map_eq_some_iff.mp hstep with ⟨a, ha, rfl⟩
      exact allWrapped_record h th (wrapping_swallow (h.threads th) ha)

theorem allWrapped_of_run {programs : thread -> Program exn} {w : ScopeWorld thread exn}
    {actions : List (ScopeAction thread)} (hrun : run step (start programs) actions = some w) :
    AllWrapped w := by
  refine invariant_of_run (P := fun _ w => AllWrapped w) (allWrapped_start programs) ?_ hrun
  intro _actions m a n _hm hwrapped hstep
  exact allWrapped_step hwrapped hstep

/--
For all programs of all threads and every interleaving of them with the tasks of
their executors: the current context of a thread is that of the innermost scope or task
snapshot around what it runs, until the wrapper of a task has begun and after it has ended;
no code reads it then.  The value after a block or task is the value before it, however it
was left.
-/
theorem current_is_innermost (programs : thread -> Program exn)
    (actions : List (ScopeAction thread)) (w : ScopeWorld thread exn)
    (hrun : run step (start programs) actions = some w) :
    (forall th, ¬ AroundTask (w.threads th).frames ->
      (w.threads th).current = innermost (w.threads th).frames) ∧
    (forall th resume, (w.threads th).control = .run (.current resume) ->
      (w.threads th).current = innermost (w.threads th).frames) ∧
    forall number after, .left number after ∈ w.log ->
      .entered number after ∈ w.log ∧
        forall before, .entered number before ∈ w.log -> after = before := by
  have hrestoring := restoring_of_run hrun
  have hwrapped := (allWrapped_of_run hrun).threads
  refine ⟨?_, ?_, ?_⟩
  · intro th hinside
    exact (w.threads th).current_of_wrapped (hrestoring.disciplined th) (hwrapped th) hinside
  · intro th resume hreads
    exact (w.threads th).current_of_wrapped (hrestoring.disciplined th) (hwrapped th)
      ((w.threads th).not_aroundTask_of_reads (hwrapped th) hreads)
  · intro number after hleft
    have hentered := hrestoring.left number after hleft
    exact ⟨hentered, fun before hbefore => hrestoring.unique number after before hentered hbefore⟩

def submitter : Program Unit :=
  .scope { tenantId := [1] } (.current fun ctx =>
    .submit (ContextAwareExecutor.fromCurrent ctx) (.current fun _ => .throw ()))

def twoTenants : ScopeWorld Bool Unit :=
  start fun th => if th then .scope { tenantId := [2] } .skip else submitter

def interruption : List (ScopeAction Bool) :=
  [.advance false, .advance false, .advance false, .advance true, .begin true 0, .advance true]

def recovery : List (ScopeAction Bool) :=
  [.advance true, .advance true, .advance true, .swallow true, .advance true, .advance true]

theorem interruptions_restored :
    (exists w, run step twoTenants interruption = some w ∧
      (w.threads true).current = { tenantId := [1] }) ∧
    exists w, run step twoTenants (interruption ++ recovery) = some w ∧
      (w.threads false).current = { tenantId := [1] } ∧ (w.threads true).current = {} ∧
      forall before, .entered 4 before ∈ w.log -> { tenantId := [2] } = before := by
  constructor
  · have hrun : exists w, run step twoTenants interruption = some w := ⟨_, rfl⟩
    rcases hrun with ⟨w, hw⟩
    have hresult := current_is_innermost _ interruption w hw
    cases hw
    exact ⟨_, rfl, hresult.right.left true _ rfl⟩
  · have hrun : exists w, run step twoTenants (interruption ++ recovery) = some w := ⟨_, rfl⟩
    rcases hrun with ⟨w, hw⟩
    have hresult := current_is_innermost _ (interruption ++ recovery) w hw
    cases hw
    refine ⟨_, rfl, hresult.left false id, hresult.left true id, ?_⟩
    exact (hresult.right.right 4 { tenantId := [2] }
      (List.mem_cons_of_mem _ List.mem_cons_self)).right

end ScopeWorld
end Observability
end CppCommons
