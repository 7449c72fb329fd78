import CppCommons.Foundation.LabelledRun

/-!
# Config watcher

The Linux build of `ConfigWatcher`: the owner calls `start`, `stop` and at last
the destructor, while a watch thread runs `watch_loop`.  A step is one access to
the shared members; the results of the system calls are part of the actions, so
the watch thread may leave at any of its exits.

`std::terminate` is reached when a joinable `thread_` is assigned over or
destroyed.
-/

namespace CppCommons
namespace Config

open Foundation.LabelledRun

inductive WatchPoint where
  | initializing
  | adding
  | testing
  | polling
  | closing
  | storing
  | ended
deriving DecidableEq

inductive PollResult where
  | timeout
  | readError
  | events

/-- A step of a watch thread; `init none` and `addWatch false` are failures. -/
inductive WatchEvent where
  | init (fd : Option Nat)
  | addWatch (added : Bool)
  | test
  | poll (result : PollResult)
  | close
  | store

inductive OwnerPoint where
  | idle
  | spawning
  | assigning (watcher : Nat)
  | closing (destructor : Bool)
  | joining (destructor : Bool)
  | destroying
  | destroyed
deriving DecidableEq

inductive WatcherAction where
  | start
  | spawn
  | assign
  | stop
  | destruct
  | close
  | join
  | destroy
  | watch (watcher : Nat) (event : WatchEvent)

/-- The members, the watch threads in the order of their creation, and the owner. -/
structure ConfigWatcher where
  running : Bool := false
  /-- `none` for -1 -/
  inotifyFd : Option Nat := none
  /-- the watch thread that a joinable `thread_` stands for -/
  thread : Option Nat := none
  watchers : List WatchPoint := []
  owner : OwnerPoint := .idle
  terminated : Bool := false
deriving DecidableEq

namespace ConfigWatcher

def afterStop (destructor : Bool) : OwnerPoint :=
  if destructor then .destroying else .idle

def beginStop (s : ConfigWatcher) (destructor : Bool) : ConfigWatcher :=
  if !s.running then { s with running := false, owner := afterStop destructor }
  else { s with running := false, owner := .closing destructor }

def watchLoop (s : ConfigWatcher) : WatchPoint -> WatchEvent -> Option (ConfigWatcher × WatchPoint)
  | .initializing, .init fd =>
      some ({ s with inotifyFd := fd }, if fd.isSome then .adding else .storing)
  | .adding, .addWatch added => some (s, if added then .testing else .closing)
  | .testing, .test => some (s, if s.running then .polling else .closing)
  | .polling, .poll .timeout => some (s, .testing)
  | .polling, .poll .readError => some (s, .closing)
  | .polling, .poll .events => some (s, .testing)
  | .closing, .close => some ({ s with inotifyFd := none }, .storing)
  | .storing, .store => some ({ s with running := false }, .ended)
  | _, _ => none

def act (s : ConfigWatcher) (a : WatcherAction) : Option ConfigWatcher :=
  match a, s.owner with
  | .start, .idle =>
      if s.running then some s else some { s with running := true, owner := .spawning }
  | .spawn, .spawning =>
      some { s with
        watchers := s.watchers ++ [.initializing]
        owner := .assigning s.watchers.length }
  | .assign, .assigning watcher =>
      if s.thread.isSome then some { s with terminated := true }
      else some { s with thread := some watcher, owner := .idle }
  | .stop, .idle => some (s.beginStop false)
  | .destruct, .idle => some (s.beginStop true)
  | .close, .closing destructor =>
      some { s with inotifyFd := none, owner := .joining destructor }
  | .join, .joining destructor =>
      match s.thread with
      | none => some { s with owner := afterStop destructor }
      | some watcher =>
          -- join returns only when the watch thread has ended
          if s.watchers[watcher]? = some .ended then
            some { s with thread := none, owner := afterStop destructor }
          else none
  | .destroy, .destroying =>
      if s.thread.isSome then some { s with terminated := true }
      else some { s with owner := .destroyed }
  | .watch watcher event, _ =>
      match s.watchers[watcher]? with
      | none => none
      | some point =>
          (s.watchLoop point event).map (fun moved =>
            { moved.fst with watchers := moved.fst.watchers.set watcher moved.snd })
  | _, _ => none

/-- Nothing happens after `std::terminate`. -/
def step (s : ConfigWatcher) (a : WatcherAction) : Option ConfigWatcher :=
  if s.terminated then none else s.act a

/-- A watch thread stores `false` in `running_` only after `stop` has done so. -/
def storesAfterStop (s : ConfigWatcher) : WatcherAction -> Prop
  | .watch _ .store => s.running = false
  | _ => True

/-- The destructor is through, or the program has ended before. -/
def Over (s : ConfigWatcher) : Prop :=
  s.owner = .destroyed ∨ s.terminated = true

/-!
## What a step can do

A watch thread touches none of the owner's members, and `running_` only where it
stores.  `Stepped` lists what every other action does.
-/

structure Watched (s : ConfigWatcher) (event : WatchEvent) (t : ConfigWatcher) : Prop where
  thread : t.thread = s.thread
  owner : t.owner = s.owner
  terminated : t.terminated = s.terminated
  running : (event = .store ∧ t.running = false) ∨ (event ≠ .store ∧ t.running = s.running)

theorem watched_of_watchLoop {s : ConfigWatcher} {point : WatchPoint} {event : WatchEvent}
    {moved : ConfigWatcher × WatchPoint} (h : s.watchLoop point event = some moved) :
    Watched s event moved.fst := by
  unfold watchLoop at h
  split at h <;> cases h <;> constructor <;> simp

def stopCall (destructor : Bool) : WatcherAction :=
  if destructor then .destruct else .stop

inductive Stepped (s : ConfigWatcher) : WatcherAction -> ConfigWatcher -> Prop where
  | startReturned : s.owner = .idle -> s.running = true -> Stepped s .start s
  | started : s.owner = .idle -> s.running = false ->
      Stepped s .start { s with running := true, owner := .spawning }
  | spawned : s.owner = .spawning ->
      Stepped s .spawn { s with
        watchers := s.watchers ++ [.initializing]
        owner := .assigning s.watchers.length }
  | assigned {watcher : Nat} : s.owner = .assigning watcher -> s.thread = none ->
      Stepped s .assign { s with thread := some watcher, owner := .idle }
  | assignedOver {watcher : Nat} : s.owner = .assigning watcher -> s.thread.isSome = true ->
      Stepped s .assign { s with terminated := true }
  | stopReturned {a : WatcherAction} (destructor : Bool) : a = stopCall destructor ->
      s.owner = .idle -> s.running = false ->
      Stepped s a { s with owner := afterStop destructor }
  | stopping {a : WatcherAction} (destructor : Bool) : a = stopCall destructor ->
      s.owner = .idle -> s.running = true ->
      Stepped s a { s with running := false, owner := .closing destructor }
  | closed {destructor : Bool} : s.owner = .closing destructor ->
      Stepped s .close { s with inotifyFd := none, owner := .joining destructor }
  | joined {destructor : Bool} : s.owner = .joining destructor ->
      Stepped s .join { s with thread := none, owner := afterStop destructor }
  | destroyed : s.owner = .destroying -> s.thread = none ->
      Stepped s .destroy { s with owner := .destroyed }
  | destroyedJoinable : s.owner = .destroying -> s.thread.isSome = true ->
      Stepped s .destroy { s with terminated := true }
  | watched {watcher : Nat} {event : WatchEvent} {t : ConfigWatcher} : Watched s event t ->
      Stepped s (.watch watcher event) t

theorem stepped_beginStop {s : ConfigWatcher} (destructor : Bool) (howner : s.owner = .idle) :
    Stepped s (stopCall destructor) (s.beginStop destructor) := by
  unfold beginStop
  cases hrunning : s.running with
  | false =>
      have hreturn : { s with running := false, owner := afterStop destructor } =
          { s with owner := afterStop destructor } := by rw [← hrunning]
      simp only [Bool.not_false, if_true, hreturn]
      exact .stopReturned destructor rfl howner hrunning
  | true =>
      simp only [Bool.not_true, Bool.false_eq_true, if_false]
      exact .stopping destructor rfl howner hrunning

theorem stepped_of_act {s t : ConfigWatcher} {a : WatcherAction} (h : s.act a = some t) :
    Stepped s a t := by
  unfold act at h
  split at h
  · next howner =>
      split_ifs at h with hrunning
      · cases h
        exact .startReturned howner hrunning
      · cases h
        exact .started howner (by simpa using hrunning)
  · next howner =>
      cases h
      exact .spawned howner
  · next watcher howner =>
      split_ifs at h with hthread
      · cases h
        exact .assignedOver howner hthread
      · cases h
        exact .assigned howner (by simpa using hthread)
  · next howner =>
      cases h
      exact stepped_beginStop false howner
  · next howner =>
      cases h
      exact stepped_beginStop true howner
  · next destructor howner =>
      cases h
      exact .closed howner
  · next destructor howner =>
      split at h
      · next hthread =>
          cases h
          have hjoined := Stepped.joined howner
          rwa [← hthread] at hjoined
      · split_ifs at h
        cases h
        exact .joined howner
  · next howner =>
      split_ifs at h with hthread
      · cases h
        exact .destroyedJoinable howner hthread
      · cases h
        exact .destroyed howner (by simpa using hthread)
  · next watcher event =>
      split at h
      · cases h
      · rcases Option.map_eq_some_iff.mp h with ⟨moved, hmoved, ht⟩
        have hwatched := watched_of_watchLoop hmoved
        rw [← ht]
        exact .watched ⟨hwatched.thread, hwatched.owner, hwatched.terminated, hwatched.running⟩
  · cases h

theorem stepped_of_step {s t : ConfigWatcher} {a : WatcherAction} (h : s.step a = some t) :
    s.terminated = false ∧ Stepped s a t := by
  unfold step at h
  split_ifs at h with hterminated
  exact ⟨by simpa using hterminated, stepped_of_act h⟩

/-!
## Runs in which every store comes after `stop`

`thread_` is joinable exactly while a call of `stop` would join it.  This is kept as
long as the watch thread stores only after a `stop`.
-/

structure Tidy (s : ConfigWatcher) : Prop where
  alive : s.terminated = false
  idle : s.owner = .idle -> s.thread.isSome = s.running
  spawning : s.owner = .spawning -> s.running = true ∧ s.thread = none
  assigning : forall watcher, s.owner = .assigning watcher -> s.running = true ∧ s.thread = none
  closing : forall destructor, s.owner = .closing destructor -> s.running = false
  joining : forall destructor, s.owner = .joining destructor -> s.running = false
  destroying : s.owner = .destroying -> s.running = false ∧ s.thread = none
  destroyed : s.owner = .destroyed -> s.running = false ∧ s.thread = none

theorem tidy_start : Tidy {} := by
  constructor <;> simp

theorem tidy_step {s t : ConfigWatcher} {a : WatcherAction} (hs : Tidy s)
    (hok : s.storesAfterStop a) (h : s.step a = some t) : Tidy t := by
  have halive := hs.alive
  cases (stepped_of_step h).right with
  | startReturned howner hrunning => exact hs
  | started howner hrunning =>
      have hthread := hs.idle howner
      rw [hrunning] at hthread
      constructor <;> simp_all
  | spawned howner =>
      have hnew := hs.spawning howner
      constructor <;> simp_all
  | assigned howner hthread =>
      have hnew := hs.assigning _ howner
      constructor <;> simp_all
  | assignedOver howner hthread =>
      rw [(hs.assigning _ howner).right] at hthread
      cases hthread
  | stopReturned destructor _ howner hrunning =>
      have hthread := hs.idle howner
      rw [hrunning] at hthread
      cases destructor <;> constructor <;> simp_all [afterStop]
  | stopping destructor _ howner hrunning => constructor <;> simp_all
  | closed howner =>
      have hstopped := hs.closing _ howner
      constructor <;> simp_all
  | @joined destructor howner =>
      have hstopped := hs.joining _ howner
      cases destructor <;> constructor <;> simp_all [afterStop]
  | destroyed howner hthread =>
      have hstopped := hs.destroying howner
      constructor <;> simp_all
  | destroyedJoinable howner hthread =>
      rw [(hs.destroying howner).right] at hthread
      cases hthread
  | @watched watcher event _ hwatched =>
      have hrunning : t.running = s.running := by
        rcases hwatched.running with ⟨hstore, hfalse⟩ | ⟨_, hkept⟩
        · rw [hstore] at hok
          rw [hfalse, hok]
        · exact hkept
      constructor <;> simp only [hwatched.thread, hwatched.owner, hwatched.terminated, hrunning]
      · exact hs.alive
      · exact hs.idle
      · exact hs.spawning
      · exact hs.assigning
      · exact hs.closing
      · exact hs.joining
      · exact hs.destroying
      · exact hs.destroyed

theorem tidy_of_stepsMeet {actions : List WatcherAction} {t : ConfigWatcher}
    (hok : StepsMeet step storesAfterStop {} actions) (hrun : run step {} actions = some t) :
    Tidy t := by
  apply invariant_of_stepsMeet (P := fun _ s => Tidy s) tidy_start ?_ hok hrun
  intro _ m a n _ hm ha hstep
  exact tidy_step hm ha hstep

/-!
## A store while `running_` is still set

From then on no call of `stop` joins the thread, and both ways on, a new start
and the destructor, meet a joinable `thread_`.
-/

/-- `thread_` is joinable, or about to be, and `stop` would not join it. -/
def Doomed (s : ConfigWatcher) : Prop :=
  s.terminated = true ∨
    match s.owner with
    | .idle | .destroying => s.running = false ∧ s.thread.isSome = true
    | .spawning | .assigning _ => s.running = false ∨ s.thread.isSome = true
    | _ => False

theorem doomed_of_store {s t : ConfigWatcher} {watcher : Nat} (hs : Tidy s)
    (hrunning : s.running = true) (h : s.step (.watch watcher .store) = some t) : Doomed t := by
  cases (stepped_of_step h).right with
  | stopReturned destructor hcall => cases destructor <;> cases hcall
  | stopping destructor hcall => cases destructor <;> cases hcall
  | watched hwatched =>
      have hstored : t.running = false := by
        rcases hwatched.running with ⟨_, hfalse⟩ | ⟨hne, _⟩
        · exact hfalse
        · exact absurd rfl hne
      refine Or.inr ?_
      rw [hwatched.owner, hwatched.thread, hstored]
      cases howner : s.owner with
      | idle =>
          have hthread := hs.idle howner
          rw [hrunning] at hthread
          exact ⟨rfl, hthread⟩
      | spawning => exact Or.inl rfl
      | assigning watcher => exact Or.inl rfl
      | closing destructor =>
          rw [hs.closing destructor howner] at hrunning
          cases hrunning
      | joining destructor =>
          rw [hs.joining destructor howner] at hrunning
          cases hrunning
      | destroying =>
          rw [(hs.destroying howner).left] at hrunning
          cases hrunning
      | destroyed =>
          rw [(hs.destroyed howner).left] at hrunning
          cases hrunning

theorem doomed_step {s t : ConfigWatcher} {a : WatcherAction} (hs : Doomed s)
    (h : s.step a = some t) : Doomed t := by
  rcases stepped_of_step h with ⟨halive, hstepped⟩
  rcases hs with hterminated | hs
  · rw [halive] at hterminated
    cases hterminated
  cases hstepped with
  | startReturned howner hrunning => simp_all
  | started howner hrunning => exact Or.inr (by simp_all)
  | spawned howner => exact Or.inr (by simp_all)
  | assigned howner hthread => exact Or.inr (by simp_all)
  | assignedOver howner hthread => exact Or.inl rfl
  | stopReturned destructor _ howner hrunning =>
      refine Or.inr ?_
      cases destructor <;> simp_all [afterStop]
  | stopping destructor _ howner hrunning => simp_all
  | closed howner => simp_all
  | joined howner => simp_all
  | destroyed howner hthread => simp_all
  | destroyedJoinable howner hthread => exact Or.inl rfl
  | watched hwatched =>
      refine Or.inr ?_
      rw [hwatched.owner, hwatched.thread]
      rcases hwatched.running with ⟨_, hfalse⟩ | ⟨_, hkept⟩
      · rw [hfalse]
        cases howner : s.owner <;> simp_all
      · rw [hkept]
        exact hs

theorem doomed_of_run {s t : ConfigWatcher} {actions : List WatcherAction} (hs : Doomed s)
    (hrun : run step s actions = some t) : Doomed t := by
  apply invariant_of_run (P := fun _ s => Doomed s) hs ?_ hrun
  intro _ m a n _ hm hstep
  exact doomed_step hm hstep

theorem terminated_of_not_stepsMeet {actions : List WatcherAction} {t : ConfigWatcher}
    (hrun : run step {} actions = some t) (hover : t.Over)
    (h : ¬ StepsMeet step storesAfterStop {} actions) : t.terminated = true := by
  rcases exists_first_violation hrun h with ⟨before, a, after, m, hsplit, hm, hbefore, hnot⟩
  have htidy := tidy_of_stepsMeet hbefore hm
  rw [hsplit] at hrun
  rcases (run_append_eq_some_iff before (a :: after)).mp hrun with ⟨m', hm', hrest⟩
  rw [hm] at hm'
  cases hm'
  rcases (run_cons_eq_some_iff a after).mp hrest with ⟨n, hstep, hafter⟩
  have hdoomed : Doomed n := by
    cases a with
    | watch watcher event =>
        cases event with
        | store => exact doomed_of_store htidy (by simpa [storesAfterStop] using hnot) hstep
        | _ => exact absurd trivial hnot
    | _ => exact absurd trivial hnot
  rcases doomed_of_run hdoomed hafter with hterminated | howner
  · exact hterminated
  · rcases hover with hdestroyed | hterminated
    · rw [hdestroyed] at howner
      exact howner.elim
    · exact hterminated

/--
No run in which the watch thread stores `false` only after `stop` did reaches
`std::terminate`, and a run through the destructor avoids it in no other case.
-/
theorem terminate_avoided_iff (actions : List WatcherAction) (t : ConfigWatcher)
    (hrun : run step {} actions = some t) :
    (StepsMeet step storesAfterStop {} actions -> t.terminated = false) ∧
      (t.Over -> (t.terminated = false <-> StepsMeet step storesAfterStop {} actions)) := by
  have hsafe : StepsMeet step storesAfterStop {} actions -> t.terminated = false := by
    intro hok
    exact (tidy_of_stepsMeet hok hrun).alive
  refine ⟨hsafe, ?_⟩
  intro hover
  constructor
  · intro halive
    by_contra hnot
    rw [terminated_of_not_stepsMeet hrun hover hnot] at halive
    cases halive
  · exact hsafe

def missingFile : List WatcherAction :=
  [.start, .spawn, .assign, .watch 0 (.init (some 3)), .watch 0 (.addWatch false),
    .watch 0 .close, .watch 0 .store, .destruct, .destroy]

theorem missingFile_terminates :
    (run step {} missingFile).map ConfigWatcher.terminated = some true := by
  decide

def watchedFile : List WatcherAction :=
  [.start, .spawn, .assign, .watch 0 (.init (some 3)), .watch 0 (.addWatch true),
    .watch 0 .test, .watch 0 (.poll .timeout), .destruct, .close, .watch 0 .test,
    .watch 0 .close, .watch 0 .store, .join, .destroy]

def watchedFileEnd : ConfigWatcher where
  watchers := [.ended]
  owner := .destroyed

theorem watchedFile_avoids_terminate :
    run step {} watchedFile = some watchedFileEnd ∧
      StepsMeet step storesAfterStop {} watchedFile := by
  have hrun : run step {} watchedFile = some watchedFileEnd := by decide
  refine ⟨hrun, ?_⟩
  exact ((terminate_avoided_iff watchedFile watchedFileEnd hrun).right (Or.inl rfl)).mp rfl

end ConfigWatcher

end Config
end CppCommons
