import CppCommons.Foundation.LabelledRun

/-!
# In-memory event bus

`publish` stores its event and copies the handlers under the lock, and calls the
copies after it has released the lock, with a reference to the stored event.
Calls of `publish` overlap and nest: a step is a locked section or one end of a
handler's call.  A call of `publish` stands for its event as well.

`clear` destroys the stored events, also those that handlers still refer to.
-/

namespace CppCommons
namespace Testing

open Foundation.LabelledRun

variable {Ty handler callId : Type}

/-- Where a call of `publish` is: the handlers that have returned, the one that runs, and
the copies that are left. -/
inductive PublishPhase (Ty handler : Type) where
  | waiting
  | notifying (type : Ty) (done : List handler) (running : Option handler) (left : List handler)
  | returned (type : Ty) (done : List handler)
  | threw (type : Ty) (done : List handler)

inductive BusAction (Ty handler callId : Type) where
  | subscribe (type : Ty) (h : handler)
  | publish (call : callId) (type : Ty)
  /-- the next handler is called -/
  | enter (call : callId)
  | leave (call : callId)
  /-- the handler throws, and the exception leaves `publish` -/
  | throw (call : callId)
  | ret (call : callId)
  | clear

/-- A handler runs or will run. -/
def PublishPhase.Exposed (t : Ty) (ph : PublishPhase Ty handler) : Prop :=
  exists done running left, ph = .notifying t done running left ∧ (running ≠ none ∨ left ≠ [])

structure InMemoryEventBus (Ty handler callId : Type) where
  handlers : Ty -> List handler := fun _ => []
  published : Ty -> List callId := fun _ => []
  phase : callId -> PublishPhase Ty handler := fun _ => .waiting

namespace InMemoryEventBus

def count (s : InMemoryEventBus Ty handler callId) (t : Ty) : Nat :=
  (s.published t).length

/-- `last<E>()`, which throws if there is none. -/
def last (s : InMemoryEventBus Ty handler callId) (t : Ty) : Except String callId :=
  match (s.published t).getLast? with
  | none => .error "no events of this type published"
  | some event => .ok event

theorem last_eq_ok_iff (s : InMemoryEventBus Ty handler callId) (t : Ty) (event : callId) :
    s.last t = .ok event <-> (s.published t).getLast? = some event := by
  rw [last]
  cases (s.published t).getLast? with
  | none => simp
  | some event' => simp

/-!
## Live events

A handler runs with a reference to its event.  The reference dangles once the event
is no longer stored.
-/

/-- A handler runs with a reference to an event that no longer exists. -/
def Dangles (s : InMemoryEventBus Ty handler callId) : Prop :=
  exists i t done h left, s.phase i = .notifying t done (some h) left ∧ i ∉ s.published t

/-- A `clear` comes when no handler is left to run. -/
def ClearsIdle (s : InMemoryEventBus Ty handler callId) (a : BusAction Ty handler callId) : Prop :=
  a = .clear -> forall i t, ¬ (s.phase i).Exposed t

def Alive (s : InMemoryEventBus Ty handler callId) : Prop :=
  forall i t, (s.phase i).Exposed t -> i ∈ s.published t

theorem Alive.not_dangles {s : InMemoryEventBus Ty handler callId} (h : s.Alive) :
    ¬ s.Dangles := by
  rintro ⟨i, t, done, hd, left, hphase, hgone⟩
  exact hgone (h i t ⟨done, some hd, left, hphase, Or.inl nofun⟩)

/-!
## Steps

The locked sections and the two ends of a handler's call, and everything that one of
them can do.
-/

variable [DecidableEq callId]

def setPhase (s : InMemoryEventBus Ty handler callId) (i : callId)
    (ph : PublishPhase Ty handler) : InMemoryEventBus Ty handler callId :=
  { s with phase := Function.update s.phase i ph }

@[simp] theorem phase_setPhase_self (s : InMemoryEventBus Ty handler callId) (i : callId)
    (ph : PublishPhase Ty handler) : (s.setPhase i ph).phase i = ph := by
  simp [setPhase]

theorem of_phase_setPhase {s : InMemoryEventBus Ty handler callId} {i j : callId}
    {ph : PublishPhase Ty handler} {P : PublishPhase Ty handler -> Prop} (hset : i = j -> P ph)
    (hkept : i ≠ j -> P (s.phase i)) : P ((s.setPhase j ph).phase i) := by
  by_cases hij : i = j
  · subst hij
    rw [phase_setPhase_self]
    exact hset rfl
  · have hphase : (s.setPhase j ph).phase i = s.phase i := by
      simp [setPhase, hij]
    rw [hphase]
    exact hkept hij

variable [DecidableEq Ty]

def step (s : InMemoryEventBus Ty handler callId) :
    BusAction Ty handler callId -> Option (InMemoryEventBus Ty handler callId)
  | .subscribe t h =>
      some { s with handlers := Function.update s.handlers t (s.handlers t ++ [h]) }
  | .publish i t =>
      match s.phase i with
      | .waiting =>
          some ({ s with published := Function.update s.published t (s.published t ++ [i]) }.setPhase
            i (.notifying t [] none (s.handlers t)))
      | _ => none
  | .enter i =>
      match s.phase i with
      | .notifying t done none (h :: left) =>
          some (s.setPhase i (.notifying t done (some h) left))
      | _ => none
  | .leave i =>
      match s.phase i with
      | .notifying t done (some h) left =>
          some (s.setPhase i (.notifying t (done ++ [h]) none left))
      | _ => none
  | .throw i =>
      match s.phase i with
      | .notifying t done (some _) _ => some (s.setPhase i (.threw t done))
      | _ => none
  | .ret i =>
      match s.phase i with
      | .notifying t done none [] => some (s.setPhase i (.returned t done))
      | _ => none
  | .clear => some { s with handlers := fun _ => [], published := fun _ => [] }

inductive Stepped (s : InMemoryEventBus Ty handler callId) :
    BusAction Ty handler callId -> InMemoryEventBus Ty handler callId -> Prop where
  | subscribe (t : Ty) (h : handler) :
      Stepped s (.subscribe t h)
        { s with handlers := Function.update s.handlers t (s.handlers t ++ [h]) }
  | publish {i : callId} (t : Ty) : s.phase i = .waiting ->
      Stepped s (.publish i t)
        ({ s with published := Function.update s.published t (s.published t ++ [i]) }.setPhase
          i (.notifying t [] none (s.handlers t)))
  | enter {i : callId} {t : Ty} {done left : List handler} {h : handler} :
      s.phase i = .notifying t done none (h :: left) ->
      Stepped s (.enter i) (s.setPhase i (.notifying t done (some h) left))
  | leave {i : callId} {t : Ty} {done left : List handler} {h : handler} :
      s.phase i = .notifying t done (some h) left ->
      Stepped s (.leave i) (s.setPhase i (.notifying t (done ++ [h]) none left))
  | throw {i : callId} {t : Ty} {done left : List handler} {h : handler} :
      s.phase i = .notifying t done (some h) left ->
      Stepped s (.throw i) (s.setPhase i (.threw t done))
  | ret {i : callId} {t : Ty} {done : List handler} :
      s.phase i = .notifying t done none [] -> Stepped s (.ret i) (s.setPhase i (.returned t done))
  | clear : Stepped s .clear { s with handlers := fun _ => [], published := fun _ => [] }

theorem stepped_of_step {s s' : InMemoryEventBus Ty handler callId}
    {a : BusAction Ty handler callId} (h : s.step a = some s') : Stepped s a s' := by
  cases a with
  | subscribe t hd =>
      cases h
      exact .subscribe t hd
  | publish i t =>
      simp only [step] at h
      split at h
      · next hphase =>
          cases h
          exact .publish t hphase
      · cases h
  | enter i =>
      simp only [step] at h
      split at h
      · next hphase =>
          cases h
          exact .enter hphase
      · cases h
  | leave i =>
      simp only [step] at h
      split at h
      · next hphase =>
          cases h
          exact .leave hphase
      · cases h
  | throw i =>
      simp only [step] at h
      split at h
      · next hphase =>
          cases h
          exact .throw hphase
      · cases h
  | ret i =>
      simp only [step] at h
      split at h
      · next hphase =>
          cases h
          exact .ret hphase
      · cases h
  | clear =>
      cases h
      exact .clear

/-!
## Histories

What the maps hold, as functions of the actions: the handlers subscribed and the
events published since the last `clear`.
-/

def subscribed (t : Ty) (subs : List handler) : BusAction Ty handler callId -> List handler
  | .subscribe t' h => if t' = t then subs ++ [h] else subs
  | .clear => []
  | _ => subs

/-- The handlers subscribed for a type since the last `clear`. -/
def subscribersAfter (t : Ty) (actions : List (BusAction Ty handler callId)) : List handler :=
  actions.foldl (subscribed t) []

/-- The events of a type after one more action. -/
def stored (t : Ty) (events : List callId) : BusAction Ty handler callId -> List callId
  | .publish i t' => if t' = t then events ++ [i] else events
  | .clear => []
  | _ => events

/-- The events of a type published since the last `clear`. -/
def eventsAfter (t : Ty) (actions : List (BusAction Ty handler callId)) : List callId :=
  actions.foldl (stored t) []

theorem handlers_step {s s' : InMemoryEventBus Ty handler callId}
    {a : BusAction Ty handler callId} (h : s.step a = some s') (t : Ty) :
    s'.handlers t = subscribed t (s.handlers t) a := by
  cases stepped_of_step h with
  | subscribe t' hd =>
      by_cases ht : t' = t
      · subst ht
        simp [subscribed]
      · simp [subscribed, ht, Function.update_of_ne (Ne.symm ht)]
  | _ => rfl

theorem published_step {s s' : InMemoryEventBus Ty handler callId}
    {a : BusAction Ty handler callId} (h : s.step a = some s') (t : Ty) :
    s'.published t = stored t (s.published t) a := by
  cases stepped_of_step h with
  | publish t' _ =>
      by_cases ht : t' = t
      · subst ht
        simp [stored, setPhase]
      · simp [stored, setPhase, ht, Function.update_of_ne (Ne.symm ht)]
  | _ => rfl

theorem handlers_of_run {s : InMemoryEventBus Ty handler callId}
    {actions : List (BusAction Ty handler callId)} (hrun : run step {} actions = some s) (t : Ty) :
    s.handlers t = subscribersAfter t actions := by
  refine invariant_of_run (P := fun actions s => s.handlers t = subscribersAfter t actions)
    rfl ?_ hrun
  intro actions m a n _ ih hstep
  rw [handlers_step hstep, ih, subscribersAfter, subscribersAfter, List.foldl_append]
  rfl

theorem published_of_run {s : InMemoryEventBus Ty handler callId}
    {actions : List (BusAction Ty handler callId)} (hrun : run step {} actions = some s) (t : Ty) :
    s.published t = eventsAfter t actions := by
  refine invariant_of_run (P := fun actions s => s.published t = eventsAfter t actions)
    rfl ?_ hrun
  intro actions m a n _ ih hstep
  rw [published_step hstep, ih, eventsAfter, eventsAfter, List.foldl_append]
  rfl

/-!
## Deliveries

The handlers that were subscribed when an event was stored are called one after the
other, each once; a step of another call does not change how far this one has come.
-/

/-- How far a call has come with its recipients: each of them is called once, in order. -/
inductive Progress (t : Ty) (recipients : List handler) : PublishPhase Ty handler -> Prop where
  | notifying {done left : List handler} {running : Option handler} :
      done ++ (running.toList ++ left) = recipients ->
      Progress t recipients (.notifying t done running left)
  | returned : Progress t recipients (.returned t recipients)
  | threw {done : List handler} {h : handler} {left : List handler} :
      done ++ h :: left = recipients -> Progress t recipients (.threw t done)

theorem progress_step {s s' : InMemoryEventBus Ty handler callId}
    {a : BusAction Ty handler callId} (h : s.step a = some s') {t : Ty}
    {recipients : List handler} {i : callId} (hi : Progress t recipients (s.phase i)) :
    Progress t recipients (s'.phase i) := by
  cases stepped_of_step h with
  | subscribe t' hd => exact hi
  | clear => exact hi
  | publish t' hphase =>
      refine of_phase_setPhase ?_ (fun _ => hi)
      rintro rfl
      rw [hphase] at hi
      cases hi
  | enter hphase =>
      refine of_phase_setPhase ?_ (fun _ => hi)
      rintro rfl
      rw [hphase] at hi
      cases hi with
      | notifying hall => exact .notifying hall
  | leave hphase =>
      refine of_phase_setPhase ?_ (fun _ => hi)
      rintro rfl
      rw [hphase] at hi
      cases hi with
      | notifying hall => exact .notifying (by simpa using hall)
  | throw hphase =>
      refine of_phase_setPhase ?_ (fun _ => hi)
      rintro rfl
      rw [hphase] at hi
      cases hi with
      | notifying hall => exact .threw hall
  | @ret _ _ done hphase =>
      refine of_phase_setPhase ?_ (fun _ => hi)
      rintro rfl
      rw [hphase] at hi
      cases hi with
      | notifying hall =>
          have hdone : done = recipients := by simpa using hall
          rw [hdone]
          exact .returned

theorem progress_of_run {before after : List (BusAction Ty handler callId)} {i : callId} {t : Ty}
    {s : InMemoryEventBus Ty handler callId}
    (hrun : run step {} (before ++ .publish i t :: after) = some s) :
    Progress t (subscribersAfter t before) (s.phase i) := by
  rcases (run_append_eq_some_iff before _).mp hrun with ⟨m, hm, hrest⟩
  rcases (run_cons_eq_some_iff (.publish i t) after).mp hrest with ⟨n, hn, hafter⟩
  have hpublished : Progress t (subscribersAfter t before) (n.phase i) := by
    cases stepped_of_step hn with
    | publish t' hphase =>
        rw [phase_setPhase_self, handlers_of_run hm]
        exact .notifying rfl
  refine invariant_of_run
    (P := fun _ n => Progress t (subscribersAfter t before) (n.phase i)) hpublished ?_ hafter
  intro _ _ _ _ _ ih hstep
  exact progress_step hstep ih

/--
In every run, a published event goes to the handlers subscribed at that moment, to
each of them once and in the order of the subscriptions, whatever is subscribed,
published or cleared meanwhile; a handler that throws ends the delivery.  The stored
events are those since the last `clear`.
-/
theorem eventBus_delivers {actions : List (BusAction Ty handler callId)}
    {s : InMemoryEventBus Ty handler callId} (hrun : run step {} actions = some s) :
    (forall before i t after, actions = before ++ .publish i t :: after ->
      Progress t (subscribersAfter t before) (s.phase i)) ∧
    forall t, s.count t = (eventsAfter t actions).length ∧
      forall event, s.last t = .ok event <-> (eventsAfter t actions).getLast? = some event := by
  constructor
  · intro before i t after hsplit
    rw [hsplit] at hrun
    exact progress_of_run hrun
  · intro t
    rw [← published_of_run hrun]
    exact ⟨rfl, s.last_eq_ok_iff t⟩

def nestedCalls : List (BusAction Unit Bool Bool) :=
  [.subscribe () true, .publish false (), .enter false, .subscribe () false, .publish true (),
    .leave false, .ret false]

theorem nestedCalls_delivered :
    exists s : InMemoryEventBus Unit Bool Bool,
      run step {} nestedCalls = some s ∧ Progress () [true] (s.phase false) ∧
        s.count () = 2 ∧ s.last () = .ok true := by
  have hrun : exists s : InMemoryEventBus Unit Bool Bool, run step {} nestedCalls = some s :=
    ⟨_, rfl⟩
  rcases hrun with ⟨s, hrun⟩
  rcases eventBus_delivers hrun with ⟨hprogress, hstored⟩
  exact ⟨s, hrun, hprogress [.subscribe () true] false () _ rfl, (hstored ()).left,
    ((hstored ()).right true).mpr rfl⟩

/-!
## References

Only a call that is published becomes exposed, so its event is stored until a
`clear`.
-/

theorem exposed_step {s s' : InMemoryEventBus Ty handler callId}
    {a : BusAction Ty handler callId} (h : s.step a = some s') {i : callId} {t : Ty}
    (hi : (s'.phase i).Exposed t) : (s.phase i).Exposed t ∨ a = .publish i t := by
  revert hi
  cases stepped_of_step h with
  | subscribe t' hd => exact Or.inl
  | clear => exact Or.inl
  | publish t' hphase =>
      refine of_phase_setPhase (P := fun ph => ph.Exposed t -> _) ?_ (fun _ => Or.inl)
      rintro rfl ⟨done, running, left, hnotifying, _⟩
      cases hnotifying
      exact Or.inr rfl
  | enter hphase =>
      refine of_phase_setPhase (P := fun ph => ph.Exposed t -> _) ?_ (fun _ => Or.inl)
      rintro rfl ⟨done, running, left, hnotifying, _⟩
      cases hnotifying
      exact Or.inl ⟨_, _, _, hphase, Or.inr nofun⟩
  | leave hphase =>
      refine of_phase_setPhase (P := fun ph => ph.Exposed t -> _) ?_ (fun _ => Or.inl)
      rintro rfl ⟨done, running, left, hnotifying, _⟩
      cases hnotifying
      exact Or.inl ⟨_, _, _, hphase, Or.inl nofun⟩
  | throw hphase =>
      refine of_phase_setPhase (P := fun ph => ph.Exposed t -> _) ?_ (fun _ => Or.inl)
      rintro rfl ⟨done, running, left, hnotifying, _⟩
      cases hnotifying
  | ret hphase =>
      refine of_phase_setPhase (P := fun ph => ph.Exposed t -> _) ?_ (fun _ => Or.inl)
      rintro rfl ⟨done, running, left, hnotifying, _⟩
      cases hnotifying

theorem alive_step {s s' : InMemoryEventBus Ty handler callId} {a : BusAction Ty handler callId}
    (hs : s.Alive) (hidle : s.ClearsIdle a) (h : s.step a = some s') : s'.Alive := by
  intro i t hi
  rw [published_step h]
  rcases exposed_step h hi with hold | rfl
  · have hmem := hs i t hold
    cases a with
    | clear => exact absurd hold (hidle rfl i t)
    | publish j t' =>
        simp only [stored]
        split
        · exact List.mem_append_left _ hmem
        · exact hmem
    | _ => exact hmem
  · simp [stored]

theorem alive_of_run {s : InMemoryEventBus Ty handler callId}
    {actions : List (BusAction Ty handler callId)} (hrun : run step {} actions = some s)
    (hidle : StepsMeet step ClearsIdle {} actions) : s.Alive := by
  refine invariant_of_stepsMeet (P := fun _ s => s.Alive) ?_ ?_ hidle hrun
  · rintro i t ⟨done, running, left, hnotifying, _⟩
    cases hnotifying
  · intro _ m a n _ hm hok hstep
    exact alive_step hm hok hstep

/-- After a `clear` with a call exposed, the running handler dangles, or the next one does
as soon as it is called. -/
theorem dangles_of_clear {s : InMemoryEventBus Ty handler callId} {i : callId} {t : Ty}
    (hi : (s.phase i).Exposed t) {s' : InMemoryEventBus Ty handler callId}
    (h : s.step .clear = some s') :
    s'.Dangles ∨ exists n, s'.step (.enter i) = some n ∧ n.Dangles := by
  rcases hi with ⟨done, running, left, hphase, hexposed⟩
  cases h
  cases running with
  | some hd => exact Or.inl ⟨i, t, done, hd, left, hphase, List.not_mem_nil⟩
  | none =>
      cases left with
      | nil => exact absurd rfl (hexposed.resolve_left (not_not_intro rfl))
      | cons hd left =>
          let cleared : InMemoryEventBus Ty handler callId :=
            { s with handlers := fun _ => [], published := fun _ => [] }
          have henter : cleared.step (.enter i) =
              some (cleared.setPhase i (.notifying t done (some hd) left)) := by
            simp only [step, cleared, hphase]
          exact Or.inr ⟨_, henter, i, t, done, hd, left, phase_setPhase_self _ _ _,
            List.not_mem_nil⟩

/-- No handler is ever called with, or left with, a reference to a destroyed event, in a run
and in one more step of it, exactly if every `clear` comes when no handler is left to run. -/
theorem eventBus_references {actions : List (BusAction Ty handler callId)}
    {s : InMemoryEventBus Ty handler callId} (hrun : run step {} actions = some s) :
    StepsMeet step ClearsIdle {} actions <->
      forall before after m, actions = before ++ after -> run step {} before = some m ->
        ¬ m.Dangles ∧ forall i n, m.step (.enter i) = some n -> ¬ n.Dangles := by
  constructor
  · intro hidle before after m hsplit hm
    rw [hsplit] at hidle
    have halive := alive_of_run hm (stepsMeet_of_append hidle)
    refine ⟨halive.not_dangles, ?_⟩
    intro i n hn
    have hidle' : m.ClearsIdle (.enter i) := by
      intro hclear
      cases hclear
    exact (alive_step halive hidle' hn).not_dangles
  · intro hsafe
    by_contra hnot
    rcases exists_first_violation hrun hnot with ⟨before, a, after, m, hsplit, hm, _, hbad⟩
    simp only [ClearsIdle, not_forall, not_not] at hbad
    rcases hbad with ⟨rfl, i, t, hexposed⟩
    have hclear : run step {} (before ++ [.clear]) =
        some { m with handlers := fun _ => [], published := fun _ => [] } :=
      (run_concat_eq_some_iff before .clear).mpr ⟨m, hm, rfl⟩
    rcases hsafe (before ++ [.clear]) after _ (by simp [hsplit]) hclear with ⟨hnow, hnext⟩
    rcases dangles_of_clear hexposed rfl with hdangles | ⟨n, hn, hdangles⟩
    · exact hnow hdangles
    · exact hnext i n hn hdangles

def earlyClear : List (BusAction Unit Bool Bool) :=
  [.subscribe () true, .publish false (), .enter false, .clear]

theorem earlyClear_not_idle :
    exists s : InMemoryEventBus Unit Bool Bool, run step {} earlyClear = some s ∧ s.Dangles ∧
      ¬ StepsMeet step ClearsIdle {} earlyClear := by
  have hrun : exists s : InMemoryEventBus Unit Bool Bool,
      run step {} earlyClear = some s ∧ s.Dangles :=
    ⟨_, rfl, false, (), [], true, [], rfl, List.not_mem_nil⟩
  rcases hrun with ⟨s, hrun, hdangles⟩
  refine ⟨s, hrun, hdangles, ?_⟩
  intro hidle
  exact ((eventBus_references hrun).mp hidle earlyClear [] s (by simp) hrun).left hdangles

end InMemoryEventBus

end Testing
end CppCommons
