import CppCommons.Observability.SharedMetrics

/-!
# Metrics under any interleaving

Every cell, and the map of histograms, behaves as in the sequential model when
the calls are taken in the order of their effects, and each call of a thread takes
effect once: a reset stores a zero in every cell there is when it takes the lock, and a
render loads every such cell.  The metrics as a whole are not sequential: a reset stores its zeros
one after the other, and other threads may update cells in between.
-/

namespace CppCommons
namespace Observability

open Cxx
open Foundation.LabelledRun

/-!
## The sequential view

For one cell, and for the histograms, the log is a list of calls.
-/

section Sequential

variable {thread : Type}

namespace MetricsEvent

def cellCall (kind : CellKind) (name : Bytes) : MetricsEvent thread -> Option MetricsCall
  | updated _ u => if u.kind = kind ∧ u.name = name then some u.call else none
  | zeroed _ kind' name' => if kind' = kind ∧ name' = name then some .reset else none
  | _ => none

def adds (name : Bytes) : MetricsEvent thread -> Bool
  | updated _ (.fetchAdd name') => name' = name
  | _ => false

def histogramCall : MetricsEvent thread -> Option MetricsCall
  | observed _ name value => some (.histogram name value)
  | cleared _ => some .reset
  | _ => none

def author : MetricsEvent thread -> Option thread
  | created _ _ => none
  | locked th _ | updated th _ | zeroed th _ _ | loaded th _ _ _ => some th
  | observed th _ _ | cleared th | scraped th _ => some th

end MetricsEvent

open PrometheusMetrics

def cellAfter (kind : CellKind) (name : Bytes) (log : List (MetricsEvent thread)) : UInt64 :=
  (((after (log.filterMap (MetricsEvent.cellCall kind name))).cells kind).lookup name).getD 0

def histogramsAfter (log : List (MetricsEvent thread)) : StringMap Histogram :=
  (after (log.filterMap MetricsEvent.histogramCall)).histograms

theorem lookup_cells_call (m : PrometheusMetrics) (u : CellUpdate) :
    (((m.perform u.call).cells u.kind).lookup u.name).getD 0 =
      u.apply (((m.cells u.kind).lookup u.name).getD 0) := by
  cases u with
  | fetchAdd name =>
      have hadded : (fetchAdd (ensure m.counters name) name 1).lookup name =
          some ((m.counters.lookup name).getD 0 + 1) := lookup_fetchAdd_ensure _ name 1
      exact congrArg (fun found => found.getD 0) hadded
  | store name bits =>
      have hstored : ((ensure m.gauges name).insert name bits).lookup name = some bits :=
        Finmap.lookup_insert _
      exact congrArg (fun found => found.getD 0) hstored

theorem lookup_cells_reset (m : PrometheusMetrics) (kind : CellKind) (name : Bytes) :
    (((m.perform .reset).cells kind).lookup name).getD 0 = 0 := by
  have hzero : ((m.perform .reset).cells kind).lookup name =
      ((m.cells kind).lookup name).map fun _ => 0 := by
    cases kind with
    | counter => exact lookup_storeAll _ 0 name
    | gauge => exact lookup_storeAll _ 0 name
  rw [hzero]
  cases (m.cells kind).lookup name <;> rfl

theorem filterMap_concat_none {A B : Type} {f : A -> Option B} {a : A} (h : f a = none)
    (l : List A) : (l ++ [a]).filterMap f = l.filterMap f := by
  simp [h]

theorem filterMap_concat_some {A B : Type} {f : A -> Option B} {a : A} {b : B} (h : f a = some b)
    (l : List A) : (l ++ [a]).filterMap f = l.filterMap f ++ [b] := by
  simp [h]

theorem cellAfter_concat_none {kind : CellKind} {name : Bytes} {e : MetricsEvent thread}
    (h : e.cellCall kind name = none) (log : List (MetricsEvent thread)) :
    cellAfter kind name (log ++ [e]) = cellAfter kind name log := by
  rw [cellAfter, filterMap_concat_none h, cellAfter]

theorem cellAfter_updated (log : List (MetricsEvent thread)) (th : thread) (u : CellUpdate) :
    cellAfter u.kind u.name (log ++ [.updated th u]) = u.apply (cellAfter u.kind u.name log) := by
  have hcall : (MetricsEvent.updated th u).cellCall u.kind u.name = some u.call := by
    simp [MetricsEvent.cellCall]
  rw [cellAfter, filterMap_concat_some hcall, after_concat, lookup_cells_call, cellAfter]

theorem cellAfter_zeroed (log : List (MetricsEvent thread)) (th : thread) (kind : CellKind)
    (name : Bytes) : cellAfter kind name (log ++ [.zeroed th kind name]) = 0 := by
  have hcall : (MetricsEvent.zeroed th kind name).cellCall kind name = some .reset := by
    simp [MetricsEvent.cellCall]
  rw [cellAfter, filterMap_concat_some hcall, after_concat, lookup_cells_reset]

theorem cellCall_counter {e : MetricsEvent thread} {name : Bytes}
    (h : forall th, e ≠ .zeroed th .counter name) :
    e.cellCall .counter name = some (.increment name) ∧ e.adds name = true ∨
      e.cellCall .counter name = none ∧ e.adds name = false := by
  cases e with
  | updated th u =>
      cases u with
      | fetchAdd name' =>
          by_cases hname : name' = name
          · left
            simp [MetricsEvent.cellCall, MetricsEvent.adds, CellUpdate.kind, CellUpdate.name,
              CellUpdate.call, hname]
          · right
            simp [MetricsEvent.cellCall, MetricsEvent.adds, CellUpdate.name, hname]
      | store name' bits =>
          right
          simp [MetricsEvent.cellCall, MetricsEvent.adds, CellUpdate.kind]
  | zeroed th kind name' =>
      right
      have hother : ¬ (kind = .counter ∧ name' = name) := by
        rintro ⟨rfl, rfl⟩
        exact h th rfl
      exact ⟨if_neg hother, rfl⟩
  | _ => exact .inr ⟨rfl, rfl⟩

theorem cellAfter_counter {log : List (MetricsEvent thread)} {name : Bytes}
    (h : forall th, .zeroed th .counter name ∉ log) :
    cellAfter .counter name log = UInt64.ofNat (log.countP (MetricsEvent.adds name)) := by
  have hcalls : log.filterMap (MetricsEvent.cellCall .counter name) =
      List.replicate (log.countP (MetricsEvent.adds name)) (.increment name) := by
    induction log with
    | nil => rfl
    | cons e log ih =>
        have hrest := ih (fun th hmem => h th (List.mem_cons_of_mem e hmem))
        have hfirst : forall th, e ≠ .zeroed th .counter name :=
          fun th he => h th (he ▸ List.mem_cons_self)
        rcases cellCall_counter hfirst with ⟨hcall, hadds⟩ | ⟨hcall, hadds⟩
        · rw [List.filterMap_cons_some hcall, List.countP_cons_of_pos hadds, hrest,
            List.replicate_succ]
        · rw [List.filterMap_cons_none hcall,
            List.countP_cons_of_neg (Bool.eq_false_iff.mp hadds), hrest]
  have hincrements : forall n, increments name (List.replicate n (.increment name)) = n := by
    intro n
    have hall : sinceReset (List.replicate n (.increment name)) =
        List.replicate n (.increment name) := by
      refine List.rtakeWhile_eq_self_iff.mpr (fun call hcall => ?_)
      rw [List.eq_of_mem_replicate hcall]
      rfl
    rw [increments, hall, List.count_replicate_self]
  have hvalue := getD_counters_after name
    (List.replicate (log.countP (MetricsEvent.adds name)) (.increment name))
  rw [hincrements] at hvalue
  rw [cellAfter, hcalls]
  exact hvalue

theorem histogramsAfter_concat_none {e : MetricsEvent thread} (h : e.histogramCall = none)
    (log : List (MetricsEvent thread)) : histogramsAfter (log ++ [e]) = histogramsAfter log := by
  rw [histogramsAfter, filterMap_concat_none h, histogramsAfter]

theorem histogramsAfter_concat_some {e : MetricsEvent thread} {call : MetricsCall}
    (h : e.histogramCall = some call) (log : List (MetricsEvent thread)) :
    histogramsAfter (log ++ [e]) =
      ((after (log.filterMap MetricsEvent.histogramCall)).perform call).histograms := by
  rw [histogramsAfter, filterMap_concat_some h, after_concat]

end Sequential

/-- What an event shows is what the events before it have left. -/
def MetricsEvent.Shows {thread : Type} (before : List (MetricsEvent thread)) :
    MetricsEvent thread -> Prop
  | locked _ cells =>
      cells.Nodup ∧ forall kind name, (kind, name) ∈ cells <-> .created kind name ∈ before
  | loaded _ kind name value => value = cellAfter kind name before
  | scraped _ content => content = histogramsAfter before
  | _ => True

namespace SharedMetrics

variable {thread : Type} {s t : SharedMetrics thread}

theorem value_setValue (kind kind' : CellKind) (name name' : Bytes) (value : UInt64) :
    (s.setValue kind name value).value kind' name' =
      if kind = kind' ∧ name = name' then value else s.value kind' name' := by
  by_cases hkind : kind = kind'
  · subst hkind
    by_cases hname : name = name'
    · subst hname
      simp [SharedMetrics.value, setValue, setCells]
    · have hne : name' ≠ name := fun h => hname h.symm
      simp [SharedMetrics.value, setValue, setCells, hname, Finmap.lookup_insert_of_ne _ hne]
  · have hne : kind' ≠ kind := fun h => hkind h.symm
    simp [SharedMetrics.value, setValue, setCells, hkind, Function.update_of_ne hne]

theorem value_ensure (u : CellUpdate) (kind : CellKind) (name : Bytes) :
    (s.setCells u.kind (ensure (s.cells u.kind) u.name)).value kind name = s.value kind name := by
  unfold ensure
  split
  · simp [SharedMetrics.value, setCells]
  · next hmissing =>
      have hinsert := @value_setValue thread s u.kind kind u.name name 0
      rw [setValue] at hinsert
      rw [hinsert]
      split
      · next hsame =>
          rcases hsame with ⟨rfl, rfl⟩
          rw [SharedMetrics.value, Finmap.lookup_eq_none.mpr hmissing]
          rfl
      · rfl

theorem mem_setValue {kind : CellKind} {name : Bytes} (h : name ∈ s.cells kind) (value : UInt64)
    (kind' : CellKind) (name' : Bytes) :
    name' ∈ (s.setValue kind name value).cells kind' <-> name' ∈ s.cells kind' := by
  by_cases hkind : kind' = kind
  · subst hkind
    simp only [setValue, setCells, Function.update_self, Finmap.mem_insert]
    constructor
    · rintro (rfl | hmem)
      · exact h
      · exact hmem
    · exact .inr
  · simp only [setValue, setCells, Function.update_of_ne hkind]

/-!
## References and loops

Cells are not removed, and none is created while a thread is in a loop over the maps.
-/

def Covers (s : SharedMetrics thread) (cells : List (CellKind × Bytes)) : Prop :=
  cells.Nodup ∧ forall kind name, (kind, name) ∈ cells <-> name ∈ s.cells kind

/-- References lead to cells, and the map that a thread iterates over is complete. -/
structure Guarded (s : SharedMetrics thread) : Prop where
  referenced : forall th u, s.phase th = .update u -> u.name ∈ s.cells u.kind
  resetting : forall th done left, s.phase th = .resetting done left -> s.writer = some th
  holding : forall th cells, (s.phase th).loop = some cells ->
    (s.writer = some th ∨ th ∈ s.readers) ∧ s.Covers cells
  exclusive : s.writer ≠ none -> s.readers = []
  existing : forall kind name, name ∈ s.cells kind <-> .created kind name ∈ s.log

theorem Guarded.congr (h : s.Guarded) (hphase : t.phase = s.phase) (hwriter : t.writer = s.writer)
    (hreaders : t.readers = s.readers)
    (hcells : forall kind name, name ∈ t.cells kind <-> name ∈ s.cells kind)
    (hcreated : forall kind name, .created kind name ∈ t.log <-> .created kind name ∈ s.log) :
    t.Guarded where
  referenced th u hth := (hcells _ _).mpr (h.referenced th u (by rw [← hphase, hth]))
  resetting th done left hth := by
    rw [hwriter]
    exact h.resetting th done left (by rw [← hphase, hth])
  holding th cells hloop := by
    rw [hphase] at hloop
    rcases h.holding th cells hloop with ⟨hlock, hnodup, hcover⟩
    rw [hwriter, hreaders]
    exact ⟨hlock, hnodup, fun kind name => (hcover kind name).trans (hcells kind name).symm⟩
  exclusive := by
    rw [hwriter, hreaders]
    exact h.exclusive
  existing kind name := by
    rw [hcells, hcreated]
    exact h.existing kind name

theorem guarded_start : Guarded ({} : SharedMetrics thread) where
  referenced _ _ h := by cases h
  resetting _ _ _ h := by cases h
  holding _ _ h := by cases h
  exclusive h := absurd rfl h
  existing _ name := ⟨fun h => absurd h (Finmap.notMem_empty), fun h => by cases h⟩

theorem Guarded.record (h : s.Guarded) (e : MetricsEvent thread)
    (he : forall kind name, e ≠ .created kind name) : (s.record e).Guarded := by
  refine h.congr rfl rfl rfl (fun _ _ => Iff.rfl) (fun kind name => ?_)
  simp only [SharedMetrics.record, List.mem_append, List.mem_singleton]
  exact or_iff_left (fun heq => he kind name heq.symm)

theorem covers_loopOver {counters gauges : List Bytes}
    (hcounters : Enumerates (s.cells .counter) counters)
    (hgauges : Enumerates (s.cells .gauge) gauges) : s.Covers (loopOver counters gauges) := by
  have hmem : forall {cells : StringMap UInt64} {order : List Bytes}, Enumerates cells order ->
      forall name, name ∈ order <-> name ∈ cells := by
    intro cells order horder name
    rw [← List.mem_toFinset, horder.right, Finmap.mem_keys]
  constructor
  · refine List.Nodup.append ?_ ?_ ?_
    · exact hcounters.left.map (fun _ _ h => (Prod.mk.inj h).right)
    · exact hgauges.left.map (fun _ _ h => (Prod.mk.inj h).right)
    · intro cell hcounter hgauge
      rcases List.mem_map.mp hcounter with ⟨name, _, rfl⟩
      rcases List.mem_map.mp hgauge with ⟨name', _, hname'⟩
      cases hname'
  · intro kind name
    cases kind with
    | counter => simp [loopOver, hmem hcounters]
    | gauge => simp [loopOver, hmem hgauges]

theorem Guarded.loop_eq_none (h : s.Guarded) (hwriter : s.writer = none) (hreaders : s.readers = [])
    (th : thread) : (s.phase th).loop = none := by
  cases hloop : (s.phase th).loop with
  | none => rfl
  | some cells =>
      rcases (h.holding th cells hloop).left with hlock | hlock
      · rw [hwriter] at hlock
        cases hlock
      · rw [hreaders] at hlock
        cases hlock

variable [DecidableEq thread]

@[simp] theorem phase_enter_self (s : SharedMetrics thread) (th : thread) (phase : MetricsPhase) :
    (s.enter th phase).phase th = phase := by
  simp [enter]

theorem phase_enter_of_ne {th th' : thread} (h : th' ≠ th) (phase : MetricsPhase) :
    (s.enter th phase).phase th' = s.phase th' := by
  simp [enter, Function.update_of_ne h]

theorem Guarded.enter (h : s.Guarded) {th : thread} {phase : MetricsPhase}
    (hreference : forall u, phase = .update u -> u.name ∈ s.cells u.kind)
    (hresetting : forall done left, phase = .resetting done left -> s.writer = some th)
    (hloop : forall cells, phase.loop = some cells ->
      (s.writer = some th ∨ th ∈ s.readers) ∧ s.Covers cells) : (s.enter th phase).Guarded where
  referenced th' u hth' := by
    by_cases hth : th' = th
    · rw [hth, phase_enter_self] at hth'
      exact hreference u hth'
    · rw [phase_enter_of_ne hth] at hth'
      exact h.referenced th' u hth'
  resetting th' done left hth' := by
    by_cases hth : th' = th
    · rw [hth, phase_enter_self] at hth'
      rw [hth]
      exact hresetting done left hth'
    · rw [phase_enter_of_ne hth] at hth'
      exact h.resetting th' done left hth'
  holding th' cells hth' := by
    by_cases hth : th' = th
    · rw [hth, phase_enter_self] at hth'
      rw [hth]
      exact hloop cells hth'
    · rw [phase_enter_of_ne hth] at hth'
      exact h.holding th' cells hth'
  exclusive := h.exclusive
  existing := h.existing

theorem Guarded.enter_plain (h : s.Guarded) (th : thread) {phase : MetricsPhase}
    (hreference : forall u, phase ≠ .update u) (hloop : phase.loop = none) :
    (s.enter th phase).Guarded := by
  refine h.enter (fun u hu => absurd hu (hreference u)) ?_ ?_
  · rintro done left rfl
    cases hloop
  · intro cells hcells
    rw [hloop] at hcells
    cases hcells

theorem Guarded.created (h : s.Guarded) {th : thread} (u : CellUpdate) (hwriter : s.writer = none)
    (hreaders : s.readers = []) :
    (((s.setCells u.kind (ensure (s.cells u.kind) u.name)).record
      (.created u.kind u.name)).enter th (.update u)).Guarded := by
  have hcells : forall kind name,
      name ∈ (s.setCells u.kind (ensure (s.cells u.kind) u.name)).cells kind <->
        name ∈ s.cells kind ∨ (kind = u.kind ∧ name = u.name) := by
    intro kind name
    by_cases hkind : kind = u.kind
    · subst hkind
      simp only [setCells, Function.update_self, ensure, true_and]
      split
      · next hpresent => exact ⟨.inl, fun h => h.elim id (fun heq => heq ▸ hpresent)⟩
      · exact Finmap.mem_insert.trans or_comm
    · simp only [setCells, Function.update_of_ne hkind, hkind, false_and, or_false]
  have hnew : u.name ∈ (s.setCells u.kind (ensure (s.cells u.kind) u.name)).cells u.kind :=
    (hcells _ _).mpr (.inr ⟨rfl, rfl⟩)
  refine Guarded.enter ?_ ?_ ?_ ?_
  · refine ⟨fun th' u' hth' => (hcells _ _).mpr (.inl (h.referenced th' u' hth')), h.resetting, ?_,
      h.exclusive, ?_⟩
    · intro th' cells hloop
      have hnone : ((s.setCells u.kind (ensure (s.cells u.kind) u.name)).phase th').loop = none :=
        h.loop_eq_none hwriter hreaders th'
      cases hnone.symm.trans hloop
    · intro kind name
      refine (hcells kind name).trans ?_
      simp only [SharedMetrics.record, setCells, List.mem_append, List.mem_singleton,
        MetricsEvent.created.injEq]
      exact or_congr_left (h.existing kind name)
  · intro u' hu'
    cases hu'
    exact hnew
  · intro done left hphase
    cases hphase
  · intro cells hloop
    cases hloop

theorem Guarded.resetLocked (h : s.Guarded) (th : thread) {counters gauges : List Bytes}
    (hcounters : Enumerates (s.cells .counter) counters)
    (hgauges : Enumerates (s.cells .gauge) gauges) (hwriter : s.writer = none)
    (hreaders : s.readers = []) :
    ({ s with writer := some th }.enter th (.resetting [] (loopOver counters gauges))).Guarded := by
  refine Guarded.enter ?_ ?_ ?_ ?_
  · refine ⟨h.referenced, fun th' done left hth' => ?_, fun th' cells hloop => ?_,
      fun _ => hreaders, h.existing⟩
    · have hlock := h.resetting th' done left hth'
      rw [hwriter] at hlock
      cases hlock
    · rw [h.loop_eq_none hwriter hreaders th'] at hloop
      cases hloop
  · intro u hu
    cases hu
  · intro done left hphase
    cases hphase
    rfl
  · intro cells hloop
    cases hloop
    exact ⟨.inl rfl, covers_loopOver hcounters hgauges⟩

theorem Guarded.renderLocked (h : s.Guarded) (th : thread) {counters gauges : List Bytes}
    (hcounters : Enumerates (s.cells .counter) counters)
    (hgauges : Enumerates (s.cells .gauge) gauges) (hwriter : s.writer = none) :
    ({ s with readers := th :: s.readers }.enter th
      (.rendering [] (loopOver counters gauges))).Guarded := by
  refine Guarded.enter ?_ ?_ ?_ ?_
  · refine ⟨h.referenced, h.resetting, ?_, fun hlocked => absurd hwriter hlocked, h.existing⟩
    intro th' cells hloop
    rcases h.holding th' cells hloop with ⟨hlock, hcovers⟩
    exact ⟨hlock.imp_right (List.mem_cons_of_mem th), hcovers⟩
  · intro u hu
    cases hu
  · intro done left hphase
    cases hphase
  · intro cells hloop
    cases hloop
    exact ⟨.inr List.mem_cons_self, covers_loopOver hcounters hgauges⟩

theorem Guarded.visited (h : s.Guarded) {th : thread} {phase : MetricsPhase}
    (hloop : phase.loop = (s.phase th).loop) (hsome : (s.phase th).loop ≠ none)
    (hresetting : forall done left, phase = .resetting done left -> s.writer = some th) :
    (s.enter th phase).Guarded := by
  refine h.enter ?_ hresetting ?_
  · rintro u rfl
    exact absurd hloop.symm hsome
  · intro cells hcells
    exact h.holding th cells (hloop ▸ hcells)

theorem Guarded.resetUnlocked (h : s.Guarded) {th : thread} {done : List (CellKind × Bytes)}
    (hphase : s.phase th = .resetting done []) :
    ({ s with writer := none }.enter th .clearing).Guarded := by
  have hwriter := h.resetting th done [] hphase
  have hplain : (s.enter th .clearing).Guarded := h.enter_plain th (by simp) rfl
  have hother : forall {th'}, (s.enter th .clearing).writer = some th' -> th' = th := by
    intro th' hth'
    exact Option.some.inj (hth'.symm.trans hwriter)
  refine ⟨hplain.referenced, ?_, ?_, fun hlocked => absurd rfl hlocked, h.existing⟩
  · intro th' done' left hth'
    have hth : (s.enter th .clearing).phase th' = .resetting done' left := hth'
    rw [hother (hplain.resetting th' done' left hth), phase_enter_self] at hth
    cases hth
  · intro th' cells hloop
    have hth : ((s.enter th .clearing).phase th').loop = some cells := hloop
    rcases hplain.holding th' cells hth with ⟨hlock | hlock, hcovers⟩
    · rw [hother hlock, phase_enter_self] at hth
      cases hth
    · exact ⟨.inr hlock, hcovers⟩

theorem Guarded.renderUnlocked (h : s.Guarded) {th : thread} :
    ({ s with readers := s.readers.erase th }.enter th .scraping).Guarded := by
  have hplain : (s.enter th .scraping).Guarded := h.enter_plain th (by simp) rfl
  refine ⟨hplain.referenced, hplain.resetting, ?_, ?_, h.existing⟩
  · intro th' cells hloop
    have hth : ((s.enter th .scraping).phase th').loop = some cells := hloop
    rcases hplain.holding th' cells hth with ⟨hlock, hcovers⟩
    refine ⟨hlock.imp_right (fun hmem => ?_), hcovers⟩
    have hne : th' ≠ th := by
      intro heq
      rw [heq, phase_enter_self] at hth
      cases hth
    exact (List.mem_erase_of_ne hne).mpr hmem
  · intro hlocked
    have hreaders : s.readers = [] := h.exclusive hlocked
    exact (congrArg (fun readers => readers.erase th) hreaders).trans rfl

theorem Guarded.step (h : s.Guarded) {a : MetricsAction thread} (hstep : Stepped s a t) :
    t.Guarded := by
  cases hstep with
  | @began th request hphase =>
      have hplain : (s.enter th request.first).Guarded := by
        apply h.enter_plain th
        · rcases request with call | _
          · cases call <;> simp [MetricsRequest.first]
          · simp [MetricsRequest.first]
        · rcases request with call | _
          · cases call <;> rfl
          · rfl
      exact hplain.congr rfl rfl rfl (fun _ _ => Iff.rfl) (fun _ _ => Iff.rfl)
  | @found th u hphase hfound =>
      refine h.enter (fun u' hu' => ?_) (fun _ _ hloop => ?_) (fun _ hloop => ?_)
      · cases hu'
        exact hfound
      · cases hloop
      · cases hloop
  | @missed th u hphase => exact h.enter_plain th (by simp) rfl
  | @created th u hphase hwriter hreaders => exact h.created u hwriter hreaders
  | @updated th u hphase =>
      refine Guarded.enter_plain (Guarded.record ?_ (.updated th u) nofun) th (by simp) rfl
      exact h.congr rfl rfl rfl (mem_setValue (h.referenced th u hphase) _) (fun _ _ => Iff.rfl)
  | @resetLocked th counters gauges hphase hcounters hgauges hwriter hreaders =>
      exact (h.resetLocked th hcounters hgauges hwriter hreaders).record (.locked th _) nofun
  | @renderLocked th counters gauges hphase hcounters hgauges hwriter =>
      exact (h.renderLocked th hcounters hgauges hwriter).record (.locked th _) nofun
  | @zeroed th kind name done left hphase =>
      have hloop : (s.phase th).loop = some (done ++ (kind, name) :: left) := by
        rw [hphase]
        rfl
      have hpresent : name ∈ s.cells kind :=
        ((h.holding th _ hloop).right.right kind name).mp (by simp)
      refine Guarded.visited (Guarded.record ?_ (.zeroed th kind name) nofun) ?_ ?_ ?_
      · exact h.congr rfl rfl rfl (mem_setValue hpresent 0) (fun _ _ => Iff.rfl)
      · rw [MetricsPhase.loop, List.append_assoc]
        exact hloop.symm
      · exact fun hnone => Option.some_ne_none _ (hloop.symm.trans hnone)
      · exact fun _ _ _ => h.resetting th _ _ hphase
  | @loaded th kind name done left hphase =>
      have hloop : (s.phase th).loop = some (done ++ (kind, name) :: left) := by
        rw [hphase]
        rfl
      refine Guarded.visited (h.record (.loaded th kind name _) nofun) ?_ ?_ ?_
      · rw [MetricsPhase.loop, List.append_assoc]
        exact hloop.symm
      · exact fun hnone => Option.some_ne_none _ (hloop.symm.trans hnone)
      · intro done' left' hreset
        cases hreset
  | @resetUnlocked th done hphase => exact h.resetUnlocked hphase
  | @renderUnlocked th done hphase => exact h.renderUnlocked
  | @observed th name value hphase =>
      refine Guarded.enter_plain (Guarded.record ?_ (.observed th name value) nofun) th
        (by simp) rfl
      exact h.congr rfl rfl rfl (fun _ _ => Iff.rfl) (fun _ _ => Iff.rfl)
  | @cleared th hphase =>
      refine Guarded.enter_plain (Guarded.record ?_ (.cleared th) nofun) th (by simp) rfl
      exact h.congr rfl rfl rfl (fun _ _ => Iff.rfl) (fun _ _ => Iff.rfl)
  | @scraped th hphase =>
      exact Guarded.enter_plain (h.record (.scraped th s.histograms) nofun) th (by simp) rfl

/-!
## Calls

The events of a thread, cut into its calls.
-/

section Calls

omit [DecidableEq thread]

def zeroedAll (th : thread) (cells : List (CellKind × Bytes)) : List (MetricsEvent thread) :=
  cells.map fun cell => .zeroed th cell.fst cell.snd

def loadedAll (th : thread) (shown : List ((CellKind × Bytes) × UInt64)) :
    List (MetricsEvent thread) :=
  shown.map fun load => .loaded th load.fst.fst load.fst.snd load.snd

inductive Carries (th : thread) : MetricsRequest -> List (MetricsEvent thread) -> Prop where
  | update (u : CellUpdate) : Carries th (.report u.call) [.updated th u]
  | observation (name : Bytes) (value : Rat) :
      Carries th (.report (.histogram name value)) [.observed th name value]
  | reset (cells : List (CellKind × Bytes)) :
      Carries th (.report .reset) (.locked th cells :: zeroedAll th cells ++ [.cleared th])
  | render (shown : List ((CellKind × Bytes) × UInt64)) (content : StringMap Histogram) :
      Carries th .render
        (.locked th (shown.map Prod.fst) :: loadedAll th shown ++ [.scraped th content])

/-- The events of a call up to a phase of it. -/
def Underway (th : thread) : MetricsPhase -> List (MetricsEvent thread) -> Prop
  | .resetting done left, events => events = .locked th (done ++ left) :: zeroedAll th done
  | .clearing, events => exists cells, events = .locked th cells :: zeroedAll th cells
  | .rendering done left, events =>
      exists shown : List ((CellKind × Bytes) × UInt64), shown.map Prod.fst = done ∧
        events = .locked th (done ++ left) :: loadedAll th shown
  | .scraping, events =>
      exists shown : List ((CellKind × Bytes) × UInt64),
        events = .locked th (shown.map Prod.fst) :: loadedAll th shown
  | _, events => events = []

/-- A thread has carried out its calls in order, the last one as far as its phase says. -/
def Traced (th : thread) (phase : MetricsPhase) (begun : List MetricsRequest)
    (own : List (MetricsEvent thread)) : Prop :=
  exists requests blocks current, List.Forall₂ (Carries th) requests blocks ∧
    own = blocks.flatten ++ current ∧ Underway th phase current ∧
    begun = requests ++ phase.pending

variable {th : thread} {phase phase' : MetricsPhase} {begun : List MetricsRequest}
  {own : List (MetricsEvent thread)}

theorem Traced.enter (h : Traced th phase begun own)
    (hunderway : forall events, Underway th phase events -> Underway th phase' events)
    (hpending : phase'.pending = phase.pending) : Traced th phase' begun own := by
  rcases h with ⟨requests, blocks, current, hblocks, hown, hcurrent, hbegun⟩
  exact ⟨requests, blocks, current, hblocks, hown, hunderway current hcurrent, hpending ▸ hbegun⟩

theorem Traced.push (h : Traced th phase begun own) {e : MetricsEvent thread}
    (hunderway : forall events, Underway th phase events -> Underway th phase' (events ++ [e]))
    (hpending : phase'.pending = phase.pending) : Traced th phase' begun (own ++ [e]) := by
  rcases h with ⟨requests, blocks, current, hblocks, hown, hcurrent, hbegun⟩
  refine ⟨requests, blocks, current ++ [e], hblocks, ?_, hunderway current hcurrent,
    hpending ▸ hbegun⟩
  rw [hown, List.append_assoc]

theorem Traced.complete (h : Traced th phase begun own) {e : MetricsEvent thread}
    {request : MetricsRequest}
    (hcarries : forall events, Underway th phase events -> Carries th request (events ++ [e]))
    (hpending : phase.pending = [request]) : Traced th .idle begun (own ++ [e]) := by
  rcases h with ⟨requests, blocks, current, hblocks, hown, hcurrent, hbegun⟩
  refine ⟨requests ++ [request], blocks ++ [current ++ [e]], [], ?_, ?_, rfl, ?_⟩
  · exact List.rel_append hblocks (.cons (hcarries current hcurrent) .nil)
  · rw [hown, List.flatten_append, List.flatten_singleton, List.append_nil, List.append_assoc]
  · rw [hbegun, hpending, MetricsPhase.pending, List.append_nil]

theorem pending_first (request : MetricsRequest) : request.first.pending = [request] := by
  cases request with
  | report call => cases call <;> rfl
  | render => rfl

theorem underway_first (th : thread) (request : MetricsRequest) :
    Underway th request.first [] := by
  cases request with
  | report call => cases call <;> rfl
  | render => rfl

theorem Traced.begin (h : Traced th .idle begun own) (request : MetricsRequest) :
    Traced th request.first (begun ++ [request]) own := by
  rcases h with ⟨requests, blocks, current, hblocks, hown, rfl, hbegun⟩
  refine ⟨requests, blocks, [], hblocks, hown, underway_first th request, ?_⟩
  rw [hbegun, pending_first, MetricsPhase.pending, List.append_nil]

end Calls

def ownEvents (th : thread) (log : List (MetricsEvent thread)) : List (MetricsEvent thread) :=
  log.filter fun e => e.author = some th

theorem ownEvents_concat_self {th : thread} {e : MetricsEvent thread} (h : e.author = some th)
    (log : List (MetricsEvent thread)) : ownEvents th (log ++ [e]) = ownEvents th log ++ [e] := by
  simp [ownEvents, List.filter_append, h]

theorem ownEvents_concat_other {th : thread} {e : MetricsEvent thread} (h : e.author ≠ some th)
    (log : List (MetricsEvent thread)) : ownEvents th (log ++ [e]) = ownEvents th log := by
  simp [ownEvents, List.filter_append, h]

/-!
## Effects

Each step changes a cell or the histograms as the sequential model does, and is the next one
of its thread's call.
-/

structure Linear (s : SharedMetrics thread) : Prop where
  cell : forall kind name, s.value kind name = cellAfter kind name s.log
  histograms : s.histograms = histogramsAfter s.log
  shown : forall before e later, s.log = before ++ e :: later -> e.Shows before
  calls : forall th, Traced th (s.phase th) (s.begun th) (ownEvents th s.log)

theorem Linear.traced (h : s.Linear) {th : thread} {phase : MetricsPhase}
    (hphase : s.phase th = phase) : Traced th phase (s.begun th) (ownEvents th s.log) := by
  subst hphase
  exact h.calls th

theorem Linear.enter (h : s.Linear) {th : thread} {phase : MetricsPhase}
    (htraced : Traced th phase (s.begun th) (ownEvents th s.log)) :
    (s.enter th phase).Linear where
  cell := h.cell
  histograms := h.histograms
  shown := h.shown
  calls th' := by
    by_cases hth : th' = th
    · subst hth
      rw [phase_enter_self]
      exact htraced
    · rw [phase_enter_of_ne hth]
      exact h.calls th'

theorem shown_record (h : s.Linear) {e : MetricsEvent thread} (he : e.Shows s.log) :
    forall before e' later, s.log ++ [e] = before ++ e' :: later -> e'.Shows before := by
  intro before e' later hsplit
  rcases List.eq_nil_or_concat' later with rfl | ⟨later', last, rfl⟩
  · have hlast := List.append_inj' hsplit rfl
    cases hlast.right
    rw [← hlast.left]
    exact he
  · rw [← List.cons_append, ← List.append_assoc] at hsplit
    exact h.shown before e' later' (List.append_inj' hsplit rfl).left

theorem Linear.recorded (h : s.Linear) (th : thread) (phase : MetricsPhase)
    (e : MetricsEvent thread) (hlog : t.log = s.log ++ [e]) (hbegun : t.begun = s.begun)
    (hphase : t.phase = (s.enter th phase).phase)
    (hcell : forall kind name, t.value kind name = cellAfter kind name (s.log ++ [e]))
    (hhistograms : t.histograms = histogramsAfter (s.log ++ [e])) (hshows : e.Shows s.log)
    (hauthor : e.author = some th)
    (htraced : Traced th phase (s.begun th) (ownEvents th s.log ++ [e])) : t.Linear where
  cell kind name := by rw [hlog, hcell]
  histograms := by rw [hlog, hhistograms]
  shown := by
    rw [hlog]
    exact shown_record h hshows
  calls th' := by
    rw [hlog, hbegun, hphase]
    by_cases hth : th' = th
    · subst hth
      rw [phase_enter_self, ownEvents_concat_self hauthor]
      exact htraced
    · have hother : e.author ≠ some th' := by
        rw [hauthor]
        exact fun heq => hth (Option.some.inj heq).symm
      rw [phase_enter_of_ne hth, ownEvents_concat_other hother]
      exact h.calls th'

theorem cell_updated (h : s.Linear) (th : thread) (u : CellUpdate) (kind : CellKind)
    (name : Bytes) :
    (s.setValue u.kind u.name (u.apply (s.value u.kind u.name))).value kind name =
      cellAfter kind name (s.log ++ [.updated th u]) := by
  rw [value_setValue]
  split
  · next hsame =>
      rcases hsame with ⟨rfl, rfl⟩
      rw [cellAfter_updated, h.cell]
  · next hother =>
      have hcall : (MetricsEvent.updated th u).cellCall kind name = none := if_neg hother
      rw [cellAfter_concat_none hcall, h.cell]

theorem cell_zeroed (h : s.Linear) (th : thread) (kind kind' : CellKind) (name name' : Bytes) :
    (s.setValue kind name 0).value kind' name' =
      cellAfter kind' name' (s.log ++ [.zeroed th kind name]) := by
  rw [value_setValue]
  split
  · next hsame =>
      rcases hsame with ⟨rfl, rfl⟩
      rw [cellAfter_zeroed]
  · next hother =>
      have hcall : (MetricsEvent.zeroed th kind name).cellCall kind' name' = none := if_neg hother
      rw [cellAfter_concat_none hcall, h.cell]

theorem cell_other (h : s.Linear) {e : MetricsEvent thread}
    (he : forall kind name, e.cellCall kind name = none) (kind : CellKind) (name : Bytes) :
    s.value kind name = cellAfter kind name (s.log ++ [e]) := by
  rw [cellAfter_concat_none (he kind name), h.cell]

theorem histograms_other (h : s.Linear) {e : MetricsEvent thread} (he : e.histogramCall = none) :
    s.histograms = histogramsAfter (s.log ++ [e]) := by
  rw [histogramsAfter_concat_none he, h.histograms]

theorem histograms_observed (h : s.Linear) (th : thread) (name : Bytes) (value : Rat) :
    (s.observe name value).histograms = histogramsAfter (s.log ++ [.observed th name value]) := by
  have hcall : (MetricsEvent.observed th name value).histogramCall =
      some (.histogram name value) := rfl
  rw [histogramsAfter_concat_some hcall]
  simp only [observe, h.histograms]
  rfl

theorem Linear.begin (h : s.Linear) {th : thread} (request : MetricsRequest)
    (hphase : s.phase th = .idle) : (s.begin th request).Linear where
  cell := h.cell
  histograms := h.histograms
  shown := h.shown
  calls th' := by
    have hcalls := h.calls th'
    by_cases hth : th' = th
    · subst hth
      rw [hphase] at hcalls
      simpa [SharedMetrics.begin, SharedMetrics.enter] using hcalls.begin request
    · simpa [SharedMetrics.begin, SharedMetrics.enter, Function.update_of_ne hth] using hcalls

theorem Linear.created (h : s.Linear) {th : thread} {u : CellUpdate}
    (hphase : s.phase th = .creation u) :
    (((s.setCells u.kind (ensure (s.cells u.kind) u.name)).record
      (.created u.kind u.name)).enter th (.update u)).Linear := by
  have hown : forall th', ownEvents th' (s.log ++ [.created u.kind u.name]) =
      ownEvents th' s.log := fun th' => ownEvents_concat_other (by simp [MetricsEvent.author]) _
  refine Linear.enter ⟨?_, ?_, ?_, ?_⟩ ?_
  · intro kind name
    exact (value_ensure u kind name).trans (cell_other h (fun _ _ => rfl) kind name)
  · exact histograms_other h rfl
  · exact shown_record h trivial
  · intro th'
    exact (hown th').symm ▸ h.calls th'
  · exact (hown th).symm ▸ (h.traced hphase).enter (fun _ => id) rfl

omit [DecidableEq thread] in
theorem shows_locked (hguarded : s.Guarded) (th : thread) {counters gauges : List Bytes}
    (hcounters : Enumerates (s.cells .counter) counters)
    (hgauges : Enumerates (s.cells .gauge) gauges) :
    (MetricsEvent.locked th (loopOver counters gauges)).Shows s.log := by
  rcases covers_loopOver hcounters hgauges with ⟨hnodup, hcover⟩
  exact ⟨hnodup, fun kind name => (hcover kind name).trans (hguarded.existing kind name)⟩

theorem Linear.locked (h : s.Linear) (hguarded : s.Guarded) {th : thread} {phase : MetricsPhase}
    {writer : Option thread} {readers : List thread} {counters gauges : List Bytes}
    (hcounters : Enumerates (s.cells .counter) counters)
    (hgauges : Enumerates (s.cells .gauge) gauges)
    (htraced : Traced th phase (s.begun th)
      (ownEvents th s.log ++ [.locked th (loopOver counters gauges)])) :
    (({ s with writer := writer, readers := readers }.record
      (.locked th (loopOver counters gauges))).enter th phase).Linear :=
  h.recorded th phase (.locked th (loopOver counters gauges)) rfl rfl rfl
    (cell_other h (fun _ _ => rfl)) (histograms_other h rfl)
    (shows_locked hguarded th hcounters hgauges) rfl htraced

theorem Linear.step (h : s.Linear) (hguarded : s.Guarded) {a : MetricsAction thread}
    (hstep : Stepped s a t) : t.Linear := by
  cases hstep with
  | began request hphase => exact h.begin request hphase
  | found hphase _ => exact h.enter ((h.traced hphase).enter (fun _ => id) rfl)
  | missed hphase => exact h.enter ((h.traced hphase).enter (fun _ => id) rfl)
  | created hphase _ _ => exact h.created hphase
  | @updated th u hphase =>
      refine h.recorded th .idle (.updated th u) rfl rfl rfl (cell_updated h th u)
        (histograms_other h rfl) trivial rfl ((h.traced hphase).complete ?_ rfl)
      rintro _ rfl
      exact .update u
  | resetLocked hphase hcounters hgauges _ _ =>
      refine h.locked hguarded hcounters hgauges ((h.traced hphase).push ?_ rfl)
      rintro _ rfl
      rfl
  | renderLocked hphase hcounters hgauges _ =>
      refine h.locked hguarded hcounters hgauges ((h.traced hphase).push ?_ rfl)
      rintro _ rfl
      exact ⟨[], rfl, rfl⟩
  | @zeroed th kind name done left hphase =>
      refine h.recorded th _ (.zeroed th kind name) rfl rfl rfl
        (fun kind' name' => cell_zeroed h th kind kind' name name') (histograms_other h rfl) trivial
        rfl ((h.traced hphase).push ?_ rfl)
      rintro _ rfl
      simp [Underway, zeroedAll]
  | @loaded th kind name done left hphase =>
      refine h.recorded th _ (.loaded th kind name (s.value kind name)) rfl rfl rfl
        (cell_other h (fun _ _ => rfl)) (histograms_other h rfl) (h.cell kind name) rfl
        ((h.traced hphase).push ?_ rfl)
      rintro _ ⟨shown, rfl, rfl⟩
      exact ⟨shown ++ [((kind, name), s.value kind name)], by simp, by simp [loadedAll]⟩
  | @resetUnlocked th done hphase =>
      refine Linear.enter (s := { s with writer := none })
        ⟨h.cell, h.histograms, h.shown, h.calls⟩ ((h.traced hphase).enter ?_ rfl)
      rintro _ rfl
      exact ⟨done, by rw [List.append_nil]⟩
  | @renderUnlocked th done hphase =>
      refine Linear.enter (s := { s with readers := s.readers.erase th })
        ⟨h.cell, h.histograms, h.shown, h.calls⟩ ((h.traced hphase).enter ?_ rfl)
      rintro _ ⟨shown, rfl, rfl⟩
      exact ⟨shown, by rw [List.append_nil]⟩
  | @observed th name value hphase =>
      refine h.recorded th .idle (.observed th name value) rfl rfl rfl
        (cell_other h (fun _ _ => rfl)) (histograms_observed h th name value) trivial rfl
        ((h.traced hphase).complete ?_ rfl)
      rintro _ rfl
      exact .observation name value
  | @cleared th hphase =>
      have hcall : (MetricsEvent.cleared th).histogramCall = some .reset := rfl
      refine h.recorded th .idle (.cleared th) rfl rfl rfl (cell_other h (fun _ _ => rfl))
        (by rw [histogramsAfter_concat_some hcall]; rfl) trivial rfl
        ((h.traced hphase).complete ?_ rfl)
      rintro _ ⟨cells, rfl⟩
      exact .reset cells
  | @scraped th hphase =>
      refine h.recorded th .idle (.scraped th s.histograms) rfl rfl rfl
        (cell_other h (fun _ _ => rfl)) (histograms_other h rfl) h.histograms rfl
        ((h.traced hphase).complete ?_ rfl)
      rintro _ ⟨shown, rfl⟩
      exact .render shown s.histograms

/-!
## Runs

Both invariants hold along every run.
-/

theorem linear_start : Linear ({} : SharedMetrics thread) where
  cell kind _ := by cases kind <;> rfl
  histograms := rfl
  shown := by
    intro before e later h
    cases before <;> cases h
  calls _ := ⟨[], [], [], .nil, rfl, rfl, rfl⟩

/--
In every interleaving each cell and the histograms hold what the sequential model
gives for the calls in the order of their effects, and so does everything a render
shows; every thread's calls take effect once and in order, a reset on every cell that
is there when it takes the lock; references and loops over the maps stay valid.  A
counter that no reset has touched has counted every increment, modulo `2 ^ 64`.
-/
theorem interleaving_linear {actions : List (MetricsAction thread)} {s : SharedMetrics thread}
    (hrun : run step {} actions = some s) :
    s.Linear ∧ s.Guarded ∧
      forall name, (forall th, .zeroed th .counter name ∉ s.log) ->
        s.value .counter name = UInt64.ofNat (s.log.countP (MetricsEvent.adds name)) := by
  have hall : s.Linear ∧ s.Guarded := by
    refine invariant_of_run (P := fun _ s => s.Linear ∧ s.Guarded) ?_ ?_ hrun
    · exact ⟨linear_start, guarded_start⟩
    · intro _ m a n _ hm hstep
      have hstepped := stepped_of_step hstep
      exact ⟨hm.left.step hm.right hstepped, hm.right.step hstepped⟩
  refine ⟨hall.left, hall.right, fun name hnever => ?_⟩
  rw [hall.left.cell]
  exact cellAfter_counter hnever

/-- Two threads miss the counter, create it one after the other and increment it while a
third renders. -/
def racingIncrements : List (MetricsAction (Option Bool)) :=
  [.begin (some false) (.report (.increment (ascii "calls"))),
    .begin (some true) (.report (.increment (ascii "calls"))),
    .find (some false), .find (some true), .create (some false), .create (some true),
    .update (some true), .begin none .render, .lock none [ascii "calls"] [],
    .update (some false), .visit none, .unlock none, .histograms none]

theorem racingIncrements_linear :
    exists s, run step {} racingIncrements = some s ∧ s.Linear ∧ s.Guarded ∧
      s.value .counter (ascii "calls") = 2 := by
  have hrun : exists s, run step {} racingIncrements = some s ∧
      s.log = [.created .counter (ascii "calls"), .created .counter (ascii "calls"),
        .updated (some true) (.fetchAdd (ascii "calls")),
        .locked none [(.counter, ascii "calls")],
        .updated (some false) (.fetchAdd (ascii "calls")),
        .loaded none .counter (ascii "calls") 2, .scraped none ∅] := ⟨_, rfl, rfl⟩
  rcases hrun with ⟨s, hs, hlog⟩
  rcases interleaving_linear hs with ⟨hlinear, hguarded, hvalue⟩
  have hnever : forall th, .zeroed th .counter (ascii "calls") ∉ s.log := by
    rw [hlog]
    simp
  refine ⟨s, hs, hlinear, hguarded, ?_⟩
  rw [hvalue _ hnever, hlog]
  rfl

end SharedMetrics
end Observability
end CppCommons
