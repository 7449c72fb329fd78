import CppCommons.Foundation.LabelledRun
import CppCommons.Observability.PrometheusMetrics

/-!
# Metrics shared by threads

Threads report to one `PrometheusMetrics` and render it.  The map of a kind of
cells is searched and iterated under the shared lock and changed under the
exclusive one; a cell itself is read and written without a lock, by single atomic
operations, also while another thread iterates over the map.  Histograms are
touched under a mutex of their own.  A step is a section under a lock, or a single
atomic operation; runs are sequentially consistent, the reordering that
`memory_order_relaxed` allows between different cells is not part of the model.
-/

namespace CppCommons
namespace Observability

open Cxx
open Foundation.LabelledRun

/-!
## Calls and their phases

A call is cut where another thread can come in between: at the locks, at each cell that a loop
visits, and at each atomic operation.
-/

inductive CellKind where
  | counter
  | gauge
deriving DecidableEq

def PrometheusMetrics.cells (m : PrometheusMetrics) : CellKind -> StringMap UInt64
  | .counter => m.counters
  | .gauge => m.gauges

inductive CellUpdate where
  | fetchAdd (name : Bytes)
  | store (name : Bytes) (bits : UInt64)
deriving DecidableEq

namespace CellUpdate

def kind : CellUpdate -> CellKind
  | fetchAdd _ => .counter
  | store _ _ => .gauge

def name : CellUpdate -> Bytes
  | fetchAdd name => name
  | store name _ => name

def apply : CellUpdate -> UInt64 -> UInt64
  | fetchAdd _, value => value + 1
  | store _ bits, _ => bits

def call : CellUpdate -> MetricsCall
  | fetchAdd name => .increment name
  | store name bits => .gauge name bits

end CellUpdate

inductive MetricsRequest where
  | report (call : MetricsCall)
  | render
deriving DecidableEq

/-- How far a thread is with its call; the lists are the cells that a loop has behind
and before it. -/
inductive MetricsPhase where
  | idle
  | lookup (u : CellUpdate)
  | creation (u : CellUpdate)
  | update (u : CellUpdate)
  | observation (name : Bytes) (value : Rat)
  | resetLock
  | resetting (done left : List (CellKind × Bytes))
  | clearing
  | renderLock
  | rendering (done left : List (CellKind × Bytes))
  | scraping

def MetricsRequest.first : MetricsRequest -> MetricsPhase
  | report (.increment name) => .lookup (.fetchAdd name)
  | report (.gauge name bits) => .lookup (.store name bits)
  | report (.histogram name value) => .observation name value
  | report .reset => .resetLock
  | render => .renderLock

def MetricsPhase.pending : MetricsPhase -> List MetricsRequest
  | idle => []
  | lookup u | creation u | update u => [.report u.call]
  | observation name value => [.report (.histogram name value)]
  | resetLock | resetting _ _ | clearing => [.report .reset]
  | renderLock | rendering _ _ | scraping => [.render]

def MetricsPhase.loop : MetricsPhase -> Option (List (CellKind × Bytes))
  | resetting done left => some (done ++ left)
  | rendering done left => some (done ++ left)
  | _ => none

/-- What has happened to the shared data, and what was seen of it. -/
inductive MetricsEvent (thread : Type) where
  | created (kind : CellKind) (name : Bytes)
  | locked (th : thread) (cells : List (CellKind × Bytes))
  | updated (th : thread) (u : CellUpdate)
  | zeroed (th : thread) (kind : CellKind) (name : Bytes)
  | loaded (th : thread) (kind : CellKind) (name : Bytes) (value : UInt64)
  | observed (th : thread) (name : Bytes) (value : Rat)
  | cleared (th : thread)
  | scraped (th : thread) (content : StringMap Histogram)

structure SharedMetrics (thread : Type) where
  cells : CellKind -> StringMap UInt64 := fun _ => ∅
  histograms : StringMap Histogram := ∅
  /-- the thread with the exclusive lock of the maps -/
  writer : Option thread := none
  /-- the threads with the shared lock of the maps -/
  readers : List thread := []
  phase : thread -> MetricsPhase := fun _ => .idle
  begun : thread -> List MetricsRequest := fun _ => []
  log : List (MetricsEvent thread) := []

inductive MetricsAction (thread : Type) where
  | begin (th : thread) (request : MetricsRequest)
  | find (th : thread)
  | create (th : thread)
  | update (th : thread)
  | lock (th : thread) (counters gauges : List Bytes)
  | visit (th : thread)
  | unlock (th : thread)
  | histograms (th : thread)

def Enumerates (cells : StringMap UInt64) (order : List Bytes) : Prop :=
  order.Nodup ∧ order.toFinset = cells.keys

instance (cells : StringMap UInt64) (order : List Bytes) : Decidable (Enumerates cells order) :=
  inferInstanceAs (Decidable (order.Nodup ∧ order.toFinset = cells.keys))

def loopOver (counters gauges : List Bytes) : List (CellKind × Bytes) :=
  counters.map (fun name => (.counter, name)) ++ gauges.map (fun name => (.gauge, name))

namespace SharedMetrics

variable {thread : Type}

def setCells (s : SharedMetrics thread) (kind : CellKind) (cells : StringMap UInt64) :
    SharedMetrics thread :=
  { s with cells := Function.update s.cells kind cells }

def value (s : SharedMetrics thread) (kind : CellKind) (name : Bytes) : UInt64 :=
  ((s.cells kind).lookup name).getD 0

def setValue (s : SharedMetrics thread) (kind : CellKind) (name : Bytes) (value : UInt64) :
    SharedMetrics thread :=
  s.setCells kind ((s.cells kind).insert name value)

def observe (s : SharedMetrics thread) (name : Bytes) (value : Rat) : SharedMetrics thread :=
  let h := (s.histograms.lookup name).getD {}
  { s with histograms := s.histograms.insert name (h.observe value) }

def record (s : SharedMetrics thread) (e : MetricsEvent thread) : SharedMetrics thread :=
  { s with log := s.log ++ [e] }

variable [DecidableEq thread]

def enter (s : SharedMetrics thread) (th : thread) (phase : MetricsPhase) : SharedMetrics thread :=
  { s with phase := Function.update s.phase th phase }

def begin (s : SharedMetrics thread) (th : thread) (request : MetricsRequest) :
    SharedMetrics thread :=
  { s.enter th request.first with
    begun := Function.update s.begun th (s.begun th ++ [request]) }

/-- A step of a thread, if its phase and the locks allow it. -/
def step (s : SharedMetrics thread) : MetricsAction thread -> Option (SharedMetrics thread)
  | .begin th request =>
      match s.phase th with
      | .idle => some (s.begin th request)
      | _ => none
  | .find th =>
      match s.phase th, s.writer with
      | .lookup u, none =>
          if u.name ∈ s.cells u.kind then some (s.enter th (.update u))
          else some (s.enter th (.creation u))
      | _, _ => none
  | .create th =>
      match s.phase th, s.writer, s.readers with
      | .creation u, none, [] =>
          some (((s.setCells u.kind (ensure (s.cells u.kind) u.name)).record
            (.created u.kind u.name)).enter th (.update u))
      | _, _, _ => none
  | .update th =>
      match s.phase th with
      | .update u =>
          some (((s.setValue u.kind u.name (u.apply (s.value u.kind u.name))).record
            (.updated th u)).enter th .idle)
      | _ => none
  | .lock th counters gauges =>
      if Enumerates (s.cells .counter) counters ∧ Enumerates (s.cells .gauge) gauges then
        match s.phase th, s.writer with
        | .resetLock, none =>
            if s.readers = [] then
              some (({ s with writer := some th }.record
                (.locked th (loopOver counters gauges))).enter th
                  (.resetting [] (loopOver counters gauges)))
            else none
        | .renderLock, none =>
            some (({ s with readers := th :: s.readers }.record
              (.locked th (loopOver counters gauges))).enter th
                (.rendering [] (loopOver counters gauges)))
        | _, _ => none
      else none
  | .visit th =>
      match s.phase th with
      | .resetting done ((kind, name) :: left) =>
          some (((s.setValue kind name 0).record (.zeroed th kind name)).enter th
            (.resetting (done ++ [(kind, name)]) left))
      | .rendering done ((kind, name) :: left) =>
          some ((s.record (.loaded th kind name (s.value kind name))).enter th
            (.rendering (done ++ [(kind, name)]) left))
      | _ => none
  | .unlock th =>
      match s.phase th with
      | .resetting _ [] => some ({ s with writer := none }.enter th .clearing)
      | .rendering _ [] => some ({ s with readers := s.readers.erase th }.enter th .scraping)
      | _ => none
  | .histograms th =>
      match s.phase th with
      | .observation name value =>
          some (((s.observe name value).record (.observed th name value)).enter th .idle)
      | .clearing => some (({ s with histograms := ∅ }.record (.cleared th)).enter th .idle)
      | .scraping => some ((s.record (.scraped th s.histograms)).enter th .idle)
      | _ => none

inductive Stepped (s : SharedMetrics thread) :
    MetricsAction thread -> SharedMetrics thread -> Prop where
  | began {th : thread} (request : MetricsRequest) :
      s.phase th = .idle -> Stepped s (.begin th request) (s.begin th request)
  | found {th : thread} {u : CellUpdate} :
      s.phase th = .lookup u -> u.name ∈ s.cells u.kind ->
        Stepped s (.find th) (s.enter th (.update u))
  | missed {th : thread} {u : CellUpdate} :
      s.phase th = .lookup u -> Stepped s (.find th) (s.enter th (.creation u))
  | created {th : thread} {u : CellUpdate} :
      s.phase th = .creation u -> s.writer = none -> s.readers = [] ->
        Stepped s (.create th)
          (((s.setCells u.kind (ensure (s.cells u.kind) u.name)).record
            (.created u.kind u.name)).enter th (.update u))
  | updated {th : thread} {u : CellUpdate} :
      s.phase th = .update u ->
        Stepped s (.update th)
          (((s.setValue u.kind u.name (u.apply (s.value u.kind u.name))).record
            (.updated th u)).enter th .idle)
  | resetLocked {th : thread} {counters gauges : List Bytes} :
      s.phase th = .resetLock -> Enumerates (s.cells .counter) counters ->
        Enumerates (s.cells .gauge) gauges -> s.writer = none -> s.readers = [] ->
          Stepped s (.lock th counters gauges)
            (({ s with writer := some th }.record (.locked th (loopOver counters gauges))).enter th
              (.resetting [] (loopOver counters gauges)))
  | renderLocked {th : thread} {counters gauges : List Bytes} :
      s.phase th = .renderLock -> Enumerates (s.cells .counter) counters ->
        Enumerates (s.cells .gauge) gauges -> s.writer = none ->
          Stepped s (.lock th counters gauges)
            (({ s with readers := th :: s.readers }.record
              (.locked th (loopOver counters gauges))).enter th
                (.rendering [] (loopOver counters gauges)))
  | zeroed {th : thread} {kind : CellKind} {name : Bytes} {done left : List (CellKind × Bytes)} :
      s.phase th = .resetting done ((kind, name) :: left) ->
        Stepped s (.visit th)
          (((s.setValue kind name 0).record (.zeroed th kind name)).enter th
            (.resetting (done ++ [(kind, name)]) left))
  | loaded {th : thread} {kind : CellKind} {name : Bytes} {done left : List (CellKind × Bytes)} :
      s.phase th = .rendering done ((kind, name) :: left) ->
        Stepped s (.visit th)
          ((s.record (.loaded th kind name (s.value kind name))).enter th
            (.rendering (done ++ [(kind, name)]) left))
  | resetUnlocked {th : thread} {done : List (CellKind × Bytes)} :
      s.phase th = .resetting done [] ->
        Stepped s (.unlock th) ({ s with writer := none }.enter th .clearing)
  | renderUnlocked {th : thread} {done : List (CellKind × Bytes)} :
      s.phase th = .rendering done [] ->
        Stepped s (.unlock th) ({ s with readers := s.readers.erase th }.enter th .scraping)
  | observed {th : thread} {name : Bytes} {value : Rat} :
      s.phase th = .observation name value ->
        Stepped s (.histograms th)
          (((s.observe name value).record (.observed th name value)).enter th .idle)
  | cleared {th : thread} :
      s.phase th = .clearing ->
        Stepped s (.histograms th)
          (({ s with histograms := ∅ }.record (.cleared th)).enter th .idle)
  | scraped {th : thread} :
      s.phase th = .scraping ->
        Stepped s (.histograms th) ((s.record (.scraped th s.histograms)).enter th .idle)

theorem stepped_of_step {s t : SharedMetrics thread} {a : MetricsAction thread}
    (h : s.step a = some t) : Stepped s a t := by
  cases a with
  | begin th request =>
      simp only [step] at h
      split at h
      · next hphase =>
          cases h
          exact .began request hphase
      · cases h
  | find th =>
      simp only [step] at h
      split at h
      · next u hphase hwriter =>
          split at h
          · next hfound =>
              cases h
              exact .found hphase hfound
          · cases h
            exact .missed hphase
      · cases h
  | create th =>
      simp only [step] at h
      split at h
      · next u hphase hwriter hreaders =>
          cases h
          exact .created hphase hwriter hreaders
      · cases h
  | update th =>
      simp only [step] at h
      split at h
      · next u hphase =>
          cases h
          exact .updated hphase
      · cases h
  | lock th counters gauges =>
      simp only [step] at h
      split at h
      · next horder =>
          split at h
          · next hphase hwriter =>
              split at h
              · next hreaders =>
                  cases h
                  exact .resetLocked hphase horder.left horder.right hwriter hreaders
              · cases h
          · next hphase hwriter =>
              cases h
              exact .renderLocked hphase horder.left horder.right hwriter
          · cases h
      · cases h
  | visit th =>
      simp only [step] at h
      split at h
      · next done kind name left hphase =>
          cases h
          exact .zeroed hphase
      · next done kind name left hphase =>
          cases h
          exact .loaded hphase
      · cases h
  | unlock th =>
      simp only [step] at h
      split at h
      · next done hphase =>
          cases h
          exact .resetUnlocked hphase
      · next done hphase =>
          cases h
          exact .renderUnlocked hphase
      · cases h
  | histograms th =>
      simp only [step] at h
      split at h
      · next name value hphase =>
          cases h
          exact .observed hphase
      · next hphase =>
          cases h
          exact .cleared hphase
      · next hphase =>
          cases h
          exact .scraped hphase
      · cases h

end SharedMetrics
end Observability
end CppCommons
