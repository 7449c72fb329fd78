import CppCommons.Cxx.StandardLibrary

/-!
# Health registry

Named check functions, called one after the other in the order in which the
`std::unordered_map` is iterated.  What a check reads and changes elsewhere is a
state `world` that is passed along.
-/

namespace CppCommons
namespace Observability

open Cxx

inductive HealthStatus where
  | up
  | degraded
  | down
deriving DecidableEq

structure HealthCheck where
  name : Bytes
  status : HealthStatus
  detail : Bytes
deriving DecidableEq

structure HealthReport where
  overall : HealthStatus
  checks : List HealthCheck
deriving DecidableEq

abbrev CheckFn (world : Type) := world -> HealthCheck × world

structure HealthRegistry (world : Type) where
  checks : StringMap (CheckFn world) := ∅

namespace HealthRegistry

variable {world : Type}

/-- `emplace` keeps a check that is already registered under the name. -/
def registerCheck (registry : HealthRegistry world) (name : Bytes) (fn : CheckFn world) :
    HealthRegistry world :=
  if name ∈ registry.checks then registry
  else { checks := registry.checks.insert name fn }

/-- The entries in an order in which the map may be iterated. -/
def Iteration (registry : HealthRegistry world) : Type :=
  { order : List (Sigma (fun _ : Bytes => CheckFn world)) //
    (order : Multiset (Sigma (fun _ : Bytes => CheckFn world))) = registry.checks.entries }

def record (report : HealthReport) (check : HealthCheck) : HealthReport where
  overall :=
    if check.status = .down then .down
    else if check.status = .degraded ∧ report.overall = .up then .degraded
    else report.overall
  checks := report.checks ++ [check]

def runLoop : List (Sigma (fun _ : Bytes => CheckFn world)) -> HealthReport -> world ->
    HealthReport × world
  | [], report, w => (report, w)
  | entry :: entries, report, w =>
      let checked := entry.snd w
      runLoop entries (record report checked.fst) checked.snd

def runAll (registry : HealthRegistry world) (order : registry.Iteration) (w : world) :
    HealthReport × world :=
  runLoop order.val { overall := .up, checks := [] } w

/-!
## What the checks return

The results are those of the check functions, called in turn on the state that the
ones before have left.
-/

def resultsFrom : List (Sigma (fun _ : Bytes => CheckFn world)) -> world -> List HealthCheck
  | [], _ => []
  | entry :: entries, w => (entry.snd w).fst :: resultsFrom entries (entry.snd w).snd

def results (registry : HealthRegistry world) (order : registry.Iteration) (w : world) :
    List HealthCheck :=
  resultsFrom order.val w

theorem checks_runLoop (entries : List (Sigma (fun _ : Bytes => CheckFn world)))
    (report : HealthReport) (w : world) :
    (runLoop entries report w).fst.checks = report.checks ++ resultsFrom entries w := by
  induction entries generalizing report w with
  | nil => simp [runLoop, resultsFrom]
  | cons entry entries ih => simp [runLoop, resultsFrom, ih, record]

theorem checks_runAll (registry : HealthRegistry world) (order : registry.Iteration) (w : world) :
    (registry.runAll order w).fst.checks = registry.results order w := by
  rw [runAll, checks_runLoop]
  rfl

end HealthRegistry

end Observability
end CppCommons
