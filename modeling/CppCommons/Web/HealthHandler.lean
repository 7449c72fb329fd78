import CppCommons.Foundation.JsonSyntax
import CppCommons.Observability.HealthRegistry
import CppCommons.Web.Http

/-!
# Health handlers

`health_ready_handler` runs the checks of a registry and concatenates a JSON
document from their results.  Names and details are not escaped, so the document
is right exactly when none of them needs to be.
-/

namespace CppCommons
namespace Web

open Cxx
open Foundation
open Foundation.Ascii
open Foundation.JsonSyntax
open Observability

def jsonHeaders : StringMap Bytes :=
  Finmap.singleton (ascii "Content-Type") (ascii "application/json")

def statusText : HealthStatus -> Bytes
  | .up => ascii "up"
  | .degraded => ascii "degraded"
  | .down => ascii "down"

def appendCheck (json : Bytes) (c : HealthCheck) : Bytes :=
  (if !json.isEmpty then json ++ ascii "," else json) ++
    (ascii "\"" ++ c.name ++ ascii "\":\x7b\"status\":\"") ++ statusText c.status ++
    (ascii "\",\"detail\":\"" ++ c.detail ++ ascii "\"\x7d")

def checksJson (checks : List HealthCheck) : Bytes :=
  checks.foldl appendCheck []

def overallText (report : HealthReport) : Bytes :=
  if report.overall = .up then ascii "up" else ascii "down"

def healthBody (report : HealthReport) : Bytes :=
  ascii "\x7b\"status\":\"" ++ overallText report ++ ascii "\",\"checks\":\x7b" ++
    checksJson report.checks ++ ascii "\x7d\x7d"

def healthReadyHandler {world : Type} (registry : HealthRegistry world)
    (order : registry.Iteration) (_ : HttpRequest) (w : world) : HttpResponse × world :=
  let ran := registry.runAll order w
  ({ statusCode := if ran.fst.overall = .up then 200 else 503
     headers := jsonHeaders
     body := healthBody ran.fst }, ran.snd)

/-!
## What the document should say

An object with a member `checks` that holds the checks and nothing else.
-/

def checkMember (c : HealthCheck) : Bytes × Value :=
  (c.name, .object [(ascii "status", .string (statusText c.status)),
    (ascii "detail", .string c.detail)])

def MapsChecks (checks : List HealthCheck) (v : Value) : Prop :=
  exists members entries, v = .object members ∧
    members.filter (fun m => m.fst == ascii "checks") = [(ascii "checks", .object entries)] ∧
    entries.Perm (checks.map checkMember)

/-- The body is JSON and decodes to a document about the checks. -/
def RightBody (checks : List HealthCheck) (body : Bytes) : Prop :=
  WellFormed body ∧ forall v, Denotes body v -> MapsChecks checks v

/-!
## The document that is written

The concatenated text is that of one object, written out without escapes.
-/

def healthDocument (report : HealthReport) : Value :=
  .object [(ascii "status", .string (overallText report)),
    (ascii "checks", .object (report.checks.map checkMember))]

theorem foldl_appendCheck {json : Bytes} (hjson : json ≠ []) (checks : List HealthCheck) :
    checks.foldl appendCheck json ++ ascii "\x7d" =
      json ++ (moreMembers (checks.map checkMember)).flatMap Token.text := by
  induction checks generalizing json with
  | nil => simp [ascii]
  | cons c checks ih =>
      have hnext : appendCheck json c ≠ [] := by
        simp [appendCheck, hjson]
      rw [List.foldl_cons, ih hnext]
      simp [appendCheck, hjson, checkMember, quote, ascii]

theorem checksJson_text (checks : List HealthCheck) :
    ascii "\x7b" ++ checksJson checks ++ ascii "\x7d" =
      compact (.object (checks.map checkMember)) := by
  cases checks with
  | nil => simp [checksJson, ascii]
  | cons c checks =>
      have hfirst : appendCheck [] c ≠ [] := by
        simp [appendCheck, ascii]
      rw [checksJson, List.foldl_cons, List.append_assoc, foldl_appendCheck hfirst]
      simp [appendCheck, checkMember, quote, ascii]

theorem healthBody_eq (report : HealthReport) :
    healthBody report = compact (healthDocument report) := by
  have hdocument : compact (healthDocument report) =
      ascii "\x7b\"status\":\"" ++ overallText report ++ ascii "\",\"checks\":" ++
        compact (.object (report.checks.map checkMember)) ++ ascii "\x7d" := by
    simp [healthDocument, quote, ascii]
  rw [hdocument, ← checksJson_text]
  simp [healthBody, ascii]

theorem textual_checkMember (c : HealthCheck) : Textual (checkMember c).snd.tokens := by
  apply textual_object
  simp [textual_string]

theorem textual_healthDocument (report : HealthReport) :
    Textual (healthDocument report).tokens := by
  have hchecks : Textual (Value.object (report.checks.map checkMember)).tokens := by
    apply textual_object
    simp [textual_checkMember]
  apply textual_object
  simp [textual_string, hchecks]

/-!
## When it is right

A name or detail that needs an escape would make a right document longer than the
one that is written.
-/

/-- Names and details that can be put between quotes as they are. -/
def PlainChecks (checks : List HealthCheck) : Prop :=
  forall c, c ∈ checks -> Plain c.name ∧ Plain c.detail

theorem plain_status : Plain (ascii "status") :=
  plain_of_isPlainAscii (by decide)

theorem plain_statusText (status : HealthStatus) : Plain (statusText status) := by
  cases status <;> exact plain_of_isPlainAscii (by decide)

theorem plain_overallText (report : HealthReport) : Plain (overallText report) := by
  unfold overallText
  split <;> exact plain_of_isPlainAscii (by decide)

theorem plainStrings_healthDocument_iff (report : HealthReport) :
    PlainStrings (healthDocument report) <-> PlainChecks report.checks := by
  have hchecks : Plain (ascii "checks") := plain_of_isPlainAscii (by decide)
  have hdetail : Plain (ascii "detail") := plain_of_isPlainAscii (by decide)
  simp [healthDocument, plainStrings_object_iff, plain_status, plain_overallText, hchecks,
    plain_statusText, hdetail, PlainChecks, checkMember]

theorem mapsChecks_healthDocument (report : HealthReport) :
    MapsChecks report.checks (healthDocument report) := by
  refine ⟨_, _, rfl, ?_, List.Perm.refl _⟩
  rfl

theorem status_first {report : HealthReport} {v : Value} (h : Denotes (healthBody report) v) :
    exists members, v = .object ((ascii "status", .string (overallText report)) :: members) := by
  have hsplit : healthBody report =
      ([.symbol .beginObject, .string (ascii "status"), .symbol .nameSeparator,
        .string (overallText report)] : List Token).flatMap Token.text ++
        (ascii ",\"checks\":\x7b" ++ checksJson report.checks ++ ascii "\x7d\x7d") := by
    simp [healthBody, Token.text, Symbol.byte, quote, ascii]
  have hscan := h.left
  rw [hsplit] at hscan
  have hoverall := (plain_overallText report).right.unquoted
  have hstatus := plain_status.right.unquoted
  exact object_of_first_tokens
    (prefix_of_scan (by simp [Token.Framed, hoverall, hstatus]) hscan)

theorem mem_of_mapsChecks {checks : List HealthCheck} {overall : Bytes}
    {members : List (Bytes × Value)}
    (h : MapsChecks checks (.object ((ascii "status", .string overall) :: members))) :
    exists entries, (ascii "checks", Value.object entries) ∈ members ∧
      entries.Perm (checks.map checkMember) := by
  rcases h with ⟨all, entries, hobject, hfilter, hperm⟩
  cases hobject
  have hother : (ascii "status" == ascii "checks") = false := by decide
  rw [List.filter_cons_of_neg (by simp [hother])] at hfilter
  have hmem : (ascii "checks", Value.object entries) ∈
      members.filter (fun m => m.fst == ascii "checks") := by
    rw [hfilter]
    exact List.mem_singleton_self _
  exact ⟨entries, List.mem_of_mem_filter hmem, hperm⟩

theorem weight_le_of_mem {report : HealthReport} {members entries : List (Bytes × Value)}
    (hmem : (ascii "checks", Value.object entries) ∈ members)
    (hperm : entries.Perm (report.checks.map checkMember)) :
    weight (healthDocument report).tokens ≤
      weight (Value.object
        ((ascii "status", .string (overallText report)) :: members)).tokens := by
  have hsum : memberWeight (ascii "checks", Value.object entries) + 1 ≤
      (members.map (fun m => memberWeight m + 1)).sum :=
    List.le_sum_of_mem (List.mem_map.mpr ⟨_, hmem, rfl⟩)
  have hsame : memberWeight (ascii "checks", Value.object (report.checks.map checkMember)) =
      memberWeight (ascii "checks", Value.object entries) := by
    simp only [memberWeight, weight_object_of_perm hperm]
  rw [healthDocument, weight_object, weight_object]
  simp only [List.map_cons, List.sum_cons, List.map_nil, List.sum_nil, hsame]
  lia

theorem plainChecks_of_mapsChecks {report : HealthReport} {v : Value}
    (hv : Denotes (healthBody report) v) (hmaps : MapsChecks report.checks v) :
    PlainChecks report.checks := by
  rcases status_first hv with ⟨members, hobject⟩
  rw [hobject] at hv hmaps
  rcases mem_of_mapsChecks hmaps with ⟨entries, hmem, hperm⟩
  have hweight := weight_le_of_mem hmem hperm
  have hlength := weight_eq_length (textual_healthDocument report)
  have hcounts := scan_counts hv.left
  rw [healthBody_eq, compact, ← hlength] at hcounts
  have hliteral := hcounts.right (le_antisymm hcounts.left hweight)
  intro c hc
  have hentry : checkMember c ∈ entries := hperm.mem_iff.mpr (List.mem_map_of_mem hc)
  have hstring : forall s, Token.string s ∈ (Value.object entries).tokens -> Plain s := by
    intro s hs
    have hall := (string_mem_object_iff _).mpr
      ⟨_, List.mem_cons_of_mem (ascii "status", Value.string (overallText report)) hmem, Or.inr hs⟩
    exact ⟨hv.right s hall, hliteral s hall⟩
  constructor
  · exact hstring c.name ((string_mem_object_iff _).mpr ⟨_, hentry, Or.inl rfl⟩)
  · apply hstring c.detail ((string_mem_object_iff _).mpr ⟨_, hentry, Or.inr ?_⟩)
    simp [checkMember, Value.tokens, moreMembers]

theorem rightBody_iff (report : HealthReport) :
    RightBody report.checks (healthBody report) <-> PlainChecks report.checks := by
  constructor
  · intro h
    rcases h.left with ⟨v, hv⟩
    exact plainChecks_of_mapsChecks hv (h.right v hv)
  · intro h
    have hdenotes : Denotes (healthBody report) (healthDocument report) := by
      rw [healthBody_eq]
      exact (denotes_compact_iff (textual_healthDocument report)).mpr
        ((plainStrings_healthDocument_iff report).mpr h)
    refine ⟨⟨_, hdenotes⟩, ?_⟩
    intro v hv
    rw [hv.unique hdenotes]
    exact mapsChecks_healthDocument report

/--
The body is a right JSON document exactly when no name and no detail that a check
returns needs an escape.
-/
theorem healthReady_right_iff {world : Type} (registry : HealthRegistry world)
    (order : registry.Iteration) (req : HttpRequest) (w : world) :
    RightBody (registry.results order w) (healthReadyHandler registry order req w).fst.body <->
      PlainChecks (registry.results order w) := by
  rw [← registry.checks_runAll order w]
  exact rightBody_iff (registry.runAll order w).fst

def brokenTable : HealthCheck where
  name := ascii "db"
  status := .down
  detail := ascii "relation \"orders\" does not exist"

def brokenRegistry : HealthRegistry Unit :=
  HealthRegistry.registerCheck {} (ascii "db") (fun w => (brokenTable, w))

def brokenOrder : brokenRegistry.Iteration :=
  ⟨[⟨ascii "db", fun w => (brokenTable, w)⟩], rfl⟩

theorem quotedDetail_not_right :
    ¬ RightBody (brokenRegistry.results brokenOrder ())
      (healthReadyHandler brokenRegistry brokenOrder {} ()).fst.body := by
  intro h
  rw [← brokenRegistry.checks_runAll brokenOrder ()] at h
  have hplain := (rightBody_iff (brokenRegistry.runAll brokenOrder ()).fst).mp h
  have hdetail := (hplain brokenTable (by decide)).right
  exact hdetail.right.unquoted.left (by decide)

end Web
end CppCommons
