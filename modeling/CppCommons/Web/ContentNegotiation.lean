import CppCommons.Foundation.RankedSearch
import CppCommons.Web.AcceptHeader
import CppCommons.Web.MiddlewareChain

/-!
# Content negotiation

`negotiate_content_type` sorts the entries of an `Accept` header by quality and
takes the first supported type that the first matching entry matches.  A quality
is an element of a linear order, and `std::sort` is any sort by descending
quality.
-/

namespace CppCommons
namespace Web

open Cxx
open Foundation

def matchesType (type sup : Bytes) : Bool :=
  if type = ascii "*/*" ∨ type = sup then true
  else
    match Bytes.find type slash 0 with
    | none => false
    | some i =>
        if type.drop (i + 1) = ascii "*" then
          match Bytes.find sup slash 0 with
          | none => false
          | some j => type.take i = sup.take j
        else false

def firstMatch (supported : List Bytes) (type : Bytes) : Option Bytes :=
  supported.find? (matchesType type)

section Negotiation

variable {Q : Type} [LinearOrder Q] [One Q]

/-- `std::sort` with the comparison of the qualities. -/
abbrev QualitySort (Q : Type) [LinearOrder Q] :=
  DescendingSort (fun entry : AcceptEntry Q => entry.q)

def negotiateContentType (stod : Bytes -> Option Q) (sorter : QualitySort Q)
    (acceptHeader : Bytes) (supported : List Bytes) : Bytes :=
  if acceptHeader = [] ∨ acceptHeader = ascii "*/*" then supported.head?.getD []
  else
    ((sorter.sort (readEntries stod acceptHeader 0)).findSome?
      (fun entry => firstMatch supported entry.type)).getD []

def notAcceptable : HttpResponse where
  statusCode := 406
  headers := Finmap.singleton (ascii "Content-Type") (ascii "text/plain")
  body := ascii "Not Acceptable: no supported media type matches Accept header"

def setContentType (contentType : Bytes) (resp : HttpResponse) : HttpResponse :=
  if resp.headers.lookup (ascii "Content-Type") = none then
    { resp with headers := resp.headers.insert (ascii "Content-Type") contentType }
  else resp

def contentNegotiationMiddleware {world exn : Type} (stod : Bytes -> Option Q)
    (sorter : QualitySort Q) (supported : List Bytes := [ascii "application/json"]) :
    Middleware world exn :=
  fun w req =>
    let accept := (req.header (ascii "Accept")).getD (ascii "*/*")
    let contentType := negotiateContentType stod sorter accept supported
    if contentType.isEmpty then .done w (.ok notAcceptable)
    else .call w req (fun w' answer => .done w' (answer.map (setContentType contentType)))

end Negotiation

/-!
## Matching

`Accepts` says when an entry accepts a type, and the test of the source decides it.
-/

/-- The entry accepts everything, this type, or all subtypes of its major type. -/
inductive Accepts : Bytes -> Bytes -> Prop where
  | any (sup : Bytes) : Accepts (ascii "*/*") sup
  | same (sup : Bytes) : Accepts sup sup
  | subtype {major : Bytes} (sub : Bytes) (hmajor : slash ∉ major) :
      Accepts (major ++ slash :: ascii "*") (major ++ slash :: sub)

theorem matchesType_of_accepts {type sup : Bytes} (h : Accepts type sup) :
    matchesType type sup = true := by
  cases h with
  | any => rw [matchesType, if_pos (Or.inl rfl)]
  | same => rw [matchesType, if_pos (Or.inr rfl)]
  | subtype sub hmajor =>
      next major =>
        unfold matchesType
        split
        · rfl
        · simp only [Bytes.find_zero_append_cons hmajor, Bytes.drop_append_cons, if_true,
            List.take_left, decide_true]

theorem accepts_of_matchesType {type sup : Bytes} (h : matchesType type sup = true) :
    Accepts type sup := by
  unfold matchesType at h
  split at h
  next heq =>
    rcases heq with heq | heq
    · rw [heq]
      exact .any sup
    · rw [heq]
      exact .same sup
  next =>
    by_cases htype : slash ∈ type
    · rcases List.eq_append_cons_of_mem htype with ⟨major, subtype, rfl, hmajor⟩
      simp only [Bytes.find_zero_append_cons hmajor, List.take_left, Bytes.drop_append_cons] at h
      split at h
      next hstar =>
        by_cases hsup : slash ∈ sup
        · rcases List.eq_append_cons_of_mem hsup with ⟨major', sub, rfl, hmajor'⟩
          simp only [Bytes.find_zero_append_cons hmajor', List.take_left, decide_eq_true_eq] at h
          rw [hstar, ← h]
          exact .subtype sub hmajor
        · have hnone : Bytes.find sup slash 0 = none := (Bytes.find_eq_none_iff _ _ _).mpr hsup
          simp [hnone] at h
      next => cases h
    · have hnone : Bytes.find type slash 0 = none := (Bytes.find_eq_none_iff _ _ _).mpr htype
      simp [hnone] at h

theorem matchesType_iff (type sup : Bytes) : matchesType type sup = true <-> Accepts type sup :=
  ⟨accepts_of_matchesType, matchesType_of_accepts⟩

structure FirstAccepted (supported : List Bytes) (type result : Bytes) : Prop where
  accepts : Accepts type result
  first : exists before after, supported = before ++ result :: after ∧
    forall sup, sup ∈ before -> ¬ Accepts type sup

theorem firstMatch_eq_some_iff (supported : List Bytes) (type result : Bytes) :
    firstMatch supported type = some result <-> FirstAccepted supported type result := by
  rw [firstMatch, List.find?_eq_some_iff_append, matchesType_iff]
  constructor
  · intro h
    rcases h with ⟨haccepts, before, after, hsplit, hbefore⟩
    refine ⟨haccepts, before, after, hsplit, ?_⟩
    intro sup hsup
    rw [← matchesType_iff]
    simpa using hbefore sup hsup
  · intro h
    rcases h.first with ⟨before, after, hsplit, hbefore⟩
    refine ⟨h.accepts, before, after, hsplit, ?_⟩
    intro sup hsup
    have hnot := hbefore sup hsup
    rw [← matchesType_iff] at hnot
    simpa using hnot

/-- Some supported type is accepted by the entry. -/
def AcceptsSome (supported : List Bytes) (type : Bytes) : Prop :=
  exists sup, sup ∈ supported ∧ Accepts type sup

theorem firstMatch_ne_none_iff (supported : List Bytes) (type : Bytes) :
    firstMatch supported type ≠ none <-> AcceptsSome supported type := by
  rw [firstMatch, ne_eq, List.find?_eq_none]
  simp [AcceptsSome, matchesType_iff]

/-!
## The selected type

The result is a best match, or there is no match and it is empty.  Every best match
is the result under some sort.
-/

section Selection

variable {Q : Type} [LinearOrder Q]

/-- A best match: no entry that accepts a supported type has a greater quality. -/
structure BestMatch (entries : List (AcceptEntry Q)) (supported : List Bytes) (result : Bytes)
    (entry : AcceptEntry Q) : Prop where
  mem : entry ∈ entries
  firstAccepted : FirstAccepted supported entry.type result
  best : forall entry', entry' ∈ entries -> AcceptsSome supported entry'.type ->
    entry'.q <= entry.q

theorem best_iff (entries : List (AcceptEntry Q)) (supported : List Bytes) (result : Bytes) :
    DescendingSort.Best (fun entry : AcceptEntry Q => entry.q)
        (fun entry => firstMatch supported entry.type) entries result <->
      exists entry, BestMatch entries supported result entry := by
  constructor
  · intro h
    rcases h with ⟨entry, hmem, hfirst, hbest⟩
    refine ⟨entry, hmem, (firstMatch_eq_some_iff _ _ _).mp hfirst, ?_⟩
    intro entry' hmem' hsome
    exact hbest entry' hmem' ((firstMatch_ne_none_iff _ _).mpr hsome)
  · intro h
    rcases h with ⟨entry, hmatch⟩
    refine ⟨entry, hmatch.mem, (firstMatch_eq_some_iff _ _ _).mpr hmatch.firstAccepted, ?_⟩
    intro entry' hmem' hhit
    exact hmatch.best entry' hmem' ((firstMatch_ne_none_iff _ _).mp hhit)

variable [One Q] {stod : Bytes -> Option Q}

theorem negotiateContentType_eq (sorter : QualitySort Q) {acceptHeader : Bytes}
    (hne : acceptHeader ≠ []) (supported : List Bytes) :
    negotiateContentType stod sorter acceptHeader supported =
      ((sorter.sort (readEntries stod acceptHeader 0)).findSome?
        (fun entry => firstMatch supported entry.type)).getD [] := by
  by_cases hwildcard : acceptHeader = ascii "*/*"
  · have hsort : sorter.sort [{ type := ascii "*/*", q := 1 }] =
        [{ type := ascii "*/*", q := 1 }] :=
      List.perm_singleton.mp (sorter.perm _)
    have hfirst : firstMatch supported (ascii "*/*") = supported.head? := by
      cases supported with
      | nil => rfl
      | cons sup rest =>
          rw [firstMatch, List.find?_cons_of_pos (matchesType_of_accepts (.any sup))]
          rfl
    rw [negotiateContentType, if_pos (Or.inr hwildcard), hwildcard, readEntries_wildcard, hsort,
      List.findSome?_singleton, hfirst]
  · rw [negotiateContentType, if_neg (by simp [hne, hwildcard])]

theorem FirstAccepted.acceptsSome {supported : List Bytes} {type result : Bytes}
    (h : FirstAccepted supported type result) : AcceptsSome supported type := by
  rcases h.first with ⟨before, after, hsplit, _⟩
  refine ⟨result, ?_, h.accepts⟩
  rw [hsplit]
  exact List.mem_append_right before List.mem_cons_self

theorem negotiateContentType_cases (sorter : QualitySort Q) {acceptHeader : Bytes}
    (hne : acceptHeader ≠ []) (supported : List Bytes) :
    (exists entry, BestMatch (readEntries stod acceptHeader 0) supported
        (negotiateContentType stod sorter acceptHeader supported) entry) ∨
      (negotiateContentType stod sorter acceptHeader supported = [] ∧
        forall entry, entry ∈ readEntries stod acceptHeader 0 ->
          ¬ AcceptsSome supported entry.type) := by
  rw [negotiateContentType_eq sorter hne]
  cases hfound : (sorter.sort (readEntries stod acceptHeader 0)).findSome?
      (fun entry => firstMatch supported entry.type) with
  | none =>
      refine Or.inr ⟨rfl, ?_⟩
      intro entry hmem hsome
      have hmiss := (sorter.findSome?_eq_none_iff _).mp hfound entry hmem
      exact (firstMatch_ne_none_iff _ _).mpr hsome hmiss
  | some result => exact Or.inl ((best_iff _ _ _).mp (sorter.best_of_findSome? hfound))

/--
For every header, list of supported types and sort by quality: the splitting
loop finds the one list of entries that the header stands for, with at most one
pass for each character; the empty header and the lone wildcard select the first
supported type; a header that is not empty selects a best match if some entry
accepts a supported type, and nothing if none does.
-/
theorem negotiateContentType_selects (stod : Bytes -> Option Q) (sorter : QualitySort Q)
    (acceptHeader : Bytes) (supported : List Bytes) :
    (forall entries, AcceptEntries stod acceptHeader entries <->
      entries = readEntries stod acceptHeader 0) ∧
    (readEntries stod acceptHeader 0).length <= acceptHeader.length ∧
    (acceptHeader = [] ∨ acceptHeader = ascii "*/*" ->
      negotiateContentType stod sorter acceptHeader supported = supported.head?.getD []) ∧
    (acceptHeader ≠ [] ->
      ((exists entry, entry ∈ readEntries stod acceptHeader 0 ∧
          AcceptsSome supported entry.type) ->
        exists entry, BestMatch (readEntries stod acceptHeader 0) supported
          (negotiateContentType stod sorter acceptHeader supported) entry) ∧
      ((¬ exists entry, entry ∈ readEntries stod acceptHeader 0 ∧
          AcceptsSome supported entry.type) ->
        negotiateContentType stod sorter acceptHeader supported = [])) := by
  refine ⟨acceptEntries_iff stod acceptHeader, length_readEntries_le stod acceptHeader 0, ?_, ?_⟩
  · intro hspecial
    rw [negotiateContentType, if_pos hspecial]
  · intro hne
    rcases negotiateContentType_cases sorter hne supported with ⟨best, hbest⟩ | ⟨hempty, hnone⟩
    · constructor
      · intro _
        exact ⟨best, hbest⟩
      · intro hmatch
        exact absurd ⟨best, hbest.mem, hbest.firstAccepted.acceptsSome⟩ hmatch
    · constructor
      · intro hmatch
        rcases hmatch with ⟨entry, hmem, hsome⟩
        exact absurd hsome (hnone entry hmem)
      · intro _
        exact hempty

theorem exists_sorter_of_bestMatch {acceptHeader : Bytes} {supported : List Bytes}
    {result : Bytes} {entry : AcceptEntry Q} (hne : acceptHeader ≠ [])
    (h : BestMatch (readEntries stod acceptHeader 0) supported result entry) :
    exists sorter : QualitySort Q,
      negotiateContentType stod sorter acceptHeader supported = result := by
  rcases (DescendingSort.exists_sort_iff_best _ _).mpr ((best_iff _ _ _).mpr ⟨entry, h⟩) with
    ⟨sorter, hfound⟩
  refine ⟨sorter, ?_⟩
  rw [negotiateContentType_eq sorter hne, hfound]
  rfl

theorem bestMatch_of_ne_nil (sorter : QualitySort Q) {acceptHeader : Bytes}
    (hne : acceptHeader ≠ []) {supported : List Bytes}
    (hresult : negotiateContentType stod sorter acceptHeader supported ≠ []) :
    exists entry, BestMatch (readEntries stod acceptHeader 0) supported
      (negotiateContentType stod sorter acceptHeader supported) entry := by
  rcases negotiateContentType_cases sorter hne supported with hbest | ⟨hempty, _⟩
  · exact hbest
  · exact absurd hempty hresult

theorem negotiateContentType_of_singleton (sorter : QualitySort Q) {acceptHeader : Bytes}
    (hne : acceptHeader ≠ []) {entry : AcceptEntry Q}
    (hentries : readEntries stod acceptHeader 0 = [entry]) (supported : List Bytes) :
    negotiateContentType stod sorter acceptHeader supported =
      (firstMatch supported entry.type).getD [] := by
  have hsort : sorter.sort [entry] = [entry] := List.perm_singleton.mp (sorter.perm _)
  rw [negotiateContentType_eq sorter hne, hentries, hsort, List.findSome?_singleton]

/-!
## Refused types

A type that is accepted with quality zero only is refused.  The code selects it
nevertheless unless another entry outranks the refusal.
-/

variable [Zero Q]

/-- The header accepts the type, but only with quality zero. -/
structure Refused (entries : List (AcceptEntry Q)) (type : Bytes) : Prop where
  accepted : exists entry, entry ∈ entries ∧ Accepts entry.type type
  zero : forall entry, entry ∈ entries -> Accepts entry.type type -> entry.q = 0

/-- No refused type is selected, and the middleware serves none. -/
structure HonoursZero (world exn : Type) (stod : Bytes -> Option Q) (acceptHeader : Bytes)
    (supported : List Bytes) : Prop where
  not_refused : forall sorter : QualitySort Q,
    negotiateContentType stod sorter acceptHeader supported ≠ [] ->
      ¬ Refused (readEntries stod acceptHeader 0)
        (negotiateContentType stod sorter acceptHeader supported)
  not_served : forall (sorter : QualitySort Q) (w : world) (req : HttpRequest),
    (req.header (ascii "Accept")).getD (ascii "*/*") = acceptHeader ->
      Refused (readEntries stod acceptHeader 0)
        (negotiateContentType stod sorter acceptHeader supported) ->
        contentNegotiationMiddleware stod sorter supported w req =
          (.done w (.ok notAcceptable) : Script world exn)

/--
Wherever an entry of quality zero comes first to a supported type, another entry
with a positive quality accepts some supported type, or one with another quality
than zero accepts this one.
-/
def ZeroOutranked (entries : List (AcceptEntry Q)) (supported : List Bytes) : Prop :=
  forall entry type, entry ∈ entries -> entry.q = 0 -> FirstAccepted supported entry.type type ->
    type ≠ [] ->
      (exists entry', entry' ∈ entries ∧ AcceptsSome supported entry'.type ∧ 0 < entry'.q) ∨
        exists entry', entry' ∈ entries ∧ Accepts entry'.type type ∧ entry'.q ≠ 0

theorem not_refused_of_zeroOutranked {acceptHeader : Bytes} {supported : List Bytes}
    (h : ZeroOutranked (readEntries stod acceptHeader 0) supported) (sorter : QualitySort Q)
    (hresult : negotiateContentType stod sorter acceptHeader supported ≠ []) :
    ¬ Refused (readEntries stod acceptHeader 0)
      (negotiateContentType stod sorter acceptHeader supported) := by
  intro hrefused
  by_cases hne : acceptHeader = []
  · -- the empty header has no entries
    rcases hrefused.accepted with ⟨entry, hmem, _⟩
    rw [hne, readEntries_nil] at hmem
    cases hmem
  · rcases bestMatch_of_ne_nil sorter hne hresult with ⟨entry, hmatch⟩
    have hzero := hrefused.zero entry hmatch.mem hmatch.firstAccepted.accepts
    rcases h entry _ hmatch.mem hzero hmatch.firstAccepted hresult with
      ⟨entry', hmem', hsome, hpos⟩ | ⟨entry', hmem', haccepts, hnonzero⟩
    · have hle := hmatch.best entry' hmem' hsome
      rw [hzero] at hle
      exact absurd hle (not_le_of_gt hpos)
    · exact hnonzero (hrefused.zero entry' hmem' haccepts)

theorem exists_sorter_refused {acceptHeader : Bytes} {supported : List Bytes}
    (h : ¬ ZeroOutranked (readEntries stod acceptHeader 0) supported) :
    exists sorter : QualitySort Q,
      negotiateContentType stod sorter acceptHeader supported ≠ [] ∧
        Refused (readEntries stod acceptHeader 0)
          (negotiateContentType stod sorter acceptHeader supported) := by
  unfold ZeroOutranked at h
  push Not at h
  rcases h with ⟨entry, type, hmem, hzero, hfirst, htype, hpositive, hothers⟩
  have hne : acceptHeader ≠ [] := by
    intro hnil
    rw [hnil, readEntries_nil] at hmem
    cases hmem
  have hmatch : BestMatch (readEntries stod acceptHeader 0) supported type entry := by
    refine ⟨hmem, hfirst, ?_⟩
    intro entry' hmem' hsome
    rw [hzero]
    exact hpositive entry' hmem' hsome
  rcases exists_sorter_of_bestMatch hne hmatch with ⟨sorter, hselected⟩
  refine ⟨sorter, ?_⟩
  rw [hselected]
  exact ⟨htype, ⟨entry, hmem, hfirst.accepts⟩, hothers⟩

end Selection

def readZero (text : Bytes) : Option Nat :=
  if text = ascii "0" then some 0 else none

theorem readEntries_refusedHtml :
    readEntries readZero (ascii "text/html;q=0") 0 = [{ type := ascii "text/html", q := 0 }] := by
  rw [readEntries_token readZero (by decide) (by decide)]
  decide

end Web
end CppCommons
