import CppCommons.Cxx.ByteString

/-!
# Email addresses

`Email::parse` looks at the first `@`, at any `.` behind it and for white space.
The documented form is `local@domain.tld`.
-/

namespace CppCommons
namespace Kernel

open Cxx

structure ValidationError where
  message : Bytes
deriving DecidableEq

structure Email where
  address : Bytes
deriving DecidableEq

namespace Email

def atSign : UInt8 := 64

/-- A space, a tab, a newline or a carriage return. -/
def isBlank (c : UInt8) : Bool :=
  c == 32 || c == 9 || c == 10 || c == 13

def value (email : Email) : Bytes := email.address

def parse (input : Bytes) : Except ValidationError Email :=
  if input.isEmpty then .error { message := ascii "Email must not be empty" }
  else
    let noParts : ValidationError :=
      { message := ascii "Email must contain '@' with local and domain parts" }
    match Bytes.find input atSign 0 with
    | none => .error noParts
    | some position =>
        if position = 0 ∨ position = input.length - 1 then .error noParts
        else
          let domain := input.drop (position + 1)
          if Bytes.find domain dot 0 = none then
            .error { message := ascii "Email domain must contain '.'" }
          else if input.any isBlank then
            .error { message := ascii "Email must not contain whitespace" }
          else .ok { address := input }

/-!
## Accepted texts

`PassesTests` is what the parser looks at, `WellFormed` the documented form.  The
difference is what is not tested of the domain.
-/

/-- A non-empty text before the first `@`, a dot somewhere behind it, and no white space. -/
structure PassesTests (input localPart domain : Bytes) : Prop where
  input_eq : input = localPart ++ atSign :: domain
  local_ne_nil : localPart ≠ []
  at_not_mem_local : atSign ∉ localPart
  dot_mem_domain : dot ∈ domain
  not_isBlank : forall c, c ∈ input -> isBlank c = false

/-- One `@`, behind a non-empty text and before two or more non-empty labels. -/
structure WellFormed (input localPart domain : Bytes) : Prop where
  input_eq : input = localPart ++ atSign :: domain
  count_at : input.count atSign = 1
  local_ne_nil : localPart ≠ []
  two_le_labels : 2 <= (domain.splitOn dot).length
  label_ne_nil : forall label, label ∈ domain.splitOn dot -> label ≠ []
  not_isBlank : forall c, c ∈ input -> isBlank c = false

theorem parse_of_passesTests {input localPart domain : Bytes}
    (h : PassesTests input localPart domain) : parse input = .ok { address := input } := by
  have hposition : Bytes.find input atSign 0 = some localPart.length := by
    rw [h.input_eq]
    exact Bytes.find_zero_append_cons h.at_not_mem_local domain
  have hdomain : input.drop (localPart.length + 1) = domain := by
    rw [h.input_eq]
    exact Bytes.drop_append_cons localPart atSign domain
  have hdot : Bytes.find domain dot 0 ≠ none := by
    rw [ne_eq, Bytes.find_eq_none_iff, List.drop_zero, not_not]
    exact h.dot_mem_domain
  have hends : ¬ (localPart.length = 0 ∨ localPart.length = input.length - 1) := by
    have hlocal := List.length_pos_of_ne_nil h.local_ne_nil
    have hrest := List.length_pos_of_mem h.dot_mem_domain
    rw [h.input_eq]
    simp only [List.length_append, List.length_cons]
    lia
  have hblank : input.any isBlank = false := by
    rw [List.any_eq_false]
    intro c hc
    simp [h.not_isBlank c hc]
  have hne : input.isEmpty = false := by
    rw [h.input_eq]
    simp
  simp only [parse, hne, hposition, if_neg hends, hdomain, if_neg hdot, hblank]
  rfl

theorem exists_passesTests_of_parse {input : Bytes} {email : Email} (h : parse input = .ok email) :
    email.value = input ∧ exists localPart domain, PassesTests input localPart domain := by
  by_cases hmem : atSign ∈ input
  · rcases List.eq_append_cons_of_mem hmem with ⟨localPart, domain, hinput, hlocal⟩
    have hposition : Bytes.find input atSign 0 = some localPart.length := by
      rw [hinput]
      exact Bytes.find_zero_append_cons hlocal domain
    have hdomain : input.drop (localPart.length + 1) = domain := by
      rw [hinput]
      exact Bytes.drop_append_cons localPart atSign domain
    simp only [parse, hposition, hdomain] at h
    split_ifs at h with hempty hends hdot hblank
    cases h
    refine ⟨rfl, localPart, domain, hinput, ?_, hlocal, ?_, ?_⟩
    · intro hnil
      exact hends (Or.inl (by rw [hnil]; rfl))
    · rw [Bytes.find_eq_none_iff, List.drop_zero, not_not] at hdot
      exact hdot
    · intro c hc
      rw [Bool.not_eq_true, List.any_eq_false] at hblank
      simpa using hblank c hc
  · have hposition : Bytes.find input atSign 0 = none := by
      rw [Bytes.find_eq_none_iff, List.drop_zero]
      exact hmem
    simp only [parse, hposition] at h
    split_ifs at h

theorem two_le_length_splitOn_iff (domain : Bytes) :
    2 <= (domain.splitOn dot).length <-> dot ∈ domain := by
  constructor
  · intro h
    by_contra hnone
    rw [List.splitOn_eq_singleton hnone, List.length_singleton] at h
    lia
  · intro h
    rcases List.eq_append_cons_of_mem h with ⟨label, rest, rfl, hlabel⟩
    rw [List.splitOn_append_cons_self_of_not_mem hlabel, List.length_cons]
    have hrest : rest.splitOn dot ≠ [] := List.splitOn_ne_nil dot rest
    have hpos := List.length_pos_of_ne_nil hrest
    lia

theorem count_atSign_eq_one_iff {localPart : Bytes} (h : atSign ∉ localPart) (domain : Bytes) :
    (localPart ++ atSign :: domain).count atSign = 1 <-> atSign ∉ domain := by
  rw [List.count_append, List.count_eq_zero_of_not_mem h, List.count_cons_self,
    ← List.count_eq_zero]
  lia

theorem wellFormed_iff (input localPart domain : Bytes) :
    WellFormed input localPart domain <->
      PassesTests input localPart domain ∧ atSign ∉ domain ∧
        forall label, label ∈ domain.splitOn dot -> label ≠ [] := by
  constructor
  · intro h
    have hcount := h.count_at
    rw [h.input_eq, List.count_append, List.count_cons_self] at hcount
    have hlocal : atSign ∉ localPart := List.count_eq_zero.mp (by lia)
    have hdomain : atSign ∉ domain := List.count_eq_zero.mp (by lia)
    have hdot := (two_le_length_splitOn_iff domain).mp h.two_le_labels
    exact ⟨⟨h.input_eq, h.local_ne_nil, hlocal, hdot, h.not_isBlank⟩, hdomain, h.label_ne_nil⟩
  · intro hparts
    rcases hparts with ⟨h, hdomain, hlabels⟩
    have hcount : input.count atSign = 1 := by
      rw [h.input_eq]
      exact (count_atSign_eq_one_iff h.at_not_mem_local domain).mpr hdomain
    have hlength := (two_le_length_splitOn_iff domain).mpr h.dot_mem_domain
    exact ⟨h.input_eq, hcount, h.local_ne_nil, hlength, hlabels, h.not_isBlank⟩

theorem PassesTests.unique {input localPart localPart' domain domain' : Bytes}
    (h : PassesTests input localPart domain) (h' : PassesTests input localPart' domain') :
    localPart = localPart' ∧ domain = domain' := by
  have hposition : localPart.length = localPart'.length := by
    have hfind := Bytes.find_zero_append_cons h.at_not_mem_local domain
    rw [← h.input_eq, h'.input_eq,
      Bytes.find_zero_append_cons h'.at_not_mem_local domain'] at hfind
    exact (Option.some.inj hfind).symm
  have hsplit := List.append_inj (h.input_eq.symm.trans h'.input_eq) hposition
  exact ⟨hsplit.left, (List.cons.inj hsplit.right).right⟩

/-- Exactly the texts of the form are accepted, each as itself. -/
structure ParsesForm (input : Bytes) : Prop where
  form_of_ok : forall email, parse input = .ok email ->
    exists localPart domain, WellFormed input localPart domain
  ok_of_form : (exists localPart domain, WellFormed input localPart domain) ->
    exists email, parse input = .ok email ∧ email.value = input

/--
For every text: it is accepted only if it has the form, and then as itself, if
and only if passing the tests leaves no second `@` and no empty label behind the
first `@`.
-/
theorem parsesForm_iff (input : Bytes) :
    ParsesForm input <->
      forall localPart domain, PassesTests input localPart domain ->
        atSign ∉ domain ∧ forall label, label ∈ domain.splitOn dot -> label ≠ [] := by
  constructor
  · intro h localPart domain htests
    rcases h.form_of_ok _ (parse_of_passesTests htests) with ⟨localPart', domain', hform⟩
    rw [wellFormed_iff] at hform
    rw [(htests.unique hform.left).right]
    exact hform.right
  · intro h
    constructor
    · intro email hparse
      rcases (exists_passesTests_of_parse hparse).right with ⟨localPart, domain, htests⟩
      exact ⟨localPart, domain,
        (wellFormed_iff input localPart domain).mpr ⟨htests, h localPart domain htests⟩⟩
    · intro hparts
      rcases hparts with ⟨localPart, domain, hform⟩
      rw [wellFormed_iff] at hform
      exact ⟨_, parse_of_passesTests hform.left, rfl⟩

theorem twoAts_accepted :
    parse (ascii "a@b@.") = .ok { address := ascii "a@b@." } ∧ ¬ ParsesForm (ascii "a@b@.") := by
  have hparse : parse (ascii "a@b@.") = .ok { address := ascii "a@b@." } := by
    decide
  refine ⟨hparse, ?_⟩
  intro h
  rcases h.form_of_ok _ hparse with ⟨localPart, domain, hform⟩
  exact absurd hform.count_at (by decide)

end Email

end Kernel
end CppCommons
