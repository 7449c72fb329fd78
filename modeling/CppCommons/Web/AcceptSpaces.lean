import CppCommons.Web.ContentNegotiation

/-!
# Spaces in an `Accept` header

Whether spaces around the separators change what is selected.  A token is
trimmed at both ends and its parameter at the front, but the type is cut off at
the first semicolon and not trimmed again; and spaces behind a comma at the very
end are a token of their own.
-/

namespace CppCommons
namespace Web

open Cxx
open Foundation

/-!
## One token

Spaces around a token, and behind any of its semicolons, do not change its entry.
In front of the first semicolon they become a part of the type.
-/

section Token

variable {Q : Type} [One Q] {stod : Bytes -> Option Q}

/--
What is documented of `std::stod`: it reads a number at the front, so neither a
semicolon and what follows it nor spaces at the end make a difference.
-/
structure ReadsFront (stod : Bytes -> Option Q) : Prop where
  append_semicolon : forall text rest, stod (text ++ semicolon :: rest) = stod text
  append_spaces : forall text n, stod (text ++ spaces n) = stod text

theorem quality_name : ascii "q=" = [113, 61] := by
  decide

theorem take_two_append_cons {c : UInt8} (hc : c ≠ 113 ∧ c ≠ 61) (param rest : Bytes) :
    (param ++ c :: rest).take 2 = ascii "q=" <-> param.take 2 = ascii "q=" := by
  rw [quality_name]
  rcases param with _ | ⟨first, _ | ⟨second, param⟩⟩
  · simp [hc.left]
  · simp [hc.right]
  · simp

theorem readQuality_append_cons {text text' rest : Bytes} {c : UInt8} (hc : c ≠ 113 ∧ c ≠ 61)
    (htext : trimFront text' = trimFront text ++ c :: rest)
    (hstod : forall number, stod (number ++ c :: rest) = stod number) :
    readQuality stod text' = readQuality stod text := by
  have hname := take_two_append_cons hc (trimFront text) rest
  simp only [readQuality, htext]
  by_cases hq : (trimFront text).take 2 = ascii "q="
  · have hlength : 2 <= (trimFront text).length := by
      have hlength := congrArg List.length hq
      rw [quality_name, List.length_take] at hlength
      simp only [List.length_cons, List.length_nil] at hlength
      lia
    rw [if_pos hq, if_pos (hname.mpr hq), List.drop_append_of_le_length hlength, hstod]
  · rw [if_neg hq, if_neg (fun hq' => hq (hname.mp hq'))]

theorem readQuality_append_semicolon (h : ReadsFront stod) (text rest : Bytes) :
    readQuality stod (text ++ semicolon :: rest) = readQuality stod text := by
  apply readQuality_append_cons (by decide) (trimFront_append_cons rfl text rest)
  intro number
  exact h.append_semicolon number rest

theorem readQuality_append_spaces (h : ReadsFront stod) (text : Bytes) (n : Nat) :
    readQuality stod (text ++ spaces n) = readQuality stod text := by
  cases n with
  | zero => rw [spaces, List.replicate_zero, List.append_nil]
  | succ n =>
      have htrimmed := trimFront_append_spaces text (n + 1)
      split at htrimmed
      · next hnil => simp only [readQuality, htrimmed, hnil]
      · apply readQuality_append_cons (by decide) htrimmed
        intro number
        exact h.append_spaces number (n + 1)

theorem readQuality_spaces_append (n : Nat) (text : Bytes) :
    readQuality stod (spaces n ++ text) = readQuality stod text := by
  simp only [readQuality, trimFront_spaces_append]

theorem readQuality_trimBack (h : ReadsFront stod) (text : Bytes) :
    readQuality stod (trimBack text) = readQuality stod text := by
  rcases exists_spaces_trimBack text with ⟨n, hn⟩
  have hspaces := readQuality_append_spaces h (trimBack text) n
  rw [← hn] at hspaces
  exact hspaces.symm

theorem readEntry_semicolon (h : ReadsFront stod) {lead : Bytes} (hlead : semicolon ∉ lead)
    (rest : Bytes) :
    readEntry stod (lead ++ semicolon :: rest) =
      { type := trimFront lead, q := readQuality stod rest } := by
  have htoken : trimBack (trimFront (lead ++ semicolon :: rest)) =
      trimFront lead ++ semicolon :: trimBack rest := by
    rw [trimFront_append_cons rfl, trimBack_append_cons rfl]
  have hfront : semicolon ∉ trimFront lead := by
    intro hmem
    exact hlead (List.dropWhile_sublist isSpaceChar |>.subset hmem)
  simp only [readEntry, htoken, Bytes.find_zero_append_cons hfront, List.take_left,
    Bytes.drop_append_cons, readQuality_trimBack h]

theorem readEntry_spaces_append (n : Nat) (text : Bytes) :
    readEntry stod (spaces n ++ text) = readEntry stod text := by
  simp only [readEntry, trimFront_spaces_append]

theorem readEntry_append_spaces (text : Bytes) (n : Nat) :
    readEntry stod (text ++ spaces n) = readEntry stod text := by
  have htoken : trimBack (trimFront (text ++ spaces n)) = trimBack (trimFront text) := by
    rw [trimFront_append_spaces]
    split
    · next hnil => rw [hnil]
    · exact trimBack_append_spaces _ n
  simp only [readEntry, htoken]

theorem readEntry_after_semicolon (h : ReadsFront stod) (lead rest : Bytes) (n : Nat) :
    readEntry stod (lead ++ semicolon :: (spaces n ++ rest)) =
      readEntry stod (lead ++ semicolon :: rest) := by
  by_cases hmem : semicolon ∈ lead
  · rcases List.eq_append_cons_of_mem hmem with ⟨type, param, rfl, htype⟩
    simp only [List.append_assoc, List.cons_append, readEntry_semicolon h htype,
      readQuality_append_semicolon h]
  · rw [readEntry_semicolon h hmem, readEntry_semicolon h hmem, readQuality_spaces_append]

/-- In front of a semicolon they make none behind another one, or behind nothing but spaces. -/
theorem readEntry_before_semicolon (h : ReadsFront stod) {lead : Bytes}
    (hlead : semicolon ∈ lead ∨ trimFront lead = []) (rest : Bytes) (n : Nat) :
    readEntry stod (lead ++ (spaces n ++ semicolon :: rest)) =
      readEntry stod (lead ++ semicolon :: rest) := by
  rw [← List.append_assoc]
  by_cases hmem : semicolon ∈ lead
  · rcases List.eq_append_cons_of_mem hmem with ⟨type, param, rfl, htype⟩
    simp only [List.append_assoc, List.cons_append, readEntry_semicolon h htype]
    rw [← List.append_assoc, readQuality_append_semicolon h, readQuality_append_semicolon h,
      readQuality_append_spaces h]
  · have hblank := hlead.resolve_left hmem
    rw [readEntry_semicolon h (not_mem_append_spaces rfl hmem n), readEntry_semicolon h hmem,
      trimFront_append_spaces, if_pos hblank, hblank]

end Token

/-!
## The whole header

The tokens of a header are read independently, so a token can be replaced by one
with the same entry.
-/

def Opens (front : Bytes) : Prop :=
  front = [] ∨ exists a, front = a ++ [comma]

theorem exists_opens (a : Bytes) :
    exists front lead, a = front ++ lead ∧ Opens front ∧ comma ∉ lead := by
  induction a using List.reverseRecOn with
  | nil => exact ⟨[], [], rfl, Or.inl rfl, List.not_mem_nil⟩
  | append_singleton a c ih =>
      by_cases hc : c = comma
      · exact ⟨a ++ [c], [], (List.append_nil _).symm, Or.inr ⟨a, by rw [hc]⟩, List.not_mem_nil⟩
      · rcases ih with ⟨front, lead, rfl, hfront, hlead⟩
        refine ⟨front, lead ++ [c], List.append_assoc front lead [c], hfront, ?_⟩
        rw [List.mem_append, List.mem_singleton, not_or]
        exact ⟨hlead, fun heq => hc heq.symm⟩

section Header

variable {Q : Type} [One Q] {stod : Bytes -> Option Q}

theorem readEntries_append {front : Bytes} (hfront : Opens front) (s : Bytes) :
    readEntries stod (front ++ s) 0 = readEntries stod front 0 ++ readEntries stod s 0 := by
  induction hlength : front.length using Nat.strong_induction_on generalizing front with
  | h length ih =>
      rcases hfront with hnil | ⟨a, ha⟩
      · rw [hnil, readEntries_nil]
        rfl
      · have hmem : comma ∈ front := by
          rw [ha]
          simp
        rcases List.eq_append_cons_of_mem hmem with ⟨token, rest, hsplit, htoken⟩
        have hrest : Opens rest := by
          rcases List.eq_nil_or_concat rest with hnil | ⟨r, c, hconcat⟩
          · exact Or.inl hnil
          · have hends : a ++ [comma] = (token ++ comma :: r) ++ [c] := by
              rw [← ha, hsplit, hconcat, List.concat_eq_append]
              simp
            have hc := (List.append_inj' hends rfl).right
            rw [hconcat, List.concat_eq_append, ← hc]
            exact Or.inr ⟨r, rfl⟩
        have hshorter : rest.length < length := by
          rw [← hlength, hsplit, List.length_append, List.length_cons]
          lia
        rw [hsplit, List.append_assoc, List.cons_append, readEntries_cons stod htoken,
          readEntries_cons stod htoken, ih rest.length hshorter hrest rfl, List.cons_append]

theorem readEntries_replace {front token token' back : Bytes} (hfront : Opens front)
    (htoken : comma ∉ token) (htoken' : comma ∉ token')
    (hback : (back = [] ∧ token ≠ [] ∧ token' ≠ []) ∨ exists b, back = comma :: b)
    (hentry : readEntry stod token' = readEntry stod token) :
    readEntries stod (front ++ (token' ++ back)) 0 =
      readEntries stod (front ++ (token ++ back)) 0 := by
  rw [readEntries_append hfront, readEntries_append hfront]
  rcases hback with ⟨hnil, hne, hne'⟩ | ⟨b, hb⟩
  · rw [hnil, List.append_nil, List.append_nil, readEntries_token stod htoken hne,
      readEntries_token stod htoken' hne', hentry]
  · rw [hb, readEntries_cons stod htoken, readEntries_cons stod htoken', hentry]

theorem exists_token_rest (b : Bytes) :
    exists rest back, b = rest ++ back ∧ comma ∉ rest ∧
      (back = [] ∨ exists b', back = comma :: b') := by
  by_cases hmem : comma ∈ b
  · rcases List.eq_append_cons_of_mem hmem with ⟨rest, b', hsplit, hrest⟩
    exact ⟨rest, comma :: b', hsplit, hrest, Or.inr ⟨b', rfl⟩⟩
  · exact ⟨b, [], (List.append_nil b).symm, hmem, Or.inl rfl⟩

end Header

/-!
## Insertion points

A spot is a side of a separator.  At a harmless spot spaces do not even change the
entries; at the two others there is a header whose result they change.
-/

/-- A side of a separator, with what matters of the text around it. -/
inductive Spot where
  | beforeComma
  | afterComma
  /-- the comma is the last character of the header -/
  | afterLastComma
  /-- `lead` is the text of the token before the semicolon -/
  | beforeSemicolon (lead : Bytes) (hlead : comma ∉ lead)
  | afterSemicolon

/-- The second header is the first one with `n` spaces at the spot. -/
inductive Inserted (n : Nat) : Spot -> Bytes -> Bytes -> Prop where
  | beforeComma (a b : Bytes) :
      Inserted n .beforeComma (a ++ comma :: b) (a ++ (spaces n ++ comma :: b))
  | afterComma (a b : Bytes) (hb : b ≠ []) :
      Inserted n .afterComma (a ++ comma :: b) (a ++ comma :: (spaces n ++ b))
  | afterLastComma (a : Bytes) :
      Inserted n .afterLastComma (a ++ [comma]) (a ++ comma :: spaces n)
  | beforeSemicolon (front lead b : Bytes) (hfront : Opens front) (hlead : comma ∉ lead) :
      Inserted n (.beforeSemicolon lead hlead) (front ++ (lead ++ semicolon :: b))
        (front ++ (lead ++ (spaces n ++ semicolon :: b)))
  | afterSemicolon (a b : Bytes) :
      Inserted n .afterSemicolon (a ++ semicolon :: b) (a ++ semicolon :: (spaces n ++ b))

/-- Not behind the last comma, and not between a type and its first semicolon. -/
def Spot.Harmless : Spot -> Prop
  | .beforeComma => True
  | .afterComma => True
  | .afterLastComma => False
  | .beforeSemicolon lead _ => semicolon ∈ lead ∨ trimFront lead = []
  | .afterSemicolon => True

theorem Inserted.ne_nil {n : Nat} {spot : Spot} {header header' : Bytes}
    (h : Inserted n spot header header') : header ≠ [] ∧ header' ≠ [] := by
  cases h <;> simp

section Law

variable {Q : Type} [One Q] {stod : Bytes -> Option Q}

theorem comma_not_mem_semicolon {lead rest : Bytes} (hlead : comma ∉ lead) (hrest : comma ∉ rest) :
    comma ∉ lead ++ semicolon :: rest := by
  rw [List.mem_append, List.mem_cons, not_or, not_or]
  exact ⟨hlead, by decide, hrest⟩

theorem comma_not_mem_spaces_append (n : Nat) {rest : Bytes} (hrest : comma ∉ rest) :
    comma ∉ spaces n ++ rest := by
  rw [List.mem_append, not_or]
  exact ⟨not_mem_spaces rfl n, hrest⟩

theorem readEntries_around_semicolon {front lead lead' rest rest' back : Bytes}
    (hfront : Opens front) (hlead : comma ∉ lead) (hlead' : comma ∉ lead') (hrest : comma ∉ rest)
    (hrest' : comma ∉ rest') (hback : back = [] ∨ exists b, back = comma :: b)
    (hentry : readEntry stod (lead' ++ semicolon :: rest') =
      readEntry stod (lead ++ semicolon :: rest)) :
    readEntries stod (front ++ (lead' ++ semicolon :: (rest' ++ back))) 0 =
      readEntries stod (front ++ (lead ++ semicolon :: (rest ++ back))) 0 := by
  have hends : (back = [] ∧ lead ++ semicolon :: rest ≠ [] ∧ lead' ++ semicolon :: rest' ≠ []) ∨
      exists b, back = comma :: b := by
    rcases hback with hnil | hcomma
    · exact Or.inl ⟨hnil, by simp, by simp⟩
    · exact Or.inr hcomma
  have hreplaced := readEntries_replace hfront (comma_not_mem_semicolon hlead hrest)
    (comma_not_mem_semicolon hlead' hrest') hends hentry
  simpa using hreplaced

theorem readEntries_of_harmless (hstod : ReadsFront stod) {n : Nat} {spot : Spot}
    {header header' : Bytes} (h : Inserted n spot header header') (hspot : spot.Harmless) :
    readEntries stod header' 0 = readEntries stod header 0 := by
  cases h with
  | beforeComma a b =>
      rcases exists_opens a with ⟨front, lead, rfl, hfront, hlead⟩
      have hlead' := not_mem_append_spaces rfl hlead n
      have hentry : readEntry stod (lead ++ spaces n) = readEntry stod lead :=
        readEntry_append_spaces lead n
      have hreplaced := readEntries_replace hfront hlead hlead' (Or.inr ⟨b, rfl⟩) hentry
      simpa using hreplaced
  | afterComma a b hb =>
      rcases exists_token_rest b with ⟨rest, back, hsplit, hrest, hback⟩
      have hentry : readEntry stod (spaces n ++ rest) = readEntry stod rest :=
        readEntry_spaces_append n rest
      have hends : (back = [] ∧ rest ≠ [] ∧ spaces n ++ rest ≠ []) ∨
          exists b, back = comma :: b := by
        rcases hback with hnil | hcomma
        · rw [hsplit, hnil, List.append_nil] at hb
          exact Or.inl ⟨hnil, hb, by simp [hb]⟩
        · exact Or.inr hcomma
      have hreplaced := readEntries_replace (Or.inr ⟨a, rfl⟩) hrest
        (comma_not_mem_spaces_append n hrest) hends hentry
      rw [hsplit]
      simpa using hreplaced
  | afterLastComma a => exact absurd hspot id
  | beforeSemicolon front lead b hfront hlead =>
      rcases exists_token_rest b with ⟨rest, back, rfl, hrest, hback⟩
      have hlead' := not_mem_append_spaces rfl hlead n
      have hentry := readEntry_before_semicolon hstod hspot rest n
      rw [← List.append_assoc] at hentry
      have hreplaced := readEntries_around_semicolon hfront hlead hlead' hrest hrest hback hentry
      simpa using hreplaced
  | afterSemicolon a b =>
      rcases exists_opens a with ⟨front, lead, rfl, hfront, hlead⟩
      rcases exists_token_rest b with ⟨rest, back, rfl, hrest, hback⟩
      have hreplaced := readEntries_around_semicolon hfront hlead hlead hrest
        (comma_not_mem_spaces_append n hrest) hback (readEntry_after_semicolon hstod lead rest n)
      simpa using hreplaced

end Law

section Answers

variable {Q : Type} [LinearOrder Q] [One Q]

/-- The results for a header that some sort by quality gives. -/
def Answers (stod : Bytes -> Option Q) (acceptHeader : Bytes) (supported : List Bytes) :
    Set Bytes :=
  { result | exists sorter : QualitySort Q,
      negotiateContentType stod sorter acceptHeader supported = result }

/-- The result is a best match, or empty if there is no match. -/
def Winner (entries : List (AcceptEntry Q)) (supported : List Bytes) (result : Bytes) : Prop :=
  (exists entry, BestMatch entries supported result entry) ∨
    (result = [] ∧ forall entry, entry ∈ entries -> ¬ AcceptsSome supported entry.type)

def someSort (Q : Type) [LinearOrder Q] [One Q] : QualitySort Q :=
  DescendingSort.favouring (fun entry : AcceptEntry Q => entry.q) { type := [], q := 1 }

variable {stod : Bytes -> Option Q}

theorem mem_answers_iff {acceptHeader : Bytes} (hne : acceptHeader ≠ []) (supported : List Bytes)
    (result : Bytes) :
    result ∈ Answers stod acceptHeader supported <->
      Winner (readEntries stod acceptHeader 0) supported result := by
  constructor
  · intro h
    rcases h with ⟨sorter, rfl⟩
    exact negotiateContentType_cases sorter hne supported
  · intro h
    rcases h with ⟨entry, hmatch⟩ | ⟨rfl, hnone⟩
    · exact exists_sorter_of_bestMatch hne hmatch
    · refine ⟨someSort Q, ?_⟩
      rcases negotiateContentType_cases (someSort Q) hne supported with
        ⟨entry, hmatch⟩ | ⟨hempty, _⟩
      · exact absurd hmatch.firstAccepted.acceptsSome (hnone entry hmatch.mem)
      · exact hempty

theorem mem_answers_of_singleton {acceptHeader : Bytes} (hne : acceptHeader ≠ [])
    {entry : AcceptEntry Q} (hentries : readEntries stod acceptHeader 0 = [entry])
    (supported : List Bytes) (result : Bytes) :
    result ∈ Answers stod acceptHeader supported <->
      result = (firstMatch supported entry.type).getD [] := by
  constructor
  · intro h
    rcases h with ⟨sorter, rfl⟩
    exact negotiateContentType_of_singleton sorter hne hentries supported
  · intro h
    rw [h]
    exact ⟨someSort Q, negotiateContentType_of_singleton _ hne hentries supported⟩

/-- Spaces at the spot never change the results, in any header and for any supported types. -/
def SpacesIgnored (stod : Bytes -> Option Q) (n : Nat) (spot : Spot) : Prop :=
  forall header header' supported, Inserted n spot header header' ->
    Answers stod header supported = Answers stod header' supported

theorem spacesIgnored_of_harmless (hstod : ReadsFront stod) (n : Nat) {spot : Spot}
    (hspot : spot.Harmless) : SpacesIgnored stod n spot := by
  intro header header' supported h
  ext result
  rw [mem_answers_iff h.ne_nil.left, mem_answers_iff h.ne_nil.right,
    readEntries_of_harmless hstod h hspot]

theorem not_accepts_of_getLast? {type sup : Bytes} (hlast : type.getLast? = some 32)
    (hne : type ≠ sup) : ¬ Accepts type sup := by
  intro h
  cases h with
  | any => cases hlast
  | same => exact hne rfl
  | subtype sub hmajor =>
      have hstar : ascii "*" = [42] := by decide
      rw [hstar, List.getLast?_append] at hlast
      cases hlast

theorem firstMatch_self (type : Bytes) : firstMatch [type] type = some type := by
  rw [firstMatch, List.find?_cons_of_pos (matchesType_of_accepts (.same type))]

theorem not_spacesIgnored_beforeSemicolon (hstod : ReadsFront stod) {n : Nat} (hn : 0 < n)
    {lead : Bytes} (hlead : comma ∉ lead) (hsemicolon : semicolon ∉ lead)
    (htype : trimFront lead ≠ []) : ¬ SpacesIgnored stod n (.beforeSemicolon lead hlead) := by
  intro h
  have hbefore : readEntries stod (lead ++ [semicolon]) 0 =
      [{ type := trimFront lead, q := readQuality stod [] }] := by
    rw [readEntries_token stod (comma_not_mem_semicolon hlead List.not_mem_nil) (by simp),
      readEntry_semicolon hstod hsemicolon]
  have hafter : readEntries stod (lead ++ (spaces n ++ [semicolon])) 0 =
      [{ type := trimFront lead ++ spaces n, q := readQuality stod [] }] := by
    have hlead' := not_mem_append_spaces rfl hlead n
    rw [← List.append_assoc,
      readEntries_token stod (comma_not_mem_semicolon hlead' List.not_mem_nil) (by simp),
      readEntry_semicolon hstod (not_mem_append_spaces rfl hsemicolon n),
      trimFront_append_spaces, if_neg htype]
  have hselected : trimFront lead ∈ Answers stod (lead ++ [semicolon]) [trimFront lead] := by
    rw [mem_answers_of_singleton (by simp) hbefore, firstMatch_self]
    rfl
  have hmiss : firstMatch [trimFront lead] (trimFront lead ++ spaces n) = none := by
    by_contra hhit
    rcases (firstMatch_ne_none_iff _ _).mp hhit with ⟨sup, hsup, haccepts⟩
    have hlast : (trimFront lead ++ spaces n).getLast? = some 32 := by
      simp [spaces, List.getLast?_append, List.getLast?_replicate, Nat.ne_of_gt hn]
    apply not_accepts_of_getLast? hlast _ haccepts
    intro heq
    rw [List.mem_singleton.mp hsup] at heq
    have hlength := congrArg List.length heq
    simp only [spaces, List.length_append, List.length_replicate] at hlength
    lia
  have hsame : Answers stod (lead ++ [semicolon]) [trimFront lead] =
      Answers stod (lead ++ (spaces n ++ [semicolon])) [trimFront lead] :=
    h _ _ _ (.beforeSemicolon [] lead [] (Or.inl rfl) hlead)
  rw [hsame, mem_answers_of_singleton (by simp) hafter, hmiss] at hselected
  exact htype hselected

theorem not_spacesIgnored_afterLastComma {n : Nat} (hn : 0 < n) :
    ¬ SpacesIgnored stod n .afterLastComma := by
  intro h
  have hx : comma ∉ ascii "x" := by decide
  have hentry : readEntry stod (ascii "x") = { type := ascii "x", q := 1 } := rfl
  have hbefore : readEntries stod (ascii "x" ++ [comma]) 0 =
      [{ type := ascii "x", q := 1 }] := by
    rw [readEntries_cons stod hx, readEntries_nil, hentry]
  have hblank : readEntry stod (spaces n) = { type := [], q := 1 } := by
    have hentry' : readEntry stod (spaces n ++ []) = readEntry stod [] :=
      readEntry_spaces_append n []
    rw [List.append_nil] at hentry'
    exact hentry'
  have hafter : readEntries stod (ascii "x" ++ comma :: spaces n) 0 =
      [{ type := ascii "x", q := 1 }, { type := [], q := 1 }] := by
    have hne : spaces n ≠ [] := by
      simp [spaces, Nat.ne_of_gt hn]
    rw [readEntries_cons stod hx, readEntries_token stod (not_mem_spaces rfl n) hne, hentry, hblank]
  have hfirst : FirstAccepted [ascii "x", []] [] [] := by
    rw [← firstMatch_eq_some_iff]
    decide
  have hwins : ([] : Bytes) ∈ Answers stod (ascii "x" ++ comma :: spaces n) [ascii "x", []] := by
    rw [mem_answers_iff (by simp), hafter]
    refine Or.inl ⟨{ type := [], q := 1 }, by simp, hfirst, ?_⟩
    intro entry hmem _
    rcases List.mem_cons.mp hmem with heq | hlast
    · rw [heq]
    · rw [List.mem_singleton.mp hlast]
  have hsame : Answers stod (ascii "x" ++ [comma]) [ascii "x", []] =
      Answers stod (ascii "x" ++ comma :: spaces n) [ascii "x", []] :=
    h _ _ _ (.afterLastComma (ascii "x"))
  rw [← hsame, mem_answers_of_singleton (by simp) hbefore] at hwins
  have hselected : (firstMatch [ascii "x", []] (ascii "x")).getD [] ≠ [] := by
    decide
  exact hselected hwins.symm

/--
For every side of every separator: spaces there never change the results, in any
header and for any supported types, if and only if it is not the end of the
header behind a comma and not between a type and the first semicolon.  At any
spot, they leave the results of a header as they are if and only if the entries
with and without them have the same winners.
-/
theorem spacesIgnored_iff (hstod : ReadsFront stod) {n : Nat} (hn : 0 < n) (spot : Spot) :
    (SpacesIgnored stod n spot <-> spot.Harmless) ∧
      forall header header' supported, Inserted n spot header header' ->
        (Answers stod header supported = Answers stod header' supported <->
          forall result, Winner (readEntries stod header 0) supported result <->
            Winner (readEntries stod header' 0) supported result) := by
  constructor
  · constructor
    · intro h
      cases spot with
      | beforeComma => trivial
      | afterComma => trivial
      | afterLastComma => exact not_spacesIgnored_afterLastComma hn h
      | beforeSemicolon lead hlead =>
          by_contra hharmful
          simp only [Spot.Harmless, not_or] at hharmful
          exact not_spacesIgnored_beforeSemicolon hstod hn hlead hharmful.left hharmful.right h
      | afterSemicolon => trivial
    · exact spacesIgnored_of_harmless hstod n
  · intro header header' supported h
    rw [Set.ext_iff]
    apply forall_congr'
    intro result
    rw [mem_answers_iff h.ne_nil.left, mem_answers_iff h.ne_nil.right]

end Answers

def firstDigit (text : Bytes) : Option Nat :=
  match text.head? with
  | some 48 => some 0
  | some 49 => some 1
  | _ => none

theorem readsFront_firstDigit : ReadsFront firstDigit where
  append_semicolon text rest := by
    cases text with
    | nil => rfl
    | cons c text => rfl
  append_spaces text n := by
    cases text with
    | nil => cases n <;> rfl
    | cons c text => rfl

theorem spacedHtml_not_selected :
    Answers firstDigit (ascii "text/html;q=1") [ascii "text/html"] = { ascii "text/html" } ∧
      Answers firstDigit (ascii "text/html ;q=1") [ascii "text/html"] = { [] } := by
  have hplain : readEntries firstDigit (ascii "text/html;q=1") 0 =
      [{ type := ascii "text/html", q := 1 }] := by
    rw [readEntries_token firstDigit (by decide) (by decide)]
    decide
  have hspaced : readEntries firstDigit (ascii "text/html ;q=1") 0 =
      [{ type := ascii "text/html ", q := 1 }] := by
    rw [readEntries_token firstDigit (by decide) (by decide)]
    decide
  constructor
  · ext result
    rw [mem_answers_of_singleton (by decide) hplain, Set.mem_singleton_iff]
    rfl
  · ext result
    rw [mem_answers_of_singleton (by decide) hspaced, Set.mem_singleton_iff]
    rfl

theorem oneSpace_law :
    SpacesIgnored firstDigit 1 .afterSemicolon ∧
      ¬ SpacesIgnored firstDigit 1 (.beforeSemicolon (ascii "text/html") (by decide)) := by
  constructor
  · exact (spacesIgnored_iff readsFront_firstDigit (by decide) .afterSemicolon).left.mpr trivial
  · intro h
    have hharmless : semicolon ∈ ascii "text/html" ∨ trimFront (ascii "text/html") = [] :=
      (spacesIgnored_iff readsFront_firstDigit (by decide) _).left.mp h
    exact absurd hharmless (by decide)

end Web
end CppCommons
