import CppCommons.Foundation.Ascii
import CppCommons.Cxx.ByteString
import CppCommons.Foundation.RegexReplace

/-!
# PII redactor

The two patterns of `PiiRedactor` and the passes that replace their matches.
`std::regex_replace` is the scan of the library: successive leftmost matches in
ECMAScript order, over ASCII.  What a pass leaves behind holds no match of its
own pattern, and the card pass brings back no email.
-/

namespace CppCommons
namespace Security

open Cxx
open Foundation
open Foundation.Ascii
open Foundation.Regex

def isLetter (c : UInt8) : Bool :=
  (decide (97 <= c) && decide (c <= 122)) || (decide (65 <= c) && decide (c <= 90))

/-- The symbols of `\w`, which `\b` separates from the others. -/
def isWord (c : UInt8) : Bool :=
  isLetter c || isDigit c || c == 95

def oneOf (symbols : String) (c : UInt8) : Bool :=
  (ascii symbols).contains c

/-- The pattern `[a-zA-Z0-9._%+\-]+@[a-zA-Z0-9.\-]+\.[a-zA-Z]{2,}`. -/
def kEmailRe : Regex UInt8 :=
  .seq (atLeast (.symbol (fun c => isLetter c || isDigit c || oneOf "._%+-" c)) 1)
    (.seq (.symbol (oneOf "@"))
      (.seq (atLeast (.symbol (fun c => isLetter c || isDigit c || oneOf ".-" c)) 1)
        (.seq (.symbol (oneOf "."))
          (atLeast (.symbol isLetter) 2))))

/-- The pattern `\b(?:\d{4}[- ]?){3}\d{4}\b`. -/
def kCardRe : Regex UInt8 :=
  .seq .boundary
    (.seq (times (.seq (times (.symbol isDigit) 4) (.opt (.symbol (oneOf "- ")))) 3)
      (.seq (times (.symbol isDigit) 4)
        .boundary))

def redactEmail (input : Bytes) : Bytes :=
  replaceAll isWord kEmailRe (ascii "[EMAIL]") input

def redactCard (input : Bytes) : Bytes :=
  replaceAll isWord kCardRe (ascii "[CARD]") input

def redactAll (input : Bytes) : Bytes :=
  redactCard (redactEmail input)

/-!
## Matches of the two patterns

An email has an `@` and no bracket; a card number is made of whole words, with
digits at both ends.  Neither is empty.
-/

theorem at_mem_of_email {prev : Option UInt8} {w rest : Bytes}
    (h : Matches isWord kEmailRe prev w rest) : 64 ∈ w := by
  rcases matches_seq_iff.mp h with ⟨user, _, rfl, _, h⟩
  rcases matches_seq_iff.mp h with ⟨sign, _, rfl, hsign, _⟩
  rcases matches_symbol_iff.mp hsign with ⟨c, hc, rfl⟩
  have hc' : c = 64 := by
    simpa [oneOf, ascii] using hc
  simp [hc']

theorem bracket_not_mem_of_email {prev : Option UInt8} {w rest : Bytes}
    (h : Matches isWord kEmailRe prev w rest) : 91 ∉ w ∧ 93 ∉ w := by
  constructor
  · intro hmem
    have hused := uses_of_matches h hmem
    revert hused
    decide
  · intro hmem
    have hused := uses_of_matches h hmem
    revert hused
    decide

theorem proper_email : Proper isWord kEmailRe := by
  intro prev rest h
  cases at_mem_of_email h

/-- A card number is made of whole words: digits at both ends, and no word
symbol on either side. -/
structure CardEdges (prev : Option UInt8) (w rest : Bytes) : Prop where
  before : prev.any isWord = false
  after : rest.head?.any isWord = false
  first : exists c tail, w = c :: tail ∧ isDigit c = true
  last : forall p, (lastOf p w).any isWord = true

theorem isWord_of_isDigit {c : UInt8} (h : isDigit c = true) : isWord c = true := by
  simp [isWord, h]

theorem cardEdges_of_matches {prev : Option UInt8} {w rest : Bytes}
    (h : Matches isWord kCardRe prev w rest) : CardEdges prev w rest := by
  rcases matches_seq_iff.mp h with ⟨_, number, rfl, hbefore, h⟩
  rcases matches_boundary_iff.mp hbefore with ⟨rfl, hleft⟩
  rcases matches_seq_iff.mp h with ⟨groups, final, rfl, hgroups, h⟩
  rcases matches_seq_iff.mp h with ⟨four, _, rfl, hfour, hafter⟩
  rcases matches_boundary_iff.mp hafter with ⟨rfl, hright⟩
  rcases matches_seq_iff.mp hgroups with ⟨group, more, rfl, hgroup, _⟩
  rcases matches_seq_iff.mp hgroup with ⟨digits, separator, rfl, hdigits, _⟩
  have hfirst : exists c tail, digits = c :: tail ∧ isDigit c = true := by
    rcases matches_times_symbol_iff.mp hdigits with ⟨hlength, hall⟩
    cases digits with
    | nil => cases hlength
    | cons c tail => exact ⟨c, tail, rfl, hall c (by simp)⟩
  have hlast : exists front c, four = front ++ [c] ∧ isDigit c = true := by
    rcases matches_times_symbol_iff.mp hfour with ⟨hlength, hall⟩
    cases four using List.reverseRecOn with
    | nil => cases hlength
    | append_singleton front c => exact ⟨front, c, rfl, hall c (by simp)⟩
  rcases hfirst with ⟨c, tail, rfl, hc⟩
  rcases hlast with ⟨front, d, rfl, hd⟩
  constructor
  · simpa [isWord_of_isDigit hc] using hleft
  · simpa [lastOf_append, isWord_of_isDigit hd] using hright
  · exact ⟨c, _, rfl, hc⟩
  · intro p
    simp [lastOf_append, isWord_of_isDigit hd]

theorem proper_card : Proper isWord kCardRe := by
  intro prev rest h
  rcases (cardEdges_of_matches h).first with ⟨c, tail, hnil, _⟩
  cases hnil

/-!
## What the passes leave

A match left behind by a pass would have been copied from a match of the input,
which the pass had replaced.
-/

/-- A pass that puts a bracketed marker without `@` leaves an email only where
the input had one, at a place the pass kept. -/
theorem email_copied {r : Regex UInt8} {body input output front w back : Bytes}
    (h : Replaced isWord r (91 :: (body ++ [93])) none input output) (hbody : 64 ∉ body)
    (houtput : output = front ++ (w ++ back))
    (hmatch : Matches isWord kEmailRe (lastOf none front) w back) :
    exists front' back', input = front' ++ (w ++ back') ∧
      NoMatchAt isWord r (lastOf none front') (w ++ back') := by
  have hat := at_mem_of_email hmatch
  rcases bracket_not_mem_of_email hmatch with ⟨hopen, hclose⟩
  have hapart : Apart ((91 :: body) ++ [93]) w :=
    apart_of_last hclose hat (by simp [hbody])
  have hne : w ≠ [] := List.ne_nil_of_mem hat
  rcases exists_copied h hne hopen hapart houtput with ⟨front', back', hcopied, _⟩
  exact ⟨front', back', hcopied.place, hcopied.kept⟩

theorem clean_email_redactEmail (input : Bytes) :
    Clean isWord kEmailRe none (redactEmail input) := by
  intro front w back houtput hmatch
  have hreplaced : Replaced isWord kEmailRe (91 :: (ascii "EMAIL" ++ [93])) none input
      (redactEmail input) := replaced_replaceAll proper_email input
  rcases email_copied hreplaced (by decide) houtput hmatch with
    ⟨front', back', _, hkept⟩
  exact hkept w back' rfl (matches_of_boundaryFree hmatch rfl _ _)

theorem clean_email_redactCard {input : Bytes} (hclean : Clean isWord kEmailRe none input) :
    Clean isWord kEmailRe none (redactCard input) := by
  intro front w back houtput hmatch
  have hreplaced : Replaced isWord kCardRe (91 :: (ascii "CARD" ++ [93])) none input
      (redactCard input) := replaced_replaceAll proper_card input
  rcases email_copied hreplaced (by decide) houtput hmatch with
    ⟨front', back', hplace, _⟩
  exact hclean front' w back' hplace (matches_of_boundaryFree hmatch rfl _ _)

/-- After a word symbol no card number begins, so the next symbol is not hidden by a marker. -/
theorem any_head_of_replaced {marker input output : Bytes} {prev : Option UInt8}
    (h : Replaced isWord kCardRe marker prev input output) (hprev : prev.any isWord = true) :
    input.head?.any isWord = output.head?.any isWord := by
  cases h with
  | done => rfl
  | keep hnone hrest => rfl
  | hit hmatch hrest =>
      rw [(cardEdges_of_matches hmatch).before] at hprev
      cases hprev

theorem clean_card_redactCard (input : Bytes) :
    Clean isWord kCardRe none (redactCard input) := by
  intro front w back houtput hmatch
  have hreplaced : Replaced isWord kCardRe (91 :: ascii "CARD]") none input
      (redactCard input) := replaced_replaceAll proper_card input
  have hedges := cardEdges_of_matches hmatch
  rcases hedges.first with ⟨c, tail, rfl, hc⟩
  have hbracket : (91 : UInt8) ∉ c :: tail := by
    intro hmem
    have hused := uses_of_matches hmatch hmem
    revert hused
    decide
  have hmarker : c ∉ 91 :: ascii "CARD]" := by
    intro hmem
    have hnone : (91 :: ascii "CARD]").all (fun a => !isDigit a) = true := rfl
    have hnot := List.all_eq_true.mp hnone c hmem
    rw [hc] at hnot
    cases hnot
  rcases exists_copied hreplaced (by simp) hbracket (apart_of_head hmarker tail) houtput with
    ⟨front', back', hcopied, hbefore⟩
  have hnext := any_head_of_replaced hcopied.after (hedges.last _)
  rcases hbefore with hsame | ⟨p, u, hended⟩
  · apply hcopied.kept (c :: tail) back' rfl
    rw [hsame]
    exact matches_congr hmatch rfl hnext
  · -- A card number ended just before; a digit cannot follow it.
    have hdigit := (cardEdges_of_matches hended).after
    rw [List.cons_append, List.head?_cons, Option.any_some, isWord_of_isDigit hc] at hdigit
    cases hdigit

/--
For every input, the redacted text holds no part that matches either pattern,
each part judged in the redacted text itself, and redacting it again changes
nothing.
-/
theorem redactAll_clean (input : Bytes) :
    (forall front w back, redactAll input = front ++ (w ++ back) ->
      ¬ Matches isWord kEmailRe (lastOf none front) w back ∧
        ¬ Matches isWord kCardRe (lastOf none front) w back) ∧
      redactAll (redactAll input) = redactAll input := by
  have hemail : Clean isWord kEmailRe none (redactAll input) :=
    clean_email_redactCard (clean_email_redactEmail input)
  have hcard : Clean isWord kCardRe none (redactAll input) :=
    clean_card_redactCard (redactEmail input)
  constructor
  · intro front w back houtput
    exact ⟨hemail front w back houtput, hcard front w back houtput⟩
  · have hagain : redactEmail (redactAll input) = redactAll input :=
      replaceAll_eq_self proper_email hemail
    rw [redactAll, hagain]
    exact replaceAll_eq_self proper_card hcard

example : redactAll (ascii "a@b.com paid 4111 1111-11111111") = ascii "[EMAIL] paid [CARD]" := by
  decide

end Security
end CppCommons
