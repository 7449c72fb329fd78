import CppCommons.Cxx.ByteString
import Mathlib.Data.List.DropRight

/-!
# `Accept` headers

`negotiate_content_type` first splits the header into entries: tokens between
commas, trimmed, with a media type up to the first semicolon and a quality in the
parameter behind it.  `std::stod` is a parameter, and a quality is an element of
whatever it reads.
-/

namespace CppCommons
namespace Web

open Cxx

structure AcceptEntry (Q : Type) where
  type : Bytes
  q : Q
deriving DecidableEq

def comma : UInt8 := 44

def semicolon : UInt8 := 59

def slash : UInt8 := 47

def isSpaceChar (c : UInt8) : Bool :=
  c == 32

def trimFront (s : Bytes) : Bytes :=
  s.dropWhile isSpaceChar

def trimBack (s : Bytes) : Bytes :=
  s.rdropWhile isSpaceChar

section Parsing

variable {Q : Type} [One Q]

/-- The quality in the text behind the first semicolon; an exception leaves it at one. -/
def readQuality (stod : Bytes -> Option Q) (text : Bytes) : Q :=
  let param := trimFront text
  if param.take 2 = ascii "q=" then (stod (param.drop 2)).getD 1 else 1

def readEntry (stod : Bytes -> Option Q) (text : Bytes) : AcceptEntry Q :=
  let token := trimBack (trimFront text)
  match Bytes.find token semicolon 0 with
  | none => { type := token, q := 1 }
  | some semi => { type := token.take semi, q := readQuality stod (token.drop (semi + 1)) }

/-- The splitting loop; every pass moves behind a comma or to the end. -/
def readEntries (stod : Bytes -> Option Q) (acceptHeader : Bytes) (pos : Nat) :
    List (AcceptEntry Q) :=
  if _hpos : pos < acceptHeader.length then
    match hcomma : Bytes.find acceptHeader comma pos with
    | none => [readEntry stod (acceptHeader.drop pos)]
    | some next =>
        readEntry stod ((acceptHeader.drop pos).take (next - pos)) ::
          readEntries stod acceptHeader (next + 1)
  else []
termination_by acceptHeader.length - pos
decreasing_by
  have hle := Bytes.le_of_find_eq_some hcomma
  lia

end Parsing

def spaces (n : Nat) : Bytes :=
  List.replicate n 32

/-!
## Trimming

The loops remove spaces, one at a time, from either end of a token.
-/

theorem isSpaceChar_of_mem_spaces {n : Nat} {c : UInt8} (h : c ∈ spaces n) :
    isSpaceChar c = true := by
  rw [List.eq_of_mem_replicate h]
  rfl

theorem not_mem_spaces {c : UInt8} (hc : isSpaceChar c = false) (n : Nat) : c ∉ spaces n := by
  intro hmem
  rw [isSpaceChar_of_mem_spaces hmem] at hc
  cases hc

theorem not_mem_append_spaces {c : UInt8} (hc : isSpaceChar c = false) {s : Bytes} (h : c ∉ s)
    (n : Nat) : c ∉ s ++ spaces n := by
  rw [List.mem_append, not_or]
  exact ⟨h, not_mem_spaces hc n⟩

theorem trimFront_spaces (n : Nat) : trimFront (spaces n) = [] :=
  List.dropWhile_eq_nil_iff.mpr (fun _ hc => isSpaceChar_of_mem_spaces hc)

theorem trimFront_spaces_append (n : Nat) (s : Bytes) :
    trimFront (spaces n ++ s) = trimFront s := by
  have hnil := trimFront_spaces n
  unfold trimFront at hnil ⊢
  rw [List.dropWhile_append, hnil]
  rfl

theorem trimFront_append_spaces (s : Bytes) (n : Nat) :
    trimFront (s ++ spaces n) = if trimFront s = [] then [] else trimFront s ++ spaces n := by
  have hnil := trimFront_spaces n
  unfold trimFront at hnil ⊢
  rw [List.dropWhile_append, hnil]
  simp [List.isEmpty_iff]

theorem trimFront_append_cons {c : UInt8} (hc : isSpaceChar c = false) (s rest : Bytes) :
    trimFront (s ++ c :: rest) = trimFront s ++ c :: rest := by
  unfold trimFront
  rw [List.dropWhile_append, List.dropWhile_cons_of_neg (by simp [hc])]
  split
  · next hempty => rw [List.isEmpty_iff.mp hempty, List.nil_append]
  · rfl

theorem trimBack_eq_reverse (s : Bytes) : trimBack s = (trimFront s.reverse).reverse := rfl

theorem trimBack_append_cons {c : UInt8} (hc : isSpaceChar c = false) (s rest : Bytes) :
    trimBack (s ++ c :: rest) = s ++ c :: trimBack rest := by
  have hreverse : (s ++ c :: rest).reverse = rest.reverse ++ c :: s.reverse := by
    simp
  rw [trimBack_eq_reverse, hreverse, trimFront_append_cons hc, trimBack_eq_reverse]
  simp

theorem trimBack_append_spaces (s : Bytes) (n : Nat) : trimBack (s ++ spaces n) = trimBack s := by
  have hreverse : (spaces n).reverse = spaces n := List.reverse_replicate
  rw [trimBack_eq_reverse, List.reverse_append, hreverse, trimFront_spaces_append,
    trimBack_eq_reverse]

theorem exists_spaces_trimFront (s : Bytes) : exists n, s = spaces n ++ trimFront s := by
  refine ⟨(s.takeWhile isSpaceChar).length, ?_⟩
  have hspaces : s.takeWhile isSpaceChar = spaces (s.takeWhile isSpaceChar).length := by
    apply List.eq_replicate_of_mem
    intro c hc
    simpa [isSpaceChar] using List.mem_takeWhile_imp hc
  rw [← hspaces]
  exact List.takeWhile_append_dropWhile.symm

theorem not_isSpaceChar_of_trimFront {s rest : Bytes} {c : UInt8} (h : trimFront s = c :: rest) :
    isSpaceChar c = false := by
  have hhead := List.head?_dropWhile_not isSpaceChar s
  rw [trimFront] at h
  rw [h] at hhead
  simpa using hhead

theorem exists_spaces_trimBack (s : Bytes) : exists n, s = trimBack s ++ spaces n := by
  refine ⟨(s.rtakeWhile isSpaceChar).length, ?_⟩
  have hspaces : s.rtakeWhile isSpaceChar = spaces (s.rtakeWhile isSpaceChar).length := by
    apply List.eq_replicate_of_mem
    intro c hc
    have hspace : isSpaceChar c = true := List.mem_rtakeWhile_imp hc
    simpa [isSpaceChar] using hspace
  have hsplit := congrArg List.reverse
    (List.takeWhile_append_dropWhile (p := isSpaceChar) (l := s.reverse))
  rw [List.reverse_append, List.reverse_reverse] at hsplit
  rw [← hspaces]
  exact hsplit.symm

/-!
## Splitting

A pass of the loop takes the text up to the next comma, so a header is read token by token,
and every pass consumes a character.
-/

section Splitting

variable {Q : Type} [One Q] (stod : Bytes -> Option Q)

theorem readEntries_of_length_le {acceptHeader : Bytes} {pos : Nat}
    (h : acceptHeader.length <= pos) : readEntries stod acceptHeader pos = [] := by
  rw [readEntries, dif_neg (Nat.not_lt.mpr h)]

theorem readEntries_nil : readEntries stod [] 0 = [] :=
  readEntries_of_length_le stod (Nat.le_refl 0)

theorem readEntries_of_last {acceptHeader : Bytes} {pos : Nat} (hpos : pos < acceptHeader.length)
    (hcomma : Bytes.find acceptHeader comma pos = none) :
    readEntries stod acceptHeader pos = [readEntry stod (acceptHeader.drop pos)] := by
  rw [readEntries, dif_pos hpos]
  split
  · rfl
  · next hsome =>
      rw [hcomma] at hsome
      cases hsome

theorem readEntries_of_comma {acceptHeader : Bytes} {pos next : Nat}
    (hpos : pos < acceptHeader.length) (hcomma : Bytes.find acceptHeader comma pos = some next) :
    readEntries stod acceptHeader pos =
      readEntry stod ((acceptHeader.drop pos).take (next - pos)) ::
        readEntries stod acceptHeader (next + 1) := by
  rw [readEntries, dif_pos hpos]
  split
  · next hnone =>
      rw [hcomma] at hnone
      cases hnone
  · next next' hsome =>
      rw [hcomma] at hsome
      cases hsome
      rfl

theorem readEntries_append_right (pre s : Bytes) (pos : Nat) :
    readEntries stod (pre ++ s) (pre.length + pos) = readEntries stod s pos := by
  have hdrop : forall k, (pre ++ s).drop (pre.length + k) = s.drop k := by
    intro k
    rw [← List.drop_drop, List.drop_left]
  have hlength : (pre ++ s).length = pre.length + s.length := List.length_append
  induction pos using readEntries.induct s with
  | case1 pos hpos hcomma =>
      have hcomma' : Bytes.find (pre ++ s) comma (pre.length + pos) = none := by
        rw [Bytes.find_append_right, hcomma, Option.map_none]
      rw [readEntries_of_last stod hpos hcomma, readEntries_of_last stod (by lia) hcomma', hdrop]
  | case2 pos hpos next hcomma ih =>
      have hcomma' : Bytes.find (pre ++ s) comma (pre.length + pos) = some (pre.length + next) := by
        rw [Bytes.find_append_right, hcomma, Option.map_some]
      rw [readEntries_of_comma stod hpos hcomma, readEntries_of_comma stod (by lia) hcomma', hdrop,
        Nat.add_sub_add_left, Nat.add_assoc, ih]
  | case3 pos hpos =>
      rw [readEntries_of_length_le stod (Nat.not_lt.mp hpos),
        readEntries_of_length_le stod (by lia)]

theorem readEntries_token {token : Bytes} (hcomma : comma ∉ token) (hne : token ≠ []) :
    readEntries stod token 0 = [readEntry stod token] := by
  have hnone : Bytes.find token comma 0 = none := (Bytes.find_eq_none_iff _ _ _).mpr hcomma
  rw [readEntries_of_last stod (List.length_pos_of_ne_nil hne) hnone, List.drop_zero]

theorem readEntries_cons {token : Bytes} (hcomma : comma ∉ token) (rest : Bytes) :
    readEntries stod (token ++ comma :: rest) 0 =
      readEntry stod token :: readEntries stod rest 0 := by
  have hfind := Bytes.find_zero_append_cons hcomma rest
  have hbehind : readEntries stod (token ++ comma :: rest) (token.length + 1) =
      readEntries stod rest 0 := by
    have hright := readEntries_append_right stod (token ++ [comma]) rest 0
    rw [List.append_assoc, List.length_append] at hright
    exact hright
  rw [readEntries_of_comma stod (by simp) hfind, hbehind, List.drop_zero, Nat.sub_zero,
    List.take_left]

theorem length_readEntries_le (acceptHeader : Bytes) (pos : Nat) :
    (readEntries stod acceptHeader pos).length <= acceptHeader.length - pos := by
  induction pos using readEntries.induct acceptHeader with
  | case1 pos hpos hcomma =>
      rw [readEntries_of_last stod hpos hcomma, List.length_singleton]
      lia
  | case2 pos hpos next hcomma ih =>
      have hle := Bytes.le_of_find_eq_some hcomma
      rw [readEntries_of_comma stod hpos hcomma, List.length_cons]
      lia
  | case3 pos hpos =>
      rw [readEntries_of_length_le stod (Nat.not_lt.mp hpos), List.length_nil]
      exact Nat.zero_le _

theorem readEntries_wildcard :
    readEntries stod (ascii "*/*") 0 = [{ type := ascii "*/*", q := 1 }] := by
  rw [readEntries_token stod (by decide) (by decide)]
  rfl

/-!
## The entries of a header

What the entries are, without the loops: the pieces between the commas, each without the
spaces around it, with its type in front of the first semicolon and a quality behind it.
-/

/-- The pieces between commas.  An empty piece behind the last comma is none. -/
def acceptTokens (acceptHeader : Bytes) : List Bytes :=
  if (acceptHeader.splitOn comma).getLast? = some [] then (acceptHeader.splitOn comma).dropLast
  else acceptHeader.splitOn comma

/-- `token` is the text without the spaces around it. -/
structure Trimmed (text token : Bytes) : Prop where
  around : exists m n, text = spaces m ++ token ++ spaces n
  front : token.head? ≠ some 32
  back : token.getLast? ≠ some 32

/-- The entry that a piece stands for.  Only the first parameter is read, and a value that
is no number counts like a missing one. -/
inductive EntryText (stod : Bytes -> Option Q) (text : Bytes) : AcceptEntry Q -> Prop where
  | bare {type : Bytes} (trimmed : Trimmed text type) (first : semicolon ∉ type) :
      EntryText stod text { type := type, q := 1 }
  | quality {type value : Bytes} {n : Nat}
      (trimmed : Trimmed text (type ++ semicolon :: (spaces n ++ ascii "q=" ++ value)))
      (first : semicolon ∉ type) :
      EntryText stod text { type := type, q := (stod value).getD 1 }
  | other {type param : Bytes} (trimmed : Trimmed text (type ++ semicolon :: param))
      (first : semicolon ∉ type) (other : forall n value, param ≠ spaces n ++ ascii "q=" ++ value) :
      EntryText stod text { type := type, q := 1 }

def AcceptEntries (stod : Bytes -> Option Q) (acceptHeader : Bytes)
    (entries : List (AcceptEntry Q)) : Prop :=
  List.Forall₂ (EntryText stod) (acceptTokens acceptHeader) entries

omit [One Q] in
theorem acceptTokens_of_not_mem {token : Bytes} (hcomma : comma ∉ token) (hne : token ≠ []) :
    acceptTokens token = [token] := by
  have hsplit : token.splitOn comma = [token] := List.splitOn_eq_singleton hcomma
  simp [acceptTokens, hsplit, hne]

omit [One Q] in
theorem acceptTokens_append_cons {token : Bytes} (hcomma : comma ∉ token) (rest : Bytes) :
    acceptTokens (token ++ comma :: rest) = token :: acceptTokens rest := by
  have hsplit : (token ++ comma :: rest).splitOn comma = token :: rest.splitOn comma := by
    refine List.splitOnP_append_cons_of_forall_mem (p := fun c => c == comma) ?_ comma
      (beq_self_eq_true comma) rest
    intro c hc
    rw [beq_eq_false_iff_ne]
    intro hsame
    exact hcomma (hsame ▸ hc)
  have hne := List.splitOn_ne_nil comma rest
  rw [acceptTokens, acceptTokens, hsplit]
  rcases hpieces : rest.splitOn comma with _ | ⟨piece, pieces⟩
  · exact absurd hpieces hne
  · rw [List.getLast?_cons_cons, List.dropLast_cons_cons]
    split <;> rfl

theorem readEntries_eq_map (acceptHeader : Bytes) :
    readEntries stod acceptHeader 0 = (acceptTokens acceptHeader).map (readEntry stod) := by
  induction hlength : acceptHeader.length using Nat.strong_induction_on
    generalizing acceptHeader with
  | _ n ih =>
      by_cases hmem : comma ∈ acceptHeader
      · rcases List.eq_append_cons_of_mem hmem with ⟨token, rest, rfl, hcomma⟩
        rw [readEntries_cons stod hcomma, acceptTokens_append_cons hcomma, List.map_cons]
        rw [ih rest.length (by simp at hlength; lia) rest rfl]
      · cases acceptHeader with
        | nil =>
            rw [readEntries_nil]
            rfl
        | cons c rest =>
            rw [readEntries_token stod hmem (List.cons_ne_nil c rest),
              acceptTokens_of_not_mem hmem (List.cons_ne_nil c rest)]
            rfl


omit [One Q] in
theorem trimmed_trim (text : Bytes) : Trimmed text (trimBack (trimFront text)) := by
  rcases exists_spaces_trimFront text with ⟨m, hfront⟩
  rcases exists_spaces_trimBack (trimFront text) with ⟨n, hback⟩
  refine ⟨⟨m, n, ?_⟩, ?_, ?_⟩
  · rw [List.append_assoc, ← hback, ← hfront]
  · cases htext : trimFront text with
    | nil => exact fun h => by cases h
    | cons c rest =>
        have hc := not_isSpaceChar_of_trimFront htext
        have htrim := trimBack_append_cons hc [] rest
        rw [List.nil_append, List.nil_append] at htrim
        rw [htrim, List.head?_cons]
        intro h
        rw [Option.some.inj h] at hc
        cases hc
  · intro h
    rcases List.getLast?_eq_some_iff.mp h with ⟨front, hlast⟩
    have hne : (trimFront text).rdropWhile isSpaceChar ≠ [] := by
      intro hnil
      rw [trimBack, hnil] at h
      cases h
    have hnot := List.rdropWhile_last_not isSpaceChar (trimFront text) hne
    rw [trimBack, List.getLast?_eq_some_getLast hne] at h
    rw [Option.some.inj h] at hnot
    exact hnot rfl

omit [One Q] in
theorem Trimmed.eq_trim {text token : Bytes} (h : Trimmed text token) :
    token = trimBack (trimFront text) := by
  rcases h.around with ⟨m, n, rfl⟩
  rw [List.append_assoc, trimFront_spaces_append]
  cases token with
  | nil =>
      rw [List.nil_append, trimFront_spaces]
      rfl
  | cons c rest =>
      have hc : isSpaceChar c = false := by
        rw [isSpaceChar, beq_eq_false_iff_ne]
        intro hspace
        exact h.front (congrArg some hspace)
      have hkept := trimFront_append_cons hc [] (rest ++ spaces n)
      rw [List.nil_append] at hkept
      rw [List.cons_append, hkept]
      rw [trimFront, List.dropWhile_nil, List.nil_append, ← List.cons_append,
        trimBack_append_spaces]
      -- spaces left at the back would contradict the form of the token
      rcases exists_spaces_trimBack (c :: rest) with ⟨k, hk⟩
      cases k with
      | zero => simpa [spaces] using hk
      | succ k =>
          exfalso
          apply h.back
          rw [hk, spaces, List.replicate_succ', ← List.append_assoc, List.getLast?_concat]

omit [One Q] in
theorem trimFront_named (n : Nat) (value : Bytes) :
    trimFront (spaces n ++ ascii "q=" ++ value) = ascii "q=" ++ value := by
  rw [List.append_assoc, trimFront_spaces_append]
  exact trimFront_append_cons rfl [] _

theorem readQuality_cases (param : Bytes) :
    (exists n value, param = spaces n ++ ascii "q=" ++ value ∧
      readQuality stod param = (stod value).getD 1) ∨
    ((forall n value, param ≠ spaces n ++ ascii "q=" ++ value) ∧ readQuality stod param = 1) := by
  by_cases hname : (trimFront param).take 2 = ascii "q="
  · left
    rcases exists_spaces_trimFront param with ⟨n, hparam⟩
    refine ⟨n, (trimFront param).drop 2, ?_, ?_⟩
    · rw [List.append_assoc, ← hname, List.take_append_drop, ← hparam]
    · simp only [readQuality, if_pos hname]
  · right
    constructor
    · intro n value hparam
      apply hname
      rw [hparam, trimFront_named]
      rfl
    · simp only [readQuality, if_neg hname]

theorem readQuality_named (n : Nat) (value : Bytes) :
    readQuality stod (spaces n ++ ascii "q=" ++ value) = (stod value).getD 1 := by
  have hname : (ascii "q=" ++ value).take 2 = ascii "q=" := rfl
  have hvalue : (ascii "q=" ++ value).drop 2 = value := rfl
  simp only [readQuality, trimFront_named, hname, hvalue, if_true]

theorem readEntry_bare {text type : Bytes} (htrim : trimBack (trimFront text) = type)
    (hfirst : semicolon ∉ type) : readEntry stod text = { type := type, q := 1 } := by
  have hnone : Bytes.find type semicolon 0 = none := (Bytes.find_eq_none_iff _ _ _).mpr hfirst
  simp only [readEntry, htrim, hnone]

theorem readEntry_param {text type param : Bytes}
    (htrim : trimBack (trimFront text) = type ++ semicolon :: param) (hfirst : semicolon ∉ type) :
    readEntry stod text = { type := type, q := readQuality stod param } := by
  simp only [readEntry, htrim, Bytes.find_zero_append_cons hfirst, List.take_left,
    Bytes.drop_append_cons]

theorem entryText_iff (text : Bytes) (entry : AcceptEntry Q) :
    EntryText stod text entry <-> readEntry stod text = entry := by
  constructor
  · intro h
    cases h with
    | bare trimmed first => exact readEntry_bare stod trimmed.eq_trim.symm first
    | quality trimmed first =>
        rw [readEntry_param stod trimmed.eq_trim.symm first, readQuality_named]
    | @other type param trimmed first other =>
        rw [readEntry_param stod trimmed.eq_trim.symm first]
        rcases readQuality_cases stod param with ⟨n, value, hparam, _⟩ | ⟨_, hone⟩
        · exact absurd hparam (other n value)
        · rw [hone]
  · rintro rfl
    have htrimmed := trimmed_trim text
    by_cases hmem : semicolon ∈ trimBack (trimFront text)
    · rcases List.eq_append_cons_of_mem hmem with ⟨type, param, hsplit, hfirst⟩
      rw [readEntry_param stod hsplit hfirst]
      rw [hsplit] at htrimmed
      rcases readQuality_cases stod param with ⟨n, value, hparam, hquality⟩ | ⟨hother, hone⟩
      · rw [hquality]
        rw [hparam] at htrimmed
        exact .quality htrimmed hfirst
      · rw [hone]
        exact .other htrimmed hfirst hother
    · rw [readEntry_bare stod rfl hmem]
      exact .bare htrimmed hmem

theorem acceptEntries_iff (acceptHeader : Bytes) (entries : List (AcceptEntry Q)) :
    AcceptEntries stod acceptHeader entries <-> entries = readEntries stod acceptHeader 0 := by
  have hread : EntryText stod = fun text entry => readEntry stod text = entry := by
    funext text entry
    exact propext (entryText_iff stod text entry)
  rw [AcceptEntries, hread, readEntries_eq_map, ← List.forall₂_map_left_iff,
    List.forall₂_eq_eq_eq]
  exact eq_comm

end Splitting

end Web
end CppCommons
