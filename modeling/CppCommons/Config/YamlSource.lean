import CppCommons.Foundation.Loop
import CppCommons.Cxx.ByteString

/-!
# YAML source

`YamlSource::get` cuts its key at the dots while it descends through the maps of
a document.  A `YAML::Node` is a handle: `node[part]` may add to the map it looks
into and an assignment rebinds the node, so the lookup works on a copy.  The
library is a parameter that works on a memory of its own, with what is documented
of it.
-/

namespace CppCommons
namespace Config

open Cxx
open Foundation.Loop

inductive YamlTree where
  | null
  | scalar (text : Bytes)
  | sequence (items : List YamlTree)
  | map (entries : List (YamlTree × YamlTree))

namespace YamlTree

/-- The value of the first entry whose key is this scalar. -/
def lookup (part : Bytes) : List (YamlTree × YamlTree) -> Option YamlTree
  | [] => none
  | (.scalar text, value) :: entries => if text = part then some value else lookup part entries
  | _ :: entries => lookup part entries

def isMap : YamlTree -> Bool
  | .map _ => true
  | _ => false

def scalarText : YamlTree -> Option Bytes
  | .scalar text => some text
  | _ => none

end YamlTree

/-- The part of yaml-cpp that the source uses. -/
structure YamlLibrary (memory handle : Type) where
  clone : memory -> handle -> memory × handle
  isMap : memory -> handle -> Bool
  isScalar : memory -> handle -> Bool
  /-- `node[part]` -/
  index : memory -> handle -> Bytes -> memory × handle
  /-- the conversion of a node to `bool` -/
  isDefined : memory -> handle -> Bool
  /-- `node = other`, with the handle that `node` is afterwards -/
  assign : memory -> handle -> handle -> memory × handle
  /-- `node.as<std::string>()` -/
  asString : memory -> handle -> Bytes

variable {memory handle : Type}

structure YamlCursor (memory handle : Type) where
  memory : memory
  node : handle
  start : Nat

namespace YamlSource

def part (key : Bytes) (start : Nat) : Bytes :=
  match Bytes.find key dot start with
  | none => key.drop start
  | some position => (key.drop start).take (position - start)

def next (key : Bytes) (start : Nat) : Nat :=
  match Bytes.find key dot start with
  | none => key.length
  | some position => position + 1

def getPass (lib : YamlLibrary memory handle) (key : Bytes) (c : YamlCursor memory handle) :
    Pass (YamlCursor memory handle) (memory × Option Bytes) :=
  if c.start < key.length then
    if !lib.isMap c.memory c.node then .done (c.memory, none)
    else
      let tested := lib.index c.memory c.node (part key c.start)
      if !lib.isDefined tested.fst tested.snd then .done (tested.fst, none)
      else
        let found := lib.index tested.fst c.node (part key c.start)
        let assigned := lib.assign found.fst c.node found.snd
        .again { memory := assigned.fst, node := assigned.snd, start := next key c.start }
  else if !lib.isScalar c.memory c.node then .done (c.memory, none)
  else .done (c.memory, some (lib.asString c.memory c.node))

/-- The lookup, with the memory it leaves behind; `none` if the loop takes more
than `passes` passes. -/
def get (lib : YamlLibrary memory handle) (passes : Nat) (m : memory) (root : handle)
    (key : Bytes) : Option (memory × Option Bytes) :=
  let node := lib.clone m root
  iterate (getPass lib key) passes { memory := node.fst, node := node.snd, start := 0 }

/-!
## Termination

The position moves on in every pass, so the length of the key bounds the number of
passes.
-/

theorem start_lt_next {key : Bytes} {start : Nat} (h : start < key.length) :
    start < next key start := by
  rw [next]
  cases hfind : Bytes.find key dot start with
  | none => exact h
  | some position => exact Nat.lt_succ_of_le (Bytes.le_of_find_eq_some hfind)

theorem measure_of_again {lib : YamlLibrary memory handle} {key : Bytes}
    {c c' : YamlCursor memory handle} (h : getPass lib key c = .again c') :
    key.length - c'.start < key.length - c.start := by
  by_cases hstart : c.start < key.length
  · rw [getPass, if_pos hstart] at h
    simp only at h
    split at h
    · cases h
    · split at h
      · cases h
      · cases h
        have hnext := start_lt_next hstart
        simp only
        lia
  · rw [getPass, if_neg hstart] at h
    split at h
    · cases h
    · cases h

theorem exists_get (lib : YamlLibrary memory handle) (m : memory) (root : handle) (key : Bytes) :
    exists result, get lib (key.length + 1) m root key = some result := by
  apply exists_iterate_of_measure (fun c => key.length - c.start)
  · intro c c' h
    exact measure_of_again h
  · simp only
    lia

end YamlSource

/-!
## Trees in memory

What is documented of the library, and the loop on the contents of the nodes alone.
The loop on a copy of the root does the same and changes nothing that was shown.
-/

/--
What is documented of the library.  `shows m n t` says that `n` is a node with the
contents `t`.  `copies m₀ m n t` says that `n` is a node with these contents in a
deep copy made after `m₀`, and that whatever was shown in `m₀` still is.
-/
structure YamlSemantics (lib : YamlLibrary memory handle) where
  shows : memory -> handle -> YamlTree -> Prop
  copies : memory -> memory -> handle -> YamlTree -> Prop
  clone : forall {m n t}, shows m n t -> copies m (lib.clone m n).fst (lib.clone m n).snd t
  keeps : forall {m₀ m n t n' t'}, copies m₀ m n t -> shows m₀ n' t' -> shows m n' t'
  isMap : forall {m₀ m n t}, copies m₀ m n t -> lib.isMap m n = t.isMap
  isScalar : forall {m₀ m n t}, copies m₀ m n t -> lib.isScalar m n = t.scalarText.isSome
  asString : forall {m₀ m n text}, copies m₀ m n (.scalar text) -> lib.asString m n = text
  index_found : forall {m₀ m n entries part t}, copies m₀ m n (.map entries) ->
    YamlTree.lookup part entries = some t ->
    lib.isDefined (lib.index m n part).fst (lib.index m n part).snd = true ∧
      copies m₀ (lib.index m n part).fst n (.map entries) ∧
      copies m₀ (lib.index m n part).fst (lib.index m n part).snd t
  index_missing : forall {m₀ m n entries part}, copies m₀ m n (.map entries) ->
    YamlTree.lookup part entries = none ->
    lib.isDefined (lib.index m n part).fst (lib.index m n part).snd = false ∧
      forall {n' t'}, shows m₀ n' t' -> shows (lib.index m n part).fst n' t'
  assign : forall {m₀ m n t n' t'}, copies m₀ m n t -> copies m₀ m n' t' ->
    copies m₀ (lib.assign m n n').fst (lib.assign m n n').snd t'

namespace YamlSource

def findPass (key : Bytes) (c : YamlTree × Nat) : Pass (YamlTree × Nat) (Option Bytes) :=
  if c.snd < key.length then
    match c.fst with
    | .map entries =>
        match YamlTree.lookup (part key c.snd) entries with
        | none => .done none
        | some t => .again (t, next key c.snd)
    | _ => .done none
  else .done c.fst.scalarText

def find (passes : Nat) (t : YamlTree) (key : Bytes) : Option (Option Bytes) :=
  iterate (findPass key) passes (t, 0)

section Refinement

variable {lib : YamlLibrary memory handle} (sem : YamlSemantics lib)

structure At (m₀ : memory) (c : YamlCursor memory handle) (t : YamlTree × Nat) : Prop where
  copies : sem.copies m₀ c.memory c.node t.fst
  start : c.start = t.snd

/-- The results are equal, and what was shown at the beginning still is. -/
structure Answers (m₀ : memory) (r : memory × Option Bytes) (r' : Option Bytes) : Prop where
  result : r.snd = r'
  keeps : forall {n t}, sem.shows m₀ n t -> sem.shows r.fst n t

theorem getPass_map {m₀ : memory} {key : Bytes} {c : YamlCursor memory handle}
    {entries : List (YamlTree × YamlTree)} (hcopies : sem.copies m₀ c.memory c.node (.map entries))
    (hstart : c.start < key.length) :
    Simulates (At sem m₀) (Answers sem m₀) (getPass lib key c)
      (findPass key (.map entries, c.start)) := by
  have hmap : lib.isMap c.memory c.node = true := sem.isMap hcopies
  rw [getPass, if_pos hstart, hmap, if_neg (by simp)]
  cases hlookup : YamlTree.lookup (part key c.start) entries with
  | none =>
      have hfind : findPass key (.map entries, c.start) = .done none := by
        rw [findPass, if_pos hstart]
        simp only [hlookup]
      rcases sem.index_missing hcopies hlookup with ⟨hundefined, hkeeps⟩
      simp only [hfind, hundefined, Bool.not_false, if_true]
      exact .done ⟨rfl, hkeeps⟩
  | some t =>
      -- the map is looked into twice, once to test and once to descend
      have hfind : findPass key (.map entries, c.start) = .again (t, next key c.start) := by
        rw [findPass, if_pos hstart]
        simp only [hlookup]
      rcases sem.index_found hcopies hlookup with ⟨hdefined, hsame, _⟩
      rcases sem.index_found hsame hlookup with ⟨_, hnode, hvalue⟩
      simp only [hfind, hdefined, Bool.not_true, Bool.false_eq_true, if_false]
      exact .again ⟨sem.assign hnode hvalue, rfl⟩

theorem getPass_simulates (key : Bytes) (m₀ : memory) (c : YamlCursor memory handle)
    (t : YamlTree × Nat) (h : At sem m₀ c t) :
    Simulates (At sem m₀) (Answers sem m₀) (getPass lib key c) (findPass key t) := by
  rcases t with ⟨t, start⟩
  rcases h with ⟨hcopies, rfl⟩
  by_cases hstart : c.start < key.length
  · cases hmap : t.isMap with
    | true =>
        cases t with
        | map entries => exact getPass_map sem hcopies hstart
        | null => cases hmap
        | scalar text => cases hmap
        | sequence items => cases hmap
    | false =>
        have hfind : findPass key (t, c.start) = .done none := by
          rw [findPass, if_pos hstart]
          cases t with
          | map entries => cases hmap
          | null => rfl
          | scalar text => rfl
          | sequence items => rfl
        have hnot : lib.isMap c.memory c.node = false := (sem.isMap hcopies).trans hmap
        rw [hfind, getPass, if_pos hstart, hnot, Bool.not_false, if_pos rfl]
        exact .done ⟨rfl, sem.keeps hcopies⟩
  · have hfind : findPass key (t, c.start) = .done t.scalarText := by
      rw [findPass, if_neg hstart]
    have hscalar := sem.isScalar hcopies
    rw [hfind, getPass, if_neg hstart, hscalar]
    cases t with
    | scalar text =>
        have hstring := sem.asString hcopies
        rw [hstring]
        exact .done ⟨rfl, sem.keeps hcopies⟩
    | null => exact .done ⟨rfl, sem.keeps hcopies⟩
    | sequence items => exact .done ⟨rfl, sem.keeps hcopies⟩
    | map entries => exact .done ⟨rfl, sem.keeps hcopies⟩

theorem get_of_find {passes : Nat} {m : memory} {root : handle} {t : YamlTree} {key : Bytes}
    {answer : Option Bytes} (hroot : sem.shows m root t) (h : find passes t key = some answer) :
    exists m', get lib passes m root key = some (m', answer) ∧
      forall {n t'}, sem.shows m n t' -> sem.shows m' n t' := by
  have hstart : At sem m
      { memory := (lib.clone m root).fst, node := (lib.clone m root).snd, start := 0 } (t, 0) :=
    ⟨sem.clone hroot, rfl⟩
  rcases iterate_of_simulates (getPass_simulates sem key m) hstart h with ⟨r, hr, hanswer, hkeeps⟩
  refine ⟨r.fst, ?_, hkeeps⟩
  rw [get, hr, ← hanswer]

end Refinement

theorem exists_find (t : YamlTree) (key : Bytes) :
    exists answer, find (key.length + 1) t key = some answer := by
  apply exists_iterate_of_measure (fun c => key.length - c.snd)
  · intro c c' h
    by_cases hstart : c.snd < key.length
    · rw [findPass, if_pos hstart] at h
      split at h
      · split at h
        · cases h
        · cases h
          have hnext := start_lt_next hstart
          simp only
          lia
      · cases h
    · rw [findPass, if_neg hstart] at h
      cases h
  · simp only
    lia

/-!
## Descending by segments

A key is a list of segments with dots between them, and the loop descends by them
one after the other.
-/

/-- The segments of a key with dots between them. -/
def joinDots : List Bytes -> Bytes
  | [] => []
  | [segment] => segment
  | segment :: segments => segment ++ dot :: joinDots segments

def descend : YamlTree -> List Bytes -> Option YamlTree
  | t, [] => some t
  | .map entries, segment :: segments =>
      (YamlTree.lookup segment entries).bind (fun t => descend t segments)
  | _, _ :: _ => none

structure IsSegment (segment : Bytes) : Prop where
  ne_nil : segment ≠ []
  dot_not_mem : dot ∉ segment

theorem find_last (front : Bytes) {segment : Bytes} (h : IsSegment segment) :
    Bytes.find (front ++ segment) dot front.length = none := by
  rw [Bytes.find_eq_none_iff, List.drop_left]
  exact h.dot_not_mem

theorem part_last (front : Bytes) {segment : Bytes} (h : IsSegment segment) :
    part (front ++ segment) front.length = segment := by
  rw [part, find_last front h]
  exact List.drop_left

theorem next_last (front : Bytes) {segment : Bytes} (h : IsSegment segment) :
    next (front ++ segment) front.length = (front ++ segment).length := by
  rw [next, find_last front h]

theorem part_cons (front rest : Bytes) {segment : Bytes} (h : IsSegment segment) :
    part (front ++ (segment ++ dot :: rest)) front.length = segment := by
  rw [part, Bytes.find_append_cons front rest h.dot_not_mem]
  simp

theorem next_cons (front rest : Bytes) {segment : Bytes} (h : IsSegment segment) :
    next (front ++ (segment ++ dot :: rest)) front.length =
      (front ++ segment ++ [dot]).length := by
  have hlength : (front ++ segment ++ [dot]).length = front.length + segment.length + 1 := by
    rw [List.length_append, List.length_append]
    rfl
  rw [next, Bytes.find_append_cons front rest h.dot_not_mem, hlength]

theorem length_lt_of_ne_nil (front : Bytes) {rest : Bytes} (h : rest ≠ []) :
    front.length < (front ++ rest).length := by
  rw [List.length_append]
  have hpos := List.length_pos_of_ne_nil h
  lia

theorem findPass_of_part {key segment : Bytes} {start : Nat} (hstart : start < key.length)
    (hpart : part key start = segment) (t : YamlTree) :
    (descend t [segment] = none ∧ findPass key (t, start) = .done none) ∨
      exists t', descend t [segment] = some t' ∧
        findPass key (t, start) = .again (t', next key start) := by
  rw [findPass, if_pos hstart]
  cases t with
  | map entries =>
      simp only [hpart, descend]
      cases YamlTree.lookup segment entries with
      | none => exact Or.inl ⟨rfl, rfl⟩
      | some t' => exact Or.inr ⟨t', rfl, rfl⟩
  | null => exact Or.inl ⟨rfl, rfl⟩
  | scalar text => exact Or.inl ⟨rfl, rfl⟩
  | sequence items => exact Or.inl ⟨rfl, rfl⟩

theorem descend_cons (t : YamlTree) (segment : Bytes) (segments : List Bytes) :
    descend t (segment :: segments) =
      (descend t [segment]).bind (fun t' => descend t' segments) := by
  cases t with
  | map entries =>
      simp only [descend]
      cases YamlTree.lookup segment entries with
      | none => rfl
      | some t' => rfl
  | null => rfl
  | scalar text => rfl
  | sequence items => rfl

theorem iterate_findPass (front : Bytes) {segments : List Bytes} (hne : segments ≠ [])
    (hsegments : forall segment, segment ∈ segments -> IsSegment segment) (t : YamlTree) :
    iterate (findPass (front ++ joinDots segments)) (segments.length + 1) (t, front.length) =
      some ((descend t segments).bind YamlTree.scalarText) := by
  induction segments generalizing front t with
  | nil => exact absurd rfl hne
  | cons segment segments ih =>
      have hsegment := hsegments segment List.mem_cons_self
      cases segments with
      | nil =>
          have hstart := length_lt_of_ne_nil front hsegment.ne_nil
          rcases findPass_of_part hstart (part_last front hsegment) t with
            ⟨hdescend, hpass⟩ | ⟨t', hdescend, hpass⟩
          · rw [joinDots, hdescend, iterate_of_done hpass]
            rfl
          · have hend : findPass (front ++ segment) (t', (front ++ segment).length) =
                .done t'.scalarText := by
              rw [findPass, if_neg (Nat.lt_irrefl _)]
            rw [next_last front hsegment] at hpass
            rw [joinDots, hdescend, iterate_of_again hpass, List.length_singleton,
              iterate_of_done hend]
            rfl
      | cons second segments =>
          have hjoin : front ++ joinDots (segment :: second :: segments) =
              front ++ (segment ++ dot :: joinDots (second :: segments)) := rfl
          have hstart : front.length <
              (front ++ (segment ++ dot :: joinDots (second :: segments))).length :=
            length_lt_of_ne_nil front (by simp)
          rw [hjoin, descend_cons]
          rcases findPass_of_part hstart (part_cons front _ hsegment) t with
            ⟨hdescend, hpass⟩ | ⟨t', hdescend, hpass⟩
          · rw [hdescend, iterate_of_done hpass]
            rfl
          · have hmove : front ++ (segment ++ dot :: joinDots (second :: segments)) =
                (front ++ segment ++ [dot]) ++ joinDots (second :: segments) := by
              simp
            have hrest := ih (front ++ segment ++ [dot]) (by simp)
              (fun s hs => hsegments s (List.mem_cons_of_mem segment hs)) t'
            rw [next_cons front _ hsegment] at hpass
            rw [hdescend, List.length_cons, iterate_of_again hpass, hmove, hrest]
            rfl

theorem length_le_length_joinDots {segments : List Bytes}
    (hsegments : forall segment, segment ∈ segments -> IsSegment segment) :
    segments.length <= (joinDots segments).length := by
  induction segments with
  | nil => exact Nat.le_refl 0
  | cons segment segments ih =>
      have hpos := List.length_pos_of_ne_nil (hsegments segment List.mem_cons_self).ne_nil
      cases segments with
      | nil => exact hpos
      | cons second segments =>
          have hrest := ih (fun s hs => hsegments s (List.mem_cons_of_mem segment hs))
          have hjoin : joinDots (segment :: second :: segments) =
              segment ++ dot :: joinDots (second :: segments) := rfl
          rw [hjoin, List.length_append, List.length_cons, List.length_cons (a := dot)]
          lia

theorem find_joinDots {segments : List Bytes} (hne : segments ≠ [])
    (hsegments : forall segment, segment ∈ segments -> IsSegment segment) (t : YamlTree) :
    find ((joinDots segments).length + 1) t (joinDots segments) =
      some ((descend t segments).bind YamlTree.scalarText) := by
  have hloop := iterate_findPass [] hne hsegments t
  exact iterate_mono (Nat.succ_le_succ (length_le_length_joinDots hsegments)) hloop

/--
For every library that behaves as documented and every tree in its memory: a key
of segments gives the scalar reached by descending through the maps, and nothing
if there is none; the loop terminates for every key; and a lookup gives the same
whether or not another lookup went before it.
-/
theorem get_descends {lib : YamlLibrary memory handle} (sem : YamlSemantics lib) (m : memory)
    (root : handle) (t : YamlTree) (hroot : sem.shows m root t) :
    (forall segments : List Bytes, segments ≠ [] ->
      (forall segment, segment ∈ segments -> IsSegment segment) ->
      exists m', get lib ((joinDots segments).length + 1) m root (joinDots segments) =
        some (m', (descend t segments).bind YamlTree.scalarText)) ∧
    (forall (m₁ : memory) (node : handle) (key : Bytes), exists result,
      get lib (key.length + 1) m₁ node key = some result) ∧
    forall first second : Bytes, exists m₁ answer₁ m₂ m₃ answer₂,
      get lib (first.length + 1) m root first = some (m₁, answer₁) ∧
        get lib (second.length + 1) m root second = some (m₂, answer₂) ∧
        get lib (second.length + 1) m₁ root second = some (m₃, answer₂) := by
  refine ⟨?_, exists_get lib, ?_⟩
  · intro segments hne hsegments
    rcases get_of_find sem hroot (find_joinDots hne hsegments t) with ⟨m', hget, _⟩
    exact ⟨m', hget⟩
  · intro first second
    rcases exists_find t first with ⟨answer₁, hfirst⟩
    rcases exists_find t second with ⟨answer₂, hsecond⟩
    rcases get_of_find sem hroot hfirst with ⟨m₁, hget₁, hkeeps⟩
    rcases get_of_find sem hroot hsecond with ⟨m₂, hget₂, _⟩
    rcases get_of_find sem (hkeeps hroot) hsecond with ⟨m₃, hget₃, _⟩
    exact ⟨m₁, answer₁, m₂, m₃, answer₂, hget₁, hget₂, hget₃⟩

/-- A library whose nodes are their contents, with `none` for a node that is not defined. -/
def valueLibrary : YamlLibrary Unit (Option YamlTree) where
  clone m node := (m, node)
  isMap _ node := node.any YamlTree.isMap
  isScalar _ node := node.any (fun t => t.scalarText.isSome)
  index m node part :=
    match node with
    | some (.map entries) => (m, YamlTree.lookup part entries)
    | _ => (m, none)
  isDefined _ node := node.isSome
  assign m _ other := (m, other)
  asString _ node := ((node.bind YamlTree.scalarText)).getD []

def valueSemantics : YamlSemantics valueLibrary where
  shows _ node t := node = some t
  copies _ _ node t := node = some t
  clone h := h
  keeps _ h := h
  isMap h := by
    rw [h]
    rfl
  isScalar h := by
    rw [h]
    rfl
  asString h := by
    rw [h]
    rfl
  index_found h hlookup := by
    rw [h]
    simp [valueLibrary, hlookup]
  index_missing h hlookup := by
    rw [h]
    refine ⟨?_, fun hshows => hshows⟩
    simp [valueLibrary, hlookup]
  assign _ h := h

def databaseDocument : YamlTree :=
  .map [(.scalar (ascii "database"), .map [(.scalar (ascii "host"), .scalar (ascii "db"))])]

theorem databaseHost_found :
    exists m, get valueLibrary 14 () (some databaseDocument) (ascii "database.host") =
      some (m, some (ascii "db")) := by
  have hsegments : forall segment, segment ∈ [ascii "database", ascii "host"] ->
      IsSegment segment := by
    intro segment hmem
    rcases List.mem_cons.mp hmem with rfl | hlast
    · exact ⟨by decide, by decide⟩
    · cases List.mem_singleton.mp hlast
      exact ⟨by decide, by decide⟩
  exact (get_descends valueSemantics () (some databaseDocument) databaseDocument rfl).left
    [ascii "database", ascii "host"] (by simp) hsegments

end YamlSource
end Config
end CppCommons
