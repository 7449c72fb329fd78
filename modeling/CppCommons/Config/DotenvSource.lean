import CppCommons.Cxx.Numeric
import CppCommons.Cxx.StandardLibrary

/-!
# Dotenv source

`DotenvSource` reads the lines `KEY=value` of a file.  It cuts a line at its
first equals sign, and takes one quote from either end of the value in two tests
that do not look at each other.
-/

namespace CppCommons
namespace Config

open Cxx
open Foundation.Ascii

def hash : UInt8 := 35

def equals : UInt8 := 61

/-- `std::getline` on what is left of a file: the line, and what is left behind
its newline.  It fails when nothing is left. -/
def getline (text : Bytes) : Option (Bytes × Bytes) :=
  if text.isEmpty then none
  else
    some (text.takeWhile (fun c => c != newline),
      (text.dropWhile (fun c => c != newline)).drop 1)

theorem length_lt_of_getline {text line rest : Bytes} (h : getline text = some (line, rest)) :
    rest.length < text.length := by
  unfold getline at h
  split at h
  · cases h
  · next hempty =>
    cases h
    have hle := (List.dropWhile_suffix (l := text) (fun c => c != newline)).length_le
    rw [List.length_drop]
    cases text with
    | nil => exact absurd rfl hempty
    | cons c text =>
        simp only [List.length_cons] at hle ⊢
        lia

def stripQuotes (val : Bytes) : Bytes :=
  let val := if val.head? = some quote then val.drop 1 else val
  if val.getLast? = some quote then val.dropLast else val

def storeLine (values : StringMap Bytes) (line : Bytes) : StringMap Bytes :=
  if line.isEmpty || line.head? == some hash then values
  else
    match Bytes.find line equals 0 with
    | none => values
    | some eq => values.insert (line.take eq) (stripQuotes (line.drop (eq + 1)))

def storeLines (values : StringMap Bytes) (text : Bytes) : StringMap Bytes :=
  match h : getline text with
  | none => values
  | some (line, rest) =>
      have : rest.length < text.length := length_lt_of_getline h
      storeLines (storeLine values line) rest
termination_by text.length

structure DotenvSource where
  values : StringMap Bytes := ∅

namespace DotenvSource

/-- The contents of the file, or nothing if it cannot be opened. -/
def load : Option Bytes -> DotenvSource
  | none => {}
  | some text => { values := storeLines ∅ text }

def get (source : DotenvSource) (key : Bytes) : Option Bytes :=
  source.values.lookup key

end DotenvSource

/-!
## Lines

`std::getline` takes the lines of a file one after the other; the last line need not
be closed by a newline.
-/

structure LineText where
  bytes : Bytes
  newline_not_mem : newline ∉ bytes

def fileText (lines : List LineText) : Bytes :=
  lines.flatMap (fun line => line.bytes ++ [newline])

theorem bne_newline (line : LineText) {c : UInt8} (h : c ∈ line.bytes) :
    (c != newline) = true := by
  rw [bne_iff_ne]
  intro heq
  rw [heq] at h
  exact line.newline_not_mem h

theorem getline_append (line : LineText) (rest : Bytes) :
    getline (line.bytes ++ newline :: rest) = some (line.bytes, rest) := by
  have hline : forall c, c ∈ line.bytes -> (c != newline) = true :=
    fun c hc => bne_newline line hc
  rw [getline, if_neg (by simp), List.takeWhile_append_of_pos hline,
    List.dropWhile_append_of_pos hline]
  simp

theorem getline_last (line : LineText) (h : line.bytes ≠ []) :
    getline line.bytes = some (line.bytes, []) := by
  have hline : forall c, c ∈ line.bytes -> (c != newline) = true :=
    fun c hc => bne_newline line hc
  rw [getline, if_neg (by simpa using h), List.takeWhile_eq_self_iff.mpr hline,
    List.dropWhile_eq_nil_iff.mpr hline]
  rfl

theorem storeLines_nil (values : StringMap Bytes) : storeLines values [] = values := by
  rw [storeLines]
  rfl

theorem storeLines_of_getline (values : StringMap Bytes) {text line rest : Bytes}
    (h : getline text = some (line, rest)) :
    storeLines values text = storeLines (storeLine values line) rest := by
  rw [storeLines]
  split
  · next hnone =>
    rw [h] at hnone
    cases hnone
  · next line' rest' hsome =>
    rw [h] at hsome
    cases hsome
    rfl

theorem storeLine_nil (values : StringMap Bytes) : storeLine values [] = values := rfl

theorem storeLines_last (values : StringMap Bytes) (line : LineText) :
    storeLines values line.bytes = storeLine values line.bytes := by
  by_cases h : line.bytes = []
  · rw [h, storeLines_nil, storeLine_nil]
  · rw [storeLines_of_getline values (getline_last line h), storeLines_nil]

theorem storeLines_fileText_append (values : StringMap Bytes) (lines : List LineText)
    (rest : Bytes) :
    storeLines values (fileText lines ++ rest) =
      storeLines ((lines.map LineText.bytes).foldl storeLine values) rest := by
  induction lines generalizing values with
  | nil => rfl
  | cons line lines ih =>
      have htext : fileText (line :: lines) ++ rest =
          line.bytes ++ newline :: (fileText lines ++ rest) := by
        simp [fileText]
      rw [htext, storeLines_of_getline values (getline_append line _), ih]
      rfl

theorem storeLines_fileText (values : StringMap Bytes) (lines : List LineText) :
    storeLines values (fileText lines) = (lines.map LineText.bytes).foldl storeLine values := by
  have happend := storeLines_fileText_append values lines []
  rw [List.append_nil, storeLines_nil] at happend
  exact happend

theorem storeLines_dropLast_fileText (values : StringMap Bytes) (lines : List LineText) :
    storeLines values (fileText lines).dropLast =
      (lines.map LineText.bytes).foldl storeLine values := by
  cases lines using List.reverseRecOn with
  | nil => exact storeLines_nil values
  | append_singleton lines line =>
      have htext : (fileText (lines ++ [line])).dropLast = fileText lines ++ line.bytes := by
        have hlast : fileText (lines ++ [line]) = (fileText lines ++ line.bytes) ++ [newline] := by
          simp [fileText]
        rw [hlast, List.dropLast_concat]
      rw [htext, storeLines_fileText_append, storeLines_last, List.map_append, List.foldl_append]
      rfl

/-!
## Assignments

The line for a key and a value, and the lines that assign nothing: those without an
equals sign and comments.
-/

/-- A key that can stand before an equals sign. -/
structure EnvKey extends LineText where
  equals_not_mem : equals ∉ bytes
  not_comment : bytes.head? ≠ some hash

def assignment (key : EnvKey) (v : LineText) : LineText where
  bytes := key.bytes ++ equals :: v.bytes
  newline_not_mem := by
    intro hmem
    rcases List.mem_append.mp hmem with hkey | hvalue
    · exact key.newline_not_mem hkey
    · rcases List.mem_cons.mp hvalue with heq | hrest
      · cases heq
      · exact v.newline_not_mem hrest

theorem storeLine_assignment (values : StringMap Bytes) (key : EnvKey) (v : LineText) :
    storeLine values (assignment key v).bytes = values.insert key.bytes (stripQuotes v.bytes) := by
  have hhead : ((key.bytes ++ equals :: v.bytes).isEmpty ||
      (key.bytes ++ equals :: v.bytes).head? == some hash) = false := by
    have hkey := key.not_comment
    cases hbytes : key.bytes with
    | nil => rfl
    | cons c rest =>
        rw [hbytes] at hkey
        simpa using hkey
  rw [assignment, storeLine, hhead, if_neg (by simp),
    Bytes.find_zero_append_cons key.equals_not_mem]
  simp only [List.take_left, Bytes.drop_append_cons]

theorem storeLine_of_plain (values : StringMap Bytes) {line : Bytes}
    (h : equals ∉ line ∨ line.head? = some hash) : storeLine values line = values := by
  rw [storeLine]
  split
  · rfl
  · next hskip =>
    rcases h with hfree | hcomment
    · have hnone : Bytes.find line equals 0 = none := by
        rw [Bytes.find_eq_none_iff, List.drop_zero]
        exact hfree
      rw [hnone]
    · simp [hcomment] at hskip

/-!
## Quoted values survive

A file of quoted pairs, with blank lines and comments between them.  The last pair
with a key decides its value.
-/

/-- A line of a written file: a pair, a blank line, or a comment. -/
inductive EnvLine where
  | pair (key : EnvKey) (value : LineText)
  | blank (spaces : LineText) (h : forall c, c ∈ spaces.bytes -> isSpace c = true)
  | comment (text : LineText)

def quoted (value : LineText) : LineText where
  bytes := quote :: (value.bytes ++ [quote])
  newline_not_mem := by
    intro hmem
    rcases List.mem_cons.mp hmem with heq | hrest
    · cases heq
    · rcases List.mem_append.mp hrest with hvalue | hlast
      · exact value.newline_not_mem hvalue
      · cases List.mem_singleton.mp hlast

def commentLine (text : LineText) : LineText where
  bytes := hash :: text.bytes
  newline_not_mem := by
    intro hmem
    rcases List.mem_cons.mp hmem with heq | hrest
    · cases heq
    · exact text.newline_not_mem hrest

def EnvLine.line : EnvLine -> LineText
  | .pair key value => assignment key (quoted value)
  | .blank spaces _ => spaces
  | .comment text => commentLine text

def EnvLine.valueOf (key : Bytes) : EnvLine -> Option Bytes
  | .pair k value => if k.bytes = key then some value.bytes else none
  | .blank _ _ => none
  | .comment _ => none

/-- The value of the last pair with this key. -/
def lastValue (key : Bytes) : List EnvLine -> Option Bytes
  | [] => none
  | line :: lines => (lastValue key lines).or (line.valueOf key)

theorem stripQuotes_quoted (value : LineText) :
    stripQuotes (quoted value).bytes = value.bytes := by
  simp [stripQuotes, quoted]

theorem storeLine_line (values : StringMap Bytes) (line : EnvLine) (key : Bytes) :
    (storeLine values line.line.bytes).lookup key =
      (line.valueOf key).or (values.lookup key) := by
  cases line with
  | pair k value =>
      have hline : (EnvLine.pair k value).line = assignment k (quoted value) := rfl
      rw [hline, storeLine_assignment, stripQuotes_quoted, EnvLine.valueOf]
      by_cases hkey : k.bytes = key
      · rw [if_pos hkey, ← hkey, Finmap.lookup_insert, Option.some_or]
      · rw [if_neg hkey, Finmap.lookup_insert_of_ne _ (Ne.symm hkey), Option.none_or]
  | blank spaces h =>
      have hfree : equals ∉ spaces.bytes := by
        intro hmem
        have hspace := h equals hmem
        cases hspace
      have hline : (EnvLine.blank spaces h).line = spaces := rfl
      rw [hline, storeLine_of_plain values (Or.inl hfree)]
      rfl
  | comment text =>
      have hline : (EnvLine.comment text).line.bytes = hash :: text.bytes := rfl
      rw [hline, storeLine_of_plain values (Or.inr rfl)]
      rfl

theorem lookup_foldl_storeLine (values : StringMap Bytes) (lines : List EnvLine) (key : Bytes) :
    (((lines.map EnvLine.line).map LineText.bytes).foldl storeLine values).lookup key =
      (lastValue key lines).or (values.lookup key) := by
  induction lines generalizing values with
  | nil => rfl
  | cons line lines ih =>
      rw [List.map_cons, List.map_cons, List.foldl_cons, ih, storeLine_line, lastValue,
        Option.or_assoc]

/--
For every list of pairs written as quoted lines, with blank lines and comments
between them, and with or without a newline at the end of the file: a key has the
value of its last pair, and a key without a pair has none.
-/
theorem get_load_fileText (lines : List EnvLine) (key : Bytes) :
    (DotenvSource.load (some (fileText (lines.map EnvLine.line)))).get key =
        lastValue key lines ∧
      (DotenvSource.load (some (fileText (lines.map EnvLine.line)).dropLast)).get key =
        lastValue key lines := by
  have hlookup := lookup_foldl_storeLine ∅ lines key
  rw [Finmap.lookup_empty, Option.or_none] at hlookup
  constructor
  · rw [DotenvSource.load, DotenvSource.get, storeLines_fileText, hlookup]
  · rw [DotenvSource.load, DotenvSource.get, storeLines_dropLast_fileText, hlookup]

/-!
## Values that are not quoted

Without quotes a value loses a quote at either end, wherever its line stands in the
file.
-/

/-- The value begins and ends with a quote, and these are two characters. -/
def Quoted (v : Bytes) : Prop :=
  exists inner, v = quote :: (inner ++ [quote])

def Assigns (key : EnvKey) (line : LineText) : Prop :=
  exists v, line.bytes = key.bytes ++ equals :: v

/-- A value that is not quoted is stored as it stands, wherever its line stands in
a file that assigns nothing to the key later. -/
def StoresVerbatim (key : EnvKey) (v : LineText) : Prop :=
  ¬ Quoted v.bytes -> forall before after : List LineText,
    (forall line, line ∈ after -> ¬ Assigns key line) ->
    (DotenvSource.load (some (fileText (before ++ assignment key v :: after)))).get key.bytes =
      some v.bytes

theorem lookup_storeLine_of_not_assigns (values : StringMap Bytes) {key : EnvKey}
    {line : LineText} (h : ¬ Assigns key line) :
    (storeLine values line.bytes).lookup key.bytes = values.lookup key.bytes := by
  rw [storeLine]
  split
  · rfl
  · cases hfind : Bytes.find line.bytes equals 0 with
    | none => rfl
    | some eq =>
        have hne : key.bytes ≠ line.bytes.take eq := by
          intro hkey
          apply h
          refine ⟨line.bytes.drop (eq + 1), ?_⟩
          rcases Option.map_eq_some_iff.mp hfind with ⟨i, hi, heq⟩
          rw [List.drop_zero] at hi
          rcases List.findIdx?_eq_some_iff_getElem.mp hi with ⟨hlt, hchar, _⟩
          have hi_eq : i = eq := heq
          rw [hi_eq] at hlt
          have hget : line.bytes[eq] = equals := by
            simpa [hi_eq] using hchar
          rw [hkey, ← hget, ← List.drop_eq_getElem_cons hlt, List.take_append_drop]
        rw [Finmap.lookup_insert_of_ne _ hne]

theorem lookup_foldl_of_not_assigns (values : StringMap Bytes) {key : EnvKey}
    {lines : List LineText} (h : forall line, line ∈ lines -> ¬ Assigns key line) :
    ((lines.map LineText.bytes).foldl storeLine values).lookup key.bytes =
      values.lookup key.bytes := by
  induction lines generalizing values with
  | nil => rfl
  | cons line lines ih =>
      rw [List.map_cons, List.foldl_cons, ih _ (fun l hl => h l (List.mem_cons_of_mem line hl)),
        lookup_storeLine_of_not_assigns values (h line List.mem_cons_self)]

theorem get_load_assignment (key : EnvKey) (v : LineText) (before : List LineText)
    {after : List LineText} (h : forall line, line ∈ after -> ¬ Assigns key line) :
    (DotenvSource.load (some (fileText (before ++ assignment key v :: after)))).get key.bytes =
      some (stripQuotes v.bytes) := by
  rw [DotenvSource.load, DotenvSource.get, storeLines_fileText, List.map_append,
    List.foldl_append, List.map_cons, List.foldl_cons, lookup_foldl_of_not_assigns _ h,
    storeLine_assignment, Finmap.lookup_insert]

theorem stripQuotes_of_unquoted {v : Bytes} (hfront : v.head? ≠ some quote)
    (hback : v.getLast? ≠ some quote) : stripQuotes v = v := by
  simp only [stripQuotes, if_neg hfront, if_neg hback]

theorem unquoted_of_stripQuotes {v : Bytes} (h : stripQuotes v = v) :
    v.head? ≠ some quote ∧ v.getLast? ≠ some quote := by
  have hlength := congrArg List.length h
  unfold stripQuotes at hlength
  by_cases hfront : v.head? = some quote
  · cases v with
    | nil => cases hfront
    | cons c rest =>
        simp only [hfront, if_true, List.drop_one, List.tail_cons, List.length_cons] at hlength
        split at hlength
        · rw [List.length_dropLast] at hlength
          lia
        · lia
  · refine ⟨hfront, ?_⟩
    intro hback
    simp only [hfront, if_false, hback, if_true, List.length_dropLast] at hlength
    cases v with
    | nil => cases hback
    | cons c rest =>
        rw [List.length_cons] at hlength
        lia

/--
For every key and value: the value is stored as it stands unless it is quoted, if
and only if it is quoted or has no quote at either end.
-/
theorem storesVerbatim_iff (key : EnvKey) (v : LineText) :
    StoresVerbatim key v <->
      Quoted v.bytes ∨ (v.bytes.head? ≠ some quote ∧ v.bytes.getLast? ≠ some quote) := by
  constructor
  · intro h
    by_cases hquoted : Quoted v.bytes
    · exact Or.inl hquoted
    · have hnone : forall line, line ∈ ([] : List LineText) -> ¬ Assigns key line := by
        intro line hline
        cases hline
      have hstored := h hquoted [] [] hnone
      rw [get_load_assignment key v [] hnone] at hstored
      exact Or.inr (unquoted_of_stripQuotes (Option.some.inj hstored))
  · intro h hquoted before after hafter
    rcases h with hpair | ⟨hfront, hback⟩
    · exact absurd hpair hquoted
    · rw [get_load_assignment key v before hafter, stripQuotes_of_unquoted hfront hback]

def motto : EnvKey where
  bytes := ascii "MOTTO"
  newline_not_mem := by decide
  equals_not_mem := by decide
  not_comment := by decide

def quotation : LineText where
  bytes := ascii "say \"hi\""
  newline_not_mem := by decide

theorem quotation_altered :
    (DotenvSource.load (some (fileText [assignment motto quotation]))).get (ascii "MOTTO") =
        some (ascii "say \"hi") ∧
      ¬ StoresVerbatim motto quotation := by
  have hnone : forall line, line ∈ ([] : List LineText) -> ¬ Assigns motto line := by
    intro line hline
    cases hline
  have hstored := get_load_assignment motto quotation [] hnone
  refine ⟨hstored, ?_⟩
  intro h
  have hquoted : ¬ Quoted quotation.bytes := by
    intro hpair
    rcases hpair with ⟨inner, hinner⟩
    have hfirst := congrArg List.head? hinner
    cases hfirst
  have hverbatim := h hquoted [] [] hnone
  rw [hstored] at hverbatim
  cases hverbatim

end Config
end CppCommons
