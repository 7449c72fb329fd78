import CppCommons.Config.ConfigValidator

/-!
# Accepted texts of settings

Which texts the readers of durations and integers accept, and with which value.
`std::stoll` and `std::stoi` stop behind the numeral at the front of a text;
`parse_duration` looks at what follows, the readers of integers do not.
-/

namespace CppCommons
namespace Config

open Cxx
open Foundation.Ascii

/-!
## Durations

A duration is a numeral with one of the suffixes of `durationUnits`.  The product
with the length of the unit is computed in 64 bits and may overflow.
-/

def durationUnits : List (Bytes × Int) :=
  [(ascii "ms", 1), (ascii "s", 1000), (ascii "m", 60000), (ascii "h", 3600000)]

/-- The text is a numeral for `n` followed by a suffix for `unit`, and nothing else. -/
def DurationText (s : Bytes) (n unit : Int) : Prop :=
  exists (m : Numeral) (suffix : Bytes),
    s = m.text ++ suffix ∧ n = m.value ∧ (suffix, unit) ∈ durationUnits

/-- The result is the product where the text has the form and it fits, else an error. -/
structure ReadsDuration (s : Bytes) (result : Evaluation ConfigError Milliseconds) : Prop where
  returns_iff : forall ms, result = .returns ms <->
    exists n unit, DurationText s n unit ∧ fitsInt64 (n * unit) = true ∧ ms = n * unit
  throws_of_not : (¬ exists n unit, DurationText s n unit ∧ fitsInt64 (n * unit) = true) ->
    exists e, result = .throws e

theorem noDigitNext_of_mem_durationUnits {suffix : Bytes} {unit : Int}
    (h : (suffix, unit) ∈ durationUnits) : NoDigitNext suffix := by
  have hall : forall entry, entry ∈ durationUnits -> entry.fst.takeWhile isDigit = [] := by
    decide
  exact hall (suffix, unit) h

theorem pos_of_mem_durationUnits {suffix : Bytes} {unit : Int}
    (h : (suffix, unit) ∈ durationUnits) : 0 < unit := by
  have hall : forall entry, entry ∈ durationUnits -> 0 < entry.snd := by
    decide
  exact hall (suffix, unit) h

theorem durationUnits_unique {suffix : Bytes} {unit unit' : Int}
    (h : (suffix, unit) ∈ durationUnits) (h' : (suffix, unit') ∈ durationUnits) :
    unit = unit' := by
  have hall : forall entry, entry ∈ durationUnits -> forall entry', entry' ∈ durationUnits ->
      entry.fst = entry'.fst -> entry.snd = entry'.snd := by
    decide
  exact hall (suffix, unit) h (suffix, unit') h' rfl

theorem DurationText.unique {s : Bytes} {n n' unit unit' : Int} (h : DurationText s n unit)
    (h' : DurationText s n' unit') : n = n' ∧ unit = unit' := by
  rcases h with ⟨m, suffix, hs, rfl, hunit⟩
  rcases h' with ⟨m', suffix', hs', rfl, hunit'⟩
  have hsame := numeral_unique (noDigitNext_of_mem_durationUnits hunit)
    (noDigitNext_of_mem_durationUnits hunit') (hs.symm.trans hs')
  rw [← hsame.right] at hunit'
  exact ⟨hsame.left, durationUnits_unique hunit hunit'⟩

theorem fitsInt64_of_mul {n unit : Int} (hunit : 0 < unit) (h : fitsInt64 (n * unit) = true) :
    fitsInt64 n = true := by
  simp only [fitsInt64, Bool.and_eq_true, decide_eq_true_eq] at h ⊢
  constructor
  · by_contra hsmall
    have hscaled : n * unit <= n * 1 := Int.mul_le_mul_of_nonpos_left (by lia) (by lia)
    lia
  · by_contra hlarge
    have hscaled : n * 1 <= n * unit := Int.mul_le_mul_of_nonneg_left (by lia) (by lia)
    lia

theorem toMilliseconds_one {n : Int} (h : fitsInt64 n = true) :
    toMilliseconds n 1 = .returns n := by
  rw [toMilliseconds, mul_one, if_pos h]

theorem parseDuration_of_durationText {s : Bytes} {n unit : Int} (name : CString)
    (h : DurationText s n unit) (hfits : fitsInt64 n = true) :
    parseDuration name s = toMilliseconds n unit := by
  rcases h with ⟨m, suffix, hs, rfl, hunit⟩
  have hstoll : stoll s = some (m.value, m.text.length) :=
    (stoll_eq_some_iff s _).mpr
      ⟨m, suffix, hs, noDigitNext_of_mem_durationUnits hunit, hfits, rfl⟩
  have hsuffix : s.drop m.text.length = suffix := by
    rw [hs, List.drop_left]
  have hne : s.isEmpty = false := by
    have hdigits := m.digits_ne_nil
    simp [hs, Numeral.text, hdigits]
  simp only [parseDuration, hstoll, hsuffix, hne]
  simp only [durationUnits, List.mem_cons, Prod.mk.injEq, List.not_mem_nil, or_false] at hunit
  rcases hunit with ⟨rfl, rfl⟩ | ⟨rfl, rfl⟩ | ⟨rfl, rfl⟩ | ⟨rfl, rfl⟩
  · rw [toMilliseconds_one hfits]
    rfl
  · rfl
  · rfl
  · rfl

theorem parseDuration_of_not_durationText {s : Bytes} (name : CString)
    (h : ¬ exists n unit, DurationText s n unit ∧ fitsInt64 n = true) :
    exists e, parseDuration name s = .throws e := by
  unfold parseDuration
  split
  · exact ⟨_, rfl⟩
  · split
    · exact ⟨_, rfl⟩
    · next count pos hstoll =>
        rcases (stoll_eq_some_iff s _).mp hstoll with ⟨m, rest, hs, _, hfits, hnumber⟩
        cases hnumber
        have hunit : forall unit, (rest, unit) ∉ durationUnits := by
          intro unit hmem
          exact h ⟨m.value, unit, ⟨m, rest, hs, rfl, hmem⟩, hfits⟩
        have hrest : s.drop m.text.length = rest := by
          rw [hs, List.drop_left]
        have hms : rest ≠ ascii "ms" := by
          intro heq
          rw [heq] at hunit
          exact hunit 1 (by decide)
        have hs' : rest ≠ ascii "s" := by
          intro heq
          rw [heq] at hunit
          exact hunit 1000 (by decide)
        have hm : rest ≠ ascii "m" := by
          intro heq
          rw [heq] at hunit
          exact hunit 60000 (by decide)
        have hh : rest ≠ ascii "h" := by
          intro heq
          rw [heq] at hunit
          exact hunit 3600000 (by decide)
        simp only [hrest, if_neg hms, if_neg hs', if_neg hm, if_neg hh]
        exact ⟨_, rfl⟩

/--
For every text: `parse_duration` returns the product exactly where the text has
the form and the product fits, and throws in every other case, if and only if no
text of the form has a number that fits and a product that does not.
-/
theorem readsDuration_iff (name : CString) (s : Bytes) :
    ReadsDuration s (parseDuration name s) <->
      forall n unit, DurationText s n unit -> fitsInt64 n = true ->
        fitsInt64 (n * unit) = true := by
  constructor
  · intro h n unit htext hfits
    by_contra hproduct
    rcases h.throws_of_not (by
      intro hparts
      rcases hparts with ⟨n', unit', htext', hproduct'⟩
      rcases htext.unique htext' with ⟨rfl, rfl⟩
      exact hproduct hproduct') with ⟨e, hthrows⟩
    rw [parseDuration_of_durationText name htext hfits, toMilliseconds, if_neg hproduct] at hthrows
    cases hthrows
  · intro h
    by_cases hform : exists n unit, DurationText s n unit ∧ fitsInt64 n = true
    · rcases hform with ⟨n, unit, htext, hfits⟩
      have hproduct := h n unit htext hfits
      have hparse : parseDuration name s = .returns (n * unit) := by
        rw [parseDuration_of_durationText name htext hfits, toMilliseconds, if_pos hproduct]
      constructor
      · intro ms
        rw [hparse, Evaluation.returns.injEq]
        constructor
        · intro hms
          exact ⟨n, unit, htext, hproduct, hms.symm⟩
        · intro hparts
          rcases hparts with ⟨n', unit', htext', _, rfl⟩
          rcases htext.unique htext' with ⟨rfl, rfl⟩
          rfl
      · intro hnone
        exact absurd ⟨n, unit, htext, hproduct⟩ hnone
    · have hnone : ¬ exists n unit, DurationText s n unit ∧ fitsInt64 (n * unit) = true := by
        intro hparts
        rcases hparts with ⟨n, unit, htext, hproduct⟩
        have hpos : 0 < unit := by
          rcases htext with ⟨_, _, _, _, hunit⟩
          exact pos_of_mem_durationUnits hunit
        exact hform ⟨n, unit, htext, fitsInt64_of_mul hpos hproduct⟩
      rcases parseDuration_of_not_durationText name hform with ⟨e, hthrows⟩
      constructor
      · intro ms
        rw [hthrows]
        constructor
        · intro hms
          cases hms
        · intro hparts
          rcases hparts with ⟨n, unit, htext, hproduct, _⟩
          exact absurd ⟨n, unit, htext, hproduct⟩ hnone
      · intro _
        exact ⟨e, hthrows⟩

def manyHours : Numeral where
  spaces := []
  sign := .absent
  digits := ascii "9999999999999"
  isSpace_spaces := isSpace_of_mem_nil
  isDigit_digits := List.all_eq_true.mp (by decide)
  digits_ne_nil := by decide

theorem manyHours_undefined :
    parseDuration timeout (ascii "9999999999999h") = .undefined ∧
      ¬ ReadsDuration (ascii "9999999999999h")
        (parseDuration timeout (ascii "9999999999999h")) := by
  have htext : DurationText (ascii "9999999999999h") 9999999999999 3600000 :=
    ⟨manyHours, ascii "h", rfl, rfl, by decide⟩
  have hundefined : parseDuration timeout (ascii "9999999999999h") = .undefined := by
    rw [parseDuration_of_durationText timeout htext (by decide)]
    rfl
  refine ⟨hundefined, ?_⟩
  intro h
  have hnone : ¬ exists n unit, DurationText (ascii "9999999999999h") n unit ∧
      fitsInt64 (n * unit) = true := by
    intro hparts
    rcases hparts with ⟨n, unit, htext', hproduct⟩
    rcases htext.unique htext' with ⟨rfl, rfl⟩
    cases hproduct
  rcases h.throws_of_not hnone with ⟨e, hthrows⟩
  rw [hundefined] at hthrows
  cases hthrows

/-!
## Integers

The three readers of integers take the numeral at the front of a value and ignore
what follows it.
-/

def WholeNumeral (v : Bytes) (n : Int) : Prop :=
  exists m : Numeral, v = m.text ∧ n = m.value

/-- The value begins with a numeral for `n` and goes on with something else. -/
def NumeralWithTail (v : Bytes) (n : Int) : Prop :=
  exists (m : Numeral) (tail : Bytes),
    v = m.text ++ tail ∧ NoDigitNext tail ∧ tail ≠ [] ∧ n = m.value

def fitsUInt16 (n : Int) : Bool :=
  0 <= n && n <= 65535

/-- Only whole numerals in range are accepted, as their value; anything else is reported. -/
structure ReadsWhole (v : Bytes) (inRange : Int -> Bool) (accepts : Int -> Prop)
    (reports : Prop) : Prop where
  whole_of_accepts : forall n, accepts n -> WholeNumeral v n ∧ inRange n = true
  reports_of_not : (¬ exists n, WholeNumeral v n) -> reports

theorem stoi_eq_some_iff_front (v : Bytes) (n : Int) :
    stoi v = some n <-> (WholeNumeral v n ∨ NumeralWithTail v n) ∧ fitsInt32 n = true := by
  rw [stoi_eq_some_iff]
  constructor
  · intro hparts
    rcases hparts with ⟨m, rest, hv, hrest, hfits, rfl⟩
    refine ⟨?_, hfits⟩
    by_cases hnil : rest = []
    · rw [hnil, List.append_nil] at hv
      exact Or.inl ⟨m, hv, rfl⟩
    · exact Or.inr ⟨m, rest, hv, hrest, hnil, rfl⟩
  · intro hparts
    rcases hparts with ⟨⟨m, hv, rfl⟩ | ⟨m, tail, hv, htail, _, rfl⟩, hfits⟩
    · exact ⟨m, [], by rw [hv, List.append_nil], rfl, hfits, rfl⟩
    · exact ⟨m, tail, hv, htail, hfits, rfl⟩

theorem not_wholeNumeral_of_tail {v : Bytes} {n : Int} (h : NumeralWithTail v n) :
    ¬ exists n', WholeNumeral v n' := by
  rcases h with ⟨m, tail, hv, htail, hne, _⟩
  intro hparts
  rcases hparts with ⟨n', m', hv', _⟩
  have hsame : m.text ++ tail = m'.text ++ [] := by
    rw [List.append_nil, ← hv, hv']
  have hnil : NoDigitNext [] := List.takeWhile_nil
  exact hne (numeral_unique htail hnil hsame).right

/--
A reader that accepts the front numerals of its range, and reports everything
else, keeps to whole numerals exactly when the value has no such numeral with a
tail.
-/
theorem readsWhole_iff {v : Bytes} {inRange : Int -> Bool} {accepts : Int -> Prop}
    {reports : Prop}
    (haccepts : forall n, accepts n <->
      (WholeNumeral v n ∨ NumeralWithTail v n) ∧ inRange n = true)
    (hreports : reports <-> ¬ exists n, accepts n) :
    ReadsWhole v inRange accepts reports <->
      ¬ exists n, NumeralWithTail v n ∧ inRange n = true := by
  constructor
  · intro h htailed
    rcases htailed with ⟨n, htail, hrange⟩
    have haccepted := (haccepts n).mpr ⟨Or.inr htail, hrange⟩
    exact not_wholeNumeral_of_tail htail ⟨n, (h.whole_of_accepts n haccepted).left⟩
  · intro h
    have hwhole : forall n, accepts n -> WholeNumeral v n ∧ inRange n = true := by
      intro n haccepted
      rcases (haccepts n).mp haccepted with ⟨hn | hn, hrange⟩
      · exact ⟨hn, hrange⟩
      · exact absurd ⟨n, hn, hrange⟩ h
    refine ⟨hwhole, ?_⟩
    intro hnone
    rw [hreports]
    intro hparts
    rcases hparts with ⟨n, haccepted⟩
    exact hnone ⟨n, (hwhole n haccepted).left⟩

section Readers

variable {env : Environment} {name : CString} {v : CString}

theorem present_of_value (hv : env name = some v) (hne : v.val ≠ []) :
    present env name = some v.val := by
  simp [present, hv, hne]

theorem envAsInt_of_some (hv : env name = some v) (hne : v.val ≠ []) {n : Int}
    (h : stoi v.val = some n) : envAsInt env name = .returns n := by
  simp only [envAsInt, requireEnv, present_of_value hv hne, h]

theorem envAsInt_of_none (hv : env name = some v) (hne : v.val ≠ []) (h : stoi v.val = none) :
    envAsInt env name =
      .throws { what := ascii "Invalid integer for " ++ name.val ++ ascii ": " ++ v.val } := by
  simp only [envAsInt, requireEnv, present_of_value hv hne, h]

theorem readsWhole_envAsInt (hv : env name = some v) (hne : v.val ≠ []) :
    ReadsWhole v.val fitsInt32 (fun n => envAsInt env name = .returns n)
        (exists e, envAsInt env name = .throws e) <->
      ¬ exists n, NumeralWithTail v.val n ∧ fitsInt32 n = true := by
  apply readsWhole_iff
  · intro n
    rw [← stoi_eq_some_iff_front]
    cases hstoi : stoi v.val with
    | none => simp [envAsInt_of_none hv hne hstoi]
    | some k => simp [envAsInt_of_some hv hne hstoi]
  · cases hstoi : stoi v.val with
    | none => simp [envAsInt_of_none hv hne hstoi]
    | some k => simp [envAsInt_of_some hv hne hstoi]

theorem fitsUInt16_iff (n : Int) : fitsUInt16 n = true <-> 0 <= n ∧ n <= 65535 := by
  rw [fitsUInt16, Bool.and_eq_true, decide_eq_true_iff, decide_eq_true_iff]

theorem fitsInt32_of_fitsUInt16 {n : Int} (h : fitsUInt16 n = true) : fitsInt32 n = true := by
  rw [fitsUInt16_iff] at h
  simp only [fitsInt32, Bool.and_eq_true, decide_eq_true_eq]
  lia

theorem toNat_ofInt_of_fitsUInt16 {n : Int} (h : fitsUInt16 n = true) :
    ((UInt16.ofInt n).toNat : Int) = n := by
  rw [fitsUInt16_iff] at h
  rw [UInt16.ofInt, UInt16.toNat_ofNat']
  lia

theorem envAsUInt16_of_value (hv : env name = some v) (hne : v.val ≠ []) (n : Int) :
    (exists p : UInt16, envAsUInt16 env name = .returns p ∧ (p.toNat : Int) = n) <->
      stoi v.val = some n ∧ fitsUInt16 n = true := by
  cases hstoi : stoi v.val with
  | none => simp [envAsUInt16, envAsInt_of_none hv hne hstoi]
  | some k =>
      rw [envAsUInt16, envAsInt_of_some hv hne hstoi]
      by_cases hrange : fitsUInt16 k = true
      · have hin : ¬ (k < 0 ∨ k > 65535) := by
          rw [fitsUInt16_iff] at hrange
          lia
        simp only [if_neg hin, Evaluation.returns.injEq, exists_eq_left',
          toNat_ofInt_of_fitsUInt16 hrange, Option.some.injEq]
        constructor
        · intro heq
          rw [← heq]
          exact ⟨rfl, hrange⟩
        · intro h
          exact h.left
      · have hout : k < 0 ∨ k > 65535 := by
          rw [fitsUInt16_iff] at hrange
          lia
        simp only [if_pos hout, reduceCtorEq, false_and, exists_false, Option.some.injEq, false_iff]
        intro hread
        rw [hread.left] at hrange
        exact hrange hread.right

theorem envAsUInt16_throws_iff (hv : env name = some v) (hne : v.val ≠ []) :
    (exists e, envAsUInt16 env name = .throws e) <->
      ¬ exists p : UInt16, envAsUInt16 env name = .returns p := by
  cases hstoi : stoi v.val with
  | none => simp [envAsUInt16, envAsInt_of_none hv hne hstoi]
  | some k =>
      rw [envAsUInt16, envAsInt_of_some hv hne hstoi]
      by_cases hout : k < 0 ∨ k > 65535 <;> simp [hout]

theorem readsWhole_envAsUInt16 (hv : env name = some v) (hne : v.val ≠ []) :
    ReadsWhole v.val fitsUInt16
        (fun n => exists p : UInt16, envAsUInt16 env name = .returns p ∧ (p.toNat : Int) = n)
        (exists e, envAsUInt16 env name = .throws e) <->
      ¬ exists n, NumeralWithTail v.val n ∧ fitsUInt16 n = true := by
  apply readsWhole_iff
  · intro n
    rw [envAsUInt16_of_value hv hne, stoi_eq_some_iff_front]
    constructor
    · intro hparts
      rcases hparts with ⟨⟨hfront, _⟩, hrange⟩
      exact ⟨hfront, hrange⟩
    · intro hparts
      rcases hparts with ⟨hfront, hrange⟩
      exact ⟨⟨hfront, fitsInt32_of_fitsUInt16 hrange⟩, hrange⟩
  · rw [envAsUInt16_throws_iff hv hne]
    simp

theorem report_ne (validator : ConfigValidator) (message : Bytes) :
    validator.report message ≠ validator := by
  intro h
  have hlength := congrArg (fun w => w.errors.length) h
  simp [ConfigValidator.report] at hlength

theorem readsWhole_requireInt (validator : ConfigValidator) (hv : env name = some v)
    (hne : v.val ≠ []) :
    ReadsWhole v.val fitsInt32 (fun n => validator.requireInt env name = (validator, n))
        (exists message, (validator.requireInt env name).fst = validator.report message) <->
      ¬ exists n, NumeralWithTail v.val n ∧ fitsInt32 n = true := by
  have hrequire : validator.require env name = (validator, v.val) := by
    rw [ConfigValidator.require, present_of_value hv hne]
  have hempty : v.val.isEmpty = false := by
    simpa using hne
  apply readsWhole_iff
  · intro n
    rw [← stoi_eq_some_iff_front]
    cases hstoi : stoi v.val with
    | none => simp [ConfigValidator.requireInt, hrequire, hempty, hstoi, report_ne]
    | some k => simp [ConfigValidator.requireInt, hrequire, hempty, hstoi]
  · cases hstoi : stoi v.val with
    | none => simp [ConfigValidator.requireInt, hrequire, hempty, hstoi, report_ne]
    | some k => simp [ConfigValidator.requireInt, hrequire, hempty, hstoi, (report_ne _ _).symm]

end Readers

/--
For every non-empty value of a variable, each of the three readers of integers
keeps to whole numerals in its range if and only if the value does not begin
with a numeral of that range and go on with something else.
-/
theorem integer_readers_iff (env : Environment) (name : CString) (v : CString)
    (hv : env name = some v) (hne : v.val ≠ []) (validator : ConfigValidator) :
    (ReadsWhole v.val fitsInt32 (fun n => envAsInt env name = .returns n)
        (exists e, envAsInt env name = .throws e) <->
      ¬ exists n, NumeralWithTail v.val n ∧ fitsInt32 n = true) ∧
    (ReadsWhole v.val fitsUInt16
        (fun n => exists p : UInt16, envAsUInt16 env name = .returns p ∧ (p.toNat : Int) = n)
        (exists e, envAsUInt16 env name = .throws e) <->
      ¬ exists n, NumeralWithTail v.val n ∧ fitsUInt16 n = true) ∧
    (ReadsWhole v.val fitsInt32 (fun n => validator.requireInt env name = (validator, n))
        (exists message, (validator.requireInt env name).fst = validator.report message) <->
      ¬ exists n, NumeralWithTail v.val n ∧ fitsInt32 n = true) :=
  ⟨readsWhole_envAsInt hv hne, readsWhole_envAsUInt16 hv hne,
    readsWhole_requireInt validator hv hne⟩

def port : CString := ⟨ascii "PORT", by decide⟩

def eighty : Numeral where
  spaces := []
  sign := .absent
  digits := ascii "80"
  isSpace_spaces := isSpace_of_mem_nil
  isDigit_digits := List.all_eq_true.mp (by decide)
  digits_ne_nil := by decide

def mistypedPort : CString := ⟨ascii "80x", by decide⟩

theorem mistypedPort_accepted :
    envAsInt (everywhere mistypedPort) port = .returns 80 ∧
      envAsUInt16 (everywhere mistypedPort) port = .returns 80 ∧
      ConfigValidator.requireInt {} (everywhere mistypedPort) port = ({}, 80) ∧
      ¬ exists n, WholeNumeral mistypedPort.val n := by
  have htail : NumeralWithTail mistypedPort.val 80 :=
    ⟨eighty, ascii "x", rfl, rfl, by decide, rfl⟩
  exact ⟨by decide, by decide, by decide, not_wholeNumeral_of_tail htail⟩

def plainPort : CString := ⟨ascii "80", by decide⟩

theorem plainPort_readsWhole :
    ReadsWhole plainPort.val fitsInt32 (fun n => envAsInt (everywhere plainPort) port = .returns n)
        (exists e, envAsInt (everywhere plainPort) port = .throws e) ∧
      ReadsWhole plainPort.val fitsUInt16
        (fun n => exists p : UInt16,
          envAsUInt16 (everywhere plainPort) port = .returns p ∧ (p.toNat : Int) = n)
        (exists e, envAsUInt16 (everywhere plainPort) port = .throws e) ∧
      ReadsWhole plainPort.val fitsInt32
        (fun n => ConfigValidator.requireInt {} (everywhere plainPort) port = ({}, n))
        (exists message, (ConfigValidator.requireInt {} (everywhere plainPort) port).fst =
          ConfigValidator.report {} message) := by
  have hwhole : WholeNumeral plainPort.val 80 := ⟨eighty, rfl, rfl⟩
  have hnone : forall inRange : Int -> Bool,
      ¬ exists n, NumeralWithTail plainPort.val n ∧ inRange n = true := by
    intro inRange htailed
    rcases htailed with ⟨n, htail, _⟩
    exact not_wholeNumeral_of_tail htail ⟨80, hwhole⟩
  have h := integer_readers_iff (everywhere plainPort) port plainPort rfl (by decide) {}
  exact ⟨h.left.mpr (hnone _), h.right.left.mpr (hnone _), h.right.right.mpr (hnone _)⟩

end Config
end CppCommons
