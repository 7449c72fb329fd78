import CppCommons.Cxx.Json
import CppCommons.Cxx.Format
import CppCommons.Foundation.JsonWriter

/-!
# Printing JSON values

What is documented of `dump()` of `nlohmann::json` without arguments: it throws if
some string of the document is not UTF-8, and else returns a text that denotes the
document.  How the library prints a `double` is left open.  A printer without white
space shows that the two can be had together.
-/

namespace CppCommons
namespace Cxx

open Foundation.Ascii
open Foundation.JsonSyntax

namespace Json

variable (float : UInt64 -> Value)

mutual

/-- The value that a text of the document denotes. -/
def value : Json -> Value
  | .null => .word .null
  | .boolean true => .word .true
  | .boolean false => .word .false
  | .integer n => .number (decimal n)
  | .float bits => float bits
  | .string s => .string s
  | .array items => .array (values items)
  | .object members => .object (memberValues members)

def values : List Json -> List Value
  | [] => []
  | item :: items => value item :: values items

def memberValues : List (Bytes × Json) -> List (Bytes × Value)
  | [] => []
  | (name, item) :: members => (name, value item) :: memberValues members

end

end Json

def stringOf : Token -> Option Bytes
  | .string s => some s
  | _ => none

def strings (v : Value) : List Bytes :=
  v.tokens.filterMap stringOf

theorem mem_strings_iff {v : Value} {s : Bytes} :
    s ∈ strings v <-> Token.string s ∈ v.tokens := by
  rw [strings, List.mem_filterMap]
  constructor
  · rintro ⟨token, htoken, hs⟩
    cases token with
    | string content =>
        cases hs
        exact htoken
    | _ => cases hs
  · intro h
    exact ⟨_, h, rfl⟩

/-- The documented behaviour of `dump()`. -/
structure PrintsJson (json : JsonText) (float : UInt64 -> Value) : Prop where
  throws : forall j s, s ∈ strings (j.value float) -> ¬ Utf8 s ->
    exists what, json.dump j = .error what
  denotes : forall j, (forall s, s ∈ strings (j.value float) -> Utf8 s) ->
    exists text, json.dump j = .ok text ∧ Denotes text (j.value float)

/-!
## Integers

The decimal text of an integer is a number of the grammar.
-/

theorem foldlM_next_digits {digits : Bytes} (h : forall c, c ∈ digits -> isDigit c = true) :
    digits.foldlM (fun part c => NumberPart.next c part) NumberPart.int = some .int := by
  induction digits with
  | nil => rfl
  | cons c digits ih =>
      have hc : NumberPart.next c .int = some .int := by
        simp [NumberPart.next, NumberPart.digit, h c List.mem_cons_self]
      rw [List.foldlM_cons, hc, Option.bind_eq_bind, Option.bind_some]
      exact ih (fun d hd => h d (List.mem_cons_of_mem c hd))

theorem decimalDigits_of_pos {n : Nat} (h : 0 < n) :
    exists d digits, decimalDigits n = d :: digits ∧ 48 < d ∧ d <= 57 ∧
      forall c, c ∈ digits -> isDigit c = true := by
  induction n using Nat.strongRecOn with
  | ind n ih =>
      by_cases hsmall : n < 10
      · refine ⟨_, [], decimalDigits_of_lt hsmall, ?_, ?_, by simp⟩
        · interval_cases n <;> decide
        · interval_cases n <;> decide
      · rcases ih (n / 10) (by lia) (by lia) with ⟨d, digits, hfront, hlow, hhigh, hdigits⟩
        refine ⟨d, digits ++ [UInt8.ofNat (48 + n % 10)], ?_, hlow, hhigh, ?_⟩
        · rw [decimalDigits_of_le (Nat.not_lt.mp hsmall), hfront]
          rfl
        · intro c hc
          rcases List.mem_append.mp hc with hc | hc
          · exact hdigits c hc
          · rw [List.mem_singleton.mp hc]
            exact isDigit_digit (Nat.mod_lt n (by decide))

theorem isNumber_decimal (n : Int) : IsNumber (decimal n) := by
  by_cases hzero : n = 0
  · rw [hzero]
    exact ⟨.zero, rfl, rfl⟩
  · rcases decimalDigits_of_pos (Int.natAbs_pos.mpr hzero) with
      ⟨d, digits, htext, hlow, hhigh, hdigits⟩
    refine ⟨.int, ?_, rfl⟩
    unfold decimal
    split_ifs
    · have hnext : NumberPart.next d .minus = some .int := by
        grind [NumberPart.next, NumberPart.digit, isDigit]
      rw [htext, numberPart, NumberPart.first, if_pos rfl, Option.bind_some, List.foldlM_cons,
        hnext, Option.bind_eq_bind, Option.bind_some]
      exact foldlM_next_digits hdigits
    · have hfirst : NumberPart.first d = some .int := by
        grind [NumberPart.first, isDigit]
      rw [htext, numberPart, hfirst, Option.bind_some]
      exact foldlM_next_digits hdigits

/-!
## A printer

The text without white space, with escapes where the grammar asks for them and nowhere else.
-/

def isUtf8 (s : Bytes) : Bool :=
  s.toByteArray.validateUTF8

theorem isUtf8_iff (s : Bytes) : isUtf8 s = true <-> Utf8 s := by
  rw [isUtf8, ByteArray.validateUTF8_eq_true_iff]
  constructor
  · rintro ⟨chars, hchars⟩
    exact ⟨chars, List.toByteArray_inj.mp hchars⟩
  · rintro ⟨chars, hchars⟩
    exact ⟨chars, List.toByteArray_inj.mpr hchars⟩

def compactDump (float : UInt64 -> Value) (j : Json) : Except String Bytes :=
  if (strings (j.value float)).all isUtf8 then .ok (written (j.value float))
  else .error "[json.exception.type_error.316] invalid UTF-8 byte"

section Numbers

variable {float : UInt64 -> Value}

mutual

theorem numbersValid_value (hfloat : forall bits, NumbersValid (float bits).tokens) :
    (j : Json) -> NumbersValid (j.value float).tokens
  | .null => by simp [NumbersValid, Json.value, Value.tokens]
  | .boolean true => by simp [NumbersValid, Json.value, Value.tokens]
  | .boolean false => by simp [NumbersValid, Json.value, Value.tokens]
  | .integer n => by simpa [NumbersValid, Json.value, Value.tokens] using isNumber_decimal n
  | .float bits => by
      rw [Json.value]
      exact hfloat bits
  | .string s => by simp [NumbersValid, Json.value, Value.tokens]
  | .array [] => by simp [NumbersValid, Json.value, Json.values, Value.tokens]
  | .array (item :: items) => by
      intro literal h
      simp only [Json.value, Json.values, Value.tokens, List.mem_cons, List.mem_append,
        reduceCtorEq, false_or] at h
      rcases h with h | h
      · exact numbersValid_value hfloat item literal h
      · exact numbersValid_values hfloat items literal h
  | .object [] => by simp [NumbersValid, Json.value, Json.memberValues, Value.tokens]
  | .object ((name, item) :: members) => by
      intro literal h
      simp only [Json.value, Json.memberValues, Value.tokens, List.mem_cons, List.mem_append,
        reduceCtorEq, false_or] at h
      rcases h with h | h
      · exact numbersValid_value hfloat item literal h
      · exact numbersValid_memberValues hfloat members literal h

theorem numbersValid_values (hfloat : forall bits, NumbersValid (float bits).tokens) :
    (items : List Json) -> NumbersValid (moreItems (Json.values float items))
  | [] => by simp [NumbersValid, Json.values, moreItems]
  | item :: items => by
      intro literal h
      simp only [Json.values, moreItems, List.mem_cons, List.mem_append, reduceCtorEq,
        false_or] at h
      rcases h with h | h
      · exact numbersValid_value hfloat item literal h
      · exact numbersValid_values hfloat items literal h

theorem numbersValid_memberValues (hfloat : forall bits, NumbersValid (float bits).tokens) :
    (members : List (Bytes × Json)) -> NumbersValid (moreMembers (Json.memberValues float members))
  | [] => by simp [NumbersValid, Json.memberValues, moreMembers]
  | (name, item) :: members => by
      intro literal h
      simp only [Json.memberValues, moreMembers, List.mem_cons, List.mem_append, reduceCtorEq,
        false_or] at h
      rcases h with h | h
      · exact numbersValid_value hfloat item literal h
      · exact numbersValid_memberValues hfloat members literal h

end

theorem printsJson_compactDump (hfloat : forall bits, NumbersValid (float bits).tokens)
    (parse : Bytes -> Except String Json) :
    PrintsJson { parse := parse, dump := compactDump float } float where
  throws j s hs hinvalid := by
    have hnot : ¬ (strings (j.value float)).all isUtf8 = true := by
      intro hall
      exact hinvalid ((isUtf8_iff s).mp (List.all_eq_true.mp hall s hs))
    exact ⟨_, if_neg hnot⟩
  denotes j hutf8 := by
    have hall : (strings (j.value float)).all isUtf8 = true :=
      List.all_eq_true.mpr (fun s hs => (isUtf8_iff s).mpr (hutf8 s hs))
    refine ⟨_, if_pos hall, ?_⟩
    exact denotes_written (numbersValid_value hfloat j)
      (fun s hs => hutf8 s (mem_strings_iff.mpr hs))

end Numbers

theorem compactDump_of_plain {float : UInt64 -> Value} {j : Json}
    (h : (strings (j.value float)).all isPlainAscii = true) :
    compactDump float j = .ok (written (j.value float)) := by
  refine if_pos (List.all_eq_true.mpr (fun s hs => (isUtf8_iff s).mpr ?_))
  exact (plain_of_isPlainAscii (List.all_eq_true.mp h s hs)).left

/-- A library that prints documents without `double`s, and parses none. -/
def documentText : JsonText where
  parse _ := .error "[json.exception.parse_error.101] parse error"
  dump := compactDump (fun _ => .word .null)

theorem printsJson_documentText : PrintsJson documentText (fun _ => .word .null) :=
  printsJson_compactDump (by simp [NumbersValid, Value.tokens]) _

end Cxx
end CppCommons
