import CppCommons.Foundation.Ascii
import CppCommons.Foundation.LabelledRun

/-!
# Scanning JSON texts

The tokens of the JSON grammar and a scanner that takes a text byte by byte.  Outside
strings only ASCII is accepted, so the scanner does not decode UTF-8; an escape
in a string adds the UTF-8 bytes of the character it stands for.

A string that contains an escape is longer in the text than its content, and so
is a text with white space than its tokens.  A text that is as short as its
tokens allow therefore has every string in it written out as it is.
-/

namespace CppCommons
namespace Foundation
namespace JsonSyntax

open Ascii LabelledRun

/-!
## Tokens

`text` is a token without white space and escapes.  `weight` counts the bytes that
it takes in every text.
-/

inductive Symbol where
  | beginArray
  | endArray
  | beginObject
  | endObject
  | nameSeparator
  | valueSeparator
deriving DecidableEq

inductive Word where
  | null
  | true
  | false
deriving DecidableEq

inductive Token where
  | symbol (s : Symbol)
  | word (w : Word)
  | number (literal : List UInt8)
  | string (content : List UInt8)
deriving DecidableEq

def Symbol.byte : Symbol -> UInt8
  | beginArray => 91
  | endArray => 93
  | beginObject => 123
  | endObject => 125
  | nameSeparator => 58
  | valueSeparator => 44

def Word.text : Word -> List UInt8
  | null => [110, 117, 108, 108]
  | true => [116, 114, 117, 101]
  | false => [102, 97, 108, 115, 101]

namespace Token

def text : Token -> List UInt8
  | symbol s => [s.byte]
  | word w => w.text
  | number literal => literal
  | string content => quote :: content ++ [quote]

def weight : Token -> Nat
  | symbol _ => 1
  | string content => content.length + 2
  | _ => 0

end Token

/-- May stand in a string as it is, as far as single bytes are concerned. -/
def Unescaped (s : List UInt8) : Prop :=
  forall c, c ∈ s -> 32 ≤ c ∧ c ≠ quote ∧ c ≠ backslash

def Unquoted (s : List UInt8) : Prop :=
  quote ∉ s ∧ backslash ∉ s

instance (s : List UInt8) : Decidable (Unquoted s) :=
  inferInstanceAs (Decidable (quote ∉ s ∧ backslash ∉ s))

/-!
## The scanner

One byte at a time: what the last bytes began is the mode, and the tokens read so
far are kept beside it.
-/

inductive NumberPart where
  | minus
  | zero
  | int
  | point
  | frac
  | exp
  | expSign
  | expDigits

inductive Mode where
  | between
  | string (content : List UInt8)
  | escape (content : List UInt8)
  | hex (content : List UInt8) (high : Option Nat) (digits : List Nat)
  | highSurrogate (content : List UInt8) (high : Nat)
  | lowEscape (content : List UInt8) (high : Nat)
  | number (literal : List UInt8) (part : NumberPart)
  | word (w : Word) (left : List UInt8)

structure Scanner where
  tokens : List Token := []
  mode : Mode := .between

def isWhiteSpace (c : UInt8) : Bool :=
  c == 32 || c == 9 || c == 10 || c == 13

def symbolOf (c : UInt8) : Option Symbol :=
  if c = 91 then some .beginArray
  else if c = 93 then some .endArray
  else if c = 123 then some .beginObject
  else if c = 125 then some .endObject
  else if c = 58 then some .nameSeparator
  else if c = 44 then some .valueSeparator
  else none

def hexValue (c : UInt8) : Option Nat :=
  if isDigit c then some (c.toNat - 48)
  else if 65 ≤ c && c ≤ 70 then some (c.toNat - 55)
  else if 97 ≤ c && c ≤ 102 then some (c.toNat - 87)
  else none

namespace NumberPart

def first (c : UInt8) : Option NumberPart :=
  if c = 45 then some minus
  else if c = 48 then some zero
  else if isDigit c then some int
  else none

def digit (c : UInt8) (part : NumberPart) : Option NumberPart :=
  if isDigit c then some part else none

def exponent (c : UInt8) : Option NumberPart :=
  if c = 101 ∨ c = 69 then some exp else none

def decimalPoint (c : UInt8) : Option NumberPart :=
  if c = 46 then some point else none

/-- `number = [ minus ] int [ frac ] [ exp ]`, one byte further. -/
def next (c : UInt8) : NumberPart -> Option NumberPart
  | minus => if c = 48 then some zero else digit c int
  | zero => decimalPoint c <|> exponent c
  | int => digit c int <|> decimalPoint c <|> exponent c
  | point => digit c frac
  | frac => digit c frac <|> exponent c
  | exp => if c = 43 ∨ c = 45 then some expSign else digit c expDigits
  | expSign => digit c expDigits
  | expDigits => digit c expDigits

def complete : NumberPart -> Bool
  | zero | int | frac | expDigits => true
  | _ => false

end NumberPart

namespace Scanner

def push (sc : Scanner) (token : Token) : Scanner :=
  { tokens := sc.tokens ++ [token] }

def enter (sc : Scanner) (mode : Mode) : Scanner :=
  { sc with mode := mode }

def inBetween (sc : Scanner) (c : UInt8) : Option Scanner :=
  if isWhiteSpace c then some (sc.enter .between)
  else if c = quote then some (sc.enter (.string []))
  else if c = 110 then some (sc.enter (.word .null (Word.null.text.drop 1)))
  else if c = 116 then some (sc.enter (.word .true (Word.true.text.drop 1)))
  else if c = 102 then some (sc.enter (.word .false (Word.false.text.drop 1)))
  else
    match symbolOf c with
    | some s => some (sc.push (.symbol s))
    | none => (NumberPart.first c).map (fun part => sc.enter (.number [c] part))

def inString (sc : Scanner) (content : List UInt8) (c : UInt8) : Option Scanner :=
  if c = quote then some (sc.push (.string content))
  else if c = backslash then some (sc.enter (.escape content))
  else if c < 32 then none
  else some (sc.enter (.string (content ++ [c])))

def inEscape (sc : Scanner) (content : List UInt8) (c : UInt8) : Option Scanner :=
  if c = quote ∨ c = backslash ∨ c = 47 then some (sc.enter (.string (content ++ [c])))
  else if c = 98 then some (sc.enter (.string (content ++ [8])))
  else if c = 102 then some (sc.enter (.string (content ++ [12])))
  else if c = 110 then some (sc.enter (.string (content ++ [10])))
  else if c = 114 then some (sc.enter (.string (content ++ [13])))
  else if c = 116 then some (sc.enter (.string (content ++ [9])))
  else if c = 117 then some (sc.enter (.hex content none []))
  else none

def codeUnit (sc : Scanner) (content : List UInt8) (high : Option Nat) (unit : Nat) :
    Option Scanner :=
  match high with
  | none =>
      if 0xD800 ≤ unit ∧ unit < 0xDC00 then some (sc.enter (.highSurrogate content unit))
      else if 0xDC00 ≤ unit ∧ unit < 0xE000 then none
      else some (sc.enter (.string (content ++ String.utf8EncodeChar (Char.ofNat unit))))
  | some high =>
      if 0xDC00 ≤ unit ∧ unit < 0xE000 then
        let point := 0x10000 + (high - 0xD800) * 0x400 + (unit - 0xDC00)
        some (sc.enter (.string (content ++ String.utf8EncodeChar (Char.ofNat point))))
      else none

def inHex (sc : Scanner) (content : List UInt8) (high : Option Nat) (digits : List Nat)
    (c : UInt8) : Option Scanner :=
  match hexValue c with
  | none => none
  | some d =>
      if digits.length < 3 then some (sc.enter (.hex content high (digits ++ [d])))
      else sc.codeUnit content high (Nat.ofDigits 16 (digits ++ [d]).reverse)

def inNumber (sc : Scanner) (literal : List UInt8) (part : NumberPart) (c : UInt8) :
    Option Scanner :=
  match part.next c with
  | some part' => some (sc.enter (.number (literal ++ [c]) part'))
  | none => if part.complete then (sc.push (.number literal)).inBetween c else none

def inWord (sc : Scanner) (w : Word) (left : List UInt8) (c : UInt8) : Option Scanner :=
  match left with
  | [] => none
  | [d] => if c = d then some (sc.push (.word w)) else none
  | d :: left => if c = d then some (sc.enter (.word w left)) else none

def step (sc : Scanner) (c : UInt8) : Option Scanner :=
  match sc.mode with
  | .between => sc.inBetween c
  | .string content => sc.inString content c
  | .escape content => sc.inEscape content c
  | .hex content high digits => sc.inHex content high digits c
  | .highSurrogate content high =>
      if c = backslash then some (sc.enter (.lowEscape content high)) else none
  | .lowEscape content high =>
      if c = 117 then some (sc.enter (.hex content (some high) [])) else none
  | .number literal part => sc.inNumber literal part c
  | .word w left => sc.inWord w left c

def finish (sc : Scanner) : Option (List Token) :=
  match sc.mode with
  | .between => some sc.tokens
  | .number literal part =>
      if part.complete then some (sc.tokens ++ [.number literal]) else none
  | _ => none

end Scanner

def scan (text : List UInt8) : Option (List Token) :=
  (run Scanner.step {} text).bind Scanner.finish

/-!
## Counting bytes

No step adds more weight than the one byte it reads, and a step that adds that
much leaves no escape behind.
-/

def weight (tokens : List Token) : Nat :=
  (tokens.map Token.weight).sum

theorem weight_append (tokens tokens' : List Token) :
    weight (tokens ++ tokens') = weight tokens + weight tokens' := by
  simp [weight]

@[simp] theorem weight_cons (token : Token) (tokens : List Token) :
    weight (token :: tokens) = token.weight + weight tokens := by
  simp [weight]

@[simp] theorem weight_nil : weight [] = 0 := rfl

def Literal (tokens : List Token) : Prop :=
  forall content, Token.string content ∈ tokens -> Unescaped content

namespace Mode

def weight : Mode -> Nat
  | string content => content.length + 1
  | escape content => content.length + 1
  | hex content none digits => content.length + 1 + digits.length
  | hex content (some _) _ => content.length + 4
  | highSurrogate content _ => content.length + 4
  | lowEscape content _ => content.length + 4
  | _ => 0

def Literal : Mode -> Prop
  | between => True
  | string content => Unescaped content
  | _ => False

end Mode

namespace Scanner

def weight (sc : Scanner) : Nat :=
  JsonSyntax.weight sc.tokens + sc.mode.weight

def Literal (sc : Scanner) : Prop :=
  JsonSyntax.Literal sc.tokens ∧ sc.mode.Literal

structure Counts (sc sc' : Scanner) (n : Nat) : Prop where
  le : sc'.weight ≤ sc.weight + n
  literal : sc.Literal -> sc'.weight = sc.weight + n -> sc'.Literal

theorem Counts.trans {sc sc' sc'' : Scanner} {n m : Nat} (h : Counts sc sc' n)
    (h' : Counts sc' sc'' m) : Counts sc sc'' (n + m) := by
  have hle := h.le
  have hle' := h'.le
  constructor
  · lia
  · intro hliteral heq
    exact h'.literal (h.literal hliteral (by lia)) (by lia)

theorem counts_of_lt {sc sc' : Scanner} {n : Nat} (h : sc'.weight < sc.weight + n) :
    Counts sc sc' n := by
  constructor
  · exact h.le
  · intro _ heq
    lia

theorem weight_of_mode {sc : Scanner} {mode : Mode} (h : sc.mode = mode) :
    sc.weight = JsonSyntax.weight sc.tokens + mode.weight := by
  rw [weight, h]

@[simp] theorem weight_enter (sc : Scanner) (mode : Mode) :
    (sc.enter mode).weight = JsonSyntax.weight sc.tokens + mode.weight := rfl

@[simp] theorem weight_push (sc : Scanner) (token : Token) :
    (sc.push token).weight = JsonSyntax.weight sc.tokens + token.weight := by
  simp [push, weight, weight_append, Mode.weight]

theorem inBetween_counts {sc sc' : Scanner} {c : UInt8} (hmode : sc.mode = .between)
    (h : sc.inBetween c = some sc') : Counts sc sc' 1 := by
  have hweight := weight_of_mode hmode
  unfold inBetween at h
  split_ifs at h with hspace hquote hnull htrue hfalse
  · cases h
    exact counts_of_lt (by simp [hweight, Mode.weight])
  · cases h
    constructor
    · simp [hweight, Mode.weight]
    · intro hliteral _
      exact ⟨hliteral.left, by simp [enter, Mode.Literal, Unescaped]⟩
  · cases h
    exact counts_of_lt (by simp [hweight, Mode.weight])
  · cases h
    exact counts_of_lt (by simp [hweight, Mode.weight])
  · cases h
    exact counts_of_lt (by simp [hweight, Mode.weight])
  · cases hsymbol : symbolOf c with
    | some s =>
        rw [hsymbol] at h
        cases h
        constructor
        · simp [hweight, Token.weight]
        · intro hliteral _
          constructor
          · intro content hcontent
            exact hliteral.left content (by simpa [push] using hcontent)
          · trivial
    | none =>
        simp only [hsymbol, Option.map_eq_some_iff] at h
        rcases h with ⟨part, _, hsc⟩
        rw [← hsc]
        exact counts_of_lt (by simp [hweight, Mode.weight])

theorem inString_counts {sc sc' : Scanner} {content : List UInt8} {c : UInt8}
    (hmode : sc.mode = .string content) (h : sc.inString content c = some sc') :
    Counts sc sc' 1 := by
  have hweight := weight_of_mode hmode
  have hcontent : sc.Literal -> Unescaped content := by
    intro hliteral
    have hstring := hliteral.right
    rwa [hmode] at hstring
  unfold inString at h
  split_ifs at h with hquote hbackslash hcontrol
  · cases h
    constructor
    · simp [hweight, Token.weight, Mode.weight]
      lia
    · intro hliteral _
      constructor
      · intro content' hmem
        rcases List.mem_append.mp hmem with hold | hnew
        · exact hliteral.left content' hold
        · cases List.mem_singleton.mp hnew
          exact hcontent hliteral
      · trivial
  · cases h
    exact counts_of_lt (by simp [hweight, Mode.weight])
  · cases h
    constructor
    · simp [hweight, Mode.weight]
      lia
    · intro hliteral _
      refine ⟨hliteral.left, ?_⟩
      intro d hd
      rcases List.mem_append.mp hd with hold | hnew
      · exact hcontent hliteral d hold
      · cases List.mem_singleton.mp hnew
        exact ⟨UInt8.not_lt.mp hcontrol, hquote, hbackslash⟩

theorem counts_of_mode {sc sc' : Scanner} {n : Nat} (hmode : ¬ sc.mode.Literal)
    (h : sc'.weight ≤ sc.weight + n) : Counts sc sc' n := by
  constructor
  · exact h
  · intro hliteral _
    exact absurd hliteral.right hmode

theorem length_utf8EncodeChar_le (c : Char) : (String.utf8EncodeChar c).length ≤ 4 := by
  rw [String.length_utf8EncodeChar]
  exact c.utf8Size_le_four

theorem inEscape_weight {sc sc' : Scanner} {content : List UInt8} {c : UInt8}
    (h : sc.inEscape content c = some sc') :
    sc'.weight ≤ JsonSyntax.weight sc.tokens + (content.length + 1) + 1 := by
  unfold inEscape at h
  split_ifs at h <;> cases h <;> simp [Mode.weight] <;> lia

theorem codeUnit_weight {sc sc' : Scanner} {content : List UInt8} {high : Option Nat} {unit : Nat}
    (h : sc.codeUnit content high unit = some sc') :
    sc'.weight ≤ JsonSyntax.weight sc.tokens + (content.length + 5) := by
  have hchar : forall c, (content ++ String.utf8EncodeChar c).length ≤ content.length + 4 := by
    intro c
    have hlength := length_utf8EncodeChar_le c
    rw [List.length_append]
    lia
  unfold codeUnit at h
  cases high with
  | none =>
      simp only at h
      split_ifs at h
      · cases h
        simp [Mode.weight]
      · cases h
        have hle := hchar (Char.ofNat unit)
        simp only [weight_enter, Mode.weight]
        lia
  | some high =>
      simp only at h
      split_ifs at h
      cases h
      have hle := hchar (Char.ofNat (0x10000 + (high - 0xD800) * 0x400 + (unit - 0xDC00)))
      simp only [weight_enter, Mode.weight]
      lia

theorem inHex_weight {sc sc' : Scanner} {content : List UInt8} {high : Option Nat}
    {digits : List Nat} {c : UInt8} (h : sc.inHex content high digits c = some sc') :
    sc'.weight ≤ JsonSyntax.weight sc.tokens + (Mode.hex content high digits).weight + 1 := by
  unfold inHex at h
  cases hvalue : hexValue c with
  | none => simp [hvalue] at h
  | some d =>
      rw [hvalue] at h
      simp only at h
      split_ifs at h with hdigits
      · cases h
        cases high <;> simp [Mode.weight]
        lia
      · have hunit := codeUnit_weight h
        cases high <;> simp only [Mode.weight] <;> lia

theorem inNumber_weight {sc sc' : Scanner} {literal : List UInt8} {part : NumberPart} {c : UInt8}
    (h : sc.inNumber literal part c = some sc') :
    sc'.weight ≤ JsonSyntax.weight sc.tokens + 1 := by
  unfold inNumber at h
  cases hnext : part.next c with
  | some part' =>
      rw [hnext] at h
      cases h
      simp [Mode.weight]
  | none =>
      rw [hnext] at h
      simp only at h
      split_ifs at h
      have hle := (inBetween_counts rfl h).le
      simpa [Token.weight] using hle

theorem inWord_weight {sc sc' : Scanner} {w : Word} {left : List UInt8} {c : UInt8}
    (h : sc.inWord w left c = some sc') : sc'.weight = JsonSyntax.weight sc.tokens := by
  unfold inWord at h
  split at h
  · cases h
  · split_ifs at h
    cases h
    simp [Token.weight]
  · split_ifs at h
    cases h
    simp [Mode.weight]

theorem step_counts {sc sc' : Scanner} {c : UInt8} (h : sc.step c = some sc') :
    Counts sc sc' 1 := by
  unfold step at h
  cases hmode : sc.mode with
  | between =>
      rw [hmode] at h
      exact inBetween_counts hmode h
  | string content =>
      rw [hmode] at h
      exact inString_counts hmode h
  | escape content =>
      rw [hmode] at h
      apply counts_of_mode (by simp [hmode, Mode.Literal])
      rw [weight_of_mode hmode]
      exact inEscape_weight h
  | hex content high digits =>
      rw [hmode] at h
      apply counts_of_mode (by simp [hmode, Mode.Literal])
      rw [weight_of_mode hmode]
      exact inHex_weight h
  | highSurrogate content high =>
      simp only [hmode] at h
      split_ifs at h
      cases h
      apply counts_of_mode (by simp [hmode, Mode.Literal])
      simp [weight_of_mode hmode, Mode.weight]
  | lowEscape content high =>
      simp only [hmode] at h
      split_ifs at h
      cases h
      apply counts_of_mode (by simp [hmode, Mode.Literal])
      simp [weight_of_mode hmode, Mode.weight]
  | number literal part =>
      rw [hmode] at h
      apply counts_of_mode (by simp [hmode, Mode.Literal])
      rw [weight_of_mode hmode]
      exact inNumber_weight h
  | word w left =>
      rw [hmode] at h
      apply counts_of_mode (by simp [hmode, Mode.Literal])
      rw [inWord_weight h, weight_of_mode hmode]
      lia

theorem run_counts {sc sc' : Scanner} {text : List UInt8} (h : run step sc text = some sc') :
    Counts sc sc' text.length := by
  apply invariant_of_run (P := fun text sc' => Counts sc sc' text.length) ?_ ?_ h
  · constructor
    · exact le_rfl
    · intro hliteral _
      exact hliteral
  · intro text mid c next _ hmid hstep
    rw [List.length_append, List.length_singleton]
    exact hmid.trans (step_counts hstep)

end Scanner

theorem scan_counts {text : List UInt8} {tokens : List Token} (h : scan text = some tokens) :
    weight tokens ≤ text.length ∧ (weight tokens = text.length -> Literal tokens) := by
  rcases Option.bind_eq_some_iff.mp h with ⟨sc, hrun, hfinish⟩
  have hcounts := Scanner.run_counts hrun
  have hstart : Scanner.Literal {} := ⟨by simp [Literal], trivial⟩
  have hle : sc.weight ≤ text.length := by
    simpa [Scanner.weight, Mode.weight] using hcounts.le
  have hliteral : sc.weight = text.length -> sc.Literal := by
    intro heq
    exact hcounts.literal hstart (by simpa [Scanner.weight, Mode.weight] using heq)
  unfold Scanner.finish at hfinish
  cases hmode : sc.mode with
  | between =>
      have hweight := Scanner.weight_of_mode hmode
      simp only [hmode, Option.some.injEq] at hfinish
      have hsame : weight sc.tokens = sc.weight := by
        rw [hweight]
        rfl
      rw [← hfinish, hsame]
      exact ⟨hle, fun heq => (hliteral heq).left⟩
  | number literal part =>
      have hweight := Scanner.weight_of_mode hmode
      simp only [hmode] at hfinish
      split_ifs at hfinish
      cases hfinish
      have hsame : weight (sc.tokens ++ [.number literal]) = sc.weight := by
        rw [weight_append, hweight]
        rfl
      rw [hsame]
      refine ⟨hle, fun heq => ?_⟩
      have hnever := (hliteral heq).right
      rw [hmode] at hnever
      exact hnever.elim
  | _ => simp [hmode] at hfinish

/-!
## Strings without quotes and backslashes

Such a string ends at the quote written behind it, if its text is accepted at all.
-/

def Token.Framed : Token -> Prop
  | symbol _ => True
  | string content => Unquoted content
  | _ => False

theorem Unescaped.unquoted {s : List UInt8} (h : Unescaped s) : Unquoted s := by
  constructor
  · intro hmem
    exact (h quote hmem).right.left rfl
  · intro hmem
    exact (h backslash hmem).right.right rfl

namespace Scanner

theorem step_symbol (tokens : List Token) (s : Symbol) :
    step { tokens := tokens } s.byte = some { tokens := tokens ++ [.symbol s] } := by
  cases s <;> rfl

theorem run_content_eq_some_iff {s : List UInt8} (hs : Unquoted s) (tokens : List Token)
    (content : List UInt8) (sc : Scanner) :
    run step { tokens := tokens, mode := .string content } s = some sc <->
      Unescaped s ∧ sc = { tokens := tokens, mode := .string (content ++ s) } := by
  induction s generalizing content with
  | nil =>
      rw [run_nil, Option.some.injEq, List.append_nil]
      constructor
      · intro h
        exact ⟨by simp [Unescaped], h.symm⟩
      · intro h
        exact h.right.symm
  | cons c s ih =>
      have hc : c ≠ quote ∧ c ≠ backslash := by
        constructor
        · intro heq
          exact hs.left (by simp [heq])
        · intro heq
          exact hs.right (by simp [heq])
      have hrest : Unquoted s := by
        constructor
        · intro hmem
          exact hs.left (List.mem_cons_of_mem c hmem)
        · intro hmem
          exact hs.right (List.mem_cons_of_mem c hmem)
      have hstep : step { tokens := tokens, mode := .string content } c =
          if c < 32 then none
          else some { tokens := tokens, mode := .string (content ++ [c]) } := by
        simp only [step, inString, if_neg hc.left, if_neg hc.right, enter]
      have hunescaped : Unescaped (c :: s) <-> 32 ≤ c ∧ Unescaped s := by
        simp [Unescaped, hc]
      rw [run_cons_eq_some_iff, hstep, hunescaped]
      split_ifs with hcontrol
      · have hlt : ¬ 32 ≤ c := UInt8.not_le.mpr hcontrol
        simp [hlt]
      · have hle : 32 ≤ c := UInt8.not_lt.mp hcontrol
        simp [ih hrest, hle]

theorem run_token_eq_some_iff {token : Token} (htoken : token.Framed) (tokens : List Token)
    (sc : Scanner) :
    run step { tokens := tokens } token.text = some sc <->
      JsonSyntax.Literal [token] ∧ sc = { tokens := tokens ++ [token] } := by
  cases token with
  | word w => exact htoken.elim
  | number literal => exact htoken.elim
  | symbol s =>
      rw [Token.text, run_singleton, step_symbol, Option.some.injEq]
      simp [JsonSyntax.Literal, eq_comm]
  | string content =>
      have hopen : step { tokens := tokens } quote =
          some { tokens := tokens, mode := .string [] } := rfl
      have hclose : step { tokens := tokens, mode := .string content } quote =
          some { tokens := tokens ++ [.string content] } := rfl
      rw [Token.text, List.cons_append, run_cons_of_step hopen, run_concat_eq_some_iff]
      simp only [run_content_eq_some_iff htoken, List.nil_append]
      constructor
      · intro h
        rcases h with ⟨mid, ⟨hcontent, hmid⟩, hsc⟩
        rw [hmid, hclose, Option.some.injEq] at hsc
        exact ⟨by simpa [JsonSyntax.Literal] using hcontent, hsc.symm⟩
      · intro h
        refine ⟨_, ⟨by simpa [JsonSyntax.Literal] using h.left, rfl⟩, ?_⟩
        rw [hclose, h.right]

theorem run_tokens_eq_some_iff {read : List Token} (hread : forall t, t ∈ read -> t.Framed)
    (tokens : List Token) (sc : Scanner) :
    run step { tokens := tokens } (read.flatMap Token.text) = some sc <->
      JsonSyntax.Literal read ∧ sc = { tokens := tokens ++ read } := by
  induction read generalizing tokens with
  | nil => simp [JsonSyntax.Literal, eq_comm]
  | cons token read ih =>
      have hfirst := hread token List.mem_cons_self
      have hrest : forall t, t ∈ read -> t.Framed := by
        intro t ht
        exact hread t (List.mem_cons_of_mem token ht)
      have hliteral : JsonSyntax.Literal (token :: read) <->
          JsonSyntax.Literal [token] ∧ JsonSyntax.Literal read := by
        simp [JsonSyntax.Literal, or_imp, forall_and]
      rw [List.flatMap_cons, run_append_eq_some_iff, hliteral]
      simp only [run_token_eq_some_iff hfirst]
      constructor
      · intro h
        rcases h with ⟨mid, ⟨htoken, hmid⟩, hrun⟩
        rw [hmid, ih hrest] at hrun
        exact ⟨⟨htoken, hrun.left⟩, by simpa using hrun.right⟩
      · intro h
        refine ⟨_, ⟨h.left.left, rfl⟩, (ih hrest _).mpr ⟨h.left.right, ?_⟩⟩
        simpa using h.right

end Scanner

/-!
## Tokens that have been read

A step never takes back a token, so the tokens read from the front of a text are the
first tokens of the text.
-/

namespace Scanner

@[simp] theorem tokens_enter (sc : Scanner) (mode : Mode) :
    (sc.enter mode).tokens = sc.tokens := rfl

@[simp] theorem tokens_push (sc : Scanner) (token : Token) :
    (sc.push token).tokens = sc.tokens ++ [token] := rfl

theorem inBetween_tokens {sc sc' : Scanner} {c : UInt8} (h : sc.inBetween c = some sc') :
    sc.tokens <+: sc'.tokens := by
  unfold inBetween at h
  grind [tokens_enter, tokens_push, Option.map_eq_some_iff]

theorem codeUnit_tokens {sc sc' : Scanner} {content : List UInt8} {high : Option Nat} {unit : Nat}
    (h : sc.codeUnit content high unit = some sc') : sc.tokens <+: sc'.tokens := by
  cases high <;> grind [codeUnit, tokens_enter]

theorem inWord_tokens {sc sc' : Scanner} {w : Word} {left : List UInt8} {c : UInt8}
    (h : sc.inWord w left c = some sc') : sc.tokens <+: sc'.tokens := by
  unfold inWord at h
  grind [tokens_enter, tokens_push]

theorem step_tokens {sc sc' : Scanner} {c : UInt8} (h : sc.step c = some sc') :
    sc.tokens <+: sc'.tokens := by
  unfold step at h
  cases hmode : sc.mode with
  | between =>
      rw [hmode] at h
      exact inBetween_tokens h
  | number literal part =>
      simp only [hmode, inNumber] at h
      split at h
      · cases h
        exact List.prefix_rfl
      · split_ifs at h
        exact (List.prefix_append _ _).trans (inBetween_tokens h)
  | _ =>
      grind [inString, inEscape, inHex, codeUnit_tokens, inWord_tokens, tokens_enter, tokens_push]

theorem finish_tokens {sc : Scanner} {tokens : List Token} (h : sc.finish = some tokens) :
    sc.tokens <+: tokens := by
  unfold finish at h
  grind

end Scanner

theorem exists_run_of_scan {read : List Token} (hread : forall t, t ∈ read -> t.Framed)
    {rest : List UInt8} {tokens : List Token}
    (h : scan (read.flatMap Token.text ++ rest) = some tokens) :
    exists sc, run Scanner.step { tokens := read } rest = some sc ∧
      sc.finish = some tokens := by
  rcases Option.bind_eq_some_iff.mp h with ⟨sc, hrun, hfinish⟩
  rcases (run_append_eq_some_iff _ _).mp hrun with ⟨mid, hmid, hrest⟩
  rw [((Scanner.run_tokens_eq_some_iff hread [] mid).mp hmid).right] at hrest
  exact ⟨sc, hrest, hfinish⟩

theorem prefix_of_scan {read : List Token} (hread : forall t, t ∈ read -> t.Framed)
    {rest : List UInt8} {tokens : List Token}
    (h : scan (read.flatMap Token.text ++ rest) = some tokens) : read <+: tokens := by
  rcases exists_run_of_scan hread h with ⟨sc, hrun, hfinish⟩
  have hkept : read <+: sc.tokens := by
    apply invariant_of_run (P := fun _ sc => read <+: sc.tokens) ?_ ?_ hrun
    · exact List.prefix_rfl
    · intro _ mid c next _ hmid hstep
      exact hmid.trans (Scanner.step_tokens hstep)
  exact hkept.trans (Scanner.finish_tokens hfinish)

theorem scan_eq_none_of_inBetween {read : List Token} (hread : forall t, t ∈ read -> t.Framed)
    {c : UInt8} (hc : Scanner.inBetween { tokens := read } c = none) (rest : List UInt8) :
    scan (read.flatMap Token.text ++ c :: rest) = none := by
  cases hscan : scan (read.flatMap Token.text ++ c :: rest) with
  | none => rfl
  | some tokens =>
      rcases exists_run_of_scan hread hscan with ⟨sc, hrun, _⟩
      rcases (run_cons_eq_some_iff _ _).mp hrun with ⟨mid, hstep, _⟩
      rw [Scanner.step, hc] at hstep
      cases hstep

def Textual (tokens : List Token) : Prop :=
  forall t, t ∈ tokens -> (exists s, t = .symbol s) ∨ exists content, t = .string content

theorem weight_eq_length {tokens : List Token} (h : Textual tokens) :
    weight tokens = (tokens.flatMap Token.text).length := by
  induction tokens with
  | nil => rfl
  | cons token tokens ih =>
      have hrest : Textual tokens := by
        intro t ht
        exact h t (List.mem_cons_of_mem token ht)
      rw [weight_cons, ih hrest, List.flatMap_cons, List.length_append]
      rcases h token List.mem_cons_self with ⟨s, hs⟩ | ⟨content, hcontent⟩
      · simp [hs, Token.weight, Token.text]
      · simp [hcontent, Token.weight, Token.text]

theorem framed_of_literal {tokens : List Token} (htext : Textual tokens)
    (hliteral : Literal tokens) : forall t, t ∈ tokens -> t.Framed := by
  intro t ht
  rcases htext t ht with ⟨s, hs⟩ | ⟨content, hcontent⟩
  · rw [hs]
    trivial
  · rw [hcontent] at ht ⊢
    exact (hliteral content ht).unquoted

theorem scan_text_iff {tokens : List Token} (htext : Textual tokens) :
    scan (tokens.flatMap Token.text) = some tokens <-> Literal tokens := by
  constructor
  · intro h
    exact (scan_counts h).right (weight_eq_length htext)
  · intro h
    have hrun := (Scanner.run_tokens_eq_some_iff (framed_of_literal htext h) [] _).mpr ⟨h, rfl⟩
    rw [scan, hrun]
    rfl

end JsonSyntax
end Foundation
end CppCommons
