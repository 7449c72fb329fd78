import CppCommons.Foundation.JsonSyntax

/-!
# Writing JSON texts

A writer that puts the tokens of a value one after the other, strings with escapes
for quotes, backslashes and control bytes.  The scanner reads every value back
from its text: a string ends at its closing quote whatever its content is, and a
number at the symbol behind it.
-/

namespace CppCommons
namespace Foundation
namespace JsonSyntax

open Ascii LabelledRun

/-!
## Strings

An escaped byte is read back as itself, so a string ends at its closing quote
whatever its content is.
-/

def escaped (c : UInt8) : List UInt8 :=
  if c = 8 then [backslash, 98]
  else if c = 9 then [backslash, 116]
  else if c = 10 then [backslash, 110]
  else if c = 12 then [backslash, 102]
  else if c = 13 then [backslash, 114]
  else if c = quote then [backslash, quote]
  else if c = backslash then [backslash, backslash]
  else if c < 32 then
    [backslash, 117, 48, 48, hexDigit (c.toNat / 16), hexDigit (c.toNat % 16)]
  else [c]

def Token.written : Token -> List UInt8
  | .string content => quote :: (content.flatMap escaped ++ [quote])
  | token => token.text

@[simp] theorem Token.written_symbol (s : Symbol) : (Token.symbol s).written = [s.byte] := rfl

@[simp] theorem Token.written_number (literal : List UInt8) :
    (Token.number literal).written = literal := rfl

/-- The text of a value without white space. -/
def written (v : Value) : List UInt8 :=
  v.tokens.flatMap Token.written

namespace Scanner

theorem run_control {c : UInt8} (hc : c < 32) (tokens : List Token) (content : List UInt8) :
    run step { tokens := tokens, mode := .string content } (escaped c) =
      some { tokens := tokens, mode := .string (content ++ [c]) } := by
  have hbound : c.toNat < 32 := UInt8.lt_iff_toNat_lt.mp hc
  have hofNat : c = UInt8.ofNat c.toNat := (UInt8.ofNat_toNat).symm
  rw [hofNat]
  generalize c.toNat = n at hbound
  interval_cases n <;> rfl

theorem run_escaped (c : UInt8) (tokens : List Token) (content : List UInt8) :
    run step { tokens := tokens, mode := .string content } (escaped c) =
      some { tokens := tokens, mode := .string (content ++ [c]) } := by
  by_cases hcontrol : c < 32
  · exact run_control hcontrol tokens content
  · by_cases hquote : c = quote
    · rw [hquote]
      rfl
    · by_cases hbackslash : c = backslash
      · rw [hbackslash]
        rfl
      · have hescaped : escaped c = [c] := by
          grind [escaped]
        rw [hescaped, run_singleton]
        simp only [step, inString, if_neg hquote, if_neg hbackslash, if_neg hcontrol]
        rfl

theorem run_content (s : List UInt8) (tokens : List Token) (content : List UInt8) :
    run step { tokens := tokens, mode := .string content } (s.flatMap escaped) =
      some { tokens := tokens, mode := .string (content ++ s) } := by
  induction s generalizing content with
  | nil => rw [List.flatMap_nil, run_nil, List.append_nil]
  | cons c s ih =>
      rw [List.flatMap_cons, run_append_eq_some_iff]
      refine ⟨_, run_escaped c tokens content, ?_⟩
      rw [ih, List.append_assoc]
      rfl

theorem run_string (content : List UInt8) (tokens : List Token) :
    run step { tokens := tokens } (Token.string content).written =
      some { tokens := tokens ++ [.string content] } := by
  have hopen : step { tokens := tokens } quote =
      some { tokens := tokens, mode := .string [] } := rfl
  rw [Token.written, run_cons_of_step hopen, run_concat_eq_some_iff]
  exact ⟨_, run_content content tokens [], rfl⟩

theorem run_symbol_cons (s : Symbol) (tokens : List Token) (rest : List UInt8) :
    run step { tokens := tokens } (s.byte :: rest) =
      run step { tokens := tokens ++ [.symbol s] } rest :=
  run_cons_of_step (step_symbol tokens s) rest

theorem run_name (name : List UInt8) (tokens : List Token) (rest : List UInt8) :
    run step { tokens := tokens }
        ((Token.string name).written ++ Symbol.nameSeparator.byte :: rest) =
      run step { tokens := tokens ++ [.string name, .symbol .nameSeparator] } rest := by
  rw [run_append_of_run (run_string name tokens), run_symbol_cons, List.append_assoc]
  rfl

theorem run_word (w : Word) (tokens : List Token) :
    run step { tokens := tokens } (Token.word w).written =
      some { tokens := tokens ++ [.word w] } := by
  cases w <;> rfl

end Scanner

/-!
## Numbers

A number is over at the first byte that does not continue it.  Behind the tokens
that have been read, one may therefore still be open.
-/

def numberPart : List UInt8 -> Option NumberPart
  | [] => none
  | c :: literal => (NumberPart.first c).bind (fun part => literal.foldlM (fun p d => p.next d) part)

def IsNumber (literal : List UInt8) : Prop :=
  exists part, numberPart literal = some part ∧ part.complete = true

theorem numberPart_concat {literal : List UInt8} (h : literal ≠ []) (c : UInt8) :
    numberPart (literal ++ [c]) = (numberPart literal).bind (NumberPart.next c) := by
  cases literal with
  | nil => exact absurd rfl h
  | cons d literal =>
      simp only [List.cons_append, numberPart, List.foldlM_append, List.foldlM_cons,
        List.foldlM_nil, Option.bind_eq_bind, Option.pure_def, Option.bind_fun_some,
        Option.bind_assoc]

namespace Scanner

theorem step_first {c : UInt8} {part : NumberPart} (h : NumberPart.first c = some part)
    (tokens : List Token) :
    step { tokens := tokens } c = some { tokens := tokens, mode := .number [c] part } := by
  have hdigit : c = 45 ∨ isDigit c = true := by
    grind [NumberPart.first, isDigit]
  have hsymbol : symbolOf c = none := by
    rcases hdigit with rfl | hdigit
    · rfl
    · grind [symbolOf, isDigit]
  have hbetween : inBetween { tokens := tokens } c =
      (NumberPart.first c).map (fun part => enter { tokens := tokens } (.number [c] part)) := by
    grind [inBetween, isWhiteSpace, isDigit, quote]
  rw [step, hbetween, h]
  rfl

theorem run_number {literal : List UInt8} {part : NumberPart} (h : numberPart literal = some part)
    (tokens : List Token) :
    run step { tokens := tokens } literal =
      some { tokens := tokens, mode := .number literal part } := by
  induction literal using List.reverseRecOn generalizing part with
  | nil => cases h
  | append_singleton literal c ih =>
      rw [run_concat_eq_some_iff]
      by_cases hempty : literal = []
      · rw [hempty] at h ⊢
        have hfirst : NumberPart.first c = some part := by
          simpa [numberPart] using h
        exact ⟨_, rfl, step_first hfirst tokens⟩
      · rw [numberPart_concat hempty, Option.bind_eq_some_iff] at h
        rcases h with ⟨before, hbefore, hnext⟩
        refine ⟨_, ih hbefore, ?_⟩
        simp only [step, inNumber, hnext]
        rfl

def Read (sc : Scanner) (tokens : List Token) : Prop :=
  sc = { tokens := tokens } ∨
    exists front literal part, tokens = front ++ [.number literal] ∧
      part.complete = true ∧ sc = { tokens := front, mode := .number literal part }

theorem Read.finish {sc : Scanner} {tokens : List Token} (h : sc.Read tokens) :
    sc.finish = some tokens := by
  rcases h with h | ⟨front, literal, part, htokens, hcomplete, h⟩
  · rw [h]
    rfl
  · rw [h, htokens]
    simp [Scanner.finish, hcomplete]

def Closing (s : Symbol) : Prop :=
  s = .endArray ∨ s = .endObject ∨ s = .valueSeparator

theorem Read.step {sc : Scanner} {tokens : List Token} (h : sc.Read tokens) {s : Symbol}
    (hs : Closing s) : sc.step s.byte = some { tokens := tokens ++ [.symbol s] } := by
  rcases h with h | ⟨front, literal, part, htokens, hcomplete, h⟩
  · rw [h]
    exact step_symbol tokens s
  · have hnext : part.next s.byte = none := by
      rcases hs with rfl | rfl | rfl <;> cases part <;> rfl
    rw [h, htokens]
    simp only [Scanner.step, inNumber, hnext, hcomplete, if_true]
    exact step_symbol _ s

end Scanner

/-!
## Values

By induction over the value, the scanner reads its tokens from whatever tokens were
read before.
-/

def NumbersValid (tokens : List Token) : Prop :=
  forall literal, Token.number literal ∈ tokens -> IsNumber literal

theorem NumbersValid.of_subset {tokens tokens' : List Token} (h : NumbersValid tokens)
    (hsubset : tokens' ⊆ tokens) : NumbersValid tokens' :=
  fun literal hliteral => h literal (hsubset hliteral)

mutual

theorem run_written : (v : Value) -> NumbersValid v.tokens -> (tokens : List Token) ->
    exists sc, run Scanner.step { tokens := tokens } (v.tokens.flatMap Token.written) = some sc ∧
      sc.Read (tokens ++ v.tokens)
  | .word w, _, tokens => by
      refine ⟨_, ?_, .inl rfl⟩
      simpa [Value.tokens] using Scanner.run_word w tokens
  | .number literal, h, tokens => by
      rcases h literal (by simp [Value.tokens]) with ⟨part, hpart, hcomplete⟩
      refine ⟨_, ?_, .inr ⟨tokens, literal, part, rfl, hcomplete, rfl⟩⟩
      simpa [Value.tokens] using Scanner.run_number hpart tokens
  | .string content, _, tokens => by
      refine ⟨_, ?_, .inl rfl⟩
      simpa [Value.tokens] using Scanner.run_string content tokens
  | .array [], _, tokens => by
      refine ⟨_, ?_, .inl rfl⟩
      simp [Value.tokens, Scanner.run_symbol_cons]
  | .array (item :: items), h, tokens => by
      rw [Value.tokens] at h
      rcases run_written item (h.of_subset (fun t ht => by simp [ht]))
        (tokens ++ [.symbol .beginArray]) with ⟨sc, hitem, hread⟩
      refine ⟨_, ?_, .inl rfl⟩
      have hitems := run_moreItems items (h.of_subset (fun t ht => by simp [ht])) sc _ hread
      rw [Value.tokens, List.flatMap_cons, Token.written_symbol, List.singleton_append,
        Scanner.run_symbol_cons, List.flatMap_append, run_append_of_run hitem, hitems]
      simp
  | .object [], _, tokens => by
      refine ⟨_, ?_, .inl rfl⟩
      simp [Value.tokens, Scanner.run_symbol_cons]
  | .object ((name, value) :: members), h, tokens => by
      rw [Value.tokens] at h
      rcases run_written value (h.of_subset (fun t ht => by simp [ht]))
        (tokens ++ [.symbol .beginObject] ++ [.string name, .symbol .nameSeparator]) with
        ⟨sc, hvalue, hread⟩
      refine ⟨_, ?_, .inl rfl⟩
      have hmembers := run_moreMembers members (h.of_subset (fun t ht => by simp [ht])) sc _ hread
      rw [Value.tokens, List.flatMap_cons, List.flatMap_cons, List.flatMap_cons,
        Token.written_symbol, Token.written_symbol, List.singleton_append, List.singleton_append,
        Scanner.run_symbol_cons, Scanner.run_name, List.flatMap_append, run_append_of_run hvalue,
        hmembers]
      simp

theorem run_moreItems : (items : List Value) -> NumbersValid (moreItems items) ->
    (sc : Scanner) -> (tokens : List Token) -> sc.Read tokens ->
      run Scanner.step sc ((moreItems items).flatMap Token.written) =
        some { tokens := tokens ++ moreItems items }
  | [], _, sc, tokens, hread => by
      rw [moreItems, List.flatMap_singleton, Token.written_symbol, run_singleton]
      exact hread.step (.inl rfl)
  | item :: items, h, sc, tokens, hread => by
      rw [moreItems] at h
      rcases run_written item (h.of_subset (fun t ht => by simp [ht]))
        (tokens ++ [.symbol .valueSeparator]) with ⟨sc', hitem, hread'⟩
      have hitems := run_moreItems items (h.of_subset (fun t ht => by simp [ht])) sc' _ hread'
      rw [moreItems, List.flatMap_cons, Token.written_symbol, List.singleton_append,
        run_cons_of_step (hread.step (.inr (.inr rfl))), List.flatMap_append,
        run_append_of_run hitem, hitems]
      simp

theorem run_moreMembers : (members : List (List UInt8 × Value)) ->
    NumbersValid (moreMembers members) -> (sc : Scanner) -> (tokens : List Token) ->
      sc.Read tokens ->
      run Scanner.step sc ((moreMembers members).flatMap Token.written) =
        some { tokens := tokens ++ moreMembers members }
  | [], _, sc, tokens, hread => by
      rw [moreMembers, List.flatMap_singleton, Token.written_symbol, run_singleton]
      exact hread.step (.inr (.inl rfl))
  | (name, value) :: members, h, sc, tokens, hread => by
      rw [moreMembers] at h
      rcases run_written value (h.of_subset (fun t ht => by simp [ht]))
        (tokens ++ [.symbol .valueSeparator] ++ [.string name, .symbol .nameSeparator]) with
        ⟨sc', hvalue, hread'⟩
      have hmembers := run_moreMembers members (h.of_subset (fun t ht => by simp [ht])) sc' _ hread'
      rw [moreMembers, List.flatMap_cons, List.flatMap_cons, List.flatMap_cons,
        Token.written_symbol, Token.written_symbol, List.singleton_append, List.singleton_append,
        run_cons_of_step (hread.step (.inr (.inr rfl))), Scanner.run_name, List.flatMap_append,
        run_append_of_run hvalue, hmembers]
      simp

end

theorem denotes_written {v : Value} (hnumbers : NumbersValid v.tokens)
    (hstrings : forall s, Token.string s ∈ v.tokens -> Utf8 s) : Denotes (written v) v := by
  refine ⟨?_, hstrings⟩
  rcases run_written v hnumbers [] with ⟨sc, hrun, hread⟩
  rw [scan, written, hrun]
  exact hread.finish

end JsonSyntax
end Foundation
end CppCommons
