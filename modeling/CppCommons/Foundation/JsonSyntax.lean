import CppCommons.Foundation.JsonScanner

/-!
# JSON values and their texts

A text denotes a value when its tokens are those of the value and every string
in it is UTF-8.  The grammar has no ambiguity, so a text denotes at most one
value.
-/

namespace CppCommons
namespace Foundation
namespace JsonSyntax

open Ascii

/-- Numbers are kept as they are written, members in their order. -/
inductive Value where
  | word (w : Word)
  | number (literal : List UInt8)
  | string (content : List UInt8)
  | array (items : List Value)
  | object (members : List (List UInt8 × Value))

mutual

/-- The production of the grammar that the value stands for. -/
def Value.tokens : Value -> List Token
  | .word w => [.word w]
  | .number literal => [.number literal]
  | .string content => [.string content]
  | .array [] => [.symbol .beginArray, .symbol .endArray]
  | .array (item :: items) => .symbol .beginArray :: (item.tokens ++ moreItems items)
  | .object [] => [.symbol .beginObject, .symbol .endObject]
  | .object ((name, value) :: members) =>
      .symbol .beginObject :: .string name :: .symbol .nameSeparator ::
        (value.tokens ++ moreMembers members)

def moreItems : List Value -> List Token
  | [] => [.symbol .endArray]
  | item :: items => .symbol .valueSeparator :: (item.tokens ++ moreItems items)

def moreMembers : List (List UInt8 × Value) -> List Token
  | [] => [.symbol .endObject]
  | (name, value) :: members =>
      .symbol .valueSeparator :: .string name :: .symbol .nameSeparator ::
        (value.tokens ++ moreMembers members)

end

/-- The UTF-8 encoding of some characters. -/
def Utf8 (s : List UInt8) : Prop :=
  exists chars : List Char, s = chars.flatMap String.utf8EncodeChar

def Plain (s : List UInt8) : Prop :=
  Utf8 s ∧ Unescaped s

def Denotes (text : List UInt8) (v : Value) : Prop :=
  scan text = some v.tokens ∧ forall s, Token.string s ∈ v.tokens -> Utf8 s

def WellFormed (text : List UInt8) : Prop :=
  exists v, Denotes text v

def compact (v : Value) : List UInt8 :=
  v.tokens.flatMap Token.text

@[simp] theorem compact_string (s : List UInt8) :
    compact (.string s) = quote :: s ++ [quote] := by
  simp [compact, Value.tokens, Token.text]

@[simp] theorem compact_object_nil : compact (.object []) = [123, 125] := by
  simp [compact, Value.tokens, Token.text, Symbol.byte]

@[simp] theorem compact_object_cons (name : List UInt8) (value : Value)
    (members : List (List UInt8 × Value)) :
    compact (.object ((name, value) :: members)) =
      123 :: (compact (.string name) ++
        58 :: (compact value ++ (moreMembers members).flatMap Token.text)) := by
  simp [compact, Value.tokens, Token.text, Symbol.byte]

@[simp] theorem text_moreMembers_nil : (moreMembers []).flatMap Token.text = [125] := by
  simp [moreMembers, Token.text, Symbol.byte]

@[simp] theorem text_moreMembers_cons (name : List UInt8) (value : Value)
    (members : List (List UInt8 × Value)) :
    (moreMembers ((name, value) :: members)).flatMap Token.text =
      44 :: (compact (.string name) ++
        58 :: (compact value ++ (moreMembers members).flatMap Token.text)) := by
  simp [moreMembers, compact, Value.tokens, Token.text, Symbol.byte]

/-!
## Unambiguity

The tokens of a value end where the value ends, so two values whose tokens begin
alike are equal.
-/

theorem tokens_ne_endArray (v : Value) (rest rest' : List Token) :
    v.tokens ++ rest ≠ .symbol .endArray :: rest' := by
  rcases v with a | a | a | (_ | ⟨a, items⟩) | (_ | ⟨a, members⟩) <;> simp [Value.tokens]

mutual

theorem tokens_append_injective : (v w : Value) -> (rest rest' : List Token) ->
    v.tokens ++ rest = w.tokens ++ rest' -> v = w ∧ rest = rest'
  | .word a, w, rest, rest', h => by
      rcases w with b | b | b | (_ | b) | (_ | b) <;> simp_all [Value.tokens]
  | .number a, w, rest, rest', h => by
      rcases w with b | b | b | (_ | b) | (_ | b) <;> simp_all [Value.tokens]
  | .string a, w, rest, rest', h => by
      rcases w with b | b | b | (_ | b) | (_ | b) <;> simp_all [Value.tokens]
  | .array [], w, rest, rest', h => by
      rcases w with b | b | b | (_ | ⟨b, items⟩) | (_ | b)
      case array.cons =>
        simp only [Value.tokens, List.cons_append, List.append_assoc, List.cons.injEq,
          true_and] at h
        exact absurd h.symm (tokens_ne_endArray b _ _)
      all_goals simp_all [Value.tokens]
  | .array (item :: items), w, rest, rest', h => by
      rcases w with b | b | b | (_ | ⟨item', items'⟩) | (_ | b)
      case array.nil =>
        simp only [Value.tokens, List.cons_append, List.append_assoc, List.cons.injEq,
          true_and] at h
        exact absurd h (tokens_ne_endArray item _ _)
      case array.cons =>
        simp only [Value.tokens, List.cons_append, List.append_assoc, List.cons.injEq,
          true_and] at h
        rcases tokens_append_injective item item' _ _ h with ⟨hitem, hmore⟩
        rcases moreItems_append_injective items items' _ _ hmore with ⟨hitems, hrest⟩
        exact ⟨by rw [hitem, hitems], hrest⟩
      all_goals simp [Value.tokens] at h
  | .object [], w, rest, rest', h => by
      rcases w with b | b | b | (_ | b) | (_ | b) <;> simp_all [Value.tokens]
  | .object ((name, value) :: members), w, rest, rest', h => by
      rcases w with b | b | b | (_ | b) | (_ | ⟨⟨name', value'⟩, members'⟩)
      case object.cons =>
        simp only [Value.tokens, List.cons_append, List.append_assoc, List.cons.injEq,
          Token.string.injEq, true_and] at h
        rcases tokens_append_injective value value' _ _ h.right with ⟨hvalue, hmore⟩
        rcases moreMembers_append_injective members members' _ _ hmore with ⟨hmembers, hrest⟩
        exact ⟨by rw [h.left, hvalue, hmembers], hrest⟩
      all_goals simp [Value.tokens] at h

theorem moreItems_append_injective : (items items' : List Value) -> (rest rest' : List Token) ->
    moreItems items ++ rest = moreItems items' ++ rest' -> items = items' ∧ rest = rest'
  | [], items', rest, rest', h => by
      cases items' <;> simp_all [moreItems]
  | item :: items, [], rest, rest', h => by
      simp [moreItems] at h
  | item :: items, item' :: items', rest, rest', h => by
      simp only [moreItems, List.cons_append, List.append_assoc, List.cons.injEq, true_and] at h
      rcases tokens_append_injective item item' _ _ h with ⟨hitem, hmore⟩
      rcases moreItems_append_injective items items' _ _ hmore with ⟨hitems, hrest⟩
      exact ⟨by rw [hitem, hitems], hrest⟩

theorem moreMembers_append_injective : (members members' : List (List UInt8 × Value)) ->
    (rest rest' : List Token) -> moreMembers members ++ rest = moreMembers members' ++ rest' ->
    members = members' ∧ rest = rest'
  | [], members', rest, rest', h => by
      cases members' <;> simp_all [moreMembers]
  | (name, value) :: members, [], rest, rest', h => by
      simp [moreMembers] at h
  | (name, value) :: members, (name', value') :: members', rest, rest', h => by
      simp only [moreMembers, List.cons_append, List.append_assoc, List.cons.injEq,
        Token.string.injEq, true_and] at h
      rcases tokens_append_injective value value' _ _ h.right with ⟨hvalue, hmore⟩
      rcases moreMembers_append_injective members members' _ _ hmore with ⟨hmembers, hrest⟩
      exact ⟨by rw [h.left, hvalue, hmembers], hrest⟩

end

theorem Denotes.unique {text : List UInt8} {v w : Value} (hv : Denotes text v)
    (hw : Denotes text w) : v = w := by
  have htokens : v.tokens = w.tokens := Option.some.inj (hv.left.symm.trans hw.left)
  apply (tokens_append_injective v w [] [] ?_).left
  rw [htokens]

/-!
## Compact texts

A value whose strings are plain is denoted by its tokens written one after the
other.
-/

def PlainStrings (v : Value) : Prop :=
  forall s, Token.string s ∈ v.tokens -> Plain s

theorem denotes_compact_iff {v : Value} (htext : Textual v.tokens) :
    Denotes (compact v) v <-> PlainStrings v := by
  rw [Denotes, compact, scan_text_iff htext]
  constructor
  · intro h s hs
    exact ⟨h.right s hs, h.left s hs⟩
  · intro h
    constructor
    · intro s hs
      exact (h s hs).right
    · intro s hs
      exact (h s hs).left

theorem utf8_of_ascii {s : List UInt8} (h : forall c, c ∈ s -> c < 128) : Utf8 s := by
  induction s with
  | nil => exact ⟨[], rfl⟩
  | cons c s ih =>
      rcases ih (fun d hd => h d (List.mem_cons_of_mem c hd)) with ⟨chars, hchars⟩
      have hc : c.toNat < 128 := by
        simpa [UInt8.lt_iff_toNat_lt] using h c List.mem_cons_self
      have hval : (Char.ofNat c.toNat).val.toNat = c.toNat := by
        have hvalid : c.toNat.isValidChar := Or.inl (by lia)
        rw [Char.ofNat, dif_pos hvalid]
        rfl
      refine ⟨Char.ofNat c.toNat :: chars, ?_⟩
      rw [List.flatMap_cons, ← hchars, String.utf8EncodeChar]
      simp only [hval]
      rw [if_pos (by lia)]
      simp

def isPlainAscii (s : List UInt8) : Bool :=
  s.all (fun c => 32 ≤ c && c < 128 && c != quote && c != backslash)

theorem plain_of_isPlainAscii {s : List UInt8} (h : isPlainAscii s = true) : Plain s := by
  have hbytes : forall c, c ∈ s -> 32 ≤ c ∧ c < 128 ∧ c ≠ quote ∧ c ≠ backslash := by
    intro c hc
    simpa [and_assoc] using List.all_eq_true.mp h c hc
  constructor
  · exact utf8_of_ascii (fun c hc => (hbytes c hc).right.left)
  · intro c hc
    exact ⟨(hbytes c hc).left, (hbytes c hc).right.right⟩

/-!
## Objects

The strings and tokens of an object, from those of its members.
-/

theorem string_mem_moreMembers_iff {s : List UInt8} (members : List (List UInt8 × Value)) :
    Token.string s ∈ moreMembers members <->
      exists m, m ∈ members ∧ (s = m.fst ∨ Token.string s ∈ m.snd.tokens) := by
  induction members with
  | nil => simp [moreMembers]
  | cons m members ih => simp [moreMembers, ih, or_assoc]

theorem string_mem_object_iff {s : List UInt8} (members : List (List UInt8 × Value)) :
    Token.string s ∈ (Value.object members).tokens <->
      exists m, m ∈ members ∧ (s = m.fst ∨ Token.string s ∈ m.snd.tokens) := by
  cases members with
  | nil => simp [Value.tokens]
  | cons m members => simp [Value.tokens, string_mem_moreMembers_iff, or_assoc]

theorem plainStrings_object_iff (members : List (List UInt8 × Value)) :
    PlainStrings (.object members) <->
      forall m, m ∈ members -> Plain m.fst ∧ PlainStrings m.snd := by
  unfold PlainStrings
  simp only [string_mem_object_iff]
  constructor
  · intro h m hm
    constructor
    · exact h m.fst ⟨m, hm, Or.inl rfl⟩
    · intro s hs
      exact h s ⟨m, hm, Or.inr hs⟩
  · intro h s hs
    rcases hs with ⟨m, hm, rfl | hs⟩
    · exact (h m hm).left
    · exact (h m hm).right s hs

@[simp] theorem plainStrings_string_iff (s : List UInt8) :
    PlainStrings (.string s) <-> Plain s := by
  simp [PlainStrings, Value.tokens]

theorem textual_string (s : List UInt8) : Textual (Value.string s).tokens := by
  simp [Textual, Value.tokens]

theorem textual_moreMembers {members : List (List UInt8 × Value)}
    (h : forall m, m ∈ members -> Textual m.snd.tokens) : Textual (moreMembers members) := by
  induction members with
  | nil => simp [Textual, moreMembers]
  | cons m members ih =>
      have hfirst := h m List.mem_cons_self
      have hrest := ih (fun m' hm' => h m' (List.mem_cons_of_mem m hm'))
      intro t ht
      simp only [moreMembers, List.mem_cons, List.mem_append] at ht
      rcases ht with rfl | rfl | rfl | ht | ht
      · simp
      · simp
      · simp
      · exact hfirst t ht
      · exact hrest t ht

theorem mem_moreMembers_of_mem_object {t : Token} {m : List UInt8 × Value}
    {members : List (List UInt8 × Value)} (h : t ∈ (Value.object (m :: members)).tokens) :
    t = .symbol .beginObject ∨ t ∈ moreMembers (m :: members) := by
  simp only [Value.tokens, moreMembers, List.mem_cons, List.mem_append] at h ⊢
  tauto

theorem textual_object {members : List (List UInt8 × Value)}
    (h : forall m, m ∈ members -> Textual m.snd.tokens) :
    Textual (Value.object members).tokens := by
  cases members with
  | nil => simp [Textual, Value.tokens]
  | cons m members =>
      intro t ht
      rcases mem_moreMembers_of_mem_object ht with rfl | hmore
      · simp
      · exact textual_moreMembers h t hmore

theorem object_of_first_tokens {v : Value} {name content : List UInt8}
    (h : [.symbol .beginObject, .string name, .symbol .nameSeparator, .string content] <+:
      v.tokens) :
    exists members, v = .object ((name, .string content) :: members) := by
  rcases h with ⟨rest, hrest⟩
  rcases v with a | a | a | (_ | ⟨a, items⟩) | (_ | ⟨⟨name', value⟩, members⟩)
  case object.cons =>
    simp only [Value.tokens, List.cons_append, List.nil_append, List.cons.injEq,
      Token.string.injEq, true_and] at hrest
    rcases hrest with ⟨hname, hvalue⟩
    have hstring := tokens_append_injective (.string content) value rest (moreMembers members)
      (by simpa [Value.tokens] using hvalue)
    exact ⟨members, by rw [hname, hstring.left]⟩
  all_goals simp [Value.tokens] at hrest

/-!
## Weights

The bytes that an object takes in every text do not depend on the order of its
members.
-/

def memberWeight (m : List UInt8 × Value) : Nat :=
  m.fst.length + 3 + weight m.snd.tokens

theorem weight_moreMembers (members : List (List UInt8 × Value)) :
    weight (moreMembers members) = (members.map (fun m => memberWeight m + 1)).sum + 1 := by
  induction members with
  | nil => rfl
  | cons m members ih =>
      simp only [moreMembers, weight_cons, weight_append, Token.weight, ih, List.map_cons,
        List.sum_cons, memberWeight]
      lia

theorem weight_object (members : List (List UInt8 × Value)) :
    weight (Value.object members).tokens =
      max 2 (1 + (members.map (fun m => memberWeight m + 1)).sum) := by
  cases members with
  | nil => rfl
  | cons m members =>
      simp only [Value.tokens, weight_cons, weight_append, Token.weight, weight_moreMembers,
        List.map_cons, List.sum_cons, memberWeight]
      lia

theorem weight_object_of_perm {members members' : List (List UInt8 × Value)}
    (h : members.Perm members') :
    weight (Value.object members).tokens = weight (Value.object members').tokens := by
  rw [weight_object, weight_object, (h.map _).sum_eq]

end JsonSyntax
end Foundation
end CppCommons
