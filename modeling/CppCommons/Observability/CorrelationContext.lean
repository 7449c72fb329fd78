import CppCommons.Kernel.Identity

/-!
# Correlation context

The ids that accompany a request, and the reader and the writer of the W3C
`traceparent` header.
-/

namespace CppCommons
namespace Observability

open Cxx
open Kernel

structure CorrelationContext where
  correlationId : Bytes := []
  tenantId : Bytes := []
  traceId : Bytes := []
  spanId : Bytes := []
  requestId : Bytes := []
  tracestate : Bytes := []
deriving DecidableEq

def isHexString (s : Bytes) (expectedLen : Nat) : Bool :=
  s.length == expectedLen && s.all isHexDigit

theorem isHexString_iff {s : Bytes} {expectedLen : Nat} :
    isHexString s expectedLen = true <->
      s.length = expectedLen ∧ forall c, c ∈ s -> isHexDigit c = true := by
  rw [isHexString, Bool.and_eq_true, beq_iff_eq, List.all_eq_true]

theorem ne_nil_of_isHexString {s : Bytes} {expectedLen : Nat} (hlen : 0 < expectedLen)
    (h : isHexString s expectedLen = true) : s ≠ [] := by
  intro hnil
  have hlength := (isHexString_iff.mp h).left
  rw [hnil, List.length_nil] at hlength
  lia

def formatTraceparent (traceId spanId : Bytes) : Bytes :=
  ascii "00-" ++ traceId ++ ascii "-" ++ spanId ++ ascii "-01"

namespace CorrelationContext

def generate (correlation trace request : UUID) : CorrelationContext where
  correlationId := correlation.toString
  traceId := trace.toStringNoDashes
  spanId := trace.toStringNoDashes.take 16
  requestId := request.toString

def empty (ctx : CorrelationContext) : Bool :=
  ctx.correlationId.isEmpty

/-- The parts of `tp` lie within it once its size has been checked. -/
def setTraceparent (ctx : CorrelationContext) (tp : Bytes) : CorrelationContext × Bool :=
  if tp.length < 55 then (ctx, false)
  else if tp[2]? ≠ some 45 ∨ tp[35]? ≠ some 45 ∨ tp[52]? ≠ some 45 then (ctx, false)
  else
    let version := tp.take 2
    let tid := (tp.drop 3).take 32
    let sid := (tp.drop 36).take 16
    if !isHexString version 2 then (ctx, false)
    else if !isHexString tid 32 then (ctx, false)
    else if !isHexString sid 16 then (ctx, false)
    else ({ ctx with traceId := tid, spanId := sid }, true)

def traceparent (ctx : CorrelationContext) : Bytes :=
  if ctx.traceId.isEmpty || ctx.spanId.isEmpty then []
  else formatTraceparent ctx.traceId ctx.spanId

theorem isHexString_generate_traceId (correlation trace request : UUID) :
    isHexString (generate correlation trace request).traceId 32 = true := by
  apply isHexString_iff.mpr
  constructor
  · exact trace.length_toStringNoDashes
  · intro c hc
    exact UUID.isHexDigit_of_mem_toStringNoDashes hc

theorem isHexString_generate_spanId (correlation trace request : UUID) :
    isHexString (generate correlation trace request).spanId 16 = true := by
  apply isHexString_iff.mpr
  constructor
  · simp [generate, trace.length_toStringNoDashes]
  · intro c hc
    simp only [generate] at hc
    exact UUID.isHexDigit_of_mem_toStringNoDashes (List.mem_of_mem_take hc)

/-!
## Reading what was written

The reader restores what the writer wrote exactly if both ids are hexadecimal of the
right length.
-/

/-- The reader accepts `tp` and takes exactly these ids from it. -/
def Restores (tp traceId spanId : Bytes) : Prop :=
  forall ctx : CorrelationContext,
    ctx.setTraceparent tp = ({ ctx with traceId := traceId, spanId := spanId }, true)

theorem formatTraceparent_eq (traceId spanId : Bytes) :
    formatTraceparent traceId spanId =
      48 :: 48 :: 45 :: (traceId ++ 45 :: (spanId ++ [45, 48, 49])) := by
  have hversion : ascii "00-" = [48, 48, 45] := by decide
  have hdash : ascii "-" = [45] := by decide
  have hflags : ascii "-01" = [45, 48, 49] := by decide
  simp [formatTraceparent, hversion, hdash, hflags]

/-- Two hexadecimal ids between their dashes are taken, whatever two or more
characters follow. -/
theorem setTraceparent_of_parts (ctx : CorrelationContext) {version traceId spanId flags : Bytes}
    (hversion : isHexString version 2 = true) (htrace : isHexString traceId 32 = true)
    (hspan : isHexString spanId 16 = true) (hflags : 2 <= flags.length) :
    ctx.setTraceparent (version ++ 45 :: (traceId ++ 45 :: (spanId ++ 45 :: flags))) =
      ({ ctx with traceId := traceId, spanId := spanId }, true) := by
  have hversionLen := (isHexString_iff.mp hversion).left
  have htraceLen := (isHexString_iff.mp htrace).left
  have hspanLen := (isHexString_iff.mp hspan).left
  generalize htail : spanId ++ 45 :: flags = tail
  generalize hids : traceId ++ 45 :: tail = ids
  generalize htp : version ++ 45 :: ids = tp
  have hlength : ¬ tp.length < 55 := by
    rw [← htp, ← hids, ← htail]
    simp [hversionLen, htraceLen, hspanLen]
    lia
  have hfront : tp.take 2 = version := by
    rw [← htp]
    exact List.take_left' hversionLen
  have hbehind : tp.drop 3 = ids := by
    have hdrop := Bytes.drop_append_cons version 45 ids
    rw [hversionLen, htp] at hdrop
    exact hdrop
  have hrest : tp.drop 36 = tail := by
    have hdrop := Bytes.drop_append_cons traceId 45 tail
    rw [htraceLen, hids, ← hbehind, List.drop_drop] at hdrop
    exact hdrop
  have htid : (tp.drop 3).take 32 = traceId := by
    rw [hbehind, ← hids]
    exact List.take_left' htraceLen
  have hsid : (tp.drop 36).take 16 = spanId := by
    rw [hrest, ← htail]
    exact List.take_left' hspanLen
  have hfirst : tp[2]? = some 45 := by
    rw [← htp]
    simp [hversionLen]
  have hsecond : tp[35]? = some 45 := by
    have hshift : tp[35]? = (tp.drop 3)[32]? := by
      rw [List.getElem?_drop]
    rw [hshift, hbehind, ← hids]
    simp [htraceLen]
  have hthird : tp[52]? = some 45 := by
    have hshift : tp[52]? = (tp.drop 36)[16]? := by
      rw [List.getElem?_drop]
    rw [hshift, hrest, ← htail]
    simp [hspanLen]
  simp [setTraceparent, hlength, hfirst, hsecond, hthird, hfront, hversion, htid, hsid, htrace,
    hspan]

theorem restores_formatTraceparent {traceId spanId : Bytes}
    (htrace : isHexString traceId 32 = true) (hspan : isHexString spanId 16 = true) :
    Restores (formatTraceparent traceId spanId) traceId spanId := by
  intro ctx
  have hversion : isHexString [48, 48] 2 = true := by decide
  rw [formatTraceparent_eq]
  exact setTraceparent_of_parts ctx hversion htrace hspan (Nat.le_refl 2)

theorem isHexString_of_restores {tp traceId spanId : Bytes} (h : Restores tp traceId spanId) :
    isHexString traceId 32 = true ∧ isHexString spanId 16 = true := by
  have haccepted := h {}
  unfold setTraceparent at haccepted
  cases htid : isHexString ((tp.drop 3).take 32) 32 with
  | false => simp [htid] at haccepted
  | true =>
      cases hsid : isHexString ((tp.drop 36).take 16) 16 with
      | false => simp [htid, hsid] at haccepted
      | true =>
          simp only [htid, hsid] at haccepted
          split_ifs at haccepted
          all_goals simp at haccepted
          rw [← haccepted.left, ← haccepted.right]
          exact ⟨htid, hsid⟩

theorem restores_formatTraceparent_iff {traceId spanId : Bytes}
    (hspan : isHexString spanId 16 = true) :
    Restores (formatTraceparent traceId spanId) traceId spanId <->
      isHexString traceId 32 = true := by
  constructor
  · intro h
    exact (isHexString_of_restores h).left
  · intro htrace
    exact restores_formatTraceparent htrace hspan

theorem not_restores_nil (traceId spanId : Bytes) : ¬ Restores [] traceId spanId := by
  intro h
  have haccepted := h {}
  simp [setTraceparent] at haccepted

theorem restores_traceparent_iff {ctx : CorrelationContext}
    (hspan : isHexString ctx.spanId 16 = true) :
    Restores ctx.traceparent ctx.traceId ctx.spanId <-> isHexString ctx.traceId 32 = true := by
  have hne : ctx.spanId ≠ [] := ne_nil_of_isHexString (by decide) hspan
  by_cases hnil : ctx.traceId = []
  · rw [traceparent, hnil, if_pos (by simp)]
    constructor
    · intro h
      exact absurd h (not_restores_nil [] ctx.spanId)
    · intro h
      cases h
  · rw [traceparent, if_neg (by simp [hnil, hne])]
    exact restores_formatTraceparent_iff hspan

/-!
## What the reader changes

Every failure comes before the first write, so a rejected text leaves the context as
it was.
-/

theorem drop_of_getElem?_eq_some {tp : Bytes} {k : Nat} {c : UInt8} (h : tp[k]? = some c) :
    tp.drop k = c :: tp.drop (k + 1) := by
  rcases List.getElem?_eq_some_iff.mp h with ⟨hk, hc⟩
  rw [List.drop_eq_getElem_cons hk, hc]

theorem drop_eq_take_append {tp : Bytes} {k n : Nat} {c : UInt8} (h : tp[k + n]? = some c) :
    tp.drop k = (tp.drop k).take n ++ c :: tp.drop (k + n + 1) := by
  have hdrop := drop_of_getElem?_eq_some h
  rw [← List.drop_drop] at hdrop
  rw [← hdrop, List.take_append_drop]

/-- Every failure comes before the first write.  A text that is accepted has its
dashes, its ids and at least two further characters, and the two ids are written. -/
theorem setTraceparent_cases (ctx : CorrelationContext) (tp : Bytes) :
    ctx.setTraceparent tp = (ctx, false) ∨
      exists traceId spanId flags, isHexString traceId 32 = true ∧
        isHexString spanId 16 = true ∧ 2 <= flags.length ∧
        tp = tp.take 2 ++ 45 :: (traceId ++ 45 :: (spanId ++ 45 :: flags)) ∧
        ctx.setTraceparent tp = ({ ctx with traceId := traceId, spanId := spanId }, true) := by
  by_cases hlength : tp.length < 55
  · exact Or.inl (by rw [setTraceparent, if_pos hlength])
  by_cases hdashes : tp[2]? ≠ some 45 ∨ tp[35]? ≠ some 45 ∨ tp[52]? ≠ some 45
  · exact Or.inl (by rw [setTraceparent, if_neg hlength, if_pos hdashes])
  rw [setTraceparent, if_neg hlength, if_neg hdashes]
  have htext : tp = tp.take 2 ++
      45 :: ((tp.drop 3).take 32 ++ 45 :: ((tp.drop 36).take 16 ++ 45 :: tp.drop 53)) := by
    simp only [ne_eq, not_or, not_not] at hdashes
    rw [← drop_eq_take_append hdashes.right.right, ← drop_eq_take_append hdashes.right.left]
    exact drop_eq_take_append (k := 0) hdashes.left
  have hflags : 2 <= (tp.drop 53).length := by
    rw [List.length_drop]
    lia
  simp only
  split_ifs with hversion htid hsid
  · exact Or.inl rfl
  · exact Or.inl rfl
  · exact Or.inl rfl
  · simp only [Bool.not_eq_true, Bool.not_eq_false'] at htid hsid
    exact Or.inr ⟨_, _, _, htid, hsid, hflags, htext, rfl⟩

theorem substr_ids {version traceId spanId : Bytes} (flags : Bytes) (hversion : version.length = 2)
    (htrace : isHexString traceId 32 = true) (hspan : isHexString spanId 16 = true) :
    Bytes.substr (version ++ 45 :: (traceId ++ 45 :: (spanId ++ 45 :: flags))) 2 50 =
      some (45 :: (traceId ++ 45 :: spanId)) := by
  have hmiddle := Bytes.substr_middle version (45 :: (traceId ++ 45 :: spanId)) (45 :: flags)
  have hlength : (45 :: (traceId ++ 45 :: spanId)).length = 50 := by
    simp [(isHexString_iff.mp htrace).left, (isHexString_iff.mp hspan).left]
  rw [hversion, hlength] at hmiddle
  simpa using hmiddle

theorem setTraceparent_unchanged (ctx : CorrelationContext) (tp : Bytes)
    (h : (ctx.setTraceparent tp).snd = false) : (ctx.setTraceparent tp).fst = ctx := by
  rcases setTraceparent_cases ctx tp with hfailed | ⟨_, _, _, _, _, _, _, hread⟩
  · rw [hfailed]
  · rw [hread] at h
    cases h

theorem traceparent_of_isHexString {ctx : CorrelationContext}
    (htrace : isHexString ctx.traceId 32 = true) (hspan : isHexString ctx.spanId 16 = true) :
    ctx.traceparent =
      ascii "00" ++ 45 :: (ctx.traceId ++ 45 :: ctx.spanId) ++ ascii "-01" := by
  have hversion : ascii "00" = [48, 48] := by decide
  have hflags : ascii "-01" = [45, 48, 49] := by decide
  have htraceNe : ctx.traceId ≠ [] := ne_nil_of_isHexString (by decide) htrace
  have hspanNe : ctx.spanId ≠ [] := ne_nil_of_isHexString (by decide) hspan
  rw [traceparent, if_neg (by simp [htraceNe, hspanNe]), formatTraceparent_eq, hversion, hflags]
  simp

/--
For every context: its header is read back with exactly its two ids, by any
context, if they are hexadecimal of the right length, as those of every generated
context are.  For every text: a failure changes nothing, and a success changes
the two ids only, so that the header is the text with version and flags replaced.
-/
theorem traceparent_roundTrip (source target : CorrelationContext)
    (correlation trace request : UUID) (tp : Bytes) :
    (isHexString source.traceId 32 = true -> isHexString source.spanId 16 = true ->
      target.setTraceparent source.traceparent =
        ({ target with traceId := source.traceId, spanId := source.spanId }, true)) ∧
    target.setTraceparent (generate correlation trace request).traceparent =
      ({ target with
          traceId := (generate correlation trace request).traceId
          spanId := (generate correlation trace request).spanId }, true) ∧
    ((target.setTraceparent tp).snd = false -> (target.setTraceparent tp).fst = target) ∧
    ((target.setTraceparent tp).snd = true ->
      exists traceId spanId middle, Bytes.substr tp 2 50 = some middle ∧
        (target.setTraceparent tp).fst = { target with traceId := traceId, spanId := spanId } ∧
        (target.setTraceparent tp).fst.traceparent = ascii "00" ++ middle ++ ascii "-01") := by
  refine ⟨?_, ?_, ?_, ?_⟩
  · intro htrace hspan
    exact (restores_traceparent_iff hspan).mpr htrace target
  · have htrace := isHexString_generate_traceId correlation trace request
    have hspan := isHexString_generate_spanId correlation trace request
    exact (restores_traceparent_iff hspan).mpr htrace target
  · exact setTraceparent_unchanged target tp
  · intro htrue
    rcases setTraceparent_cases target tp with
      hfailed | ⟨traceId, spanId, flags, htid, hsid, hflags, htext, hread⟩
    · rw [hfailed] at htrue
      cases htrue
    · have hversion : (tp.take 2).length = 2 := by
        have hlength := congrArg List.length htext
        simp only [List.length_append, List.length_cons] at hlength
        rw [List.length_take]
        rw [List.length_take] at hlength
        lia
      have hids := substr_ids flags hversion htid hsid
      rw [← htext] at hids
      rw [hread]
      exact ⟨traceId, spanId, _, hids, rfl, traceparent_of_isHexString htid hsid⟩

/-!
## Flags

The reader looks at the version, the three dashes and the two ids.  The two flag
characters are accepted whatever they are.
-/

/-- A header of version 00 with its ids, and the text behind the last dash. -/
def version00 (traceId spanId flags : Bytes) : Bytes :=
  ascii "00" ++ 45 :: (traceId ++ 45 :: (spanId ++ 45 :: flags))

/--
For every text of version 00: it is accepted only if it has its dashes, two
hexadecimal ids and at least two further characters; with exactly two it is
accepted whatever they are; and a text that is rejected leaves the context as it
was.
-/
theorem setTraceparent_version00 (ctx : CorrelationContext) (tail : Bytes) :
    ((ctx.setTraceparent (ascii "00" ++ tail)).snd = true ->
      exists traceId spanId flags, isHexString traceId 32 = true ∧
        isHexString spanId 16 = true ∧ 2 <= flags.length ∧
        ascii "00" ++ tail = version00 traceId spanId flags) ∧
    (forall traceId spanId flags, isHexString traceId 32 = true ->
      isHexString spanId 16 = true -> flags.length = 2 ->
      ascii "00" ++ tail = version00 traceId spanId flags ->
      ctx.setTraceparent (ascii "00" ++ tail) =
        ({ ctx with traceId := traceId, spanId := spanId }, true)) ∧
    ((ctx.setTraceparent (ascii "00" ++ tail)).snd = false ->
      (ctx.setTraceparent (ascii "00" ++ tail)).fst = ctx) := by
  refine ⟨?_, ?_, ?_⟩
  · intro haccepted
    rcases setTraceparent_cases ctx (ascii "00" ++ tail) with
      hfailed | ⟨traceId, spanId, flags, htrace, hspan, hflags, htext, _⟩
    · rw [hfailed] at haccepted
      cases haccepted
    · have hversion : (ascii "00" ++ tail).take 2 = ascii "00" := List.take_left' rfl
      rw [hversion] at htext
      exact ⟨traceId, spanId, flags, htrace, hspan, hflags, htext⟩
  · intro traceId spanId flags htrace hspan hflags htp
    have hversion : isHexString (ascii "00") 2 = true := by decide
    rw [htp]
    exact setTraceparent_of_parts ctx hversion htrace hspan (Nat.le_of_eq hflags.symm)
  · exact setTraceparent_unchanged ctx (ascii "00" ++ tail)

theorem oddFlags_accepted :
    (setTraceparent {} (ascii
      "00-0af7651916cd43dd8448eb211c80319c-b7ad6b7169203331-zz")).snd = true ∧
      (ascii "00-0af7651916cd43dd8448eb211c80319c-b7ad6b7169203331-zz").length = 55 ∧
      isHexString ((ascii
        "00-0af7651916cd43dd8448eb211c80319c-b7ad6b7169203331-zz").drop 53) 2 = false := by
  decide

end CorrelationContext
end Observability
end CppCommons
