import CppCommons.Foundation.JsonSyntax
import CppCommons.Observability.CorrelationContext

/-!
# JSON logger

`JsonLogger` builds its record by string formatting and hands it to spdlog, whose
pattern puts it between quotes again.  Of spdlog only this substitution is
modelled: `%v` is the logged text, and what it writes for the other items of the
pattern is given.
-/

namespace CppCommons
namespace Observability

open Cxx
open Foundation
open Foundation.Ascii
open Foundation.JsonSyntax

/-- What spdlog writes for the time, `%l` and `%n`. -/
structure PatternItems where
  timestamp : Bytes
  level : Bytes
  name : Bytes

namespace JsonLogger

/-- The pattern `\x7b"ts":"%Y-%m-%dT%H:%M:%S.%e","level":"%l","svc":"%n","msg":"%v"\x7d`. -/
def formatPattern (items : PatternItems) (text : Bytes) : Bytes :=
  ascii "\x7b\"ts\":\"" ++ items.timestamp ++ ascii "\",\"level\":\"" ++ items.level ++
    ascii "\",\"svc\":\"" ++ items.name ++ ascii "\",\"msg\":\"" ++ text ++ ascii "\"\x7d"

/-- `log(lvl, msg)` with the current correlation context. -/
def log (items : PatternItems) (ctx : CorrelationContext) (msg : Bytes) : Bytes :=
  if !ctx.empty then
    formatPattern items
      (ascii "\x7b\"msg\":\"" ++ msg ++ ascii "\",\"cid\":\"" ++ ctx.correlationId ++
        ascii "\",\"tid\":\"" ++ ctx.tenantId ++ ascii "\",\"rid\":\"" ++ ctx.requestId ++
        ascii "\"\x7d")
  else formatPattern items msg

def logFields (items : PatternItems) (ctx : CorrelationContext) (msg : Bytes)
    (fields : List (Bytes × Bytes)) : Bytes :=
  let entry := ascii "\x7b\"msg\":\"" ++ msg ++ ascii "\""
  let entry :=
    if !ctx.empty then
      entry ++ (ascii ",\"cid\":\"" ++ ctx.correlationId ++ ascii "\",\"tid\":\"" ++
        ctx.tenantId ++ ascii "\",\"rid\":\"" ++ ctx.requestId ++ ascii "\"")
    else entry
  let entry := fields.foldl
    (fun entry field =>
      entry ++ (ascii ",\"" ++ field.fst ++ ascii "\":\"" ++ field.snd ++ ascii "\"")) entry
  formatPattern items (entry ++ ascii "\x7d")

end JsonLogger

/-- The public member functions come with and without a list of fields. -/
inductive LogCall where
  | plain (msg : Bytes)
  | structured (msg : Bytes) (fields : List (Bytes × Bytes))

namespace LogCall

def line (items : PatternItems) (ctx : CorrelationContext) : LogCall -> Bytes
  | plain msg => JsonLogger.log items ctx msg
  | structured msg fields => JsonLogger.logFields items ctx msg fields

def message : LogCall -> Bytes
  | plain msg => msg
  | structured msg _ => msg

def fields : LogCall -> List (Bytes × Bytes)
  | plain _ => []
  | structured _ fields => fields

/-- No field list is passed and no context is current. -/
def Bare (ctx : CorrelationContext) : LogCall -> Prop
  | plain _ => ctx.empty = true
  | structured _ _ => False

end LogCall

/-!
## What a line should say

The record that a line is about: the items of the pattern, the message, the ids of
an active context and the fields.
-/

def headerMembers (items : PatternItems) : List (Bytes × Value) :=
  [(ascii "ts", .string items.timestamp), (ascii "level", .string items.level),
    (ascii "svc", .string items.name)]

def contextMembers (ctx : CorrelationContext) : List (Bytes × Value) :=
  if ctx.empty then []
  else
    [(ascii "cid", .string ctx.correlationId), (ascii "tid", .string ctx.tenantId),
      (ascii "rid", .string ctx.requestId)]

def record (items : PatternItems) (ctx : CorrelationContext) (call : LogCall) : Value :=
  .object (headerMembers items ++ (ascii "msg", .string call.message) :: contextMembers ctx ++
    call.fields.map (fun field => (field.fst, .string field.snd)))

/-- The line is JSON and decodes to the record. -/
def RightLine (items : PatternItems) (ctx : CorrelationContext) (call : LogCall) : Prop :=
  WellFormed (call.line items ctx) ∧
    forall v, Denotes (call.line items ctx) v -> v = record items ctx call

/-!
## Lines with a record inside

With a context or fields the logger writes a record of its own, whose first quote
ends the string that the pattern opened.
-/

/-- Neither a quote nor a backslash, as assumed of spdlog. -/
structure PatternItems.AllUnquoted (items : PatternItems) : Prop where
  timestamp : Unquoted items.timestamp
  level : Unquoted items.level
  name : Unquoted items.name

def openingTokens (items : PatternItems) : List Token :=
  [.symbol .beginObject, .string (ascii "ts"), .symbol .nameSeparator, .string items.timestamp,
    .symbol .valueSeparator, .string (ascii "level"), .symbol .nameSeparator, .string items.level,
    .symbol .valueSeparator, .string (ascii "svc"), .symbol .nameSeparator, .string items.name,
    .symbol .valueSeparator, .string (ascii "msg"), .symbol .nameSeparator,
    .string (ascii "\x7b")]

theorem framed_openingTokens {items : PatternItems} (h : items.AllUnquoted) :
    forall t, t ∈ openingTokens items -> t.Framed := by
  simp [openingTokens, Token.Framed, h.timestamp, h.level, h.name]
  decide

theorem not_wellFormed_of_record {items : PatternItems} (h : items.AllUnquoted) (rest : Bytes) :
    ¬ WellFormed (JsonLogger.formatPattern items (ascii "\x7b\"msg\":\"" ++ rest)) := by
  have hsplit : JsonLogger.formatPattern items (ascii "\x7b\"msg\":\"" ++ rest) =
      (openingTokens items).flatMap Token.text ++
        109 :: (ascii "sg\":\"" ++ rest ++ ascii "\"\x7d") := by
    simp [JsonLogger.formatPattern, openingTokens, Token.text, Symbol.byte, quote, ascii]
  intro hwell
  rcases hwell with ⟨v, hscan, _⟩
  rw [hsplit, scan_eq_none_of_inBetween (framed_openingTokens h) rfl] at hscan
  cases hscan

theorem line_of_not_bare (items : PatternItems) {ctx : CorrelationContext} {call : LogCall}
    (h : ¬ call.Bare ctx) :
    exists rest, call.line items ctx =
      JsonLogger.formatPattern items (ascii "\x7b\"msg\":\"" ++ rest) := by
  cases call with
  | plain msg =>
      simp only [LogCall.Bare, Bool.not_eq_true] at h
      simp only [LogCall.line, JsonLogger.log, h, Bool.not_false, if_true, List.append_assoc]
      exact ⟨_, rfl⟩
  | structured msg fields =>
      simp only [LogCall.line, JsonLogger.logFields, List.foldl_append_eq_append]
      cases hempty : ctx.empty with
      | true =>
          simp only [Bool.not_true, Bool.false_eq_true, if_false, List.append_assoc]
          exact ⟨_, rfl⟩
      | false =>
          simp only [Bool.not_false, if_true, List.append_assoc]
          exact ⟨_, rfl⟩

/-!
## Lines without one

Without them the message itself is put between quotes, which is right exactly if
nothing in it needs an escape.
-/

theorem record_of_bare (items : PatternItems) {ctx : CorrelationContext} {call : LogCall}
    (h : call.Bare ctx) :
    record items ctx call =
      .object (headerMembers items ++ [(ascii "msg", .string call.message)]) := by
  cases call with
  | structured msg fields => exact h.elim
  | plain msg =>
      simp only [LogCall.Bare] at h
      simp [record, contextMembers, h, LogCall.fields]

theorem line_of_bare (items : PatternItems) {ctx : CorrelationContext} {call : LogCall}
    (h : call.Bare ctx) : call.line items ctx = compact (record items ctx call) := by
  rw [record_of_bare items h]
  cases call with
  | structured msg fields => exact h.elim
  | plain msg =>
      simp only [LogCall.Bare] at h
      simp [LogCall.line, JsonLogger.log, h, LogCall.message, headerMembers,
        JsonLogger.formatPattern, quote, ascii]

theorem textual_record (items : PatternItems) {ctx : CorrelationContext} {call : LogCall}
    (h : call.Bare ctx) : Textual (record items ctx call).tokens := by
  rw [record_of_bare items h]
  apply textual_object
  simp [headerMembers, textual_string]

/-- Everything that the pattern is filled with can stand between quotes. -/
structure PlainLine (items : PatternItems) (call : LogCall) : Prop where
  timestamp : Plain items.timestamp
  level : Plain items.level
  name : Plain items.name
  message : Plain call.message

theorem plainStrings_record_iff (items : PatternItems) {ctx : CorrelationContext} {call : LogCall}
    (h : call.Bare ctx) : PlainStrings (record items ctx call) <-> PlainLine items call := by
  have hts : Plain (ascii "ts") := plain_of_isPlainAscii (by decide)
  have hlevel : Plain (ascii "level") := plain_of_isPlainAscii (by decide)
  have hsvc : Plain (ascii "svc") := plain_of_isPlainAscii (by decide)
  have hmsg : Plain (ascii "msg") := plain_of_isPlainAscii (by decide)
  rw [record_of_bare items h, plainStrings_object_iff]
  constructor
  · intro hplain
    simp only [headerMembers, List.cons_append, List.nil_append, List.forall_mem_cons] at hplain
    rcases hplain with ⟨ht, hl, hn, hm, _⟩
    exact ⟨(plainStrings_string_iff _).mp ht.right, (plainStrings_string_iff _).mp hl.right,
      (plainStrings_string_iff _).mp hn.right, (plainStrings_string_iff _).mp hm.right⟩
  · intro hplain
    simp [headerMembers, hts, hlevel, hsvc, hmsg, hplain.timestamp, hplain.level, hplain.name,
      hplain.message]

theorem rightLine_of_bare_iff (items : PatternItems) {ctx : CorrelationContext} {call : LogCall}
    (h : call.Bare ctx) : RightLine items ctx call <-> PlainLine items call := by
  rw [← plainStrings_record_iff items h, ← denotes_compact_iff (textual_record items h),
    RightLine, line_of_bare items h]
  constructor
  · intro hright
    rcases hright.left with ⟨v, hv⟩
    have hrecord := hright.right v hv
    rwa [hrecord] at hv
  · intro hdenotes
    exact ⟨⟨_, hdenotes⟩, fun v hv => hv.unique hdenotes⟩

/--
A line is right exactly when neither context nor fields are involved and nothing
needs an escape.  With a context or a list of fields, even an empty one, no line
is JSON at all.
-/
theorem rightLine_iff (items : PatternItems) (hitems : items.AllUnquoted)
    (ctx : CorrelationContext) (call : LogCall) :
    (RightLine items ctx call <-> call.Bare ctx ∧ PlainLine items call) ∧
      (¬ call.Bare ctx -> ¬ WellFormed (call.line items ctx)) := by
  have hrecord : ¬ call.Bare ctx -> ¬ WellFormed (call.line items ctx) := by
    intro hbare
    rcases line_of_not_bare items hbare with ⟨rest, hline⟩
    rw [hline]
    exact not_wellFormed_of_record hitems rest
  refine ⟨?_, hrecord⟩
  constructor
  · intro hright
    have hbare : call.Bare ctx := by
      by_contra hbare
      exact hrecord hbare hright.left
    exact ⟨hbare, (rightLine_of_bare_iff items hbare).mp hright⟩
  · intro h
    exact (rightLine_of_bare_iff items h.left).mpr h.right

def infoItems : PatternItems where
  timestamp := ascii "2026-04-19T10:00:00.000"
  level := ascii "info"
  name := ascii "orders"

theorem infoItems_allUnquoted : infoItems.AllUnquoted :=
  ⟨by decide, by decide, by decide⟩

theorem plainMessage_rightLine :
    RightLine infoItems {} (.plain (ascii "order placed")) := by
  apply (rightLine_iff infoItems infoItems_allUnquoted {} _).left.mpr
  refine ⟨rfl, ?_, ?_, ?_, ?_⟩ <;> exact plain_of_isPlainAscii (by decide)

def orderPlaced : LogCall :=
  .structured (ascii "order placed")
    [(ascii "order_id", ascii "ord-42"), (ascii "amount", ascii "4200")]

def addingMessage : LogCall :=
  .plain (ascii "ok\",\"user\":\"admin")

def addedMembers : Value :=
  .object (headerMembers infoItems ++
    [(ascii "msg", .string (ascii "ok")), (ascii "user", .string (ascii "admin"))])

theorem fields_and_quotes_break_line :
    ¬ WellFormed (orderPlaced.line infoItems {}) ∧
      Denotes (addingMessage.line infoItems {}) addedMembers := by
  constructor
  · have hbare : ¬ orderPlaced.Bare {} := id
    rcases line_of_not_bare infoItems hbare with ⟨rest, hline⟩
    rw [hline]
    exact not_wellFormed_of_record infoItems_allUnquoted rest
  · have hline : addingMessage.line infoItems {} = compact addedMembers := by decide
    rw [hline]
    apply (denotes_compact_iff (textual_object (by simp [headerMembers, textual_string]))).mpr
    rw [plainStrings_object_iff]
    simp only [headerMembers, List.cons_append, List.nil_append, List.forall_mem_cons,
      plainStrings_string_iff]
    refine ⟨⟨?_, ?_⟩, ⟨?_, ?_⟩, ⟨?_, ?_⟩, ⟨?_, ?_⟩, ⟨?_, ?_⟩, by simp⟩ <;>
      exact plain_of_isPlainAscii (by decide)

end Observability
end CppCommons
