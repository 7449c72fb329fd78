import CppCommons.Cxx.StreamDouble
import CppCommons.Observability.PrometheusMetrics

/-!
# The text of the metrics

`render` writes every metric as a line with its type and the lines of its
samples, in the order in which the maps happen to be iterated.  A scraper cuts
the text into lines, the lines into words, and collects the samples under each
type line.  How the stream prints a double is a parameter.
-/

namespace CppCommons
namespace Observability

open Cxx
open Foundation.Ascii

/-!
## Rendering

The maps are iterated in some order, and a double is printed by the stream as a
word.
-/

structure Word (s : Bytes) : Prop where
  blank_not_mem : blank ∉ s
  newline_not_mem : newline ∉ s

/-- `operator<<` on a double, given by its bits in a gauge and by its value elsewhere. -/
structure DoubleText where
  bits : UInt64 -> Bytes
  value : Rat -> Bytes
  word_bits : forall b, Word (bits b)
  word_value : forall x, Word (value x)

structure MapOrder {A : Type} (m : StringMap A) where
  entries : List (Sigma (fun _ : Bytes => A))
  coe_entries : (entries : Multiset (Sigma (fun _ : Bytes => A))) = m.entries

structure RenderOrder (m : PrometheusMetrics) where
  counters : MapOrder m.counters
  gauges : MapOrder m.gauges
  histograms : MapOrder m.histograms

def renderCounter (name : Bytes) (counter : UInt64) : Bytes :=
  ascii "# TYPE " ++ name ++ ascii " counter\n" ++
    (name ++ ascii " " ++ decimalDigits counter.toNat ++ ascii "\n")

def renderGauge (doubles : DoubleText) (name : Bytes) (raw : UInt64) : Bytes :=
  ascii "# TYPE " ++ name ++ ascii " gauge\n" ++
    (name ++ ascii " " ++ doubles.bits raw ++ ascii "\n")

def renderBucket (doubles : DoubleText) (name : Bytes) (b : Bucket) : Bytes :=
  name ++ ascii "_bucket\x7ble=\"" ++ doubles.value b.upperBound ++ ascii "\"\x7d " ++
    decimalDigits b.count.toNat ++ ascii "\n"

def renderHistogram (doubles : DoubleText) (name : Bytes) (h : Histogram) : Bytes :=
  ascii "# TYPE " ++ name ++ ascii " histogram\n" ++ h.buckets.flatMap (renderBucket doubles name) ++
    (name ++ ascii "_bucket\x7ble=\"+Inf\"\x7d " ++ decimalDigits h.count.toNat ++ ascii "\n") ++
    (name ++ ascii "_sum " ++ doubles.value h.sum ++ ascii "\n") ++
    (name ++ ascii "_count " ++ decimalDigits h.count.toNat ++ ascii "\n")

def PrometheusMetrics.render (doubles : DoubleText) (m : PrometheusMetrics)
    (order : RenderOrder m) : Bytes :=
  order.counters.entries.flatMap (fun entry => renderCounter entry.fst entry.snd) ++
    order.gauges.entries.flatMap (fun entry => renderGauge doubles entry.fst entry.snd) ++
    order.histograms.entries.flatMap (fun entry => renderHistogram doubles entry.fst entry.snd)

/-!
## Scraping

A type line opens a family, and the samples behind it belong to it.  Every line must
be readable.
-/

inductive MetricKind where
  | counter
  | gauge
  | histogram
deriving DecidableEq

def MetricKind.word : MetricKind -> Bytes
  | .counter => ascii "counter"
  | .gauge => ascii "gauge"
  | .histogram => ascii "histogram"

def readKind (word : Bytes) : Option MetricKind :=
  if word = ascii "counter" then some .counter
  else if word = ascii "gauge" then some .gauge
  else if word = ascii "histogram" then some .histogram
  else none

structure Sample where
  series : Bytes
  value : Bytes
deriving DecidableEq

structure Family where
  name : Bytes
  kind : MetricKind
  samples : List Sample
deriving DecidableEq

inductive ScrapedLine where
  | type (name : Bytes) (kind : MetricKind)
  | sample (sample : Sample)

def readWords : List Bytes -> Option ScrapedLine
  | [series, value] => some (.sample { series := series, value := value })
  | [hash, keyword, name, kind] =>
      if hash = ascii "#" ∧ keyword = ascii "TYPE" then (readKind kind).map (.type name) else none
  | _ => none

def readLine (line : Bytes) : Option ScrapedLine :=
  readWords (line.splitOn blank)

def collect : List ScrapedLine -> List Sample × List Family
  | [] => ([], [])
  | .sample s :: rest => (s :: (collect rest).fst, (collect rest).snd)
  | .type name kind :: rest =>
      ([], { name := name, kind := kind, samples := (collect rest).fst } :: (collect rest).snd)

/-- Every line must be readable, and every sample belong to a type line. -/
def scrape (text : Bytes) : Option (List Family) :=
  match (text.splitOn newline).dropLast.mapM readLine with
  | none => none
  | some lines => if (collect lines).fst = [] then some (collect lines).snd else none

/-!
## Text of a family

A family whose names and values are words is read back from its lines.
-/

def Sample.line (s : Sample) : Bytes :=
  s.series ++ blank :: s.value

def Family.typeLine (f : Family) : Bytes :=
  ascii "#" ++ blank :: (ascii "TYPE" ++ blank :: (f.name ++ blank :: f.kind.word))

def Family.lines (f : Family) : List Bytes :=
  f.typeLine :: f.samples.map Sample.line

def Family.text (f : Family) : Bytes :=
  f.lines.flatMap (fun line => line ++ [newline])

structure Sample.Plain (s : Sample) : Prop where
  series : Word s.series
  value : Word s.value

structure Family.Plain (f : Family) : Prop where
  name : Word f.name
  samples : forall s, s ∈ f.samples -> s.Plain

theorem splitOn_append_cons {c : UInt8} {block : Bytes} (h : c ∉ block) (rest : Bytes) :
    (block ++ c :: rest).splitOn c = block :: rest.splitOn c := by
  have hblock : forall x, x ∈ block -> (x == c) = false := by
    intro x hx
    rw [beq_eq_false_iff_ne]
    intro heq
    rw [heq] at hx
    exact h hx
  exact List.splitOnP_append_cons_of_forall_mem hblock c (beq_self_eq_true c) rest

theorem readLine_sample {s : Sample} (h : s.Plain) : readLine s.line = some (.sample s) := by
  rw [readLine, Sample.line, splitOn_append_cons h.series.blank_not_mem,
    List.splitOn_eq_singleton h.value.blank_not_mem]
  rfl

theorem word_kind (kind : MetricKind) : Word kind.word := by
  cases kind <;> exact ⟨by decide, by decide⟩

theorem readKind_word (kind : MetricKind) : readKind kind.word = some kind := by
  cases kind <;> decide

theorem readLine_typeLine {f : Family} (h : Word f.name) :
    readLine f.typeLine = some (.type f.name f.kind) := by
  have hhash : blank ∉ ascii "#" := by
    decide
  have hkeyword : blank ∉ ascii "TYPE" := by
    decide
  rw [readLine, Family.typeLine, splitOn_append_cons hhash, splitOn_append_cons hkeyword,
    splitOn_append_cons h.blank_not_mem,
    List.splitOn_eq_singleton (word_kind f.kind).blank_not_mem]
  simp only [readWords, and_self, if_true, readKind_word, Option.map_some]

theorem mapM_readLine_samples {samples : List Sample} (h : forall s, s ∈ samples -> s.Plain) :
    (samples.map Sample.line).mapM readLine = some (samples.map .sample) := by
  induction samples with
  | nil => rfl
  | cons s samples ih =>
      have hrest := ih (fun s' hs' => h s' (List.mem_cons_of_mem s hs'))
      rw [List.map_cons, List.mapM_cons, readLine_sample (h s List.mem_cons_self), hrest]
      rfl

def Family.scraped (f : Family) : List ScrapedLine :=
  .type f.name f.kind :: f.samples.map .sample

theorem mapM_readLine_lines {f : Family} (h : f.Plain) :
    f.lines.mapM readLine = some f.scraped := by
  rw [Family.lines, List.mapM_cons, readLine_typeLine h.name, mapM_readLine_samples h.samples]
  rfl

theorem mapM_readLine_families {families : List Family} (h : forall f, f ∈ families -> f.Plain) :
    (families.flatMap Family.lines).mapM readLine = some (families.flatMap Family.scraped) := by
  induction families with
  | nil => rfl
  | cons f families ih =>
      have hrest := ih (fun f' hf' => h f' (List.mem_cons_of_mem f hf'))
      rw [List.flatMap_cons, List.mapM_append, mapM_readLine_lines (h f List.mem_cons_self), hrest]
      rfl

theorem collect_samples_append (samples : List Sample) (rest : List ScrapedLine) :
    collect (samples.map .sample ++ rest) =
      (samples ++ (collect rest).fst, (collect rest).snd) := by
  induction samples with
  | nil => rfl
  | cons s samples ih => rw [List.map_cons, List.cons_append, collect, ih, List.cons_append]

theorem collect_families (families : List Family) :
    collect (families.flatMap Family.scraped) = ([], families) := by
  induction families with
  | nil => rfl
  | cons f families ih =>
      rw [List.flatMap_cons, Family.scraped, List.cons_append, collect, collect_samples_append, ih,
        List.append_nil]

theorem newline_not_mem_line {s : Sample} (h : s.Plain) : newline ∉ s.line := by
  have hblank : newline ≠ blank := by
    decide
  rw [Sample.line, List.mem_append, List.mem_cons]
  rintro (hseries | hblank' | hvalue)
  · exact h.series.newline_not_mem hseries
  · exact hblank hblank'
  · exact h.value.newline_not_mem hvalue

theorem newline_not_mem_typeLine {f : Family} (h : Word f.name) : newline ∉ f.typeLine := by
  have hfront : newline ∉ ascii "#" ++ blank :: (ascii "TYPE" ++ [blank]) := by
    decide
  have hblank : newline ≠ blank := by
    decide
  have hsplit : f.typeLine =
      (ascii "#" ++ blank :: (ascii "TYPE" ++ [blank])) ++
        (f.name ++ blank :: f.kind.word) := by
    simp [Family.typeLine]
  rw [hsplit, List.mem_append, not_or]
  refine ⟨hfront, ?_⟩
  rw [List.mem_append, List.mem_cons]
  rintro (hname | hblank' | hkind)
  · exact h.newline_not_mem hname
  · exact hblank hblank'
  · exact (word_kind f.kind).newline_not_mem hkind

theorem newline_not_mem_lines {f : Family} (h : f.Plain) {line : Bytes} (hline : line ∈ f.lines) :
    newline ∉ line := by
  rcases List.mem_cons.mp hline with rfl | hsample
  · exact newline_not_mem_typeLine h.name
  · rcases List.mem_map.mp hsample with ⟨s, hs, rfl⟩
    exact newline_not_mem_line (h.samples s hs)

theorem splitOn_lines {lines : List Bytes} (h : forall line, line ∈ lines -> newline ∉ line) :
    (lines.flatMap (fun line => line ++ [newline])).splitOn newline = lines ++ [[]] := by
  induction lines with
  | nil => rfl
  | cons line lines ih =>
      have hrest := ih (fun line' hline' => h line' (List.mem_cons_of_mem line hline'))
      rw [List.flatMap_cons, List.append_assoc, List.singleton_append,
        splitOn_append_cons (h line List.mem_cons_self), hrest, List.cons_append]

theorem scrape_text {families : List Family} (h : forall f, f ∈ families -> f.Plain) :
    scrape (families.flatMap Family.text) = some families := by
  have htext : families.flatMap Family.text =
      (families.flatMap Family.lines).flatMap (fun line => line ++ [newline]) := by
    rw [List.flatMap_assoc]
    rfl
  have hlines : forall line, line ∈ families.flatMap Family.lines -> newline ∉ line := by
    intro line hline
    rcases List.mem_flatMap.mp hline with ⟨f, hf, hmem⟩
    exact newline_not_mem_lines (h f hf) hmem
  rw [scrape, htext, splitOn_lines hlines, List.dropLast_concat, mapM_readLine_families h]
  simp only [collect_families, if_true]

/-!
## Families of the metrics

The family that stands for a counter, for a gauge and for a histogram.
-/

def counterFamily (name : Bytes) (counter : Nat) : Family where
  name := name
  kind := .counter
  samples := [{ series := name, value := decimalDigits counter }]

def gaugeFamily (doubles : DoubleText) (name : Bytes) (raw : UInt64) : Family where
  name := name
  kind := .gauge
  samples := [{ series := name, value := doubles.bits raw }]

def bucketSample (name bound : Bytes) (count : Nat) : Sample where
  series := name ++ ascii "_bucket\x7ble=\"" ++ bound ++ ascii "\"\x7d"
  value := decimalDigits count

def histogramFamily (doubles : DoubleText) (name : Bytes) (buckets : List (Rat × Nat)) (sum : Rat)
    (count : Nat) : Family where
  name := name
  kind := .histogram
  samples :=
    buckets.map (fun b => bucketSample name (doubles.value b.fst) b.snd) ++
      [bucketSample name (ascii "+Inf") count,
        { series := name ++ ascii "_sum", value := doubles.value sum },
        { series := name ++ ascii "_count", value := decimalDigits count }]

def Histogram.family (doubles : DoubleText) (name : Bytes) (h : Histogram) : Family :=
  histogramFamily doubles name (h.buckets.map fun b => (b.upperBound, b.count.toNat)) h.sum
    h.count.toNat

/-!
The texts that the stream is given, cut where the scraper cuts them.
-/

theorem ascii_type : ascii "# TYPE " = ascii "#" ++ blank :: (ascii "TYPE" ++ [blank]) := rfl

theorem ascii_blank : ascii " " = [blank] := rfl

theorem ascii_newline : ascii "\n" = [newline] := rfl

theorem renderCounter_eq (name : Bytes) (counter : UInt64) :
    renderCounter name counter = (counterFamily name counter.toNat).text := by
  have hkind : ascii " counter\n" = blank :: (MetricKind.counter.word ++ [newline]) := rfl
  simp [renderCounter, counterFamily, Family.text, Family.lines, Family.typeLine, Sample.line,
    ascii_type, ascii_blank, ascii_newline, hkind]

theorem renderGauge_eq (doubles : DoubleText) (name : Bytes) (raw : UInt64) :
    renderGauge doubles name raw = (gaugeFamily doubles name raw).text := by
  have hkind : ascii " gauge\n" = blank :: (MetricKind.gauge.word ++ [newline]) := rfl
  simp [renderGauge, gaugeFamily, Family.text, Family.lines, Family.typeLine, Sample.line,
    ascii_type, ascii_blank, ascii_newline, hkind]

theorem renderBucket_eq (doubles : DoubleText) (name : Bytes) (b : Bucket) :
    renderBucket doubles name b =
      (bucketSample name (doubles.value b.upperBound) b.count.toNat).line ++ [newline] := by
  have hclose : ascii "\"\x7d " = ascii "\"\x7d" ++ [blank] := rfl
  simp [renderBucket, bucketSample, Sample.line, ascii_newline, hclose]

theorem renderHistogram_eq (doubles : DoubleText) (name : Bytes) (h : Histogram) :
    renderHistogram doubles name h = (h.family doubles name).text := by
  have hkind : ascii " histogram\n" = blank :: (MetricKind.histogram.word ++ [newline]) := rfl
  have hinf : ascii "_bucket\x7ble=\"+Inf\"\x7d " =
      ascii "_bucket\x7ble=\"" ++ (ascii "+Inf" ++ (ascii "\"\x7d" ++ [blank])) := rfl
  have hsum : ascii "_sum " = ascii "_sum" ++ [blank] := rfl
  have hcount : ascii "_count " = ascii "_count" ++ [blank] := rfl
  have hbuckets : h.buckets.flatMap (renderBucket doubles name) =
      (h.buckets.map fun b =>
        (bucketSample name (doubles.value b.upperBound) b.count.toNat).line).flatMap
          (fun line => line ++ [newline]) := by
    rw [List.flatMap_map]
    exact List.flatMap_congr fun b _ => renderBucket_eq doubles name b
  rw [renderHistogram, hbuckets]
  simp [Histogram.family, histogramFamily, Family.text, Family.lines, Family.typeLine, Sample.line,
    bucketSample, Function.comp_def, ascii_type, ascii_newline, hkind, hinf, hsum, hcount]

/-!
## Plain names

Decimal numbers and the texts of the stream are words, so the families of plain
names are plain.
-/

theorem Word.append {a b : Bytes} (ha : Word a) (hb : Word b) : Word (a ++ b) where
  blank_not_mem := by
    rw [List.mem_append, not_or]
    exact ⟨ha.blank_not_mem, hb.blank_not_mem⟩
  newline_not_mem := by
    rw [List.mem_append, not_or]
    exact ⟨ha.newline_not_mem, hb.newline_not_mem⟩

theorem word_decimalDigits (n : Nat) : Word (decimalDigits n) where
  blank_not_mem := fun h => absurd (isDigit_of_mem_decimalDigits h) (by decide)
  newline_not_mem := fun h => absurd (isDigit_of_mem_decimalDigits h) (by decide)

theorem plain_counterFamily {name : Bytes} (h : Word name) (counter : Nat) :
    (counterFamily name counter).Plain where
  name := h
  samples := by
    intro s hs
    rw [List.mem_singleton.mp hs]
    exact ⟨h, word_decimalDigits counter⟩

theorem plain_gaugeFamily (doubles : DoubleText) {name : Bytes} (h : Word name) (raw : UInt64) :
    (gaugeFamily doubles name raw).Plain where
  name := h
  samples := by
    intro s hs
    rw [List.mem_singleton.mp hs]
    exact ⟨h, doubles.word_bits raw⟩

theorem plain_bucketSample {name bound : Bytes} (hname : Word name) (hbound : Word bound)
    (count : Nat) : (bucketSample name bound count).Plain where
  series := by
    have hopen : Word (ascii "_bucket\x7ble=\"") := ⟨by decide, by decide⟩
    have hclose : Word (ascii "\"\x7d") := ⟨by decide, by decide⟩
    exact ((hname.append hopen).append hbound).append hclose
  value := word_decimalDigits count

theorem plain_histogramFamily (doubles : DoubleText) {name : Bytes} (h : Word name)
    (buckets : List (Rat × Nat)) (sum : Rat) (count : Nat) :
    (histogramFamily doubles name buckets sum count).Plain where
  name := h
  samples := by
    have hinf : Word (ascii "+Inf") := ⟨by decide, by decide⟩
    have hsum : Word (ascii "_sum") := ⟨by decide, by decide⟩
    have hcount : Word (ascii "_count") := ⟨by decide, by decide⟩
    intro s hs
    rcases List.mem_append.mp hs with hbucket | hlast
    · rcases List.mem_map.mp hbucket with ⟨b, _, rfl⟩
      exact plain_bucketSample h (doubles.word_value b.fst) b.snd
    · simp only [List.mem_cons, List.not_mem_nil, or_false] at hlast
      rcases hlast with rfl | rfl | rfl
      · exact plain_bucketSample h hinf count
      · exact ⟨h.append hsum, doubles.word_value sum⟩
      · exact ⟨h.append hcount, word_decimalDigits count⟩

/-!
## What the maps hold after any calls

A gauge is there once it was set and a counter once it was incremented; a reset
leaves both at zero.
-/

def MetricsCall.gauged (name : Bytes) : MetricsCall -> Option UInt64
  | .gauge name' bits => if name' = name then some bits else none
  | _ => none

def gaugeSet (name : Bytes) (calls : List MetricsCall) : Bool :=
  calls.any fun call => (call.gauged name).isSome

theorem gaugeSet_concat (name : Bytes) (calls : List MetricsCall) (call : MetricsCall) :
    gaugeSet name (calls ++ [call]) = (gaugeSet name calls || (call.gauged name).isSome) := by
  simp [gaugeSet]

/-- The bits that were last stored under a name since the last reset, or zero. -/
def gaugeBits (name : Bytes) (calls : List MetricsCall) : UInt64 :=
  (((sinceReset calls).filterMap (MetricsCall.gauged name)).getLast?).getD 0

theorem gaugeBits_concat_reset (name : Bytes) (calls : List MetricsCall) :
    gaugeBits name (calls ++ [.reset]) = 0 := by
  rw [gaugeBits, sinceReset_concat_reset]
  rfl

theorem gaugeBits_concat {call : MetricsCall} (h : call ≠ .reset) (name : Bytes)
    (calls : List MetricsCall) :
    gaugeBits name (calls ++ [call]) = (call.gauged name).getD (gaugeBits name calls) := by
  rw [gaugeBits, sinceReset_concat h, List.filterMap_append, gaugeBits]
  cases hgauged : call.gauged name with
  | none => simp [hgauged]
  | some bits => simp [hgauged]

namespace PrometheusMetrics

theorem lookup_gauges_perform_gauged (m : PrometheusMetrics) {call : MetricsCall} {name : Bytes}
    {bits : UInt64} (h : call.gauged name = some bits) :
    (m.perform call).gauges.lookup name = some bits := by
  cases call with
  | increment other => cases h
  | gauge other bits' =>
      rw [MetricsCall.gauged] at h
      split at h
      · next hname =>
          cases h
          subst hname
          exact Finmap.lookup_insert _
      · cases h
  | histogram other value => cases h
  | reset => cases h

theorem lookup_gauges_perform (m : PrometheusMetrics) {call : MetricsCall} {name : Bytes}
    (hreset : call ≠ .reset) (h : call.gauged name = none) :
    (m.perform call).gauges.lookup name = m.gauges.lookup name := by
  cases call with
  | increment other => rfl
  | gauge other bits =>
      have hother : name ≠ other := by
        intro hname
        rw [MetricsCall.gauged, if_pos hname.symm] at h
        cases h
      have hensured : (ensure m.gauges other).lookup name = m.gauges.lookup name := by
        rw [ensure]
        split
        · rfl
        · exact Finmap.lookup_insert_of_ne _ hother
      exact (Finmap.lookup_insert_of_ne _ hother).trans hensured
  | histogram other value => rfl
  | reset => exact absurd rfl hreset

theorem lookup_gauges_after (name : Bytes) (calls : List MetricsCall) :
    (after calls).gauges.lookup name =
      if gaugeSet name calls then some (gaugeBits name calls) else none := by
  induction calls using List.reverseRecOn with
  | nil => rfl
  | append_singleton calls call ih =>
      rw [after_concat, gaugeSet_concat]
      by_cases hreset : call = .reset
      · have hzero : ((after calls).perform .reset).gauges.lookup name =
            ((after calls).gauges.lookup name).map fun _ => 0 := lookup_storeAll _ 0 name
        rw [hreset, gaugeBits_concat_reset, hzero, ih]
        cases gaugeSet name calls <;> rfl
      · rw [gaugeBits_concat hreset]
        cases hgauged : call.gauged name with
        | none =>
            rw [lookup_gauges_perform _ hreset hgauged, ih, Option.isSome_none, Bool.or_false,
              Option.getD_none]
        | some bits =>
            rw [lookup_gauges_perform_gauged _ hgauged, Option.isSome_some, Bool.or_true,
              if_pos rfl, Option.getD_some]

theorem isSome_counters_after (name : Bytes) (calls : List MetricsCall) :
    ((after calls).counters.lookup name).isSome = true <-> .increment name ∈ calls := by
  induction calls using List.reverseRecOn with
  | nil =>
      simp only [List.not_mem_nil, iff_false]
      exact Bool.false_ne_true
  | append_singleton calls call ih =>
      rw [after_concat, List.mem_append, List.mem_singleton]
      by_cases hreset : call = .reset
      · have hzero : ((after calls).perform .reset).counters.lookup name =
            ((after calls).counters.lookup name).map fun _ => 0 := lookup_storeAll _ 0 name
        rw [hreset, hzero, Option.isSome_map, ih]
        simp
      · by_cases hincrement : call = .increment name
        · have hadded : ((after calls).perform (.increment name)).counters.lookup name =
              some (((after calls).counters.lookup name).getD 0 + 1) :=
            lookup_fetchAdd_ensure _ name 1
          rw [hincrement, hadded]
          simp
        · rw [lookup_counters_perform _ hreset hincrement, ih]
          simp [Ne.symm hincrement]

theorem lookup_counters_after (name : Bytes) (calls : List MetricsCall) :
    (after calls).counters.lookup name =
      if .increment name ∈ calls then some (UInt64.ofNat (increments name calls)) else none := by
  have hsome := isSome_counters_after name calls
  have hvalue := getD_counters_after name calls
  cases hlookup : (after calls).counters.lookup name with
  | none =>
      rw [hlookup] at hsome
      rw [if_neg (fun hmem => Bool.false_ne_true (hsome.mpr hmem))]
  | some counter =>
      rw [hlookup] at hsome hvalue
      rw [if_pos (hsome.mp rfl), ← hvalue, Option.getD_some]

end PrometheusMetrics

/-!
## What is scraped

The families of the text are those of the entries of the maps, each once.  What they
hold follows from what the maps hold after any calls.
-/

def Family.key (f : Family) : MetricKind × Bytes :=
  (f.kind, f.name)

theorem kind_of_mem_keys {kind : MetricKind} {names : List Bytes} {key : MetricKind × Bytes}
    (h : key ∈ names.map fun name => (kind, name)) : key.fst = kind := by
  rcases List.mem_map.mp h with ⟨name, _, rfl⟩
  rfl

namespace MapOrder

variable {A : Type} {m : StringMap A}

theorem mem_entries_iff (order : MapOrder m) (name : Bytes) (a : A) :
    ⟨name, a⟩ ∈ order.entries <-> m.lookup name = some a := by
  rw [Finmap.lookup_eq_some_iff, ← order.coe_entries, Multiset.mem_coe]

theorem nodup_names (order : MapOrder m) : (order.entries.map Sigma.fst).Nodup := by
  have hkeys := m.nodupKeys
  rw [← order.coe_entries] at hkeys
  exact hkeys

theorem mem_map_entries_iff {B : Type} (order : MapOrder m) (make : Bytes -> A -> B) (b : B) :
    b ∈ order.entries.map (fun entry => make entry.fst entry.snd) <->
      exists name a, m.lookup name = some a ∧ b = make name a := by
  rw [List.mem_map]
  constructor
  · rintro ⟨⟨name, a⟩, hmem, rfl⟩
    exact ⟨name, a, (order.mem_entries_iff name a).mp hmem, rfl⟩
  · rintro ⟨name, a, hlookup, rfl⟩
    exact ⟨⟨name, a⟩, (order.mem_entries_iff name a).mpr hlookup, rfl⟩

theorem map_key_entries (order : MapOrder m) (make : Bytes -> A -> Family) (kind : MetricKind)
    (h : forall name a, (make name a).key = (kind, name)) :
    (order.entries.map fun entry => make entry.fst entry.snd).map Family.key =
      (order.entries.map Sigma.fst).map fun name => (kind, name) := by
  rw [List.map_map, List.map_map]
  exact List.map_congr_left fun entry _ => h entry.fst entry.snd

theorem nodup_keys (order : MapOrder m) (kind : MetricKind) :
    ((order.entries.map Sigma.fst).map fun name => (kind, name)).Nodup :=
  order.nodup_names.map fun _ _ h => congrArg Prod.snd h

end MapOrder

namespace PrometheusMetrics

/-- The families in the order in which they are rendered. -/
def families (doubles : DoubleText) (m : PrometheusMetrics) (order : RenderOrder m) :
    List Family :=
  order.counters.entries.map (fun entry => counterFamily entry.fst entry.snd.toNat) ++
    order.gauges.entries.map (fun entry => gaugeFamily doubles entry.fst entry.snd) ++
    order.histograms.entries.map (fun entry => entry.snd.family doubles entry.fst)

theorem render_eq (doubles : DoubleText) (m : PrometheusMetrics) (order : RenderOrder m) :
    m.render doubles order = (m.families doubles order).flatMap Family.text := by
  simp [render, families, renderCounter_eq, renderGauge_eq, renderHistogram_eq, List.flatMap_map]

theorem mem_families_iff (doubles : DoubleText) (m : PrometheusMetrics) (order : RenderOrder m)
    (f : Family) :
    f ∈ m.families doubles order <->
      (exists name counter, m.counters.lookup name = some counter ∧
        f = counterFamily name counter.toNat) ∨
      (exists name raw, m.gauges.lookup name = some raw ∧ f = gaugeFamily doubles name raw) ∨
      (exists name h, m.histograms.lookup name = some h ∧ f = h.family doubles name) := by
  rw [families, List.mem_append, List.mem_append, or_assoc,
    order.counters.mem_map_entries_iff fun name counter => counterFamily name counter.toNat,
    order.gauges.mem_map_entries_iff (gaugeFamily doubles),
    order.histograms.mem_map_entries_iff fun name h => h.family doubles name]

theorem nodup_key_families (doubles : DoubleText) (m : PrometheusMetrics)
    (order : RenderOrder m) : ((m.families doubles order).map Family.key).Nodup := by
  rw [families, List.map_append, List.map_append,
    order.counters.map_key_entries (fun name counter => counterFamily name counter.toNat) .counter
      fun _ _ => rfl,
    order.gauges.map_key_entries (gaugeFamily doubles) .gauge fun _ _ => rfl,
    order.histograms.map_key_entries (fun name h => h.family doubles name) .histogram
      fun _ _ => rfl,
    List.nodup_append, List.nodup_append]
  refine ⟨⟨order.counters.nodup_keys _, order.gauges.nodup_keys _, ?_⟩,
    order.histograms.nodup_keys _, ?_⟩
  · intro key hcounter key' hgauge heq
    have hkind := kind_of_mem_keys hcounter
    rw [heq, kind_of_mem_keys hgauge] at hkind
    cases hkind
  · intro key hearlier key' hhistogram heq
    rw [← heq] at hhistogram
    have hkind := kind_of_mem_keys hhistogram
    rcases List.mem_append.mp hearlier with hcounter | hgauge
    · rw [kind_of_mem_keys hcounter] at hkind
      cases hkind
    · rw [kind_of_mem_keys hgauge] at hkind
      cases hkind

end PrometheusMetrics

/-- The metrics of a histogram whose fields of 64 bits have taken these observations. -/
def observedFamily (doubles : DoubleText) (name : Bytes) (observed : List Rat) : Family :=
  histogramFamily doubles name
    (defaultBounds.map fun bound => (bound, observed.countP (· <= bound) % 2 ^ 64))
    observed.sum (observed.length % 2 ^ 64)

theorem family_tally (doubles : DoubleText) (name : Bytes) (observed : List Rat) :
    (Histogram.tally observed).family doubles name = observedFamily doubles name observed := by
  simp [Histogram.family, Histogram.tally, observedFamily, Function.comp_def]

def MetricsCall.name? : MetricsCall -> Option Bytes
  | .increment name => some name
  | .gauge name _ => some name
  | .histogram name _ => some name
  | .reset => none

/-- Every name that is reported under is a word of the text. -/
def PlainNames (calls : List MetricsCall) : Prop :=
  forall call name, call ∈ calls -> call.name? = some name -> Word name

theorem word_of_observations {calls : List MetricsCall} (h : PlainNames calls) {name : Bytes}
    (hobserved : observations name calls ≠ []) : Word name := by
  rcases List.exists_mem_of_ne_nil _ hobserved with ⟨value, hvalue⟩
  rcases List.mem_filterMap.mp hvalue with ⟨call, hcall, hsome⟩
  have hmem : call ∈ calls := (List.rtakeWhile_suffix _ calls).subset hcall
  cases call with
  | histogram other observed =>
      rw [MetricsCall.observed] at hsome
      split at hsome
      · next hname => exact h _ name hmem (congrArg some hname)
      · cases hsome
  | increment other => cases hsome
  | gauge other bits => cases hsome
  | reset => cases hsome

theorem word_of_gaugeSet {calls : List MetricsCall} (h : PlainNames calls) {name : Bytes}
    (hset : gaugeSet name calls = true) : Word name := by
  rcases List.any_eq_true.mp hset with ⟨call, hmem, hsome⟩
  cases call with
  | gauge other bits =>
      simp only [MetricsCall.gauged] at hsome
      split at hsome
      · next hname => exact h _ name hmem (congrArg some hname)
      · cases hsome
  | increment other => cases hsome
  | histogram other value => cases hsome
  | reset => cases hsome

namespace PrometheusMetrics

theorem mem_families_after_iff (doubles : DoubleText) (calls : List MetricsCall)
    (order : RenderOrder (after calls)) (f : Family) :
    f ∈ (after calls).families doubles order <->
      (exists name, .increment name ∈ calls ∧
        f = counterFamily name (increments name calls % 2 ^ 64)) ∨
      (exists name, gaugeSet name calls = true ∧
        f = gaugeFamily doubles name (gaugeBits name calls)) ∨
      (exists name, observations name calls ≠ [] ∧
        f = observedFamily doubles name (observations name calls)) := by
  rw [mem_families_iff]
  refine or_congr ?_ (or_congr ?_ ?_)
  · refine exists_congr fun name => ?_
    rw [lookup_counters_after]
    split
    · next hmem => simp [hmem]
    · next hmem => simp [hmem]
  · refine exists_congr fun name => ?_
    rw [lookup_gauges_after]
    split
    · next hset => simp [hset]
    · next hset => simp [hset]
  · refine exists_congr fun name => ?_
    rw [lookup_histograms_after]
    split
    · next hnone => simp [hnone]
    · next hsome => simp [hsome, family_tally]

theorem word_of_visible {s : Bytes} (h : Visible s) : Word s where
  blank_not_mem := fun hmem => absurd (h _ hmem) (by decide)
  newline_not_mem := fun hmem => absurd (h _ hmem) (by decide)

def streamText : DoubleText where
  bits := doubleText
  value := rationalText
  word_bits := fun b => word_of_visible (visible_doubleText b)
  word_value := fun x => word_of_visible (visible_rationalText x)

def twoHits : List MetricsCall :=
  [.increment (ascii "hits"), .gauge (ascii "depth") 0x4132D68700000000,
    .histogram (ascii "wait") (3 / 4), .increment (ascii "hits")]

def twoHitsOrder : RenderOrder (after twoHits) where
  counters := ⟨[⟨ascii "hits", 2⟩], rfl⟩
  gauges := ⟨[⟨ascii "depth", 0x4132D68700000000⟩], rfl⟩
  histograms := ⟨[⟨ascii "wait", ({} : Histogram).observe (3 / 4)⟩], rfl⟩

end PrometheusMetrics

end Observability
end CppCommons
