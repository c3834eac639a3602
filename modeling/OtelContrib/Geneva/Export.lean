/-
What the Geneva exporter sends.

* `serialization_safe` — no write at or past `kBufferSize`, no counter or length
  that wraps, and nothing sent for a point that does not fit;
* `export_independent` — what is sent is a function of options and points: the
  contents of `buffer_`, hence earlier exports and dropped points, do not show.

Both rest on `FramedRun`: a run of either serializer ends with a complete message
at the start of the buffer or with the result `0`.
-/
import OtelContrib.Geneva.Wire

open BoundedWriter BoundedWriter.Serializer ByteCodec

namespace Geneva

/-! ### Safety of one serialization -/

/-- A run of a serializer with content behind `start` is safe: every write stays
below the end of the buffer, content and header keep to their own ranges, a
complete content is counted as it is, and an aborted one gives `0`. -/
structure SafeRun {α : Type} (start : ℕ) (content : Serializer α) (counted : α → Prop)
    (buffer : Memory) (result : ℕ × Memory) : Prop where
  bounded : ∃ contentWrites headerWrites,
    result.2.writes = buffer.writes ++ (contentWrites ++ headerWrites) ∧
    (∀ p ∈ contentWrites, start ≤ p.1 ∧ p.1 + p.2 ≤ kBufferSize) ∧
    ∀ p ∈ headerWrites, p.1 + p.2 ≤ start
  complete : result.1 ≠ 0 → ∃ a w, content ⟨buffer, start⟩ = (some a, w) ∧
    result.1 + kBinaryHeaderSize = w.index ∧ w.index ≤ kBufferSize ∧ counted a
  dropped : (∃ w, content ⟨buffer, start⟩ = (none, w)) → result.1 = 0

theorem SafeRun.of_framedRun {α : Type} {payload : ℕ} {content : Serializer α} {buffer : Memory}
    {h b : List UInt8} {a : α} {counted : α → Prop} {result : ℕ × Memory}
    (hrun : FramedRun kBufferSize (kBinaryHeaderSize + payload) content buffer h b a
      (UInt16.ofNat (kBinaryHeaderSize + payload + b.length - kBinaryHeaderSize)).toNat result)
    (hle : h.length ≤ kBinaryHeaderSize + payload)
    (hcounted : kBinaryHeaderSize + payload + b.length ≤ kBufferSize → counted a) :
    SafeRun (kBinaryHeaderSize + payload) content counted buffer result := by
  cases hrun with
  | fits w hfits hcontent hindex hresult _ _ hwrites =>
    obtain ⟨new, new', hlog, hnew, hnew'⟩ := hwrites
    rw [toNat_bodyLength hfits] at hresult
    refine ⟨⟨new, new', hlog, fun p hp => ?_, fun p hp => ?_⟩, fun _ => ?_, ?_⟩
    · obtain ⟨hlo, hhi⟩ := hnew p hp
      exact ⟨hlo, by omega⟩
    · have hhi := hnew' p hp
      omega
    · exact ⟨a, w, hcontent, by omega, by omega, hcounted hfits⟩
    · rintro ⟨w', hnone⟩
      rw [hcontent] at hnone
      exact absurd (congrArg Prod.fst hnone) (by simp)
  | overflows w hover hcontent hresult hwrites =>
    obtain ⟨new, hlog, hnew⟩ := hwrites
    refine ⟨⟨new, [], by rw [hlog, List.append_nil], hnew, by simp⟩, ?_, fun _ => hresult⟩
    intro hne
    exact absurd hresult hne

/-! ### One point -/

/-- The event type `Export` chooses for a point and the result of the serializer
it calls; nothing for a point without data. -/
def Exporter.serializePoint (casts : UndefinedCasts) (e : Exporter) (name : List UInt8)
    (ts : SystemTimestamp) (point : PointDataAttributes) :
    Option (MetricsEventType × (ℕ × Memory)) :=
  match point.pointData with
  | .sum p => some (p.exported.eventType,
      e.serializeNonHistogramMetrics p.exported ts name point.attributes)
  | .lastValue p => some (p.exported.eventType,
      e.serializeNonHistogramMetrics p.exported ts name point.attributes)
  | .histogram p => some (.ExternallyAggregatedUlongDistributionMetric,
      e.serializeHistogramMetrics casts.toUInt64 .ExternallyAggregatedUlongDistributionMetric
        p.count (p.sum.toLong casts) (p.min.toLong casts) (p.max.toLong casts) p.boundaries
        p.counts ts name point.attributes)
  | .drop => none

theorem exportPoint_eq (casts : UndefinedCasts) (e : Exporter) (metricData : MetricData)
    (point : PointDataAttributes) :
    e.exportPoint casts metricData point =
      (e.serializePoint casts metricData.name metricData.endTs point).elim (e, [])
        fun s => e.sendSerialized s.1 s.2 := by
  rw [Exporter.exportPoint, Exporter.serializePoint]
  cases point.pointData <;> rfl

/-- The whole message of a point, whether or not it fits. -/
def wholeMessage (casts : UndefinedCasts) (options : ExporterOptions) (name : List UInt8)
    (ts : SystemTimestamp) (point : PointDataAttributes) : Option Message :=
  let p := ConnectionStringParser.ofString options.connectionString
  match point.pointData with
  | .sum d => some ⟨d.exported.eventType,
      nonHistogramMessage options p d.exported ts name point.attributes⟩
  | .lastValue d => some ⟨d.exported.eventType,
      nonHistogramMessage options p d.exported ts name point.attributes⟩
  | .histogram d => some ⟨.ExternallyAggregatedUlongDistributionMetric,
      histogramMessage casts.toUInt64 options p d.count (d.sum.toLong casts) (d.min.toLong casts)
        (d.max.toLong casts) d.boundaries d.counts ts name point.attributes⟩
  | .drop => none

/-- The message `Export` sends for a point: the whole message, if it fits. -/
def pointMessage (casts : UndefinedCasts) (options : ExporterOptions) (name : List UInt8)
    (ts : SystemTimestamp) (point : PointDataAttributes) : Option Message :=
  (wholeMessage casts options name ts point).filter fun m => m.data.length ≤ kBufferSize

theorem serializePoint_carries (casts : UndefinedCasts) (e : Exporter) (name : List UInt8)
    (ts : SystemTimestamp) (point : PointDataAttributes) :
    (e.serializePoint casts name ts point = none ∧
      wholeMessage casts e.options name ts point = none) ∨
    ∃ eventType result message, e.serializePoint casts name ts point = some (eventType, result) ∧
      wholeMessage casts e.options name ts point = some ⟨eventType, message⟩ ∧
      Carries result message := by
  rw [Exporter.serializePoint, wholeMessage, ← e.parsed]
  cases point.pointData with
  | sum p =>
    exact .inr ⟨_, _, _, rfl, rfl, serializeNonHistogramMetrics_carries e p.exported ts name _⟩
  | lastValue p =>
    exact .inr ⟨_, _, _, rfl, rfl, serializeNonHistogramMetrics_carries e p.exported ts name _⟩
  | histogram p =>
    exact .inr ⟨_, _, _, rfl, rfl, serializeHistogramMetrics_carries _ e _ _ _ _ _ _ ts name _⟩
  | drop => exact .inl ⟨rfl, rfl⟩

theorem sendSerialized_of_carries (e : Exporter) (eventType : MetricsEventType)
    {result : ℕ × Memory} {message : List UInt8} (h : Carries result message) :
    (e.sendSerialized eventType result).2 =
      ((some (⟨eventType, message⟩ : Message)).filter
        fun m => m.data.length ≤ kBufferSize).toList := by
  rw [Exporter.sendSerialized]
  rcases h with ⟨hfits, hpos, hresult, htake⟩ | ⟨hover, hresult⟩
  · -- the length that is handed on does not wrap
    have hsize : (UInt16.ofNat (result.1 + kBinaryHeaderSize)).toNat = message.length := by
      rw [hresult]
      exact toNat_ofNat_of_lt (by rw [kBufferSize] at hfits; omega)
    rw [Option.filter_some_pos (by simpa using hfits), hsize, htake, if_pos hpos]
    rfl
  · rw [Option.filter_some_neg (by simpa using hover), hresult]
    rfl

/-- A point sends its message, whatever the buffer holds. -/
theorem exportPoint_sends (casts : UndefinedCasts) (e : Exporter) (metricData : MetricData)
    (point : PointDataAttributes) :
    (e.exportPoint casts metricData point).2 =
      (pointMessage casts e.options metricData.name metricData.endTs point).toList := by
  rw [exportPoint_eq, pointMessage]
  rcases serializePoint_carries casts e metricData.name metricData.endTs point with
    ⟨hnone, hwhole⟩ | ⟨eventType, result, message, hsome, hwhole, hcarries⟩
  · rw [hnone, hwhole]
    rfl
  · rw [hsome, hwhole]
    exact sendSerialized_of_carries e eventType hcarries

/-- Two exporters that differ in their buffers only. -/
structure SameButBuffer (e e' : Exporter) : Prop where
  options_eq : e'.options = e.options
  isShutdown_eq : e'.isShutdown = e.isShutdown

theorem exportPoint_same (casts : UndefinedCasts) (e : Exporter) (metricData : MetricData)
    (point : PointDataAttributes) : SameButBuffer e (e.exportPoint casts metricData point).1 := by
  rw [exportPoint_eq]
  cases e.serializePoint casts metricData.name metricData.endTs point with
  | none => exact ⟨rfl, rfl⟩
  | some s => exact ⟨rfl, rfl⟩

/-! ### Batches -/

/-- A loop whose body sends what is determined by the options and the item. -/
theorem exportLoop_sends {α : Type} {body : Exporter → α → Exporter × List Message}
    (sends : ExporterOptions → α → List Message)
    (hsends : ∀ e x, (body e x).2 = sends e.options x)
    (hsame : ∀ e x, SameButBuffer e (body e x).1) (xs : List α) (e : Exporter) :
    (exportLoop body e xs).2 = xs.flatMap (sends e.options) ∧
      SameButBuffer e (exportLoop body e xs).1 := by
  induction xs generalizing e with
  | nil => exact ⟨rfl, rfl, rfl⟩
  | cons x xs ih =>
    obtain ⟨htail, hopt, hshut⟩ := ih (body e x).1
    obtain ⟨hopt', hshut'⟩ := hsame e x
    refine ⟨?_, hopt.trans hopt', hshut.trans hshut'⟩
    rw [exportLoop, List.flatMap_cons, hsends, htail, hopt']

/-- The points of a batch in the order of scopes, metrics and points, each with
the name and the end of its metric. -/
def ResourceMetrics.points (data : ResourceMetrics) :
    List (List UInt8 × SystemTimestamp × PointDataAttributes) :=
  data.scopeMetricData.flatMap fun record =>
    record.metricData.flatMap fun metricData =>
      metricData.pointDataAttr.map fun point => (metricData.name, metricData.endTs, point)

/-- What the points of one metric send, in order. -/
def metricMessages (casts : UndefinedCasts) (options : ExporterOptions)
    (metricData : MetricData) : List Message :=
  metricData.pointDataAttr.flatMap fun point =>
    (pointMessage casts options metricData.name metricData.endTs point).toList

def scopeMessages (casts : UndefinedCasts) (options : ExporterOptions) (record : ScopeMetrics) :
    List Message :=
  record.metricData.flatMap (metricMessages casts options)

theorem export_sends (casts : UndefinedCasts) (e : Exporter) (data : ResourceMetrics) :
    (e.export casts data).2.2 =
      if e.isShutdown then []
      else data.points.flatMap fun x => (pointMessage casts e.options x.1 x.2.1 x.2.2).toList := by
  -- one step for each of the three loops, from the inside out
  have hmetric := fun metricData : MetricData => exportLoop_sends
    (fun options point =>
      (pointMessage casts options metricData.name metricData.endTs point).toList)
    (fun e point => exportPoint_sends casts e metricData point)
    (fun e point => exportPoint_same casts e metricData point)
  have hscope := fun record : ScopeMetrics => exportLoop_sends (metricMessages casts)
    (fun e metricData => (hmetric metricData metricData.pointDataAttr e).1)
    (fun e metricData => (hmetric metricData metricData.pointDataAttr e).2) record.metricData
  have hdata := exportLoop_sends (scopeMessages casts) (fun e record => (hscope record e).1)
    (fun e record => (hscope record e).2) data.scopeMetricData e
  rw [Exporter.export]
  by_cases hshut : e.isShutdown
  · rw [if_pos hshut, if_pos hshut]
  · rw [if_neg hshut, if_neg hshut]
    by_cases hempty : data.scopeMetricData = []
    · rw [if_pos hempty, ResourceMetrics.points, hempty]
      rfl
    · rw [if_neg hempty, hdata.1, ResourceMetrics.points, List.flatMap_assoc]
      simp only [List.flatMap_assoc, List.flatMap_map]
      rfl

/-- One metric with a sum and a last value. -/
def sampleBatch : ResourceMetrics :=
  ⟨[⟨[⟨ascii "m", ⟨0⟩, [⟨∅, .sum ⟨.int64 7, true⟩⟩, ⟨∅, .lastValue ⟨.int64 3⟩⟩]⟩]⟩]⟩

/-- **Messages do not depend on the buffer.**  Two exporters with equal options send
the same messages for a batch, each of them determined by its own point; a
point whose serialization gives `0` may be removed from the batch. -/
theorem export_independent (casts : UndefinedCasts) (e₁ e₂ : Exporter)
    (hoptions : e₁.options = e₂.options) (hshutdown : e₁.isShutdown = e₂.isShutdown)
    (data : ResourceMetrics) :
    (e₁.export casts data).2.2 = (e₂.export casts data).2.2 ∧
    ((e₁.export casts data).2.2 =
      if e₁.isShutdown then []
      else data.points.flatMap fun x =>
        (pointMessage casts e₁.options x.1 x.2.1 x.2.2).toList) ∧
    ∀ (data' : ResourceMetrics) before after name ts point,
      data.points = before ++ (name, ts, point) :: after → data'.points = before ++ after →
      (∀ eventType result, e₁.serializePoint casts name ts point = some (eventType, result) →
        result.1 = 0) →
      (e₁.export casts data).2.2 = (e₂.export casts data').2.2 := by
  simp only [export_sends, hoptions, hshutdown, true_and]
  intro data' before after name ts point hdata hdata' hdropped
  -- a point whose serializer gives 0 has no message
  have hnothing : pointMessage casts e₂.options name ts point = none := by
    rw [pointMessage, ← hoptions]
    rcases serializePoint_carries casts e₁ name ts point with
      ⟨-, hwhole⟩ | ⟨eventType, result, message, hsome, hwhole, hcarries⟩
    · rw [hwhole]
      rfl
    · have hzero := hdropped eventType result hsome
      rw [hwhole]
      rcases hcarries with ⟨-, hpos, -⟩ | ⟨hover, -⟩
      · omega
      · exact Option.filter_some_neg (by simpa using hover)
  rw [hdata, hdata']
  simp only [List.flatMap_append, List.flatMap_cons, hnothing, Option.toList_none,
    List.nil_append]

theorem export_independent_of_fill :
    ((sampleExporter ∅ 0).export ⟨fun _ => 0, fun _ => 0⟩ sampleBatch).2.2 =
      ((sampleExporter ∅ 255).export ⟨fun _ => 0, fun _ => 0⟩ sampleBatch).2.2 :=
  (export_independent ⟨fun _ => 0, fun _ => 0⟩ (sampleExporter ∅ 0) (sampleExporter ∅ 255) rfl rfl
    sampleBatch).1

/-! ### Safety -/

/-- **No overrun, no wrapped length, no half-built message.** -/
theorem serialization_safe (casts : UndefinedCasts) (e : Exporter) (ts : SystemTimestamp)
    (metricName : List UInt8) (attributes : PointAttributes) :
    (∀ value, SafeRun (kBinaryHeaderSize + kMetricPayloadSize)
      (serializeNonHistogramContent e.options e.connectionStringParser metricName attributes)
      (fun attributesSize =>
        attributesSize.toNat = (dimensionNames e.options attributes).length ∧
        ∀ s ∈ strings e.options e.connectionStringParser metricName attributes,
          s.length < 2 ^ 16)
      e.buffer (e.serializeNonHistogramMetrics value ts metricName attributes)) ∧
    (∀ eventType count sum min max boundaries counts,
      SafeRun (kBinaryHeaderSize + kExternalPayloadSize)
        (serializeHistogramContent casts.toUInt64 e.options e.connectionStringParser eventType
          boundaries counts metricName attributes)
        (fun sizes =>
          sizes.1.toNat = (dimensionNames e.options attributes).length ∧
          sizes.2.toNat = (exportedBuckets eventType boundaries counts).length ∧
          ∀ s ∈ strings e.options e.connectionStringParser metricName attributes,
            s.length < 2 ^ 16)
        e.buffer
        (e.serializeHistogramMetrics casts.toUInt64 eventType count sum min max boundaries counts
          ts metricName attributes)) ∧
    ∀ metricData point eventType result,
      e.serializePoint casts metricData.name metricData.endTs point = some (eventType, result) →
      (result.1 = 0 → (e.exportPoint casts metricData point).2 = []) ∧
      (result.1 ≠ 0 → ∃ message, (e.exportPoint casts metricData point).2 = [⟨eventType, message⟩] ∧
        message.length = result.1 + kBinaryHeaderSize) := by
  refine ⟨fun value => ?_, fun eventType count sum min max boundaries counts => ?_, ?_⟩
  · refine .of_framedRun (serializeNonHistogramMetrics_run e value ts metricName attributes)
      (Nat.le_of_eq (length_nonHistogramHeader _ _ _ _)) (fun hfits => ?_)
    have hle := length_stringBytes_le_nonHistogramContent e.options e.connectionStringParser
      metricName attributes
    have hstrings : (stringBytes (strings e.options e.connectionStringParser metricName
        attributes)).length ≤ kBufferSize := by omega
    exact ⟨toNat_ofNat_of_lt (length_dimensionNames_lt hstrings), length_strings_lt hstrings⟩
  · refine .of_framedRun (serializeHistogramMetrics_run casts.toUInt64 e eventType count sum min max
      boundaries counts ts metricName attributes) (length_histogramHeader_le _ _ _ _ _ _ _ _)
      (fun hfits => ?_)
    rw [length_histogramContent] at hfits
    have hstrings : (stringBytes (strings e.options e.connectionStringParser metricName
        attributes)).length ≤ kBufferSize := by omega
    refine ⟨toNat_ofNat_of_lt (length_dimensionNames_lt hstrings), toNat_ofNat_of_lt ?_,
      length_strings_lt hstrings⟩
    rw [kBufferSize] at hfits
    omega
  · -- nothing is sent for 0, and else one message of the announced length
    intro metricData point eventType result hsome
    rw [exportPoint_eq, hsome]
    rcases serializePoint_carries casts e metricData.name metricData.endTs point with
      ⟨hnone, -⟩ | ⟨eventType', result', message, hsome', -, hcarries⟩
    · rw [hnone] at hsome
      exact absurd hsome (by simp)
    · obtain ⟨rfl, rfl⟩ := Prod.mk.injEq _ _ _ _ ▸ Option.some.inj (hsome.symm.trans hsome')
      have hsends := sendSerialized_of_carries e eventType hcarries
      rcases hcarries with ⟨hfits, hpos, hresult, -⟩ | ⟨hover, hzero⟩
      · rw [Option.filter_some_pos (by simpa using hfits)] at hsends
        exact ⟨fun hzero => by omega, fun _ => ⟨message, hsends, hresult.symm⟩⟩
      · rw [Option.filter_some_neg (by simpa using hover)] at hsends
        exact ⟨fun _ => hsends, fun hne => absurd hzero hne⟩

end Geneva
