/-
Decoding what the Geneva serializers wrote.

The test server's reader gives back the fields of the point, and names and values
that pair up, exactly when no prepopulated dimension is kept in one of the two
lists and skipped in the other:

* `nonHistogram_roundtrip_iff` — sums and last values;
* `histogram_roundtrip_iff` — histograms;
* `sameFilter_of_shifted` — the argument behind both: a value list that is one
  filter's choice cannot pass for the other filter's.
-/
import OtelContrib.Geneva.IfxMetricsBin
import OtelContrib.Geneva.Wire

open BoundedWriter ByteCodec

namespace Geneva

/-! ### What a decoder should find -/

/-- The kept prepopulated dimensions and the exported attributes, each name with
its own value. -/
def pairedDimensions (options : ExporterOptions) (attributes : PointAttributes) :
    List (List UInt8 × List UInt8) :=
  (options.prepopulatedDimensions.entries.filter fun kv => kv.1.length ≤ kMaxDimensionNameSize) ++
    (exportedAttributes attributes).map fun kv => (kv.1, exportedValue kv.2)

/-- Whole seconds since the Unix epoch as ticks of 100 ns since 1601. -/
def expectedTicks (ts : SystemTimestamp) : ℕ :=
  (ts.timeSinceEpoch.toInt.toNat / 10 ^ 9 + 11644473600) * 10 ^ 7

/-- The loops over prepopulated names and over prepopulated values keep the same
entries. -/
def SameFilter (options : ExporterOptions) : Prop :=
  ∀ kv ∈ options.prepopulatedDimensions.entries,
    kv.1.length ≤ kMaxDimensionNameSize ↔ kv.2.length ≤ kMaxDimensionNameSize

/-- The fields every decoded message has. -/
structure DecodedFields (e : Exporter) (eventType : MetricsEventType) (bodyLength : ℕ)
    (metricName : List UInt8) (attributes : PointAttributes) (m : IfxMetricsBin.Message) :
    Prop where
  unread : m.unread = []
  lenBody : m.lenBody = bodyLength
  eventId : m.eventId = eventType.toUInt16.toNat
  account : m.body.metricAccount = selectedAccount e.connectionStringParser attributes
  namespace_ : m.body.metricNamespace = selectedNamespace e.connectionStringParser attributes
  name : m.body.metricName = metricName
  numDimensions : m.body.numDimensions = (pairedDimensions e.options attributes).length
  names : m.body.dimensionsNames = (pairedDimensions e.options attributes).map Prod.fst
  values : m.body.dimensionsValues = (pairedDimensions e.options attributes).map Prod.snd

theorem windowsTicks_toNat {ts : SystemTimestamp} (h : 0 ≤ ts.timeSinceEpoch) :
    (windowsTicks ts).toNat = expectedTicks ts := by
  have hnat : ts.timeSinceEpoch.toUInt64.toNat = ts.timeSinceEpoch.toInt.toNat :=
    Int64.toNat_toUInt64_of_le h
  have hlt : ts.timeSinceEpoch.toInt < 2 ^ 63 := ts.timeSinceEpoch.toInt_lt
  rw [windowsTicks, unixTimeToWindowsTicks, expectedTicks, SystemTimestamp.seconds,
    UInt64.toNat_mul, UInt64.toNat_add, UInt64.toNat_div, hnat]
  simp only [kSecondsToUnixTime, kWindowsTicksPerSecond, UInt64.reduceToNat]
  omega

/-! ### Paired and shifted dimensions -/

theorem dimensionNames_eq (options : ExporterOptions) (attributes : PointAttributes) :
    dimensionNames options attributes = (pairedDimensions options attributes).map Prod.fst := by
  rw [dimensionNames, pairedDimensions, List.map_append, List.map_map, prepopulatedNames]
  rfl

theorem SameFilter.dimensionValues_eq {options : ExporterOptions} (h : SameFilter options)
    (attributes : PointAttributes) :
    dimensionValues options attributes = (pairedDimensions options attributes).map Prod.snd := by
  have hfilter : (options.prepopulatedDimensions.entries.filter
      fun kv => kv.1.length ≤ kMaxDimensionNameSize) =
      options.prepopulatedDimensions.entries.filter
        fun kv => kv.2.length ≤ kMaxDimensionNameSize :=
    List.filter_congr fun kv hkv => decide_eq_decide.mpr (h kv hkv)
  rw [dimensionValues, pairedDimensions, hfilter, List.map_append, List.map_map,
    prepopulatedValues]
  rfl

/-- If the values that were written, read with the AutoPilot string behind them,
pass for the values of the kept dimensions, then both loops kept the same
entries: no written value is long, so no kept dimension has a long value, and
then only as many are kept as are written. -/
theorem sameFilter_of_shifted {options : ExporterOptions} {others : List (List UInt8)}
    {ap : Option (List UInt8)}
    (h : prepopulatedValues options ++ others ++ [[]] =
      (options.prepopulatedDimensions.entries.filter
        fun kv => kv.1.length ≤ kMaxDimensionNameSize).map Prod.snd ++ others ++ ap.toList) :
    SameFilter options := by
  rw [prepopulatedValues] at h
  rw [SameFilter]
  generalize options.prepopulatedDimensions.entries = entries at h ⊢
  -- no kept entry has a long value: none was written
  have hshort : ∀ kv ∈ entries, kv.1.length ≤ kMaxDimensionNameSize →
      kv.2.length ≤ kMaxDimensionNameSize := by
    have hcount := congrArg (List.countP fun s : List UInt8 => kMaxDimensionNameSize < s.length) h
    have hwritten : List.countP (fun s : List UInt8 => kMaxDimensionNameSize < s.length)
        ((entries.filter fun kv => kv.2.length ≤ kMaxDimensionNameSize).map Prod.snd) = 0 := by
      simp [List.countP_eq_zero]
    have hnil : List.countP (fun s : List UInt8 => kMaxDimensionNameSize < s.length) [[]] = 0 := rfl
    simp only [List.countP_append, hwritten, hnil] at hcount
    have hkept : List.countP (fun s : List UInt8 => kMaxDimensionNameSize < s.length)
        ((entries.filter fun kv => kv.1.length ≤ kMaxDimensionNameSize).map Prod.snd) = 0 := by
      omega
    intro kv hkv hname
    have := List.countP_eq_zero.mp hkept kv.2
      (List.mem_map_of_mem (List.mem_filter.mpr ⟨hkv, by simpa using hname⟩))
    simpa using this
  -- so the kept entries are among the written ones, and there are as many of them
  have hfilter : (entries.filter fun kv => kv.1.length ≤ kMaxDimensionNameSize) =
      (entries.filter fun kv => kv.2.length ≤ kMaxDimensionNameSize).filter
        fun kv => kv.1.length ≤ kMaxDimensionNameSize := by
    rw [List.filter_filter]
    refine List.filter_congr fun kv hkv => ?_
    by_cases hname : kv.1.length ≤ kMaxDimensionNameSize
    · simp [hname, hshort kv hkv hname]
    · simp [hname]
  have hlength := congrArg List.length h
  have hap : ap.toList.length ≤ 1 := by cases ap <;> simp
  rw [hfilter] at hlength
  simp only [List.length_append, List.length_map, List.length_cons, List.length_nil] at hlength
  have hle := List.length_filter_le (fun kv : List UInt8 × List UInt8 =>
    decide (kv.1.length ≤ kMaxDimensionNameSize))
    (entries.filter fun kv => kv.2.length ≤ kMaxDimensionNameSize)
  have hall := List.length_filter_eq_length_iff.mp (Nat.le_antisymm hle (by omega))
  refine fun kv hkv => ⟨hshort kv hkv, fun hvalue => ?_⟩
  have := hall kv (List.mem_filter.mpr ⟨hkv, by simpa using hvalue⟩)
  simpa using this

/-! ### Messages as the reader divides them -/

/-- A message by the sections of its body: value section, strings, and what follows
the AutoPilot length. -/
def sectionedMessage (e : Exporter) (eventType : MetricsEventType) (bodyLength : ℕ)
    (valueSection : List UInt8) (metricName : List UInt8) (attributes : PointAttributes)
    (tail : List UInt8) : List UInt8 :=
  leBytes 2 eventType.toUInt16.toNat ++ (leBytes 2 bodyLength ++
    (leBytes 2 (dimensionNames e.options attributes).length ++ (leBytes 2 0 ++ (valueSection ++
      (stringBytes (strings e.options e.connectionStringParser metricName attributes) ++
        (leBytes 2 0 ++ tail))))))

section
variable {e : Exporter} {eventType : MetricsEventType} {bodyLength : ℕ} {metricName : List UInt8}
  {attributes : PointAttributes}

/-- A message that decodes to the expected fields was written with matching filters. -/
theorem DecodedFields.sameFilter {m : IfxMetricsBin.Message} {valueSection tail : List UInt8}
    (h : DecodedFields e eventType bodyLength metricName attributes m)
    (hread : IfxMetricsBin.read (sectionedMessage e eventType bodyLength valueSection metricName
      attributes tail) = some (m, []))
    (hfits : (stringBytes (strings e.options e.connectionStringParser metricName
      attributes)).length ≤ kBufferSize)
    (hsections : m.body.Valid m.eventId →
      valueSection.length = (IfxMetricsBin.valueSectionBytes m.body.valueSection).length ∧
      m.body.histogram.elim [] IfxMetricsBin.Histogram.bytes = tail) :
    SameFilter e.options := by
  obtain ⟨⟨-, -, -, hvalid⟩, hbytes⟩ := (IfxMetricsBin.read_eq_some_iff h.unread).mp hread
  obtain ⟨hvalue, htail⟩ := hsections hvalid
  rw [m.body.bytes_eq, htail, sectionedMessage, ← List.append_assoc (stringBytes _)] at hbytes
  -- the fixed fields in front of the strings have the same sizes on both sides
  have htail₁ := (List.append_inj hbytes (by simp)).2
  have htail₂ := (List.append_inj htail₁ (by simp)).2
  have htail₃ := (List.append_inj htail₂ (by simp)).2
  have htail₄ := (List.append_inj htail₃ (by simp [hvalid.padding])).2
  have htail₅ := (List.append_inj htail₄ hvalue).2
  have hstrings := List.append_cancel_right htail₅
  have hlast : stringBytes (strings e.options e.connectionStringParser metricName attributes) ++
      leBytes 2 0 =
      (strings e.options e.connectionStringParser metricName attributes ++ [[]]).flatMap
        (lenStringBytes 2) := by
    rw [List.flatMap_append]
    rfl
  rw [hlast] at hstrings
  -- both sides are runs of strings with their lengths, and so the same strings
  have hlists := (lenString_inverts 2).flatMap_injective
    (fun s _ => lenStringBytes_ne_nil (by decide) s) (fun s hs => ?_) hvalid.length_lt hstrings
  · rw [IfxMetricsBin.Userdata.strings, h.account, h.namespace_, h.name, h.names, h.values,
      ← dimensionNames_eq, strings, List.append_assoc, List.append_assoc, List.append_assoc,
      List.append_assoc] at hlists
    -- account, namespace, name and dimension names are the same on both sides
    have hvalues := List.append_cancel_left (List.append_cancel_left hlists)
    rw [dimensionValues, pairedDimensions, List.map_append, List.map_map] at hvalues
    exact sameFilter_of_shifted hvalues
  · rcases List.mem_append.mp hs with hs | hs
    · exact length_strings_lt hfits s hs
    · rw [List.mem_singleton.mp hs]
      decide

/-- With matching filters the message decodes to the expected fields. -/
theorem SameFilter.decodes (h : SameFilter e.options) (eventType : MetricsEventType)
    (metricName : List UInt8) (attributes : PointAttributes)
    (valueSection : IfxMetricsBin.ValueSection) (histogram : Option IfxMetricsBin.Histogram)
    (hfits : (stringBytes (strings e.options e.connectionStringParser metricName
      attributes)).length ≤ kBufferSize)
    (hvalue : IfxMetricsBin.ValidValueSection eventType.toUInt16.toNat (some valueSection))
    (hhistogram : (∀ x ∈ histogram, x.Valid) ∧
      (IfxMetricsBin.isDistribution eventType.toUInt16.toNat = false → histogram = none))
    (hlt : bodyLength < 2 ^ 16)
    (hsize : bodyLength = 6 + valueSection.bytes.length +
      (stringBytes (strings e.options e.connectionStringParser metricName attributes)).length +
      (histogram.elim [] IfxMetricsBin.Histogram.bytes).length) :
    ∃ m, IfxMetricsBin.read (sectionedMessage e eventType bodyLength valueSection.bytes metricName
        attributes (histogram.elim [] IfxMetricsBin.Histogram.bytes)) = some (m, []) ∧
      DecodedFields e eventType bodyLength metricName attributes m ∧
      m.body.valueSection = some valueSection ∧ m.body.apContainer = some [] ∧
      m.body.histogram = histogram := by
  -- the message that was meant
  let m : IfxMetricsBin.Message :=
    { eventId := eventType.toUInt16.toNat
      lenBody := bodyLength
      body :=
        { numDimensions := (pairedDimensions e.options attributes).length
          padding := leBytes 2 0
          valueSection := some valueSection
          metricAccount := selectedAccount e.connectionStringParser attributes
          metricNamespace := selectedNamespace e.connectionStringParser attributes
          metricName := metricName
          dimensionsNames := (pairedDimensions e.options attributes).map Prod.fst
          dimensionsValues := (pairedDimensions e.options attributes).map Prod.snd
          apContainer := some []
          histogram := histogram }
      unread := [] }
  have hcount : (dimensionNames e.options attributes).length =
      (pairedDimensions e.options attributes).length := by
    rw [dimensionNames_eq, List.length_map]
  -- with one filter for both loops, names and values are those of the same pairs
  have hstrings : m.body.strings =
      strings e.options e.connectionStringParser metricName attributes ++ [[]] := by
    rw [strings, dimensionNames_eq, h.dimensionValues_eq]
    rfl
  have hbody : m.body.bytes = leBytes 2 (dimensionNames e.options attributes).length ++
      (leBytes 2 0 ++ (valueSection.bytes ++
        (stringBytes (strings e.options e.connectionStringParser metricName attributes) ++
          (leBytes 2 0 ++ histogram.elim [] IfxMetricsBin.Histogram.bytes)))) := by
    rw [m.body.bytes_eq, hstrings, List.flatMap_append, List.append_assoc (List.flatMap _ _),
      hcount]
    rfl
  have hshort : ∀ s ∈ m.body.strings, s.length < 256 ^ 2 := by
    rw [hstrings]
    intro s hs
    rcases List.mem_append.mp hs with hs | hs
    · exact length_strings_lt hfits s hs
    · rw [List.mem_singleton.mp hs]
      decide
  have hmem : ∀ s ∈ [m.body.metricAccount, m.body.metricNamespace, m.body.metricName] ++
      m.body.dimensionsNames ++ m.body.dimensionsValues, s.length < 256 ^ 2 :=
    fun s hs => hshort s (List.mem_append_left _ hs)
  -- it is valid, and its bytes are what was written
  refine ⟨m, (IfxMetricsBin.read_eq_some_iff rfl).mpr ⟨⟨?_, hlt, ?_, ?_⟩, ?_⟩,
    ⟨rfl, rfl, rfl, rfl, rfl, rfl, rfl, rfl, rfl⟩, rfl, rfl, rfl⟩
  · exact eventType.toUInt16.toNat_lt
  · rw [hbody]
    simp only [List.length_append, length_leBytes]
    show bodyLength = _
    omega
  · refine ⟨?_, rfl, hvalue, ?_, ?_, ?_, ⟨List.length_map _, ?_⟩, ⟨List.length_map _, ?_⟩, ?_,
      hhistogram, fun hnone => absurd hnone (by simp [m])⟩
    · show (pairedDimensions e.options attributes).length < 256 ^ 2
      rw [← hcount]
      exact length_dimensionNames_lt hfits
    · exact hmem _ (by simp)
    · exact hmem _ (by simp)
    · exact hmem _ (by simp)
    · exact fun s hs => hmem s (by simp [hs])
    · exact fun s hs => hmem s (by simp [hs])
    · rintro s ⟨⟩
      decide
  · rw [hbody]
    rfl

end

/-! ### Sums and last values -/

/-- The value section that carries a value. -/
def NonHistogramValue.decoded (padding : List UInt8) (ticks : ℕ) :
    NonHistogramValue → IfxMetricsBin.ValueSection
  | .Uint64Metric v => .singleUint64 ⟨padding, ticks, v.toUInt64.toNat⟩
  | .DoubleMetric v => .singleDouble ⟨padding, ticks, v⟩

/-- What a serializer left decodes to the fields of the point. -/
def DecodesNonHistogram (e : Exporter) (value : NonHistogramValue) (ts : SystemTimestamp)
    (metricName : List UInt8) (attributes : PointAttributes) (result : ℕ × Memory) : Prop :=
  ∃ m padding,
    IfxMetricsBin.read (result.2.take (result.1 + kBinaryHeaderSize)) = some (m, []) ∧
    DecodedFields e value.eventType result.1 metricName attributes m ∧
    m.body.valueSection = some (value.decoded padding (expectedTicks ts))

/-- The sections of a sum's or last value's message. -/
theorem nonHistogramMessage_sections (e : Exporter) (value : NonHistogramValue)
    (ts : SystemTimestamp) (metricName : List UInt8) (attributes : PointAttributes) :
    nonHistogramMessage e.options e.connectionStringParser value ts metricName attributes =
      sectionedMessage e value.eventType
        (kMetricPayloadSize +
          (nonHistogramContent e.options e.connectionStringParser metricName attributes).length)
        (value.decoded (leBytes 4 0) (windowsTicks ts).toNat).bytes metricName attributes [] := by
  rw [nonHistogramMessage, nonHistogramHeader, nonHistogramContent, sectionedMessage]
  cases value
  all_goals simp only [NonHistogramValue.decoded, IfxMetricsBin.ValueSection.bytes,
    IfxMetricsBin.SingleUint64Value.bytes, IfxMetricsBin.SingleDoubleValue.bytes,
    List.append_assoc, List.append_nil]
  all_goals rfl

theorem nonHistogramMessage_eq (e : Exporter) (value : NonHistogramValue) {ts : SystemTimestamp}
    (hts : 0 ≤ ts.timeSinceEpoch) (metricName : List UInt8) (attributes : PointAttributes) :
    nonHistogramMessage e.options e.connectionStringParser value ts metricName attributes =
      sectionedMessage e value.eventType
        (kMetricPayloadSize +
          (nonHistogramContent e.options e.connectionStringParser metricName attributes).length)
        (value.decoded (leBytes 4 0) (expectedTicks ts)).bytes metricName attributes [] := by
  rw [nonHistogramMessage_sections, windowsTicks_toNat hts]

theorem NonHistogramValue.valid_decoded (value : NonHistogramValue) {ticks : ℕ}
    (h : ticks < 256 ^ 8) :
    IfxMetricsBin.ValidValueSection value.eventType.toUInt16.toNat
      (some (value.decoded (leBytes 4 0) ticks)) := by
  cases value with
  | Uint64Metric v => exact ⟨_, ⟨rfl, h, v.toUInt64.toNat_lt⟩, rfl⟩
  | DoubleMetric v => exact ⟨_, ⟨rfl, h⟩, rfl⟩

theorem NonHistogramValue.length_decoded (value : NonHistogramValue) {padding : List UInt8}
    (ticks : ℕ) (h : padding.length = 4) : (value.decoded padding ticks).bytes.length = 20 := by
  cases value
  all_goals simp [decoded, IfxMetricsBin.ValueSection.bytes,
    IfxMetricsBin.SingleUint64Value.bytes, IfxMetricsBin.SingleDoubleValue.bytes, h]

theorem nonHistogram_sent {e : Exporter} {value : NonHistogramValue} {ts : SystemTimestamp}
    {metricName : List UInt8} {attributes : PointAttributes}
    (hsent : (e.serializeNonHistogramMetrics value ts metricName attributes).1 ≠ 0) :
    let result := e.serializeNonHistogramMetrics value ts metricName attributes
    result.2.take (result.1 + kBinaryHeaderSize) =
      nonHistogramMessage e.options e.connectionStringParser value ts metricName attributes ∧
    result.1 = kMetricPayloadSize +
      (nonHistogramContent e.options e.connectionStringParser metricName attributes).length ∧
    result.1 < 2 ^ 16 ∧
    (stringBytes (strings e.options e.connectionStringParser metricName attributes)).length ≤
      kBufferSize := by
  intro result
  have hstrings := length_stringBytes_le_nonHistogramContent e.options e.connectionStringParser
    metricName attributes
  have hlength : (nonHistogramMessage e.options e.connectionStringParser value ts metricName
      attributes).length = kBinaryHeaderSize + kMetricPayloadSize +
        (nonHistogramContent e.options e.connectionStringParser metricName attributes).length := by
    rw [nonHistogramMessage, List.length_append, length_nonHistogramHeader]
  -- a message that does not fit gives 0
  rcases serializeNonHistogramMetrics_carries e value ts metricName attributes with
    ⟨hfits, -, hresult, htake⟩ | ⟨-, hzero⟩
  · refine ⟨hresult ▸ htake, ?_, ?_, ?_⟩
    · show (e.serializeNonHistogramMetrics value ts metricName attributes).1 = _
      omega
    · show (e.serializeNonHistogramMetrics value ts metricName attributes).1 < _
      rw [kBufferSize] at hfits
      omega
    · rw [hlength] at hfits
      exact le_trans hstrings (by omega)
  · exact absurd hzero hsent

theorem DecodesNonHistogram.sameFilter {e : Exporter} {value : NonHistogramValue}
    {ts : SystemTimestamp} {metricName : List UInt8} {attributes : PointAttributes}
    (hts : 0 ≤ ts.timeSinceEpoch)
    (hsent : (e.serializeNonHistogramMetrics value ts metricName attributes).1 ≠ 0)
    (h : DecodesNonHistogram e value ts metricName attributes
      (e.serializeNonHistogramMetrics value ts metricName attributes)) :
    SameFilter e.options := by
  obtain ⟨m, padding, hread, hfields, hvalue⟩ := h
  obtain ⟨htake, hsize, -, hfits⟩ := nonHistogram_sent hsent
  rw [htake, nonHistogramMessage_eq e value hts, ← hsize] at hread
  refine hfields.sameFilter hread hfits fun hvalid => ?_
  -- a valid message of this type has its value behind four bytes of padding
  have hpadding : padding.length = 4 := by
    have hsection := hvalid.valueSection
    rw [hvalue, hfields.eventId] at hsection
    cases value with
    | Uint64Metric v =>
      obtain ⟨w, hw, heq⟩ := hsection
      cases heq
      exact hw.padding
    | DoubleMetric v =>
      obtain ⟨w, hw, heq⟩ := hsection
      cases heq
      exact hw.padding
  have hhistogram : m.body.histogram = none := by
    refine hvalid.histogram.2 ?_
    rw [hfields.eventId]
    cases value <;> rfl
  rw [hvalue, hhistogram, IfxMetricsBin.valueSectionBytes, Option.elim_some,
    value.length_decoded _ hpadding, value.length_decoded _ (length_leBytes 4 0)]
  exact ⟨rfl, rfl⟩

/-- **Decoding undoes encoding for sums and last values** exactly when the loops over
prepopulated names and values skip the same entries. -/
theorem nonHistogram_roundtrip_iff (e : Exporter) (value : NonHistogramValue)
    (ts : SystemTimestamp) (metricName : List UInt8) (attributes : PointAttributes)
    (hts : 0 ≤ ts.timeSinceEpoch)
    (hsent : (e.serializeNonHistogramMetrics value ts metricName attributes).1 ≠ 0) :
    DecodesNonHistogram e value ts metricName attributes
        (e.serializeNonHistogramMetrics value ts metricName attributes) ↔
      ∀ kv ∈ e.options.prepopulatedDimensions.entries,
        kv.1.length ≤ kMaxDimensionNameSize ↔ kv.2.length ≤ kMaxDimensionNameSize := by
  refine ⟨fun h => h.sameFilter hts hsent, fun h => ?_⟩
  obtain ⟨htake, hsize, hlt, hfits⟩ := nonHistogram_sent hsent
  have hfilter : SameFilter e.options := h
  have hticks : expectedTicks ts < 256 ^ 8 := by
    rw [← windowsTicks_toNat hts]
    exact (windowsTicks ts).toNat_lt
  -- the other direction: nothing stands in the way of the reader
  obtain ⟨m, hread, hfields, hvalue, -, -⟩ := hfilter.decodes value.eventType
    metricName attributes _ none hfits (value.valid_decoded hticks) ⟨by simp, fun _ => rfl⟩ hlt
    (by
      rw [hsize, value.length_decoded _ (length_leBytes 4 0), nonHistogramContent,
        List.length_append, length_leBytes]
      simp only [kMetricPayloadSize, Option.elim_none, List.length_nil]
      omega)
  refine ⟨m, leBytes 4 0, ?_, hfields, hvalue⟩
  rw [htake, nonHistogramMessage_eq e value hts, ← hsize]
  exact hread

theorem nonHistogram_roundtrip_sample :
    let e := sampleExporter (.singleton (ascii "k") (ascii "v")) 0
    let attributes : PointAttributes := .singleton (ascii "a") (.int 5)
    DecodesNonHistogram e (.Uint64Metric 7) ⟨0⟩ (ascii "m") attributes
      (e.serializeNonHistogramMetrics (.Uint64Metric 7) ⟨0⟩ (ascii "m") attributes) := by
  refine (nonHistogram_roundtrip_iff _ _ _ _ _ (by decide) ?_).mpr (by decide +kernel)
  exact (serializeNonHistogramMetrics_carries _ _ _ _ _).ne_zero (by decide +kernel)

/-- A prepopulated dimension with a value of 300 bytes is announced by its name and
sent without its value. -/
theorem nonHistogram_long_value_shifts :
    let e := sampleExporter (.singleton (ascii "k") (List.replicate 300 120)) 0
    let result := e.serializeNonHistogramMetrics (.Uint64Metric 7) ⟨0⟩ (ascii "m") ∅
    result.1 ≠ 0 ∧ ¬ DecodesNonHistogram e (.Uint64Metric 7) ⟨0⟩ (ascii "m") ∅ result := by
  intro e result
  have hsent : result.1 ≠ 0 :=
    (serializeNonHistogramMetrics_carries _ _ _ _ _).ne_zero (by decide +kernel)
  refine ⟨hsent, fun h => ?_⟩
  have hfilter := h.sameFilter (by decide) hsent
  exact absurd (hfilter (ascii "k", List.replicate 300 120) (List.mem_singleton_self _))
    (by decide +kernel)

/-! ### Histograms -/

/-- The boundaries are the natural numbers `naturals`. -/
def AreNaturals (boundaries : List Binary64) (naturals : List ℕ) : Prop :=
  List.Forall₂ (fun (d : Binary64) (n : ℕ) => d.isFinite ∧ d.value = n ∧ n < 2 ^ 64)
    boundaries naturals

theorem AreNaturals.lt_of_mem {boundaries : List Binary64} {naturals : List ℕ}
    (h : AreNaturals boundaries naturals) {n : ℕ} (hn : n ∈ naturals) : n < 2 ^ 64 := by
  induction h with
  | nil => simp at hn
  | cons hd _ ih =>
    rcases List.mem_cons.mp hn with rfl | hn
    · exact hd.2.2
    · exact ih hn

/-- The value-count pairs of a histogram: every boundary whose count is not zero. -/
def valueCountPairs (naturals : List ℕ) (counts : List UInt64) : List (ℕ × ℕ) :=
  ((naturals.zip counts).filter fun p => 0 < p.2).map fun p => (p.1, p.2.toNat)

/-- The arguments of `SerializeHistogramMetrics`. -/
structure HistogramArguments where
  count : UInt64
  sum : Int64
  min : Int64
  max : Int64
  boundaries : List Binary64
  counts : List UInt64

def Exporter.serializeHistogram (undefinedCast : Binary64 → UInt64) (e : Exporter)
    (p : HistogramArguments) (ts : SystemTimestamp) (metricName : List UInt8)
    (attributes : PointAttributes) : ℕ × Memory :=
  e.serializeHistogramMetrics undefinedCast .ExternallyAggregatedUlongDistributionMetric p.count
    p.sum p.min p.max p.boundaries p.counts ts metricName attributes

/-- The value section of a histogram. -/
def HistogramArguments.decoded (p : HistogramArguments) (ticks : ℕ) :
    IfxMetricsBin.ExtAggregatedUint64Value :=
  ⟨p.count.toNat, ticks, p.sum.toUInt64.toNat, p.min.toUInt64.toNat, p.max.toUInt64.toNat⟩

/-- The distribution of a histogram: version 0, type 2, and the counted pairs. -/
def decodedDistribution (pairs : List (ℕ × ℕ)) : IfxMetricsBin.Histogram :=
  ⟨0, 2, some (.valueCountPairs ⟨pairs.length, pairs⟩)⟩

/-- A distribution as it is written: version 0, type 2, and the counted buckets. -/
def distributionBytes (undefinedCast : Binary64 → UInt64) (p : HistogramArguments) : List UInt8 :=
  let buckets := exportedBuckets .ExternallyAggregatedUlongDistributionMetric p.boundaries p.counts
  leBytes 1 0 ++ (leBytes 1 2 ++ (leBytes 2 buckets.length ++
    buckets.flatMap (bucketBytes undefinedCast)))

/-- What the serializer left decodes to the fields of the histogram. -/
def DecodesHistogram (e : Exporter) (p : HistogramArguments) (naturals : List ℕ)
    (ts : SystemTimestamp) (metricName : List UInt8) (attributes : PointAttributes)
    (result : ℕ × Memory) : Prop :=
  ∃ m,
    IfxMetricsBin.read (result.2.take (result.1 + kBinaryHeaderSize)) = some (m, []) ∧
    DecodedFields e .ExternallyAggregatedUlongDistributionMetric result.1 metricName attributes m ∧
    m.body.valueSection = some (.extAggregatedUint64 (p.decoded (expectedTicks ts))) ∧
    m.body.apContainer = some [] ∧
    m.body.histogram = some (decodedDistribution (valueCountPairs naturals p.counts))

theorem exportedBuckets_bytes (undefinedCast : Binary64 → UInt64) {boundaries : List Binary64}
    {naturals : List ℕ} (h : AreNaturals boundaries naturals) {counts : List UInt64}
    (hcounts : ∀ c ∈ counts, c.toNat < 2 ^ 32) :
    let buckets := exportedBuckets .ExternallyAggregatedUlongDistributionMetric boundaries counts
    buckets.length = (valueCountPairs naturals counts).length ∧
    buckets.flatMap (bucketBytes undefinedCast) =
      (valueCountPairs naturals counts).flatMap (IfxMetricsBin.pairBytes 8 4) := by
  simp only [exportedBuckets, if_true, valueCountPairs]
  induction h generalizing counts with
  | nil => exact ⟨rfl, rfl⟩
  | @cons d n boundaries naturals hd _ ih =>
    rcases counts with _ | ⟨c, counts⟩
    · exact ⟨rfl, rfl⟩
    · obtain ⟨hlength, hbytes⟩ := ih fun c hc => hcounts c (List.mem_cons_of_mem _ hc)
      rw [List.zip_cons_cons, List.zip_cons_cons]
      by_cases hc : 0 < c
      · -- a boundary that is a natural number is cast to it, and the count is not cut
        have hcast := Binary64.toUInt64_of_value_eq undefinedCast hd.1 hd.2.1 hd.2.2
        have htrunc : c.toUInt32.toNat = c.toNat := by
          rw [UInt64.toNat_toUInt32]
          exact Nat.mod_eq_of_lt (hcounts c (List.mem_cons_self ..))
        rw [List.filter_cons_of_pos (by simpa using hc),
          List.filter_cons_of_pos (by simpa using hc), List.map_cons, List.length_cons,
          List.length_cons, List.flatMap_cons, List.flatMap_cons, hlength, hbytes]
        refine ⟨rfl, ?_⟩
        rw [bucketBytes, hcast, htrunc]
        rfl
      · rw [List.filter_cons_of_neg (by simpa using hc),
          List.filter_cons_of_neg (by simpa using hc)]
        exact ⟨hlength, hbytes⟩

/-- What the claims about a histogram assume of its numbers: counts of 32 bits, and
boundaries that are natural numbers of 64 bits. -/
structure HistogramArguments.Representable (p : HistogramArguments) (naturals : List ℕ) : Prop where
  count : p.count.toNat < 2 ^ 32
  counts : ∀ c ∈ p.counts, c.toNat < 2 ^ 32
  boundaries : AreNaturals p.boundaries naturals

theorem HistogramArguments.Representable.lt_of_mem {p : HistogramArguments} {naturals : List ℕ}
    (hp : p.Representable naturals) {q : ℕ × ℕ} (hq : q ∈ valueCountPairs naturals p.counts) :
    q.1 < 256 ^ 8 ∧ q.2 < 256 ^ 4 := by
  obtain ⟨⟨n, c⟩, hmem, rfl⟩ := List.mem_map.mp hq
  obtain ⟨hn, hc⟩ := List.of_mem_zip (List.mem_filter.mp hmem).1
  refine ⟨?_, hp.counts c hc⟩
  exact hp.boundaries.lt_of_mem hn

/-- The sections of a histogram's message, whatever its numbers are. -/
theorem histogramMessage_sections (undefinedCast : Binary64 → UInt64) (e : Exporter)
    (p : HistogramArguments) (ts : SystemTimestamp) (metricName : List UInt8)
    (attributes : PointAttributes) :
    histogramMessage undefinedCast e.options e.connectionStringParser p.count p.sum p.min p.max
        p.boundaries p.counts ts metricName attributes =
      sectionedMessage e .ExternallyAggregatedUlongDistributionMetric
        (kExternalPayloadSize + (histogramContent undefinedCast e.options e.connectionStringParser
          .ExternallyAggregatedUlongDistributionMetric p.boundaries p.counts metricName
          attributes).length)
        (IfxMetricsBin.ValueSection.extAggregatedUint64 ⟨p.count.toUInt32.toNat,
          (windowsTicks ts).toNat, p.sum.toUInt64.toNat, p.min.toUInt64.toNat,
          p.max.toUInt64.toNat⟩).bytes metricName attributes
        (distributionBytes undefinedCast p) := by
  rw [histogramMessage, sectionedMessage]
  simp only [histogramHeader, if_true, List.append_assoc, IfxMetricsBin.ValueSection.bytes,
    IfxMetricsBin.ExtAggregatedUint64Value.bytes]
  rfl

section
variable {undefinedCast : Binary64 → UInt64} {e : Exporter} {p : HistogramArguments}
  {naturals : List ℕ} {ts : SystemTimestamp} {metricName : List UInt8}
  {attributes : PointAttributes}

theorem distributionBytes_eq (hp : p.Representable naturals) :
    distributionBytes undefinedCast p =
      (decodedDistribution (valueCountPairs naturals p.counts)).bytes := by
  obtain ⟨hlength, hbytes⟩ := exportedBuckets_bytes undefinedCast hp.boundaries hp.counts
  rw [distributionBytes, hlength, hbytes]
  rfl

theorem histogramContent_eq (hp : p.Representable naturals) :
    histogramContent undefinedCast e.options e.connectionStringParser
        .ExternallyAggregatedUlongDistributionMetric p.boundaries p.counts metricName attributes =
      stringBytes (strings e.options e.connectionStringParser metricName attributes) ++
        (leBytes 2 0 ++ (decodedDistribution (valueCountPairs naturals p.counts)).bytes) := by
  have hbytes : distributionBytes undefinedCast p = _ := distributionBytes_eq hp
  rw [← hbytes]
  rfl

theorem histogramMessage_eq (hp : p.Representable naturals) (hts : 0 ≤ ts.timeSinceEpoch) :
    histogramMessage undefinedCast e.options e.connectionStringParser p.count p.sum p.min p.max
        p.boundaries p.counts ts metricName attributes =
      sectionedMessage e .ExternallyAggregatedUlongDistributionMetric
        (kExternalPayloadSize + (histogramContent undefinedCast e.options e.connectionStringParser
          .ExternallyAggregatedUlongDistributionMetric p.boundaries p.counts metricName
          attributes).length)
        (IfxMetricsBin.ValueSection.extAggregatedUint64 (p.decoded (expectedTicks ts))).bytes
        metricName attributes (decodedDistribution (valueCountPairs naturals p.counts)).bytes := by
  have hcount : p.count.toUInt32.toNat = p.count.toNat := by
    rw [UInt64.toNat_toUInt32]
    exact Nat.mod_eq_of_lt hp.count
  rw [histogramMessage_sections, distributionBytes_eq hp, hcount, windowsTicks_toNat hts]
  rfl

theorem histogram_sent
    (hsent : (e.serializeHistogram undefinedCast p ts metricName attributes).1 ≠ 0) :
    let result := e.serializeHistogram undefinedCast p ts metricName attributes
    result.2.take (result.1 + kBinaryHeaderSize) =
      histogramMessage undefinedCast e.options e.connectionStringParser p.count p.sum p.min p.max
        p.boundaries p.counts ts metricName attributes ∧
    result.1 = kExternalPayloadSize + (histogramContent undefinedCast e.options
      e.connectionStringParser .ExternallyAggregatedUlongDistributionMetric p.boundaries p.counts
      metricName attributes).length ∧
    result.1 < 2 ^ 16 ∧
    (stringBytes (strings e.options e.connectionStringParser metricName attributes)).length +
      12 * (exportedBuckets .ExternallyAggregatedUlongDistributionMetric p.boundaries
        p.counts).length ≤ kBufferSize := by
  intro result
  have hcontent := length_histogramContent undefinedCast e.options e.connectionStringParser
    .ExternallyAggregatedUlongDistributionMetric p.boundaries p.counts metricName attributes
  have hlength : (histogramMessage undefinedCast e.options e.connectionStringParser p.count p.sum
      p.min p.max p.boundaries p.counts ts metricName attributes).length =
        kBinaryHeaderSize + kExternalPayloadSize + (histogramContent undefinedCast e.options
          e.connectionStringParser .ExternallyAggregatedUlongDistributionMetric p.boundaries
          p.counts metricName attributes).length := by
    rw [histogramMessage, List.length_append, length_histogramHeader]
  rcases serializeHistogramMetrics_carries undefinedCast e p.count p.sum p.min p.max p.boundaries
    p.counts ts metricName attributes with ⟨hfits, -, hresult, htake⟩ | ⟨-, hzero⟩
  · refine ⟨hresult ▸ htake, ?_, ?_, ?_⟩
    · show (e.serializeHistogramMetrics undefinedCast _ _ _ _ _ _ _ _ _ _).1 = _
      omega
    · show (e.serializeHistogramMetrics undefinedCast _ _ _ _ _ _ _ _ _ _).1 < _
      rw [kBufferSize] at hfits
      omega
    · omega
  · exact absurd hzero hsent

theorem DecodesHistogram.sameFilter (hp : p.Representable naturals) (hts : 0 ≤ ts.timeSinceEpoch)
    (hsent : (e.serializeHistogram undefinedCast p ts metricName attributes).1 ≠ 0)
    (h : DecodesHistogram e p naturals ts metricName attributes
      (e.serializeHistogram undefinedCast p ts metricName attributes)) :
    SameFilter e.options := by
  obtain ⟨m, hread, hfields, hvalue, -, hhistogram⟩ := h
  obtain ⟨htake, hsize, -, hfits⟩ := histogram_sent hsent
  rw [htake, histogramMessage_eq hp hts, ← hsize] at hread
  refine hfields.sameFilter hread (by omega) fun _ => ?_
  rw [hvalue, hhistogram]
  exact ⟨rfl, rfl⟩

end

/-- **Decoding undoes encoding for histograms** exactly when the loops over
prepopulated names and values skip the same entries. -/
theorem histogram_roundtrip_iff (undefinedCast : Binary64 → UInt64) (e : Exporter)
    (p : HistogramArguments) (naturals : List ℕ) (ts : SystemTimestamp) (metricName : List UInt8)
    (attributes : PointAttributes) (hp : p.Representable naturals) (hts : 0 ≤ ts.timeSinceEpoch)
    (hsent : (e.serializeHistogram undefinedCast p ts metricName attributes).1 ≠ 0) :
    DecodesHistogram e p naturals ts metricName attributes
        (e.serializeHistogram undefinedCast p ts metricName attributes) ↔
      ∀ kv ∈ e.options.prepopulatedDimensions.entries,
        kv.1.length ≤ kMaxDimensionNameSize ↔ kv.2.length ≤ kMaxDimensionNameSize := by
  refine ⟨fun h => h.sameFilter hp hts hsent, fun h => ?_⟩
  obtain ⟨htake, hsize, hlt, hfits⟩ := histogram_sent hsent
  have hfilter : SameFilter e.options := h
  obtain ⟨hlength, -⟩ := exportedBuckets_bytes undefinedCast hp.boundaries hp.counts
  have hticks : expectedTicks ts < 256 ^ 8 := by
    rw [← windowsTicks_toNat hts]
    exact (windowsTicks ts).toNat_lt
  have hvalue : IfxMetricsBin.ExtAggregatedUint64Value.Valid (p.decoded (expectedTicks ts)) :=
    ⟨hp.count, hticks, p.sum.toUInt64.toNat_lt, p.min.toUInt64.toNat_lt, p.max.toUInt64.toNat_lt⟩
  -- pairs of a message that fits are few enough to be counted in 16 bits
  have hpairs : IfxMetricsBin.Histogram.Valid
      (decodedDistribution (valueCountPairs naturals p.counts)) := by
    refine ⟨Nat.zero_lt_succ _, ?_, _, ⟨?_, rfl, fun q hq => ?_⟩, rfl⟩
    · show 2 < 256 ^ 1
      decide
    · show (valueCountPairs naturals p.counts).length < 256 ^ 2
      rw [kBufferSize] at hfits
      omega
    · exact hp.lt_of_mem hq
  have hsizes : (e.serializeHistogram undefinedCast p ts metricName attributes).1 =
      6 + (IfxMetricsBin.ValueSection.extAggregatedUint64
        (p.decoded (expectedTicks ts))).bytes.length +
      (stringBytes (strings e.options e.connectionStringParser metricName attributes)).length +
      (decodedDistribution (valueCountPairs naturals p.counts)).bytes.length := by
    rw [hsize, histogramContent_eq hp]
    simp only [IfxMetricsBin.ValueSection.bytes, IfxMetricsBin.ExtAggregatedUint64Value.bytes,
      List.length_append, length_leBytes, kExternalPayloadSize]
    omega
  obtain ⟨m, hread, hfields, hsection, hap, hhistogram⟩ := hfilter.decodes
    .ExternallyAggregatedUlongDistributionMetric metricName attributes
    (.extAggregatedUint64 (p.decoded (expectedTicks ts)))
    (some (decodedDistribution (valueCountPairs naturals p.counts))) (by omega) ⟨_, hvalue, rfl⟩
    ⟨by rintro x ⟨⟩; exact hpairs, fun hnot => absurd hnot (by decide)⟩ hlt hsizes
  refine ⟨m, ?_, hfields, hsection, hap, hhistogram⟩
  rw [htake, histogramMessage_eq hp hts, ← hsize]
  exact hread

/-- Two boundaries, one of them with a count. -/
def sampleHistogram : HistogramArguments :=
  ⟨3, 5, 1, 3, [.ofInt64 1, .ofInt64 10], [2, 0, 1]⟩

theorem sampleHistogram_representable : sampleHistogram.Representable [1, 10] where
  count := by decide
  counts := by simp [sampleHistogram]
  boundaries := .cons (by decide +kernel) (.cons (by decide +kernel) .nil)

theorem histogram_roundtrip_sample :
    let e := sampleExporter (.singleton (ascii "k") (ascii "v")) 0
    let attributes : PointAttributes := .singleton (ascii "a") (.int 5)
    DecodesHistogram e sampleHistogram [1, 10] ⟨0⟩ (ascii "m") attributes
      (e.serializeHistogram (fun _ => 0) sampleHistogram ⟨0⟩ (ascii "m") attributes) := by
  refine (histogram_roundtrip_iff _ _ _ _ _ _ _ sampleHistogram_representable (by decide) ?_).mpr
    (by decide +kernel)
  exact (serializeHistogramMetrics_carries _ _ _ _ _ _ _ _ _ _ _).ne_zero (by decide +kernel)

theorem histogram_long_value_shifts :
    let e := sampleExporter (.singleton (ascii "k") (List.replicate 300 120)) 0
    let result := e.serializeHistogram (fun _ => 0) sampleHistogram ⟨0⟩ (ascii "m") ∅
    result.1 ≠ 0 ∧ ¬ DecodesHistogram e sampleHistogram [1, 10] ⟨0⟩ (ascii "m") ∅ result := by
  intro e result
  have hsent : result.1 ≠ 0 :=
    (serializeHistogramMetrics_carries _ _ _ _ _ _ _ _ _ _ _).ne_zero (by decide +kernel)
  refine ⟨hsent, fun h => ?_⟩
  have hfilter := h.sameFilter sampleHistogram_representable (by decide) hsent
  exact absurd (hfilter (ascii "k", List.replicate 300 120) (List.mem_singleton_self _))
    (by decide +kernel)

end Geneva
