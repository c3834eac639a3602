/-
The observations of a histogram point and those its message counts.

A message has the total count in its header and the counts of the buckets in the value-count
pairs behind its strings.  There is one count more than there are boundaries.

* `sum_exportedBuckets` — the pairs count what is below the last boundary, in 32 bits;
* `histogram_conserved_iff` — nothing is lost exactly when no observation is above the last
  boundary, and there are less than `2 ^ 32`.
-/
import OtelContrib.Geneva.Export
import OtelContrib.Geneva.RoundTrip

open ByteCodec

namespace Geneva

/-! ### What a message counts -/

/-- The total count in the header of a histogram's message. -/
def transmittedCount (data : List UInt8) : ℕ := leValue ((data.drop 8).take 4)

/-- The value-count pairs of a histogram's message, whose strings take `stringsLength` bytes. -/
def transmittedPairs (stringsLength : ℕ) (data : List UInt8) : Option (List (ℕ × ℕ)) :=
  -- the strings are followed by two bytes of padding
  match IfxMetricsBin.histogram
      (data.drop (kBinaryHeaderSize + kExternalPayloadSize + stringsLength + 2)) with
  | some (⟨0, 2, some (.valueCountPairs pairs)⟩, []) => some pairs.columns
  | _ => none

/-- All observations are in the pairs of a message and in its total count. -/
def Conserved (stringsLength : ℕ) (count : UInt64) (data : List UInt8) : Prop :=
  ∃ pairs, transmittedPairs stringsLength data = some pairs ∧
    (pairs.map Prod.snd).sum = transmittedCount data ∧ transmittedCount data = count.toNat

/-- The bytes that the strings of a point take. -/
def stringsLength (options : ExporterOptions) (name : List UInt8) (attributes : PointAttributes) :
    ℕ :=
  (stringBytes (strings options (ConnectionStringParser.ofString options.connectionString) name
    attributes)).length

/-! ### The pairs of a message -/

/-- The pair of a bucket. -/
def bucketPair (undefinedCast : Binary64 → UInt64) (bc : Binary64 × UInt64) : ℕ × ℕ :=
  ((bc.1.toUInt64 undefinedCast).toNat, bc.2.toUInt32.toNat)

/-- The distribution of the buckets that are exported. -/
def exportedPairs (undefinedCast : Binary64 → UInt64) (boundaries : List Binary64)
    (counts : List UInt64) : List (ℕ × ℕ) :=
  (exportedBuckets .ExternallyAggregatedUlongDistributionMetric boundaries counts).map
    (bucketPair undefinedCast)

section
variable {undefinedCast : Binary64 → UInt64} {options : ExporterOptions}
  {p : ConnectionStringParser} {count : UInt64} {sum min max : Int64}
  {boundaries : List Binary64} {counts : List UInt64} {ts : SystemTimestamp}
  {name : List UInt8} {attributes : PointAttributes}

theorem flatMap_bucketBytes (buckets : List (Binary64 × UInt64)) :
    buckets.flatMap (bucketBytes undefinedCast) =
      (buckets.map (bucketPair undefinedCast)).flatMap (IfxMetricsBin.pairBytes 8 4) := by
  rw [List.flatMap_map]
  rfl

/-- The count is the eighth to eleventh byte. -/
theorem transmittedCount_histogramMessage :
    transmittedCount (histogramMessage undefinedCast options p count sum min max boundaries counts
      ts name attributes) = count.toUInt32.toNat := by
  have hfront : ∀ bodyLength dimensions rest,
      ((leBytes 2 MetricsEventType.ExternallyAggregatedUlongDistributionMetric.toUInt16.toNat ++
        (leBytes 2 bodyLength ++ (leBytes 2 dimensions ++ (leBytes 2 0 ++
          (leBytes 4 count.toUInt32.toNat ++ rest))))).drop 8).take 4 =
        leBytes 4 count.toUInt32.toNat := fun _ _ _ => rfl
  rw [transmittedCount, histogramMessage, histogramHeader]
  simp only [List.append_assoc]
  rw [hfront, leValue_leBytes]
  exact Nat.mod_eq_of_lt count.toUInt32.toNat_lt

/-- Pairs of a message that fits are few enough to be counted in 16 bits. -/
theorem transmittedPairs_histogramMessage
    (hfits : (histogramMessage undefinedCast options p count sum min max boundaries counts ts name
      attributes).length ≤ kBufferSize) :
    transmittedPairs (stringBytes (strings options p name attributes)).length
        (histogramMessage undefinedCast options p count sum min max boundaries counts ts name
          attributes) =
      some (exportedPairs undefinedCast boundaries counts) := by
  have hvalid : IfxMetricsBin.Histogram.Valid
      (decodedDistribution (exportedPairs undefinedCast boundaries counts)) := by
    refine ⟨Nat.zero_lt_succ _, ?_, _, ⟨?_, rfl, fun q hq => ?_⟩, rfl⟩
    · show 2 < 256 ^ 1
      decide
    · rw [histogramMessage, List.length_append, length_histogramContent, kBufferSize] at hfits
      show ((exportedBuckets _ boundaries counts).map _).length < 256 ^ 2
      rw [List.length_map]
      omega
    · obtain ⟨bc, -, rfl⟩ := List.mem_map.mp hq
      exact ⟨(bc.1.toUInt64 undefinedCast).toNat_lt, bc.2.toUInt32.toNat_lt⟩
  have hread := IfxMetricsBin.histogram_inverts.read_append hvalid []
  rw [List.append_nil] at hread
  have hdrop : (histogramMessage undefinedCast options p count sum min max boundaries counts ts
      name attributes).drop (kBinaryHeaderSize + kExternalPayloadSize +
        (stringBytes (strings options p name attributes)).length + 2) =
      (decodedDistribution (exportedPairs undefinedCast boundaries counts)).bytes := by
    rw [histogramMessage, Nat.add_assoc, ← List.drop_drop,
      ← length_histogramHeader count sum min max ts _ _, List.drop_left, histogramContent,
      ← List.drop_drop, List.drop_left, flatMap_bucketBytes, decodedDistribution, exportedPairs,
      List.length_map]
    rfl
  rw [transmittedPairs, hdrop, hread]
  rfl

/-! ### Sums -/

/-- The pairs count what is below the last boundary, each in 32 bits. -/
theorem sum_exportedBuckets (undefinedCast : Binary64 → UInt64) (boundaries : List Binary64)
    (counts : List UInt64) :
    ((exportedPairs undefinedCast boundaries counts).map Prod.snd).sum =
      ((counts.take boundaries.length).map fun c => c.toUInt32.toNat).sum := by
  simp only [exportedPairs, exportedBuckets, if_true, List.map_map]
  induction boundaries generalizing counts with
  | nil => rfl
  | cons b boundaries ih =>
    cases counts with
    | nil => rfl
    | cons c counts =>
      rw [List.zip_cons_cons, List.length_cons, List.take_succ_cons, List.map_cons, List.sum_cons,
        ← ih counts]
      by_cases hc : 0 < c
      · rw [List.filter_cons_of_pos (by simpa using hc)]
        rfl
      · -- an empty bucket is skipped, and counts nothing
        obtain rfl : c = 0 := UInt64.le_zero_iff.mp (UInt64.not_lt.mp hc)
        rw [List.filter_cons_of_neg (by simp)]
        exact (Nat.zero_add _).symm

/-- Counts of less than `2 ^ 32` in all are not cut. -/
theorem sum_toUInt32 {counts : List UInt64} (h : (counts.map UInt64.toNat).sum < 2 ^ 32) :
    (counts.map fun c => c.toUInt32.toNat).sum = (counts.map UInt64.toNat).sum := by
  induction counts with
  | nil => rfl
  | cons c counts ih =>
    rw [List.map_cons, List.sum_cons] at h
    rw [List.map_cons, List.map_cons, List.sum_cons, List.sum_cons, ih (by omega),
      UInt64.toNat_toUInt32, Nat.mod_eq_of_lt (by omega)]

/-- What the buckets below the last boundary count is everything, and is not cut, exactly when
the last count is zero and the total has 32 bits. -/
theorem conserved_sums_iff {counts : List UInt64} {last total : UInt64}
    (hsum : ((counts ++ [last]).map UInt64.toNat).sum = total.toNat) :
    (counts.map fun c => c.toUInt32.toNat).sum = total.toUInt32.toNat ∧
        total.toUInt32.toNat = total.toNat ↔ last = 0 ∧ total.toNat < 2 ^ 32 := by
  rw [List.map_append, List.sum_append, List.map_singleton, List.sum_singleton] at hsum
  rw [UInt64.toNat_toUInt32, ← UInt64.toNat_inj]
  show _ ↔ last.toNat = 0 ∧ _
  constructor
  · rintro ⟨hpairs, htotal⟩
    have hlt : total.toNat < 2 ^ 32 := by omega
    have hcounts : (counts.map fun c => c.toUInt32.toNat).sum = (counts.map UInt64.toNat).sum :=
      sum_toUInt32 (by omega)
    exact ⟨by omega, hlt⟩
  · rintro ⟨hlast, hlt⟩
    have hcounts : (counts.map fun c => c.toUInt32.toNat).sum = (counts.map UInt64.toNat).sum :=
      sum_toUInt32 (by omega)
    exact ⟨by omega, Nat.mod_eq_of_lt hlt⟩

end

/-! ### One point -/

/-- A histogram point that is sent is sent as its whole message. -/
theorem histogram_message (casts : UndefinedCasts) (e : Exporter) (metricData : MetricData)
    (attributes : PointAttributes) (d : HistogramPointData) {message : Message}
    (hsent : (e.exportPoint casts metricData ⟨attributes, .histogram d⟩).2 = [message]) :
    message.data = histogramMessage casts.toUInt64 e.options
        (ConnectionStringParser.ofString e.options.connectionString) d.count (d.sum.toLong casts)
        (d.min.toLong casts) (d.max.toLong casts) d.boundaries d.counts metricData.endTs
        metricData.name attributes ∧
      message.data.length ≤ kBufferSize := by
  rw [exportPoint_sends, pointMessage, Option.toList_eq_singleton_iff,
    Option.filter_eq_some_iff] at hsent
  obtain ⟨hwhole, hfits⟩ := hsent
  obtain rfl := Option.some.inj hwhole
  exact ⟨rfl, of_decide_eq_true hfits⟩

/-- A histogram point whose message fits is sent. -/
theorem histogram_is_sent (casts : UndefinedCasts) (e : Exporter) (metricData : MetricData)
    (attributes : PointAttributes) (d : HistogramPointData)
    (hfits : (histogramMessage casts.toUInt64 e.options
        (ConnectionStringParser.ofString e.options.connectionString) d.count (d.sum.toLong casts)
        (d.min.toLong casts) (d.max.toLong casts) d.boundaries d.counts metricData.endTs
        metricData.name attributes).length ≤ kBufferSize) :
    ∃ message, (e.exportPoint casts metricData ⟨attributes, .histogram d⟩).2 = [message] := by
  rw [exportPoint_sends, pointMessage, wholeMessage, Option.filter_some_pos (by simpa using hfits)]
  exact ⟨_, rfl⟩

/-- **No observation of a histogram is lost**, for a point as the SDK makes it that is sent,
exactly when the bucket above the last boundary is empty and there are less than `2 ^ 32`. -/
theorem histogram_conserved_iff (casts : UndefinedCasts) (e : Exporter) (metricData : MetricData)
    (attributes : PointAttributes) (d : HistogramPointData)
    (hlength : d.counts.length = d.boundaries.length + 1)
    (hsum : (d.counts.map UInt64.toNat).sum = d.count.toNat) {message : Message}
    (hsent : (e.exportPoint casts metricData ⟨attributes, .histogram d⟩).2 = [message]) :
    Conserved (stringsLength e.options metricData.name attributes) d.count message.data ↔
      d.counts.getLast? = some 0 ∧ d.count.toNat < 2 ^ 32 := by
  obtain ⟨hdata, hfits⟩ := histogram_message casts e metricData attributes d hsent
  rw [hdata] at hfits ⊢
  -- all counts but the last have a boundary
  obtain ⟨counts, last, hcounts⟩ : ∃ counts last, d.counts = counts ++ [last] :=
    ⟨_, _, (List.dropLast_append_getLast (List.ne_nil_of_length_eq_add_one hlength)).symm⟩
  have hboundaries : d.boundaries.length = counts.length := by
    rw [hcounts, List.length_append, List.length_singleton] at hlength
    omega
  have htake : d.counts.take d.boundaries.length = counts := by
    rw [hcounts, hboundaries, List.take_left]
  rw [hcounts] at hsum
  rw [Conserved, stringsLength, transmittedPairs_histogramMessage hfits,
    transmittedCount_histogramMessage]
  simp only [Option.some.injEq, exists_eq_left', sum_exportedBuckets, htake]
  rw [conserved_sums_iff hsum, hcounts, List.getLast?_concat, Option.some.injEq]

/-- A point with two boundaries and no observation above them. -/
def samplePoint (overflow : UInt64) : HistogramPointData :=
  ⟨[.ofInt64 1, .ofInt64 10], .int64 5, .int64 1, .int64 3, [2, 1, overflow], 3 + overflow,
    by decide⟩

theorem histogram_conserved_sample :
    let e := sampleExporter (.singleton (ascii "k") (ascii "v")) 0
    let data : MetricData := ⟨ascii "m", ⟨0⟩, []⟩
    ∃ message, (e.exportPoint ⟨fun _ => 0, fun _ => 0⟩ data ⟨∅, .histogram (samplePoint 0)⟩).2 =
        [message] ∧
      (Conserved (stringsLength e.options data.name ∅) 3 message.data ↔
        (samplePoint 0).counts.getLast? = some 0 ∧ (samplePoint 0).count.toNat < 2 ^ 32) := by
  intro e data
  obtain ⟨message, hsent⟩ := histogram_is_sent ⟨fun _ => 0, fun _ => 0⟩ e data ∅ (samplePoint 0)
    (by decide +kernel)
  exact ⟨message, hsent, histogram_conserved_iff _ e data ∅ (samplePoint 0) rfl (by decide) hsent⟩

/-- Five observations above the last boundary are in the total count, and in no pair. -/
theorem histogram_overflow_is_lost :
    let e := sampleExporter (.singleton (ascii "k") (ascii "v")) 0
    let data : MetricData := ⟨ascii "m", ⟨0⟩, []⟩
    ∃ message, (e.exportPoint ⟨fun _ => 0, fun _ => 0⟩ data ⟨∅, .histogram (samplePoint 5)⟩).2 =
        [message] ∧
      transmittedCount message.data = 8 ∧
      transmittedPairs (stringsLength e.options data.name ∅) message.data =
        some [(1, 2), (10, 1)] ∧
      ¬Conserved (stringsLength e.options data.name ∅) 8 message.data := by
  intro e data
  obtain ⟨message, hsent⟩ := histogram_is_sent ⟨fun _ => 0, fun _ => 0⟩ e data ∅ (samplePoint 5)
    (by decide +kernel)
  obtain ⟨hdata, hfits⟩ := histogram_message _ e data ∅ (samplePoint 5) hsent
  have hcount : transmittedCount message.data = 8 :=
    (congrArg _ hdata).trans transmittedCount_histogramMessage
  have hpairs : transmittedPairs (stringsLength e.options data.name ∅) message.data =
      some [(1, 2), (10, 1)] := by
    rw [hdata] at hfits ⊢
    rw [stringsLength, transmittedPairs_histogramMessage hfits]
    decide +kernel
  refine ⟨message, hsent, hcount, hpairs, ?_⟩
  rintro ⟨pairs, hsome, hsum, -⟩
  rw [hpairs] at hsome
  obtain rfl := Option.some.inj hsome
  rw [hcount] at hsum
  exact absurd hsum (by decide)

end Geneva
