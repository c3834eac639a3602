/-
What the Geneva serializers write, as byte strings.

The serializers of `Exporter.lean` refine a pure description of the message: a
header of fixed size followed by a content of length-prefixed strings (and, for
a histogram, the buckets).  The description mentions neither a buffer nor an
index.

* `dimensionNames`, `dimensionValues` — what the four loops over dimensions
  select;
* `serializeNonHistogramContent_emits`, `serializeHistogramContent_emits` — the
  contents are written in full, or the serializer aborts;
* `serializeNonHistogramMetrics_run`, `serializeHistogramMetrics_run` — the runs of
  the two serializers, header included;
* `serializeNonHistogramMetrics_carries`, `serializeHistogramMetrics_carries` —
  what a caller finds in the buffer.
-/
import OtelContrib.Geneva.Exporter

open BoundedWriter BoundedWriter.Serializer ByteCodec

namespace Geneva

/-! ### What the loops select -/

def exportedAttributes (attributes : PointAttributes) :
    List (List UInt8 × OwnedAttributeValue) :=
  attributes.entries.filter fun kv =>
    kv.1.length ≤ kMaxDimensionNameSize ∧
      ¬ (kv.1 = kAttributeAccountKey ∨ kv.1 = kAttributeNamespaceKey)

/-- The exported form of an attribute's value. -/
def exportedValue (v : OwnedAttributeValue) : List UInt8 :=
  (attributeValueToString v).take kMaxDimensionValueSize

def prepopulatedNames (options : ExporterOptions) : List (List UInt8) :=
  (options.prepopulatedDimensions.entries.filter
    fun kv => kv.1.length ≤ kMaxDimensionNameSize).map Prod.fst

/-- The prepopulated values that are written: those of the entries whose value
is short enough. -/
def prepopulatedValues (options : ExporterOptions) : List (List UInt8) :=
  (options.prepopulatedDimensions.entries.filter
    fun kv => kv.2.length ≤ kMaxDimensionNameSize).map Prod.snd

def dimensionNames (options : ExporterOptions) (attributes : PointAttributes) :
    List (List UInt8) :=
  prepopulatedNames options ++ (exportedAttributes attributes).map Prod.fst

def dimensionValues (options : ExporterOptions) (attributes : PointAttributes) :
    List (List UInt8) :=
  prepopulatedValues options ++ (exportedAttributes attributes).map fun kv => exportedValue kv.2

/-- Account and namespace: the attributes that override them, else those of the
connection string. -/
def selectedAccount (p : ConnectionStringParser) (attributes : PointAttributes) : List UInt8 :=
  (attributes.find? kAttributeAccountKey).elim p.account attributeValueToString

def selectedNamespace (p : ConnectionStringParser) (attributes : PointAttributes) : List UInt8 :=
  (attributes.find? kAttributeNamespaceKey).elim p.namespace_ attributeValueToString

/-- All strings of a message, in the order they are written. -/
def strings (options : ExporterOptions) (p : ConnectionStringParser) (metricName : List UInt8)
    (attributes : PointAttributes) : List (List UInt8) :=
  [selectedAccount p attributes, selectedNamespace p attributes, metricName] ++
    dimensionNames options attributes ++ dimensionValues options attributes

/-- The bytes of length-prefixed strings. -/
def stringBytes (ss : List (List UInt8)) : List UInt8 := ss.flatMap (lenStringBytes 2)

@[simp] theorem stringBytes_nil : stringBytes [] = [] := rfl

@[simp] theorem stringBytes_cons (s : List UInt8) (ss : List (List UInt8)) :
    stringBytes (s :: ss) = lenStringBytes 2 s ++ stringBytes ss := rfl

@[simp] theorem stringBytes_append (ss ts : List (List UInt8)) :
    stringBytes (ss ++ ts) = stringBytes ss ++ stringBytes ts := List.flatMap_append

theorem two_mul_length_le (ss : List (List UInt8)) : 2 * ss.length ≤ (stringBytes ss).length := by
  induction ss with
  | nil => simp
  | cons s ss ih =>
    rw [stringBytes_cons, List.length_append, length_lenStringBytes, List.length_cons]
    omega

theorem length_lt_of_mem {ss : List (List UInt8)} {s : List UInt8} (hs : s ∈ ss) :
    s.length + 2 ≤ (stringBytes ss).length := by
  obtain ⟨before, after, rfl⟩ := List.append_of_mem hs
  simp only [stringBytes_append, stringBytes_cons, List.length_append, length_lenStringBytes]
  omega

/-! ### Fields -/

theorem serializeInt_emits (n v : ℕ) :
    Emits kBufferSize (serializeInt n v) (leBytes n v) () := by
  refine emits_of_check (fun w hw => ?_) (fun w hover => ?_)
  · rw [length_leBytes] at hw
    refine ⟨_, ?_, append_appends (leBytes n v) w⟩
    rw [serializeInt, bind_apply_some (show getIndex w = (some w.index, w) from rfl),
      if_neg (by omega)]
    rfl
  · rw [length_leBytes] at hover
    rw [serializeInt, bind_apply_some (show getIndex w = (some w.index, w) from rfl),
      if_pos (by omega)]
    rfl

theorem append_writes (cap : ℕ) (bytes : List UInt8) : Writes cap (append bytes) bytes () :=
  fun w _ => ⟨_, rfl, append_appends bytes w⟩

theorem serializeString_emits (s : List UInt8) :
    Emits kBufferSize (serializeString s) (lenStringBytes 2 s) () := by
  refine emits_of_check (fun w hw => ?_) (fun w hover => ?_)
  · -- a string that fits the buffer has a length of 16 bits
    have hsize : (UInt16.ofNat s.length).toNat = s.length := by
      rw [length_lenStringBytes, kBufferSize] at hw
      rw [UInt16.toNat_ofNat']
      omega
    have htail : Writes kBufferSize (if s.length > 0 then append s else pure ()) s () := by
      by_cases hs : s.length > 0
      · rw [if_pos hs]
        exact append_writes kBufferSize s
      · have hnil : s = [] := List.length_eq_zero_iff.mp (by omega)
        rw [if_neg hs, hnil]
        exact Writes.pure ()
    have hlength := (serializeInt_emits 2 (UInt16.ofNat s.length).toNat).writes.attempt
    rw [hsize] at hlength
    obtain ⟨w', hop, happ⟩ := (hlength.bind (f := fun _ => _) htail) w hw
    refine ⟨w', ?_, happ⟩
    rw [length_lenStringBytes] at hw
    rw [serializeString, bind_apply_some (show getIndex w = (some w.index, w) from rfl),
      if_neg (by omega), hsize]
    exact hop
  · rw [length_lenStringBytes] at hover
    rw [serializeString, bind_apply_some (show getIndex w = (some w.index, w) from rfl),
      if_pos (by omega)]
    rfl

/-! ### Loops -/

theorem iterate_succ_eq (k : ℕ) (n : UInt16) : (· + 1)^[k] n = n + UInt16.ofNat k := by
  induction k generalizing n with
  | zero => simp
  | succ k ih =>
    rw [Function.iterate_succ_apply, ih, UInt16.ofNat_add, UInt16.add_assoc,
      UInt16.add_comm (UInt16.ofNat k)]
    rfl

/-- Writing a name after counting it. -/
theorem countedString_emits (s : List UInt8) (n : UInt16) :
    Emits kBufferSize (serializeString s >>= fun _ => pure (n + 1)) (lenStringBytes 2 s)
      (n + 1) := by
  have h := (serializeString_emits s).bind (f := fun _ => pure (n + 1)) (Emits.pure (n + 1))
  rwa [List.append_nil] at h

theorem serializePrepopulatedNames_emits (options : ExporterOptions) (n : UInt16) :
    Emits kBufferSize (serializePrepopulatedNames options n)
      (stringBytes (prepopulatedNames options))
      (n + UInt16.ofNat (prepopulatedNames options).length) := by
  rw [← iterate_succ_eq, prepopulatedNames, List.length_map]
  refine Emits.foldlM_filter _ Prod.fst _ (fun n kv hkv => ?_) (fun n kv hkv => ?_) _ n
  · simp only [if_neg (not_lt.mpr hkv)]
    exact countedString_emits kv.1 n
  · simp only [if_pos (not_le.mp hkv)]
    exact Emits.pure n

theorem serializeAttributeNames_emits (attributes : PointAttributes) (n : UInt16) :
    Emits kBufferSize (serializeAttributeNames attributes n)
      (stringBytes ((exportedAttributes attributes).map Prod.fst))
      (n + UInt16.ofNat (exportedAttributes attributes).length) := by
  rw [← iterate_succ_eq, exportedAttributes]
  refine Emits.foldlM_filter _ Prod.fst _ (fun n kv hkv => ?_) (fun n kv hkv => ?_) _ n
  · simp only [if_neg (not_lt.mpr hkv.1), if_neg hkv.2]
    exact countedString_emits kv.1 n
  · -- a skipped attribute has a long name or is one of the reserved ones
    by_cases hlen : kv.1.length ≤ kMaxDimensionNameSize
    · simp only [if_neg (not_lt.mpr hlen), if_pos (not_not.mp (not_and.mp hkv hlen))]
      exact Emits.pure n
    · simp only [if_pos (not_le.mp hlen)]
      exact Emits.pure n

theorem serializePrepopulatedValues_emits (options : ExporterOptions) :
    Emits kBufferSize (serializePrepopulatedValues options)
      (stringBytes (prepopulatedValues options)) () := by
  refine Emits.forM_filter _ Prod.snd _ (fun kv hkv => ?_) (fun kv hkv => ?_) _
  · simp only [if_neg (not_lt.mpr hkv)]
    exact serializeString_emits kv.2
  · simp only [if_pos (not_le.mp hkv)]
    exact Emits.pure ()

theorem serializeAttributeValues_emits (attributes : PointAttributes) :
    Emits kBufferSize (serializeAttributeValues attributes)
      (stringBytes ((exportedAttributes attributes).map fun kv => exportedValue kv.2)) () := by
  have htruncate : ∀ v : List UInt8,
      (if v.length > kMaxDimensionValueSize then v.take kMaxDimensionValueSize else v) =
        v.take kMaxDimensionValueSize := by
    intro v
    by_cases hv : v.length > kMaxDimensionValueSize
    · rw [if_pos hv]
    · rw [if_neg hv, List.take_of_length_le (not_lt.mp hv)]
  refine Emits.forM_filter _ (fun kv : List UInt8 × OwnedAttributeValue => exportedValue kv.2)
    _ (fun kv hkv => ?_)
    (fun kv hkv => ?_) _
  · simp only [if_neg (not_lt.mpr hkv.1), if_neg hkv.2, htruncate]
    exact serializeString_emits (exportedValue kv.2)
  · -- the same two checks as in the loop over names
    by_cases hlen : kv.1.length ≤ kMaxDimensionNameSize
    · simp only [if_neg (not_lt.mpr hlen), if_pos (not_not.mp (not_and.mp hkv hlen))]
      exact Emits.pure ()
    · simp only [if_pos (not_le.mp hlen)]
      exact Emits.pure ()

/-! ### Account and namespace -/

theorem accountKey_ne_namespaceKey : kAttributeAccountKey ≠ kAttributeNamespaceKey := by
  decide

theorem accountAndNamespace_eq (p : ConnectionStringParser) (attributes : PointAttributes) :
    accountAndNamespace p attributes =
      (selectedAccount p attributes, selectedNamespace p attributes) := by
  rw [selectedAccount, selectedNamespace, ← OrderedMap.foldl_select,
    ← OrderedMap.foldl_select, accountAndNamespace]
  -- the one loop over two variables is two loops over one each
  generalize p.account = account, p.namespace_ = namespace_
  induction attributes.entries generalizing account namespace_ with
  | nil => rfl
  | cons kv entries ih =>
    simp only [List.foldl_cons]
    by_cases haccount : kv.1 = kAttributeAccountKey
    · have hnamespace : kv.1 ≠ kAttributeNamespaceKey := by
        rw [haccount]
        exact accountKey_ne_namespaceKey
      rw [if_pos haccount, if_pos haccount, if_neg hnamespace, ih]
    · by_cases hnamespace : kv.1 = kAttributeNamespaceKey
      · rw [if_neg haccount, if_neg haccount, if_pos hnamespace, if_pos hnamespace, ih]
      · rw [if_neg haccount, if_neg haccount, if_neg hnamespace, if_neg hnamespace, ih]

/-! ### Non-histogram messages -/

theorem serializeDimensions_emits (options : ExporterOptions) (p : ConnectionStringParser)
    (metricName : List UInt8) (attributes : PointAttributes) :
    Emits kBufferSize (serializeDimensions options p metricName attributes)
      (stringBytes (strings options p metricName attributes))
      (UInt16.ofNat (dimensionNames options attributes).length) := by
  have hcount : UInt16.ofNat (dimensionNames options attributes).length =
      0 + UInt16.ofNat (prepopulatedNames options).length +
        UInt16.ofNat (exportedAttributes attributes).length := by
    rw [dimensionNames, List.length_append, List.length_map, UInt16.ofNat_add, UInt16.zero_add]
  have hbytes : stringBytes (strings options p metricName attributes) =
      lenStringBytes 2 (selectedAccount p attributes) ++
        (lenStringBytes 2 (selectedNamespace p attributes) ++
          (lenStringBytes 2 metricName ++
            (stringBytes (prepopulatedNames options) ++
              (stringBytes ((exportedAttributes attributes).map Prod.fst) ++
                (stringBytes (prepopulatedValues options) ++
                  (stringBytes ((exportedAttributes attributes).map
                    fun kv => exportedValue kv.2) ++ [])))))) := by
    simp only [strings, dimensionNames, dimensionValues, stringBytes_append, stringBytes_cons,
      List.append_assoc, List.append_nil, List.nil_append, List.cons_append]
  rw [serializeDimensions, accountAndNamespace_eq, hbytes, hcount]
  refine (serializeString_emits _).bind ((serializeString_emits _).bind
    ((serializeString_emits _).bind ?_))
  -- all names come before all values
  refine (serializePrepopulatedNames_emits options 0).bind
    ((serializeAttributeNames_emits attributes _).bind ?_)
  exact (serializePrepopulatedValues_emits options).bind
    ((serializeAttributeValues_emits attributes).bind (Emits.pure _))

/-- The content of a non-histogram message. -/
def nonHistogramContent (options : ExporterOptions) (p : ConnectionStringParser)
    (metricName : List UInt8) (attributes : PointAttributes) : List UInt8 :=
  stringBytes (strings options p metricName attributes) ++ leBytes 2 0

theorem serializeNonHistogramContent_emits (options : ExporterOptions)
    (p : ConnectionStringParser) (metricName : List UInt8) (attributes : PointAttributes) :
    Emits kBufferSize (serializeNonHistogramContent options p metricName attributes)
      (nonHistogramContent options p metricName attributes)
      (UInt16.ofNat (dimensionNames options attributes).length) := by
  rw [nonHistogramContent, ← List.append_nil (leBytes 2 0)]
  exact (serializeDimensions_emits options p metricName attributes).bind
    ((serializeInt_emits 2 0).bind (Emits.pure _))

theorem length_stringBytes_le_nonHistogramContent (options : ExporterOptions)
    (p : ConnectionStringParser) (metricName : List UInt8) (attributes : PointAttributes) :
    (stringBytes (strings options p metricName attributes)).length ≤
      (nonHistogramContent options p metricName attributes).length := by
  rw [nonHistogramContent, List.length_append]
  omega

/-- Header and fixed payload of a non-histogram message. -/
def nonHistogramHeader (value : NonHistogramValue) (ts : SystemTimestamp)
    (bodyLength attributesSize : ℕ) : List UInt8 :=
  leBytes 2 value.eventType.toUInt16.toNat ++ (leBytes 2 bodyLength ++
    (leBytes 2 attributesSize ++ (leBytes 2 0 ++ (leBytes 4 0 ++
      (leBytes 8 (windowsTicks ts).toNat ++ leBytes 8 value.bits.toNat)))))

@[simp] theorem length_nonHistogramHeader (value : NonHistogramValue) (ts : SystemTimestamp)
    (bodyLength attributesSize : ℕ) :
    (nonHistogramHeader value ts bodyLength attributesSize).length =
      kBinaryHeaderSize + kMetricPayloadSize := by
  simp only [nonHistogramHeader, List.length_append, length_leBytes]
  rfl

theorem attemptInt_writes (n v : ℕ) :
    Writes kBufferSize (serializeInt n v).attempt (leBytes n v) () :=
  (serializeInt_emits n v).writes.attempt

theorem serializeNonHistogramHeader_writes (value : NonHistogramValue) (ts : SystemTimestamp)
    (bodyLength attributesSize : UInt16) :
    Writes kBufferSize (serializeNonHistogramHeader value ts bodyLength attributesSize)
      (nonHistogramHeader value ts bodyLength.toNat attributesSize.toNat) () :=
  (attemptInt_writes _ _).bind ((attemptInt_writes _ _).bind ((attemptInt_writes _ _).bind
    ((attemptInt_writes _ _).bind ((attemptInt_writes _ _).bind ((attemptInt_writes _ _).bind
      (attemptInt_writes _ _))))))

/-- The whole message of a sum or last value. -/
def nonHistogramMessage (options : ExporterOptions) (p : ConnectionStringParser)
    (value : NonHistogramValue) (ts : SystemTimestamp) (metricName : List UInt8)
    (attributes : PointAttributes) : List UInt8 :=
  nonHistogramHeader value ts
      (kMetricPayloadSize + (nonHistogramContent options p metricName attributes).length)
      (dimensionNames options attributes).length ++
    nonHistogramContent options p metricName attributes

/-! ### Histogram messages -/

/-- The buckets that are exported: boundary and count, where the count is there
and not zero. -/
def exportedBuckets (eventType : MetricsEventType) (boundaries : List Binary64)
    (counts : List UInt64) : List (Binary64 × UInt64) :=
  if eventType = .ExternallyAggregatedUlongDistributionMetric then
    (boundaries.zip counts).filter fun bc => 0 < bc.2
  else []

section
variable (undefinedCast : Binary64 → UInt64)

/-- The bytes of one value-count pair. -/
def bucketBytes (bc : Binary64 × UInt64) : List UInt8 :=
  leBytes 8 (bc.1.toUInt64 undefinedCast).toNat ++ leBytes 4 bc.2.toUInt32.toNat

@[simp] theorem length_bucketBytes (bc : Binary64 × UInt64) :
    (bucketBytes undefinedCast bc).length = 12 := by
  simp [bucketBytes]

end

/-- The buckets an indexed loop selects, from boundary `k` on. -/
theorem zipIdx_filter_eq (boundaries : List Binary64) (counts : List UInt64) (k : ℕ) :
    ((boundaries.zipIdx k).filter fun bi => bi.2 < counts.length ∧ counts.getD bi.2 0 > 0).map
        (fun bi => (bi.1, counts.getD bi.2 0)) =
      (boundaries.zip (counts.drop k)).filter fun bc => 0 < bc.2 := by
  induction boundaries generalizing k with
  | nil => rfl
  | cons b boundaries ih =>
    rw [List.zipIdx_cons]
    by_cases hk : k < counts.length
    · have hdrop : counts.drop k = counts.getD k 0 :: counts.drop (k + 1) := by
        rw [List.drop_eq_getElem_cons hk, List.getD_eq_getElem?_getD, List.getElem?_eq_getElem hk]
        rfl
      rw [hdrop, List.zip_cons_cons]
      by_cases hc : 0 < counts.getD k 0
      · rw [List.filter_cons_of_pos (by simpa using ⟨hk, hc⟩),
          List.filter_cons_of_pos (by simpa using hc), List.map_cons, ih]
      · rw [List.filter_cons_of_neg (by simp only [gt_iff_lt, hc, and_false, decide_false,
            Bool.false_eq_true, not_false_eq_true]),
          List.filter_cons_of_neg (by simpa using hc), ih]
    · -- there are more boundaries than counts
      have hdrop : counts.drop k = [] := List.drop_eq_nil_of_le (by omega)
      have hdrop' : counts.drop (k + 1) = [] := List.drop_eq_nil_of_le (by omega)
      rw [List.filter_cons_of_neg (by simp [hk]), ih, hdrop, hdrop', List.zip_nil_right,
        List.zip_nil_right]

section
variable (undefinedCast : Binary64 → UInt64)

theorem serializeBuckets_emits (eventType : MetricsEventType) (boundaries : List Binary64)
    (counts : List UInt64) :
    Emits kBufferSize (serializeBuckets undefinedCast eventType boundaries counts)
      ((exportedBuckets eventType boundaries counts).flatMap (bucketBytes undefinedCast))
      (UInt16.ofNat (exportedBuckets eventType boundaries counts).length) := by
  rw [serializeBuckets, exportedBuckets]
  by_cases htype : eventType = .ExternallyAggregatedUlongDistributionMetric
  · have hzip := zipIdx_filter_eq boundaries counts 0
    rw [List.drop_zero] at hzip
    rw [if_pos htype, if_pos htype, ← hzip, List.length_map,
      ← UInt16.zero_add (UInt16.ofNat _), ← iterate_succ_eq]
    refine Emits.foldlM_filter _ (fun bi : Binary64 × ℕ => (bi.1, counts.getD bi.2 0)) _
      (fun n bi hbi => ?_) (fun n bi hbi => ?_) _ 0
    · simp only [if_pos hbi]
      have h := (serializeInt_emits 8 (bi.1.toUInt64 undefinedCast).toNat).bind
        (f := fun _ => _) ((serializeInt_emits 4 (counts.getD bi.2 0).toUInt32.toNat).bind
          (f := fun _ => _) (Emits.pure (n + 1)))
      rwa [List.append_nil] at h
    · simp only [if_neg hbi]
      exact Emits.pure n
  · rw [if_neg htype, if_neg htype]
    exact Emits.pure 0

/-- The content of a histogram message: the strings, autopilot length, version and
distribution type, and the counted buckets. -/
def histogramContent (options : ExporterOptions) (p : ConnectionStringParser)
    (eventType : MetricsEventType) (boundaries : List Binary64) (counts : List UInt64)
    (metricName : List UInt8) (attributes : PointAttributes) : List UInt8 :=
  stringBytes (strings options p metricName attributes) ++ (leBytes 2 0 ++ (leBytes 1 0 ++
    (leBytes 1 2 ++ (leBytes 2 (exportedBuckets eventType boundaries counts).length ++
      (exportedBuckets eventType boundaries counts).flatMap (bucketBytes undefinedCast)))))

theorem length_histogramContent (options : ExporterOptions) (p : ConnectionStringParser)
    (eventType : MetricsEventType) (boundaries : List Binary64) (counts : List UInt64)
    (metricName : List UInt8) (attributes : PointAttributes) :
    (histogramContent undefinedCast options p eventType boundaries counts metricName
        attributes).length =
      (stringBytes (strings options p metricName attributes)).length + 6 +
        12 * (exportedBuckets eventType boundaries counts).length := by
  have hbuckets : ((exportedBuckets eventType boundaries counts).flatMap
      (bucketBytes undefinedCast)).length =
        12 * (exportedBuckets eventType boundaries counts).length := by
    rw [List.length_flatMap]
    simp [Nat.mul_comm]
  simp only [histogramContent, List.length_append, length_leBytes, hbuckets]
  omega

theorem leBytes_two_ofNat (n : ℕ) : leBytes 2 (UInt16.ofNat n).toNat = leBytes 2 n := by
  have hmod : (UInt16.ofNat n).toNat = leValue (leBytes 2 n) := by
    rw [leValue_leBytes, UInt16.toNat_ofNat']
    rfl
  rw [hmod]
  exact (length_leBytes 2 n) ▸ leBytes_leValue (leBytes 2 n)

theorem serializeHistogramContent_emits (options : ExporterOptions) (p : ConnectionStringParser)
    (eventType : MetricsEventType) (boundaries : List Binary64) (counts : List UInt64)
    (metricName : List UInt8) (attributes : PointAttributes) :
    Emits kBufferSize
      (serializeHistogramContent undefinedCast options p eventType boundaries counts metricName
        attributes)
      (histogramContent undefinedCast options p eventType boundaries counts metricName attributes)
      (UInt16.ofNat (dimensionNames options attributes).length,
        UInt16.ofNat (exportedBuckets eventType boundaries counts).length) := by
  have hbuckets := serializeBuckets_emits undefinedCast eventType boundaries counts
  have hpatch := attemptInt_writes 2
    (UInt16.ofNat (exportedBuckets eventType boundaries counts).length).toNat
  rw [leBytes_two_ofNat] at hpatch
  -- the number of buckets is known after the loop, and patched in behind it
  exact (serializeDimensions_emits options p metricName attributes).bind
    ((serializeInt_emits 2 0).bind ((serializeInt_emits 1 0).bind ((serializeInt_emits 1 2).bind
      (Emits.bind_hole (fun n : UInt16 => (serializeInt 2 n.toNat).attempt)
        (serializeInt_emits 2 0) hbuckets hpatch (by simp) _))))

/-- The header of a histogram message; the three numbers are only there for the
distribution type. -/
def histogramHeader (eventType : MetricsEventType) (count : UInt64) (sum min max : Int64)
    (ts : SystemTimestamp) (bodyLength attributesSize : ℕ) : List UInt8 :=
  leBytes 2 eventType.toUInt16.toNat ++ (leBytes 2 bodyLength ++ (leBytes 2 attributesSize ++
    (leBytes 2 0 ++ (leBytes 4 count.toUInt32.toNat ++ (leBytes 8 (windowsTicks ts).toNat ++
      if eventType = .ExternallyAggregatedUlongDistributionMetric then
        leBytes 8 sum.toUInt64.toNat ++ (leBytes 8 min.toUInt64.toNat ++
          leBytes 8 max.toUInt64.toNat)
      else [])))))

theorem length_histogramHeader_le (eventType : MetricsEventType) (count : UInt64)
    (sum min max : Int64) (ts : SystemTimestamp) (bodyLength attributesSize : ℕ) :
    (histogramHeader eventType count sum min max ts bodyLength attributesSize).length ≤
      kBinaryHeaderSize + kExternalPayloadSize := by
  rw [histogramHeader]
  split
  all_goals
    simp only [List.length_append, length_leBytes, List.length_nil]
    decide

theorem length_histogramHeader (count : UInt64) (sum min max : Int64) (ts : SystemTimestamp)
    (bodyLength attributesSize : ℕ) :
    (histogramHeader .ExternallyAggregatedUlongDistributionMetric count sum min max ts bodyLength
      attributesSize).length = kBinaryHeaderSize + kExternalPayloadSize := by
  simp only [histogramHeader, if_true, List.length_append, length_leBytes]
  rfl

theorem serializeHistogramHeader_writes (eventType : MetricsEventType) (count : UInt64)
    (sum min max : Int64) (ts : SystemTimestamp) (bodyLength attributesSize : UInt16) :
    Writes kBufferSize
      (serializeHistogramHeader eventType count sum min max ts bodyLength attributesSize)
      (histogramHeader eventType count sum min max ts bodyLength.toNat attributesSize.toNat)
      () := by
  refine (attemptInt_writes _ _).bind ((attemptInt_writes _ _).bind ((attemptInt_writes _ _).bind
    ((attemptInt_writes _ _).bind ((attemptInt_writes _ _).bind ((attemptInt_writes _ _).bind
      ?_)))))
  by_cases htype : eventType = .ExternallyAggregatedUlongDistributionMetric
  · rw [if_pos htype, if_pos htype]
    exact (attemptInt_writes _ _).bind ((attemptInt_writes _ _).bind (attemptInt_writes _ _))
  · rw [if_neg htype, if_neg htype]
    exact Writes.pure ()

/-- The whole message of a histogram. -/
def histogramMessage (options : ExporterOptions) (p : ConnectionStringParser)
    (count : UInt64) (sum min max : Int64) (boundaries : List Binary64) (counts : List UInt64)
    (ts : SystemTimestamp) (metricName : List UInt8) (attributes : PointAttributes) :
    List UInt8 :=
  let content := histogramContent undefinedCast options p
    .ExternallyAggregatedUlongDistributionMetric boundaries counts metricName attributes
  histogramHeader .ExternallyAggregatedUlongDistributionMetric count sum min max ts
      (kExternalPayloadSize + content.length) (dimensionNames options attributes).length ++ content

end

/-! ### The serializers refine their messages -/

/-- Nothing that is counted or measured in a content outgrows 16 bits when the
content fits. -/
theorem length_dimensionNames_lt {options : ExporterOptions} {p : ConnectionStringParser}
    {metricName : List UInt8} {attributes : PointAttributes}
    (h : (stringBytes (strings options p metricName attributes)).length ≤ kBufferSize) :
    (dimensionNames options attributes).length < 2 ^ 16 := by
  have hlen := two_mul_length_le (strings options p metricName attributes)
  have hle : (dimensionNames options attributes).length ≤
      (strings options p metricName attributes).length := by
    simp only [strings, List.length_append]
    omega
  rw [kBufferSize] at h
  omega

/-- Every string of a content that fits has its whole length in the prefix. -/
theorem length_strings_lt {options : ExporterOptions} {p : ConnectionStringParser}
    {metricName : List UInt8} {attributes : PointAttributes}
    (h : (stringBytes (strings options p metricName attributes)).length ≤ kBufferSize) :
    ∀ s ∈ strings options p metricName attributes, s.length < 2 ^ 16 := by
  intro s hs
  have hle := length_lt_of_mem hs
  rw [kBufferSize] at h
  omega

theorem toNat_bodyLength {payload k : ℕ} (h : kBinaryHeaderSize + payload + k ≤ kBufferSize) :
    (UInt16.ofNat (kBinaryHeaderSize + payload + k - kBinaryHeaderSize)).toNat = payload + k := by
  rw [UInt16.toNat_ofNat', Nat.add_assoc, Nat.add_sub_cancel_left]
  rw [kBinaryHeaderSize, kBufferSize] at h
  omega

theorem toNat_ofNat_of_lt {n : ℕ} (h : n < 2 ^ 16) : (UInt16.ofNat n).toNat = n := by
  rw [UInt16.toNat_ofNat', Nat.mod_eq_of_lt h]

/-- A run of `SerializeNonHistogramMetrics`. -/
theorem serializeNonHistogramMetrics_run (e : Exporter) (value : NonHistogramValue)
    (ts : SystemTimestamp) (metricName : List UInt8) (attributes : PointAttributes) :
    let content := nonHistogramContent e.options e.connectionStringParser metricName attributes
    FramedRun kBufferSize (kBinaryHeaderSize + kMetricPayloadSize)
      (serializeNonHistogramContent e.options e.connectionStringParser metricName attributes)
      e.buffer
      (nonHistogramHeader value ts (kMetricPayloadSize + content.length)
        (dimensionNames e.options attributes).length)
      content (UInt16.ofNat (dimensionNames e.options attributes).length)
      (UInt16.ofNat (kBinaryHeaderSize + kMetricPayloadSize + content.length
        - kBinaryHeaderSize)).toNat
      (e.serializeNonHistogramMetrics value ts metricName attributes) := by
  intro content
  refine runSerializer_framed
    (fun i n => serializeNonHistogramHeader value ts (UInt16.ofNat (i - kBinaryHeaderSize)) n)
    (fun i => (UInt16.ofNat (i - kBinaryHeaderSize)).toNat)
    (serializeNonHistogramContent_emits _ _ _ _) (fun hfits => ?_)
    (Nat.le_of_eq (length_nonHistogramHeader _ _ _ _)) (by decide) e.buffer
  have hstrings := length_stringBytes_le_nonHistogramContent e.options e.connectionStringParser
    metricName attributes
  -- what was counted and what was measured has 16 bits, because the content fits
  have hnames : (dimensionNames e.options attributes).length < 2 ^ 16 :=
    length_dimensionNames_lt (le_trans hstrings (by omega))
  have hheader := serializeNonHistogramHeader_writes value ts
    (UInt16.ofNat (kBinaryHeaderSize + kMetricPayloadSize + content.length - kBinaryHeaderSize))
    (UInt16.ofNat (dimensionNames e.options attributes).length)
  rwa [toNat_bodyLength hfits, toNat_ofNat_of_lt hnames] at hheader

/-- A run of `SerializeHistogramMetrics`. -/
theorem serializeHistogramMetrics_run (undefinedCast : Binary64 → UInt64) (e : Exporter)
    (eventType : MetricsEventType) (count : UInt64) (sum min max : Int64)
    (boundaries : List Binary64) (counts : List UInt64) (ts : SystemTimestamp)
    (metricName : List UInt8) (attributes : PointAttributes) :
    let content := histogramContent undefinedCast e.options e.connectionStringParser eventType
      boundaries counts metricName attributes
    FramedRun kBufferSize (kBinaryHeaderSize + kExternalPayloadSize)
      (serializeHistogramContent undefinedCast e.options e.connectionStringParser eventType
        boundaries counts metricName attributes)
      e.buffer
      (histogramHeader eventType count sum min max ts (kExternalPayloadSize + content.length)
        (dimensionNames e.options attributes).length)
      content
      (UInt16.ofNat (dimensionNames e.options attributes).length,
        UInt16.ofNat (exportedBuckets eventType boundaries counts).length)
      (UInt16.ofNat (kBinaryHeaderSize + kExternalPayloadSize + content.length
        - kBinaryHeaderSize)).toNat
      (e.serializeHistogramMetrics undefinedCast eventType count sum min max boundaries counts ts
        metricName attributes) := by
  intro content
  have hcontent := serializeHistogramContent_emits undefinedCast e.options
    e.connectionStringParser eventType boundaries counts metricName attributes
  have hlen := length_histogramHeader_le eventType count sum min max ts
    (kExternalPayloadSize + content.length) (dimensionNames e.options attributes).length
  refine runSerializer_framed
    (fun i (sizes : UInt16 × UInt16) => serializeHistogramHeader eventType count sum min
      max ts (UInt16.ofNat (i - kBinaryHeaderSize)) sizes.1)
    (fun i => (UInt16.ofNat (i - kBinaryHeaderSize)).toNat)
    hcontent (fun hfits => ?_) hlen (by decide) e.buffer
  have hstrings := length_histogramContent undefinedCast e.options e.connectionStringParser
    eventType boundaries counts metricName attributes
  -- as for the other messages, with the buckets behind the strings
  have hfit : (stringBytes (strings e.options e.connectionStringParser metricName
      attributes)).length ≤ kBufferSize := by omega
  have hnames := length_dimensionNames_lt hfit
  have hheader := serializeHistogramHeader_writes eventType count sum min max ts
    (UInt16.ofNat (kBinaryHeaderSize + kExternalPayloadSize + content.length - kBinaryHeaderSize))
    (UInt16.ofNat (dimensionNames e.options attributes).length)
  rwa [toNat_bodyLength hfits, toNat_ofNat_of_lt hnames] at hheader

/-- A serializer's result for a message: the message at the start of the buffer, or
`0` when the message does not fit. -/
def Carries (result : ℕ × Memory) (message : List UInt8) : Prop :=
  (message.length ≤ kBufferSize ∧ 0 < result.1 ∧
    result.1 + kBinaryHeaderSize = message.length ∧
    result.2.take message.length = message) ∨
  (kBufferSize < message.length ∧ result.1 = 0)

theorem Carries.of_framedRun {α : Type} {payload : ℕ} {content : Serializer α} {buffer : Memory}
    {h b : List UInt8} {a : α} {result : ℕ × Memory}
    (hrun : FramedRun kBufferSize (kBinaryHeaderSize + payload) content buffer h b a
      (UInt16.ofNat (kBinaryHeaderSize + payload + b.length - kBinaryHeaderSize)).toNat result)
    (hlen : h.length = kBinaryHeaderSize + payload) (hpos : 0 < payload) :
    Carries result (h ++ b) := by
  have hmessage : (h ++ b).length = kBinaryHeaderSize + payload + b.length := by
    rw [List.length_append, hlen]
  by_cases hfits : (h ++ b).length ≤ kBufferSize
  · obtain ⟨hresult, htake⟩ := hrun.take_eq hlen hfits
    rw [toNat_bodyLength (hmessage ▸ hfits)] at hresult
    exact .inl ⟨hfits, by omega, by omega, htake⟩
  · cases hrun with
    | fits w hfits' => omega
    | overflows w hover hcontent hresult => exact .inr ⟨by omega, hresult⟩

theorem Carries.ne_zero {result : ℕ × Memory} {message : List UInt8} (h : Carries result message)
    (hfits : message.length ≤ kBufferSize) : result.1 ≠ 0 := by
  rcases h with ⟨-, hpos, -⟩ | ⟨hover, -⟩
  · omega
  · omega

theorem serializeNonHistogramMetrics_carries (e : Exporter) (value : NonHistogramValue)
    (ts : SystemTimestamp) (metricName : List UInt8) (attributes : PointAttributes) :
    Carries (e.serializeNonHistogramMetrics value ts metricName attributes)
      (nonHistogramMessage e.options e.connectionStringParser value ts metricName attributes) :=
  .of_framedRun (serializeNonHistogramMetrics_run e value ts metricName attributes)
    (length_nonHistogramHeader _ _ _ _) (by decide)

theorem serializeHistogramMetrics_carries (undefinedCast : Binary64 → UInt64) (e : Exporter)
    (count : UInt64) (sum min max : Int64) (boundaries : List Binary64) (counts : List UInt64)
    (ts : SystemTimestamp) (metricName : List UInt8) (attributes : PointAttributes) :
    Carries
      (e.serializeHistogramMetrics undefinedCast .ExternallyAggregatedUlongDistributionMetric count
        sum min max boundaries counts ts metricName attributes)
      (histogramMessage undefinedCast e.options e.connectionStringParser count sum min max
        boundaries counts ts metricName attributes) :=
  .of_framedRun (serializeHistogramMetrics_run undefinedCast e
    .ExternallyAggregatedUlongDistributionMetric count sum min max boundaries counts ts metricName
    attributes) (length_histogramHeader _ _ _ _ _ _ _) (by decide)

end Geneva
