/-
The reader of the Ifx Metrics binary protocol (`ifx_metrics_bin.ksy`), the
format the test server decodes messages with.

The body is read from a substream of its own, and what is left unread of it is
kept in the result.  Strings stay byte strings.

* `userdata_inverts` — a body is read completely exactly when it is the encoding
  of a well-formed `Userdata`;
* `read_eq_some_iff` — the same for a whole message.
-/
import OtelContrib.Lib.Binary64
import OtelContrib.Lib.ByteCodec

open ByteCodec ByteCodec.Reader

namespace IfxMetricsBin

/-! ### Fixed values -/

structure SingleUint64Value where
  padding : List UInt8
  timestamp : ℕ
  value : ℕ

structure SingleDoubleValue where
  padding : List UInt8
  timestamp : ℕ
  value : Binary64

structure ExtAggregatedUint64Value where
  count : ℕ
  timestamp : ℕ
  sum : ℕ
  min : ℕ
  max : ℕ

structure ExtAggregatedDoubleValue where
  count : ℕ
  timestamp : ℕ
  sum : Binary64
  min : Binary64
  max : Binary64

inductive ValueSection
  | singleUint64 (v : SingleUint64Value)
  | singleDouble (v : SingleDoubleValue)
  | extAggregatedUint64 (v : ExtAggregatedUint64Value)
  | extAggregatedDouble (v : ExtAggregatedDoubleValue)

/-- An `f8` field, by its bits. -/
def f8 : Reader Binary64 := do
  let bits ← uint 8
  pure ⟨UInt64.ofNat bits⟩

def singleUint64Value : Reader SingleUint64Value := do
  let padding ← take 4
  let timestamp ← uint 8
  let value ← uint 8
  pure ⟨padding, timestamp, value⟩

def singleDoubleValue : Reader SingleDoubleValue := do
  let padding ← take 4
  let timestamp ← uint 8
  let value ← f8
  pure ⟨padding, timestamp, value⟩

def extAggregatedUint64Value : Reader ExtAggregatedUint64Value := do
  let count ← uint 4
  let timestamp ← uint 8
  let sum ← uint 8
  let min ← uint 8
  let max ← uint 8
  pure ⟨count, timestamp, sum, min, max⟩

def extAggregatedDoubleValue : Reader ExtAggregatedDoubleValue := do
  let count ← uint 4
  let timestamp ← uint 8
  let sum ← f8
  let min ← f8
  let max ← f8
  pure ⟨count, timestamp, sum, min, max⟩

def valueSection (eventId : ℕ) : Reader (Option ValueSection) :=
  match eventId with
  | 0 | 50 => do
    let v ← singleUint64Value
    pure (some (.singleUint64 v))
  | 51 | 55 => do
    let v ← singleDoubleValue
    pure (some (.singleDouble v))
  | 53 | 56 => do
    let v ← extAggregatedUint64Value
    pure (some (.extAggregatedUint64 v))
  | 54 | 57 | 58 => do
    let v ← extAggregatedDoubleValue
    pure (some (.extAggregatedDouble v))
  | _ => pure none

/-! ### Histograms -/

structure HistogramUint16Bucketed where
  min : ℕ
  bucketSize : ℕ
  bucketCount : ℕ
  distributionSize : ℕ
  columns : List (ℕ × ℕ)

structure HistogramValueCountPairs where
  distributionSize : ℕ
  columns : List (ℕ × ℕ)

inductive HistogramBody
  | uint16Bucketed (b : HistogramUint16Bucketed)
  | valueCountPairs (b : HistogramValueCountPairs)

structure Histogram where
  version : ℕ
  type : ℕ
  body : Option HistogramBody

/-- Two integers of `m` and `n` bytes: `pair_uint16` and `pair_value_count`. -/
def pairOf (m n : ℕ) : Reader (ℕ × ℕ) := do
  let first ← uint m
  let second ← uint n
  pure (first, second)

def histogramUint16Bucketed : Reader HistogramUint16Bucketed := do
  let min ← uint 8
  let bucketSize ← uint 4
  let bucketCount ← uint 4
  let distributionSize ← uint 2
  let columns ← (pairOf 2 2).replicateM distributionSize
  pure ⟨min, bucketSize, bucketCount, distributionSize, columns⟩

def histogramValueCountPairs : Reader HistogramValueCountPairs := do
  let distributionSize ← uint 2
  let columns ← (pairOf 8 4).replicateM distributionSize
  pure ⟨distributionSize, columns⟩

def histogramBody (type : ℕ) : Reader (Option HistogramBody) :=
  match type with
  | 0 | 1 => do
    let b ← histogramUint16Bucketed
    pure (some (.uint16Bucketed b))
  | 2 => do
    let b ← histogramValueCountPairs
    pure (some (.valueCountPairs b))
  | _ => pure none

def histogram : Reader Histogram := do
  let version ← uint 1
  let type ← uint 1
  let body ← histogramBody type
  pure ⟨version, type, body⟩

/-! ### Messages -/

structure Userdata where
  numDimensions : ℕ
  padding : List UInt8
  valueSection : Option ValueSection
  metricAccount : List UInt8
  metricNamespace : List UInt8
  metricName : List UInt8
  dimensionsNames : List (List UInt8)
  dimensionsValues : List (List UInt8)
  apContainer : Option (List UInt8)
  histogram : Option Histogram

/-- The event types that carry a histogram. -/
def isDistribution (eventId : ℕ) : Bool := eventId = 56 ∨ eventId = 57 ∨ eventId = 58

/-- The histogram at the end of a body. -/
def optionalHistogram (eventId : ℕ) : Reader (Option Histogram) :=
  if isDistribution eventId then unlessEof histogram else pure none

def userdata (eventId : ℕ) : Reader Userdata := do
  let numDimensions ← uint 2
  let padding ← take 2
  let values ← valueSection eventId
  let metricAccount ← lenString 2
  let metricNamespace ← lenString 2
  let metricName ← lenString 2
  let dimensionsNames ← (lenString 2).replicateM numDimensions
  let dimensionsValues ← (lenString 2).replicateM numDimensions
  let apContainer ← unlessEof (lenString 2)
  let histogram ← optionalHistogram eventId
  pure ⟨numDimensions, padding, values, metricAccount, metricNamespace, metricName,
    dimensionsNames, dimensionsValues, apContainer, histogram⟩

structure Message where
  eventId : ℕ
  lenBody : ℕ
  body : Userdata
  unread : List UInt8

def read : Reader Message := do
  let eventId ← uint 2
  let lenBody ← uint 2
  let rawBody ← take lenBody
  match userdata eventId rawBody with
  | some (body, unread) => pure ⟨eventId, lenBody, body, unread⟩
  | none => fail

/-! ### Encodings of the fixed values -/

theorem f8_inverts : Inverts f8 (fun d => leBytes 8 d.bits.toNat) (fun _ => True) := by
  refine ((uint_inverts 8).map (fun bits => Binary64.mk (UInt64.ofNat bits))
    (fun bits hbits => ?_)).congr (fun _ _ => rfl) fun d => ?_
  · show leBytes 8 (UInt64.ofNat bits).toNat = leBytes 8 bits
    rw [UInt64.toNat_ofNat_of_lt' hbits]
  · have hd : d.bits.toNat < 256 ^ 8 := d.bits.toNat_lt
    exact ⟨fun _ => trivial, fun _ => ⟨d.bits.toNat, hd, by rw [UInt64.ofNat_toNat]⟩⟩

def SingleUint64Value.bytes (v : SingleUint64Value) : List UInt8 :=
  v.padding ++ (leBytes 8 v.timestamp ++ leBytes 8 v.value)

structure SingleUint64Value.Valid (v : SingleUint64Value) : Prop where
  padding : v.padding.length = 4
  timestamp : v.timestamp < 256 ^ 8
  value : v.value < 256 ^ 8

theorem singleUint64Value_inverts :
    Inverts singleUint64Value SingleUint64Value.bytes SingleUint64Value.Valid := by
  refine ((take_inverts 4).bind SingleUint64Value.padding (fun _ _ =>
    (uint_inverts 8).bind SingleUint64Value.timestamp (fun _ _ =>
      (uint_inverts 8).bind SingleUint64Value.value (fun _ _ => Inverts.pure _)
      fun _ _ h => congrArg _ h)
    fun _ _ h => congrArg SingleUint64Value.timestamp h.2)
    fun _ _ h => congrArg SingleUint64Value.padding h.2.2).congr (fun v _ => ?_) fun v => ?_
  · simp [SingleUint64Value.bytes]
  · constructor
    · rintro ⟨hpadding, htimestamp, hvalue, -⟩
      exact ⟨hpadding, htimestamp, hvalue⟩
    · rintro ⟨hpadding, htimestamp, hvalue⟩
      exact ⟨hpadding, htimestamp, hvalue, rfl⟩

def SingleDoubleValue.bytes (v : SingleDoubleValue) : List UInt8 :=
  v.padding ++ (leBytes 8 v.timestamp ++ leBytes 8 v.value.bits.toNat)

structure SingleDoubleValue.Valid (v : SingleDoubleValue) : Prop where
  padding : v.padding.length = 4
  timestamp : v.timestamp < 256 ^ 8

theorem singleDoubleValue_inverts :
    Inverts singleDoubleValue SingleDoubleValue.bytes SingleDoubleValue.Valid := by
  refine ((take_inverts 4).bind SingleDoubleValue.padding (fun _ _ =>
    (uint_inverts 8).bind SingleDoubleValue.timestamp (fun _ _ =>
      f8_inverts.bind SingleDoubleValue.value (fun _ _ => Inverts.pure _)
      fun _ _ h => congrArg _ h)
    fun _ _ h => congrArg SingleDoubleValue.timestamp h.2)
    fun _ _ h => congrArg SingleDoubleValue.padding h.2.2).congr (fun v _ => ?_) fun v => ?_
  · simp [SingleDoubleValue.bytes]
  · constructor
    · rintro ⟨hpadding, htimestamp, -⟩
      exact ⟨hpadding, htimestamp⟩
    · rintro ⟨hpadding, htimestamp⟩
      exact ⟨hpadding, htimestamp, trivial, rfl⟩

def ExtAggregatedUint64Value.bytes (v : ExtAggregatedUint64Value) : List UInt8 :=
  leBytes 4 v.count ++ (leBytes 8 v.timestamp ++ (leBytes 8 v.sum ++ (leBytes 8 v.min ++
    leBytes 8 v.max)))

structure ExtAggregatedUint64Value.Valid (v : ExtAggregatedUint64Value) : Prop where
  count : v.count < 256 ^ 4
  timestamp : v.timestamp < 256 ^ 8
  sum : v.sum < 256 ^ 8
  min : v.min < 256 ^ 8
  max : v.max < 256 ^ 8

theorem extAggregatedUint64Value_inverts :
    Inverts extAggregatedUint64Value ExtAggregatedUint64Value.bytes
      ExtAggregatedUint64Value.Valid := by
  refine ((uint_inverts 4).bind ExtAggregatedUint64Value.count (fun _ _ =>
    (uint_inverts 8).bind ExtAggregatedUint64Value.timestamp (fun _ _ =>
      (uint_inverts 8).bind ExtAggregatedUint64Value.sum (fun _ _ =>
        (uint_inverts 8).bind ExtAggregatedUint64Value.min (fun _ _ =>
          (uint_inverts 8).bind ExtAggregatedUint64Value.max (fun _ _ => Inverts.pure _)
          fun _ _ h => congrArg _ h)
        fun _ _ h => congrArg ExtAggregatedUint64Value.min h.2)
      fun _ _ h => congrArg ExtAggregatedUint64Value.sum h.2.2)
    fun _ _ h => congrArg ExtAggregatedUint64Value.timestamp h.2.2.2)
    fun _ _ h => congrArg ExtAggregatedUint64Value.count h.2.2.2.2).congr
    (fun v _ => ?_) fun v => ?_
  · simp [ExtAggregatedUint64Value.bytes]
  · constructor
    · rintro ⟨hcount, htimestamp, hsum, hmin, hmax, -⟩
      exact ⟨hcount, htimestamp, hsum, hmin, hmax⟩
    · rintro ⟨hcount, htimestamp, hsum, hmin, hmax⟩
      exact ⟨hcount, htimestamp, hsum, hmin, hmax, rfl⟩

def ExtAggregatedDoubleValue.bytes (v : ExtAggregatedDoubleValue) : List UInt8 :=
  leBytes 4 v.count ++ (leBytes 8 v.timestamp ++ (leBytes 8 v.sum.bits.toNat ++
    (leBytes 8 v.min.bits.toNat ++ leBytes 8 v.max.bits.toNat)))

structure ExtAggregatedDoubleValue.Valid (v : ExtAggregatedDoubleValue) : Prop where
  count : v.count < 256 ^ 4
  timestamp : v.timestamp < 256 ^ 8

theorem extAggregatedDoubleValue_inverts :
    Inverts extAggregatedDoubleValue ExtAggregatedDoubleValue.bytes
      ExtAggregatedDoubleValue.Valid := by
  refine ((uint_inverts 4).bind ExtAggregatedDoubleValue.count (fun _ _ =>
    (uint_inverts 8).bind ExtAggregatedDoubleValue.timestamp (fun _ _ =>
      f8_inverts.bind ExtAggregatedDoubleValue.sum (fun _ _ =>
        f8_inverts.bind ExtAggregatedDoubleValue.min (fun _ _ =>
          f8_inverts.bind ExtAggregatedDoubleValue.max (fun _ _ => Inverts.pure _)
          fun _ _ h => congrArg _ h)
        fun _ _ h => congrArg ExtAggregatedDoubleValue.min h.2)
      fun _ _ h => congrArg ExtAggregatedDoubleValue.sum h.2.2)
    fun _ _ h => congrArg ExtAggregatedDoubleValue.timestamp h.2.2.2)
    fun _ _ h => congrArg ExtAggregatedDoubleValue.count h.2.2.2.2).congr
    (fun v _ => ?_) fun v => ?_
  · simp [ExtAggregatedDoubleValue.bytes]
  · constructor
    · rintro ⟨hcount, htimestamp, -⟩
      exact ⟨hcount, htimestamp⟩
    · rintro ⟨hcount, htimestamp⟩
      exact ⟨hcount, htimestamp, trivial, trivial, trivial, rfl⟩

def ValueSection.bytes : ValueSection → List UInt8
  | .singleUint64 v => v.bytes
  | .singleDouble v => v.bytes
  | .extAggregatedUint64 v => v.bytes
  | .extAggregatedDouble v => v.bytes

/-- The value section an event type has. -/
def ValidValueSection (eventId : ℕ) (o : Option ValueSection) : Prop :=
  match eventId with
  | 0 | 50 => ∃ v, SingleUint64Value.Valid v ∧ o = some (.singleUint64 v)
  | 51 | 55 => ∃ v, SingleDoubleValue.Valid v ∧ o = some (.singleDouble v)
  | 53 | 56 => ∃ v, ExtAggregatedUint64Value.Valid v ∧ o = some (.extAggregatedUint64 v)
  | 54 | 57 | 58 => ∃ v, ExtAggregatedDoubleValue.Valid v ∧ o = some (.extAggregatedDouble v)
  | _ => o = none

/-- The bytes of a value section, none where there is none. -/
def valueSectionBytes (o : Option ValueSection) : List UInt8 := o.elim [] ValueSection.bytes

theorem valueSection_inverts (eventId : ℕ) :
    Inverts (valueSection eventId) valueSectionBytes (ValidValueSection eventId) := by
  unfold valueSection ValidValueSection
  split
  · exact singleUint64Value_inverts.map _ fun _ _ => rfl
  · exact singleUint64Value_inverts.map _ fun _ _ => rfl
  · exact singleDoubleValue_inverts.map _ fun _ _ => rfl
  · exact singleDoubleValue_inverts.map _ fun _ _ => rfl
  · exact extAggregatedUint64Value_inverts.map _ fun _ _ => rfl
  · exact extAggregatedUint64Value_inverts.map _ fun _ _ => rfl
  · exact extAggregatedDoubleValue_inverts.map _ fun _ _ => rfl
  · exact extAggregatedDoubleValue_inverts.map _ fun _ _ => rfl
  · exact extAggregatedDoubleValue_inverts.map _ fun _ _ => rfl
  · exact (Inverts.pure none).congr (by rintro _ rfl; rfl) fun _ => Iff.rfl

/-! ### Encodings of the histograms -/

def pairBytes (m n : ℕ) (p : ℕ × ℕ) : List UInt8 := leBytes m p.1 ++ leBytes n p.2

theorem pairOf_inverts (m n : ℕ) :
    Inverts (pairOf m n) (pairBytes m n) (fun p => p.1 < 256 ^ m ∧ p.2 < 256 ^ n) := by
  refine ((uint_inverts m).bind Prod.fst (fun _ _ =>
    (uint_inverts n).bind Prod.snd (fun _ _ => Inverts.pure _)
      fun _ _ h => congrArg _ h)
    fun _ _ h => congrArg Prod.fst h.2).congr (fun p _ => ?_) fun p => ?_
  · simp [pairBytes]
  · simp

def HistogramUint16Bucketed.bytes (b : HistogramUint16Bucketed) : List UInt8 :=
  leBytes 8 b.min ++ (leBytes 4 b.bucketSize ++ (leBytes 4 b.bucketCount ++
    (leBytes 2 b.distributionSize ++ b.columns.flatMap (pairBytes 2 2))))

structure HistogramUint16Bucketed.Valid (b : HistogramUint16Bucketed) : Prop where
  min : b.min < 256 ^ 8
  bucketSize : b.bucketSize < 256 ^ 4
  bucketCount : b.bucketCount < 256 ^ 4
  distributionSize : b.distributionSize < 256 ^ 2
  columns : b.columns.length = b.distributionSize ∧
    ∀ p ∈ b.columns, p.1 < 256 ^ 2 ∧ p.2 < 256 ^ 2

theorem histogramUint16Bucketed_inverts :
    Inverts histogramUint16Bucketed HistogramUint16Bucketed.bytes
      HistogramUint16Bucketed.Valid := by
  refine ((uint_inverts 8).bind HistogramUint16Bucketed.min (fun _ _ =>
    (uint_inverts 4).bind HistogramUint16Bucketed.bucketSize (fun _ _ =>
      (uint_inverts 4).bind HistogramUint16Bucketed.bucketCount (fun _ _ =>
        (uint_inverts 2).bind HistogramUint16Bucketed.distributionSize (fun _ _ =>
          ((pairOf_inverts 2 2).replicateM _).bind HistogramUint16Bucketed.columns
            (fun _ _ => Inverts.pure _)
          fun _ _ h => congrArg _ h)
        fun _ _ h => congrArg HistogramUint16Bucketed.distributionSize h.2)
      fun _ _ h => congrArg HistogramUint16Bucketed.bucketCount h.2.2)
    fun _ _ h => congrArg HistogramUint16Bucketed.bucketSize h.2.2.2)
    fun _ _ h => congrArg HistogramUint16Bucketed.min h.2.2.2.2).congr (fun b _ => ?_) fun b => ?_
  · simp [HistogramUint16Bucketed.bytes]
  · constructor
    · rintro ⟨hmin, hsize, hcount, hdist, hcols, -⟩
      exact ⟨hmin, hsize, hcount, hdist, hcols⟩
    · rintro ⟨hmin, hsize, hcount, hdist, hcols⟩
      exact ⟨hmin, hsize, hcount, hdist, hcols, rfl⟩

def HistogramValueCountPairs.bytes (b : HistogramValueCountPairs) : List UInt8 :=
  leBytes 2 b.distributionSize ++ b.columns.flatMap (pairBytes 8 4)

structure HistogramValueCountPairs.Valid (b : HistogramValueCountPairs) : Prop where
  distributionSize : b.distributionSize < 256 ^ 2
  columns : b.columns.length = b.distributionSize ∧
    ∀ p ∈ b.columns, p.1 < 256 ^ 8 ∧ p.2 < 256 ^ 4

theorem histogramValueCountPairs_inverts :
    Inverts histogramValueCountPairs HistogramValueCountPairs.bytes
      HistogramValueCountPairs.Valid := by
  refine ((uint_inverts 2).bind HistogramValueCountPairs.distributionSize (fun _ _ =>
    ((pairOf_inverts 8 4).replicateM _).bind HistogramValueCountPairs.columns
      (fun _ _ => Inverts.pure _)
      fun _ _ h => congrArg _ h)
    fun _ _ h => congrArg HistogramValueCountPairs.distributionSize h.2).congr
      (fun b _ => ?_) fun b => ?_
  · simp [HistogramValueCountPairs.bytes]
  · constructor
    · rintro ⟨hdist, hcols, -⟩
      exact ⟨hdist, hcols⟩
    · rintro ⟨hdist, hcols⟩
      exact ⟨hdist, hcols, rfl⟩

def HistogramBody.bytes : HistogramBody → List UInt8
  | .uint16Bucketed b => b.bytes
  | .valueCountPairs b => b.bytes

/-- The body a distribution type has. -/
def ValidHistogramBody (type : ℕ) (o : Option HistogramBody) : Prop :=
  match type with
  | 0 | 1 => ∃ b, HistogramUint16Bucketed.Valid b ∧ o = some (.uint16Bucketed b)
  | 2 => ∃ b, HistogramValueCountPairs.Valid b ∧ o = some (.valueCountPairs b)
  | _ => o = none

theorem histogramBody_inverts (type : ℕ) :
    Inverts (histogramBody type) (fun o => o.elim [] HistogramBody.bytes)
      (ValidHistogramBody type) := by
  unfold histogramBody ValidHistogramBody
  split
  · exact histogramUint16Bucketed_inverts.map _ fun _ _ => rfl
  · exact histogramUint16Bucketed_inverts.map _ fun _ _ => rfl
  · exact histogramValueCountPairs_inverts.map _ fun _ _ => rfl
  · exact (Inverts.pure none).congr (by rintro _ rfl; rfl) fun _ => Iff.rfl

def Histogram.bytes (h : Histogram) : List UInt8 :=
  leBytes 1 h.version ++ (leBytes 1 h.type ++ h.body.elim [] HistogramBody.bytes)

structure Histogram.Valid (h : Histogram) : Prop where
  version : h.version < 256 ^ 1
  type : h.type < 256 ^ 1
  body : ValidHistogramBody h.type h.body

theorem histogram_inverts : Inverts histogram Histogram.bytes Histogram.Valid := by
  refine ((uint_inverts 1).bind Histogram.version (fun _ _ =>
    (uint_inverts 1).bind Histogram.type (fun type _ =>
      (histogramBody_inverts type).bind Histogram.body (fun _ _ => Inverts.pure _)
      fun _ _ h => congrArg _ h)
    fun _ _ h => congrArg Histogram.type h.2)
    fun _ _ h => congrArg Histogram.version h.2.2).congr (fun h _ => ?_) fun h => ?_
  · simp [Histogram.bytes]
  · constructor
    · rintro ⟨hversion, htype, hbody, -⟩
      exact ⟨hversion, htype, hbody⟩
    · rintro ⟨hversion, htype, hbody⟩
      exact ⟨hversion, htype, hbody, rfl⟩

theorem Histogram.bytes_ne_nil (h : Histogram) : h.bytes ≠ [] := by
  simp [Histogram.bytes, leBytes]

/-! ### Encodings of messages -/

def Userdata.bytes (u : Userdata) : List UInt8 :=
  leBytes 2 u.numDimensions ++ (u.padding ++ (valueSectionBytes u.valueSection ++
    (lenStringBytes 2 u.metricAccount ++ (lenStringBytes 2 u.metricNamespace ++
      (lenStringBytes 2 u.metricName ++ (u.dimensionsNames.flatMap (lenStringBytes 2) ++
        (u.dimensionsValues.flatMap (lenStringBytes 2) ++
          (u.apContainer.elim [] (lenStringBytes 2) ++
            u.histogram.elim [] Histogram.bytes))))))))

/-- A body that an encoder of an event type could have written: the counts are those
of the lists, every length fits its prefix, and there is a histogram only for a
distribution and behind an AutoPilot container. -/
structure Userdata.Valid (eventId : ℕ) (u : Userdata) : Prop where
  numDimensions : u.numDimensions < 256 ^ 2
  padding : u.padding.length = 2
  valueSection : ValidValueSection eventId u.valueSection
  metricAccount : u.metricAccount.length < 256 ^ 2
  metricNamespace : u.metricNamespace.length < 256 ^ 2
  metricName : u.metricName.length < 256 ^ 2
  dimensionsNames : u.dimensionsNames.length = u.numDimensions ∧
    ∀ s ∈ u.dimensionsNames, s.length < 256 ^ 2
  dimensionsValues : u.dimensionsValues.length = u.numDimensions ∧
    ∀ s ∈ u.dimensionsValues, s.length < 256 ^ 2
  apContainer : ∀ s ∈ u.apContainer, s.length < 256 ^ 2
  histogram : (∀ h ∈ u.histogram, h.Valid) ∧ (isDistribution eventId = false → u.histogram = none)
  contained : u.apContainer = none → u.histogram = none

theorem optionalHistogram_inverts (eventId : ℕ) :
    InvertsAll (optionalHistogram eventId) (fun o => o.elim [] Histogram.bytes)
      (fun o => (∀ h ∈ o, h.Valid) ∧ (isDistribution eventId = false → o = none)) := by
  rw [optionalHistogram]
  by_cases h : isDistribution eventId
  · rw [if_pos h]
    -- a distribution may end before its histogram
    refine (InvertsAll.unlessEof histogram_inverts fun a _ => a.bytes_ne_nil).congr
      (fun _ _ => rfl) fun o => ?_
    simp [h]
  · rw [if_neg h]
    refine (Inverts.pure none).all.congr (by rintro _ rfl; rfl) fun o => ?_
    simp only [Bool.not_eq_true] at h
    constructor
    · rintro rfl
      exact ⟨by simp, fun _ => rfl⟩
    · rintro ⟨-, hnone⟩
      exact hnone h

theorem userdata_inverts (eventId : ℕ) :
    InvertsAll (userdata eventId) Userdata.bytes (Userdata.Valid eventId) := by
  have hstring := lenString_inverts 2
  -- one rule for each field, in the order of the reader
  refine (InvertsAll.bind (uint_inverts 2) Userdata.numDimensions (fun n _ =>
    InvertsAll.bind (take_inverts 2) Userdata.padding (fun _ _ =>
      InvertsAll.bind (valueSection_inverts eventId) Userdata.valueSection (fun _ _ =>
        InvertsAll.bind hstring Userdata.metricAccount (fun _ _ =>
          InvertsAll.bind hstring Userdata.metricNamespace (fun _ _ =>
            InvertsAll.bind hstring Userdata.metricName (fun _ _ =>
              InvertsAll.bind (hstring.replicateM n) Userdata.dimensionsNames (fun _ _ =>
                InvertsAll.bind (hstring.replicateM n) Userdata.dimensionsValues (fun _ _ =>
                  InvertsAll.unlessEof_bind hstring (fun s _ => lenStringBytes_ne_nil (by decide) s)
                    Userdata.apContainer (fun _ _ =>
                      (optionalHistogram_inverts eventId).map Userdata.histogram fun _ => rfl)
                  fun _ _ h => congrArg Userdata.apContainer h.2)
                fun _ _ h => congrArg Userdata.dimensionsValues h.2.1.2)
              fun _ _ h => congrArg Userdata.dimensionsNames h.2.2.1.2)
            fun _ _ h => congrArg Userdata.metricName h.2.2.2.1.2)
          fun _ _ h => congrArg Userdata.metricNamespace h.2.2.2.2.1.2)
        fun _ _ h => congrArg Userdata.metricAccount h.2.2.2.2.2.1.2)
      fun _ _ h => congrArg Userdata.valueSection h.2.2.2.2.2.2.1.2)
    fun _ _ h => congrArg Userdata.padding h.2.2.2.2.2.2.2.1.2)
    fun _ _ h => congrArg Userdata.numDimensions h.2.2.2.2.2.2.2.2.1.2).congr
      (fun u _ => rfl) fun u => ?_
  -- without a container nothing may follow, and a histogram is never empty
  have hempty : (u.apContainer = none → u.histogram.elim [] Histogram.bytes = []) ↔
      (u.apContainer = none → u.histogram = none) := by
    rcases u.histogram with _ | h
    · simp
    · simp [h.bytes_ne_nil]
  constructor
  · rintro ⟨hnum, hpadding, hvalue, haccount, hnamespace, hname, hnames, hvalues, hap,
      ⟨hhistogram, -⟩, hcontained⟩
    exact ⟨hnum, hpadding, hvalue, haccount, hnamespace, hname, hnames, hvalues, hap, hhistogram,
      hempty.mp hcontained⟩
  · rintro ⟨hnum, hpadding, hvalue, haccount, hnamespace, hname, hnames, hvalues, hap, hhistogram,
      hcontained⟩
    exact ⟨hnum, hpadding, hvalue, haccount, hnamespace, hname, hnames, hvalues, hap,
      ⟨hhistogram, rfl⟩, hempty.mpr hcontained⟩

/-- What a message is read from when nothing of it is left unread. -/
theorem read_eq_some_iff {bs : List UInt8} {m : Message} (hunread : m.unread = []) :
    read bs = some (m, []) ↔
      (m.eventId < 256 ^ 2 ∧ m.lenBody < 256 ^ 2 ∧ m.lenBody = m.body.bytes.length ∧
        m.body.Valid m.eventId) ∧
      bs = leBytes 2 m.eventId ++ (leBytes 2 m.lenBody ++ m.body.bytes) := by
  simp only [read, bind_eq_some_iff]
  constructor
  · rintro ⟨eventId, mid, hid, lenBody, mid', hlen, rawBody, rest, hraw, hbody⟩
    obtain ⟨hidlt, rfl⟩ := (uint_inverts 2 _ _ _).mp hid
    obtain ⟨hlenlt, rfl⟩ := (uint_inverts 2 _ _ _).mp hlen
    obtain ⟨hsize, rfl⟩ := (take_inverts lenBody _ _ _).mp hraw
    -- the body is read from its own bytes, as many as its length says
    rcases hu : userdata eventId rawBody with _ | ⟨body, unread⟩
    · rw [hu] at hbody
      exact absurd hbody (by simp [Reader.fail])
    · rw [hu] at hbody
      obtain ⟨rfl, rfl⟩ := Prod.mk.injEq _ _ _ _ ▸ Option.some.inj hbody
      obtain rfl : unread = [] := hunread
      obtain ⟨hvalid, rfl⟩ := (userdata_inverts eventId _ _).mp hu
      exact ⟨⟨hidlt, hlenlt, hsize.symm, hvalid⟩, by rw [id_eq, List.append_nil]⟩
  · rintro ⟨⟨hid, hlen, hsize, hvalid⟩, rfl⟩
    refine ⟨m.eventId, _, (uint_inverts 2).read_append hid _, m.lenBody, _,
      (uint_inverts 2).read_append hlen _, m.body.bytes, [], ?_, ?_⟩
    · have hread := (take_inverts m.lenBody).read_append hsize.symm []
      rwa [id_eq, List.append_nil] at hread
    · rw [(userdata_inverts m.eventId _ _).mpr ⟨hvalid, rfl⟩, ← hunread]
      rfl

/-- The strings of a body in the order they are read. -/
def Userdata.strings (u : Userdata) : List (List UInt8) :=
  [u.metricAccount, u.metricNamespace, u.metricName] ++ u.dimensionsNames ++
    u.dimensionsValues ++ u.apContainer.toList

theorem Userdata.bytes_eq (u : Userdata) :
    u.bytes = leBytes 2 u.numDimensions ++ (u.padding ++ (valueSectionBytes u.valueSection ++
      (u.strings.flatMap (lenStringBytes 2) ++ u.histogram.elim [] Histogram.bytes))) := by
  rcases hap : u.apContainer with _ | s
  · simp [Userdata.bytes, Userdata.strings, hap]
  · simp [Userdata.bytes, Userdata.strings, hap]

theorem Userdata.Valid.length_lt {eventId : ℕ} {u : Userdata} (h : u.Valid eventId) :
    ∀ s ∈ u.strings, s.length < 256 ^ 2 := by
  intro s hs
  simp only [Userdata.strings, List.mem_append, List.mem_cons, List.not_mem_nil, or_false,
    Option.mem_toList] at hs
  rcases hs with (((rfl | rfl | rfl) | hs) | hs) | hs
  · exact h.metricAccount
  · exact h.metricNamespace
  · exact h.metricName
  · exact h.dimensionsNames.2 s hs
  · exact h.dimensionsValues.2 s hs
  · exact h.apContainer s hs

end IfxMetricsBin
