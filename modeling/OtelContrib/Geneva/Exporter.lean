/-
The Geneva metrics exporter (`exporter.h`, `exporter.cc`).

The serializers of the exporter run in `BoundedWriter.Serializer`: the buffer
and `bufferIndex` are the state, and aborting is the early `return 0`, which
leaves what was written so far in `buffer_` (`runSerializer`).  The loops over dimensions are the
same text in both serializers and stand here once; each keeps its own filter.

`SerializeInt` copies the object representation of an integer, so the byte
order is the host's; the model is of a little-endian host.
-/
import OtelContrib.Lib.BoundedWriter
import OtelContrib.Lib.ByteCodec
import OtelContrib.Lib.OrderedMap
import OtelContrib.Geneva.ConnectionString

open BoundedWriter BoundedWriter.Serializer ByteCodec

namespace Geneva

def kBufferSize : ℕ := 65360
def kMaxDimensionNameSize : ℕ := 256
def kMaxDimensionValueSize : ℕ := 1024
def kBinaryHeaderSize : ℕ := 4
def kMetricPayloadSize : ℕ := 24
def kExternalPayloadSize : ℕ := 40

def kWindowsTicksPerSecond : UInt64 := 10000000
def kSecondsToUnixTime : UInt64 := 11644473600

def kAttributeNamespaceKey : List UInt8 := ascii "_microsoft_metrics_namespace"
def kAttributeAccountKey : List UInt8 := ascii "_microsoft_metrics_account"

/-! ### Data handed to the exporter -/

inductive MetricsEventType
  | Uint64Metric
  | DoubleScaledToLongMetric
  | BatchMetric
  | ExternallyAggregatedUlongMetric
  | ExternallyAggregatedDoubleMetric
  | DoubleMetric
  | ExternallyAggregatedUlongDistributionMetric
  | ExternallyAggregatedDoubleDistributionMetric
  | ExternallyAggregatedDoubleScaledToLongDistributionMetric
  | Undefined
  deriving DecidableEq

def MetricsEventType.toUInt16 : MetricsEventType → UInt16
  | .Uint64Metric => 50
  | .DoubleScaledToLongMetric => 51
  | .BatchMetric => 52
  | .ExternallyAggregatedUlongMetric => 53
  | .ExternallyAggregatedDoubleMetric => 54
  | .DoubleMetric => 55
  | .ExternallyAggregatedUlongDistributionMetric => 56
  | .ExternallyAggregatedDoubleDistributionMetric => 57
  | .ExternallyAggregatedDoubleScaledToLongDistributionMetric => 58
  | .Undefined => 100

inductive OwnedAttributeValue
  | bool (v : Bool)
  | int (v : Int32)
  | uint (v : UInt32)
  | int64 (v : Int64)
  | double (v : Binary64)
  | string (v : List UInt8)
  | spanBool (v : List Bool)
  | spanInt (v : List Int32)
  | spanUInt (v : List UInt32)
  | spanInt64 (v : List Int64)
  | spanDouble (v : List Binary64)
  | spanString (v : List (List UInt8))
  | uint64 (v : UInt64)
  | spanUInt64 (v : List UInt64)
  | spanByte (v : List UInt8)

abbrev PointAttributes := OrderedMap (List UInt8) OwnedAttributeValue

inductive ValueType
  | int64 (v : Int64)
  | double (v : Binary64)

def ValueType.isDouble : ValueType → Bool
  | .int64 _ => false
  | .double _ => true

structure SumPointData where
  value_ : ValueType
  isMonotonic : Bool

structure LastValuePointData where
  value_ : ValueType

/-- The SDK fills the three numbers from one aggregation, so they hold the same
alternative; a point that mixed them would end `Export` with a bad variant
access. -/
structure HistogramPointData where
  boundaries : List Binary64
  sum : ValueType
  min : ValueType
  max : ValueType
  counts : List UInt64
  count : UInt64
  uniform : min.isDouble = sum.isDouble ∧ max.isDouble = sum.isDouble

inductive PointType
  | sum (p : SumPointData)
  | lastValue (p : LastValuePointData)
  | histogram (p : HistogramPointData)
  | drop

structure PointDataAttributes where
  attributes : PointAttributes
  pointData : PointType

/-- Time since the Unix epoch in nanoseconds. -/
structure SystemTimestamp where
  timeSinceEpoch : Int64

structure MetricData where
  name : List UInt8
  endTs : SystemTimestamp
  pointDataAttr : List PointDataAttributes

structure ScopeMetrics where
  metricData : List MetricData

structure ResourceMetrics where
  scopeMetricData : List ScopeMetrics

structure ExporterOptions where
  connectionString : List UInt8
  prepopulatedDimensions : OrderedMap (List UInt8) (List UInt8)

/-- A constructed exporter.  The constructor parses the connection string of
the options and connects the transport it created for the Unix protocol, so an
exporter that exists has that transport. -/
structure Exporter where
  options : ExporterOptions
  connectionStringParser : ConnectionStringParser
  isShutdown : Bool
  buffer : Memory
  parsed : connectionStringParser = ConnectionStringParser.ofString options.connectionString
  hasTransport : connectionStringParser.transportProtocol = .kUNIX

/-- What one `data_transport_->Send` is handed. -/
structure Message where
  eventType : MetricsEventType
  data : List UInt8
  deriving DecidableEq

/-! ### Field serializers -/

/-- `SerializeInt<T>` for a `T` of `sizeofT` bytes. -/
def serializeInt (sizeofT value : ℕ) : Serializer Unit := do
  let index ← getIndex
  if index + sizeofT > kBufferSize then abort
  else append (leBytes sizeofT value)

/-- `SerializeString`; the result of the inner `SerializeInt` is not looked at. -/
def serializeString (str : List UInt8) : Serializer Unit := do
  let size := str.length
  let index ← getIndex
  if index + 2 + size > kBufferSize then abort
  else do
    (serializeInt 2 (UInt16.ofNat size).toNat).attempt
    if size > 0 then append str else pure ()

def attributeValueToString : OwnedAttributeValue → List UInt8
  | .bool v => if v then ascii "true" else ascii "false"
  | .int v => ascii (toString v.toInt)
  | .int64 v => ascii (toString v.toInt)
  | .uint v => ascii (toString v.toNat)
  | .uint64 v => ascii (toString v.toNat)
  | .double v => v.toDecimal
  | .string v => v
  -- nested attributes are not supported and give the empty string
  | _ => []

def unixTimeToWindowsTicks (unixEpochSecs : UInt64) : UInt64 :=
  (unixEpochSecs + kSecondsToUnixTime) * kWindowsTicksPerSecond

/-- The `duration_cast` of a timestamp to unsigned whole seconds. -/
def SystemTimestamp.seconds (ts : SystemTimestamp) : UInt64 :=
  ts.timeSinceEpoch.toUInt64 / 1000000000

def windowsTicks (ts : SystemTimestamp) : UInt64 := unixTimeToWindowsTicks ts.seconds

/-! ### Account, namespace, name and dimensions -/

/-- The loop that reads account and namespace from the attributes. -/
def accountAndNamespace (p : ConnectionStringParser) (attributes : PointAttributes) :
    List UInt8 × List UInt8 :=
  attributes.entries.foldl
    (fun acc kv =>
      if kv.1 = kAttributeAccountKey then (attributeValueToString kv.2, acc.2)
      else if kv.1 = kAttributeNamespaceKey then (acc.1, attributeValueToString kv.2)
      else acc)
    (p.account, p.namespace_)

def serializePrepopulatedNames (options : ExporterOptions) (attributesSize : UInt16) :
    Serializer UInt16 :=
  options.prepopulatedDimensions.entries.foldlM
    (fun attributesSize kv =>
      if kv.1.length > kMaxDimensionNameSize then pure attributesSize
      else do
        let attributesSize := attributesSize + 1
        serializeString kv.1
        pure attributesSize)
    attributesSize

def serializeAttributeNames (attributes : PointAttributes) (attributesSize : UInt16) :
    Serializer UInt16 :=
  attributes.entries.foldlM
    (fun attributesSize kv =>
      if kv.1.length > kMaxDimensionNameSize then pure attributesSize
      else if kv.1 = kAttributeAccountKey ∨ kv.1 = kAttributeNamespaceKey then
        pure attributesSize
      else do
        let attributesSize := attributesSize + 1
        serializeString kv.1
        pure attributesSize)
    attributesSize

/-- The values of the prepopulated dimensions.  The filter looks at the length
of the value, where the loop over the names looks at the length of the name. -/
def serializePrepopulatedValues (options : ExporterOptions) : Serializer Unit :=
  options.prepopulatedDimensions.entries.forM fun kv =>
    if kv.2.length > kMaxDimensionNameSize then pure ()
    else serializeString kv.2

def serializeAttributeValues (attributes : PointAttributes) : Serializer Unit :=
  attributes.entries.forM fun kv =>
    if kv.1.length > kMaxDimensionNameSize then pure ()
    else if kv.1 = kAttributeAccountKey ∨ kv.1 = kAttributeNamespaceKey then pure ()
    else
      let attrValue := attributeValueToString kv.2
      serializeString
        (if attrValue.length > kMaxDimensionValueSize then attrValue.take kMaxDimensionValueSize
         else attrValue)

/-- From the account name to the last dimension value; returns `attributes_size`. -/
def serializeDimensions (options : ExporterOptions) (p : ConnectionStringParser)
    (metricName : List UInt8) (attributes : PointAttributes) : Serializer UInt16 := do
  let names := accountAndNamespace p attributes
  serializeString names.1
  serializeString names.2
  serializeString metricName
  let attributesSize ← serializePrepopulatedNames options 0
  let attributesSize ← serializeAttributeNames attributes attributesSize
  serializePrepopulatedValues options
  serializeAttributeValues attributes
  pure attributesSize

/-! ### Non-histogram metrics -/

/-- The pairs of event type and value that `Export` hands over: the
`Uint64Metric` of an integer and the `DoubleMetric` of a double. -/
inductive NonHistogramValue
  | Uint64Metric (v : Int64)
  | DoubleMetric (v : Binary64)

def NonHistogramValue.eventType : NonHistogramValue → MetricsEventType
  | .Uint64Metric _ => .Uint64Metric
  | .DoubleMetric _ => .DoubleMetric

/-- The eight bytes the value field carries. -/
def NonHistogramValue.bits : NonHistogramValue → UInt64
  | .Uint64Metric v => v.toUInt64
  | .DoubleMetric v => v.bits

/-- The variable-length content behind the fixed payload. -/
def serializeNonHistogramContent (options : ExporterOptions) (p : ConnectionStringParser)
    (metricName : List UInt8) (attributes : PointAttributes) : Serializer UInt16 := do
  let attributesSize ← serializeDimensions options p metricName attributes
  serializeInt 2 0
  pure attributesSize

/-- The fields added in front once the final size is known. -/
def serializeNonHistogramHeader (value : NonHistogramValue) (ts : SystemTimestamp)
    (bodyLength attributesSize : UInt16) : Serializer Unit := do
  (serializeInt 2 value.eventType.toUInt16.toNat).attempt
  (serializeInt 2 bodyLength.toNat).attempt
  (serializeInt 2 attributesSize.toNat).attempt
  (serializeInt 2 0).attempt
  (serializeInt 4 0).attempt
  (serializeInt 8 (windowsTicks ts).toNat).attempt
  (serializeInt 8 value.bits.toNat).attempt

/-- `SerializeNonHistogramMetrics` with `bufferIndex` behind header and fixed
payload. -/
def serializeNonHistogramMetrics (options : ExporterOptions) (p : ConnectionStringParser)
    (value : NonHistogramValue) (ts : SystemTimestamp) (metricName : List UInt8)
    (attributes : PointAttributes) : Serializer ℕ := do
  let attributesSize ← serializeNonHistogramContent options p metricName attributes
  let bufferIndex ← getIndex
  let bodyLength := UInt16.ofNat (bufferIndex - kBinaryHeaderSize)
  (serializeNonHistogramHeader value ts bodyLength attributesSize).atIndex 0
  pure bodyLength.toNat

def Exporter.serializeNonHistogramMetrics (e : Exporter) (value : NonHistogramValue)
    (ts : SystemTimestamp) (metricName : List UInt8) (attributes : PointAttributes) :
    ℕ × Memory :=
  runSerializer
    (Geneva.serializeNonHistogramMetrics e.options e.connectionStringParser value ts metricName
      attributes)
    (kBinaryHeaderSize + kMetricPayloadSize) e.buffer

/-! ### Histograms -/

section
variable (undefinedCast : Binary64 → UInt64)

/-- The loop over the buckets; returns `bucket_count`. -/
def serializeBuckets (eventType : MetricsEventType) (boundaries : List Binary64)
    (counts : List UInt64) : Serializer UInt16 :=
  if eventType = .ExternallyAggregatedUlongDistributionMetric then
    boundaries.zipIdx.foldlM
      (fun bucketCount bi =>
        if bi.2 < counts.length ∧ counts.getD bi.2 0 > 0 then do
          serializeInt 8 (bi.1.toUInt64 undefinedCast).toNat
          serializeInt 4 (counts.getD bi.2 0).toUInt32.toNat
          pure (bucketCount + 1)
        else pure bucketCount)
      0
  else pure 0

/-- The variable-length content of a histogram, with the count of buckets
patched into the place kept for it; returns `attributes_size` and
`bucket_count`. -/
def serializeHistogramContent (options : ExporterOptions) (p : ConnectionStringParser)
    (eventType : MetricsEventType) (boundaries : List Binary64) (counts : List UInt64)
    (metricName : List UInt8) (attributes : PointAttributes) : Serializer (UInt16 × UInt16) := do
  let attributesSize ← serializeDimensions options p metricName attributes
  serializeInt 2 0
  serializeInt 1 0
  serializeInt 1 2
  let itemsWrittenIndex ← getIndex
  serializeInt 2 0
  let bucketCount ← serializeBuckets undefinedCast eventType boundaries counts
  ((serializeInt 2 bucketCount.toNat).attempt).atIndex itemsWrittenIndex
  pure (attributesSize, bucketCount)

/-- The fields added in front of a histogram. -/
def serializeHistogramHeader (eventType : MetricsEventType) (count : UInt64)
    (sum min max : Int64) (ts : SystemTimestamp) (bodyLength attributesSize : UInt16) :
    Serializer Unit := do
  (serializeInt 2 eventType.toUInt16.toNat).attempt
  (serializeInt 2 bodyLength.toNat).attempt
  (serializeInt 2 attributesSize.toNat).attempt
  (serializeInt 2 0).attempt
  (serializeInt 4 count.toUInt32.toNat).attempt
  (serializeInt 8 (windowsTicks ts).toNat).attempt
  if eventType = .ExternallyAggregatedUlongDistributionMetric then do
    (serializeInt 8 sum.toUInt64.toNat).attempt
    (serializeInt 8 min.toUInt64.toNat).attempt
    (serializeInt 8 max.toUInt64.toNat).attempt
  else pure ()

/-- `SerializeHistogramMetrics`; `Export` hands over `sum`, `min` and `max` as
integers. -/
def serializeHistogramMetrics (options : ExporterOptions) (p : ConnectionStringParser)
    (eventType : MetricsEventType) (count : UInt64) (sum min max : Int64)
    (boundaries : List Binary64) (counts : List UInt64) (ts : SystemTimestamp)
    (metricName : List UInt8) (attributes : PointAttributes) : Serializer ℕ := do
  let sizes ← serializeHistogramContent undefinedCast options p eventType boundaries counts
    metricName attributes
  let bufferIndex ← getIndex
  let bodyLength := UInt16.ofNat (bufferIndex - kBinaryHeaderSize)
  (serializeHistogramHeader eventType count sum min max ts bodyLength sizes.1).atIndex 0
  pure bodyLength.toNat

def Exporter.serializeHistogramMetrics (e : Exporter) (eventType : MetricsEventType)
    (count : UInt64) (sum min max : Int64) (boundaries : List Binary64) (counts : List UInt64)
    (ts : SystemTimestamp) (metricName : List UInt8) (attributes : PointAttributes) :
    ℕ × Memory :=
  runSerializer
    (Geneva.serializeHistogramMetrics undefinedCast e.options e.connectionStringParser eventType
      count sum min max boundaries counts ts metricName attributes)
    (kBinaryHeaderSize + kExternalPayloadSize) e.buffer

end

/-! ### Export -/

/-- The event type and value `Export` chooses for a sum. -/
def SumPointData.exported (p : SumPointData) : NonHistogramValue :=
  match p.value_ with
  | .double v => .DoubleMetric v
  | .int64 v => if p.isMonotonic then .Uint64Metric v else .DoubleMetric (.ofInt64 v)

/-- The event type and value `Export` chooses for a last value. -/
def LastValuePointData.exported (p : LastValuePointData) : NonHistogramValue :=
  match p.value_ with
  | .double v => .DoubleMetric v
  | .int64 v => .DoubleMetric (.ofInt64 v)

/-- What the platform gives for the casts of a double whose truncation is not
representable, which the language leaves undefined. -/
structure UndefinedCasts where
  toUInt64 : Binary64 → UInt64
  toInt64 : Binary64 → Int64

/-- `sum`, `min` or `max` as `Export` hands it over. -/
def ValueType.toLong (casts : UndefinedCasts) : ValueType → Int64
  | .int64 v => v
  | .double v => v.toInt64 casts.toInt64

inductive ExportResult
  | kSuccess | kFailure
  deriving DecidableEq

/-- Sends what was serialized, when anything was. -/
def Exporter.sendSerialized (e : Exporter) (eventType : MetricsEventType)
    (serialized : ℕ × Memory) : Exporter × List Message :=
  ({ e with buffer := serialized.2 },
    if serialized.1 > 0 then
      [⟨eventType, serialized.2.take (UInt16.ofNat (serialized.1 + kBinaryHeaderSize)).toNat⟩]
    else [])

/-- The body of the innermost loop of `Export`. -/
def Exporter.exportPoint (casts : UndefinedCasts) (e : Exporter) (metricData : MetricData)
    (point : PointDataAttributes) : Exporter × List Message :=
  match point.pointData with
  | .sum p =>
    e.sendSerialized p.exported.eventType
      (e.serializeNonHistogramMetrics p.exported metricData.endTs metricData.name point.attributes)
  | .lastValue p =>
    e.sendSerialized p.exported.eventType
      (e.serializeNonHistogramMetrics p.exported metricData.endTs metricData.name point.attributes)
  | .histogram p =>
    e.sendSerialized .ExternallyAggregatedUlongDistributionMetric
      (e.serializeHistogramMetrics casts.toUInt64 .ExternallyAggregatedUlongDistributionMetric
        p.count (p.sum.toLong casts) (p.min.toLong casts) (p.max.toLong casts) p.boundaries
        p.counts metricData.endTs metricData.name point.attributes)
  | .drop => (e, [])

/-- A loop of `Export`: the exporter and the messages sent so far go through
the iterations. -/
def exportLoop {α : Type} (body : Exporter → α → Exporter × List Message) (e : Exporter) :
    List α → Exporter × List Message
  | [] => (e, [])
  | x :: xs =>
    let first := body e x
    let others := exportLoop body first.1 xs
    (others.1, first.2 ++ others.2)

/-- `Export`: the result, the exporter afterwards, and the messages sent. -/
def Exporter.export (casts : UndefinedCasts) (e : Exporter) (data : ResourceMetrics) :
    ExportResult × Exporter × List Message :=
  if e.isShutdown then (.kFailure, e, [])
  else if data.scopeMetricData = [] then (.kSuccess, e, [])
  else
    (.kSuccess,
      exportLoop
        (fun e record =>
          exportLoop
            (fun e metricData =>
              exportLoop (fun e point => e.exportPoint casts metricData point) e
                metricData.pointDataAttr)
            e record.metricData)
        e data.scopeMetricData)

/-- An exporter over a Unix domain socket whose buffer is full of one byte. -/
def sampleExporter (prepopulatedDimensions : OrderedMap (List UInt8) (List UInt8)) (fill : UInt8) :
    Exporter where
  options := ⟨ascii "Endpoint=unix:///tmp/s;Account=a;Namespace=n", prepopulatedDimensions⟩
  connectionStringParser := .ofString (ascii "Endpoint=unix:///tmp/s;Account=a;Namespace=n")
  isShutdown := false
  buffer := ⟨fun _ => fill, []⟩
  parsed := rfl
  hasTransport := by decide +kernel

end Geneva
