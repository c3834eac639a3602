/-
How the webserver core reads its settings (`ApiUtils.cpp`, `TenantConfig.h`, and the
rules of `SpanNamer.cpp`).

The settings are read into local variables, four of them without an initial value, and then
written to the caller's configuration one field after another.  A field that was never written
is `none`.
-/
import OtelContrib.Lib.OrderedMap
import OtelContrib.Webserver.RequestProcessingEngine

namespace Webserver

/-! ### What is configured -/

/-- `TenantConfig`; the numbers and the flag are `none` before they are set. -/
structure TenantConfig where
  serviceNamespace : Bytes
  serviceName : Bytes
  serviceInstanceId : Bytes
  otelLibraryName : Bytes
  otelLibraryVersion : Bytes
  otelExporterType : Bytes
  otelExporterEndpoint : Bytes
  otelExporterOtlpHeaders : Bytes
  otelSslEnabled : Option Bool
  otelSslCertPath : Bytes
  otelPropagatorType : Bytes
  otelProcessorType : Bytes
  otelSamplerType : Bytes
  otelMaxQueueSize : Option UInt32
  otelScheduledDelayMillis : Option UInt32
  otelExportTimeoutMillis : Option UInt32
  otelMaxExportBatchSize : Option UInt32
  deriving DecidableEq

namespace TenantConfig

/-- `TenantConfig()`. -/
def new : TenantConfig :=
  ⟨[], [], [], [], [], [], [], [], none, [], [], [], [], none, none, none, none⟩

/-- The namespace, the name and the instance id. -/
def triple (c : TenantConfig) : Bytes × Bytes × Bytes :=
  (c.serviceNamespace, c.serviceName, c.serviceInstanceId)

/-- `copyAllExceptNamespaceNameId`. -/
def copyAllExceptNamespaceNameId (c copyfrom : TenantConfig) : TenantConfig :=
  { copyfrom with
    serviceNamespace := c.serviceNamespace
    serviceName := c.serviceName
    serviceInstanceId := c.serviceInstanceId }

@[simp] theorem triple_copyAllExceptNamespaceNameId (c copyfrom : TenantConfig) :
    (c.copyAllExceptNamespaceNameId copyfrom).triple = c.triple := rfl

end TenantConfig

inductive SegmentType
  | FIRST | LAST | CUSTOM
  deriving DecidableEq

structure SpanNamer where
  segmentType : SegmentType
  segmentCount : UInt32
  segmentValues : Bytes
  deriving DecidableEq

/-! ### Casts -/

/-- `boost::lexical_cast<unsigned int>`: digits that fit, which a sign may precede; after
a minus sign the number is negated modulo `2 ^ 32`. -/
def lexicalCastUnsigned (s : Bytes) : Option UInt32 :=
  let digits := match s with
    | b :: rest => if b = 43 ∨ b = 45 then rest else s
    | [] => []
  let value := digits.foldl (fun n d => 10 * n + (d.toNat - 48)) 0
  if digits = [] ∨ (digits.any fun d => d < 48 ∨ 57 < d) ∨ 2 ^ 32 ≤ value then none
  else if s.head? = some 45 then some (-UInt32.ofNat value)
  else some (UInt32.ofNat value)

/-- `boost::lexical_cast<bool>`: zeros and a last digit `0` or `1`, which a sign may
precede, a minus sign only if the last digit is `0`. -/
def lexicalCastBool (s : Bytes) : Option Bool :=
  match s.getLast? with
  | none => none
  | some last =>
    if last ≠ 48 ∧ last ≠ 49 then none
    else
      let before := match s.dropLast with
        | b :: rest => if b = 43 ∨ b = 45 ∧ last = 48 then rest else b :: rest
        | [] => []
      if before.all fun b => b = 48 then some (last = 49) else none

/-! ### Span naming rules -/

namespace SpanNamer

def defaultSegmentCount : UInt32 := 2

/-- `SpanNamer()`. -/
def new : SpanNamer := ⟨.FIRST, defaultSegmentCount, []⟩

def setSegmentType (n : SpanNamer) (type : Bytes) : SpanNamer :=
  let lcType := type.map fun b => if 65 ≤ b ∧ b ≤ 90 then b + 32 else b
  if lcType = ascii "last" then { n with segmentType := .LAST }
  else if lcType = ascii "custom" then { n with segmentType := .CUSTOM }
  else { n with segmentType := .FIRST }

def validateAndSetSegmentParameter (n : SpanNamer) (segmentParameter : Bytes) : SpanNamer :=
  match n.segmentType with
  | .FIRST | .LAST =>
    let segmentCount := (lexicalCastUnsigned segmentParameter).getD defaultSegmentCount
    { n with segmentCount := if segmentCount = 0 then defaultSegmentCount else segmentCount }
  | .CUSTOM => { n with segmentValues := segmentParameter }

def setSegmentRules (n : SpanNamer) (segmentType segmentParameter : Bytes) : SpanNamer :=
  (n.setSegmentType segmentType).validateAndSetSegmentParameter segmentParameter

end SpanNamer

/-! ### Reading the records -/

/-- `OTEL_SDK_ENV_RECORD`: both pointers may be null. -/
structure OtelSdkEnvRecord where
  name : Option Bytes
  value : Option Bytes

namespace PassedEnvinronmentReader

/-- The loop of `Init` over the records. -/
def readRecords (env : OrderedMap Bytes Bytes) :
    List OtelSdkEnvRecord → Except OtelSdkStatusCode (OrderedMap Bytes Bytes)
  | [] => .ok env
  | record :: records =>
    match record.name, record.value with
    | none, _ | some [], _ => .error .environment_record_name_is_not_specified_or_empty
    | some (_ :: _), none => .error .environment_record_value_is_not_specified
    | some (b :: sName), some sValue => readRecords (env.insert (b :: sName) sValue) records

/-- `Init`; the array may be null. -/
def init : Option (List OtelSdkEnvRecord) → Except OtelSdkStatusCode (OrderedMap Bytes Bytes)
  | none => .error .environment_records_are_invalid
  | some envIn => readRecords ∅ envIn

def readMandatory (env : OrderedMap Bytes Bytes) (varName : Bytes) :
    Except OtelSdkStatusCode Bytes :=
  match env.find? varName with
  | none => .error .unspecified_environment_variable
  | some [] => .error .environment_variable_invalid_value
  | some (b :: value) => .ok (b :: value)

/-- `ReadOptional`, which never fails. -/
def readOptional (env : OrderedMap Bytes Bytes) (varName : Bytes) : Bytes :=
  (env.find? varName).getD []

end PassedEnvinronmentReader

namespace ApiUtils

open PassedEnvinronmentReader

/-- The memory of the local variables without an initial value. -/
structure Locals where
  otelSslEnabled : Bool
  otelMaxQueueSize : UInt32
  otelScheduledDelayMillis : UInt32
  otelMaxExportBatchSize : UInt32

/-- The objects of the caller. -/
structure Caller where
  tenantConfig : TenantConfig
  spanNamer : SpanNamer

/-- Statements that may return a status early and write to the caller's objects. -/
abbrev Reading := ExceptT OtelSdkStatusCode (StateM Caller)

/-- A function that writes to local variables only. -/
def Reading.local {α : Type} (x : Except OtelSdkStatusCode α) : Reading α := ExceptT.mk (pure x)

/-- A call of a setter. -/
def Reading.config (setter : TenantConfig → TenantConfig) : Reading Unit :=
  modify fun caller => { caller with tenantConfig := setter caller.tenantConfig }

/-- `ReadOptionalFromReader`: the result is as it was when there is no text. -/
def readOptionalFromReader {α : Type} (lexicalCast : Bytes → Option α)
    (env : OrderedMap Bytes Bytes)
    (varName : Bytes) (result : α) : Except OtelSdkStatusCode α :=
  let value := readOptional env varName
  if value = [] then .ok result
  else
    match lexicalCast value with
    | some result => .ok result
    | none => .error .environment_variable_invalid_value

/-- `ReadSettingsFromReader`. -/
def readSettingsFromReader (env : OrderedMap Bytes Bytes) (locals : Locals) : Reading Unit := do
  let serviceNamespace ← .local (readMandatory env (ascii "OTEL_SDK_ENV_SERVICE_NAMESPACE"))
  let serviceName ← .local (readMandatory env (ascii "OTEL_SDK_ENV_SERVICE_NAME"))
  let serviceInstanceId ← .local (readMandatory env (ascii "OTEL_SDK_ENV_SERVICE_INSTANCE_ID"))
  let otelExporterType := readOptional env (ascii "OTEL_SDK_ENV_OTEL_EXPORTER_TYPE")
  let otelExporterEndpoint ← .local (readMandatory env
    (ascii "OTEL_SDK_ENV_OTEL_EXPORTER_ENDPOINT"))
  let otelSslEnabled ← .local (readOptionalFromReader lexicalCastBool env
    (ascii "OTEL_SDK_ENV_OTEL_SSL_ENABLED") locals.otelSslEnabled)
  let otelSslCertPath := readOptional env (ascii "OTEL_SDK_ENV_OTEL_SSL_CERTIFICATE_PATH")
  let otelLibraryName ← .local (readMandatory env (ascii "OTEL_SDK_ENV_OTEL_LIBRARY_NAME"))
  let otelProcessorType := readOptional env (ascii "OTEL_SDK_ENV_OTEL_PROCESSOR_TYPE")
  let otelPropagatorType := readOptional env (ascii "OTEL_SDK_ENV_OTEL_PROPAGATOR_TYPE")
  let otelSamplerType := readOptional env (ascii "OTEL_SDK_ENV_OTEL_SAMPLER_TYPE")
  let otelMaxQueueSize ← .local (readOptionalFromReader lexicalCastUnsigned env
    (ascii "OTEL_SDK_ENV_MAX_QUEUE_SIZE") locals.otelMaxQueueSize)
  let otelScheduledDelayMillis ← .local (readOptionalFromReader lexicalCastUnsigned env
    (ascii "OTEL_SDK_ENV_SCHEDULED_DELAY") locals.otelScheduledDelayMillis)
  let otelMaxExportBatchSize ← .local (readOptionalFromReader lexicalCastUnsigned env
    (ascii "OTEL_SDK_ENV_EXPORT_BATCH_SIZE") locals.otelMaxExportBatchSize)
  let segmentType := readOptional env (ascii "OTEL_SDK_ENV_SEGMENT_TYPE")
  let segmentParameter := readOptional env (ascii "OTEL_SDK_ENV_SEGMENT_PARAMETER")
  let otelExporterOtlpHeaders := readOptional env (ascii "OTEL_SDK_ENV_OTEL_EXPORTER_OTLPHEADERS")
  .config fun c => { c with serviceNamespace := serviceNamespace }
  .config fun c => { c with serviceName := serviceName }
  .config fun c => { c with serviceInstanceId := serviceInstanceId }
  .config fun c => { c with otelExporterType := otelExporterType }
  .config fun c => { c with otelExporterEndpoint := otelExporterEndpoint }
  .config fun c => { c with otelExporterOtlpHeaders := otelExporterOtlpHeaders }
  .config fun c => { c with otelLibraryName := otelLibraryName }
  .config fun c => { c with otelProcessorType := otelProcessorType }
  .config fun c => { c with otelPropagatorType := otelPropagatorType }
  .config fun c => { c with otelSamplerType := otelSamplerType }
  .config fun c => { c with otelMaxQueueSize := some otelMaxQueueSize }
  .config fun c => { c with otelScheduledDelayMillis := some otelScheduledDelayMillis }
  .config fun c => { c with otelMaxExportBatchSize := some otelMaxExportBatchSize }
  .config fun c => { c with otelSslEnabled := some otelSslEnabled }
  .config fun c => { c with otelSslCertPath := otelSslCertPath }
  modify fun caller =>
    { caller with spanNamer := caller.spanNamer.setSegmentRules segmentType segmentParameter }

/-- `ReadFromPassedSettings`: the status, and the caller's objects afterwards. -/
def readFromPassedSettings (envIn : Option (List OtelSdkEnvRecord)) (locals : Locals)
    (caller : Caller) :
    OtelSdkStatusCode × Caller :=
  match PassedEnvinronmentReader.init envIn with
  | .error res => (res, caller)
  | .ok env =>
    match (readSettingsFromReader env locals).run caller with
    | (.error status, caller) => (status, caller)
    | (.ok (), caller) => (.success, caller)

end ApiUtils

end Webserver
