/-
The span of a request in the nginx module (`otel_ngx_module.cpp`).

Regular expressions and scripts are nginx's own and parameters (`NgxCore`), and so are
the propagators (`Sdk`).  The variable slot `otel_ctx` is always found, since its
getter never fails.  A null span is undefined, and `none` here.
-/
import OtelContrib.Sdk.Tracer
import Mathlib.Algebra.Order.Ring.Nat
import Mathlib.Data.FinEnum
import Mathlib.Data.Int.Notation

open Otel

namespace Nginx

/-! ### Configuration -/

inductive TracePropagationType
  | TracePropagationUnset | TracePropagationW3C | TracePropagationB3 | TracePropagationB3Multi
  deriving DecidableEq

/-- A script; one without variables is its own text. -/
structure NgxCompiledScript where
  pattern : Bytes
  hasVariables : Bool

inductive ScriptAttributeType
  | ScriptAttributeInt | ScriptAttributeString
  deriving DecidableEq

structure CompiledScriptAttribute where
  key : NgxCompiledScript
  value : NgxCompiledScript
  type : ScriptAttributeType

/-- The merged configuration of a location; a regular expression is given by its text. -/
structure OtelNgxLocationConf where
  enabled : Bool
  trustIncomingSpans : Bool
  captureHeaders : Bool
  sensitiveHeaderNames : Option Bytes
  sensitiveHeaderValues : Option Bytes
  ignore_paths : Option Bytes
  propagationType : TracePropagationType
  operationNameScript : NgxCompiledScript
  customAttributes : List CompiledScriptAttribute

/-! ### Requests -/

/-- The headers of a message, over all parts of its list. -/
abbrev Headers := List (Bytes × Bytes)

-- for lists of places among the headers
instance lawfulBEq_place : LawfulBEq (Option ℕ) := inferInstance

/-- The headers of a request, and which of them are its `Host` and `User-Agent`. -/
structure HeadersIn where
  headers : Headers
  host : Option ℕ
  user_agent : Option ℕ

structure HeadersOut where
  status : UInt64
  headers : Headers

/-- What the module reads of an `ngx_http_request_t` at one call: its address, whether it
has a parent, and the configuration of the location that is current.  `location` is the
name of the location, if there is one. -/
structure NgxHttpRequest where
  address : ℕ
  parent : Bool
  internal : Bool
  locConf : OtelNgxLocationConf
  location : Option Bytes
  unparsed_uri : Bytes
  method_name : Bytes
  http_version : ℕ
  server_name : Bytes
  headers_in : HeadersIn
  headers_out : HeadersOut

/-- `ngx_regex_exec`, which is negative for no match and for an error, and what a script
with variables gives, if it can be run. -/
structure NgxCore where
  ngx_regex_exec : Bytes → Bytes → ℤ
  ngx_http_script_run : Bytes → NgxHttpRequest → Option Bytes

/-- What the two `Extract`s find in a carrier. -/
structure Sdk where
  httpTraceContext : (Bytes → Bytes) → Option RemoteContext
  b3Propagator : (Bytes → Bytes) → Option RemoteContext

def eqIgnoringCase (a b : Bytes) : Bool :=
  let lower := fun c : UInt8 => if 65 ≤ c ∧ c ≤ 90 then c + 32 else c
  a.map lower = b.map lower

/-- `TextMapCarrierNgx::Get`: the first header with the key, and nothing otherwise. -/
def carrierGet (headers : Headers) (key : Bytes) : Bytes :=
  ((headers.find? fun header => eqIgnoringCase key header.1).map Prod.snd).getD []

/-- `ExtractContext`, and the span it puts into the context. -/
def extractContext (sdk : Sdk) (req : NgxHttpRequest) : Option RemoteContext :=
  match req.locConf.propagationType with
  | .TracePropagationW3C => sdk.httpTraceContext (carrierGet req.headers_in.headers)
  | .TracePropagationB3Multi | .TracePropagationB3 =>
    sdk.b3Propagator (carrierGet req.headers_in.headers)
  | .TracePropagationUnset => none

/-- `NgxHttpFlavor`. -/
def ngxHttpFlavor (req : NgxHttpRequest) : Bytes :=
  if req.http_version = 1001 then ascii "1.1"
  else if req.http_version = 2000 then ascii "2.0"
  else if req.http_version = 1000 then ascii "1.0"
  else []

/-- `NgxNormalizeAndCopyString`. -/
def ngxNormalize (s : Bytes) : Bytes :=
  s.map fun ch => if 65 ≤ ch ∧ ch ≤ 90 then ch + 32 else if ch = 45 then 95 else ch

/-! ### The trace contexts of a request -/

/-- `TraceContext`, less the headers for the upstream request, which no span depends on. -/
structure TraceContext where
  request : ℕ
  request_span : Option ℕ

/-- The spans, the trace contexts in the pool of the request in the order they were placed
there, and the map from requests to them, if the variable slot has one. -/
structure State where
  tracer : Tracer
  contexts : List TraceContext
  otel_ctx : Option (List (ℕ × ℕ))

section

variable (ngx : NgxCore) (sdk : Sdk)

/-- `IsOtelEnabled`. -/
def isOtelEnabled (req : NgxHttpRequest) : Bool :=
  req.locConf.enabled &&
    match req.locConf.ignore_paths with
    | none => true
    | some ignore_paths => ngx.ngx_regex_exec ignore_paths req.unparsed_uri < 0

/-- `GetTraceContext`. -/
def getTraceContext (s : State) (req : NgxHttpRequest) : Option ℕ :=
  (s.otel_ctx.getD []).lookup req.address

/-- `CreateTraceContext`: a request without a parent always gets a map of its own. -/
def createTraceContext (s : State) (req : NgxHttpRequest) : ℕ × State :=
  let context := s.contexts.length
  let map :=
    match s.otel_ctx with
    | some map => if req.parent then map else []
    | none => []
  -- inserting does not overwrite
  let map := if (map.lookup req.address).isSome then map else map ++ [(req.address, context)]
  (context,
    { s with contexts := s.contexts ++ [⟨req.address, none⟩], otel_ctx := some map })

/-- `NgxCompiledScript::Run`. -/
def NgxCompiledScript.run (script : NgxCompiledScript) (req : NgxHttpRequest) : Option Bytes :=
  if ¬script.hasVariables then some script.pattern
  else ngx.ngx_http_script_run script.pattern req

/-- `GetOperationName`. -/
def getOperationName (req : NgxHttpRequest) : Bytes :=
  match req.locConf.operationNameScript.run ngx req with
  | some opName => opName
  | none => req.location.getD []

/-- What is recorded for a header's value. -/
def capturedValue (sensitiveHeaderNames sensitiveHeaderValues : Option Bytes)
    (header : Bytes × Bytes) : Bytes :=
  let isMatch := fun (regex : Option Bytes) (s : Bytes) =>
    regex.any fun regex => 0 ≤ ngx.ngx_regex_exec regex s
  if isMatch sensitiveHeaderNames header.1 ∨ isMatch sensitiveHeaderValues header.2 then
    ascii "[REDACTED]"
  else header.2

/-- `OtelCaptureHeaders`; the excluded headers are given by their positions. -/
def otelCaptureHeaders (t : Tracer) (span : ℕ) (keyPrefix : Bytes) (headers : Headers)
    (sensitiveHeaderNames sensitiveHeaderValues : Option Bytes)
    (excludedHeaders : List (Option ℕ)) :
    Tracer :=
  headers.zipIdx.foldl
    (fun t entry =>
      if some entry.2 ∈ excludedHeaders then t
      else t.setAttribute span (keyPrefix ++ ngxNormalize entry.1.1)
        (.stringArray [capturedValue ngx sensitiveHeaderNames sensitiveHeaderValues entry.1]))
    t

/-- The value of a header that the request points to. -/
def HeadersIn.value (headers_in : HeadersIn) (header : Option ℕ) : Option Bytes :=
  (header.bind fun i => headers_in.headers[i]?).map Prod.snd

/-- An attribute that is set where there is a value for it. -/
def setIfPresent (t : Tracer) (span : ℕ) (key : Bytes) (value : Option Bytes) : Tracer :=
  match value with
  | some value => t.setAttribute span key (.string value)
  | none => t

/-- `StartNgxSpan`. -/
def startNgxSpan (s : State) (req : NgxHttpRequest) : State :=
  if ¬isOtelEnabled ngx req then s
  else if req.internal then s
  else
    let (context, s) := createTraceContext s req
    let incomingContext := if req.locConf.trustIncomingSpans then extractContext sdk req else none
    let (span, tracer) := s.tracer.startSpanUnder
      ((incomingContext.map SpanContext.remote).or s.tracer.contexts.current.span)
      (getOperationName ngx req) .SERVER
      ((∅ : Attributes)
        |>.insert (ascii "http.method") (.string req.method_name)
        |>.insert (ascii "http.flavor") (.string (ngxHttpFlavor req))
        |>.insert (ascii "http.target") (.string req.unparsed_uri))
    let tracer := setIfPresent tracer span (ascii "http.server_name")
      (if req.server_name = [] then none else some req.server_name)
    let tracer := setIfPresent tracer span (ascii "http.host")
      (req.headers_in.value req.headers_in.host)
    let tracer := setIfPresent tracer span (ascii "http.user_agent")
      (req.headers_in.value req.headers_in.user_agent)
    let tracer :=
      if req.locConf.captureHeaders then
        otelCaptureHeaders ngx tracer span (ascii "http.request.header.") req.headers_in.headers
          req.locConf.sensitiveHeaderNames req.locConf.sensitiveHeaderValues
          [req.headers_in.host, req.headers_in.user_agent]
      else tracer
    { s with
      tracer := tracer
      contexts := s.contexts.modify context fun c => { c with request_span := some span } }

/-- `ngx_atoi`. -/
def ngxAtoi (s : Bytes) : Int64 :=
  let value := s.foldl (fun n d => 10 * n + (d.toNat - 48)) 0
  if s ≠ [] ∧ (∀ d ∈ s, 48 ≤ d ∧ d ≤ 57) ∧ value < 2 ^ 63 then Int64.ofNat value else -1

/-- What an attribute sets, if both its scripts can be run. -/
def CompiledScriptAttribute.eval (attrib : CompiledScriptAttribute) (req : NgxHttpRequest) :
    Option (Bytes × AttributeValue) :=
  match attrib.key.run ngx req, attrib.value.run ngx req with
  | some key, some value =>
    some (key, match attrib.type with
      | .ScriptAttributeInt => .int64 (ngxAtoi value)
      | .ScriptAttributeString => .string value)
  | _, _ => none

/-- `AddScriptAttributes`. -/
def addScriptAttributes (t : Tracer) (span : ℕ) (attributes : List CompiledScriptAttribute)
    (req : NgxHttpRequest) : Tracer :=
  attributes.foldl
    (fun t attrib =>
      match attrib.eval ngx req with
      | some (key, value) => t.setAttribute span key value
      | none => t)
    t

/-- `FinishNgxSpan`, with the attributes of the main configuration. -/
def finishNgxSpan (scriptAttributes : List CompiledScriptAttribute) (s : State)
    (req : NgxHttpRequest) : Option State :=
  if ¬isOtelEnabled ngx req then some s
  else
    match getTraceContext s req with
    | none => some s
    | some context => do
      let span ← s.contexts[context]?.bind TraceContext.request_span
      let status_code := req.headers_out.status
      let tracer := s.tracer.setAttribute span (ascii "http.status_code") (.uint64 status_code)
      let tracer := tracer.setStatus span (if status_code ≥ 500 then .Error else .Ok) []
      let tracer :=
        if req.locConf.captureHeaders then
          otelCaptureHeaders ngx tracer span (ascii "http.response.header.")
            req.headers_out.headers req.locConf.sensitiveHeaderNames
            req.locConf.sensitiveHeaderValues []
        else tracer
      let tracer := addScriptAttributes ngx tracer span scriptAttributes req
      let tracer := addScriptAttributes ngx tracer span req.locConf.customAttributes req
      let tracer := tracer.updateName span (getOperationName ngx req)
      some { s with tracer := tracer.endSpan span }

end

/-- `TraceContextCleanup` of all contexts when the pool goes, the last one first: the
last owner of a span ends it if nothing has. -/
def destroyPool (s : State) : Tracer :=
  s.contexts.reverse.foldl
    (fun t context =>
      match context.request_span with
      | some span => if span ∈ t.ended then t else t.endSpan span
      | none => t)
    s.tracer

end Nginx
