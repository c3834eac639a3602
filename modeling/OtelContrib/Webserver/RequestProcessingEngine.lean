/-
The request processing engine of the webserver core (`RequestProcessingEngine.cpp`,
`RequestContext.h`) over its SDK wrapper (`SdkWrapper.cpp`, `ServerSpan.cpp`,
`ScopedSpan.cpp`).

The propagators, the text of a span id and the rule by which a token finds its entry
are the SDK's and parameters (`Sdk`).

An `IScopedSpan` is destroyed when its last `shared_ptr` goes: an interaction's at
the end of the call or loop iteration that ended it, the root span's when
`endRequest` returns.  A handle is the address of a `RequestContext`; a call with a
handle that is not live is undefined behaviour, and `none` here.
-/
import OtelContrib.Lib.Runs
import OtelContrib.Sdk.Tracer
import Mathlib.Algebra.Order.Ring.Nat
import Mathlib.Data.Int.Notation
import Mathlib.Logic.Function.Basic

open ContextStack Otel

namespace Webserver

/-! ### The SDK -/

abbrev Carrier := OrderedMap Bytes Bytes

abbrev OtelKeyValueMap := Attributes

/-- `Extract` gives a context whose span is the remote one when the carrier has a
valid header, and the given context otherwise; `Inject` sets headers. -/
structure Propagator where
  extract : Carrier → Option RemoteContext
  inject : Option SpanContext → Carrier → Carrier

structure Sdk where
  propagators : List Propagator
  toLowerBase16 : Option SpanContext → Bytes
  detachRule : DetachRule SpanContext
  /-- Whether the compiler gave the two empty literals that are compared by address
  one address. -/
  emptyLiteralsMerged : Bool
  /-- What an `unsigned int` holds that was never written. -/
  indeterminate : ℕ

/-! ### Scoped spans -/

structure ScopedSpan where
  mSpan : ℕ
  mScope : Entry SpanContext
  mSpanKind : SpanKind

/-- A `ServerSpan` or a plain `ScopedSpan`. -/
inductive IScopedSpan
  | serverSpan (mScopedSpan : ScopedSpan) (mToken : Entry SpanContext)
  | scopedSpan (s : ScopedSpan)

/-- The constructor of `ScopedSpan`. -/
def newScopedSpan (t : Tracer) (name : Bytes) (kind : SpanKind) (attributes : OtelKeyValueMap) :
    ScopedSpan × Tracer :=
  let (n, t) := t.startSpan name kind attributes
  let (scope, t) := t.withActiveSpan n
  (⟨n, scope, kind⟩, t)

/-- The constructor of `ServerSpan`. -/
def newServerSpan (sdk : Sdk) (t : Tracer) (name : Bytes) (attributes : OtelKeyValueMap)
    (carrier : Carrier) : IScopedSpan × Tracer :=
  let (context, contexts) := extractContext
    (sdk.propagators.map fun propagator => propagator.extract carrier) t.contexts.current t.contexts
  let (token, contexts) := contexts.attach context
  let (scopedSpan, t) := newScopedSpan { t with contexts := contexts } name .SERVER attributes
  (.serverSpan scopedSpan token, t)

/-- `SdkWrapper::CreateSpan`. -/
def createSpan (sdk : Sdk) (t : Tracer) (name : Bytes) (kind : SpanKind)
    (attributes : OtelKeyValueMap) (carrier : Carrier) : IScopedSpan × Tracer :=
  if kind = .SERVER then newServerSpan sdk t name attributes carrier
  else
    let (scopedSpan, t) := newScopedSpan t name kind attributes
    (.scopedSpan scopedSpan, t)

namespace IScopedSpan

/-- The span underneath. -/
def span : IScopedSpan → ℕ
  | .serverSpan s _ => s.mSpan
  | .scopedSpan s => s.mSpan

def getSpanKind : IScopedSpan → SpanKind
  | .serverSpan _ _ => .SERVER
  | .scopedSpan s => s.mSpanKind

/-- `End`; a server span detaches its context first. -/
def finish (sdk : Sdk) (t : Tracer) : IScopedSpan → Tracer
  | .serverSpan s token => (t.detach sdk.detachRule token).endSpan s.mSpan
  | .scopedSpan s => t.endSpan s.mSpan

/-- The destructor: members go in the reverse order of their declaration, and a token
that goes detaches. -/
def destroy (sdk : Sdk) (t : Tracer) : IScopedSpan → Tracer
  | .serverSpan s token => (t.detach sdk.detachRule token).detach sdk.detachRule s.mScope
  | .scopedSpan s => t.detach sdk.detachRule s.mScope

end IScopedSpan

/-- `SdkWrapper::ReturnCurrentSpanId`. -/
def returnCurrentSpanId (sdk : Sdk) (t : Tracer) : Bytes :=
  sdk.toLowerBase16 t.contexts.current.span

def CARRIER_HEADER_NAME : List Bytes :=
  [ascii "X-B3-TraceId", ascii "X-B3-SpanId", ascii "X-B3-Sampled", ascii "traceparent",
    ascii "tracestate"]

/-- The headers for a span.  A header that was not injected is the empty literal of the
carrier, and the comparison with `""` is of addresses. -/
def propagationHeaders (sdk : Sdk) (span : Option SpanContext) (carrier : Carrier) : Carrier :=
  let otelCarrier := sdk.propagators.foldl
    (fun otelCarrier propagator => propagator.inject span otelCarrier) ∅
  CARRIER_HEADER_NAME.foldl
    (fun carrier name =>
      match otelCarrier.find? name with
      | some value => carrier.insert name value
      | none => if sdk.emptyLiteralsMerged then carrier else carrier.insert name [])
    carrier

/-- `SdkWrapper::PopulatePropagationHeaders`. -/
def populatePropagationHeaders (sdk : Sdk) (t : Tracer) (carrier : Carrier) : Carrier :=
  propagationHeaders sdk t.contexts.current.span carrier

/-! ### Requests -/

/-- What a map has after one of its entries was put in place or removed. -/
theorem update_eq_some_iff {κ ν : Type} [DecidableEq κ] {entries : κ → Option ν} {key k : κ}
    {r : Option ν} {v : ν} :
    Function.update entries key r k = some v ↔
      (k = key ∧ r = some v) ∨ (k ≠ key ∧ entries k = some v) := by
  by_cases h : k = key
  · subst h
    simp
  · simp [h]

structure RequestContext where
  rootSpan : IScopedSpan
  contextName : Bytes
  /-- The active interactions, the most recent one on top. -/
  interactions : List IScopedSpan

structure RequestPayload where
  uri : Bytes
  requestProtocol : Bytes
  httpRequestMethod : Bytes
  httpHeaders : Carrier
  requestHeaders : OrderedMap Bytes Bytes
  serverName : Bytes
  scheme : Bytes
  host : Bytes
  target : Bytes
  flavor : Bytes
  clientIp : Bytes
  userAgent : Bytes
  operationName : Bytes
  peerPort : Int64
  port : Int64

structure ResponsePayload where
  responseHeaders : OrderedMap Bytes Bytes
  otelAttributes : OrderedMap Bytes Bytes
  statusCode : UInt32

structure InteractionPayload where
  moduleName : Bytes
  phaseName : Bytes

structure EndInteractionPayload where
  backendName : Bytes
  backendType : Bytes
  errorCode : Int64
  errorMsg : Bytes

inductive OtelSdkStatusCode
  | success | fail | agent_failed_to_start | unspecified_environment_variable
  | environment_variable_invalid_value | environment_records_are_invalid
  | environment_record_name_is_not_specified_or_empty | environment_record_value_is_not_specified
  | no_log_config | log_init_failed | uninitialized | already_initialized
  | payload_reflector_is_null | handle_pointer_is_null | wrong_process_id | invalid_context
  deriving DecidableEq

/-- The engine of one worker thread: the SDK's state and the live request contexts by
their handles. -/
structure RequestProcessingEngine where
  tracer : Tracer
  requests : ℕ → Option RequestContext
  nextHandle : ℕ

/-- What a call hands back: a status, the handle it made, and the headers. -/
structure Outcome where
  status : OtelSdkStatusCode
  reqHandle : Option ℕ
  propagationHeaders : Carrier

def kHttpErrorCode : Bytes := ascii "HTTP ERROR CODE:"
def HTTP_ERROR_1XX : ℤ := 100
def HTTP_ERROR_4XX : ℤ := 400
def HTTP_ERROR_5XX : ℤ := 500

/-- A call that failed. -/
def Outcome.failed (status : OtelSdkStatusCode) : Outcome := ⟨status, none, ∅⟩

/-- The attributes of a root span. -/
def rootAttributes (payload : RequestPayload) : OtelKeyValueMap :=
  let keyValueMap : OtelKeyValueMap := (∅ : OtelKeyValueMap)
    |>.insert (ascii "request_protocol") (.string payload.requestProtocol)
    |>.insert (ascii "http.server_name") (.string payload.serverName)
    |>.insert (ascii "http.method") (.string payload.httpRequestMethod)
    |>.insert (ascii "http.scheme") (.string payload.scheme)
    |>.insert (ascii "net.host.name") (.string payload.host)
    |>.insert (ascii "net.server.port") (.int64 payload.port)
    |>.insert (ascii "http.target") (.string payload.target)
    |>.insert (ascii "http.flavor") (.string payload.flavor)
    |>.insert (ascii "http.client_ip") (.string payload.clientIp)
    |>.insert (ascii "http.user_agent") (.string payload.userAgent)
    |>.insert (ascii "net.remote.port") (.int64 payload.peerPort)
  payload.requestHeaders.entries.foldl
    (fun keyValueMap header =>
      keyValueMap.insert (ascii "http.request.header." ++ header.1) (.string header.2))
    keyValueMap

/-- Reading an `unsigned int` from a stream that holds `s`: nothing is written when
there is nothing but blanks, `0` when there is no number, the largest number when it
does not fit. -/
def readUnsigned (s : Bytes) : Option ℕ :=
  let isSpace := fun b : UInt8 => b = 32 ∨ (9 ≤ b ∧ b ≤ 13)
  match s.dropWhile fun b => isSpace b with
  | [] => none
  | b :: rest =>
    let digits := (if b = 43 ∨ b = 45 then rest else b :: rest).takeWhile
      fun d => 48 ≤ d ∧ d ≤ 57
    let v := digits.foldl (fun n d => 10 * n + (d.toNat - 48)) 0
    if v ≥ 2 ^ 32 then some (2 ^ 32 - 1)
    else if b = 45 then some ((2 ^ 32 - v) % 2 ^ 32)
    else some v

/-- The status for an error code: below 400 and, for a server, below 500 nothing is
wrong on this side. -/
def setErrorStatus (t : Tracer) (s : IScopedSpan) (code : ℤ) (message : Bytes) : Tracer :=
  if HTTP_ERROR_1XX ≤ code ∧ code < HTTP_ERROR_4XX then t.setStatus s.span .Unset []
  else if HTTP_ERROR_4XX ≤ code ∧ code < HTTP_ERROR_5XX then
    if s.getSpanKind = .SERVER then t.setStatus s.span .Unset []
    else t.setStatus s.span .Error message
  else t.setStatus s.span .Error message

/-- The loop of `endRequest` over the interactions that are still active. -/
def endInteractions (sdk : Sdk) (t : Tracer) : List IScopedSpan → Tracer
  | [] => t
  | s :: rest => endInteractions sdk (s.destroy sdk (s.finish sdk t)) rest

/-- The attributes a response adds to the root span. -/
def addResponse (t : Tracer) (n : ℕ) (payload : ResponsePayload) : Tracer :=
  let t := t.addAttributes n (ascii "http.response.header.") payload.responseHeaders
  let t := t.addAttributes n (ascii "otel.attribute.") payload.otelAttributes
  t.setAttribute n (ascii "http.status_code") (.uint32 payload.statusCode)

/-- The status and the attributes `endRequest` gives the root span. -/
def describeRequest (sdk : Sdk) (t : Tracer) (rootSpan : IScopedSpan) (error : Option Bytes)
    (payload : Option ResponsePayload) : Tracer :=
  let t := match error with
    | some error => setErrorStatus t rootSpan ((readUnsigned error).getD sdk.indeterminate)
        (kHttpErrorCode ++ error)
    | none => t.setStatus rootSpan.span .Ok []
  match payload with
  | some payload => addResponse t rootSpan.span payload
  | none => t

/-- The status and the attributes `endInteraction` gives an interaction's span. -/
def describeInteraction (t : Tracer) (s : IScopedSpan) (payload : EndInteractionPayload) : Tracer :=
  let isError := payload.errorCode ≠ 0 ∧ payload.errorMsg ≠ []
  let t :=
    if isError then
      (setErrorStatus t s payload.errorCode.toInt payload.errorMsg).setAttribute s.span
        (ascii "error_code") (.int64 payload.errorCode)
    else t.setStatus s.span .Ok []
  if payload.backendName ≠ [] then
    (t.setAttribute s.span (ascii "backend_name") (.string payload.backendName)).setAttribute s.span
      (ascii "backend_type") (.string payload.backendType)
  else t

namespace RequestProcessingEngine

/-- The engine of a thread that has served nothing yet. -/
def init : RequestProcessingEngine := ⟨.init, fun _ => none, 0⟩

section
variable (sdk : Sdk) (getSpanName : Bytes → Bytes)

/-- `startRequest`; `reqHandle` says whether there is a place for the handle. -/
def startRequest (e : RequestProcessingEngine) (wscontext : Bytes) (payload : Option RequestPayload)
    (reqHandle : Bool) : Outcome × RequestProcessingEngine :=
  if reqHandle = false then (.failed .handle_pointer_is_null, e)
  else
    match payload with
    | none => (.failed .payload_reflector_is_null, e)
    | some payload =>
      let spanName :=
        if payload.operationName = [] then getSpanName payload.uri else payload.operationName
      let (span, tracer) :=
        createSpan sdk e.tracer spanName .SERVER (rootAttributes payload) payload.httpHeaders
      (⟨.success, some e.nextHandle, ∅⟩,
        { tracer := tracer
          requests := Function.update e.requests e.nextHandle (some ⟨span, wscontext, []⟩)
          nextHandle := e.nextHandle + 1 })

/-- `startInteraction`. -/
def startInteraction (e : RequestProcessingEngine) (reqHandle : Option ℕ)
    (payload : Option InteractionPayload) (propagationHeaders : Carrier) :
    Option (Outcome × RequestProcessingEngine) :=
  match reqHandle, payload with
  | none, _ => some (.failed .handle_pointer_is_null, e)
  | some _, none => some (.failed .payload_reflector_is_null, e)
  | some handle, some payload =>
    match e.requests handle with
    | none => none
    | some requestContext =>
      let spanName := payload.moduleName ++ ascii "_" ++ payload.phaseName
      let keyValueMap : OtelKeyValueMap :=
        (∅ : OtelKeyValueMap).insert (ascii "interactionType") (.string (ascii "EXIT_CALL"))
      let parentSpanId := returnCurrentSpanId sdk e.tracer
      let (interactionSpan, tracer) := createSpan sdk e.tracer spanName .CLIENT keyValueMap ∅
      let propagationHeaders := (populatePropagationHeaders sdk tracer propagationHeaders).insert
        (ascii "Parent_Span_Id") parentSpanId
      some (⟨.success, none, propagationHeaders⟩,
        { e with
          tracer := tracer
          requests := Function.update e.requests handle (some { requestContext with
            interactions := interactionSpan :: requestContext.interactions }) })

/-- `endInteraction`; `ignoreBackend` is not looked at. -/
def endInteraction (e : RequestProcessingEngine) (reqHandle : Option ℕ)
    (payload : Option EndInteractionPayload) : Option (Outcome × RequestProcessingEngine) :=
  match reqHandle, payload with
  | none, _ => some (.failed .handle_pointer_is_null, e)
  | some _, none => some (.failed .payload_reflector_is_null, e)
  | some handle, some payload =>
    match e.requests handle with
    | none => none
    | some rContext =>
      match rContext.interactions with
      | [] => some (.failed .invalid_context, e)
      | interactionSpan :: rest =>
        let tracer := describeInteraction e.tracer interactionSpan payload
        let tracer := interactionSpan.destroy sdk (interactionSpan.finish sdk tracer)
        some (⟨.success, none, ∅⟩,
          { e with
            tracer := tracer
            requests := Function.update e.requests handle
              (some { rContext with interactions := rest }) })

/-- `endRequest`. -/
def endRequest (e : RequestProcessingEngine) (reqHandle : Option ℕ) (error : Option Bytes)
    (payload : Option ResponsePayload) : Option (Outcome × RequestProcessingEngine) :=
  match reqHandle with
  | none => some (.failed .fail, e)
  | some handle =>
    match e.requests handle with
    | none => none
    | some requestContext =>
      let rootSpan := requestContext.rootSpan
      let tracer := endInteractions sdk e.tracer requestContext.interactions
      let tracer := describeRequest sdk tracer rootSpan error payload
      -- the request context goes before the root span, of which `rootSpan` is the last owner
      let tracer := rootSpan.destroy sdk (rootSpan.finish sdk tracer)
      some (⟨.success, none, ∅⟩,
        { e with tracer := tracer, requests := Function.update e.requests handle none })

/-! ### Calls in sequence -/

inductive Call
  | startRequest (wscontext : Bytes) (payload : Option RequestPayload) (reqHandle : Bool)
  | startInteraction (reqHandle : Option ℕ) (payload : Option InteractionPayload)
    (propagationHeaders : Carrier)
  | endInteraction (reqHandle : Option ℕ) (ignoreBackend : Bool)
    (payload : Option EndInteractionPayload)
  | endRequest (reqHandle : Option ℕ) (error : Option Bytes) (payload : Option ResponsePayload)

/-- One call on the engine. -/
def step (e : RequestProcessingEngine) : Call → Option (Outcome × RequestProcessingEngine)
  | .startRequest wscontext payload reqHandle =>
    some (e.startRequest sdk getSpanName wscontext payload reqHandle)
  | .startInteraction reqHandle payload propagationHeaders =>
    e.startInteraction sdk reqHandle payload propagationHeaders
  | .endInteraction reqHandle _ payload => e.endInteraction sdk reqHandle payload
  | .endRequest reqHandle error payload => e.endRequest sdk reqHandle error payload

/-- What a call that is defined can do: fail and change nothing, or one of the four
things a successful call does. -/
inductive Stepped (e : RequestProcessingEngine) :
    Call → Outcome → RequestProcessingEngine → Prop
  | failed {call : Call} {outcome : Outcome} (hfailed : outcome.status ≠ .success) :
    Stepped e call outcome e
  | startedRequest (wscontext : Bytes) (payload : RequestPayload) {name : Bytes}
    {created : IScopedSpan × Tracer}
    (hcreated : createSpan sdk e.tracer name .SERVER (rootAttributes payload) payload.httpHeaders
      = created) :
    Stepped e (.startRequest wscontext (some payload) true) ⟨.success, some e.nextHandle, ∅⟩
      { tracer := created.2
        requests := Function.update e.requests e.nextHandle (some ⟨created.1, wscontext, []⟩)
        nextHandle := e.nextHandle + 1 }
  | startedInteraction (handle : ℕ) (payload : InteractionPayload) (headers : Carrier)
    {name : Bytes} {attributes : OtelKeyValueMap} {requestContext : RequestContext}
    {created : IScopedSpan × Tracer} (hlive : e.requests handle = some requestContext)
    (hcreated : createSpan sdk e.tracer name .CLIENT attributes ∅ = created) :
    Stepped e (.startInteraction (some handle) (some payload) headers)
      ⟨.success, none, (populatePropagationHeaders sdk created.2 headers).insert
        (ascii "Parent_Span_Id") (returnCurrentSpanId sdk e.tracer)⟩
      { e with
        tracer := created.2
        requests := Function.update e.requests handle (some { requestContext with
          interactions := created.1 :: requestContext.interactions }) }
  | endedInteraction (handle : ℕ) (ignoreBackend : Bool) (payload : EndInteractionPayload)
    {rContext : RequestContext} {s : IScopedSpan} {rest : List IScopedSpan}
    (hlive : e.requests handle = some rContext) (hopen : rContext.interactions = s :: rest) :
    Stepped e (.endInteraction (some handle) ignoreBackend (some payload)) ⟨.success, none, ∅⟩
      { e with
        tracer := s.destroy sdk (s.finish sdk (describeInteraction e.tracer s payload))
        requests := Function.update e.requests handle
          (some { rContext with interactions := rest }) }
  | endedRequest (handle : ℕ) (error : Option Bytes) (payload : Option ResponsePayload)
    {requestContext : RequestContext} {tracer : Tracer}
    (hlive : e.requests handle = some requestContext)
    (htracer : describeRequest sdk (endInteractions sdk e.tracer requestContext.interactions)
      requestContext.rootSpan error payload = tracer) :
    Stepped e (.endRequest (some handle) error payload) ⟨.success, none, ∅⟩
      { e with
        tracer := requestContext.rootSpan.destroy sdk (requestContext.rootSpan.finish sdk tracer)
        requests := Function.update e.requests handle none }

theorem stepped {e e' : RequestProcessingEngine} {call : Call} {outcome : Outcome}
    (h : e.step sdk getSpanName call = some (outcome, e')) : Stepped sdk e call outcome e' := by
  cases call with
  | startRequest wscontext payload reqHandle =>
    have hstep := Option.some.inj h
    unfold startRequest at hstep
    rcases reqHandle with _ | _
    · cases hstep
      exact .failed (by simp [Outcome.failed])
    · rcases payload with _ | payload
      · cases hstep
        exact .failed (by simp [Outcome.failed])
      · cases hstep
        exact .startedRequest wscontext payload rfl
  | startInteraction reqHandle payload headers =>
    simp only [step] at h
    unfold startInteraction at h
    rcases reqHandle with _ | handle
    · cases h
      exact .failed (by simp [Outcome.failed])
    · rcases payload with _ | payload
      · cases h
        exact .failed (by simp [Outcome.failed])
      · rcases hlive : e.requests handle with _ | requestContext
        · simp [hlive] at h
        · simp only [hlive] at h
          cases h
          exact .startedInteraction handle payload headers hlive rfl
  | endInteraction reqHandle ignoreBackend payload =>
    simp only [step] at h
    unfold endInteraction at h
    rcases reqHandle with _ | handle
    · cases h
      exact .failed (by simp [Outcome.failed])
    · rcases payload with _ | payload
      · cases h
        exact .failed (by simp [Outcome.failed])
      · rcases hlive : e.requests handle with _ | rContext
        · simp [hlive] at h
        · rcases hopen : rContext.interactions with _ | ⟨s, rest⟩
          · simp only [hlive, hopen] at h
            cases h
            exact .failed (by simp [Outcome.failed])
          · simp only [hlive, hopen] at h
            cases h
            exact .endedInteraction handle ignoreBackend payload hlive hopen
  | endRequest reqHandle error payload =>
    simp only [step] at h
    unfold endRequest at h
    rcases reqHandle with _ | handle
    · cases h
      exact .failed (by simp [Outcome.failed])
    · rcases hlive : e.requests handle with _ | requestContext
      · simp [hlive] at h
      · simp only [hlive] at h
        cases h
        exact .endedRequest handle error payload hlive rfl

end

end RequestProcessingEngine

end Webserver
