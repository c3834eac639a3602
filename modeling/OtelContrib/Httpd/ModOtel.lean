/-
The httpd module (`mod_otel.cpp`, `opentelemetry.h`, `opentelemetry.cpp`): the hooks
of one main request and its subrequests, and what the cleanups of the request's pool
do.

`ExtraRequestData` is placed in memory of a pool and is never destroyed, only
`Destruct` is run on it.  Using a record after the pool it lies in is gone, or the
span it does not have, is undefined behaviour, and `none` here.
-/
import OtelContrib.Sdk.Tracer

open ContextStack Otel

namespace Httpd

/-! ### Tables -/

/-- Keys are compared without regard to case. -/
def eqIgnoringCase (a b : Bytes) : Bool :=
  let lower := fun c : UInt8 => if 65 ≤ c ∧ c ≤ 90 then c + 32 else c
  a.map lower = b.map lower

/-- `apr_table_t`. -/
abbrev AprTable := List (Bytes × Bytes)

/-- `apr_table_get`: the first entry counts. -/
def aprTableGet (table : AprTable) (key : Bytes) : Option Bytes :=
  (table.find? fun kv => eqIgnoringCase kv.1 key).map Prod.snd

/-- `apr_table_set`: the first entry gets the value, and others with the key go. -/
def aprTableSet : AprTable → Bytes → Bytes → AprTable
  | [], key, value => [(key, value)]
  | kv :: table, key, value =>
    if eqIgnoringCase kv.1 key then
      (kv.1, value) :: table.filter fun kv => !eqIgnoringCase kv.1 key
    else kv :: aprTableSet table key value

namespace HttpdCarrier

def get (hdrs : AprTable) (key : Bytes) : Bytes := (aprTableGet hdrs key).getD []

def set (hdrs : AprTable) (key value : Bytes) : AprTable := aprTableSet hdrs key value

end HttpdCarrier

/-! ### The SDK and the configuration -/

/-- A propagator sees the headers through `Get` and says which of them it sets. -/
structure Propagator where
  extract : (Bytes → Bytes) → Option RemoteContext
  inject : Option SpanContext → List (Bytes × Bytes)

structure Sdk where
  PropagatorTraceContext : Propagator
  PropagatorB3SingleHeader : Propagator
  PropagatorB3MultiHeader : Propagator
  detachRule : DetachRule SpanContext
  isSampled : SpanContext → Bool
  spanId : SpanContext → Bytes
  traceId : SpanContext → Bytes
  traceState : SpanContext → Bytes

inductive OtelPropagation
  | NONE | TRACE_CONTEXT | B3_SINGLE_HEADER | B3_MULTI_HEADER
  deriving DecidableEq

structure OtelConfig where
  ignore_inbound : Bool
  propagation : OtelPropagation
  attributes : OrderedMap Bytes Bytes

/-- Whether contexts from inbound headers are accepted. -/
def OtelConfig.acceptsInbound (config : OtelConfig) : Bool :=
  !config.ignore_inbound && config.propagation ≠ .NONE

/-! ### Requests -/

/-- The fields of a `request_rec` that the module looks at. -/
structure RequestRec where
  server_hostname : Bytes
  method : Option Bytes
  http_scheme : Bytes
  hostname : Option Bytes
  unparsed_uri : Option Bytes
  proto_num : ℕ
  useragent_ip : Bytes
  client_ip : Bytes
  filename : Bytes
  headers_in : AprTable
  subprocess_env : AprTable
  status : Int32
  bytes_sent : Int64
  error_notes : Option Bytes

/-- A subrequest: its pool and what is read from its own record. -/
structure SubRequest where
  pool : ℕ
  server_hostname : Bytes
  status : Int32
  error_notes : Option Bytes

structure HttpdStartSpanAttributes where
  server_name : Bytes
  method : Bytes
  scheme : Bytes
  host : Bytes
  target : Bytes
  url : Bytes
  flavor : Bytes
  client_ip : Bytes
  net_ip : Bytes

structure HttpdEndSpanAttributes where
  status : Int32
  bytes_sent : Int64

/-- What the module keeps with a request; `pool` is the subrequest's pool it lies in,
if it is not the main one. -/
structure ExtraRequestData where
  token : Option (Entry SpanContext)
  span : Option ℕ
  pool : Option ℕ

/-- A main request: its record, the data under the two keys of its pool, and the pools
of subrequests that are gone. -/
structure Request where
  main : RequestRec
  otel : Option ExtraRequestData
  otelProxy : Option ExtraRequestData
  gone : List ℕ

/-- The thread while it serves a request. -/
structure Serving where
  tracer : Tracer
  request : Request

/-! ### Attributes -/

/-- `GetAttrsFromRequest`. -/
def getAttrsFromRequest (r : RequestRec) : HttpdStartSpanAttributes where
  server_name := r.server_hostname
  method := r.method.getD []
  scheme := r.http_scheme
  host := r.hostname.getD []
  target := r.unparsed_uri.getD []
  url := []
  flavor :=
    if r.proto_num = 1000 then ascii "1.0" else if r.proto_num = 1001 then ascii "1.1" else []
  client_ip := r.useragent_ip
  net_ip := r.client_ip

/-- `SetAttribute` with a text, left out when the text is empty. -/
def setNonEmpty (t : Tracer) (n : ℕ) (key value : Bytes) : Tracer :=
  if value = [] then t else t.setAttribute n key (.string value)

/-- `ExtraRequestData::StartSpan`. -/
def startSpan (config : OtelConfig) (t : Tracer) (n : ℕ) (attrs : HttpdStartSpanAttributes) :
    Tracer :=
  let t := t.setAttribute n (ascii "http.server_name") (.string attrs.server_name)
  let t := setNonEmpty t n (ascii "http.method") attrs.method
  let t := setNonEmpty t n (ascii "http.scheme") attrs.scheme
  let t := setNonEmpty t n (ascii "http.host") attrs.host
  let t := setNonEmpty t n (ascii "http.target") attrs.target
  let t := setNonEmpty t n (ascii "http.url") attrs.url
  let t := setNonEmpty t n (ascii "http.flavor") attrs.flavor
  let t := t.setAttribute n (ascii "http.client_ip") (.string attrs.client_ip)
  let t := if attrs.net_ip ≠ attrs.client_ip then
      t.setAttribute n (ascii "net.peer.ip") (.string attrs.net_ip)
    else t
  t.addAttributes n [] config.attributes

/-- `ExtraRequestData::EndSpan`. -/
def endSpan (t : Tracer) (n : ℕ) (attrs : HttpdEndSpanAttributes) : Tracer :=
  let t := t.setAttribute n (ascii "http.status_code") (.int32 attrs.status)
  t.setAttribute n (ascii "http.response_content_length") (.int64 attrs.bytes_sent)

/-- `ExtraRequestData::Destruct`.  `release` hands the token over to nobody: nothing
detaches it. -/
def destruct (This : ExtraRequestData) (t : Tracer) : ExtraRequestData × Tracer :=
  let This := { This with token := none }
  match This.span with
  | some n => ({ This with span := none }, t.endSpan n)
  | none => (This, t)

/-- `addEnvVars`. -/
def addEnvVars (sdk : Sdk) (envTable : AprTable) (ctx : SpanContext) : AprTable :=
  let envTable :=
    if sdk.isSampled ctx then aprTableSet envTable (ascii "OTEL_TRACEFLAGS") (ascii "1")
    else envTable
  let envTable := aprTableSet envTable (ascii "OTEL_SPANID") (sdk.spanId ctx)
  let envTable := aprTableSet envTable (ascii "OTEL_TRACEID") (sdk.traceId ctx)
  aprTableSet envTable (ascii "OTEL_TRACESTATE") (sdk.traceState ctx)

/-! ### Hooks -/

section
variable (sdk : Sdk) (config : OtelConfig)

/-- The extractor for the configured propagation. -/
def inboundPropagator : Propagator :=
  match config.propagation with
  | .B3_SINGLE_HEADER | .B3_MULTI_HEADER => sdk.PropagatorB3SingleHeader
  | _ => sdk.PropagatorTraceContext

/-- The remote context that a request brings and the configuration accepts. -/
def inboundContext (headers_in : AprTable) : Option RemoteContext :=
  if config.acceptsInbound then
    (inboundPropagator sdk config).extract (HttpdCarrier.get headers_in)
  else none

/-- The part of the handler that attaches the inbound context. -/
def attachInbound (t : Tracer) (headers_in : AprTable) : Option (Entry SpanContext) × Tracer :=
  if config.acceptsInbound then
    let (ctx_new, contexts) := extractContext [inboundContext sdk config headers_in]
      t.contexts.current t.contexts
    let (token, contexts) := contexts.attach ctx_new
    (some token, { t with contexts := contexts })
  else (none, t)

/-- `opentel_handler`, for the main request of the one it is called with. -/
def opentelHandler (s : Serving) : Option Serving :=
  let req := s.request.main
  if s.request.otel.isSome then some s
  else
    match req.method with
    | none => none
    | some method =>
      let (token, t) := attachInbound sdk config s.tracer req.headers_in
      let (n, t) := t.startSpan (ascii "HTTP " ++ method) .SERVER ∅
      let t := startSpan config t n (getAttrsFromRequest req)
      some
        { tracer := t
          request := { s.request with
            main := { req with subprocess_env := addEnvVars sdk req.subprocess_env (.started n) }
            otel := some ⟨token, some n, none⟩ } }

/-- `opentel_log_transaction`. -/
def opentelLogTransaction (s : Serving) : Option Serving :=
  let req := s.request.main
  match s.request.otel with
  | none => some s
  | some req_data =>
    match req_data.span with
    | none => none
    | some n => some { s with tracer := endSpan s.tracer n ⟨req.status, req.bytes_sent⟩ }

/-- The headers a propagator sets. -/
def injectHeaders (propagator : Propagator) (span : Option SpanContext) (headers : AprTable) :
    AprTable :=
  (propagator.inject span).foldl (fun headers kv => HttpdCarrier.set headers kv.1 kv.2) headers

/-- The injection into the headers that are forwarded. -/
def injectOutbound (t : Tracer) (headers_in : AprTable) : AprTable :=
  let current := t.contexts.current.span
  match config.propagation with
  | .TRACE_CONTEXT => injectHeaders sdk.PropagatorTraceContext current headers_in
  | .B3_SINGLE_HEADER => injectHeaders sdk.PropagatorB3SingleHeader current headers_in
  | .B3_MULTI_HEADER => injectHeaders sdk.PropagatorB3MultiHeader current headers_in
  | .NONE => headers_in

/-- The address a request is forwarded to. -/
def proxyUrl (filename : Bytes) : Bytes :=
  if filename.take 6 = ascii "proxy:" then filename.drop 6 else filename

/-- `proxy_fixup_handler`; `r` is the subrequest it is called with, if it is one.  The
scope of the active span goes at the end of the function. -/
def proxyFixupHandler (r : Option SubRequest) (s : Serving) : Option Serving :=
  let req := s.request.main
  match s.request.otel, s.request.otelProxy with
  | none, _ => some s
  | some _, some _ => some s
  | some req_data, none =>
    match req_data.span, req.method with
    | some parent, some method =>
      let (n, t) := s.tracer.startSpanUnder (some (.started parent)) (ascii "HTTP " ++ method)
        .CLIENT ∅
      let startAttrs : HttpdStartSpanAttributes :=
        { server_name := (r.map SubRequest.server_hostname).getD req.server_hostname
          method := method
          scheme := [], host := [], target := []
          url := proxyUrl req.filename
          flavor := [], client_ip := [], net_ip := [] }
      let t := startSpan config t n startAttrs
      let (scope, t) := t.withActiveSpan n
      some
        { tracer := t.detach sdk.detachRule scope
          request := { s.request with
            main := { req with headers_in := injectOutbound sdk config t req.headers_in }
            otelProxy := some ⟨none, some n, r.map SubRequest.pool⟩ } }
    | _, _ => none

/-- Whether the memory of a record is still there. -/
def Request.holds (q : Request) (data : ExtraRequestData) : Bool :=
  data.pool.all fun pool => pool ∉ q.gone

/-- `proxy_end_handler`. -/
def proxyEndHandler (status : Option Int32) (r : Option SubRequest) (s : Serving) :
    Option Serving :=
  let req := s.request.main
  match s.request.otelProxy with
  | none => some s
  | some req_data_out =>
    if s.request.holds req_data_out then
      match req_data_out.span with
      | none => none
      | some n =>
        let st_code := match status with
          | some code => if code ≠ 0 then code else (r.map SubRequest.status).getD req.status
          | none => (r.map SubRequest.status).getD req.status
        let t := match r.elim req.error_notes SubRequest.error_notes with
          | some proxy_error => s.tracer.setStatus n .Error proxy_error
          | none => s.tracer
        let t := endSpan t n ⟨st_code, req.bytes_sent⟩
        let (req_data_out, t) := destruct req_data_out t
        some ⟨t, { s.request with otelProxy := some req_data_out }⟩
    else none

inductive Hook
  | handler
  | logTransaction
  | proxyFixup (r : Option SubRequest)
  | proxyEnd (status : Option Int32) (r : Option SubRequest)
  | destroySubPool (pool : ℕ)

/-- One hook, or the end of a subrequest's pool. -/
def runHook (s : Serving) : Hook → Option Serving
  | .handler => opentelHandler sdk config s
  | .logTransaction => opentelLogTransaction s
  | .proxyFixup r => proxyFixupHandler sdk config r s
  | .proxyEnd status r => proxyEndHandler status r s
  | .destroySubPool pool =>
    some { s with request := { s.request with gone := pool :: s.request.gone } }

/-- The end of the main pool: its subpools go first, then the cleanups are run, the
last one registered first. -/
def destroyPool (s : Serving) : Option Tracer :=
  let proxied := match s.request.otelProxy with
    | none => some s.tracer
    | some data => if data.pool.isNone then some (destruct data s.tracer).2 else none
  proxied.map fun t =>
    match s.request.otel with
    | none => t
    | some data => (destruct data t).2

end

end Httpd
