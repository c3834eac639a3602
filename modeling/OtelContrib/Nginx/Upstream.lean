/-
What the upstream of a request reads from the headers that nginx sends it
(`otel_ngx_module.cpp`, `propagate.cpp`).

`StartNgxSpan` injects the context of its span into the trace context of its request.  The
directives that `opentelemetry_propagate` stands for set headers to variables, and the getters
of these read the trace context again.  The other headers of the client are passed on.

* `traced_eq` — after any calls of `StartNgxSpan`, for a request and its subrequests, the trace
  context that the variables of a request read and its span;
* `upstream_iff` — when an upstream of the same format continues the trace from that span: for
  W3C and the single B3 header it is the format of the location where the span was started that
  decides, for B3 multi-header the client's single B3 header.
-/
import OtelContrib.Httpd.Propagation
import OtelContrib.Nginx.SpanPerRequest
import OtelContrib.Nginx.TraceHeaders

open Otel Otel.Common

namespace Nginx

open HeaderState (after)
open Httpd (HeaderFormats)

/-! ### Variables -/

/-- An `ngx_http_variable_value_t`. -/
structure VariableValue where
  valid : Bool
  no_cacheable : Bool
  not_found : Bool
  data : Bytes

/-- A variable before its getter was called. -/
def VariableValue.init : VariableValue := ⟨false, false, false, []⟩

def kOtelCtxVarPrefix : Bytes := ascii "opentelemetry_context_"

def withoutOtelVarPrefix (value : Bytes) : Bytes :=
  if value.length ≤ kOtelCtxVarPrefix.length then [] else value.drop kOtelCtxVarPrefix.length

/-- `trace_id` and `span_id` of a valid context are not zero. -/
def isValid (c : RemoteContext) : Bool := c.traceId ≠ 0 ∧ c.spanId ≠ 0

/-- The state with the headers in each trace context for the upstream. -/
structure Outgoing where
  state : State
  traceHeaders : List (List TraceHeader)

namespace Outgoing

section

variable (ngx : NgxCore) (sdk : Sdk) (inject : TracePropagationType → ℕ → Injection)

/-- `StartNgxSpan` with the call of `InjectContext` at its end. -/
def startNgxSpan (s : Outgoing) (req : NgxHttpRequest) : Outgoing :=
  { state := Nginx.startNgxSpan ngx sdk s.state req
    traceHeaders :=
      if startsSpan ngx req then
        s.traceHeaders ++
          [(after (inject req.locConf.propagationType s.state.tracer.spans.length).headers
            ).traceHeader]
      else s.traceHeaders }

end

/-- The trace context of a request and its span, where there are both. -/
def traced (s : Outgoing) (req : NgxHttpRequest) : Option (ℕ × ℕ) :=
  (getTraceContext s.state req).bind fun traceContext =>
    (s.state.contexts[traceContext]?.bind TraceContext.request_span).map fun span =>
      (traceContext, span)

end Outgoing

section

variable (ngx : NgxCore) (context : ℕ → RemoteContext)

def otelGetTraceContextVar (s : Outgoing) (req : NgxHttpRequest) (prefixedKey : Bytes)
    (v : VariableValue) : VariableValue :=
  if ¬isOtelEnabled ngx req then { v with valid := false, not_found := true }
  else
    match s.traced req with
    | none => v
    | some (traceContext, _) =>
      match traceContextFindTraceHeader (s.traceHeaders.getD traceContext [])
          (withoutOtelVarPrefix prefixedKey) with
      | some value => ⟨true, true, false, value⟩
      | none => ⟨false, true, true, []⟩

/-- The getters that write a part of the span's context; `allocated` is whether there is memory
for the text. -/
def otelGetPart (text : RemoteContext → Bytes) (allocated : Bool) (s : Outgoing)
    (req : NgxHttpRequest) (v : VariableValue) : VariableValue :=
  if ¬isOtelEnabled ngx req then { v with valid := false, not_found := true }
  else
    match s.traced req with
    | none => v
    | some (_, span) =>
      if isValid (context span) then
        if allocated then ⟨true, true, false, text (context span)⟩ else ⟨false, true, false, []⟩
      else ⟨false, true, true, []⟩

def otelGetTraceId : Bool → Outgoing → NgxHttpRequest → VariableValue → VariableValue :=
  otelGetPart ngx context fun c => toHex 32 c.traceId

def otelGetSpanId : Bool → Outgoing → NgxHttpRequest → VariableValue → VariableValue :=
  otelGetPart ngx context fun c => toHex 16 c.spanId

/-- The texts are literals. -/
def otelGetSampled : Outgoing → NgxHttpRequest → VariableValue → VariableValue :=
  otelGetPart ngx context (fun c => if c.sampled then ascii "1" else ascii "0") true

/-- `otel_ngx_variables`: a variable by its name, the ones with the prefix at last. -/
def getVariable (allocated : Bool) (s : Outgoing) (req : NgxHttpRequest) (name : Bytes) :
    VariableValue :=
  if name = ascii "opentelemetry_trace_id" then otelGetTraceId ngx context allocated s req .init
  else if name = ascii "opentelemetry_span_id" then otelGetSpanId ngx context allocated s req .init
  else if name = ascii "opentelemetry_sampled" then otelGetSampled ngx context s req .init
  else if kOtelCtxVarPrefix.isPrefixOf name then otelGetTraceContextVar ngx s req name .init
  else { VariableValue.init with not_found := true }

end

/-! ### The directives -/

structure HeaderPropagation where
  directive : Bytes
  parameter : Bytes
  variableName : Bytes

def b3PropagationVars : List HeaderPropagation :=
  [⟨ascii "proxy_set_header", ascii "b3", ascii "$opentelemetry_context_b3"⟩,
    ⟨ascii "fastcgi_param", ascii "HTTP_B3", ascii "$opentelemetry_context_b3"⟩]

def b3MultiPropagationVars : List HeaderPropagation :=
  [⟨ascii "proxy_set_header", ascii "x-b3-traceid", ascii "$opentelemetry_trace_id"⟩,
    ⟨ascii "proxy_set_header", ascii "x-b3-spanid", ascii "$opentelemetry_span_id"⟩,
    ⟨ascii "proxy_set_header", ascii "x-b3-sampled", ascii "$opentelemetry_sampled"⟩,
    ⟨ascii "fastcgi_param", ascii "HTTP_B3_TRACEID", ascii "$opentelemetry_trace_id"⟩,
    ⟨ascii "fastcgi_param", ascii "HTTP_B3_SPANID", ascii "$opentelemetry_span_id"⟩,
    ⟨ascii "fastcgi_param", ascii "HTTP_B3_SAMPLED", ascii "$opentelemetry_sampled"⟩]

def otelPropagationVars : List HeaderPropagation :=
  [⟨ascii "proxy_set_header", ascii "traceparent", ascii "$opentelemetry_context_traceparent"⟩,
    ⟨ascii "proxy_set_header", ascii "tracestate", ascii "$opentelemetry_context_tracestate"⟩,
    ⟨ascii "fastcgi_param", ascii "HTTP_TRACEPARENT", ascii "$opentelemetry_context_traceparent"⟩,
    ⟨ascii "fastcgi_param", ascii "HTTP_TRACESTATE", ascii "$opentelemetry_context_tracestate"⟩]

/-- The choice in `OtelNgxSetPropagation`. -/
def propagationVars : TracePropagationType → List HeaderPropagation
  | .TracePropagationB3 => b3PropagationVars
  | .TracePropagationB3Multi => b3MultiPropagationVars
  | _ => otelPropagationVars

/-- The headers that the directives of a location set: a script that is one variable has its
value, and none where it is not found. -/
def headersSet (ngx : NgxCore) (context : ℕ → RemoteContext) (allocated : Bool) (s : Outgoing)
    (req : NgxHttpRequest) : Headers :=
  ((propagationVars req.locConf.propagationType).filter fun var =>
      var.directive = ascii "proxy_set_header").map fun var =>
    let v := getVariable ngx context allocated s req (var.variableName.drop 1)
    (var.parameter, if v.not_found then [] else v.data)

/-! ### Calls for a request and its subrequests -/

/-- The calls since the last one for a request without a parent, each with its place. -/
def family (calls : List NgxHttpRequest) : List (NgxHttpRequest × ℕ) :=
  calls.zipIdx.foldl (fun calls call => if call.1.parent then calls ++ [call] else [call]) []

/-- The place of the call that is for a request, the first one if there are several. -/
def callFor (calls : List NgxHttpRequest) (req : NgxHttpRequest) : Option ℕ :=
  ((family calls).find? fun call => call.1.address = req.address).map Prod.snd

theorem family_append (calls : List NgxHttpRequest) (call : NgxHttpRequest) :
    family (calls ++ [call]) =
      if call.parent then family calls ++ [(call, calls.length)] else [(call, calls.length)] := by
  rw [family, List.zipIdx_append, List.foldl_append, Nat.zero_add]
  rfl

variable {ngx : NgxCore} {sdk : Sdk} {inject : TracePropagationType → ℕ → Injection}

/-- The map after a call, which does not overwrite. -/
theorem startNgxSpan_otel_ctx {req : NgxHttpRequest} (h : startsSpan ngx req = true) (s : State) :
    (startNgxSpan ngx sdk s req).otel_ctx = (createTraceContext s req).2.otel_ctx := by
  obtain ⟨henabled, hinternal⟩ := Bool.and_eq_true_iff.mp h
  rw [Bool.not_eq_true'] at hinternal
  rw [startNgxSpan, if_neg (not_not_intro henabled),
    if_neg (by rw [hinternal]; exact Bool.false_ne_true)]

/-- What is so after some calls that were let through. -/
structure Called (inject : TracePropagationType → ℕ → Injection) (t : Tracer)
    (calls : List NgxHttpRequest) (s : Outgoing) : Prop where
  length : s.state.tracer.spans.length = t.spans.length + calls.length
  contexts : s.state.contexts =
    calls.zipIdx.map fun call => ⟨call.1.address, some (t.spans.length + call.2)⟩
  traceHeaders : s.traceHeaders = calls.zipIdx.map fun call =>
    (after (inject call.1.locConf.propagationType (t.spans.length + call.2)).headers).traceHeader
  lookup : ∀ req, getTraceContext s.state req = callFor calls req
  created : s.state.otel_ctx = none → calls = []

/-- An entry that is inserted is found where there was none. -/
theorem lookup_insert (map : List (ℕ × ℕ)) (address context key : ℕ) :
    (if (map.lookup address).isSome then map else map ++ [(address, context)]).lookup key =
      (map.lookup key).or (if address = key then some context else none) := by
  have happend : (map ++ [(address, context)]).lookup key =
      (map.lookup key).or (if address = key then some context else none) := by
    rw [List.lookup_append]
    congr 1
    by_cases hkey : address = key
    · rw [if_pos hkey, hkey, List.lookup_cons_self]
    · rw [if_neg hkey, List.lookup_cons, beq_false_of_ne (Ne.symm hkey)]
      rfl
  split
  case isTrue h =>
    by_cases hkey : address = key
    · obtain ⟨found, hfound⟩ := Option.isSome_iff_exists.mp h
      rw [← hkey, hfound, Option.some_or]
    · rw [if_neg hkey, Option.or_none]
  case isFalse => exact happend

theorem callFor_append (calls : List NgxHttpRequest) (call req : NgxHttpRequest) :
    callFor (calls ++ [call]) req =
      (if call.parent then callFor calls req else none).or
        (if call.address = req.address then some calls.length else none) := by
  have hone : List.find? (fun call : NgxHttpRequest × ℕ => decide (call.1.address = req.address))
      [(call, calls.length)] =
      if call.address = req.address then some (call, calls.length) else none := by
    rw [List.find?_cons, List.find?_nil]
    by_cases haddress : call.address = req.address <;> simp [haddress]
  rw [callFor, family_append]
  by_cases hparent : call.parent = true
  · rw [if_pos hparent, if_pos hparent, List.find?_append, hone, callFor, Option.map_or]
    congr 1
    by_cases haddress : call.address = req.address <;> simp [haddress]
  · rw [if_neg hparent, if_neg hparent, hone, Option.none_or]
    by_cases haddress : call.address = req.address <;> simp [haddress]

theorem Called.start {t : Tracer} {calls : List NgxHttpRequest} {s : Outgoing}
    (h : Called inject t calls s) {call : NgxHttpRequest} (hcall : startsSpan ngx call = true) :
    Called inject t (calls ++ [call]) (s.startNgxSpan ngx sdk inject call) := by
  have hstarted : StartedSpan s.state (startNgxSpan ngx sdk s.state call) call :=
    startNgxSpan_started hcall s.state
  have hzip : (calls ++ [call]).zipIdx = calls.zipIdx ++ [(call, calls.length)] := by
    rw [List.zipIdx_append, Nat.zero_add]
    rfl
  refine ⟨?_, ?_, ?_, fun req => ?_, fun hnone => ?_⟩
  · rw [List.length_append, List.length_singleton, ← Nat.add_assoc, ← h.length]
    exact hstarted.length
  · rw [hzip, List.map_append, ← h.contexts, List.map_singleton, ← h.length]
    exact hstarted.contexts
  · rw [hzip, List.map_append, ← h.traceHeaders, List.map_singleton, ← h.length]
    exact if_pos hcall
  · have hlength : s.state.contexts.length = calls.length := by
      rw [h.contexts, List.length_map, List.length_zipIdx]
    rw [getTraceContext, callFor_append]
    dsimp only [Outgoing.startNgxSpan]
    rw [startNgxSpan_otel_ctx hcall]
    refine (lookup_insert _ call.address s.state.contexts.length req.address).trans ?_
    rw [hlength]
    congr 1
    have hlookup := h.lookup req
    rw [getTraceContext] at hlookup
    cases hctx : s.state.otel_ctx with
    | none =>
      rw [h.created hctx]
      by_cases hparent : call.parent = true <;> simp [hparent, callFor, family]
    | some map =>
      rw [hctx, Option.getD_some] at hlookup
      by_cases hparent : call.parent = true
      · simp [hparent, hlookup]
      · simp [hparent]
  · dsimp only [Outgoing.startNgxSpan] at hnone
    rw [startNgxSpan_otel_ctx hcall] at hnone
    cases hnone

/-- A request without trace contexts, before any call. -/
def Outgoing.request (t : Tracer) : Outgoing := ⟨Nginx.request t, []⟩

/-- Only the calls that are let through matter. -/
theorem called (ngx : NgxCore) (sdk : Sdk) (inject : TracePropagationType → ℕ → Injection)
    (t : Tracer) (starts : List NgxHttpRequest) :
    Called inject t (starts.filter (startsSpan ngx))
      (starts.foldl (Outgoing.startNgxSpan ngx sdk inject) (.request t)) := by
  induction starts using List.reverseRecOn with
  | nil => exact ⟨rfl, rfl, rfl, fun _ => rfl, fun _ => rfl⟩
  | append_singleton starts call ih =>
    rw [List.foldl_append, List.foldl_cons, List.foldl_nil, List.filter_append]
    cases hcall : startsSpan ngx call with
    | true =>
      rw [List.filter_cons_of_pos hcall, List.filter_nil]
      exact ih.start hcall
    | false =>
      rw [List.filter_cons_of_neg (by simp [hcall]), List.filter_nil, List.append_nil]
      rw [Outgoing.startNgxSpan, startNgxSpan_of_not hcall, hcall]
      exact ih

theorem callFor_lt {calls : List NgxHttpRequest} {req : NgxHttpRequest} {i : ℕ}
    (h : callFor calls req = some i) : i < calls.length := by
  induction calls using List.reverseRecOn with
  | nil => cases h
  | append_singleton calls call ih =>
    rw [callFor_append] at h
    rw [List.length_append, List.length_singleton]
    rcases Option.or_eq_some_iff.mp h with hbefore | ⟨-, hlast⟩
    · obtain ⟨-, hbefore⟩ := Option.ite_none_right_eq_some.mp hbefore
      exact Nat.lt_succ_of_lt (ih hbefore)
    · obtain ⟨-, hlast⟩ := Option.ite_none_right_eq_some.mp hlast
      rw [← Option.some.inj hlast]
      exact Nat.lt_succ_self _

/-- The trace context that a request reads after some calls is that of the first call for it
since the last one for a request without a parent, and holds the span of this call. -/
theorem Called.traced {t : Tracer} {calls : List NgxHttpRequest} {s : Outgoing}
    (h : Called inject t calls s) (req : NgxHttpRequest) :
    s.traced req = (callFor calls req).map fun i => (i, t.spans.length + i) := by
  rw [Outgoing.traced, h.lookup]
  cases hcall : callFor calls req with
  | none => rfl
  | some i =>
    rw [Option.bind_some, h.contexts, List.getElem?_map, List.getElem?_zipIdx,
      List.getElem?_eq_getElem (callFor_lt hcall)]
    simp

theorem traced_eq (ngx : NgxCore) (sdk : Sdk) (inject : TracePropagationType → ℕ → Injection)
    (t : Tracer) (starts : List NgxHttpRequest) (req : NgxHttpRequest) :
    (starts.foldl (Outgoing.startNgxSpan ngx sdk inject) (.request t)).traced req =
      (callFor (starts.filter (startsSpan ngx)) req).map fun i => (i, t.spans.length + i) :=
  (called ngx sdk inject t starts).traced req

/-! ### The headers of the SDK and of the proxy -/

/-- The propagators as they are documented: the headers that they read, and that a value which
they set, with memory for it, stands for the span's context.  The single B3 header counts when
it has a value. -/
structure Documented (sdk : Sdk) (inject : TracePropagationType → ℕ → Injection)
    (formats : HeaderFormats) : Prop where
  valid : ∀ n, isValid (formats.context n) = true
  extractTraceContext : ∀ get, sdk.httpTraceContext get =
    formats.traceparent (get (ascii "traceparent"))
  extractB3 : ∀ get, sdk.b3Propagator get =
    if get (ascii "b3") ≠ [] then formats.b3 (get (ascii "b3"))
    else formats.b3Multi (get (ascii "X-B3-TraceId")) (get (ascii "X-B3-SpanId"))
      (get (ascii "X-B3-Sampled"))
  type : ∀ type n, (inject type n).propagationType = type
  ready : ∀ type n, ∀ call ∈ (inject type n).headers, call.Ready
  injectTraceContext : ∀ n, ∃ call ∈ (inject .TracePropagationW3C n).headers,
    call.name = ascii "traceparent" ∧ formats.traceparent call.traceValue = some (formats.context n)
  injectB3 : ∀ n, ∃ call ∈ (inject .TracePropagationB3 n).headers,
    call.name = ascii "b3" ∧ formats.b3 call.traceValue = some (formats.context n)
  readB3Multi : ∀ n, formats.b3Multi (toHex 32 (formats.context n).traceId)
    (toHex 16 (formats.context n).spanId)
    (if (formats.context n).sampled then ascii "1" else ascii "0") = some (formats.context n)
  noTraceparent : formats.traceparent [] = none

/-- What `proxy_pass` is documented to send: the headers that are set, less the empty ones, and
the headers of the client with other names. -/
def ForwardsHeaders (proxyPass : Headers → Headers → Headers) : Prop :=
  ∀ headers inbound key, headers.Pairwise (fun a b => eqIgnoringCase a.1 b.1 = false) →
    carrierGet (proxyPass headers inbound) key =
      ((headers.find? fun header => eqIgnoringCase key header.1).map Prod.snd).getD
        (carrierGet inbound key)

/-- The headers stand for a context in a format: an nginx that gets them reads it, and starts
its span under it if it trusts the client. -/
structure StandFor (sdk : Sdk) (type : TracePropagationType) (headers : Headers)
    (c : RemoteContext) :
    Prop where
  extracted : ∀ req, req.locConf.propagationType = type → req.headers_in.headers = headers →
    extractContext sdk req = some c
  parent : ∀ (ngx : NgxCore) (s : State) req, req.locConf.propagationType = type →
    req.headers_in.headers = headers → req.locConf.trustIncomingSpans = true →
    startsSpan ngx req = true →
    (startNgxSpan ngx sdk s req).tracer.spans[s.tracer.spans.length]?.map Span.parent =
      some (some (.remote c))

/-- Whether an upstream reads the span, started in a location for one format, of a request that
is passed on from a location for another one. -/
def Continues (formats : HeaderFormats) (startType : TracePropagationType) (inbound : Headers)
    (c : RemoteContext) : TracePropagationType → Prop
  | .TracePropagationW3C => startType = .TracePropagationW3C
  | .TracePropagationB3 => startType = .TracePropagationB3 ∨
      formats.b3Multi (carrierGet inbound (ascii "X-B3-TraceId"))
        (carrierGet inbound (ascii "X-B3-SpanId"))
        (carrierGet inbound (ascii "X-B3-Sampled")) = some c
  | .TracePropagationB3Multi => carrierGet inbound (ascii "b3") = [] ∨
      formats.b3 (carrierGet inbound (ascii "b3")) = some c
  | .TracePropagationUnset => False

/-- The span is the first one after those there were, with the parent it is started under. -/
theorem startNgxSpan_parent {req : NgxHttpRequest} (h : startsSpan ngx req = true) (s : State) :
    (startNgxSpan ngx sdk s req).tracer.spans[s.tracer.spans.length]?.map Span.parent =
      some (((if req.locConf.trustIncomingSpans then extractContext sdk req else none).map
        SpanContext.remote).or s.tracer.contexts.current.span) := by
  obtain ⟨henabled, hinternal⟩ := Bool.and_eq_true_iff.mp h
  rw [Bool.not_eq_true'] at hinternal
  rw [startNgxSpan, if_neg (not_not_intro henabled),
    if_neg (by rw [hinternal]; exact Bool.false_ne_true)]
  have hdecorates {t : Tracer} {span : ℕ} {v₁ v₂ v₃ : Option Bytes} {headers : Headers}
      {names values : Option Bytes} {excluded : List (Option ℕ)} :=
    (((Decorates.setIfPresent t span (ascii "http.server_name") v₁).trans
      (.setIfPresent _ span (ascii "http.host") v₂)).trans
      (.setIfPresent _ span (ascii "http.user_agent") v₃)).trans
      (.captured ngx _ span (ascii "http.request.header.") req headers names values excluded)
  rw [← List.getElem?_map]
  refine (congrArg (·[s.tracer.spans.length]?) hdecorates.parents).trans ?_
  rw [List.getElem?_map]
  dsimp only [Tracer.startSpanUnder, createTraceContext]
  rw [List.getElem?_append_right (Nat.le_refl _), Nat.sub_self]
  rfl

/-- What a carrier stands for in a format. -/
def readAs (formats : HeaderFormats) (type : TracePropagationType) (get : Bytes → Bytes) :
    Option RemoteContext :=
  match type with
  | .TracePropagationW3C => formats.traceparent (get (ascii "traceparent"))
  | .TracePropagationB3 | .TracePropagationB3Multi =>
    if get (ascii "b3") ≠ [] then formats.b3 (get (ascii "b3"))
    else formats.b3Multi (get (ascii "X-B3-TraceId")) (get (ascii "X-B3-SpanId"))
      (get (ascii "X-B3-Sampled"))
  | .TracePropagationUnset => none

theorem extractContext_eq {formats : HeaderFormats} (hsdk : Documented sdk inject formats)
    (req : NgxHttpRequest) :
    extractContext sdk req =
      readAs formats req.locConf.propagationType (carrierGet req.headers_in.headers) := by
  rw [extractContext]
  cases req.locConf.propagationType with
  | TracePropagationW3C => exact hsdk.extractTraceContext _
  | TracePropagationB3 | TracePropagationB3Multi => exact hsdk.extractB3 _
  | TracePropagationUnset => rfl

theorem standFor_iff {formats : HeaderFormats} (hsdk : Documented sdk inject formats)
    (req : NgxHttpRequest) {headers : Headers} {c : RemoteContext} :
    StandFor sdk req.locConf.propagationType headers c ↔
      readAs formats req.locConf.propagationType (carrierGet headers) = some c := by
  constructor
  · intro h
    rw [← h.extracted { req with headers_in := { req.headers_in with headers := headers } } rfl rfl,
      extractContext_eq hsdk]
  · intro h
    have hextracted (req' : NgxHttpRequest)
        (htype : req'.locConf.propagationType = req.locConf.propagationType)
        (hheaders : req'.headers_in.headers = headers) : extractContext sdk req' = some c := by
      rw [extractContext_eq hsdk, htype, hheaders, h]
    refine ⟨hextracted, fun ngx s req' htype hheaders htrust hstarts => ?_⟩
    rw [startNgxSpan_parent hstarts, if_pos htrust, hextracted req' htype hheaders]
    rfl

/-! ### The values of the variables -/

section

variable {formats : HeaderFormats}

/-- A slot holds what some call has set. -/
theorem key_after (calls : List SetCall) {slot : TraceHeader}
    (hslot : slot ∈ (after calls).traceHeader) :
    slot.key = [] ∨ slot.key ∈ calls.map SetCall.name := by
  induction calls using List.reverseRecOn generalizing slot with
  | nil =>
    left
    obtain rfl | hslot := List.mem_cons.mp hslot
    · rfl
    · rw [List.mem_singleton.mp hslot]
  | append_singleton calls call ih =>
    rw [after_append, List.foldl_cons, List.foldl_nil] at hslot
    have hbefore (h : slot ∈ (after calls).traceHeader) :
        slot.key = [] ∨ slot.key ∈ (calls ++ [call]).map SetCall.name := by
      rw [List.map_append]
      exact (ih h).imp_right (List.mem_append_left _)
    by_cases hacc : call.Accepted (after calls).traceHeader
    · obtain ⟨i, -, hnext⟩ := next_of_accepted hacc
      rw [hnext] at hslot
      rcases List.mem_or_eq_of_mem_set hslot with hold | rfl
      · exact hbefore hold
      · exact .inr (List.mem_map_of_mem (List.mem_append_right _ List.mem_cons_self))
    · rw [set_of_refused hacc] at hslot
      exact hbefore hslot

/-- A header that no call sets is not found. -/
theorem find_after_of_notMem {calls : List SetCall} {key : Bytes} (hkey : Plain key)
    (hnot : key ∉ calls.map SetCall.name) :
    traceContextFindTraceHeader (after calls).traceHeader key = none := by
  rw [traceContextFindTraceHeader]
  split
  · rfl
  · next hne =>
    rw [Option.map_eq_none_iff, List.find?_eq_none]
    intro slot hslot hfound
    obtain ⟨hlength, hstring⟩ := of_decide_eq_true hfound
    have heq : key = slot.key := eq_of_plain hkey hlength.symm hstring.symm
    rcases key_after calls hslot with hempty | hmem
    · exact hne (heq.trans hempty)
    · exact hnot (heq ▸ hmem)

/-- A header that is set in one of the two slots is found. -/
theorem find_after_of_mem {calls : List SetCall} (hlength : calls.length ≤ 2)
    (hnodup : (calls.map SetCall.name).Nodup) (hready : ∀ call ∈ calls, call.Ready)
    {call : SetCall} (hcall : call ∈ calls) :
    traceContextFindTraceHeader (after calls).traceHeader call.name = some call.traceValue := by
  have hmem : call.stored ∈ filled calls := List.mem_append_left _ (List.mem_map_of_mem hcall)
  rw [traceContextFindTraceHeader, if_neg (hready call hcall).name_ne,
    after_eq hlength hnodup hready, Option.map_eq_some_iff]
  have hsome : ((filled calls).find? fun slot =>
      slot.key.length = call.name.length ∧ cString slot.key = cString call.name).isSome :=
    List.find?_isSome.mpr ⟨call.stored, hmem, by simp [SetCall.stored]⟩
  obtain ⟨slot, hslot⟩ := Option.isSome_iff_exists.mp hsome
  refine ⟨slot, hslot, ?_⟩
  obtain ⟨hslotMem, hslotLength, hstring⟩ := of_find hslot
  have hkey : call.name = slot.key :=
    eq_of_plain (hready call hcall).plain hslotLength.symm hstring.symm
  rcases List.mem_append.mp hslotMem with hstored | hfree
  · obtain ⟨other, hother, rfl⟩ := List.mem_map.mp hstored
    rw [List.inj_on_of_nodup_map hnodup hother hcall hkey.symm]
    rfl
  · rw [List.eq_of_mem_replicate hfree] at hkey
    exact absurd hkey (hready call hcall).name_ne

variable {t : Tracer} {starts : List NgxHttpRequest} {req start : NgxHttpRequest} {i : ℕ}

/-- A variable that stands for a header of the trace context. -/
theorem getVariable_header {s : Outgoing} {span : ℕ} (henabled : isOtelEnabled ngx req = true)
    (htraced : s.traced req = some (i, span)) (context : ℕ → RemoteContext) (allocated : Bool)
    {key : Bytes} (hkey : key = ascii "traceparent" ∨ key = ascii "tracestate" ∨ key = ascii "b3") :
    getVariable ngx context allocated s req (kOtelCtxVarPrefix ++ key) =
      match traceContextFindTraceHeader (s.traceHeaders.getD i []) key with
      | some value => ⟨true, true, false, value⟩
      | none => ⟨false, true, true, []⟩ := by
  have hvariable : getVariable ngx context allocated s req (kOtelCtxVarPrefix ++ key) =
      otelGetTraceContextVar ngx s req (kOtelCtxVarPrefix ++ key) .init := by
    rcases hkey with rfl | rfl | rfl <;> rfl
  have hwithout : withoutOtelVarPrefix (kOtelCtxVarPrefix ++ key) = key := by
    rcases hkey with rfl | rfl | rfl <;> rfl
  rw [hvariable, otelGetTraceContextVar, if_neg (not_not_intro henabled), htraced, hwithout]

/-- A variable that is a part of the context of a span. -/
theorem otelGetPart_valid {s : Outgoing} {span : ℕ} (henabled : isOtelEnabled ngx req = true)
    (htraced : s.traced req = some (i, span)) {context : ℕ → RemoteContext}
    (hvalid : isValid (context span) = true) (text : RemoteContext → Bytes) (v : VariableValue) :
    otelGetPart ngx context text true s req v = ⟨true, true, false, text (context span)⟩ := by
  rw [otelGetPart, if_neg (not_not_intro henabled), htraced]
  dsimp only
  rw [if_pos hvalid, if_pos rfl]

/-- The value of a header in a trace context, and nothing where there is none. -/
def sent (traceHeaders : List TraceHeader) (key : Bytes) : Bytes :=
  (traceContextFindTraceHeader traceHeaders key).getD []

/-- The headers that are set for a request whose span was started. -/
def headersFor (type : TracePropagationType) (traceHeaders : List TraceHeader) (c : RemoteContext) :
    Headers :=
  match type with
  | .TracePropagationB3 => [(ascii "b3", sent traceHeaders (ascii "b3"))]
  | .TracePropagationB3Multi =>
    [(ascii "x-b3-traceid", toHex 32 c.traceId), (ascii "x-b3-spanid", toHex 16 c.spanId),
      (ascii "x-b3-sampled", if c.sampled then ascii "1" else ascii "0")]
  | .TracePropagationW3C | .TracePropagationUnset =>
    [(ascii "traceparent", sent traceHeaders (ascii "traceparent")),
      (ascii "tracestate", sent traceHeaders (ascii "tracestate"))]

/-- The directives for a proxied server, each with its parameter and its variable. -/
def proxyVars : TracePropagationType → List (Bytes × Bytes)
  | .TracePropagationB3 => [(ascii "b3", kOtelCtxVarPrefix ++ ascii "b3")]
  | .TracePropagationB3Multi =>
    [(ascii "x-b3-traceid", ascii "opentelemetry_trace_id"),
      (ascii "x-b3-spanid", ascii "opentelemetry_span_id"),
      (ascii "x-b3-sampled", ascii "opentelemetry_sampled")]
  | .TracePropagationW3C | .TracePropagationUnset =>
    [(ascii "traceparent", kOtelCtxVarPrefix ++ ascii "traceparent"),
      (ascii "tracestate", kOtelCtxVarPrefix ++ ascii "tracestate")]

theorem proxyVars_eq (type : TracePropagationType) :
    ((propagationVars type).filter fun var => var.directive = ascii "proxy_set_header").map
      (fun var => (var.parameter, var.variableName.drop 1)) = proxyVars type := by
  cases type <;> decide +kernel

/-- What a variable is expanded to. -/
def expanded (v : VariableValue) : Bytes := if v.not_found then [] else v.data

theorem headersSet_eq {s : Outgoing} {span : ℕ} (henabled : isOtelEnabled ngx req = true)
    (htraced : s.traced req = some (i, span)) {context : ℕ → RemoteContext}
    (hvalid : isValid (context span) = true) :
    headersSet ngx context true s req =
      headersFor req.locConf.propagationType (s.traceHeaders.getD i []) (context span) := by
  have hset : headersSet ngx context true s req =
      (proxyVars req.locConf.propagationType).map fun var =>
        (var.1, expanded (getVariable ngx context true s req var.2)) := by
    rw [← proxyVars_eq, List.map_map]
    rfl
  have hheader (key : Bytes)
      (hkey : key = ascii "traceparent" ∨ key = ascii "tracestate" ∨ key = ascii "b3") :
      expanded (getVariable ngx context true s req (kOtelCtxVarPrefix ++ key)) =
        sent (s.traceHeaders.getD i []) key := by
    rw [getVariable_header henabled htraced context true hkey, sent]
    cases traceContextFindTraceHeader (s.traceHeaders.getD i []) key <;> rfl
  have htrace : getVariable ngx context true s req (ascii "opentelemetry_trace_id") =
      ⟨true, true, false, toHex 32 (context span).traceId⟩ :=
    (if_pos rfl).trans (otelGetPart_valid henabled htraced hvalid _ _)
  have hspan : getVariable ngx context true s req (ascii "opentelemetry_span_id") =
      ⟨true, true, false, toHex 16 (context span).spanId⟩ :=
    (if_neg (by decide)).trans ((if_pos rfl).trans (otelGetPart_valid henabled htraced hvalid _ _))
  have hsampled : getVariable ngx context true s req (ascii "opentelemetry_sampled") =
      ⟨true, true, false, if (context span).sampled then ascii "1" else ascii "0"⟩ :=
    (if_neg (by decide)).trans ((if_neg (by decide)).trans
      ((if_pos rfl).trans (otelGetPart_valid henabled htraced hvalid _ _)))
  rw [hset]
  cases req.locConf.propagationType with
  | TracePropagationB3 => rw [proxyVars, List.map_singleton, hheader _ (.inr (.inr rfl))]; rfl
  | TracePropagationB3Multi =>
    rw [proxyVars, List.map_cons, List.map_cons, List.map_singleton, htrace, hspan, hsampled]
    rfl
  | TracePropagationW3C | TracePropagationUnset =>
    rw [proxyVars, List.map_cons, List.map_singleton, hheader _ (.inl rfl),
      hheader _ (.inr (.inl rfl))]
    rfl

/-! ### What the upstream reads -/

/-- The headers that are set have different names. -/
theorem headersFor_pairwise (type : TracePropagationType) (traceHeaders : List TraceHeader)
    (c : RemoteContext) :
    (headersFor type traceHeaders c).Pairwise fun a b => eqIgnoringCase a.1 b.1 = false := by
  cases type <;> simp [headersFor] <;> decide

/-- The value of a header among those that an injection leaves. -/
theorem sent_of_mem (hsdk : Documented sdk inject formats) {type : TracePropagationType} {n : ℕ}
    {call : SetCall} (htype : type ≠ .TracePropagationB3Multi)
    (hcall : call ∈ (inject type n).headers) :
    sent (after (inject type n).headers).traceHeader call.name = call.traceValue := by
  have hdocumented := (inject type n).documented
  rw [hsdk.type] at hdocumented
  have hlength : (inject type n).headers.length ≤ 2 := by
    have hle := hdocumented.length_le
    rw [List.length_map] at hle
    refine hle.trans ?_
    cases type with
    | TracePropagationB3Multi => exact absurd rfl htype
    | _ => decide
  rw [sent, find_after_of_mem hlength (hdocumented.nodup (headerNames_nodup type))
    (hsdk.ready type n) hcall]
  rfl

/-- A header that the format does not have is not sent. -/
theorem sent_of_notMem (hsdk : Documented sdk inject formats) {type : TracePropagationType} {n : ℕ}
    {key : Bytes} (hkey : Plain key) (hnot : key ∉ type.headerNames) :
    sent (after (inject type n).headers).traceHeader key = [] := by
  have hdocumented := (inject type n).documented
  rw [hsdk.type] at hdocumented
  rw [sent, find_after_of_notMem hkey fun hmem => hnot (hdocumented.subset hmem)]
  rfl

/-- What is read from the headers that are sent, in the format of the location. -/
theorem read_iff (hsdk : Documented sdk inject formats) {proxyPass : Headers → Headers → Headers}
    (hproxy : ForwardsHeaders proxyPass) (type startType : TracePropagationType) (inbound : Headers)
    (n : ℕ) :
    readAs formats type (carrierGet (proxyPass (headersFor type
        (after (inject startType n).headers).traceHeader (formats.context n)) inbound)) =
        some (formats.context n) ↔
      Continues formats startType inbound (formats.context n) type := by
  have hget (key : Bytes) := hproxy _ inbound key (headersFor_pairwise type
    (after (inject startType n).headers).traceHeader (formats.context n))
  generalize carrierGet (proxyPass _ inbound) = get at hget ⊢
  cases type with
  | TracePropagationW3C =>
    have htraceparent : get (ascii "traceparent") =
        sent (after (inject startType n).headers).traceHeader (ascii "traceparent") := hget _
    rw [readAs, htraceparent, Continues]
    by_cases hstart : startType = .TracePropagationW3C
    · obtain ⟨call, hcall, hname, hvalue⟩ := hsdk.injectTraceContext n
      rw [hstart, ← hname, sent_of_mem hsdk (by decide) hcall, hvalue]
      simp
    · have hnot : ascii "traceparent" ∉ startType.headerNames := by
        cases startType with
        | TracePropagationW3C => exact absurd rfl hstart
        | _ => decide
      rw [sent_of_notMem hsdk (headerNames_plain .TracePropagationW3C _ List.mem_cons_self).2 hnot,
        hsdk.noTraceparent]
      simp [hstart]
  | TracePropagationB3 =>
    have hb3 : get (ascii "b3") =
        sent (after (inject startType n).headers).traceHeader (ascii "b3") := hget _
    rw [readAs, hb3, Continues]
    by_cases hstart : startType = .TracePropagationB3
    · obtain ⟨call, hcall, hname, hvalue⟩ := hsdk.injectB3 n
      rw [hstart, ← hname, sent_of_mem hsdk (by decide) hcall,
        if_pos (hsdk.ready _ n call hcall).value_ne, hvalue]
      simp
    · have hnot : ascii "b3" ∉ startType.headerNames := by
        cases startType with
        | TracePropagationB3 => exact absurd rfl hstart
        | _ => decide
      -- without a value the single header is not sent, and those of the client count
      have htrace : get (ascii "X-B3-TraceId") = carrierGet inbound (ascii "X-B3-TraceId") := hget _
      have hspan : get (ascii "X-B3-SpanId") = carrierGet inbound (ascii "X-B3-SpanId") := hget _
      have hsampled : get (ascii "X-B3-Sampled") = carrierGet inbound (ascii "X-B3-Sampled") :=
        hget _
      rw [sent_of_notMem hsdk (headerNames_plain .TracePropagationB3 _ List.mem_cons_self).2 hnot,
        if_neg (not_not_intro rfl), htrace, hspan, hsampled]
      simp [hstart]
  | TracePropagationB3Multi =>
    have hb3 : get (ascii "b3") = carrierGet inbound (ascii "b3") := hget _
    have htrace : get (ascii "X-B3-TraceId") = toHex 32 (formats.context n).traceId := hget _
    have hspan : get (ascii "X-B3-SpanId") = toHex 16 (formats.context n).spanId := hget _
    have hsampled : get (ascii "X-B3-Sampled") =
        if (formats.context n).sampled then ascii "1" else ascii "0" := hget _
    rw [readAs, hb3, htrace, hspan, hsampled, hsdk.readB3Multi, Continues]
    by_cases hempty : carrierGet inbound (ascii "b3") = [] <;> simp [hempty]
  | TracePropagationUnset => exact ⟨nofun, False.elim⟩

/-- After any calls of `StartNgxSpan` for a request and its subrequests, the headers that are
passed on for one of them stand for its own span exactly when an upstream of the format `Continues`
it: for W3C, if the span was started in a location for it; for the single B3 header, if it was
started in a location for it or the client's other B3 headers stand for it; for B3 multi-header,
unless the client sent a single B3 header for another span. -/
theorem upstream_iff (hsdk : Documented sdk inject formats)
    {proxyPass : Headers → Headers → Headers}
    (hproxy : ForwardsHeaders proxyPass) (ngx : NgxCore) (t : Tracer) (starts : List NgxHttpRequest)
    (start req : NgxHttpRequest) (i : ℕ)
    (hcall : callFor (starts.filter (startsSpan ngx)) req = some i)
    (hstart : (starts.filter (startsSpan ngx))[i]? = some start)
    (henabled : isOtelEnabled ngx req = true) :
    StandFor sdk req.locConf.propagationType
        (proxyPass (headersSet ngx formats.context true
          (starts.foldl (Outgoing.startNgxSpan ngx sdk inject) (.request t)) req)
            req.headers_in.headers)
        (formats.context (t.spans.length + i)) ↔
      Continues formats start.locConf.propagationType req.headers_in.headers
        (formats.context (t.spans.length + i)) req.locConf.propagationType := by
  have hcalled : Called inject t (starts.filter (startsSpan ngx))
      (starts.foldl (Outgoing.startNgxSpan ngx sdk inject) (.request t)) :=
    called ngx sdk inject t starts
  have htraced : (starts.foldl (Outgoing.startNgxSpan ngx sdk inject) (.request t)).traced req =
      some (i, t.spans.length + i) := by
    rw [traced_eq, hcall]
    rfl
  have hheaders : (starts.foldl (Outgoing.startNgxSpan ngx sdk inject)
      (.request t)).traceHeaders.getD i [] =
      (after (inject start.locConf.propagationType (t.spans.length + i)).headers).traceHeader := by
    rw [hcalled.traceHeaders, List.getD_eq_getElem?_getD, List.getElem?_map, List.getElem?_zipIdx,
      hstart, Nat.zero_add]
    rfl
  rw [headersSet_eq henabled htraced (hsdk.valid _), hheaders, standFor_iff hsdk]
  exact read_iff hsdk hproxy _ _ _ _

end

/-! ### A subrequest in a location for B3 -/

/-- The headers that are set and have a value, and those of the client with other names. -/
def proxyHeaders (headers inbound : Headers) : Headers :=
  headers.filter (fun header => header.2 ≠ []) ++
    inbound.filter fun header => !headers.any fun set => eqIgnoringCase set.1 header.1

theorem eqIgnoringCase_of_both {key a b : Bytes} (ha : eqIgnoringCase key a = true)
    (hb : eqIgnoringCase key b = true) : eqIgnoringCase a b = true :=
  decide_eq_true ((of_decide_eq_true ha).symm.trans (of_decide_eq_true hb))

theorem find?_of_unique {α : Type} {p : α → Bool} {l : List α} {a : α} (ha : a ∈ l)
    (hp : p a = true) (hunique : ∀ b ∈ l, p b = true → b = a) : l.find? p = some a := by
  obtain ⟨b, hb⟩ := Option.isSome_iff_exists.mp (List.find?_isSome.mpr ⟨a, ha, hp⟩)
  rw [hb, hunique b (List.mem_of_find?_eq_some hb) (List.find?_some hb)]

theorem proxyHeaders_forwards : ForwardsHeaders proxyHeaders := by
  intro headers inbound key hpairwise
  have hunique : ∀ a ∈ headers, ∀ b ∈ headers, eqIgnoringCase key a.1 = true →
      eqIgnoringCase key b.1 = true → a = b := by
    have hsame : headers.Pairwise fun a b => eqIgnoringCase key a.1 = true →
        eqIgnoringCase key b.1 = true → a = b :=
      hpairwise.imp fun hne ha hb => absurd (eqIgnoringCase_of_both ha hb) (by simp [hne])
    have : Std.Symm fun a b : Bytes × Bytes => eqIgnoringCase key a.1 = true →
        eqIgnoringCase key b.1 = true → a = b := ⟨fun _ _ h ha hb => (h hb ha).symm⟩
    exact fun a ha b hb => hsame.forall_of_forall (fun _ _ _ _ => rfl) ha hb
  rw [carrierGet, carrierGet, proxyHeaders, List.find?_append]
  cases hfind : headers.find? fun header => eqIgnoringCase key header.1 with
  | none =>
    rw [List.find?_eq_none] at hfind
    have hset : (headers.filter fun header => header.2 ≠ []).find?
        (fun header => eqIgnoringCase key header.1) = none := by
      rw [List.find?_eq_none]
      exact fun header hheader => hfind header (List.mem_of_mem_filter hheader)
    have hother :
        (inbound.filter fun header =>
          !headers.any fun set => eqIgnoringCase set.1 header.1).find?
            (fun header => eqIgnoringCase key header.1) =
        inbound.find? fun header => eqIgnoringCase key header.1 := by
      rw [List.find?_filter]
      congr 1
      funext header
      by_cases hkey : eqIgnoringCase key header.1 = true
      · have hnone : (headers.any fun set => eqIgnoringCase set.1 header.1) = false := by
          rw [List.any_eq_false]
          intro set hset hsame
          refine hfind set hset (decide_eq_true ?_)
          exact (of_decide_eq_true hkey).trans (of_decide_eq_true hsame).symm
        simp [hkey, hnone]
      · simp [hkey]
    rw [hset, Option.none_or, hother]
    rfl
  | some set =>
    have hmem : set ∈ headers := List.mem_of_find?_eq_some hfind
    have hkey := List.find?_some
      (p := fun header : Bytes × Bytes => eqIgnoringCase key header.1) hfind
    by_cases hvalue : set.2 = []
    · have hset : (headers.filter fun header => header.2 ≠ []).find?
          (fun header => eqIgnoringCase key header.1) = none := by
        rw [List.find?_eq_none]
        intro header hheader hkey'
        obtain ⟨hheader, hne⟩ := List.mem_filter.mp hheader
        exact of_decide_eq_true hne (hunique header hheader set hmem hkey' hkey ▸ hvalue)
      have hother :
          (inbound.filter fun header =>
            !headers.any fun set => eqIgnoringCase set.1 header.1).find?
              (fun header => eqIgnoringCase key header.1) = none := by
        rw [List.find?_eq_none]
        intro header hheader hkey'
        have hnot := (List.mem_filter.mp hheader).2
        rw [Bool.not_eq_true', List.any_eq_false] at hnot
        exact hnot set hmem (eqIgnoringCase_of_both hkey hkey')
      rw [hset, hother]
      exact hvalue.symm
    · rw [find?_of_unique (List.mem_filter.mpr ⟨hmem, decide_eq_true hvalue⟩) hkey
        fun header hheader hkey' =>
          hunique header (List.mem_of_mem_filter hheader) set hmem hkey' hkey]
      rfl

/-- A header with memory for it. -/
def plainCall (name value : Bytes) : SetCall := ⟨⟨name, [0]⟩, value, fun _ => [0], true, true⟩

/-- What the propagators set for a span. -/
def sampleInject (type : TracePropagationType) (n : ℕ) : Injection :=
  let c := Httpd.sampleFormats.context n
  match type with
  | .TracePropagationW3C =>
    ⟨.TracePropagationW3C, [plainCall (ascii "traceparent") (traceparent c)],
      List.sublist_append_left [ascii "traceparent"] [ascii "tracestate"]⟩
  | .TracePropagationB3 =>
    ⟨.TracePropagationB3, [plainCall (ascii "b3") (Httpd.b3Text c)], .refl _⟩
  | .TracePropagationB3Multi =>
    ⟨.TracePropagationB3Multi, [plainCall (ascii "X-B3-TraceId") (Httpd.b3Fields c).1,
      plainCall (ascii "X-B3-SpanId") (Httpd.b3Fields c).2.1,
      plainCall (ascii "X-B3-Sampled") (Httpd.b3Fields c).2.2], .refl _⟩
  | .TracePropagationUnset => ⟨.TracePropagationUnset, [], .refl _⟩

def sampleExtract : Sdk where
  httpTraceContext get := parseTraceparent (get (ascii "traceparent"))
  b3Propagator get :=
    if get (ascii "b3") ≠ [] then Httpd.sampleFormats.b3 (get (ascii "b3"))
    else Httpd.parseB3 (get (ascii "X-B3-TraceId")) (get (ascii "X-B3-SpanId"))
      (get (ascii "X-B3-Sampled"))

theorem sampleInject_given (type : TracePropagationType) (n : ℕ) :
    ∀ call ∈ (sampleInject type n).headers, call.traceValue ≠ [] ∧ call.keyAllocated = true ∧
      call.valueAllocated = true := by
  cases n with
  | zero => cases type <;> decide +kernel
  | succ n =>
    -- all later spans have one context
    have hsame : sampleInject type (n + 1) = sampleInject type 1 := by cases type <;> rfl
    rw [hsame]
    cases type <;> decide +kernel

theorem sampleExtract_documented : Documented sampleExtract sampleInject Httpd.sampleFormats where
  valid n := by cases n <;> rfl
  extractTraceContext _ := rfl
  extractB3 _ := rfl
  type type n := by cases type <;> rfl
  ready type n call hcall := by
    obtain ⟨hname, hplain⟩ :=
      headerNames_plain _ _ ((sampleInject type n).documented.subset (List.mem_map_of_mem hcall))
    obtain ⟨hvalue, hkey, hmemory⟩ := sampleInject_given type n call hcall
    exact ⟨hname, hplain, hvalue, hkey, hmemory⟩
  injectTraceContext n := ⟨_, List.mem_cons_self, rfl, (Httpd.sampleFormats_read n).1⟩
  injectB3 n := ⟨_, List.mem_cons_self, rfl, (Httpd.sampleFormats_read n).2.1⟩
  readB3Multi n := (Httpd.sampleFormats_read n).2.2
  noTraceparent := rfl

/-- A subrequest of a request in a location for B3 multi-header, with a header of its client. -/
def subrequest (header : Bytes × Bytes) : NgxHttpRequest :=
  { requestIn { location true (ascii "/b") with
      propagationType := .TracePropagationB3Multi } false with
    address := 2, parent := true, headers_in := ⟨[header], none, none⟩ }

/-- What is passed on for the subrequest. -/
def sampleForwarded (header : Bytes × Bytes) : Headers :=
  proxyHeaders (headersSet noMatches Httpd.sampleFormats.context true
    ([requestIn (location true (ascii "/a")) false, subrequest header].foldl
      (Outgoing.startNgxSpan noMatches sampleExtract sampleInject) (.request .init))
    (subrequest header)) [header]

/-- The upstream of the subrequest reads its span, and not that of the request, unless the client
sent a single B3 header. -/
theorem upstream_iff_sample :
    StandFor sampleExtract .TracePropagationB3Multi (sampleForwarded (ascii "Host", ascii "a"))
        (Httpd.sampleFormats.context 1) ∧
      ¬StandFor sampleExtract .TracePropagationB3Multi
        (sampleForwarded (ascii "b3", Httpd.b3Text ⟨7, 7, true⟩))
          (Httpd.sampleFormats.context 1) := by
  have hiff (header : Bytes × Bytes) :=
    upstream_iff sampleExtract_documented proxyHeaders_forwards noMatches .init
      [requestIn (location true (ascii "/a")) false, subrequest header] (subrequest header)
      (subrequest header) 1 rfl rfl rfl
  refine ⟨(hiff _).mpr (.inl rfl), fun h => ?_⟩
  rcases (hiff _).mp h with hempty | hsame
  · exact absurd hempty (by decide +kernel)
  · exact absurd hsame (by decide +kernel)

end Nginx
