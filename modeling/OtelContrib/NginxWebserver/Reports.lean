/-
What the webserver module for nginx reports of a request.

One payload is filled when a request comes in and another one when it is over; the agent is
given copies of them, and makes the root span of the request.

* `RootSpan` — what the span should say of the request, in terms of nginx;
* `request_reported` — in every run of a worker in which a request is started and ended, its
  span says this.
-/
import OtelContrib.Lib.Numerals
import OtelContrib.NginxWebserver.Api
import OtelContrib.NginxWebserver.Balance
import OtelContrib.NginxWebserver.Routing
import OtelContrib.Webserver.Records

open LastSome LastWins
open Numerals (printed printed_ne_nil isDigit_of_mem_printed decimalValue_printed)
open Otel
open Otel.Common (cString)
open Webserver (WSAgent InitAnswers TenantConfig SpanNamer Sdk Carrier RequestPayload
  ResponsePayload readUnsigned errorStatus requestStatus endedRequest rootSpanOf remoteParent
  requestFields requestAttributes requestFieldNames requestFieldNames_apart requestFieldNames_nodup)

namespace NginxWebserver

open Worker

/-! ### The payloads -/

/-- The agent is given what the module fills of a request. -/
def RequestGiven (names : Finset Bytes) (incoming : PayloadRequest) (payload : RequestPayload) :
    Prop :=
  ∃ p, fillRequestPayload incoming = some p ∧ populatePayload names p = some payload

/-- The agent is given what the module fills of a response, with a status that is set later. -/
def ResponseGiven (names : Finset Bytes) (ngxHttpGetVariable : Bytes → Option Bytes)
    (outgoing : PayloadResponse) (payload : ResponsePayload) : Prop :=
  ∃ p status_code, fillResponsePayload ngxHttpGetVariable outgoing = some p ∧
    responsePayload names p status_code = some payload

/-- The status that is reported: an error of nginx itself comes first. -/
def reportedStatus (r : NgxHttpRequest) : UInt64 :=
  if LOWEST_HTTP_ERROR_CODE ≤ r.err_status then r.err_status else r.status

/-- The fields of a request. -/
def reportedFields (r : PayloadRequest) : List (Bytes × AttributeValue) :=
  [(ascii "request_protocol", .string r.http_protocol.viewed),
    (ascii "http.server_name", .string (cString r.server_name)),
    (ascii "http.method", .string r.method_name.viewed),
    (ascii "http.scheme", .string (if r.ssl then ascii "https" else ascii "http")),
    (ascii "net.host.name", .string r.hostname.viewed), (ascii "net.server.port", .int64 80),
    (ascii "http.target", .string r.uri.viewed),
    (ascii "http.flavor", .string r.http_protocol.viewed),
    (ascii "http.client_ip", .string r.addr_text.viewed),
    (ascii "http.user_agent", .string ((r.user_agent.map cString).getD [])),
    (ascii "net.remote.port", .int64 (Int64.ofNat (remotePort r.sockaddr)))]

/-- The headers of the client that the parent of a span is looked for in. -/
structure Propagated (incoming : PayloadRequest) (carrier : Carrier) : Prop where
  header : ∀ name ∈ httpHeaders, carrier.find? (propagationName name) =
    if incoming.trusted then lastHeader name incoming.headers.toList else none
  noOther : ∀ key, (∀ name ∈ httpHeaders, propagationName name ≠ key) → carrier.find? key = none

/-- The span of a request with the SDK and the names of its context: captured headers and
attributes under their starts, the fields, and a status with an error only for errors of the
server. -/
structure RootSpan (requestHeadersToCapture responseHeadersToCapture : Finset Bytes)
    (ngxHttpGetVariable : Bytes → Option Bytes) (incoming : PayloadRequest)
    (outgoing : PayloadResponse) (r : NgxHttpRequest) (sdk : Sdk) (getSpanName : Bytes → Bytes)
    (current : Option SpanContext) (span : Span) : Prop where
  name : ∀ name, (incoming.locConf.str .operationName).map cString = some name →
    span.name = if name = [] then getSpanName incoming.uri.viewed else name
  kind : span.kind = .SERVER
  parent : ∃ carrier, Propagated incoming carrier ∧
    span.parent = ((remoteParent sdk carrier).map .remote).or current
  requestHeader : ∀ name, span.attributes.find? (ascii "http.request.header." ++ name) =
    (if name ∈ requestHeadersToCapture then lastHeader name incoming.headers.first
    else none).map .string
  responseHeader : ∀ name, span.attributes.find? (ascii "http.response.header." ++ name) =
    (if name ∈ responseHeadersToCapture then lastHeader name outgoing.headers_out.first
    else none).map .string
  otelAttribute : ∀ pairs, outgoing.locConf.attributes.getD [] = documentedForm pairs →
    ∀ key, span.attributes.find? (ascii "otel.attribute." ++ key) =
      (lastSome (fun pair =>
        if attributeData ngxHttpGetVariable pair.1 = key then
          some (attributeData ngxHttpGetVariable pair.2)
        else none) pairs).map .string
  statusCode : span.attributes.find? (ascii "http.status_code") =
    some (.uint32 (reportedStatus r).toUInt32)
  field : ∀ kv ∈ reportedFields incoming, span.attributes.find? kv.1 = some kv.2
  status : (reportedStatus r).toNat < 1000 → span.status =
    if (reportedStatus r).toNat < 400 then (.Ok, [])
    else if (reportedStatus r).toNat < 500 then (.Unset, [])
    else (.Error, ascii "HTTP ERROR CODE:" ++ printed (reportedStatus r).toNat)

/-! ### The status -/

theorem readUnsigned_printed {n : ℕ} (hn : n < 2 ^ 32) : readUnsigned (printed n) = some n := by
  obtain ⟨b, rest, hprinted⟩ := List.exists_cons_of_ne_nil (printed_ne_nil n)
  have hdigits : ∀ d ∈ b :: rest, 48 ≤ d ∧ d ≤ 57 := by
    intro d hd
    rw [← hprinted] at hd
    exact of_decide_eq_true (isDigit_of_mem_printed hd)
  obtain ⟨hlow, hhigh⟩ := hdigits b List.mem_cons_self
  rw [UInt8.le_iff_toNat_le] at hlow hhigh
  have hlow : 48 ≤ b.toNat := hlow
  have hspace : ¬(b = 32 ∨ 9 ≤ b ∧ b ≤ 13) := by
    rw [UInt8.le_iff_toNat_le, UInt8.le_iff_toNat_le, ← UInt8.toNat_inj]
    show ¬(b.toNat = 32 ∨ 9 ≤ b.toNat ∧ b.toNat ≤ 13)
    omega
  have hsign : ¬(b = 43 ∨ b = 45) := by
    rw [← UInt8.toNat_inj, ← UInt8.toNat_inj]
    show ¬(b.toNat = 43 ∨ b.toNat = 45)
    omega
  have hvalue : (b :: rest).foldl (fun n d => 10 * n + (d.toNat - 48)) 0 = n := by
    rw [← hprinted]
    exact decimalValue_printed n
  have hall : ((b :: rest).takeWhile fun d => decide (48 ≤ d ∧ d ≤ 57)) = b :: rest :=
    List.takeWhile_eq_self_iff.mpr fun d hd => decide_eq_true (hdigits d hd)
  rw [hprinted]
  unfold readUnsigned
  dsimp only
  rw [List.dropWhile_cons_of_neg (by simpa using hspace)]
  dsimp only
  rw [if_neg hsign, hall, hvalue, if_neg (Nat.not_le.mpr hn), if_neg fun h => hsign (.inr h)]

theorem codeText_of_lt {code : UInt32} (h : code.toNat < 2 ^ 31) :
    codeText code = printed code.toNat := by
  have hint : code.toInt32.toInt = (code.toNat : ℤ) := by
    show code.toBitVec.toInt = _
    exact BitVec.toInt_eq_toNat_of_lt (by
      show 2 * code.toNat < 2 ^ 32
      omega)
  rw [codeText, hint]
  rfl

/-- There is an error where the reported status is one. -/
theorem otelRequestHasErrors_iff (r : NgxHttpRequest) :
    otelRequestHasErrors r = true ↔ LOWEST_HTTP_ERROR_CODE ≤ reportedStatus r := by
  rw [otelRequestHasErrors, Bool.or_eq_true, decide_eq_true_iff, decide_eq_true_iff,
    reportedStatus]
  by_cases herr : LOWEST_HTTP_ERROR_CODE ≤ r.err_status
  · rw [if_pos herr]
    exact iff_of_true (.inl herr) herr
  · rw [if_neg herr]
    exact or_iff_right herr

theorem otelGetErrorCode_eq {r : NgxHttpRequest} (h : LOWEST_HTTP_ERROR_CODE ≤ reportedStatus r) :
    otelGetErrorCode r = (reportedStatus r).toUInt32 := by
  rw [reportedStatus] at h ⊢
  rw [otelGetErrorCode]
  by_cases herr : LOWEST_HTTP_ERROR_CODE ≤ r.err_status
  · rw [if_pos herr, if_pos herr]
  · rw [if_neg herr] at h ⊢
    rw [if_neg herr, if_pos h]

/-- The error that a request is ended with. -/
def reportedError (r : NgxHttpRequest) : Option Bytes :=
  if LOWEST_HTTP_ERROR_CODE ≤ reportedStatus r then some (codeText (reportedStatus r).toUInt32)
  else none

theorem errorStatus_server {code : ℕ} (h : 100 ≤ code) (message : Bytes) :
    errorStatus .SERVER code message = if code < 500 then (.Unset, []) else (.Error, message) := by
  have hcode : (Webserver.HTTP_ERROR_1XX ≤ (code : ℤ) ∧ (code : ℤ) < Webserver.HTTP_ERROR_5XX) ↔
      code < 500 := by
    show ((100 : ℤ) ≤ code ∧ (code : ℤ) < 500) ↔ code < 500
    omega
  rw [errorStatus, if_pos rfl]
  exact if_congr hcode rfl rfl

theorem requestStatus_reportedError (sdk : Sdk) {r : NgxHttpRequest}
    (h : (reportedStatus r).toNat < 1000) :
    requestStatus sdk (reportedError r) =
      if (reportedStatus r).toNat < 400 then (.Ok, [])
      else if (reportedStatus r).toNat < 500 then (.Unset, [])
      else (.Error, ascii "HTTP ERROR CODE:" ++ printed (reportedStatus r).toNat) := by
  have hlowest : LOWEST_HTTP_ERROR_CODE ≤ reportedStatus r ↔ 400 ≤ (reportedStatus r).toNat :=
    UInt64.le_iff_toNat_le
  have hcode : (reportedStatus r).toUInt32.toNat = (reportedStatus r).toNat := by
    rw [UInt64.toNat_toUInt32]
    exact Nat.mod_eq_of_lt (by omega)
  by_cases herror : 400 ≤ (reportedStatus r).toNat
  · have htext : codeText (reportedStatus r).toUInt32 = printed (reportedStatus r).toNat := by
      rw [codeText_of_lt (by omega), hcode]
    rw [reportedError, if_pos (hlowest.mpr herror), htext, requestStatus,
      readUnsigned_printed (by omega), Option.getD_some, errorStatus_server (by omega),
      if_neg (Nat.not_lt.mpr herror)]
    rfl
  · rw [reportedError, if_neg (mt hlowest.mp herror), if_pos (by omega)]
    rfl

/-! ### The calls -/

section

variable {sdk : TenantConfig → Sdk} {getSpanName : SpanNamer → Bytes → Bytes}
  {matchIgnorePathRegex : Bytes → Bytes → Bool} {w w' : Worker} {r r' : NgxHttpRequest} {log : Log}
  {handle : ℕ}

theorem Worker.Initialised.requests_eq {conf : LocConf} {b : Bool}
    (h : Initialised sdk getSpanName w conf b log w') : w'.agent.requests = w.agent.requests := by
  cases h with
  | already | refused => rfl
  | @attempted env log a answers outcome agent hnot henv hadded hcontexts hinit =>
    refine (WSAgent.requests_of_registering (hadded.snoc hinit) fun t ht b => ?_).1
    rcases List.mem_append.mp ht with ht | ht
    · obtain ⟨context, -, hcall⟩ := List.mem_map.mp (hcontexts ▸ List.mem_map_of_mem ht :
        t.call ∈ w.contexts.map registerContext)
      rw [← hcall]
      rfl
    · rw [List.mem_singleton.mp ht]
      rfl

/-- A start that hands out a handle calls `startRequest` last. -/
theorem Worker.Monitored.starts (h : Monitored sdk getSpanName w r log w' r')
    (hmem : handle ∈ requestStarts log) :
    ∃ setup a engine o, log = setup ++ [⟨a, .startRequest (some (computeContextName r.locConf))
        (some r.requestPayload) true, .request engine o, w'.agent⟩] ∧
      o.reqHandle = some handle ∧ a.requests = w.agent.requests ∧
      a.mAgentCore = w'.agent.mAgentCore := by
  cases h with
  | internal => cases hmem
  | declined _ hinitialised =>
    rw [hinitialised.does.starts] at hmem
    cases hmem
  | @started setup w₁ outcome agent hinternal hpool hnone hinitialised hstart =>
    rw [requestStarts_append, hinitialised.does.starts, List.nil_append] at hmem
    have hhandle : startedHandle outcome = some handle := by
      obtain ⟨c, hc, hsome⟩ := List.mem_filterMap.mp hmem
      obtain rfl := List.mem_singleton.mp hc
      exact hsome
    unfold startedHandle at hhandle
    split at hhandle
    next engine o =>
      obtain ⟨-, hhandle⟩ := Option.ite_none_right_eq_some.mp hhandle
      have hserve : w₁.agent.serve sdk getSpanName
          (w₁.agent.mAgentCore.getRequestProcessor (computeContextName r.locConf)).2
          (.startRequest (w₁.agent.mAgentCore.getRequestProcessor (computeContextName r.locConf)).1
            (some r.requestPayload) true) = some (.request engine o, agent) := hstart
      exact ⟨setup, w₁.agent, engine, o, rfl, hhandle, hinitialised.requests_eq,
        (WSAgent.serve_spec hserve).1.2.2.symm⟩
    next => cases hhandle

/-- An end of a request is one call, with the status that is reported. -/
theorem stopMonitoringRequest_ends {request_handle_key : Option ℕ}
    (h : w.stopMonitoringRequest sdk getSpanName r request_handle_key = some (log, w'))
    (hmem : handle ∈ requestEnds log) :
    r.pool = true ∧ ∃ outcome, log = [⟨w.agent, .endRequest (some handle) (reportedError r)
      (some { r.responsePayload with statusCode := (reportedStatus r).toUInt32 }), outcome,
      w'.agent⟩] := by
  unfold stopMonitoringRequest at h
  split at h
  next =>
    cases h
    cases hmem
  next =>
    simp only [Option.bind_eq_bind, Option.bind_eq_some_iff] at h
    obtain ⟨key, -, h⟩ := h
    split at h
    next =>
      cases h
      cases hmem
    next handle' =>
      split at h
      next => cases h
      next hpool =>
        obtain ⟨⟨ended, q⟩, hended, h⟩ := Option.bind_eq_some_iff.mp h
        cases h
        obtain ⟨outcome, agent, -, rfl, rfl⟩ := callAgent_spec hended
        obtain rfl := List.mem_singleton.mp hmem
        refine ⟨by simpa using hpool, outcome, ?_⟩
        by_cases herror : otelRequestHasErrors r = true
        · have hlowest := (otelRequestHasErrors_iff r).mp herror
          rw [if_pos herror, reportedError, if_pos hlowest, otelGetErrorCode_eq hlowest]
        · have hlowest := mt (otelRequestHasErrors_iff r).mpr herror
          have hstatus : reportedStatus r = r.status := by
            rw [reportedStatus] at hlowest ⊢
            split at hlowest
            next herr => exact absurd herr hlowest
            next herr => exact if_neg herr
          rw [if_neg herror, reportedError, if_neg hlowest, hstatus]

end

/-! ### The span -/

theorem requestFields_eq {names : Finset Bytes} {incoming : PayloadRequest}
    {payload : RequestPayload} (P : Populated names incoming payload) :
    requestFields payload = reportedFields incoming := by
  rw [requestFields, reportedFields, P.requestProtocol, P.serverName, P.httpRequestMethod, P.scheme,
    P.host, P.port, P.target, P.flavor, P.clientIp, P.userAgent, P.peerPort, Option.getD_some]

theorem rootSpan {requestHeadersToCapture responseHeadersToCapture : Finset Bytes}
    {ngxHttpGetVariable : Bytes → Option Bytes} {incoming : PayloadRequest}
    {outgoing : PayloadResponse} {payload : RequestPayload} {response : ResponsePayload}
    (P : Populated requestHeadersToCapture incoming payload)
    (C : Converted responseHeadersToCapture ngxHttpGetVariable outgoing response)
    (r : NgxHttpRequest) (sdk : Sdk) (getSpanName : Bytes → Bytes)
    (current : Option SpanContext) :
    RootSpan requestHeadersToCapture responseHeadersToCapture ngxHttpGetVariable incoming outgoing r
      sdk getSpanName current (endedRequest sdk (reportedError r)
        (some { response with statusCode := (reportedStatus r).toUInt32 })
        (rootSpanOf sdk getSpanName current payload)) := by
  have R := requestAttributes payload { response with statusCode := (reportedStatus r).toUInt32 }
  constructor
  · intro name hname
    obtain rfl := Option.some.inj (P.operationName.symm.trans hname)
    show (if payload.operationName = [] then getSpanName payload.uri else payload.operationName) = _
    rw [P.uri]
  · rfl
  · exact ⟨payload.httpHeaders, ⟨P.httpHeaders, P.noOther⟩, rfl⟩
  · intro name
    rw [← P.requestHeaders]
    exact R.requestHeader name
  · intro name
    rw [← C.responseHeaders]
    exact R.responseHeader name
  · intro pairs hpairs key
    rw [← C.otelAttributes pairs hpairs]
    exact R.otelAttribute key
  · exact R.statusCode
  · intro kv hkv
    have hnames : (reportedFields incoming).map Prod.fst = requestFieldNames := rfl
    obtain ⟨hstatus, hrequest, hresponse, hattribute⟩ :=
      requestFieldNames_apart _ (hnames ▸ List.mem_map_of_mem hkv)
    refine (R.field kv.1 hstatus hrequest hresponse hattribute).trans ?_
    rw [requestFields_eq P]
    exact lastValue_of_mem (hnames ▸ requestFieldNames_nodup) hkv
  · exact requestStatus_reportedError sdk

/-- **What nginx reports of a request.**  In a run of a worker let a request be started and ended,
with any requests and interactions before, in between and after.  Where the agent was given what the
module fills, the span that came next says what nginx knows of the request, and `End` was called on
it once. -/
theorem request_reported {sdk : TenantConfig → Sdk} {getSpanName : SpanNamer → Bytes → Bytes}
    {matchIgnorePathRegex : Bytes → Bytes → Bool} {contexts : List Triple} {w : Worker}
    {before between after : List HookTransition} {t u : HookTransition}
    (hrun : Run (Worker.step sdk getSpanName matchIgnorePathRegex) (.new contexts)
      (before ++ t :: (between ++ u :: after)) w)
    {r r' : NgxHttpRequest} {answers : InitAnswers} {request_handle_key : Option ℕ} {handle : ℕ}
    (hstart : t.call = .startMonitoringRequest r answers)
    (hstarted : handle ∈ requestStarts t.outcome)
    (hstop : u.call = .stopMonitoringRequest r' request_handle_key)
    (hended : handle ∈ requestEnds u.outcome)
    {requestHeadersToCapture responseHeadersToCapture : Finset Bytes}
    {ngxHttpGetVariable : Bytes → Option Bytes} {incoming : PayloadRequest}
    {outgoing : PayloadResponse}
    (hrequest : RequestGiven requestHeadersToCapture incoming r.requestPayload)
    (hresponse : ResponseGiven responseHeadersToCapture ngxHttpGetVariable outgoing
      r'.responsePayload)
    (hpool : outgoing.pool = r'.pool) :
    ∃ ws span,
      (t.after.agent.mAgentCore.getRequestProcessor (computeContextName r.locConf)).2 = some ws ∧
      w.agent.requests.tracer.spans[t.before.agent.requests.tracer.spans.length]? = some span ∧
      w.agent.requests.tracer.ended.count t.before.agent.requests.tracer.spans.length = 1 ∧
      RootSpan requestHeadersToCapture responseHeadersToCapture ngxHttpGetVariable incoming outgoing
        r' (sdk ws.mTenantConfig) (getSpanName ws.spanNamer)
        t.before.agent.requests.tracer.contexts.current.span span := by
  obtain ⟨-, hstep⟩ := hrun.reached rfl
  obtain ⟨-, hstep'⟩ := hrun.reached (show before ++ t :: (between ++ u :: after) =
    (before ++ t :: between) ++ u :: after by simp)
  have hagent := agentRun hrun
  obtain ⟨s, call, log, s'⟩ := t
  obtain ⟨q, call', log', q'⟩ := u
  cases hstart
  cases hstop
  -- what the two calls of the module did with the agent
  obtain ⟨⟨log, s', r₁⟩, hmonitored, heq⟩ := Option.map_eq_some_iff.mp hstep
  cases heq
  obtain ⟨setup, a, engine, o, rfl, hhandle, hrequests, hcore⟩ :=
    (monitored hmonitored).starts hstarted
  have hstopped : q.stopMonitoringRequest sdk getSpanName r' request_handle_key =
      some (log', q') := hstep'
  obtain ⟨hlive, outcome, rfl⟩ := stopMonitoringRequest_ends hstopped hended
  have hlog : ∀ started ended : WSAgent.CallTransition,
      agentLog (before ++ ⟨s, .startMonitoringRequest r answers, setup ++ [started], s'⟩ ::
        (between ++ ⟨q, .stopMonitoringRequest r' request_handle_key, [ended], q'⟩ :: after)) =
      (agentLog before ++ setup) ++ started :: (agentLog between ++ ended :: agentLog after) := by
    intro started ended
    simp [agentLog]
  rw [hlog] at hagent
  obtain ⟨ws, hws, hspan, hcount⟩ := WSAgent.request_recorded hagent rfl rfl hhandle rfl
  obtain ⟨p, hfill, hpopulate⟩ := hrequest
  obtain ⟨p', status_code, hfill', hmade⟩ := hresponse
  dsimp only at hws hspan hcount ⊢
  rw [hrequests] at hspan hcount
  rw [hcore] at hws
  exact ⟨ws, _, hws, hspan, hcount, rootSpan (populated hfill hpopulate)
    (converted (hpool.trans hlive) hfill' hmade) r' _ _ _⟩

/-! ### A run -/

/-- A request with two headers, of which one is captured. -/
def sampleIncoming : PayloadRequest :=
  { samplePayloadRequest (some (ascii "curl"))
      ⟨2, [[⟨ascii "x-a", some (ascii "1")⟩, ⟨ascii "x-b", some (ascii "2")⟩]],
        List.cons_ne_nil _ _, List.forall_mem_nil _⟩ with
    locConf := sampleConf 0 }

def sampleOutgoing : PayloadResponse :=
  samplePayloadResponse (documentedForm [(ascii "k", ascii "v")])

/-- What the agent is given of them. -/
def sampleRequestGiven : Option RequestPayload :=
  (fillRequestPayload sampleIncoming).bind (populatePayload {ascii "x-a"})

def sampleResponseGiven : Option ResponsePayload :=
  (fillResponsePayload (fun _ => none) sampleOutgoing).bind fun p => responsePayload ∅ p 200

/-- The request as it comes in and as it is ended. -/
def sampleStarted : NgxHttpRequest :=
  { sampleRequest (sampleConf 0) with
    requestPayload := sampleRequestGiven.getD (Webserver.sampleRequest ∅) }

def sampleEnded : NgxHttpRequest :=
  { sampleStarted with
    ctx := some ⟨some 0⟩
    status := 503
    responsePayload := sampleResponseGiven.getD ⟨∅, ∅, 200⟩ }

theorem sampleRequestGiven_given :
    RequestGiven {ascii "x-a"} sampleIncoming sampleStarted.requestPayload := by
  obtain ⟨payload, hpayload⟩ := Option.isSome_iff_exists.mp
    (show sampleRequestGiven.isSome = true by decide +kernel)
  obtain ⟨p, hfill, hpopulate⟩ := Option.bind_eq_some_iff.mp hpayload
  refine ⟨p, hfill, ?_⟩
  rw [hpopulate, sampleStarted, hpayload, Option.getD_some]

theorem sampleResponseGiven_given :
    ResponseGiven ∅ (fun _ => none) sampleOutgoing sampleEnded.responsePayload := by
  obtain ⟨payload, hpayload⟩ := Option.isSome_iff_exists.mp
    (show sampleResponseGiven.isSome = true by decide +kernel)
  obtain ⟨p, hfill, hmade⟩ := Option.bind_eq_some_iff.mp hpayload
  refine ⟨p, 200, hfill, ?_⟩
  rw [hmade, sampleEnded, hpayload, Option.getD_some]

theorem request_reported_sample : ∃ ts w span,
    Run (Worker.step (fun _ => Webserver.sampleSdk) (fun _ uri => uri) fun _ _ => false)
        (.new (stores .new sampleHttp)) ts w ∧
      w.agent.requests.tracer.spans[0]? = some span ∧ span.name = ascii "/" ∧
      span.attributes.find? (ascii "http.request.header.x-a") = some (.string (ascii "1")) ∧
      span.attributes.find? (ascii "http.request.header.x-b") = none ∧
      span.attributes.find? (ascii "otel.attribute.k") = some (.string (ascii "v")) ∧
      span.status = (.Error, ascii "HTTP ERROR CODE:503") := by
  have hchecked : (Run.ofCalls
      (Worker.step (fun _ => Webserver.sampleSdk) (fun _ uri => uri) fun _ _ => false)
      (.new (stores .new sampleHttp))
      [.startMonitoringRequest sampleStarted
        (sampleAnswers [(ascii "shop", ascii "front", ascii "1")]),
        .stopMonitoringRequest sampleEnded none]).any (fun r =>
      r.1.map (fun t => (t.before.agent.requests.tracer.spans.length, requestStarts t.outcome,
        requestEnds t.outcome)) = [(0, [0], []), (1, [], [0])]) = true := by
    decide +kernel
  obtain ⟨r, hr, hchecked⟩ := (Option.any_eq_true _ _).mp hchecked
  have hrun := Run.of_ofCalls hr
  obtain ⟨t, rest, hts, hstart, hrest⟩ := List.map_eq_cons_iff.mp (Run.calls_ofCalls hr)
  obtain ⟨u, rest, rfl, hstop, hnil⟩ := List.map_eq_cons_iff.mp hrest
  obtain rfl := List.map_eq_nil_iff.mp hnil
  rw [hts] at hrun hchecked
  have hrun : Run (Worker.step (fun _ => Webserver.sampleSdk) (fun _ uri => uri) fun _ _ => false)
    (.new (stores .new sampleHttp)) ([] ++ t :: ([] ++ u :: [])) r.2 := hrun
  simp only [List.map_cons, List.map_nil, decide_eq_true_iff, List.cons.injEq, Prod.mk.injEq,
    and_true] at hchecked
  obtain ⟨⟨hlength, hstarts, -⟩, -, -, hends⟩ := hchecked
  obtain ⟨ws, span, -, hspan, -, R⟩ := request_reported hrun hstart
    (hstarts ▸ List.mem_singleton_self 0) hstop (hends ▸ List.mem_singleton_self 0)
    sampleRequestGiven_given sampleResponseGiven_given rfl
  rw [hlength] at hspan
  refine ⟨_, _, span, hrun, hspan, (R.name [] rfl).trans (if_pos rfl), ?_, ?_, ?_, ?_⟩
  · exact R.requestHeader (ascii "x-a")
  · exact R.requestHeader (ascii "x-b")
  · exact R.otelAttribute [(ascii "k", ascii "v")] rfl (ascii "k")
  · exact R.status (by decide)

end NginxWebserver
