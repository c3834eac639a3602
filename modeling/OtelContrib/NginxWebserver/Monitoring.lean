/-
Requests and interactions of the webserver module for nginx
(`ngx_http_opentelemetry_module.c`, over `opentelemetry_ngx_api.cpp`).

The agent of a worker is initialised by the first request that comes to it.  How a path
is matched with a regular expression is a parameter.  Nothing else fails for want of
memory, and statuses have three digits; what dereferences a null pointer or a context
in a pool that is gone is undefined, and `none` here.
-/
import OtelContrib.NginxWebserver.LocConf
import OtelContrib.Webserver.AgentRequests
import OtelContrib.Webserver.Settings

open Otel.Common (cString)
open Webserver (WSAgent InitAnswers TenantConfig SpanNamer Sdk OtelSdkEnvRecord RequestPayload
  ResponsePayload EndInteractionPayload)

namespace NginxWebserver

/-! ### Requests and workers -/

/-- `ngx_http_otel_handles_t`, less what is kept for variables. -/
structure NgxHttpOtelHandles where
  otel_req_handle_key : Option ℕ

/-- What the module reads of an `ngx_http_request_t`: whether its pool is there, the
module's context and the configuration of the current location.  The payloads are what
the headers give. -/
structure NgxHttpRequest where
  internal : Bool
  pool : Bool
  ctx : Option NgxHttpOtelHandles
  locConf : LocConf
  uri : Bytes
  err_status : UInt64
  status : UInt64
  requestPayload : RequestPayload
  responsePayload : ResponsePayload

/-- A worker: the contexts that were stored, `isInitialized`, and the agent. -/
structure Worker where
  contexts : List Triple
  isInitialized : Bool
  agent : WSAgent

/-- The calls of the agent that were made. -/
abbrev Log := List WSAgent.CallTransition

namespace Worker

def new (contexts : List Triple) : Worker := ⟨contexts, false, .new⟩

section

variable (sdk : TenantConfig → Sdk) (getSpanName : SpanNamer → Bytes → Bytes)
  (matchIgnorePathRegex : Bytes → Bytes → Bool)

/-- One call of the agent. -/
def callAgent (w : Worker) (call : WSAgent.Call) : Option (WSAgent.CallTransition × Worker) :=
  match w.agent.step sdk getSpanName call with
  | none => none
  | some (outcome, agent) => some (⟨w.agent, call, outcome, agent⟩, { w with agent := agent })

/-! ### Initialisation -/

/-- The parts of a triple as C strings. -/
def cTriple (t : Triple) : Triple := (cString t.1, cString t.2.1, cString t.2.2)

/-- The name of a context, put together with `strcpy` and `strcat`. -/
def contextName (t : Triple) : Bytes := cString t.1 ++ cString t.2.1 ++ cString t.2.2

/-- `computeContextName`. -/
def computeContextName (conf : LocConf) : Bytes := contextName conf.triple

/-- A number that is printed into six bytes. -/
def numText (n : UInt64) : Option Bytes :=
  let text := ascii (toString n.toNat)
  if text.length < 6 then some text else none

/-- The records that `ngx_initialize_opentelemetry` passes. -/
def envConfig (conf : LocConf) : Option (List OtelSdkEnvRecord) := do
  let record := fun name value => (⟨some (ascii name), some value⟩ : OtelSdkEnvRecord)
  let data := fun o => cString (conf.text o)
  let num := fun o => numText ((conf.num o).getD (-1))
  let qs ← num .otelMaxQueueSize
  let sd ← num .otelScheduledDelayMillis
  let es ← num .otelMaxExportBatchSize
  let et ← num .otelExportTimeoutMillis
  some [record "OTEL_SDK_ENV_OTEL_EXPORTER_TYPE" (data .otelSpanExporter),
    record "OTEL_SDK_ENV_OTEL_LIBRARY_NAME" (ascii "Nginx"),
    record "OTEL_SDK_ENV_OTEL_EXPORTER_ENDPOINT" (data .otelExporterEndpoint),
    record "OTEL_SDK_ENV_OTEL_EXPORTER_OTLPHEADERS" (data .otelExporterOtlpHeaders),
    record "OTEL_SDK_ENV_OTEL_SSL_ENABLED"
      (if conf.flag .otelSslEnabled = some true then ascii "1" else ascii "0"),
    record "OTEL_SDK_ENV_OTEL_SSL_CERTIFICATE_PATH" (data .otelSslCertificatePath),
    record "OTEL_SDK_ENV_OTEL_PROCESSOR_TYPE" (data .otelSpanProcessor),
    record "OTEL_SDK_ENV_OTEL_SAMPLER_TYPE" (data .otelSampler),
    record "OTEL_SDK_ENV_SERVICE_NAMESPACE" (data .serviceNamespace),
    record "OTEL_SDK_ENV_SERVICE_NAME" (data .serviceName),
    record "OTEL_SDK_ENV_SERVICE_INSTANCE_ID" (data .serviceInstanceId),
    record "OTEL_SDK_ENV_MAX_QUEUE_SIZE" qs,
    record "OTEL_SDK_ENV_SCHEDULED_DELAY" sd,
    record "OTEL_SDK_ENV_EXPORT_BATCH_SIZE" es,
    record "OTEL_SDK_ENV_EXPORT_TIMEOUT" et,
    record "OTEL_SDK_ENV_SEGMENT_TYPE" (data .segmentType),
    record "OTEL_SDK_ENV_SEGMENT_PARAMETER" (data .segmentParameter),
    record "OTEL_SDK_ENV_OTEL_PROPAGATOR_TYPE" (cString (conf.propagatorType.getD []))]

/-- The loop of `opentelemetry_core_init` over the contexts. -/
def addContexts (w : Worker) : List Triple → Option (Log × Worker)
  | [] => some ([], w)
  | t :: contexts => do
    let cfg := cTriple t
    let (added, w) ← w.callAgent sdk getSpanName
      (.addWSContextToCore (some (contextName t)) (some ⟨cfg.1, cfg.2.1, cfg.2.2⟩))
    let (log, w) ← addContexts w contexts
    some (added :: log, w)

def coreInitSucceeded : WSAgent.Outcome → Bool
  | .init .success => true
  | _ => false

/-- `ngx_initialize_opentelemetry`. -/
def ngxInitializeOpentelemetry (w : Worker) (r : NgxHttpRequest) (answers : InitAnswers) :
    Option (Bool × Log × Worker) :=
  if w.isInitialized then some (true, [], w)
  else if r.locConf.flag .enabled = some false then some (false, [], w)
  else if ¬r.pool then none
  else do
    let env ← envConfig r.locConf
    let (log, w) ← w.addContexts sdk getSpanName w.contexts
    let (initialised, w) ← w.callAgent sdk getSpanName (.init (some env) answers)
    if coreInitSucceeded initialised.outcome then
      some (true, log ++ [initialised], { w with isInitialized := true })
    else some (false, log ++ [initialised], w)

/-! ### Interactions -/

/-- The handle that the module's context has. -/
def ctxHandle (r : NgxHttpRequest) : Option ℕ := r.ctx.bind NgxHttpOtelHandles.otel_req_handle_key

/-- The handle that a request or an interaction is ended with: once the pool is gone, the
one that is handed over, if one is.  A context does not outlive the pool. -/
def stopHandle (r : NgxHttpRequest) (request_handle_key : Option ℕ) : Option (Option ℕ) :=
  if r.pool then some (ctxHandle r)
  else
    match request_handle_key with
    | some handle => some (some handle)
    | none => if r.ctx.isSome then none else some none

def LOWEST_HTTP_ERROR_CODE : UInt64 := 400

/-- `otel_requestHasErrors`. -/
def otelRequestHasErrors (r : NgxHttpRequest) : Bool :=
  LOWEST_HTTP_ERROR_CODE ≤ r.err_status || LOWEST_HTTP_ERROR_CODE ≤ r.status

/-- `otel_getErrorCode`. -/
def otelGetErrorCode (r : NgxHttpRequest) : UInt32 :=
  if LOWEST_HTTP_ERROR_CODE ≤ r.err_status then r.err_status.toUInt32
  else if LOWEST_HTTP_ERROR_CODE ≤ r.status then r.status.toUInt32
  else 0

def codeText (code : UInt32) : Bytes := ascii (toString code.toInt32.toInt)

/-- `otel_startInteraction`, less the headers that are passed on. -/
def otelStartInteraction (w : Worker) (r : NgxHttpRequest) (module_name : Bytes) :
    Option (Log × Worker) :=
  if r.internal then some ([], w)
  else
    match ctxHandle r with
    | none => some ([], w)
    | some handle =>
      if ¬r.pool then none
      else do
        let (started, w) ← w.callAgent sdk getSpanName
          (.startInteraction (some handle) (some ⟨module_name, []⟩) ∅)
        some ([started], w)

/-- The payload of an interaction's end. -/
def endInteractionPayload (r : NgxHttpRequest) : EndInteractionPayload :=
  if otelRequestHasErrors r then
    ⟨[], ascii "HTTP", Int64.ofNat (otelGetErrorCode r).toNat,
      ascii "HTTP Status Code: " ++ codeText (otelGetErrorCode r)⟩
  else ⟨[], ascii "HTTP", 0, []⟩

/-- `otel_stopInteraction`. -/
def otelStopInteraction (w : Worker) (r : NgxHttpRequest) (request_handle_key : Option ℕ) :
    Option (Log × Worker) :=
  if r.internal then some ([], w)
  else do
    match ← stopHandle r request_handle_key with
    | none => some ([], w)
    | some handle =>
      let (ended, w) ← w.callAgent sdk getSpanName
        (.endInteraction (some handle) false (some (endInteractionPayload r)))
      some ([ended], w)

/-! ### Requests -/

/-- `check_ignore_paths`. -/
def checkIgnorePaths (r : NgxHttpRequest) : Bool :=
  (r.locConf.ignorePaths.getD []).any fun data => matchIgnorePathRegex (cString r.uri) data

/-- The handle of a request that was started. -/
def startedHandle : WSAgent.Outcome → Option ℕ
  | .request _ outcome => if outcome.status = .success then outcome.reqHandle else none
  | _ => none

/-- `startMonitoringRequest`. -/
def startMonitoringRequest (w : Worker) (r : NgxHttpRequest) (answers : InitAnswers) :
    Option (Log × Worker × NgxHttpRequest) :=
  if r.internal then some ([], w, r)
  else do
    let (initialised, log, w) ← w.ngxInitializeOpentelemetry sdk getSpanName r answers
    if ¬initialised then some (log, w, r)
    else if ¬r.pool then none
    else if checkIgnorePaths matchIgnorePathRegex r then some (log, w, r)
    else if (ctxHandle r).isSome then some (log, w, r)
    else do
      let (started, w) ← w.callAgent sdk getSpanName
        (.startRequest (some (computeContextName r.locConf)) (some r.requestPayload) true)
      match startedHandle started.outcome, r.ctx with
      | some reqHandle, none => some (log ++ [started], w, { r with ctx := some ⟨some reqHandle⟩ })
      | _, _ => some (log ++ [started], w, r)

/-- `stopMonitoringRequest`; there is no response payload without the pool.  The context
keeps its handle. -/
def stopMonitoringRequest (w : Worker) (r : NgxHttpRequest) (request_handle_key : Option ℕ) :
    Option (Log × Worker) :=
  if r.locConf.flag .enabled = some false then some ([], w)
  else do
    match ← stopHandle r request_handle_key with
    | none => some ([], w)
    | some handle =>
      if ¬r.pool then none
      else
        let (error, status_code) :=
          if otelRequestHasErrors r then (some (codeText (otelGetErrorCode r)), otelGetErrorCode r)
          else (none, r.status.toUInt32)
        let (ended, w) ← w.callAgent sdk getSpanName
          (.endRequest (some handle) error
            (some { r.responsePayload with statusCode := status_code }))
        some ([ended], w)

end

/-! ### What is passed -/

/-- The key under which a number is passed. -/
def numKey : NumOption → Bytes
  | .otelMaxQueueSize => ascii "OTEL_SDK_ENV_MAX_QUEUE_SIZE"
  | .otelScheduledDelayMillis => ascii "OTEL_SDK_ENV_SCHEDULED_DELAY"
  | .otelExportTimeoutMillis => ascii "OTEL_SDK_ENV_EXPORT_TIMEOUT"
  | .otelMaxExportBatchSize => ascii "OTEL_SDK_ENV_EXPORT_BATCH_SIZE"

open Webserver.ApiUtils (given flagKey)

/-- What a reader finds in the records of a configuration. -/
structure Passed (conf : LocConf) (env : List OtelSdkEnvRecord) : Prop where
  valid : ∀ record ∈ env, record.Valid
  serviceNamespace :
    given env (ascii "OTEL_SDK_ENV_SERVICE_NAMESPACE") = cString (conf.text .serviceNamespace)
  serviceName : given env (ascii "OTEL_SDK_ENV_SERVICE_NAME") = cString (conf.text .serviceName)
  serviceInstanceId :
    given env (ascii "OTEL_SDK_ENV_SERVICE_INSTANCE_ID") = cString (conf.text .serviceInstanceId)
  otelExporterEndpoint : given env (ascii "OTEL_SDK_ENV_OTEL_EXPORTER_ENDPOINT") =
    cString (conf.text .otelExporterEndpoint)
  otelLibraryName : given env (ascii "OTEL_SDK_ENV_OTEL_LIBRARY_NAME") = ascii "Nginx"
  otelSslEnabled : given env flagKey =
    if conf.flag .otelSslEnabled = some true then ascii "1" else ascii "0"
  num : ∀ o, numText ((conf.num o).getD (-1)) = some (given env (numKey o))

theorem passed {conf : LocConf} {env : List OtelSdkEnvRecord} (henv : envConfig conf = some env) :
    Passed conf env := by
  simp only [envConfig, Option.bind_eq_bind, Option.bind_eq_some_iff] at henv
  obtain ⟨qs, hqs, sd, hsd, es, hes, et, het, hrecords⟩ := henv
  cases hrecords
  constructor
  · exact OtelSdkEnvRecord.valid_of_all rfl
  · rfl
  · rfl
  · rfl
  · rfl
  · rfl
  · rfl
  · intro o
    cases o with
    | otelMaxQueueSize => exact hqs
    | otelScheduledDelayMillis => exact hsd
    | otelExportTimeoutMillis => exact het
    | otelMaxExportBatchSize => exact hes

/-- The records can be made when every number fits in its buffer. -/
theorem exists_envConfig {conf : LocConf} (hfit : ∀ o, (numText ((conf.num o).getD (-1))).isSome) :
    ∃ env, envConfig conf = some env := by
  obtain ⟨qs, hqs⟩ := Option.isSome_iff_exists.mp (hfit .otelMaxQueueSize)
  obtain ⟨sd, hsd⟩ := Option.isSome_iff_exists.mp (hfit .otelScheduledDelayMillis)
  obtain ⟨es, hes⟩ := Option.isSome_iff_exists.mp (hfit .otelMaxExportBatchSize)
  obtain ⟨et, het⟩ := Option.isSome_iff_exists.mp (hfit .otelExportTimeoutMillis)
  simp only [envConfig, hqs, hsd, hes, het]
  exact ⟨_, rfl⟩

/-! ### What the functions can do -/

section

variable (sdk : TenantConfig → Sdk) (getSpanName : SpanNamer → Bytes → Bytes)

/-- The call that registers a context. -/
def registerContext (t : Triple) : WSAgent.Call :=
  .addWSContextToCore (some (contextName t))
    (some ⟨(cTriple t).1, (cTriple t).2.1, (cTriple t).2.2⟩)

/-- What `ngx_initialize_opentelemetry` can do: nothing, or register the contexts and call
`init`, which may fail. -/
inductive Initialised (w : Worker) (conf : LocConf) : Bool → Log → Worker → Prop
  | already (hinitialized : w.isInitialized = true) : Initialised w conf true [] w
  | refused (hnot : w.isInitialized = false) : Initialised w conf false [] w
  | attempted {env : List OtelSdkEnvRecord} {log : Log} {a : WSAgent} {answers : InitAnswers}
    {outcome : WSAgent.Outcome} {agent : WSAgent} (hnot : w.isInitialized = false)
    (henv : envConfig conf = some env) (hadded : Run (WSAgent.step sdk getSpanName) w.agent log a)
    (hcontexts : log.map Transition.call = w.contexts.map registerContext)
    (hinit : a.step sdk getSpanName (.init (some env) answers) = some (outcome, agent)) :
    Initialised w conf (coreInitSucceeded outcome)
      (log ++ [⟨a, .init (some env) answers, outcome, agent⟩])
      { w with agent := agent, isInitialized := coreInitSucceeded outcome }

/-- What a function that is given a handle can do: at most one call with it. -/
inductive Served (w : Worker) : Log → Worker → Prop
  | nothing : Served w [] w
  | called {call : WSAgent.Call} {handle : ℕ} {outcome : WSAgent.Outcome} {agent : WSAgent}
    (hhandle : call.handle? = some handle) (hstep : w.agent.step sdk getSpanName call =
      some (outcome, agent)) :
    Served w [⟨w.agent, call, outcome, agent⟩] { w with agent := agent }

/-- What `startMonitoringRequest` can do: initialise the agent, or not, and then start
the request or leave it. -/
inductive Monitored (w : Worker) (r : NgxHttpRequest) : Log → Worker → NgxHttpRequest → Prop
  | internal (hinternal : r.internal = true) : Monitored w r [] w r
  | declined {initialised : Bool} {log : Log} {w' : Worker} (hinternal : r.internal = false)
    (hinitialised : Initialised sdk getSpanName w r.locConf initialised log w') :
    Monitored w r log w' r
  | started {log : Log} {w' : Worker} {outcome : WSAgent.Outcome} {agent : WSAgent}
    (hinternal : r.internal = false) (hpool : r.pool = true) (hnone : ctxHandle r = none)
    (hinitialised : Initialised sdk getSpanName w r.locConf true log w')
    (hstart : w'.agent.step sdk getSpanName
      (.startRequest (some (computeContextName r.locConf)) (some r.requestPayload) true) =
        some (outcome, agent)) :
    Monitored w r
      (log ++ [⟨w'.agent, .startRequest (some (computeContextName r.locConf))
        (some r.requestPayload)
        true, outcome, agent⟩])
      { w' with agent := agent }
      { r with ctx := r.ctx.or ((startedHandle outcome).map fun reqHandle => ⟨some reqHandle⟩) }

variable {sdk getSpanName} {w w' : Worker} {r r' : NgxHttpRequest} {log : Log}

theorem callAgent_spec {call : WSAgent.Call} {t : WSAgent.CallTransition}
    (h : w.callAgent sdk getSpanName call = some (t, w')) :
    ∃ outcome agent, w.agent.step sdk getSpanName call = some (outcome, agent) ∧
      t = ⟨w.agent, call, outcome, agent⟩ ∧ w' = { w with agent := agent } := by
  unfold callAgent at h
  split at h
  next => cases h
  next outcome agent hstep =>
    cases h
    exact ⟨outcome, agent, hstep, rfl, rfl⟩

theorem addContexts_spec {contexts : List Triple}
    (h : w.addContexts sdk getSpanName contexts = some (log, w')) :
    Run (WSAgent.step sdk getSpanName) w.agent log w'.agent ∧
      log.map Transition.call = contexts.map registerContext ∧
        w' = { w with agent := w'.agent } := by
  induction contexts generalizing w log w' with
  | nil =>
    cases h
    exact ⟨.nil, rfl, rfl⟩
  | cons t contexts ih =>
    simp only [addContexts, Option.bind_eq_bind, Option.bind_eq_some_iff] at h
    obtain ⟨⟨added, q⟩, hadded, ⟨log', q'⟩, hrest, hlog⟩ := h
    cases hlog
    obtain ⟨outcome, agent, hstep, rfl, rfl⟩ := callAgent_spec hadded
    obtain ⟨hrun, hcalls, hq'⟩ := ih hrest
    refine ⟨(Run.single hstep).append hrun, ?_, ?_⟩
    · rw [List.map_cons, hcalls]
      rfl
    · rw [hq']

theorem initialised {answers : InitAnswers} {b : Bool}
    (h : w.ngxInitializeOpentelemetry sdk getSpanName r answers = some (b, log, w')) :
    Initialised sdk getSpanName w r.locConf b log w' := by
  unfold ngxInitializeOpentelemetry at h
  split at h
  next hinitialized =>
    cases h
    exact .already hinitialized
  next hnot =>
    have hnot := Bool.eq_false_iff.mpr hnot
    split at h
    next =>
      cases h
      exact .refused hnot
    next =>
      split at h
      next => cases h
      next =>
        simp only [Option.bind_eq_bind, Option.bind_eq_some_iff] at h
        obtain ⟨env, henv, ⟨log', q⟩, hadded, ⟨initialised, q'⟩, hinit, h⟩ := h
        obtain ⟨hrun, hcalls, hq⟩ := addContexts_spec hadded
        obtain ⟨outcome, agent, hstep, rfl, rfl⟩ := callAgent_spec hinit
        have hattempted := Initialised.attempted hnot henv hrun hcalls hstep
        dsimp only at h
        split at h
        next hsucceeded =>
          cases h
          rw [hsucceeded] at hattempted
          rw [hq]
          exact hattempted
        next hfailed =>
          cases h
          rw [Bool.eq_false_iff.mpr hfailed] at hattempted
          rw [hq]
          rw [← hnot] at hattempted ⊢
          exact hattempted

theorem served_callAgent {call : WSAgent.Call} {handle : ℕ} {t : WSAgent.CallTransition}
    (hhandle : call.handle? = some handle) (h : w.callAgent sdk getSpanName call = some (t, w')) :
    Served sdk getSpanName w [t] w' := by
  obtain ⟨outcome, agent, hstep, rfl, rfl⟩ := callAgent_spec h
  exact .called hhandle hstep

theorem otelStartInteraction_served {module_name : Bytes}
    (h : w.otelStartInteraction sdk getSpanName r module_name = some (log, w')) :
    Served sdk getSpanName w log w' := by
  unfold otelStartInteraction at h
  split at h
  next =>
    cases h
    exact .nothing
  next =>
    split at h
    next =>
      cases h
      exact .nothing
    next handle _ =>
      split at h
      next => cases h
      next =>
        simp only [Option.bind_eq_bind, Option.bind_eq_some_iff] at h
        obtain ⟨⟨started, q⟩, hstarted, h⟩ := h
        cases h
        exact served_callAgent rfl hstarted

theorem otelStopInteraction_served {key : Option ℕ}
    (h : w.otelStopInteraction sdk getSpanName r key = some (log, w')) :
    Served sdk getSpanName w log w' := by
  unfold otelStopInteraction at h
  split at h
  next =>
    cases h
    exact .nothing
  next =>
    simp only [Option.bind_eq_bind, Option.bind_eq_some_iff] at h
    obtain ⟨key', -, h⟩ := h
    split at h
    next =>
      cases h
      exact .nothing
    next handle =>
      obtain ⟨⟨ended, q⟩, hended, h⟩ := Option.bind_eq_some_iff.mp h
      cases h
      exact served_callAgent rfl hended

theorem stopMonitoringRequest_served {key : Option ℕ}
    (h : w.stopMonitoringRequest sdk getSpanName r key = some (log, w')) :
    Served sdk getSpanName w log w' := by
  unfold stopMonitoringRequest at h
  split at h
  next =>
    cases h
    exact .nothing
  next =>
    simp only [Option.bind_eq_bind, Option.bind_eq_some_iff] at h
    obtain ⟨key', -, h⟩ := h
    split at h
    next =>
      cases h
      exact .nothing
    next handle =>
      split at h
      next => cases h
      next =>
        obtain ⟨⟨ended, q⟩, hended, h⟩ := Option.bind_eq_some_iff.mp h
        cases h
        exact served_callAgent rfl hended

theorem monitored {matchIgnorePathRegex : Bytes → Bytes → Bool} {answers : InitAnswers}
    (h : w.startMonitoringRequest sdk getSpanName matchIgnorePathRegex r answers =
      some (log, w', r')) :
    Monitored sdk getSpanName w r log w' r' := by
  unfold startMonitoringRequest at h
  split at h
  next hinternal =>
    cases h
    exact .internal hinternal
  next hinternal =>
    have hinternal := Bool.eq_false_iff.mpr hinternal
    simp only [Option.bind_eq_bind, Option.bind_eq_some_iff] at h
    obtain ⟨⟨b, log', q⟩, hinit, h⟩ := h
    have hinit := initialised hinit
    dsimp only at h
    split at h
    next =>
      cases h
      exact .declined hinternal hinit
    next hb =>
      obtain rfl : b = true := by simpa using hb
      split at h
      next => cases h
      next hpool =>
        have hpool : r.pool = true := by simpa using hpool
        split at h
        next =>
          cases h
          exact .declined hinternal hinit
        next =>
          split at h
          next =>
            cases h
            exact .declined hinternal hinit
          next hctx =>
            have hnone : ctxHandle r = none := by simpa using hctx
            obtain ⟨⟨started, q'⟩, hstarted, h⟩ := Option.bind_eq_some_iff.mp h
            obtain ⟨outcome, agent, hstep, rfl, rfl⟩ := callAgent_spec hstarted
            have hmonitored := Monitored.started hinternal hpool hnone hinit hstep
            dsimp only at h
            split at h
            next reqHandle hhandle hnoctx =>
              cases h
              rw [hhandle, hnoctx] at hmonitored
              exact hmonitored
            next hneither =>
              cases h
              have hsame :
                  r.ctx.or ((startedHandle outcome).map fun reqHandle => ⟨some reqHandle⟩) =
                    r.ctx := by
                cases hctx : r.ctx with
                | some ctx => rfl
                | none =>
                  cases hhandle : startedHandle outcome with
                  | none => rfl
                  | some reqHandle => exact absurd hctx (hneither reqHandle hhandle)
              rw [hsame] at hmonitored
              exact hmonitored

/-- The result says whether the worker is initialised. -/
theorem Initialised.isInitialized {conf : LocConf} {b : Bool}
    (h : Initialised sdk getSpanName w conf b log w') : w'.isInitialized = b := by
  cases h with
  | already hinitialized => exact hinitialized
  | refused hnot => exact hnot
  | attempted => rfl

/-! ### The agent's part -/

theorem Initialised.run {conf : LocConf} {b : Bool}
    (h : Initialised sdk getSpanName w conf b log w') :
    Run (WSAgent.step sdk getSpanName) w.agent log w'.agent := by
  cases h with
  | already | refused => exact .nil
  | attempted hnot henv hadded hcontexts hinit => exact hadded.snoc hinit

theorem Served.run (h : Served sdk getSpanName w log w') :
    Run (WSAgent.step sdk getSpanName) w.agent log w'.agent := by
  cases h with
  | nothing => exact .nil
  | called hhandle hstep => exact .single hstep

theorem Monitored.run (h : Monitored sdk getSpanName w r log w' r') :
    Run (WSAgent.step sdk getSpanName) w.agent log w'.agent := by
  cases h with
  | internal => exact .nil
  | declined hinternal hinitialised => exact hinitialised.run
  | started hinternal hpool hnone hinitialised hstart => exact hinitialised.run.snoc hstart

end

end Worker

end NginxWebserver
