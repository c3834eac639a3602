/-
The handlers that take the places of those of other modules (`ngx_http_otel_*_handler`),
and a main request that goes through them.

The handler that a wrapper calls is code of nginx: it does something to the request, calls
wrappers again when it has redirected it, and returns.  So a wrapper is split where it
calls its handler, and a request is processed in events.

* `nginxOrder` — what nginx does in which order;
* `kept` — what the wrapped handlers leave of a request for the wrappers to end what they
  began.
-/
import OtelContrib.NginxWebserver.Monitoring
import OtelContrib.NginxWebserver.PhaseHandlers

open Webserver (WSAgent InitAnswers TenantConfig SpanNamer Sdk IScopedSpan RequestPayload
  ResponsePayload)

namespace NginxWebserver

/-! ### Wrappers -/

/-- A wrapper before and after it calls its handler, whose result it returns.  What comes
after is given `internal` and the context as they were when the wrapper was called. -/
structure Wrapper where
  before : Worker → NgxHttpRequest → InitAnswers → Option (Log × Worker × NgxHttpRequest)
  after : Bool → Option NgxHttpOtelHandles → Worker → NgxHttpRequest →
    Option (Log × Worker × NgxHttpRequest)

section

variable (sdk : TenantConfig → Sdk) (getSpanName : SpanNamer → Bytes → Bytes)
  (matchIgnorePathRegex : Bytes → Bytes → Bool)

def startOf (module_name : Bytes) (w : Worker) (r : NgxHttpRequest) :
    Option (Log × Worker × NgxHttpRequest) :=
  (w.otelStartInteraction sdk getSpanName r module_name).map fun q => (q.1, q.2, r)

def stopOf (request_handle_key : Option ℕ) (w : Worker) (r : NgxHttpRequest) :
    Option (Log × Worker × NgxHttpRequest) :=
  (w.otelStopInteraction sdk getSpanName r request_handle_key).map fun q => (q.1, q.2, r)

/-- An interaction around the handler. -/
def interactionHandler (module_name : Bytes) : Wrapper where
  before w r _ := startOf sdk getSpanName module_name w r
  after _ _ w r := stopOf sdk getSpanName none w r

def ngxHttpOtelLimitConnHandler :=
  interactionHandler sdk getSpanName (ascii "ngx_http_limit_conn_module")

def ngxHttpOtelLimitReqHandler :=
  interactionHandler sdk getSpanName (ascii "ngx_http_limit_req_module")

def ngxHttpOtelRealipHandler := interactionHandler sdk getSpanName (ascii "ngx_http_realip_module")

def ngxHttpOtelAuthRequestHandler :=
  interactionHandler sdk getSpanName (ascii "ngx_http_auth_request_module")

def ngxHttpOtelAuthBasicHandler :=
  interactionHandler sdk getSpanName (ascii "ngx_http_auth_basic_module")

def ngxHttpOtelAccessHandler := interactionHandler sdk getSpanName (ascii "ngx_http_access_module")

def ngxHttpOtelStaticHandler := interactionHandler sdk getSpanName (ascii "ngx_http_static_module")

def ngxHttpOtelGzipStaticHandler :=
  interactionHandler sdk getSpanName (ascii "ngx_http_gzip_static_module")

def ngxHttpOtelDavHandler := interactionHandler sdk getSpanName (ascii "ngx_http_dav_module")

def ngxHttpOtelAutoindexHandler :=
  interactionHandler sdk getSpanName (ascii "ngx_http_autoindex_module")

def ngxHttpOtelMirrorHandler :=
  interactionHandler sdk getSpanName (ascii "ngx_http_otel_mirror_handler")

/-- The wrapper that comes first: it starts the request too. -/
def ngxHttpOtelRewriteHandler : Wrapper where
  before w r answers :=
    if r.internal then startOf sdk getSpanName (ascii "ngx_http_rewrite_module") w r
    else
      match w.startMonitoringRequest sdk getSpanName matchIgnorePathRegex r answers with
      | none => none
      | some (log, w, r) =>
        (startOf sdk getSpanName (ascii "ngx_http_rewrite_module") w r).map fun q =>
          (log ++ q.1, q.2)
  after _ _ w r := stopOf sdk getSpanName none w r

/-- An interaction around a handler that may redirect: then the context is restored, and
`internal` is set back while the interaction is stopped. -/
def redirectingHandler (module_name : Bytes) : Wrapper where
  before w r _ := startOf sdk getSpanName module_name w r
  after old_internal old_ctx w r :=
    if r.internal ∧ ¬old_internal then
      (stopOf sdk getSpanName none w { r with ctx := old_ctx, internal := false }).map fun q =>
        (q.1, q.2.1, { q.2.2 with internal := true })
    else stopOf sdk getSpanName none w r

def ngxHttpOtelIndexHandler := redirectingHandler sdk getSpanName (ascii "ngx_http_index_module")

def ngxHttpOtelRandomIndexHandler :=
  redirectingHandler sdk getSpanName (ascii "ngx_http_random_index_module")

/-- The end of the interaction of `try_files`. -/
def stopTryFiles (old_internal : Bool) (request_handle : Option ℕ) (w : Worker)
    (r : NgxHttpRequest) :
    Option (Log × Worker × NgxHttpRequest) :=
  if r.internal ∧ ¬old_internal then
    (stopOf sdk getSpanName request_handle w { r with internal := false }).map fun q =>
      (q.1, q.2.1, { q.2.2 with internal := true })
  else stopOf sdk getSpanName none w r

/-- The wrapper that keeps the handle: the context is not restored after a redirect, and
the request is ended too when its pool is gone. -/
def ngxHttpOtelTryFilesHandler : Wrapper where
  before w r _ := startOf sdk getSpanName (ascii "ngx_http_otel_try_files_handler") w r
  after old_internal old_ctx w r :=
    let request_handle := old_ctx.bind NgxHttpOtelHandles.otel_req_handle_key
    match stopTryFiles sdk getSpanName old_internal request_handle w r with
    | none => none
    | some (log, w, r) =>
      if r.pool then some (log, w, r)
      else (w.stopMonitoringRequest sdk getSpanName r request_handle).map fun q =>
        (log ++ q.1, q.2, r)

/-- The wrapper that comes last. -/
def ngxHttpOtelLogHandler : Wrapper where
  before w r _ := (w.stopMonitoringRequest sdk getSpanName r none).map fun q => (q.1, q.2, r)
  after _ _ w r := some ([], w, r)

/-- The handlers in `otel_monitored_modules`. -/
def NgxHttpIndex.handler : NgxHttpIndex → Wrapper
  | realip => ngxHttpOtelRealipHandler sdk getSpanName
  | rewrite => ngxHttpOtelRewriteHandler sdk getSpanName matchIgnorePathRegex
  | limitConn => ngxHttpOtelLimitConnHandler sdk getSpanName
  | limitReq => ngxHttpOtelLimitReqHandler sdk getSpanName
  | limitAuthReq => ngxHttpOtelAuthRequestHandler sdk getSpanName
  | authBasic => ngxHttpOtelAuthBasicHandler sdk getSpanName
  | access => ngxHttpOtelAccessHandler sdk getSpanName
  | static => ngxHttpOtelStaticHandler sdk getSpanName
  | gzipStatic => ngxHttpOtelGzipStaticHandler sdk getSpanName
  | dav => ngxHttpOtelDavHandler sdk getSpanName
  | autoIndex => ngxHttpOtelAutoindexHandler sdk getSpanName
  | index => ngxHttpOtelIndexHandler sdk getSpanName
  | randomIndex => ngxHttpOtelRandomIndexHandler sdk getSpanName
  | log => ngxHttpOtelLogHandler sdk getSpanName
  | tryFiles => ngxHttpOtelTryFilesHandler sdk getSpanName
  | mirror => ngxHttpOtelMirrorHandler sdk getSpanName

/-! ### Processing a request -/

/-- A wrapper that waits for its handler: what it had when it was called, and the calls
of the agent that it has made. -/
structure Frame where
  module : NgxHttpIndex
  old_internal : Bool
  old_ctx : Option NgxHttpOtelHandles
  started : Log

/-- A main request in its worker, the wrappers that wait, the latest one first, and
whether its log phase was entered. -/
structure Processing where
  worker : Worker
  r : NgxHttpRequest
  frames : List Frame
  logged : Bool

/-- What nginx and its handlers do to a request. -/
inductive Effect
  | internalRedirect (uri : Bytes) (locConf : LocConf)
  | poolGone
  | other (uri : Bytes) (locConf : LocConf) (err_status status : UInt64)
    (requestPayload : RequestPayload)
    (responsePayload : ResponsePayload)

def Effect.apply (r : NgxHttpRequest) : Effect → NgxHttpRequest
  | .internalRedirect uri locConf =>
    { r with internal := true, ctx := none, uri := uri, locConf := locConf }
  | .poolGone => { r with pool := false }
  | .other uri locConf err_status status requestPayload responsePayload =>
    { r with
      uri := uri, locConf := locConf, err_status := err_status, status := status
      requestPayload := requestPayload, responsePayload := responsePayload }

/-- A wrapper is called, up to its handler; something happens to the request; the handler
of the latest wrapper returns. -/
inductive Event
  | enter (i : NgxHttpIndex) (answers : InitAnswers)
  | effect (e : Effect)
  | leave

namespace Processing

def step (s : Processing) : Event → Option (Log × Processing)
  | .enter i answers =>
    ((i.handler sdk getSpanName matchIgnorePathRegex).before s.worker s.r answers).map fun q =>
      (q.1, ⟨q.2.1, q.2.2, ⟨i, s.r.internal, s.r.ctx, q.1⟩ :: s.frames, s.logged || i = .log⟩)
  | .effect e => some ([], { s with r := e.apply s.r })
  | .leave =>
    match s.frames with
    | [] => none
    | f :: frames =>
      ((f.module.handler sdk getSpanName matchIgnorePathRegex).after f.old_internal f.old_ctx
        s.worker s.r).map
        fun q => (q.1, ⟨q.2.1, q.2.2, frames, s.logged⟩)

end Processing

end

/-! ### The calls that are made -/

/-- The interaction on top of a request's stack. -/
def topInteraction (a : WSAgent) (handle : ℕ) : Option (ℕ × IScopedSpan) :=
  (a.requests.requests handle).bind fun ctx => ctx.interactions.head?.map fun span => (handle, span)

/-- The interactions that calls have put on stacks. -/
def startedInteractions (log : Log) : List (ℕ × IScopedSpan) :=
  log.filterMap fun c =>
    match c.call with
    | .startInteraction (some handle) _ _ => topInteraction c.after handle
    | _ => none

/-- The interactions that calls have taken off. -/
def endedInteractions (log : Log) : List (ℕ × IScopedSpan) :=
  log.filterMap fun c =>
    match c.call with
    | .endInteraction (some handle) _ _ => topInteraction c.before handle
    | _ => none

/-- The requests that were started. -/
def requestStarts (log : Log) : List ℕ :=
  log.filterMap fun c =>
    match c.call with
    | .startRequest _ _ _ => Worker.startedHandle c.outcome
    | _ => none

/-- The requests that were ended. -/
def requestEnds (log : Log) : List ℕ :=
  log.filterMap fun c =>
    match c.call with
    | .endRequest (some handle) _ _ => some handle
    | _ => none

/-- The interactions that were open when their request was ended. -/
def leftOpen (log : Log) : List IScopedSpan :=
  log.flatMap fun c =>
    match c.call with
    | .endRequest (some handle) _ _ =>
      ((c.before.requests.requests handle).map fun ctx => ctx.interactions).getD []
    | _ => []

/-! ### The order, and the condition -/

namespace Processing

/-- Wrappers are called inside of others only when the request was redirected, or for its
end; then comes the log phase, and after it the pool goes. -/
def nginxOrder (s : Processing) : Event → Bool
  | .enter i _ => s.r.pool && !s.logged && (s.frames.isEmpty || s.r.internal || i = .log)
  | .effect (.internalRedirect _ _) => !s.logged
  | .effect .poolGone => s.logged
  | .effect (.other ..) => true
  | .leave => !s.frames.isEmpty

/-- The one wrapper that waits restores the context after a redirect. -/
def restores : List Frame → Bool
  | [f] => (f.module = .index || f.module = .randomIndex) && !f.old_internal
  | _ => false

/-- The location is enabled. -/
def enabled (s : Processing) : Bool := s.r.locConf.flag .enabled != some false

/-- A request with a handle is redirected only by the handler of `index` or `random_index`
that has not come from a redirect; it comes to its end when no interaction is open, in an
enabled location; and `try_files` does not find its pool gone. -/
def kept (s : Processing) : Event → Bool
  | .effect (.internalRedirect _ _) =>
    (Worker.ctxHandle s.r).isNone || restores s.frames
  | .enter .log _ =>
    (s.frames.all fun f => (startedInteractions f.started).isEmpty) &&
      ((Worker.ctxHandle s.r).isNone || s.enabled)
  | .leave =>
    match s.frames with
    | f :: _ =>
      f.module ≠ .tryFiles || s.r.pool ||
        (f.old_ctx.bind NgxHttpOtelHandles.otel_req_handle_key).isNone ||
        !s.enabled
    | [] => true
  | _ => true

end Processing

end NginxWebserver
