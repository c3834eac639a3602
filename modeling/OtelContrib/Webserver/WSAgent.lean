/-
The agent of the webserver module and its registry of contexts (`WSAgent.cpp`,
`AgentCore.cpp`), after `initDependency`.

Every context has an engine of its own, which is known here by a number.  The engines
of a thread work on the same spans and the same request contexts; how an engine calls
the SDK follows from its context's configuration (`sdk`), and how it names spans from
its span namer (`getSpanName`).
-/
import OtelContrib.Webserver.ApiUtils
import Mathlib.Data.List.Perm.Basic

namespace Webserver

/-! ### The registry of contexts -/

def COREINIT_CONTEXT : Bytes := ascii "OTEL_COREINIT_CONTEXT"

/-- `WebServerContext` with the engine of its kernel. -/
structure WebServerContext where
  mTenantConfig : TenantConfig
  spanNamer : SpanNamer
  engine : ℕ

structure AgentCore where
  mSpanNamer : SpanNamer
  mWebServerContexts : Bytes → Option WebServerContext
  /-- The engines made so far. -/
  enginesMade : ℕ

namespace AgentCore

/-- `createContext`, and `initContext` of what it created. -/
def createContext (c : AgentCore) (contextName : Bytes) (config : TenantConfig) : AgentCore :=
  { c with
    mWebServerContexts := Function.update c.mWebServerContexts contextName
      (some ⟨config, c.mSpanNamer, c.enginesMade⟩)
    enginesMade := c.enginesMade + 1 }

/-- `getWebServerContext`, with the name that was looked up. -/
def getWebServerContext (c : AgentCore) (name : Bytes) : Bytes × Option WebServerContext :=
  let name := if name.length = 0 then COREINIT_CONTEXT else name
  (name, c.mWebServerContexts name)

def addContext (c : AgentCore) (contextName : Bytes) (config : TenantConfig) : AgentCore :=
  match (c.getWebServerContext COREINIT_CONTEXT).2 with
  | some initialConfig => c.createContext contextName
      (config.copyAllExceptNamespaceNameId initialConfig.mTenantConfig)
  | none => c

/-- `start`; `logger` says whether there is one. -/
def start (c : AgentCore) (logger : Bool) (initConfig : TenantConfig) (spanNamer : SpanNamer)
    (userAddedTenant : List (Bytes × TenantConfig)) : Bool × AgentCore :=
  if logger then
    let c := { c with mSpanNamer := spanNamer }.createContext COREINIT_CONTEXT initConfig
    (true, userAddedTenant.foldl (fun c tenant => c.addContext tenant.1 tenant.2) c)
  else (false, c)

/-- `getRequestProcessor`: the name that was looked up, and the context the engine is of. -/
def getRequestProcessor (c : AgentCore) (name : Bytes) : Bytes × Option WebServerContext :=
  c.getWebServerContext name

end AgentCore

/-! ### The agent -/

structure WSContextConfig where
  serviceNamespace : Bytes
  serviceName : Bytes
  serviceInstanceId : Bytes
  deriving DecidableEq

/-- The agent, and the requests of its thread.  `initPid` is `0` before `init` succeeded. -/
structure WSAgent where
  initPid : ℕ
  mUserAddedTenant : List (Bytes × TenantConfig)
  mAgentCore : AgentCore
  requests : RequestProcessingEngine

/-- What the system answers in a call of `init`: the process id, what `init_boilerplate`
gives, whether `start` finds a logger, the order in which the unordered map of the
user's tenants is gone through, and what is in the memory of the local variables that the
settings are read into, and of the number of the new configuration that nothing writes. -/
structure InitAnswers where
  getpid : ℕ
  init_boilerplate : OtelSdkStatusCode
  logger : Bool
  iteration : List (Bytes × TenantConfig)
  locals : ApiUtils.Locals
  otelExportTimeoutMillis : UInt32

namespace WSAgent

def new : WSAgent := ⟨0, [], ⟨.new, fun _ => none, 0⟩, .init⟩

def isInitialised (a : WSAgent) : Prop := a.initPid ≠ 0

instance (a : WSAgent) : Decidable a.isInitialised := inferInstanceAs (Decidable (a.initPid ≠ 0))

def checkPID (a : WSAgent) (getpid : ℕ) : OtelSdkStatusCode :=
  if a.initPid = 0 then .uninitialized
  else if a.initPid ≠ getpid then .wrong_process_id
  else .success

def validateAndInitialise (a : WSAgent) (getpid : ℕ) : OtelSdkStatusCode :=
  match a.checkPID getpid with
  | .uninitialized => .success
  | .success => .already_initialized
  | res => res

/-- `readConfig` into the objects that `init` makes. -/
def readConfig (env : Option (List OtelSdkEnvRecord)) (answers : InitAnswers) :
    OtelSdkStatusCode × ApiUtils.Caller :=
  ApiUtils.readFromPassedSettings env answers.locals
    ⟨{ TenantConfig.new with otelExportTimeoutMillis := some answers.otelExportTimeoutMillis },
      .new⟩

def init (a : WSAgent) (env : Option (List OtelSdkEnvRecord)) (answers : InitAnswers) :
    OtelSdkStatusCode × WSAgent :=
  let res := a.validateAndInitialise answers.getpid
  if res ≠ .success then (res, a)
  else if answers.init_boilerplate ≠ .success then (answers.init_boilerplate, a)
  else
    let (res, caller) := readConfig env answers
    if res ≠ .success then (res, a)
    else
      let (started, mAgentCore) := a.mAgentCore.start answers.logger caller.tenantConfig
        caller.spanNamer answers.iteration
      if started then
        (.success, { a with mAgentCore := mAgentCore, initPid := answers.getpid })
      else (.agent_failed_to_start, { a with mAgentCore := mAgentCore })

/-- The tenant that `addWSContextToCore` makes of a configuration. -/
def tenantOf (contextConfig : WSContextConfig) : TenantConfig :=
  { TenantConfig.new with
    serviceNamespace := contextConfig.serviceNamespace
    serviceName := contextConfig.serviceName
    serviceInstanceId := contextConfig.serviceInstanceId }

/-- `addWSContextToCore` with a name that is not null.  Where a context exists already, all
that a different configuration leads to is a warning. -/
def addWSContextToCore (a : WSAgent) (contextName : Bytes)
    (contextConfig : Option WSContextConfig) :
    ℤ × WSAgent :=
  if contextName = [] ∨ contextName = COREINIT_CONTEXT then (-1, a)
  else
    match contextConfig with
    | none => (-1, a)
    | some contextConfig =>
      if contextConfig.serviceNamespace = [] then (-1, a)
      else if contextConfig.serviceName = [] then (-1, a)
      else if contextConfig.serviceInstanceId = [] then (-1, a)
      else
        let tenant := tenantOf contextConfig
        if a.isInitialised then
          match (a.mAgentCore.getWebServerContext contextName).2 with
          | some _ => (0, a)
          | none => (0, { a with mAgentCore := a.mAgentCore.addContext contextName tenant })
        else if contextName ∈ a.mUserAddedTenant.map Prod.fst then (0, a)
        else (0, { a with mUserAddedTenant := a.mUserAddedTenant ++ [(contextName, tenant)] })

/-! ### Calls -/

inductive Call
  | init (env : Option (List OtelSdkEnvRecord)) (answers : InitAnswers)
  | addWSContextToCore (wscontext : Option Bytes) (contextConfig : Option WSContextConfig)
  | startRequest (wscontext : Option Bytes) (payload : Option RequestPayload) (reqHandle : Bool)
  | startInteraction (reqHandle : Option ℕ) (payload : Option InteractionPayload)
    (propagationHeaders : Carrier)
  | endInteraction (reqHandle : Option ℕ) (ignoreBackend : Bool)
    (payload : Option EndInteractionPayload)
  | endRequest (reqHandle : Option ℕ) (error : Option Bytes) (payload : Option ResponsePayload)

/-- What a call returns; for a request, with the engine that served it, if one was found. -/
inductive Outcome
  | init (res : OtelSdkStatusCode)
  | added (ret : ℤ)
  | request (engine : Option ℕ) (outcome : Webserver.Outcome)

section

variable (sdk : TenantConfig → Sdk) (getSpanName : SpanNamer → Bytes → Bytes)

/-- A call on the engine of a context, or the failure when there is none. -/
def serve (a : WSAgent) (context : Option WebServerContext) (call : RequestProcessingEngine.Call) :
    Option (Outcome × WSAgent) :=
  match context with
  | none => some (.request none (.failed .fail), a)
  | some context =>
    match a.requests.step (sdk context.mTenantConfig) (getSpanName context.spanNamer) call with
    | none => none
    | some (outcome, requests) =>
      some (.request (some context.engine) outcome, { a with requests := requests })

/-- A call with a handle: the context is found under the name that the request keeps. -/
def serveHandle (a : WSAgent) (reqHandle : Option ℕ) (call : RequestProcessingEngine.Call) :
    Option (Outcome × WSAgent) :=
  match reqHandle.bind a.requests.requests with
  | none => none
  | some ctx => a.serve sdk getSpanName (a.mAgentCore.getRequestProcessor ctx.contextName).2 call

/-- One call.  A null context name, a handle that is null or not live, and an iteration
that is none of the map are undefined. -/
def step (a : WSAgent) : Call → Option (Outcome × WSAgent)
  | .init env answers =>
    if answers.getpid ≠ 0 ∧ answers.iteration.Perm a.mUserAddedTenant then
      some (.init (a.init env answers).1, (a.init env answers).2)
    else none
  | .addWSContextToCore none _ => none
  | .addWSContextToCore (some contextName) contextConfig =>
    some (.added (a.addWSContextToCore contextName contextConfig).1,
      (a.addWSContextToCore contextName contextConfig).2)
  | .startRequest none _ _ => none
  | .startRequest (some wscontext) payload reqHandle =>
    let (context, engine) := a.mAgentCore.getRequestProcessor wscontext
    a.serve sdk getSpanName engine (.startRequest context payload reqHandle)
  | .startInteraction reqHandle payload propagationHeaders =>
    a.serveHandle sdk getSpanName reqHandle (.startInteraction reqHandle payload propagationHeaders)
  | .endInteraction reqHandle ignoreBackend payload =>
    a.serveHandle sdk getSpanName reqHandle (.endInteraction reqHandle ignoreBackend payload)
  | .endRequest reqHandle error payload =>
    a.serveHandle sdk getSpanName reqHandle (.endRequest reqHandle error payload)

end

end WSAgent

end Webserver
