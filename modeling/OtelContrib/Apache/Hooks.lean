/-
The hooks of the Apache module (`ApacheHooks.cpp`), one process of the server.

Every hook is given with the calls of the agent that it makes, in order.  A hook is
undefined where one of these calls is.  Where the server has a request's record, a
number stands for it.

* `hooked` — what a hook can do;
* `agentRun` — what a run of hooks does to the agent is a run of the agent.
-/
import OtelContrib.Apache.Config
import OtelContrib.Webserver.AgentRequests

open Webserver (WSAgent RequestPayload TenantConfig SpanNamer Sdk OtelSdkEnvRecord InitAnswers)

namespace Apache

/-- What a hook reads of a `request_rec`: whether `ap_is_initial_req` holds, the sections
of the configuration that apply, outermost first, the status, and what
`fillRequestPayload` makes of it. -/
structure RequestRec where
  address : ℕ
  isInitialReq : Bool
  sections : List ℕ
  status : ℤ
  payload : RequestPayload

/-- A process of the server: the configuration, the configuration that was stored in the
process pool when the agent was initialised, the agent, and the handles in the notes of
the requests. -/
structure Process where
  config : ConfigHandlers
  processConfig : Option OtelCfg
  agent : WSAgent
  notes : ℕ → Option ℕ

/-- The calls of the agent that a hook made. -/
abbrev Log := List WSAgent.CallTransition

namespace Process

def new (dirspec : ℕ → Bytes) : Process := ⟨.new dirspec, none, .new, fun _ => none⟩

section

variable (sdk : TenantConfig → Sdk) (getSpanName : SpanNamer → Bytes → Bytes)

/-- One call of the agent. -/
def callAgent (p : Process) (call : WSAgent.Call) : Option (WSAgent.CallTransition × Process) :=
  match p.agent.step sdk getSpanName call with
  | none => none
  | some (outcome, agent) => some (⟨p.agent, call, outcome, agent⟩, { p with agent := agent })

/-! ### Initialisation -/

/-- The records that `initialize_opentelemetry` passes. -/
def envConfig (cfg : OtelCfg) : List OtelSdkEnvRecord :=
  let record := fun name value => (⟨some (ascii name), some value⟩ : OtelSdkEnvRecord)
  [record "OTEL_SDK_ENV_OTEL_EXPORTER_TYPE" cfg.otelExporterType.value,
    record "OTEL_SDK_ENV_OTEL_EXPORTER_ENDPOINT" cfg.otelExporterEndpoint.value,
    record "OTEL_SDK_ENV_OTEL_SSL_ENABLED"
      (if cfg.otelSslEnabled.value = 1 then ascii "1" else ascii "0"),
    record "OTEL_SDK_ENV_OTEL_SSL_CERTIFICATE_PATH" cfg.otelSslCertificatePath.value,
    record "OTEL_SDK_ENV_OTEL_LIBRARY_NAME" (ascii "Apache"),
    record "OTEL_SDK_ENV_OTEL_PROCESSOR_TYPE" cfg.otelProcessorType.value,
    record "OTEL_SDK_ENV_OTEL_SAMPLER_TYPE" cfg.otelSamplerType.value,
    record "OTEL_SDK_ENV_SERVICE_NAMESPACE" cfg.serviceNamespace.value,
    record "OTEL_SDK_ENV_SERVICE_NAME" cfg.serviceName.value,
    record "OTEL_SDK_ENV_SERVICE_INSTANCE_ID" cfg.serviceInstanceId.value,
    record "OTEL_SDK_ENV_MAX_QUEUE_SIZE" cfg.otelMaxQueueSize.value,
    record "OTEL_SDK_ENV_SCHEDULED_DELAY" cfg.otelScheduledDelay.value,
    record "OTEL_SDK_ENV_EXPORT_BATCH_SIZE" cfg.otelMaxExportBatchSize.value,
    record "OTEL_SDK_ENV_EXPORT_TIMEOUT" cfg.otelExportTimeout.value,
    record "OTEL_SDK_ENV_SEGMENT_TYPE" cfg.segmentType.value,
    record "OTEL_SDK_ENV_SEGMENT_PARAMETER" cfg.segmentParameter.value,
    record "OTEL_SDK_ENV_OTEL_EXPORTER_OTLPHEADERS" cfg.otelExporterOtlpHeaders.value]

/-- The loop over the contexts.  Their names differ, so that the order of the unordered
map shows nowhere but in the order of the agent's own map. -/
def addContexts (p : Process) : List (Bytes × Triple) → Option (Log × Process)
  | [] => some ([], p)
  | (name, t) :: contexts => do
    let (added, p) ← p.callAgent sdk getSpanName
      (.addWSContextToCore (some name) (some ⟨t.1, t.2.1, t.2.2⟩))
    let (log, p) ← addContexts p contexts
    some (added :: log, p)

def initSucceeded : WSAgent.Outcome → Bool
  | .init .success => true
  | _ => false

/-- `initialize_opentelemetry`. -/
def initializeOpentelemetry (p : Process) (r : RequestRec) (answers : InitAnswers) :
    Option (Bool × Log × Process) :=
  match p.processConfig with
  | some _ => some (true, [], p)
  | none =>
    match p.config.getConfig r.sections with
    | none => some (false, [], p)
    | some cfg =>
      if cfg.otelEnabled.value = 1 then do
        let (log, p) ← p.addContexts sdk getSpanName p.config.m_webServerContexts
        let (initialised, p) ← p.callAgent sdk getSpanName (.init (some (envConfig cfg)) answers)
        if initSucceeded initialised.outcome then
          some (true, log ++ [initialised], { p with processConfig := some cfg })
        else some (false, log ++ [initialised], p)
      else some (false, [], p)

/-! ### Requests and interactions -/

/-- The name that the begin hook hands over, null when there is none. -/
def wscontext (p : Process) (r : RequestRec) : Option Bytes :=
  match p.config.getConfig r.sections with
  | none => none
  | some cfg =>
    let tmpContextName := computeContextName cfg
    if tmpContextName = [] then none else some tmpContextName

/-- The handle that a call of `startRequest` stored, if it succeeded. -/
def startedHandle : WSAgent.Outcome → Option ℕ
  | .request _ outcome => if outcome.status = .success then outcome.reqHandle else none
  | _ => none

/-- `otel_hook_header_parser_begin`. -/
def headerParserBegin (p : Process) (r : RequestRec) (answers : InitAnswers) :
    Option (Log × Process) :=
  if ¬r.isInitialReq then some ([], p)
  else do
    let (initialised, log, p) ← p.initializeOpentelemetry sdk getSpanName r answers
    if ¬initialised then some (log, p)
    else do
      let (started, p) ← p.callAgent sdk getSpanName
        (.startRequest (p.wscontext r) (some r.payload) true)
      match startedHandle started.outcome with
      | some reqHandle =>
        some (log ++ [started],
          { p with notes := Function.update p.notes r.address (some reqHandle) })
      | none => some (log ++ [started], p)

def LOWEST_HTTP_ERROR_CODE : ℤ := 400

def requestHasErrors (r : RequestRec) : Bool := LOWEST_HTTP_ERROR_CODE ≤ r.status

/-- A status as it is written to a stream. -/
def statusText (status : ℤ) : Bytes := ascii (toString status)

/-- `otel_stopInteraction`. -/
def stopInteraction (p : Process) (r : RequestRec) (isAlwaysRunStage ignoreBackend : Bool) :
    Option (Log × Process) :=
  if (¬isAlwaysRunStage ∧ ¬p.config.m_reportAllStages) ∨ ¬r.isInitialReq then some ([], p)
  else
    match p.notes r.address with
    | none => some ([], p)
    | some reqHandle => do
      let errorMsg :=
        if requestHasErrors r then ascii "HTTP ERROR CODE:" ++ statusText r.status else []
      let (ended, p) ← p.callAgent sdk getSpanName (.endInteraction (some reqHandle) ignoreBackend
        (some ⟨[], ascii "HTTP", Int64.ofInt r.status, errorMsg⟩))
      some ([ended], p)

/-- `otel_startInteraction` for an endpoint of a module in a stage. -/
def startInteraction (p : Process) (r : RequestRec) (module stage : Bytes)
    (isAlwaysRunStage ignoreBackend : Bool) : Option (Log × Process) :=
  if (¬isAlwaysRunStage ∧ ¬p.config.m_reportAllStages) ∨ ¬r.isInitialReq then some ([], p)
  else
    match p.notes r.address with
    | none => some ([], p)
    | some reqHandle => do
      let (log, p) ← p.stopInteraction sdk getSpanName r isAlwaysRunStage ignoreBackend
      let (started, p) ← p.callAgent sdk getSpanName
        (.startInteraction (some reqHandle) (some ⟨module, stage⟩) ∅)
      some (log ++ [started], p)

/-- `otel_hook_log_transaction_end`. -/
def logTransactionEnd (p : Process) (r : RequestRec) : Option (Log × Process) :=
  if ¬r.isInitialReq then some ([], p)
  else
    match p.processConfig with
    | none => some ([], p)
    | some cfg =>
      if cfg.otelEnabled.value = 0 then some ([], p)
      else do
        let (log, p) ← p.stopInteraction sdk getSpanName r false false
        match p.notes r.address with
        | none => some (log, p)
        | some reqHandle =>
          let p := { p with notes := Function.update p.notes r.address none }
          let error := if requestHasErrors r then some (statusText r.status) else none
          let (ended, p) ← p.callAgent sdk getSpanName
            (.endRequest (some reqHandle) error (some ⟨∅, ∅, UInt32.ofInt r.status⟩))
          some (log ++ [ended], p)

end

end Process

/-! ### The hooks -/

/-- A directive that is read, or a hook that is called.  The hooks that begin an
interaction differ in the endpoint and the two flags, and so do those that end one:
`otel_hook_interaction_end`, its `_quick_handler` and its `_insert_filter` have
neither flag, its `_handler` has both and its `_log_transaction` the first. -/
inductive Hook
  | command (k : ℕ) (d : Directive)
  | headerParserBegin (r : RequestRec) (answers : InitAnswers)
  | interactionBegin (r : RequestRec) (module stage : Bytes) (isAlwaysRunStage ignoreBackend : Bool)
  | interactionEnd (r : RequestRec) (isAlwaysRunStage ignoreBackend : Bool)
  | logTransactionEnd (r : RequestRec)

section

variable (sdk : TenantConfig → Sdk) (getSpanName : SpanNamer → Bytes → Bytes)

def Process.step (p : Process) : Hook → Option (Log × Process)
  | .command k d => some ([], { p with config := p.config.command k d })
  | .headerParserBegin r answers => p.headerParserBegin sdk getSpanName r answers
  | .interactionBegin r module stage isAlwaysRunStage ignoreBackend =>
    p.startInteraction sdk getSpanName r module stage isAlwaysRunStage ignoreBackend
  | .interactionEnd r isAlwaysRunStage ignoreBackend =>
    p.stopInteraction sdk getSpanName r isAlwaysRunStage ignoreBackend
  | .logTransactionEnd r => p.logTransactionEnd sdk getSpanName r

end

abbrev HookTransition := Transition Process Hook Log

/-- All calls of the agent in a run of hooks. -/
def agentLog (ts : List HookTransition) : Log := ts.flatMap Transition.outcome

/-! ### What a hook can do -/

section

variable (sdk : TenantConfig → Sdk) (getSpanName : SpanNamer → Bytes → Bytes)

/-- What `initialize_opentelemetry` can do: nothing, or register the contexts and call
`init`, which may fail. -/
inductive Initialised (p : Process) (r : RequestRec) : Bool → Log → Process → Prop
  | already {cfg : OtelCfg} (hstored : p.processConfig = some cfg) : Initialised p r true [] p
  | refused (hnone : p.processConfig = none) : Initialised p r false [] p
  | attempted {cfg : OtelCfg} {log : Log} {a : WSAgent} (answers : InitAnswers)
    {outcome : WSAgent.Outcome} {agent : WSAgent} (hnone : p.processConfig = none)
    (hcfg : p.config.getConfig r.sections = some cfg) (henabled : cfg.otelEnabled.value = 1)
    (hadded : Run (WSAgent.step sdk getSpanName) p.agent log a)
    (hcontexts : log.map Transition.call = p.config.m_webServerContexts.map fun e =>
      .addWSContextToCore (some e.1) (some ⟨e.2.1, e.2.2.1, e.2.2.2⟩))
    (hinit : a.step sdk getSpanName (.init (some (Process.envConfig cfg)) answers) =
      some (outcome, agent)) :
    Initialised p r (Process.initSucceeded outcome)
      (log ++ [⟨a, .init (some (Process.envConfig cfg)) answers, outcome, agent⟩])
      { p with
        agent := agent
        processConfig := if Process.initSucceeded outcome then some cfg else none }

/-- What `otel_stopInteraction` can do with a handle from the notes. -/
inductive Stopped (a : WSAgent) : Option ℕ → Bool → Log → WSAgent → Prop
  | nothing (reqHandle : Option ℕ) (ignoreBackend : Bool) : Stopped a reqHandle ignoreBackend [] a
  | ended {reqHandle : ℕ} {ignoreBackend : Bool} {payload : Webserver.EndInteractionPayload}
    {outcome : WSAgent.Outcome} {agent : WSAgent}
    (hend : a.step sdk getSpanName
      (.endInteraction (some reqHandle) ignoreBackend (some payload)) = some (outcome, agent)) :
    Stopped a (some reqHandle) ignoreBackend
      [⟨a, .endInteraction (some reqHandle) ignoreBackend (some payload), outcome, agent⟩] agent

/-- What a hook that is defined can do. -/
inductive Hooked (p : Process) : Hook → Log → Process → Prop
  | command (k : ℕ) (d : Directive) :
    Hooked p (.command k d) [] { p with config := p.config.command k d }
  | quiet {hook : Hook} (hcommand : ∀ k d, hook ≠ .command k d)
    (hquiet : ∀ r cfg, hook = .logTransactionEnd r → r.isInitialReq → p.processConfig = some cfg →
      cfg.otelEnabled.value ≠ 0 → p.notes r.address = none) : Hooked p hook [] p
  | declined {r : RequestRec} {answers : InitAnswers} {log : Log} {p' : Process}
    (hinitialised : Initialised sdk getSpanName p r false log p') :
    Hooked p (.headerParserBegin r answers) log p'
  | begun {r : RequestRec} {answers : InitAnswers} {log : Log} {p' : Process} {wscontext : Bytes}
    {outcome : WSAgent.Outcome} {agent : WSAgent}
    (hinitialised : Initialised sdk getSpanName p r true log p')
    (hwscontext : p'.wscontext r = some wscontext)
    (hstart : p'.agent.step sdk getSpanName (.startRequest (some wscontext) (some r.payload) true) =
      some (outcome, agent)) :
    Hooked p (.headerParserBegin r answers)
      (log ++ [⟨p'.agent, .startRequest (some wscontext) (some r.payload) true, outcome, agent⟩])
      { p' with
        agent := agent
        notes := (Process.startedHandle outcome).elim p'.notes fun reqHandle =>
          Function.update p'.notes r.address (some reqHandle) }
  | ended {r : RequestRec} {isAlwaysRunStage ignoreBackend : Bool} {log : Log} {agent : WSAgent}
    (hstopped : Stopped sdk getSpanName p.agent (p.notes r.address) ignoreBackend log agent) :
    Hooked p (.interactionEnd r isAlwaysRunStage ignoreBackend) log { p with agent := agent }
  | started {r : RequestRec} {module stage : Bytes} {isAlwaysRunStage ignoreBackend : Bool}
    {reqHandle : ℕ} {payload : Webserver.EndInteractionPayload} {outcome outcome' : WSAgent.Outcome}
    {a agent : WSAgent} (hnotes : p.notes r.address = some reqHandle)
    (hend : p.agent.step sdk getSpanName
      (.endInteraction (some reqHandle) ignoreBackend (some payload)) = some (outcome, a))
    (hstart : a.step sdk getSpanName (.startInteraction (some reqHandle) (some ⟨module, stage⟩) ∅) =
      some (outcome', agent)) :
    Hooked p (.interactionBegin r module stage isAlwaysRunStage ignoreBackend)
      [⟨p.agent, .endInteraction (some reqHandle) ignoreBackend (some payload), outcome, a⟩,
        ⟨a, .startInteraction (some reqHandle) (some ⟨module, stage⟩) ∅, outcome', agent⟩]
      { p with agent := agent }
  | logged {r : RequestRec} {log : Log} {reqHandle : ℕ} {a : WSAgent} {error : Option Bytes}
    {payload : Webserver.ResponsePayload} {outcome : WSAgent.Outcome} {agent : WSAgent}
    (hnotes : p.notes r.address = some reqHandle)
    (hstopped : Stopped sdk getSpanName p.agent (some reqHandle) false log a)
    (hend : a.step sdk getSpanName (.endRequest (some reqHandle) error (some payload)) =
      some (outcome, agent)) :
    Hooked p (.logTransactionEnd r)
      (log ++ [⟨a, .endRequest (some reqHandle) error (some payload), outcome, agent⟩])
      { p with agent := agent, notes := Function.update p.notes r.address none }

variable {sdk getSpanName} {p p' : Process}

theorem callAgent_spec {call : WSAgent.Call} {t : WSAgent.CallTransition}
    (h : p.callAgent sdk getSpanName call = some (t, p')) :
    ∃ outcome agent, p.agent.step sdk getSpanName call = some (outcome, agent) ∧
      t = ⟨p.agent, call, outcome, agent⟩ ∧ p' = { p with agent := agent } := by
  unfold Process.callAgent at h
  split at h
  next => cases h
  next outcome agent hstep =>
    cases h
    exact ⟨outcome, agent, hstep, rfl, rfl⟩

theorem addContexts_spec {contexts : List (Bytes × Triple)} {log : Log}
    (h : p.addContexts sdk getSpanName contexts = some (log, p')) :
    Run (WSAgent.step sdk getSpanName) p.agent log p'.agent ∧
      log.map Transition.call = (contexts.map fun e =>
        .addWSContextToCore (some e.1) (some ⟨e.2.1, e.2.2.1, e.2.2.2⟩)) ∧
      p' = { p with agent := p'.agent } := by
  induction contexts generalizing p log p' with
  | nil =>
    cases h
    exact ⟨.nil, rfl, rfl⟩
  | cons e contexts ih =>
    simp only [Process.addContexts, Option.bind_eq_bind, Option.bind_eq_some_iff] at h
    obtain ⟨⟨added, q⟩, hadded, ⟨log', q'⟩, hrest, hlog⟩ := h
    cases hlog
    obtain ⟨outcome, agent, hstep, rfl, rfl⟩ := callAgent_spec hadded
    obtain ⟨hrun, hcalls, hq'⟩ := ih hrest
    refine ⟨(Run.single hstep).append hrun, ?_, ?_⟩
    · rw [List.map_cons, hcalls]
      rfl
    · rw [hq']

theorem initialised {r : RequestRec} {answers : InitAnswers} {b : Bool} {log : Log}
    (h : p.initializeOpentelemetry sdk getSpanName r answers = some (b, log, p')) :
    Initialised sdk getSpanName p r b log p' := by
  unfold Process.initializeOpentelemetry at h
  split at h
  next cfg hstored =>
    cases h
    exact .already hstored
  next hnone =>
    split at h
    next =>
      cases h
      exact .refused hnone
    next cfg hcfg =>
      split at h
      next henabled =>
        simp only [Option.bind_eq_bind, Option.bind_eq_some_iff] at h
        obtain ⟨⟨log', q⟩, hadded, ⟨initialised, q'⟩, hinit, h⟩ := h
        obtain ⟨hrun, hcalls, hq⟩ := addContexts_spec hadded
        obtain ⟨outcome, agent, hstep, rfl, rfl⟩ := callAgent_spec hinit
        have hattempted := Initialised.attempted answers hnone hcfg henabled hrun hcalls hstep
        rw [hq] at h
        dsimp only at h
        cases hsucceeded : Process.initSucceeded outcome with
        | true =>
          rw [hsucceeded] at h hattempted
          cases h
          exact hattempted
        | false =>
          rw [hsucceeded] at h hattempted
          cases h
          rwa [← hnone] at hattempted
      next =>
        cases h
        exact .refused hnone

/-- Past its guard, `otel_stopInteraction` makes one call if the notes have a handle. -/
theorem stopInteraction_spec {r : RequestRec} {isAlwaysRunStage ignoreBackend : Bool} {log : Log}
    (h : p.stopInteraction sdk getSpanName r isAlwaysRunStage ignoreBackend = some (log, p')) :
    p' = { p with agent := p'.agent } ∧
      Stopped sdk getSpanName p.agent (p.notes r.address) ignoreBackend log p'.agent ∧
      (log = [] → p.notes r.address = none ∨
        (¬isAlwaysRunStage ∧ ¬p.config.m_reportAllStages) ∨ ¬r.isInitialReq) := by
  unfold Process.stopInteraction at h
  split at h
  next hguard =>
    cases h
    exact ⟨rfl, .nothing _ _, fun _ => .inr hguard⟩
  next =>
    split at h
    next hnone =>
      cases h
      exact ⟨rfl, .nothing _ _, fun _ => .inl hnone⟩
    next reqHandle hnotes =>
      simp only [Option.bind_eq_bind, Option.bind_eq_some_iff] at h
      obtain ⟨⟨ended, q⟩, hended, h⟩ := h
      obtain ⟨outcome, agent, hstep, rfl, rfl⟩ := callAgent_spec hended
      cases h
      rw [hnotes]
      exact ⟨rfl, .ended hstep, by rintro ⟨⟩⟩

theorem hooked {hook : Hook} {log : Log} (h : p.step sdk getSpanName hook = some (log, p')) :
    Hooked sdk getSpanName p hook log p' := by
  cases hook with
  | command k d =>
    cases h
    exact .command k d
  | headerParserBegin r answers =>
    simp only [Process.step] at h
    unfold Process.headerParserBegin at h
    split at h
    next =>
      cases h
      exact .quiet (fun _ _ => Hook.noConfusion) fun _ _ => Hook.noConfusion
    next =>
      simp only [Option.bind_eq_bind, Option.bind_eq_some_iff] at h
      obtain ⟨⟨b, log', q⟩, hinitialised, h⟩ := h
      cases b with
      | false =>
        cases h
        exact .declined (initialised hinitialised)
      | true =>
        simp only [not_true_eq_false, if_false, Option.bind_eq_some_iff] at h
        obtain ⟨⟨started, q'⟩, hstarted, h⟩ := h
        obtain ⟨outcome, agent, hstep, rfl, rfl⟩ := callAgent_spec hstarted
        -- a null context name is undefined
        rcases hname : q.wscontext r with _ | wscontext
        · rw [hname] at hstep
          cases hstep
        rw [hname] at hstep h
        have hbegun : Hooked sdk getSpanName p (.headerParserBegin r answers) _ _ :=
          .begun (initialised hinitialised) hname hstep
        dsimp only at h
        split at h
        next reqHandle hhandle =>
          cases h
          rwa [hhandle] at hbegun
        next hhandle =>
          cases h
          rwa [hhandle] at hbegun
  | interactionBegin r module stage isAlwaysRunStage ignoreBackend =>
    simp only [Process.step] at h
    unfold Process.startInteraction at h
    split at h
    next =>
      cases h
      exact .quiet (fun _ _ => Hook.noConfusion) fun _ _ => Hook.noConfusion
    next hguard =>
      split at h
      next =>
        cases h
        exact .quiet (fun _ _ => Hook.noConfusion) fun _ _ => Hook.noConfusion
      next reqHandle hnotes =>
        simp only [Option.bind_eq_bind, Option.bind_eq_some_iff] at h
        obtain ⟨⟨stopped, q⟩, hstopped, ⟨started, q'⟩, hstarted, h⟩ := h
        rw [not_or] at hguard
        -- the guards of the two are the same, so the open interaction is stopped
        obtain ⟨hq, hstopped, hquiet⟩ := stopInteraction_spec hstopped
        obtain ⟨outcome', agent', hstart, rfl, rfl⟩ := callAgent_spec hstarted
        rw [hnotes] at hstopped
        generalize q.agent = a at hq hstopped hstart h
        cases h
        rw [hq]
        cases hstopped with
        | nothing =>
          rcases hquiet rfl with hnone | hstop
          · exact absurd (hnone.symm.trans hnotes) (Option.some_ne_none _).symm
          · exact absurd hstop (not_or.mpr hguard)
        | ended hend => exact .started hnotes hend hstart
  | interactionEnd r isAlwaysRunStage ignoreBackend =>
    obtain ⟨hp', hstopped, -⟩ := stopInteraction_spec h
    rw [hp']
    exact .ended hstopped
  | logTransactionEnd r =>
    simp only [Process.step] at h
    unfold Process.logTransactionEnd at h
    split at h
    next hinitial =>
      cases h
      refine .quiet (fun _ _ => Hook.noConfusion) ?_
      rintro _ _ ⟨⟩ hyes
      exact absurd hyes hinitial
    next =>
      split at h
      next hnone =>
        cases h
        refine .quiet (fun _ _ => Hook.noConfusion) ?_
        rintro _ _ ⟨⟩ - hsome
        exact absurd (hnone.symm.trans hsome) (Option.some_ne_none _).symm
      next cfg hcfg =>
        split at h
        next hdisabled =>
          cases h
          refine .quiet (fun _ _ => Hook.noConfusion) ?_
          rintro _ _ ⟨⟩ - hsome henabled
          obtain rfl := Option.some.inj (hcfg.symm.trans hsome)
          exact absurd hdisabled henabled
        next =>
          simp only [Option.bind_eq_bind, Option.bind_eq_some_iff] at h
          obtain ⟨⟨stopped, q⟩, hstopped, h⟩ := h
          obtain ⟨hq, hstopped, -⟩ := stopInteraction_spec hstopped
          rw [hq] at h
          generalize q.agent = a at hstopped h
          split at h
          next hnone =>
            cases h
            rw [hnone] at hstopped
            cases hstopped
            refine .quiet (fun _ _ => Hook.noConfusion) ?_
            rintro _ _ ⟨⟩ - - -
            exact hnone
          next reqHandle hnotes =>
            simp only [Option.bind_eq_some_iff] at h
            obtain ⟨⟨ended, q'⟩, hended, h⟩ := h
            obtain ⟨outcome, agent, hstep, rfl, rfl⟩ := callAgent_spec hended
            cases h
            rw [hnotes] at hstopped
            exact .logged hnotes hstopped hstep

theorem Stopped.agentRun {a agent : WSAgent} {reqHandle : Option ℕ} {ignoreBackend : Bool}
    {log : Log}
    (h : Stopped sdk getSpanName a reqHandle ignoreBackend log agent) :
    Run (WSAgent.step sdk getSpanName) a log agent := by
  cases h with
  | nothing => exact .nil
  | ended hend => exact .single hend

/-- The calls of a hook are a run of the agent. -/
theorem Hooked.agentRun {hook : Hook} {log : Log} (h : Hooked sdk getSpanName p hook log p') :
    Run (WSAgent.step sdk getSpanName) p.agent log p'.agent := by
  have hinitialised : ∀ {r b log p'}, Initialised sdk getSpanName p r b log p' →
      Run (WSAgent.step sdk getSpanName) p.agent log p'.agent := by
    intro r b log p' h
    cases h with
    | already | refused => exact .nil
    | attempted _ _ _ _ hadded _ hinit => exact hadded.snoc hinit
  cases h with
  | command | quiet => exact .nil
  | declined hdeclined => exact hinitialised hdeclined
  | begun hbegun _ hstart => exact (hinitialised hbegun).snoc hstart
  | ended hended => exact hended.agentRun
  | started _ hend hstart => exact (Run.single hend).snoc hstart
  | logged _ hstopped hend => exact hstopped.agentRun.snoc hend

theorem agentLog_snoc (ts : List HookTransition) (t : HookTransition) :
    agentLog (ts ++ [t]) = agentLog ts ++ t.outcome := by
  rw [agentLog, agentLog, List.flatMap_append, List.flatMap_singleton]

/-- What a run of hooks does to the agent is a run of the agent. -/
theorem agentRun {dirspec : ℕ → Bytes} {ts : List HookTransition}
    (hrun : Run (Process.step sdk getSpanName) (.new dirspec) ts p) :
    Run (WSAgent.step sdk getSpanName) .new (agentLog ts) p.agent := by
  refine hrun.invariant (fun ts p => Run (WSAgent.step sdk getSpanName) .new (agentLog ts) p.agent)
    .nil ?_
  intro ts p hook log p' I hstep
  rw [agentLog_snoc]
  exact I.append (hooked hstep).agentRun

end

end Apache
