/-
The contexts that the requests of nginx are routed to.

A request names its context by what its location was merged to, and the contexts were
stored when the configuration was loaded, behind those of earlier configurations of the
same master.  `Contexts.Registered` is the invariant of a worker's runs that says what has
been registered.

* `tenant_routing_iff` — loading stays inside the array exactly when there is room for
  all contexts to store; and a request is routed to its own triple exactly when the
  first context of its name that the agent accepts has that triple.
-/
import OtelContrib.NginxWebserver.Monitoring

open Otel.Common (cString)
open Webserver (WSAgent InitAnswers TenantConfig SpanNamer Sdk OtelSdkEnvRecord WebServerContext)
open Webserver.WSAgent (registrations registrations_eq registrations_append registeredTenant
  accepted)

namespace NginxWebserver

open Worker

/-- The settings have the triple of the configuration they come from. -/
theorem settings_triple {conf : LocConf} {env : List OtelSdkEnvRecord}
    (henv : envConfig conf = some env)
    {answers : InitAnswers} {settings : TenantConfig} {spanNamer : SpanNamer}
    (h : WSAgent.readConfig (some env) answers = (.success, ⟨settings, spanNamer⟩)) :
    settings.triple = cTriple conf.triple := by
  obtain ⟨records, hrecords, -, -, rfl⟩ := WSAgent.readConfig_success h
  cases hrecords
  have P := passed henv
  exact Prod.ext P.serviceNamespace (Prod.ext P.serviceName P.serviceInstanceId)

/-! ### The contexts of a name -/

/-- A context as it is registered. -/
def contextConfigOf (t : Triple) : Webserver.WSContextConfig :=
  ⟨(cTriple t).1, (cTriple t).2.1, (cTriple t).2.2⟩

/-- What one attempt to initialise the agent registers under a name. -/
def registeredUnder (stored : List Triple) (name : Bytes) :
    List (Option Webserver.WSContextConfig) :=
  (stored.filter fun t => contextName t = name).map fun t => some (contextConfigOf t)

/-- The first context of a name that the agent accepts; a context with an empty part it
does not. -/
def firstAccepted (stored : List Triple) (name : Bytes) : Option Triple :=
  stored.find? fun t =>
    contextName t = name ∧ cString t.1 ≠ [] ∧ cString t.2.1 ≠ [] ∧ cString t.2.2 ≠ []

/-- The triple that the agent has for a name when a location initialised it.  The empty
and the reserved name are those of the location's own context. -/
def routedTriple (stored : List Triple) (initial : LocConf) (name : Bytes) : Option Triple :=
  if name = [] ∨ name = Webserver.COREINIT_CONTEXT then some (cTriple initial.triple)
  else (firstAccepted stored name).map cTriple

theorem accepted_contextConfigOf (t : Triple) :
    accepted (some (contextConfigOf t)) =
      if cString t.1 ≠ [] ∧ cString t.2.1 ≠ [] ∧ cString t.2.2 ≠ [] then some (contextConfigOf t)
      else none := by
  rw [accepted]
  by_cases h : cString t.1 ≠ [] ∧ cString t.2.1 ≠ [] ∧ cString t.2.2 ≠ []
  · rw [if_pos h]
    exact if_neg (not_or.mpr ⟨h.1, not_or.mpr h.2⟩)
  · rw [if_neg h]
    refine if_pos ?_
    by_contra hnone
    exact h ⟨(not_or.mp hnone).1, not_or.mp (not_or.mp hnone).2⟩

theorem findSome?_registeredUnder (stored : List Triple) (name : Bytes) :
    (registeredUnder stored name).findSome? accepted =
      (firstAccepted stored name).map contextConfigOf := by
  induction stored with
  | nil => rfl
  | cons t stored ih =>
    rw [registeredUnder, firstAccepted] at *
    rw [List.filter_cons, List.find?_cons]
    by_cases hname : contextName t = name
    · rw [if_pos (decide_eq_true hname), List.map_cons, List.findSome?_cons,
        accepted_contextConfigOf]
      by_cases hparts : cString t.1 ≠ [] ∧ cString t.2.1 ≠ [] ∧ cString t.2.2 ≠ []
      · rw [if_pos hparts, decide_eq_true (And.intro hname hparts)]
        rfl
      · rw [if_neg hparts, decide_eq_false fun h : _ ∧ _ => hparts h.2]
        exact ih
    · rw [if_neg (by simpa using hname), decide_eq_false fun h : _ ∧ _ => hname h.1]
      exact ih

/-- Registering the same contexts again does not change which one is the first. -/
theorem findSome?_attempts {k : ℕ} (hk : k ≠ 0) {α β : Type} (f : α → Option β) (l : List α) :
    (List.replicate k l).flatten.findSome? f = l.findSome? f := by
  obtain ⟨k, rfl⟩ := Nat.exists_eq_succ_of_ne_zero hk
  clear hk
  induction k with
  | zero => rw [List.replicate_one, List.flatten_singleton]
  | succ k ih =>
    rw [List.replicate_succ, List.flatten_cons, List.findSome?_append, ih]
    cases l.findSome? f with
    | none => rfl
    | some b => rfl

/-! ### Runs of a worker -/

/-- A function of the module that is called for a request. -/
inductive Hook
  | startMonitoringRequest (r : NgxHttpRequest) (answers : InitAnswers)
  | otelStartInteraction (r : NgxHttpRequest) (module_name : Bytes)
  | otelStopInteraction (r : NgxHttpRequest) (request_handle_key : Option ℕ)
  | stopMonitoringRequest (r : NgxHttpRequest) (request_handle_key : Option ℕ)

section

variable (sdk : TenantConfig → Sdk) (getSpanName : SpanNamer → Bytes → Bytes)
  (matchIgnorePathRegex : Bytes → Bytes → Bool)

def Worker.step (w : Worker) : Hook → Option (Log × Worker)
  | .startMonitoringRequest r answers =>
    (w.startMonitoringRequest sdk getSpanName matchIgnorePathRegex r answers).map fun result =>
      (result.1, result.2.1)
  | .otelStartInteraction r module_name => w.otelStartInteraction sdk getSpanName r module_name
  | .otelStopInteraction r request_handle_key =>
    w.otelStopInteraction sdk getSpanName r request_handle_key
  | .stopMonitoringRequest r request_handle_key =>
    w.stopMonitoringRequest sdk getSpanName r request_handle_key

end

abbrev HookTransition := Transition Worker Hook Log

/-- All calls of the agent in a run. -/
def agentLog (ts : List HookTransition) : Log := ts.flatMap Transition.outcome

/-- The location of the request that initialised the worker. -/
def initialisedBy (ts : List HookTransition) : Option LocConf :=
  ts.findSome? fun t =>
    match t.call with
    | .startMonitoringRequest r _ => if t.after.isInitialized then some r.locConf else none
    | _ => none

/-- What has been registered, and who initialised the worker. -/
structure Contexts.Registered (stored : List Triple) (initial : Option LocConf) (log : Log)
    (w : Worker) :
    Prop where
  contexts : w.contexts = stored
  attempts : ∃ k, (w.isInitialized = true → k ≠ 0) ∧
    ∀ name, registrations name log = (List.replicate k (registeredUnder stored name)).flatten
  initialised : w.isInitialized = true → ∃ conf env answers, initial = some conf ∧
    envConfig conf = some env ∧ ∃ t ∈ log, t.call = .init (some env) answers ∧
      t.outcome = .init .success
  uninitialised : w.isInitialized = false → initial = none

section

variable {sdk : TenantConfig → Sdk} {getSpanName : SpanNamer → Bytes → Bytes}
  {matchIgnorePathRegex : Bytes → Bytes → Bool} {stored : List Triple} {initial : Option LocConf}
  {log log' : Log} {w w' : Worker}

theorem registrations_of_handle {t : WSAgent.CallTransition} {handle : ℕ}
    (ht : t.call.handle? = some handle) (name : Bytes) : registrations name [t] = [] := by
  obtain ⟨before, call, outcome, after⟩ := t
  cases call with
  | addWSContextToCore wscontext contextConfig => cases ht
  | _ => rfl

/-- A call that registers nothing. -/
theorem Contexts.Registered.frame (I : Contexts.Registered stored initial log w)
    (hnone : ∀ name, registrations name log' = []) (hcontexts : w'.contexts = w.contexts)
    (hinitialized : w'.isInitialized = w.isInitialized) :
    Contexts.Registered stored initial (log ++ log') w' := by
  obtain ⟨k, hk, hattempts⟩ := I.attempts
  constructor
  · exact hcontexts.trans I.contexts
  · refine ⟨k, hinitialized ▸ hk, fun name => ?_⟩
    rw [registrations_append, hnone, List.append_nil, hattempts]
  · intro h
    obtain ⟨conf, env, answers, hconf, henv, t, ht, hinit⟩ := I.initialised (hinitialized ▸ h)
    exact ⟨conf, env, answers, hconf, henv, t, List.mem_append_left _ ht, hinit⟩
  · exact fun h => I.uninitialised (hinitialized ▸ h)

theorem Contexts.Registered.served (I : Contexts.Registered stored initial log w)
    (h : Served sdk getSpanName w log' w') :
    Contexts.Registered stored initial (log ++ log') w' := by
  cases h with
  | nothing => exact I.frame (fun _ => rfl) rfl rfl
  | called hhandle hstep => exact I.frame (registrations_of_handle hhandle) rfl rfl

theorem coreInitSucceeded_iff {outcome : WSAgent.Outcome} :
    coreInitSucceeded outcome = true ↔ outcome = .init .success := by
  unfold coreInitSucceeded
  split
  next => simp
  next hne => simpa using hne

/-- What registering some contexts registers under a name. -/
theorem registrations_of_contexts {contexts : List Triple}
    (h : log.map Transition.call = contexts.map registerContext) (name : Bytes) :
    registrations name log = registeredUnder contexts name := by
  rw [registrations_eq, h, registeredUnder, List.filterMap_map]
  clear h
  induction contexts with
  | nil => rfl
  | cons t contexts ih =>
    rw [List.filterMap_cons, List.filter_cons]
    by_cases hname : contextName t = name
    · subst hname
      rw [if_pos (decide_eq_true rfl), List.map_cons, ← ih]
      simp [registerContext, contextConfigOf]
    · rw [if_neg (by simpa using hname), ← ih]
      simp [registerContext, hname]

/-- Initialising registers all contexts once more. -/
theorem Contexts.Registered.attempt (I : Contexts.Registered stored initial log w) {conf : LocConf}
    {b : Bool} (h : Initialised sdk getSpanName w conf b log' w') :
    Contexts.Registered stored (initial.or (if w'.isInitialized then some conf else none))
      (log ++ log')
      w' := by
  cases h with
  | already hinitialized =>
    obtain ⟨conf', -, -, hconf', -⟩ := I.initialised hinitialized
    rw [hconf', Option.some_or, ← hconf']
    exact I.frame (fun _ => rfl) rfl rfl
  | refused hnot =>
    rw [if_neg (by rw [hnot]; exact Bool.false_ne_true), Option.or_none]
    exact I.frame (fun _ => rfl) rfl rfl
  | @attempted env added a answers outcome agent hnot henv hadded hcontexts hinit =>
    obtain ⟨k, -, hattempts⟩ := I.attempts
    rw [I.uninitialised hnot, Option.none_or]
    constructor
    · exact I.contexts
    · refine ⟨k + 1, fun _ => Nat.succ_ne_zero k, fun name => ?_⟩
      rw [registrations_append, registrations_append, hattempts,
        registrations_of_contexts hcontexts, I.contexts, List.replicate_succ', List.flatten_append,
        List.flatten_singleton]
      exact congrArg _ (List.append_nil _)
    · intro hinitialized
      refine ⟨conf, env, answers, if_pos hinitialized, henv, _,
        List.mem_append_right _ (List.mem_append_right _ List.mem_cons_self), rfl, ?_⟩
      exact coreInitSucceeded_iff.mp hinitialized
    · intro hnot'
      exact if_neg (by rw [hnot']; exact Bool.false_ne_true)

/-- The step lemma. -/
theorem Contexts.Registered.snoc {ts : List HookTransition} {hook : Hook}
    (I : Contexts.Registered stored (initialisedBy ts) (agentLog ts) w)
    (h : w.step sdk getSpanName matchIgnorePathRegex hook = some (log, w')) :
    Contexts.Registered stored (initialisedBy (ts ++ [⟨w, hook, log, w'⟩]))
      (agentLog (ts ++ [⟨w, hook, log, w'⟩])) w' := by
  rw [agentLog, List.flatMap_append, List.flatMap_singleton, initialisedBy, List.findSome?_append,
    List.findSome?_singleton]
  cases hook with
  | startMonitoringRequest r answers =>
    obtain ⟨⟨log', q, r'⟩, hmonitor, hresult⟩ := Option.map_eq_some_iff.mp h
    cases hresult
    cases monitored hmonitor with
    | internal hinternal =>
      have hquiet : ∃ b, Initialised sdk getSpanName w r.locConf b [] w := by
        cases hinitialized : w.isInitialized with
        | true => exact ⟨true, .already hinitialized⟩
        | false => exact ⟨false, .refused hinitialized⟩
      obtain ⟨b, hquiet⟩ := hquiet
      exact I.attempt hquiet
    | declined hinternal hinit => exact I.attempt hinit
    | started hinternal hpool hnone hinit hstart =>
      rw [← List.append_assoc]
      exact (I.attempt hinit).frame (fun _ => rfl) rfl rfl
  | otelStartInteraction r module_name =>
    rw [Option.or_none]
    exact I.served (otelStartInteraction_served h)
  | otelStopInteraction r key =>
    rw [Option.or_none]
    exact I.served (otelStopInteraction_served h)
  | stopMonitoringRequest r key =>
    rw [Option.or_none]
    exact I.served (stopMonitoringRequest_served h)

theorem contexts_registered {ts : List HookTransition} (contexts : List Triple)
    (hrun : Run (Worker.step sdk getSpanName matchIgnorePathRegex) (.new contexts) ts w) :
    Contexts.Registered contexts (initialisedBy ts) (agentLog ts) w := by
  refine hrun.invariant (fun ts w => Contexts.Registered contexts (initialisedBy ts)
    (agentLog ts) w) ?_
    fun ts w hook log w' I hstep => I.snoc hstep
  constructor
  · rfl
  · exact ⟨0, fun h => absurd h Bool.false_ne_true, fun _ => rfl⟩
  · exact fun h => absurd h Bool.false_ne_true
  · exact fun _ => rfl

/-- All calls of a worker's agent make a run of it. -/
theorem agentRun {ts : List HookTransition} {contexts : List Triple}
    (hrun : Run (Worker.step sdk getSpanName matchIgnorePathRegex) (.new contexts) ts w) :
    Run (WSAgent.step sdk getSpanName) .new (agentLog ts) w.agent := by
  refine hrun.invariant (fun ts w => Run (WSAgent.step sdk getSpanName) .new (agentLog ts)
    w.agent) .nil
    fun ts w hook log w' I hstep => ?_
  rw [agentLog, List.flatMap_append, List.flatMap_singleton]
  refine I.append ?_
  cases hook with
  | startMonitoringRequest r answers =>
    obtain ⟨⟨log', q, r'⟩, hmonitor, hresult⟩ := Option.map_eq_some_iff.mp hstep
    cases hresult
    exact (monitored hmonitor).run
  | otelStartInteraction r module_name => exact (otelStartInteraction_served hstep).run
  | otelStopInteraction r key => exact (otelStopInteraction_served hstep).run
  | stopMonitoringRequest r key => exact (stopMonitoringRequest_served hstep).run

/-! ### Routing -/

/-- The name that a request is started with names a context with the triple of the
request's own configuration. -/
def Resolves (w : Worker) (conf : LocConf) : Prop :=
  ∃ ws, (w.agent.mAgentCore.getRequestProcessor (computeContextName conf)).2 = some ws ∧
    ws.mTenantConfig.triple = conf.triple

/-- What a name resolves to once a worker is initialised. -/
theorem getRequestProcessor_triple {conf : LocConf}
    (I : Contexts.Registered stored (some conf) log w)
    (hinitialized : w.isInitialized = true)
    (hrun : Run (WSAgent.step sdk getSpanName) .new log w.agent)
    (name : Bytes) :
    ((w.agent.mAgentCore.getRequestProcessor name).2.map fun ws => ws.mTenantConfig.triple) =
      routedTriple stored conf name := by
  obtain ⟨conf', env, answers, hconf, henv, t, ht, hcall, hsuccess⟩ := I.initialised hinitialized
  obtain rfl := Option.some.inj hconf
  obtain ⟨k, hk, hattempts⟩ := I.attempts
  cases WSAgent.registered hrun with
  | buffered _ hinits => exact absurd hsuccess (hinits t ht)
  | started _ settings hinits hcontexts =>
    obtain ⟨env', answers', spanNamer, hcall', hread⟩ := hinits t ht hsuccess
    rw [hcall] at hcall'
    cases hcall'
    have htriple := settings_triple henv hread
    have hcontext (name : Bytes) := congrArg (Option.map TenantConfig.triple) (hcontexts name)
    simp only [Option.map_map] at hcontext
    rw [Webserver.AgentCore.getRequestProcessor, Webserver.AgentCore.getWebServerContext,
      routedTriple]
    by_cases hempty : name = []
    · subst hempty
      refine (hcontext Webserver.COREINIT_CONTEXT).trans ?_
      rw [WSAgent.contextConfig, if_pos rfl, Option.map_some, htriple, if_pos (.inl rfl)]
    · rw [if_neg fun h => hempty (List.length_eq_zero_iff.mp h)]
      refine (hcontext _).trans ?_
      by_cases hreserved : name = Webserver.COREINIT_CONTEXT
      · rw [WSAgent.contextConfig, if_pos hreserved, if_pos (.inr hreserved), Option.map_some,
          htriple]
      · have hname := not_or.mpr ⟨hempty, hreserved⟩
        rw [WSAgent.contextConfig, if_neg hreserved, if_neg hname, registeredTenant, if_neg hname,
          hattempts, findSome?_attempts (hk hinitialized), findSome?_registeredUnder,
          Option.map_map, Option.map_map, Option.map_map]
        rfl

/-- **Routing.**  Let static variables hold what earlier configurations stored, and load a
configuration that nginx accepts.  It stays inside of the array of contexts exactly when
there is room for all that it stores.  When it did, then after every run of a worker let a
request find the agent initialised or initialise it: the name that the request is started
with resolves to the triple of its merged configuration exactly when the agent has this
triple for the name. -/
theorem tenant_routing_iff (before : Contexts) (http : Items)
    (haccepted : load before http ≠ .error .isDuplicate) :
    (load before http ≠ .error .outsideArray ↔
        (before.contexts ++ stores before http).length ≤ MAX_CONTEXTS) ∧
      ∀ c servers, load before http = .ok (c, servers) → ∀ ts w,
        Run (Worker.step sdk getSpanName matchIgnorePathRegex) (.new c.contexts) ts w →
        ∀ r answers log w', r.locConf ∈ servers.toList →
          w.ngxInitializeOpentelemetry sdk getSpanName r answers = some (true, log, w') →
          (Resolves w' r.locConf ↔
            routedTriple (before.contexts ++ stores before http)
              ((initialisedBy ts).getD r.locConf) (computeContextName r.locConf) =
                some r.locConf.triple) := by
  constructor
  · constructor
    · intro hinside
      cases hload : load before http with
      | ok result =>
        rw [← (load_ok hload).1]
        exact result.1.fits
      | error e =>
        cases e with
        | isDuplicate => exact absurd hload haccepted
        | outsideArray => exact absurd hload hinside
    · intro hfits hload
      exact absurd hfits (Nat.not_le.mpr (load_outsideArray hload))
  · intro c servers hload ts w hrun r answers log w' _ hinit
    rw [(load_ok hload).1] at hrun
    have hinitialised := initialised hinit
    have I := (contexts_registered _ hrun).attempt hinitialised
    have hinitialized := hinitialised.isInitialized
    rw [if_pos hinitialized, Option.or_some] at I
    have hfound := getRequestProcessor_triple I hinitialized
      ((agentRun hrun).append hinitialised.run)
      (computeContextName r.locConf)
    rw [Resolves, ← hfound, Option.map_eq_some_iff]

end

/-! ### A configuration -/

/-- A server with a context, a location that only gives another name, and a location with
a context of its own. -/
def sampleHttp : Items :=
  .directive (.str .otelExporterEndpoint (ascii "collector:4317"))
    (.block
      (.directive (.webserverContext (ascii "shop") (ascii "front") (ascii "1"))
        (.block (.directive (.str .serviceName (ascii "back")) .nil)
          (.block (.directive (.webserverContext (ascii "sho") (ascii "pfront") (ascii "1")) .nil)
            .nil)))
      .nil)

/-- The configurations of the server and of its two locations. -/
def sampleConf (i : ℕ) : LocConf :=
  (sampleHttp.blocks.merged (sampleHttp.conf .create)).toList.getD i .create

def sampleRequest (conf : LocConf) : NgxHttpRequest :=
  { internal := false, pool := true, ctx := none, locConf := conf, uri := ascii "/",
    err_status := 0, status := 200, requestPayload := Webserver.sampleRequest ∅,
    responsePayload := ⟨∅, ∅, 200⟩ }

def sampleAnswers (tenants : List Triple) : InitAnswers :=
  WSAgent.sampleInit (tenants.map fun t => (contextName t, WSAgent.tenantOf (contextConfigOf t))) 0

/-- The worker after a request that came to the server. -/
theorem sampleHttp_run : ∃ ts w,
    Run (Worker.step (fun _ => Webserver.sampleSdk) (fun _ uri => uri) fun _ _ => false)
        (.new (stores .new sampleHttp)) ts w ∧
      w.isInitialized = true ∧
      ((w.agent.mAgentCore.getRequestProcessor (computeContextName (sampleConf 1))).2.map
        fun ws => ws.mTenantConfig.triple) = none ∧
      ((w.agent.mAgentCore.getRequestProcessor (computeContextName (sampleConf 2))).2.map
        fun ws => ws.mTenantConfig.triple) = some (sampleConf 0).triple := by
  have hchecked : (Run.ofCalls
      (Worker.step (fun _ => Webserver.sampleSdk) (fun _ uri => uri) fun _ _ => false)
      (.new (stores .new sampleHttp)) [.startMonitoringRequest (sampleRequest (sampleConf 0))
        (sampleAnswers [(ascii "shop", ascii "front", ascii "1")])]).any (fun r =>
      r.2.isInitialized &&
        ((r.2.agent.mAgentCore.getRequestProcessor (computeContextName (sampleConf 1))).2.map
          fun ws => ws.mTenantConfig.triple) = none &&
        ((r.2.agent.mAgentCore.getRequestProcessor (computeContextName (sampleConf 2))).2.map
          fun ws => ws.mTenantConfig.triple) = some (sampleConf 0).triple) = true := by
    decide +kernel
  obtain ⟨ts, w, hrun, hchecked⟩ := Run.exists_of_any hchecked
  simp only [Bool.and_eq_true, decide_eq_true_iff] at hchecked
  exact ⟨ts, w, hrun, hchecked.1.1, hchecked.1.2, hchecked.2⟩

theorem initialize_again (sdk : TenantConfig → Sdk) (getSpanName : SpanNamer → Bytes → Bytes)
    {w : Worker}
    (hinitialized : w.isInitialized = true) (r : NgxHttpRequest) (answers : InitAnswers) :
    w.ngxInitializeOpentelemetry sdk getSpanName r answers = some (true, [], w) := by
  rw [ngxInitializeOpentelemetry, if_pos hinitialized]

theorem tenant_routing_sample : ∃ ts w,
    Run (Worker.step (fun _ => Webserver.sampleSdk) (fun _ uri => uri) fun _ _ => false)
        (.new (stores .new sampleHttp)) ts w ∧ Resolves w (sampleConf 0) := by
  obtain ⟨ts, w, hrun, hinitialized, -⟩ := sampleHttp_run
  refine ⟨ts, w, hrun, ?_⟩
  exact ((tenant_routing_iff .new sampleHttp (by rintro ⟨⟩)).2
    ⟨stores .new sampleHttp, true, by decide⟩ _ rfl ts w hrun (sampleRequest (sampleConf 0))
    (sampleAnswers []) [] w List.mem_cons_self (initialize_again _ _ hinitialized _ _)).mpr rfl

/-- A block with some contexts of one service. -/
def contextItems (instances : ℕ) : Items :=
  (List.range instances).foldr (fun i rest => .directive
    (.webserverContext (ascii "shop") (ascii "front") [UInt8.ofNat (48 + i)]) rest) .nil

/-- The name that one location gives is registered with no triple, the name of the other
one is that of the server's context; and a sixth context does not fit, nor do three contexts
when the same configuration is loaded once more. -/
theorem tenants_misrouted :
    (∃ ts w, Run (Worker.step (fun _ => Webserver.sampleSdk) (fun _ uri => uri) fun _ _ => false)
        (.new (stores .new sampleHttp)) ts w ∧
      ∀ i ∈ [1, 2],
        w.ngxInitializeOpentelemetry (fun _ => Webserver.sampleSdk) (fun _ uri => uri)
          (sampleRequest (sampleConf i)) (sampleAnswers []) = some (true, [], w) ∧
        ¬Resolves w (sampleConf i)) ∧
      load .new (contextItems 6) = .error .outsideArray ∧
      ∃ c servers, load .new (contextItems 3) = .ok (c, servers) ∧
        load c (contextItems 3) = .error .outsideArray := by
  refine ⟨?_, rfl, _, _, rfl, rfl⟩
  obtain ⟨ts, w, hrun, hinitialized, hback, hpfront⟩ := sampleHttp_run
  refine ⟨ts, w, hrun, ?_⟩
  simp only [List.forall_mem_cons, List.not_mem_nil, false_imp_iff, implies_true, and_true]
  refine ⟨⟨initialize_again _ _ hinitialized _ _, ?_⟩, initialize_again _ _ hinitialized _ _, ?_⟩
  · rintro ⟨ws, hws, -⟩
    rw [hws] at hback
    cases hback
  · rintro ⟨ws, hws, htriple⟩
    rw [hws, Option.map_some, htriple] at hpfront
    exact absurd hpfront (by decide)

end NginxWebserver
