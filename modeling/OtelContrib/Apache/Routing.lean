/-
The contexts that requests are routed to.

A request names its context by the triple of its merged configuration.  The contexts
themselves are made of the triples of single sections, and reach the agent when it is
initialised: `Contexts` is the invariant of runs that says which have got there.

* `resolves_iff` — the name of a request resolves to its own triple exactly when its
  configuration is valid and the first triple of that name that one section completed,
  before the agent was initialised, is this triple.
-/
import OtelContrib.Apache.Stages

open Webserver (WSAgent InitAnswers TenantConfig SpanNamer Sdk WebServerContext)
open Webserver.WSAgent (registrations registrations_eq registrations_append registeredTenant
  accepted)

namespace Apache

/-! ### What was read -/

/-- The directives of a run. -/
def directives (ts : List HookTransition) : List (ℕ × Directive) :=
  ts.filterMap fun t =>
    match t.call with
    | .command k d => some (k, d)
    | _ => none

/-- Those that were read before the agent was initialised. -/
def directivesBeforeInit (ts : List HookTransition) : List (ℕ × Directive) :=
  directives (ts.filter fun t => t.before.processConfig.isNone)

/-- The first triple of a name that a section completed. -/
def firstCompleted (ds : List (ℕ × Directive)) (name : Bytes) : Option Triple :=
  (completed ds).find? fun t => joined t = name

theorem directives_snoc (ts : List HookTransition) (t : HookTransition) :
    directives (ts ++ [t]) = directives ts ++ directives [t] :=
  List.filterMap_append

theorem directivesBeforeInit_snoc (ts : List HookTransition) (t : HookTransition) :
    directivesBeforeInit (ts ++ [t]) =
      directivesBeforeInit ts ++ if t.before.processConfig.isNone then directives [t] else [] := by
  rw [directivesBeforeInit, directivesBeforeInit, List.filter_append, directives, directives,
    List.filterMap_append, List.filter_cons, List.filter_nil]
  refine congrArg _ ?_
  split
  · rfl
  · rfl

/-- A later directive does not change which triple was the first. -/
theorem firstCompleted_snoc {ds : List (ℕ × Directive)} {name : Bytes} {t : Triple}
    (h : firstCompleted ds name = some t) (e : ℕ × Directive) :
    firstCompleted (ds ++ [e]) name = some t := by
  rw [firstCompleted] at h
  rw [firstCompleted, completed_snoc, List.find?_append, h, Option.some_or]

/-- The names of the contexts are all different. -/
theorem contexts_nodup (dirspec : ℕ → Bytes) (ds : List (ℕ × Directive)) :
    ((ConfigHandlers.read dirspec ds).m_webServerContexts.map Prod.fst).Nodup := by
  induction ds using List.reverseRecOn with
  | nil => exact .nil
  | append_singleton ds e ih =>
    rw [read_snoc, (command_spec _ _ _).2]
    split
    · rw [ConfigHandlers.insertWebserverContext]
      split
      · exact ih
      · split
        · exact ih
        next hnew =>
          rw [List.map_append]
          refine ih.append (List.nodup_singleton _) ?_
          intro name hname hname'
          rw [List.mem_singleton.mp hname'] at hname
          exact hnew hname
    · exact ih

/-- The contexts are the first triples of their names. -/
theorem mem_contexts {dirspec : ℕ → Bytes} {ds : List (ℕ × Directive)} {name : Bytes} {t : Triple} :
    (name, t) ∈ (ConfigHandlers.read dirspec ds).m_webServerContexts ↔
      firstCompleted ds name = some t := by
  rw [firstCompleted, ← contexts_completed dirspec]
  have hnodup := contexts_nodup dirspec ds
  generalize (ConfigHandlers.read dirspec ds).m_webServerContexts = contexts at hnodup ⊢
  induction contexts with
  | nil => simp [OrderedMap.lookup]
  | cons e contexts ih =>
    rw [List.map_cons, List.nodup_cons] at hnodup
    have hrest := ih hnodup.2
    rw [List.mem_cons, OrderedMap.lookup_cons]
    by_cases hname : e.1 = name
    · subst hname
      rw [if_pos rfl]
      have hnot : (e.1, t) ∉ contexts := by
        intro hmem
        exact hnodup.1 (List.mem_map.mpr ⟨_, hmem, rfl⟩)
      rw [or_iff_left hnot, Option.some_inj, Prod.ext_iff]
      exact ⟨fun h => h.2.symm, fun h => ⟨rfl, h.symm⟩⟩
    · have hne : ¬(name, t) = e := by
        rintro rfl
        exact hname rfl
      rw [if_neg hname]
      exact (or_iff_right hne).trans hrest

/-! ### The invariant of runs -/

/-- What was read and what of it was registered. -/
structure Contexts (dirspec : ℕ → Bytes) (all before : List (ℕ × Directive)) (log : Log)
    (p : Process) : Prop where
  config : p.config = .read dirspec all
  uninitialised : p.processConfig = none → before = all
  registered : ∀ name, ∀ c ∈ registrations name log,
    ∃ t, firstCompleted before name = some t ∧ c = some ⟨t.1, t.2.1, t.2.2⟩
  initialised : p.processConfig ≠ none → (∃ t ∈ log, t.outcome = .init .success) ∧
    ∀ name t, firstCompleted before name = some t → registrations name log ≠ []

section

variable {sdk : TenantConfig → Sdk} {getSpanName : SpanNamer → Bytes → Bytes} {p p' : Process}
  {dirspec : ℕ → Bytes} {all before : List (ℕ × Directive)} {log log' : Log}

theorem Contexts.calls (I : Contexts dirspec all before log p)
    (hnone : ∀ name, registrations name log' = []) (hconfig : p'.config = p.config)
    (hprocess : p'.processConfig = p.processConfig) :
    Contexts dirspec all before (log ++ log') p' := by
  have hsame : ∀ name, registrations name (log ++ log') = registrations name log := by
    intro name
    rw [registrations_append, hnone, List.append_nil]
  constructor
  · exact hconfig.trans I.config
  · exact fun h => I.uninitialised (hprocess ▸ h)
  · intro name c hc
    exact I.registered name c (hsame name ▸ hc)
  · intro h
    obtain ⟨⟨t, ht, hinit⟩, hall⟩ := I.initialised (hprocess ▸ h)
    refine ⟨⟨t, List.mem_append_left _ ht, hinit⟩, fun name t ht => ?_⟩
    rw [hsame]
    exact hall name t ht

theorem initSucceeded_iff {outcome : WSAgent.Outcome} :
    Process.initSucceeded outcome = true ↔ outcome = .init .success := by
  unfold Process.initSucceeded
  split
  next => simp
  next hne => simpa using hne

/-- Initialising registers the contexts that there are. -/
theorem Contexts.attempt (I : Contexts dirspec all before log p) {r : RequestRec} {b : Bool}
    (h : Initialised sdk getSpanName p r b log' p') :
    Contexts dirspec all before (log ++ log') p' := by
  cases h with
  | already | refused => exact I.calls (fun _ => rfl) rfl rfl
  | @attempted cfg added a answers outcome agent hnone hcfg henabled hadded hcontexts hinit =>
    obtain rfl := I.uninitialised hnone
    have hregistered : ∀ name c, c ∈ registrations name added ↔
        ∃ t, firstCompleted before name = some t ∧ c = some ⟨t.1, t.2.1, t.2.2⟩ := by
      intro name c
      rw [registrations_eq, hcontexts, I.config, List.filterMap_map, List.mem_filterMap]
      constructor
      · rintro ⟨⟨name', t⟩, hmem, hc⟩
        dsimp only [Function.comp_apply] at hc
        split at hc
        next heq =>
          cases heq
          cases hc
          exact ⟨t, mem_contexts.mp hmem, rfl⟩
        next => cases hc
      · rintro ⟨t, ht, rfl⟩
        refine ⟨(name, t), mem_contexts.mpr ht, ?_⟩
        exact if_pos rfl
    have hlast : ∀ name, registrations name (added ++
        [⟨a, .init (some (Process.envConfig cfg)) answers, outcome, agent⟩]) =
          registrations name added := by
      intro name
      rw [registrations_append]
      exact List.append_nil _
    constructor
    · exact I.config
    · exact fun _ => rfl
    · intro name c hc
      rw [registrations_append, hlast, List.mem_append] at hc
      exact hc.elim (I.registered name c) (hregistered name c).mp
    · intro hsome
      dsimp only at hsome
      have hsucceeded : Process.initSucceeded outcome = true := by
        by_contra hfailed
        rw [if_neg hfailed] at hsome
        exact hsome rfl
      refine ⟨⟨_, List.mem_append_right _ (List.mem_append_right _ List.mem_cons_self),
        initSucceeded_iff.mp hsucceeded⟩, fun name t ht hnil => ?_⟩
      rw [registrations_append, hlast] at hnil
      have hmem := (hregistered name _).mpr ⟨t, ht, rfl⟩
      rw [(List.append_eq_nil_iff.mp hnil).2] at hmem
      cases hmem

/-- The step lemma. -/
theorem Contexts.snoc {ts : List HookTransition} {hook : Hook}
    (I : Contexts dirspec (directives ts) (directivesBeforeInit ts) (agentLog ts) p)
    (h : Hooked sdk getSpanName p hook log p') :
    Contexts dirspec (directives (ts ++ [⟨p, hook, log, p'⟩]))
      (directivesBeforeInit (ts ++ [⟨p, hook, log, p'⟩])) (agentLog (ts ++ [⟨p, hook, log, p'⟩]))
        p' := by
  rw [agentLog_snoc, directives_snoc, directivesBeforeInit_snoc]
  -- only a directive is read
  have hread : directives [⟨p, hook, log, p'⟩] = [] →
      Contexts dirspec (directives ts) (directivesBeforeInit ts) (agentLog ts ++ log) p' →
      Contexts dirspec (directives ts ++ directives [⟨p, hook, log, p'⟩])
        (directivesBeforeInit ts ++
          if p.processConfig.isNone then directives [⟨p, hook, log, p'⟩] else [])
        (agentLog ts ++ log) p' := by
    intro hnil hI
    rwa [hnil, ite_self, List.append_nil, List.append_nil]
  have hstopped : ∀ {a reqHandle ignoreBackend stopped agent},
      Stopped sdk getSpanName a reqHandle ignoreBackend stopped agent →
      ∀ name, registrations name stopped = [] := by
    intro a reqHandle ignoreBackend stopped agent h name
    cases h with
    | nothing => rfl
    | ended => rfl
  cases h with
  | command k d =>
    show Contexts dirspec (directives ts ++ [(k, d)])
      (directivesBeforeInit ts ++ if p.processConfig.isNone then [(k, d)] else [])
      (agentLog ts ++ []) { p with config := p.config.command k d }
    rw [List.append_nil]
    have hlater : ∀ name t, firstCompleted (directivesBeforeInit ts) name = some t →
        firstCompleted (directivesBeforeInit ts ++ if p.processConfig.isNone then [(k, d)] else [])
          name = some t := by
      intro name t ht
      split
      · exact firstCompleted_snoc ht _
      · rwa [List.append_nil]
    constructor
    · rw [read_snoc, ← I.config]
    · intro hnone
      rw [if_pos (Option.isNone_iff_eq_none.mpr hnone), I.uninitialised hnone]
    · intro name c hc
      obtain ⟨t, ht, hct⟩ := I.registered name c hc
      exact ⟨t, hlater name t ht, hct⟩
    · intro hsome
      rw [if_neg fun hnone => hsome (Option.isNone_iff_eq_none.mp hnone), List.append_nil]
      exact I.initialised hsome
  | quiet hcommand =>
    refine hread ?_ (I.calls (fun _ => rfl) rfl rfl)
    cases hook with
    | command k d => exact absurd rfl (hcommand k d)
    | _ => rfl
  | declined hdeclined => exact hread rfl (I.attempt hdeclined)
  | begun hbegun =>
    refine hread rfl ?_
    rw [← List.append_assoc]
    exact (I.attempt hbegun).calls (fun _ => rfl) rfl rfl
  | ended hended => exact hread rfl (I.calls (hstopped hended) rfl rfl)
  | started => exact hread rfl (I.calls (fun _ => rfl) rfl rfl)
  | logged _ hlogged =>
    refine hread rfl (I.calls (fun name => ?_) rfl rfl)
    rw [registrations_append, hstopped hlogged]
    rfl

theorem contexts {ts : List HookTransition}
    (hrun : Run (Process.step sdk getSpanName) (.new dirspec) ts p) :
    Contexts dirspec (directives ts) (directivesBeforeInit ts) (agentLog ts) p := by
  refine hrun.invariant (fun ts p =>
    Contexts dirspec (directives ts) (directivesBeforeInit ts) (agentLog ts) p) ?_
    fun ts p hook log p' I hstep => I.snoc (hooked hstep)
  constructor
  · rfl
  · exact fun _ => rfl
  · rintro name c ⟨⟩
  · exact fun h => absurd rfl h

/-! ### Routing -/

/-- The name that the begin hook hands over is not null, and it names a context with the
triple of the request's own configuration. -/
def Resolves (p : Process) (r : RequestRec) : Prop :=
  ∃ name cfg ws, p.wscontext r = some name ∧ p.config.ourDconfig r.sections = some cfg ∧
    (p.agent.mAgentCore.getRequestProcessor name).2 = some ws ∧ ws.mTenantConfig.triple = cfg.triple

/-- The configuration of a request is valid, and its triple is the first one of its name
that a section completed. -/
def Completed (ds : List (ℕ × Directive)) (p : Process) (r : RequestRec) : Prop :=
  ∃ cfg, p.config.getConfig r.sections = some cfg ∧
    firstCompleted ds (joined cfg.triple) = some cfg.triple

theorem joined_ne_coreinit (t : Triple) : joined t ≠ Webserver.COREINIT_CONTEXT := by
  intro h
  have hcolon : (58 : UInt8) ∈ joined t := by
    rw [joined, List.append_assoc]
    exact List.mem_append_right _ List.mem_cons_self
  rw [h] at hcolon
  exact absurd hcolon (by decide)

/-- A configuration that passes `validate` has all of its triple, and this was given. -/
theorem tripleInitialized_of_validate {ds : List (ℕ × Directive)} {sections : List ℕ}
    {cfg : OtelCfg}
    (h : (ConfigHandlers.read dirspec ds).getConfig sections = some cfg) :
    (ConfigHandlers.read dirspec ds).ourDconfig sections = some cfg ∧ cfg.tripleInitialized ∧
      cfg.serviceNamespace.value ≠ [] ∧ cfg.serviceName.value ≠ [] ∧
      cfg.serviceInstanceId.value ≠ [] := by
  rw [ConfigHandlers.getConfig, Option.filter_eq_some_iff] at h
  obtain ⟨hcfg, hvalid⟩ := h
  rw [OtelCfg.validate, decide_eq_true_iff] at hvalid
  obtain ⟨-, -, -, hnamespace, hname, hid⟩ := hvalid
  refine ⟨hcfg, ?_, hnamespace, hname, hid⟩
  cases sections with
  | nil => cases hcfg
  | cons k sections =>
    obtain rfl := Option.some.inj hcfg
    induction sections using List.reverseRecOn with
    | nil =>
      -- what is not empty was given
      have hgiven := records_given dirspec ds k
      have hinitialized : ∀ field : Field Bytes, (∃ arg, field = .ofGiven arg) → field.value ≠ [] →
          field.initialized = true := by
        rintro field ⟨arg, rfl⟩ hne
        cases arg with
        | none => exact absurd rfl hne
        | some arg => rfl
      rw [OtelCfg.tripleInitialized, Bool.and_eq_true, Bool.and_eq_true]
      exact ⟨⟨hinitialized _ ⟨_, hgiven.serviceNamespace⟩ hnamespace,
        hinitialized _ ⟨_, hgiven.serviceName⟩ hname⟩,
        hinitialized _ ⟨_, hgiven.serviceInstanceId⟩ hid⟩
    | append_singleton sections k' _ =>
      rw [List.map_append, List.foldl_append]
      rfl

theorem wscontext_eq_some {ds : List (ℕ × Directive)} (hconfig : p.config = .read dirspec ds)
    {r : RequestRec} {name : Bytes} : p.wscontext r = some name ↔
      ∃ cfg, p.config.getConfig r.sections = some cfg ∧ name = joined cfg.triple := by
  unfold Process.wscontext
  rcases hcfg : p.config.getConfig r.sections with _ | cfg
  · simp
  · rw [hconfig] at hcfg
    have hname : computeContextName cfg = joined cfg.triple :=
      if_neg (not_not_intro (tripleInitialized_of_validate hcfg).2.1)
    dsimp only
    rw [hname, if_neg (joined_ne_nil _), Option.some_inj]
    exact ⟨fun h => ⟨cfg, rfl, h.symm⟩, by rintro ⟨_, ⟨⟩, rfl⟩; rfl⟩

theorem getRequestProcessor_joined (c : Webserver.AgentCore) (t : Triple) :
    (c.getRequestProcessor (joined t)).2 = c.mWebServerContexts (joined t) := by
  have hlength : (joined t).length ≠ 0 := fun h => joined_ne_nil t (List.length_eq_zero_iff.mp h)
  rw [Webserver.AgentCore.getRequestProcessor, Webserver.AgentCore.getWebServerContext,
    if_neg hlength]

theorem accepted_eq_some {c : Option Webserver.WSContextConfig} {c' : Webserver.WSContextConfig}
    (h : accepted c = some c') : c = some c' := by
  unfold accepted at h
  split at h
  · cases h
  · split at h
    · cases h
    · exact h

/-- **Routing.**  After every run of hooks, let the begin hook of a request find the agent
initialised or initialise it.  The context name that it then passes is not null and
resolves to a context with the triple of the request's merged configuration exactly
when this configuration is valid and the first triple of its name that one section
completed, by directives read before the agent was initialised, is this triple. -/
theorem resolves_iff {ts : List HookTransition} {r : RequestRec} {answers : InitAnswers}
    (hrun : Run (Process.step sdk getSpanName) (.new dirspec) ts p)
    (hinit : p.initializeOpentelemetry sdk getSpanName r answers = some (true, log, p')) :
    Resolves p' r ↔ Completed (directivesBeforeInit ts) p' r := by
  have I := (contexts hrun).attempt (initialised hinit)
  obtain ⟨hlog, -, -, -, -, -, hstored⟩ := (initialised hinit).frame
  obtain ⟨⟨t, ht, hsuccess⟩, hall⟩ := I.initialised (hstored (.inr rfl))
  have hcontexts : ∃ settings, ∀ name,
      (p'.agent.mAgentCore.mWebServerContexts name).map WebServerContext.mTenantConfig =
        WSAgent.contextConfig settings name (registrations name (agentLog ts ++ log)) := by
    cases WSAgent.registered ((agentRun hrun).append hlog) with
    | buffered _ hinits => exact absurd hsuccess (hinits t ht)
    | started _ settings _ hcontexts => exact ⟨settings, hcontexts⟩
  obtain ⟨settings, hcontexts⟩ := hcontexts
  have hconfig (t : Triple) : WSAgent.contextConfig settings (joined t)
      (registrations (joined t) (agentLog ts ++ log)) =
        ((registrations (joined t) (agentLog ts ++ log)).findSome? accepted).map fun c =>
          (WSAgent.tenantOf c).copyAllExceptNamespaceNameId settings := by
    rw [WSAgent.contextConfig, if_neg (joined_ne_coreinit t), registeredTenant,
      if_neg (not_or.mpr ⟨joined_ne_nil t, joined_ne_coreinit t⟩), Option.map_map]
    rfl
  constructor
  · rintro ⟨name, cfg, ws, hname, hcfg, hws, htriple⟩
    obtain ⟨cfg', hget, rfl⟩ := (wscontext_eq_some I.config).mp hname
    have hget' := hget
    rw [I.config] at hget' hcfg
    obtain rfl := Option.some.inj ((tripleInitialized_of_validate hget').1.symm.trans hcfg)
    refine ⟨cfg', hget, ?_⟩
    -- what was registered under the name is the first triple of the name
    have hfound := hcontexts (joined cfg'.triple)
    rw [getRequestProcessor_joined] at hws
    rw [hws, hconfig] at hfound
    obtain ⟨c, hc, hws'⟩ := Option.map_eq_some_iff.mp hfound.symm
    obtain ⟨c', hmem, haccepted⟩ := List.exists_of_findSome?_eq_some hc
    obtain ⟨t', ht', hct'⟩ := I.registered _ c' hmem
    obtain rfl := Option.some.inj ((accepted_eq_some haccepted).symm.trans hct')
    rw [← htriple, ← hws', TenantConfig.triple_copyAllExceptNamespaceNameId]
    rw [← htriple, ← hws', TenantConfig.triple_copyAllExceptNamespaceNameId] at ht'
    exact ht'
  · rintro ⟨cfg, hget, hfirst⟩
    have hget' := hget
    rw [I.config] at hget'
    obtain ⟨hcfg, -, hnamespace, hname, hid⟩ := tripleInitialized_of_validate hget'
    have hregistered : (registrations (joined cfg.triple) (agentLog ts ++ log)).findSome? accepted =
        some ⟨cfg.triple.1, cfg.triple.2.1, cfg.triple.2.2⟩ := by
      rcases hregs : registrations (joined cfg.triple) (agentLog ts ++ log) with _ | ⟨c, rest⟩
      · exact absurd hregs (hall _ _ hfirst)
      · obtain ⟨t', ht', rfl⟩ := I.registered (joined cfg.triple) c (hregs ▸ List.mem_cons_self)
        obtain rfl := Option.some.inj (hfirst.symm.trans ht')
        have haccepted : accepted (some ⟨cfg.triple.1, cfg.triple.2.1, cfg.triple.2.2⟩) =
            some ⟨cfg.triple.1, cfg.triple.2.1, cfg.triple.2.2⟩ :=
          if_neg (not_or.mpr ⟨hnamespace, not_or.mpr ⟨hname, hid⟩⟩)
        rw [List.findSome?_cons, haccepted]
    have hfound := hcontexts (joined cfg.triple)
    rw [hconfig, hregistered] at hfound
    obtain ⟨ws, hws, hws'⟩ := Option.map_eq_some_iff.mp hfound
    refine ⟨joined cfg.triple, cfg, ws, (wscontext_eq_some I.config).mpr ⟨cfg, hget, rfl⟩, ?_,
      ?_, ?_⟩
    · rw [I.config]
      exact hcfg
    · rw [getRequestProcessor_joined]
      exact hws
    · rw [hws']
      rfl

end

/-! ### A run -/

/-- Inside of a section that has what is required, one gives another name, one asks for a
certificate that is not there, and one gives all of another triple. -/
def sampleSections : List Hook :=
  sampleSection ++
    [.command 1 (.serviceName (ascii "back")),
      .command 2 (.otelSslEnabled (ascii "ON")),
      .command 3 (.webserverContext (ascii "shop") (ascii "back") (ascii "2")),
      .headerParserBegin (sampleRequest 4 [0])
        (sampleAnswers [sampleTriple, (ascii "shop", ascii "back", ascii "2")])]

theorem initialize_again (sdk : TenantConfig → Sdk) (getSpanName : SpanNamer → Bytes → Bytes)
    {p : Process}
    (hinitialized : p.processConfig.isSome) (r : RequestRec) (answers : InitAnswers) :
    p.initializeOpentelemetry sdk getSpanName r answers = some (true, [], p) := by
  obtain ⟨cfg, hcfg⟩ := Option.isSome_iff_exists.mp hinitialized
  rw [Process.initializeOpentelemetry, hcfg]

theorem resolves_sample : ∃ ts p,
    Run (Process.step (fun _ => Webserver.sampleSdk) fun _ uri => uri) (.new fun _ => []) ts p ∧
      Resolves p (sampleRequest 5 [0, 3]) := by
  have hchecked : (Run.ofCalls
      (Process.step (fun _ => Webserver.sampleSdk) fun _ uri => uri) (.new fun _ => [])
      sampleSections).any (fun r =>
        r.2.processConfig.isSome &&
          (r.2.config.getConfig [0, 3]).any fun cfg =>
            firstCompleted (directivesBeforeInit r.1) (joined cfg.triple) =
              some cfg.triple) = true := by
    decide +kernel
  obtain ⟨ts, p, hrun, hchecked⟩ := Run.exists_of_any hchecked
  obtain ⟨hinitialized, hchecked⟩ := Bool.and_eq_true_iff.mp hchecked
  obtain ⟨cfg, hcfg, hfirst⟩ := (Option.any_eq_true _ _).mp hchecked
  exact ⟨ts, p, hrun, (resolves_iff hrun (initialize_again _ _ hinitialized (sampleRequest 5 [0, 3])
    (sampleAnswers []))).mpr ⟨cfg, hcfg, of_decide_eq_true hfirst⟩⟩

/-- The name given in a section of its own is not registered with the rest of the triple,
and for a configuration that is not valid the name is null. -/
theorem context_unresolved : ∃ ts p,
    Run (Process.step (fun _ => Webserver.sampleSdk) fun _ uri => uri) (.new fun _ => []) ts p ∧
      (∀ r ∈ [sampleRequest 5 [0, 1], sampleRequest 6 [0, 2]],
        p.initializeOpentelemetry (fun _ => Webserver.sampleSdk) (fun _ uri => uri) r
          (sampleAnswers []) = some (true, [], p) ∧ ¬Resolves p r) ∧
      p.wscontext (sampleRequest 5 [0, 1]) = some (ascii "shop:back:1") ∧
      p.wscontext (sampleRequest 6 [0, 2]) = none := by
  have hchecked : (Run.ofCalls
      (Process.step (fun _ => Webserver.sampleSdk) fun _ uri => uri) (.new fun _ => [])
      sampleSections).any (fun r =>
        r.2.processConfig.isSome &&
          r.2.wscontext (sampleRequest 5 [0, 1]) = some (ascii "shop:back:1") &&
          r.2.wscontext (sampleRequest 6 [0, 2]) = none &&
          (r.2.agent.mAgentCore.getRequestProcessor (ascii "shop:back:1")).2.isNone) = true := by
    decide +kernel
  obtain ⟨ts, p, hrun, hchecked⟩ := Run.exists_of_any hchecked
  simp only [Bool.and_eq_true, decide_eq_true_iff, Option.isNone_iff_eq_none] at hchecked
  obtain ⟨⟨⟨hinitialized, hname⟩, hnull⟩, hnone⟩ := hchecked
  refine ⟨ts, p, hrun, ?_, hname, hnull⟩
  simp only [List.forall_mem_cons, List.not_mem_nil, false_imp_iff, implies_true, and_true]
  refine ⟨⟨initialize_again _ _ hinitialized _ _, ?_⟩, initialize_again _ _ hinitialized _ _, ?_⟩
  · rintro ⟨name, cfg, ws, hname', -, hws, -⟩
    cases hname.symm.trans hname'
    rw [hnone] at hws
    cases hws
  · rintro ⟨name, cfg, ws, hname', -⟩
    exact absurd (hnull.symm.trans hname') (Option.some_ne_none name).symm

end Apache
