/-
The headers that a request of the Apache module carries to its backend (`ApacheHooks.cpp`).

`otel_startInteraction` puts the propagation headers that the agent hands back into the inbound
headers of the request, from where a content handler or a proxy passes them on.  They stay there
when the interaction ends.

* `headers_of_open` — in every run of hooks for any requests, the headers of a request with an
  open interaction carry the span of this interaction;
* `headers_of_other` — the hooks of a request leave the headers of every other one as they were.
-/
import OtelContrib.Apache.Stages
import OtelContrib.Httpd.Propagation
import OtelContrib.Webserver.Parenting

open Otel Httpd
open Webserver (WSAgent InitAnswers RequestContext TenantConfig SpanNamer Carrier
  CARRIER_HEADER_NAME propagationHeaders)
open Webserver.WSAgent (Engines ServedBy engines)

namespace Apache

/-! ### The model -/

/-- A process of the server with the inbound headers of the requests. -/
structure Serving where
  process : Process
  headers_in : ℕ → AprTable

def OTEL_CORRELATION_HEADER_KEY : Bytes := ascii "singularityheader"

/-- `apr_table_unset`. -/
def aprTableUnset (table : AprTable) (key : Bytes) : AprTable :=
  table.filter fun kv => !eqIgnoringCase kv.1 key

/-- `otel_payload_decorator`. -/
def payloadDecorator (headers_in : AprTable) (propagationHeaders : List (Bytes × Bytes)) :
    AprTable :=
  propagationHeaders.foldl (fun headers_in kv => aprTableSet headers_in kv.1 kv.2) headers_in

/-- What `otel_startInteraction` does to the headers when a call of the agent has returned. -/
def decorate (headers_in : AprTable) (t : WSAgent.CallTransition) : AprTable :=
  match t.call, t.outcome with
  | .startInteraction _ _ _, .request _ outcome =>
    if outcome.status = .success then
      let headers_in := aprTableUnset headers_in OTEL_CORRELATION_HEADER_KEY
      if outcome.propagationHeaders.entries ≠ [] then
        payloadDecorator headers_in outcome.propagationHeaders.entries
      else headers_in
    else headers_in
  | _, _ => headers_in

section

variable (sdk : TenantConfig → Webserver.Sdk) (getSpanName : SpanNamer → Bytes → Bytes)

/-- A hook, with the headers that a stage which begins leaves. -/
def Serving.step (s : Serving) (hook : Hook) : Option (Log × Serving) :=
  (s.process.step sdk getSpanName hook).map fun result =>
    (result.1,
      { process := result.2
        headers_in :=
          match hook with
          | .interactionBegin r _ _ _ _ =>
            Function.update s.headers_in r.address
              (result.1.foldl decorate (s.headers_in r.address))
          | _ => s.headers_in })

end

/-! ### Tables -/

theorem aprTableGet_aprTableUnset (table : AprTable) (key key' : Bytes) :
    aprTableGet (aprTableUnset table key) key' =
      if eqIgnoringCase key key' then none else aprTableGet table key' := by
  cases hkey : eqIgnoringCase key key' with
  | true =>
    rw [if_pos rfl, aprTableUnset, aprTableGet, Option.map_eq_none_iff, List.find?_eq_none]
    intro kv hkv hsame
    have hne := (List.mem_filter.mp hkv).2
    rw [eqIgnoringCase_symm, eqIgnoringCase_congr hkey, eqIgnoringCase_symm, hsame] at hne
    cases hne
  | false => exact aprTableGet_filter hkey table

/-- A table after it was decorated, under a key that at most one value was set for. -/
theorem aprTableGet_payloadDecorator {kvs : List (Bytes × Bytes)} {key value : Bytes}
    (hsame : ∀ kv ∈ kvs, eqIgnoringCase kv.1 key = true → kv.2 = value) (table : AprTable) :
    aprTableGet (payloadDecorator table kvs) key =
      if kvs.any fun kv => eqIgnoringCase kv.1 key then some value else aprTableGet table key := by
  induction kvs using List.reverseRecOn with
  | nil => rfl
  | append_singleton kvs kv ih =>
    rw [payloadDecorator, List.foldl_append, List.foldl_cons, List.foldl_nil,
      aprTableGet_aprTableSet, List.any_append, List.any_cons, List.any_nil, Bool.or_false]
    cases hkey : eqIgnoringCase kv.1 key with
    | true =>
      rw [if_pos rfl, Bool.or_true, if_pos rfl,
        hsame kv (List.mem_append_right _ List.mem_cons_self) hkey]
    | false =>
      rw [Bool.or_false]
      exact ih fun kv' hkv' => hsame kv' (List.mem_append_left _ hkv')

/-! ### The headers of a span -/

/-- What the propagators put into a carrier for a span. -/
def injected (sdk : Webserver.Sdk) (span : ℕ) : Carrier :=
  sdk.propagators.foldl
    (fun carrier propagator => propagator.inject (some (.started span)) carrier) ∅

/-- The headers carry a span: those that are injected for it, and none of another span; a name
that is not injected is empty, unless the compiler merged the literals that are compared. -/
structure Carries (sdk : Webserver.Sdk) (headers_in : AprTable) (span : ℕ) : Prop where
  injected : ∀ name ∈ CARRIER_HEADER_NAME, ∀ value, (injected sdk span).find? name = some value →
    aprTableGet headers_in name = some value
  others : sdk.emptyLiteralsMerged = false → ∀ name ∈ CARRIER_HEADER_NAME,
    (Apache.injected sdk span).find? name = none → aprTableGet headers_in name = some []
  correlation : aprTableGet headers_in OTEL_CORRELATION_HEADER_KEY = none

/-- The copying loop, with one entry for each name. -/
theorem find?_copied (otelCarrier : Carrier) (merged : Bool) (names : List Bytes)
    (carrier : Carrier)
    (key : Bytes) :
    (names.foldl (fun carrier name =>
      match otelCarrier.find? name with
      | some value => carrier.insert name value
      | none => if merged then carrier else carrier.insert name []) carrier).find? key =
      if key ∈ names then
        (otelCarrier.find? key).or (if merged then carrier.find? key else some [])
      else carrier.find? key := by
  induction names using List.reverseRecOn with
  | nil => rfl
  | append_singleton names name ih =>
    rw [List.foldl_append, List.foldl_cons, List.foldl_nil]
    by_cases hkey : name = key
    · subst hkey
      rw [if_pos (List.mem_append_right _ List.mem_cons_self)]
      cases hfind : otelCarrier.find? name with
      | some value => exact OrderedMap.find?_insert_self _ _ _
      | none =>
        dsimp only
        cases merged with
        | true =>
          rw [if_pos rfl, ih, hfind]
          split <;> rfl
        | false => exact OrderedMap.find?_insert_self _ _ _
    · have hmem : key ∈ names ++ [name] ↔ key ∈ names := by
        simp [Ne.symm hkey]
      rw [if_congr hmem rfl rfl, ← ih]
      cases otelCarrier.find? name with
      | some value => exact OrderedMap.find?_insert_of_ne _ hkey _
      | none =>
        dsimp only
        split
        · rfl
        · exact OrderedMap.find?_insert_of_ne _ hkey _

/-- The names that a call of the agent can hand back. -/
def headerNames : List Bytes := CARRIER_HEADER_NAME ++ [ascii "Parent_Span_Id"]

theorem headerNames_distinct :
    ∀ a ∈ headerNames, ∀ b ∈ headerNames, eqIgnoringCase a b = true → a = b := by
  decide +kernel

/-- Headers of a span that were put into any table are carried. -/
theorem carries_decorated (sdk : Webserver.Sdk) (span : ℕ) (parentSpanId : Bytes)
    (headers_in : AprTable) :
    Carries sdk (payloadDecorator (aprTableUnset headers_in OTEL_CORRELATION_HEADER_KEY)
      ((propagationHeaders sdk (some (.started span)) ∅).insert (ascii "Parent_Span_Id")
        parentSpanId).entries) span := by
  set headers := (propagationHeaders sdk (some (.started span)) ∅).insert (ascii "Parent_Span_Id")
    parentSpanId with hheaders
  have hfind (name : Bytes) (hname : name ≠ ascii "Parent_Span_Id") :
      headers.find? name = if name ∈ CARRIER_HEADER_NAME then
        ((injected sdk span).find? name).or (if sdk.emptyLiteralsMerged then none else some [])
        else none := by
    rw [hheaders, OrderedMap.find?_insert_of_ne _ (Ne.symm hname)]
    exact find?_copied _ _ _ _ _
  have hnames : ∀ kv ∈ headers.entries, kv.1 ∈ headerNames := by
    intro kv hkv
    by_cases hparent : kv.1 = ascii "Parent_Span_Id"
    · exact List.mem_append_right _ (List.mem_singleton.mpr hparent)
    · have hsome := headers.mem_entries_iff.mp hkv
      rw [hfind _ hparent] at hsome
      split at hsome
      next hmem => exact List.mem_append_left _ hmem
      next => cases hsome
  -- a header under one of the names is the entry with this name
  have hget (name : Bytes) (hname : name ∈ headerNames) (value : Bytes)
      (hvalue : headers.find? name = some value) :
      aprTableGet (payloadDecorator (aprTableUnset headers_in OTEL_CORRELATION_HEADER_KEY)
        headers.entries) name = some value := by
    have hsame : ∀ kv ∈ headers.entries, eqIgnoringCase kv.1 name = true → kv.2 = value := by
      intro kv hkv hkey
      have hsome := headers.mem_entries_iff.mp hkv
      rw [headerNames_distinct kv.1 (hnames kv hkv) name hname hkey, hvalue] at hsome
      exact (Option.some.inj hsome).symm
    rw [aprTableGet_payloadDecorator hsame, if_pos]
    exact List.any_eq_true.mpr ⟨(name, value), headers.mem_entries_iff.mpr hvalue,
      decide_eq_true rfl⟩
  have hparent : ∀ name ∈ CARRIER_HEADER_NAME, name ≠ ascii "Parent_Span_Id" := by
    decide +kernel
  refine ⟨fun name hname value hvalue => ?_, fun hmerged name hname hnone => ?_, ?_⟩
  · refine hget name (List.mem_append_left _ hname) value ?_
    rw [hfind name (hparent name hname), if_pos hname, hvalue]
    rfl
  · refine hget name (List.mem_append_left _ hname) [] ?_
    rw [hfind name (hparent name hname), if_pos hname, hnone, hmerged]
    rfl
  · have hother :
        ∀ kv ∈ headers.entries, eqIgnoringCase kv.1 OTEL_CORRELATION_HEADER_KEY ≠ true := by
      have hnot : ∀ name ∈ headerNames, eqIgnoringCase name OTEL_CORRELATION_HEADER_KEY ≠ true := by
        decide +kernel
      exact fun kv hkv => hnot kv.1 (hnames kv hkv)
    have hsame : ∀ kv ∈ headers.entries, eqIgnoringCase kv.1 OTEL_CORRELATION_HEADER_KEY = true →
        kv.2 = [] := fun kv hkv hkey => absurd hkey (hother kv hkv)
    rw [aprTableGet_payloadDecorator hsame, if_neg, aprTableGet_aprTableUnset, if_pos]
    · decide +kernel
    · rw [List.any_eq_true]
      rintro ⟨kv, hkv, hkey⟩
      exact hother kv hkv hkey

/-! ### A stage that begins -/

section

variable {sdk : TenantConfig → Webserver.Sdk} {getSpanName : SpanNamer → Bytes → Bytes}

/-- The interaction that a call with a live handle opens, and the headers that are handed back. -/
theorem startInteraction_serves {a a' : WSAgent} (I : Engines a) {handle : ℕ} {ctx : RequestContext}
    (hlive : a.requests.requests handle = some ctx) {payload : Webserver.InteractionPayload}
    {outcome : WSAgent.Outcome}
    (hstart : a.step sdk getSpanName (.startInteraction (some handle) (some payload) ∅) =
      some (outcome, a')) :
    ∃ ws s, (a.mAgentCore.getRequestProcessor ctx.contextName).2 = some ws ∧
      a'.mAgentCore = a.mAgentCore ∧
      a'.requests.requests = Function.update a.requests.requests handle
        (some { ctx with interactions := s :: ctx.interactions }) ∧
      ∀ headers_in, Carries (sdk ws.mTenantConfig)
        (decorate headers_in ⟨a, .startInteraction (some handle) (some payload) ∅, outcome, a'⟩)
        s.span := by
  obtain ⟨engine, hserved⟩ := I.served handle ctx hlive
  obtain ⟨ws, hws, -⟩ := hserved.context ctx hlive
  have hserve : a.serve sdk getSpanName (some ws)
      (.startInteraction (some handle) (some payload) ∅) = some (outcome, a') := by
    rw [WSAgent.step, WSAgent.serveHandle, Option.bind_some, hlive] at hstart
    exact (congrArg (fun engine : Bytes × Option Webserver.WebServerContext => a.serve sdk
      getSpanName engine.2
      (.startInteraction (some handle) (some payload) ∅)) hws).symm.trans hstart
  obtain ⟨⟨-, -, hcore⟩, ⟨hnone, -⟩ | ⟨ws', o, hsome, rfl, hstep⟩⟩ := WSAgent.serve_spec hserve
  · cases hnone
  obtain rfl : ws = ws' := Option.some.inj hsome
  have hsuccess : o.status = .success :=
    (Webserver.starts_succeed _ hstep).2 handle payload ∅ rfl
  generalize hafter : a'.requests = e' at hstep
  cases Webserver.RequestProcessingEngine.stepped _ _ hstep with
  | failed hfailed => exact absurd hsuccess hfailed
  | @startedInteraction _ _ _ _ _ c created hlive' hcreated =>
    obtain rfl := Option.some.inj (hlive'.symm.trans hlive)
    obtain ⟨scope, hspan, -, hcontext, hentries, -, -⟩ := Webserver.createSpan_client hcreated
    -- the scope of the new span is on top when the headers are made
    have hnew : created.2.contexts.entries.head? = some scope := by
      rw [hentries]
      rfl
    have hcurrent : created.2.contexts.current.span = some (.started created.1.span) := by
      rw [Webserver.current_span _ hnew, hcontext, hspan]
      rfl
    refine ⟨ws, created.1, congrArg Prod.snd hws, hcore, rfl, fun headers_in => ?_⟩
    rw [decorate, Webserver.populatePropagationHeaders, hcurrent]
    dsimp only
    rw [if_pos rfl, if_pos]
    · exact carries_decorated _ _ _ _
    · exact List.ne_nil_of_mem
        ((OrderedMap.mem_entries_iff _).mpr
          (OrderedMap.find?_insert_self _ (ascii "Parent_Span_Id") _))

/-! ### The invariant of runs -/

/-- The engine of a live request keeps its configuration. -/
theorem context_of_run {a a' : WSAgent} {log : Log} (I : Engines a)
    (hrun : Run (WSAgent.step sdk getSpanName) a log a') {handle : ℕ} {ctx : RequestContext}
    (hlive : a.requests.requests handle = some ctx) :
    (a'.mAgentCore.getRequestProcessor ctx.contextName).2 =
      (a.mAgentCore.getRequestProcessor ctx.contextName).2 := by
  obtain ⟨engine, hserved⟩ := I.served handle ctx hlive
  obtain ⟨ws, hws, -⟩ := hserved.context ctx hlive
  obtain ⟨hname, hcontext⟩ := Prod.mk.inj hws
  have hkept : WSAgent.Settled a' ∧ a'.mAgentCore.mWebServerContexts ctx.contextName = some ws := by
    rw [hname] at hcontext
    refine hrun.invariant (fun _ a => WSAgent.Settled a ∧
      a.mAgentCore.mWebServerContexts ctx.contextName = some ws) ⟨I.settled, hcontext⟩ ?_
    rintro ts b call outcome b' ⟨hsettled, hws⟩ hstep
    exact ⟨WSAgent.settled_kept hsettled hstep, WSAgent.context_kept hsettled hstep hws⟩
  have hafter : (a'.mAgentCore.getRequestProcessor ctx.contextName).2 =
      a'.mAgentCore.mWebServerContexts ctx.contextName :=
    congrArg a'.mAgentCore.mWebServerContexts hname
  rw [hafter, hkept.2, hws]

/-- What is so between the hooks. -/
def CarriesOpen (sdk : TenantConfig → Webserver.Sdk) (s : Serving) : Prop :=
  ∀ address handle ctx interaction ws, s.process.notes address = some handle →
    s.process.agent.requests.requests handle = some ctx → interaction ∈ ctx.interactions →
    (s.process.agent.mAgentCore.getRequestProcessor ctx.contextName).2 = some ws →
    Carries (sdk ws.mTenantConfig) (s.headers_in address) interaction.span

/-- Requests that a hook gives no new interaction carry what they did. -/
theorem CarriesOpen.keep {s : Serving} {p : Process} {log : Log} (I : CarriesOpen sdk s)
    (hE : Engines s.process.agent)
    (hrun : Run (WSAgent.step sdk getSpanName) s.process.agent log p.agent)
    (hkept : ∀ address handle ctx, p.notes address = some handle →
      p.agent.requests.requests handle = some ctx → ctx.interactions ≠ [] →
      s.process.notes address = some handle ∧
        ∃ old, s.process.agent.requests.requests handle = some old ∧
        old.contextName = ctx.contextName ∧ ctx.interactions ⊆ old.interactions) :
    CarriesOpen sdk ⟨p, s.headers_in⟩ := by
  intro address handle ctx interaction ws hnotes hlive hmem hws
  obtain ⟨hnotes', old, hold, hname, hsub⟩ :=
    hkept address handle ctx hnotes hlive (List.ne_nil_of_mem hmem)
  refine I address handle old interaction ws hnotes' hold (hsub hmem) ?_
  rw [← context_of_run hE hrun hold, hname]
  exact hws

/-- A request that has open interactions when another one was started had them before. -/
theorem startRequest_kept {a a' : WSAgent} {wscontext : Bytes} {payload : Webserver.RequestPayload}
    {outcome : WSAgent.Outcome}
    (hstart : a.step sdk getSpanName (.startRequest (some wscontext) (some payload) true) =
      some (outcome, a')) {handle : ℕ} {ctx : RequestContext}
    (hlive : a'.requests.requests handle = some ctx) (hopen : ctx.interactions ≠ []) :
    a.requests.requests handle = some ctx ∧ Process.startedHandle outcome ≠ some handle := by
  have hserve : a.serve sdk getSpanName (a.mAgentCore.getRequestProcessor wscontext).2
      (.startRequest (a.mAgentCore.getRequestProcessor wscontext).1 (some payload) true) =
        some (outcome, a') := hstart
  obtain ⟨-, ⟨-, rfl, rfl⟩ | ⟨ws, o, -, rfl, hstep⟩⟩ := WSAgent.serve_spec hserve
  · exact ⟨hlive, nofun⟩
  generalize a'.requests = e' at hlive hstep
  cases Webserver.RequestProcessingEngine.stepped _ _ hstep with
  | failed hfailed =>
    have hnone : Process.startedHandle (.request (some ws.engine) o) = none := if_neg hfailed
    exact ⟨hlive, hnone ▸ nofun⟩
  | startedRequest _ _ _ =>
    rcases Webserver.update_eq_some_iff.mp hlive with ⟨-, hnew⟩ | ⟨hne, hold⟩
    · rw [← Option.some.inj hnew] at hopen
      exact absurd rfl hopen
    · exact ⟨hold, fun hhandle => hne (Option.some.inj hhandle).symm⟩

/-- What `otel_stopInteraction` leaves open was open before. -/
theorem Stopped.kept {a agent : WSAgent} {reqHandle : Option ℕ} {ignoreBackend : Bool} {log : Log}
    (h : Stopped sdk getSpanName a reqHandle ignoreBackend log agent) (I : Engines a)
    (hlive : ∀ handle, reqHandle = some handle → a.requests.requests handle ≠ none) {k : ℕ}
    {ctx : RequestContext} (hctx : agent.requests.requests k = some ctx) :
    ∃ old, a.requests.requests k = some old ∧ old.contextName = ctx.contextName ∧
      ctx.interactions ⊆ old.interactions := by
  cases h with
  | nothing => exact ⟨ctx, hctx, rfl, List.Subset.refl _⟩
  | @ended handle _ payload outcome _ hend =>
    obtain ⟨old, hold⟩ := Option.ne_none_iff_exists'.mp (hlive handle rfl)
    obtain ⟨outcome', a'', hend', hrequests⟩ :=
      WSAgent.endInteraction_live sdk getSpanName I hold ignoreBackend payload
    cases hend.symm.trans hend'
    rw [hrequests] at hctx
    rcases Webserver.update_eq_some_iff.mp hctx with ⟨rfl, hnew⟩ | ⟨-, hsame⟩
    · rw [← Option.some.inj hnew]
      exact ⟨old, hold, rfl, fun _ => List.mem_of_mem_tail⟩
    · exact ⟨ctx, hsame, rfl, List.Subset.refl _⟩

theorem CarriesOpen.step {ts : List HookTransition} {s s' : Serving} {hook : Hook} {log : Log}
    (I : CarriesOpen sdk s) (P : Protocol ts s.process)
    (hrun : Run (WSAgent.step sdk getSpanName) .new (agentLog ts) s.process.agent)
    (hstep : s.step sdk getSpanName hook = some (log, s')) : CarriesOpen sdk s' := by
  obtain ⟨⟨log', p⟩, hprocess, heq⟩ := Option.map_eq_some_iff.mp hstep
  obtain ⟨rfl, rfl⟩ := Prod.mk.inj heq
  have hE := engines hrun
  have hhook := hooked hprocess
  have hlog := hhook.agentRun
  cases hhook with
  | command k d => exact I.keep hE hlog fun address handle ctx hnotes hlive _ =>
      ⟨hnotes, ctx, hlive, rfl, List.Subset.refl _⟩
  | quiet =>
    -- a stage that does not begin an interaction decorates nothing
    cases hook with
    | interactionBegin r _ _ _ _ =>
      have hsame : Function.update s.headers_in r.address (([] : Log).foldl decorate
          (s.headers_in r.address)) = s.headers_in := Function.update_eq_self _ _
      dsimp only
      rw [hsame]
      exact I
    | _ => exact I
  | declined hdeclined =>
    obtain ⟨-, hnotes, hrequests, -⟩ := hdeclined.frame
    refine I.keep hE hlog fun address handle ctx hnotes' hlive _ => ?_
    rw [hnotes] at hnotes'
    rw [hrequests] at hlive
    exact ⟨hnotes', ctx, hlive, rfl, List.Subset.refl _⟩
  | @begun r answers log q wscontext outcome agent hbegun hname hstart =>
    obtain ⟨-, hnotes, hrequests, -⟩ := hbegun.frame
    refine I.keep hE hlog fun address handle ctx hnotes' hlive hopen => ?_
    obtain ⟨hold, hother⟩ := startRequest_kept hstart hlive hopen
    rw [hrequests] at hold
    refine ⟨?_, ctx, hold, rfl, List.Subset.refl _⟩
    dsimp only at hnotes'
    rw [hnotes] at hnotes'
    cases hstarted : Process.startedHandle outcome with
    | none => rwa [hstarted] at hnotes'
    | some k =>
      rw [hstarted, Option.elim_some] at hnotes'
      rcases Webserver.update_eq_some_iff.mp hnotes' with ⟨-, hnew⟩ | ⟨-, hsame⟩
      · exact absurd (hstarted.trans hnew) hother
      · exact hsame
  | ended hended =>
    exact I.keep hE hlog fun address handle ctx hnotes hlive _ =>
      ⟨hnotes, hended.kept hE (P.live _) hlive⟩
  | @started r _ _ _ _ handle payload outcome outcome' a agent hnotes hend hstart =>
    have hmid := hrun.snoc hend
    obtain ⟨old, hold⟩ := Option.ne_none_iff_exists'.mp (P.live _ _ hnotes)
    obtain ⟨-, -, hnil⟩ := endInteraction_call hE P.oneOpen (P.live _ _ hnotes) hend
    obtain ⟨outcome₁, a₁, hend₁, hended⟩ :=
      WSAgent.endInteraction_live sdk getSpanName hE hold _ payload
    cases hend.symm.trans hend₁
    have hlive : a.requests.requests handle =
        some { old with interactions := old.interactions.tail } := by
      rw [hended, Function.update_self]
    obtain ⟨ws, interaction, hws, hcore, hstarted, hcarries⟩ :=
      startInteraction_serves (engines hmid) hlive hstart
    intro address handle' ctx interaction' ws' hnotes' hlive' hmem hws'
    by_cases haddress : address = r.address
    · subst haddress
      obtain rfl := Option.some.inj (hnotes.symm.trans hnotes')
      dsimp only at hlive' hws'
      rw [hstarted, Function.update_self] at hlive'
      obtain rfl := Option.some.inj hlive'
      rw [hnil _ hlive, List.mem_singleton] at hmem
      rw [hcore, hws] at hws'
      obtain rfl := Option.some.inj hws'
      dsimp only
      rw [Function.update_self, hmem]
      exact hcarries _
    · have hne : handle' ≠ handle := by
        rintro rfl
        exact haddress (P.injective _ _ _ hnotes' hnotes)
      dsimp only at hlive' hws' ⊢
      rw [hstarted, Function.update_of_ne hne, hended, Function.update_of_ne hne] at hlive'
      rw [Function.update_of_ne haddress]
      refine I address handle' ctx interaction' ws' hnotes' hlive' hmem ?_
      rw [← context_of_run hE hlog hlive']
      exact hws'
  | @logged r log handle a error payload outcome agent hnotes hstopped hend =>
    refine I.keep hE hlog fun address handle' ctx hnotes' hlive _ => ?_
    rcases Webserver.update_eq_some_iff.mp hnotes' with ⟨-, hnone⟩ | ⟨-, hsame⟩
    · cases hnone
    refine ⟨hsame, hstopped.kept hE (fun k hk => Option.some.inj hk ▸ P.live _ _ hnotes) ?_⟩
    have hE' := engines (hrun.append hstopped.agentRun)
    obtain ⟨-, -, hkept, -⟩ :=
      hstopped.frame hE P.oneOpen fun k hk => Option.some.inj hk ▸ P.live _ _ hnotes
    obtain ⟨old, hold⟩ := Option.ne_none_iff_exists'.mp (hkept _ (P.live _ _ hnotes))
    obtain ⟨outcome₁, a₁, hend₁, hrequests⟩ :=
      WSAgent.endRequest_live sdk getSpanName hE' hold error (some payload)
    cases hend.symm.trans hend₁
    rw [hrequests] at hlive
    rcases Webserver.update_eq_some_iff.mp hlive with ⟨-, hnone⟩ | ⟨-, hctx⟩
    · cases hnone
    · exact hctx

variable {dirspec : ℕ → Bytes} {headers_in : ℕ → AprTable} {ts : List (Transition Serving Hook Log)}
  {s : Serving}

/-- A run with headers is a run of the process. -/
theorem carriesOpen (hrun : Run (Serving.step sdk getSpanName) ⟨.new dirspec, headers_in⟩ ts s) :
    CarriesOpen sdk s := by
  refine (hrun.invariant (fun _ s => (∃ ts,
    Run (Process.step sdk getSpanName) (.new dirspec) ts s.process) ∧
    CarriesOpen sdk s) ⟨⟨[], .nil⟩, fun _ _ _ _ _ hnotes => by cases hnotes⟩ ?_).2
  rintro _ s hook log s' ⟨⟨ts, hprocess⟩, I⟩ hstep
  refine ⟨?_, I.step (protocol hprocess) (agentRun hprocess) hstep⟩
  obtain ⟨⟨log', p⟩, hp, heq⟩ := Option.map_eq_some_iff.mp hstep
  obtain ⟨rfl, rfl⟩ := Prod.mk.inj heq
  exact ⟨_, hprocess.snoc hp⟩

/-- In every run of hooks the inbound headers of a request with an open interaction carry the
span of this interaction, whatever other requests and earlier stages left. -/
theorem headers_of_open (hrun : Run (Serving.step sdk getSpanName) ⟨.new dirspec, headers_in⟩ ts s)
    {address handle : ℕ} {ctx : RequestContext} {interaction : Webserver.IScopedSpan}
    {ws : Webserver.WebServerContext} (hnotes : s.process.notes address = some handle)
    (hlive : s.process.agent.requests.requests handle = some ctx)
    (hopen : interaction ∈ ctx.interactions)
    (hws : (s.process.agent.mAgentCore.getRequestProcessor ctx.contextName).2 = some ws) :
    Carries (sdk ws.mTenantConfig) (s.headers_in address) interaction.span :=
  carriesOpen hrun address handle ctx interaction ws hnotes hlive hopen hws

/-- The headers of a request are as they came in until one of its own stages begins. -/
theorem headers_of_other (hrun : Run (Serving.step sdk getSpanName) ⟨.new dirspec, headers_in⟩ ts s)
    (address : ℕ) (hother : ∀ t ∈ ts, t.call.request? ≠ some address) :
    s.headers_in address = headers_in address := by
  induction hrun with
  | nil => rfl
  | @snoc ts s s' hook log hrun hstep ih =>
    refine Eq.trans ?_ (ih fun t ht => hother t (List.mem_append_left _ ht))
    have hhook := hother _ (List.mem_append_right ts List.mem_cons_self)
    obtain ⟨⟨log', p⟩, hp, heq⟩ := Option.map_eq_some_iff.mp hstep
    obtain ⟨rfl, rfl⟩ := Prod.mk.inj heq
    cases hook with
    | interactionBegin r _ _ _ _ =>
      exact Function.update_of_ne (fun h => hhook (congrArg some h.symm)) _ _
    | _ => rfl

end

/-! ### Two requests -/

/-- Two requests whose stages take turns. -/
def twoRequests : List Hook :=
  sampleSection ++
    [.headerParserBegin (sampleRequest 4 [0]) (sampleAnswers [sampleTriple]),
      .interactionBegin (sampleRequest 4 [0]) (ascii "mod_auth") (ascii "fixups") true false,
      .headerParserBegin (sampleRequest 5 [0]) (sampleAnswers [sampleTriple]),
      .interactionBegin (sampleRequest 4 [0]) (ascii "mod_php") (ascii "handler") true false,
      .interactionBegin (sampleRequest 5 [0]) (ascii "mod_php") (ascii "handler") true false]

/-- Whether a request has this open interaction, and a context. -/
def hasOpen (s : Serving) (address span : ℕ) : Bool :=
  ((s.process.notes address).bind s.process.agent.requests.requests).any fun ctx =>
    ctx.interactions.map Webserver.IScopedSpan.span = [span] &&
      (s.process.agent.mAgentCore.getRequestProcessor ctx.contextName).2.isSome

theorem headers_of_open_sample : ∃ ts s,
    Run (Serving.step (fun _ => Webserver.sampleSdk) fun _ uri => uri)
      ⟨.new fun _ => [], fun _ => []⟩ ts s ∧
      Carries Webserver.sampleSdk (s.headers_in 4) 3 ∧
        Carries Webserver.sampleSdk (s.headers_in 5) 4 := by
  have hchecked : (Run.ofCalls (Serving.step (fun _ => Webserver.sampleSdk) fun _ uri => uri)
      ⟨.new fun _ => [], fun _ => []⟩ twoRequests).any (fun r =>
        hasOpen r.2 4 3 && hasOpen r.2 5 4) = true := by
    decide +kernel
  obtain ⟨ts, s, hrun, hchecked⟩ := Run.exists_of_any hchecked
  have hcarries (address span : ℕ) (hopen : hasOpen s address span = true) :
      Carries Webserver.sampleSdk (s.headers_in address) span := by
    obtain ⟨ctx, hctx, hopen⟩ := (Option.any_eq_true _ _).mp hopen
    obtain ⟨handle, hnotes, hlive⟩ := Option.bind_eq_some_iff.mp hctx
    obtain ⟨hspans, hws⟩ := Bool.and_eq_true_iff.mp hopen
    obtain ⟨ws, hws⟩ := Option.isSome_iff_exists.mp hws
    obtain ⟨interaction, hinteractions, hspan⟩ :=
      List.map_eq_singleton_iff.mp (of_decide_eq_true hspans)
    have hmem : interaction ∈ ctx.interactions := hinteractions ▸ List.mem_cons_self
    exact hspan ▸ headers_of_open hrun hnotes hlive hmem hws
  obtain ⟨hfour, hfive⟩ := Bool.and_eq_true_iff.mp hchecked
  exact ⟨ts, s, hrun, hcarries 4 3 hfour, hcarries 5 4 hfive⟩

end Apache
