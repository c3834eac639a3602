/-
The protocol of the Apache hooks.

The hooks of the stages are registered one by one, and any of them may be left out or
called again; `Protocol` is what holds after every run of hooks all the same: no
request has more than one open interaction, a handle in the notes is live and in the
notes of one request only, and what was opened in the hooks of a request belongs to
the handle in its notes or has been ended.

* `hook_protocol` — when the log hook of a request returns, everything that was opened
  in its hooks has been ended once, and its handle is not used again.
-/
import OtelContrib.Apache.Hooks

open Webserver (WSAgent InitAnswers RequestContext TenantConfig SpanNamer Sdk Accounted requestSpans
  created)
open Webserver.WSAgent (Engines engineTransition engines accounted_requests)

namespace Apache

/-! ### What is opened for a request -/

/-- The request that a hook is called for. -/
def Hook.request? : Hook → Option ℕ
  | .command _ _ => none
  | .headerParserBegin r _ => some r.address
  | .interactionBegin r _ _ _ _ => some r.address
  | .interactionEnd r _ _ => some r.address
  | .logTransactionEnd r => some r.address

/-- Whether a hook is the begin hook of a request. -/
def Hook.begins (r : ℕ) : Hook → Bool
  | .headerParserBegin r' _ => r'.address = r
  | _ => false

/-- The spans that came into being in some calls of the agent. -/
def openedIn (log : Log) : List ℕ := (log.filterMap engineTransition).flatMap created

/-- The spans that were opened in the hooks of a request. -/
def spansFor (r : ℕ) (ts : List HookTransition) : List ℕ :=
  ts.flatMap fun t => if t.call.request? = some r then openedIn t.outcome else []

/-- How often the begin hook of a request was called. -/
def begins (r : ℕ) (ts : List HookTransition) : ℕ := ts.countP fun t => t.call.begins r

/-- No request has more than one open interaction. -/
def OneOpen (a : WSAgent) : Prop :=
  ∀ handle ctx, a.requests.requests handle = some ctx → ctx.interactions.length ≤ 1

/-- What the engines did in a run of hooks. -/
def engineLog (ts : List HookTransition) : List Webserver.CallTransition :=
  (agentLog ts).filterMap engineTransition

theorem engineLog_snoc (ts : List HookTransition) (t : HookTransition) :
    engineLog (ts ++ [t]) = engineLog ts ++ t.outcome.filterMap engineTransition := by
  rw [engineLog, engineLog, agentLog_snoc, List.filterMap_append]

theorem spansFor_snoc (r : ℕ) (ts : List HookTransition) (t : HookTransition) :
    spansFor r (ts ++ [t]) =
      spansFor r ts ++ if t.call.request? = some r then openedIn t.outcome else [] := by
  rw [spansFor, spansFor, List.flatMap_append, List.flatMap_singleton]

theorem begins_snoc (r : ℕ) (ts : List HookTransition) (t : HookTransition) :
    begins r (ts ++ [t]) = begins r ts + if t.call.begins r then 1 else 0 := by
  rw [begins, begins, List.countP_append, List.countP_singleton]

theorem mem_requestSpans_append {handle n : ℕ} {ts ts' : List Webserver.CallTransition} :
    n ∈ requestSpans handle (ts ++ ts') ↔
      n ∈ requestSpans handle ts ∨ n ∈ requestSpans handle ts' := by
  simp only [requestSpans, Webserver.rootSpans, Webserver.interactionSpans, List.flatMap_append,
    List.mem_append]
  exact or_or_or_comm

section

variable {sdk : TenantConfig → Sdk} {getSpanName : SpanNamer → Bytes → Bytes} {p p' : Process}

/-! ### Calls that serve no request -/

theorem Initialised.frame {r : RequestRec} {b : Bool} {log : Log}
    (h : Initialised sdk getSpanName p r b log p') :
    Run (WSAgent.step sdk getSpanName) p.agent log p'.agent ∧ p'.notes = p.notes ∧
      p'.agent.requests = p.agent.requests ∧ log.filterMap engineTransition = [] ∧
      (∀ t ∈ log, t.after.requests = p.agent.requests) ∧
      (∀ cfg, p'.processConfig = some cfg →
        p.processConfig = some cfg ∨ cfg.otelEnabled.value = 1) ∧
      (p.processConfig ≠ none ∨ b = true → p'.processConfig ≠ none) := by
  cases h with
  | @already cfg hstored =>
    refine ⟨.nil, rfl, rfl, rfl, by simp, fun _ => .inl, fun _ => ?_⟩
    rw [hstored]
    exact Option.some_ne_none cfg
  | refused hnone =>
    exact ⟨.nil, rfl, rfl, rfl, by simp, fun _ => .inl, fun h => h.elim id (by rintro ⟨⟩)⟩
  | @attempted cfg log a answers outcome agent hnone hcfg henabled hadded hcontexts hinit =>
    have hrun := hadded.snoc hinit
    obtain ⟨hrequests, hfilter, hafter⟩ := WSAgent.requests_of_registering hrun (by
      intro t ht b
      rcases List.mem_append.mp ht with ht | ht
      · have hcall := List.mem_map_of_mem (f := Transition.call) ht
        rw [hcontexts] at hcall
        obtain ⟨e, -, hcall⟩ := List.mem_map.mp hcall
        rw [← hcall]
        rfl
      · rw [List.mem_singleton.mp ht]
        rfl)
    refine ⟨hrun, rfl, hrequests, hfilter, hafter, ?_, ?_⟩
    · intro cfg' hcfg'
      dsimp only at hcfg'
      split at hcfg'
      · cases hcfg'
        exact .inr henabled
      · cases hcfg'
    · rintro (hsome | hsucceeded)
      · exact absurd hnone hsome
      · simp [hsucceeded]

/-! ### Calls that serve a request -/

section

variable {a a' : WSAgent} {outcome : WSAgent.Outcome} {handle : ℕ}

theorem OneOpen.update (hone : OneOpen a) {r : Option RequestContext}
    (hrequests : a'.requests.requests = Function.update a.requests.requests handle r)
    (hr : ∀ ctx, r = some ctx → ctx.interactions.length ≤ 1) : OneOpen a' := by
  intro k ctx hk
  rw [hrequests] at hk
  rcases Webserver.update_eq_some_iff.mp hk with ⟨-, hnew⟩ | ⟨-, hold⟩
  · exact hr ctx hnew
  · exact hone k ctx hold

theorem live_update {requests : ℕ → Option RequestContext} {ctx : RequestContext} {k : ℕ}
    (hk : requests k ≠ none) : Function.update requests handle (some ctx) k ≠ none := by
  by_cases hkh : k = handle
  · subst hkh
    rw [Function.update_self]
    exact Option.some_ne_none ctx
  · rwa [Function.update_of_ne hkh]

theorem openedIn_ending {call : WSAgent.Call}
    (h : a.step sdk getSpanName call = some (outcome, a'))
    (hcall : (∃ reqHandle ignoreBackend payload,
        call = .endInteraction reqHandle ignoreBackend payload) ∨
      ∃ reqHandle error payload, call = .endRequest reqHandle error payload) :
    openedIn [⟨a, call, outcome, a'⟩] = [] := by
  rcases WSAgent.madeByEngine h with ⟨hnone, -⟩ | ⟨ws, engineCall, o, rfl, hsome, hstep⟩
  · rw [openedIn, List.filterMap_cons, hnone]
    rfl
  · rw [openedIn, List.filterMap_cons, hsome, List.filterMap_nil, List.flatMap_singleton]
    refine Webserver.RequestProcessingEngine.created_nil hstep ?_
    rcases hcall with ⟨_, _, _, rfl⟩ | ⟨_, _, _, rfl⟩
    · cases hsome
      exact .inl ⟨_, _, _, rfl⟩
    · cases hsome
      exact .inr ⟨_, _, _, rfl⟩

/-- `endInteraction` leaves nothing open where there was one interaction at most. -/
theorem endInteraction_call (I : Engines a) (hone : OneOpen a)
    (hlive : a.requests.requests handle ≠ none)
    {ignoreBackend : Bool} {payload : Webserver.EndInteractionPayload}
    (hend : a.step sdk getSpanName (.endInteraction (some handle) ignoreBackend (some payload)) =
      some (outcome, a')) :
    OneOpen a' ∧ (∀ k, a.requests.requests k ≠ none → a'.requests.requests k ≠ none) ∧
      ∀ ctx, a'.requests.requests handle = some ctx → ctx.interactions = [] := by
  obtain ⟨ctx, hctx⟩ := Option.ne_none_iff_exists'.mp hlive
  obtain ⟨outcome', a'', hend', hrequests⟩ :=
    WSAgent.endInteraction_live sdk getSpanName I hctx ignoreBackend payload
  cases hend.symm.trans hend'
  have hnil : ctx.interactions.tail = [] := by
    have hlength := hone handle ctx hctx
    rw [← List.length_eq_zero_iff, List.length_tail]
    omega
  refine ⟨hone.update hrequests ?_, fun k hk => hrequests ▸ live_update hk, ?_⟩
  · rintro ctx' ⟨⟩
    simp [hnil]
  · intro ctx' hctx'
    rw [hrequests, Function.update_self] at hctx'
    cases hctx'
    exact hnil

theorem startInteraction_call (I : Engines a) (hone : OneOpen a)
    (hlive : a.requests.requests handle ≠ none)
    (hnil : ∀ ctx, a.requests.requests handle = some ctx → ctx.interactions = [])
    {payload : Webserver.InteractionPayload} {headers : Webserver.Carrier}
    (hstart : a.step sdk getSpanName (.startInteraction (some handle) (some payload) headers) =
      some (outcome, a')) :
    OneOpen a' ∧ (∀ k, a.requests.requests k ≠ none → a'.requests.requests k ≠ none) ∧
      ∀ n ∈ openedIn [⟨a, .startInteraction (some handle) (some payload) headers, outcome, a'⟩],
        n ∈ requestSpans handle ([(⟨a, .startInteraction (some handle) (some payload) headers,
          outcome, a'⟩ : WSAgent.CallTransition)].filterMap engineTransition) := by
  obtain ⟨ctx, hctx⟩ := Option.ne_none_iff_exists'.mp hlive
  obtain ⟨outcome', a'', s, hstart', hrequests⟩ :=
    WSAgent.startInteraction_live sdk getSpanName I hctx payload headers
  cases hstart.symm.trans hstart'
  refine ⟨hone.update hrequests ?_, fun k hk => hrequests ▸ live_update hk, ?_⟩
  · rintro ctx' ⟨⟩
    simp [hnil ctx hctx]
  · intro n hn
    rcases WSAgent.madeByEngine hstart with ⟨hnone, -⟩ | ⟨ws, engineCall, o, rfl, hsome, -⟩
    · rw [openedIn, List.filterMap_cons, hnone] at hn
      cases hn
    · rw [openedIn, List.filterMap_cons, hsome] at hn
      rw [List.filterMap_cons, hsome, requestSpans]
      cases hsome
      refine List.mem_append_right _ ?_
      simpa [Webserver.interactionSpans] using hn

/-- `startRequest` hands out a handle that was not live, or changes nothing. -/
theorem startRequest_call {ts : List Webserver.CallTransition} (A : Accounted ts a.requests)
    (hone : OneOpen a) {wscontext : Bytes} {payload : Webserver.RequestPayload}
    (hstart : a.step sdk getSpanName (.startRequest (some wscontext) (some payload) true) =
      some (outcome, a')) :
    OneOpen a' ∧ (∀ k, a.requests.requests k ≠ none → a'.requests.requests k ≠ none) ∧
      (∀ k, Process.startedHandle outcome = some k →
        a.requests.requests k = none ∧ a'.requests.requests k ≠ none) ∧
      ∀ n ∈ openedIn [⟨a, .startRequest (some wscontext) (some payload) true, outcome, a'⟩],
        ∃ k, Process.startedHandle outcome = some k ∧
          n ∈ requestSpans k ([(⟨a, .startRequest (some wscontext) (some payload) true, outcome,
            a'⟩ : WSAgent.CallTransition)].filterMap engineTransition) := by
  have hserve : a.serve sdk getSpanName (a.mAgentCore.getRequestProcessor wscontext).2
      (.startRequest (a.mAgentCore.getRequestProcessor wscontext).1 (some payload) true) =
        some (outcome, a') := hstart
  obtain ⟨-, ⟨-, rfl, rfl⟩ | ⟨ws, o, -, rfl, hstep⟩⟩ := WSAgent.serve_spec hserve
  · exact ⟨hone, fun _ => id, by rintro k ⟨⟩, by rintro n ⟨⟩⟩
  have hopened : openedIn [(⟨a, .startRequest (some wscontext) (some payload) true,
      .request (some ws.engine) o, a'⟩ : WSAgent.CallTransition)] =
        created ⟨a.requests, .startRequest (a.mAgentCore.getRequestProcessor wscontext).1
          (some payload) true, o, a'.requests⟩ := List.append_nil _
  rw [hopened]
  generalize hafter : a'.requests = e' at hstep ⊢
  cases Webserver.RequestProcessingEngine.stepped _ _ hstep with
  | failed hfailed =>
    have hnone : Process.startedHandle (.request (some ws.engine) o) = none := if_neg hfailed
    have hcreated := Webserver.created_of_length_eq
      (t := ⟨a.requests, .startRequest (a.mAgentCore.getRequestProcessor wscontext).1
        (some payload) true, o, a.requests⟩) rfl
    refine ⟨fun k ctx hk => hone k ctx (hafter ▸ hk), fun _ => id, ?_, ?_⟩
    · intro k hk
      exact absurd (hnone.symm.trans hk) (Option.some_ne_none k).symm
    · rw [hcreated]
      simp
  | startedRequest _ _ _ =>
    refine ⟨hone.update (congrArg _ hafter) ?_, fun k hk => live_update hk, ?_, ?_⟩
    · rintro ctx ⟨⟩
      exact Nat.zero_le 1
    · rintro k ⟨⟩
      refine ⟨(A.fresh _ (Nat.le_refl _)).1, ?_⟩
      dsimp only
      rw [Function.update_self]
      exact Option.some_ne_none _
    · intro n hn
      refine ⟨a.requests.nextHandle, rfl, List.mem_append_left _ ?_⟩
      rw [Webserver.rootSpans, List.filterMap_cons, engineTransition, hafter]
      simpa [WSAgent.engineCall] using hn

theorem endRequest_call (I : Engines a) (hone : OneOpen a)
    (hlive : a.requests.requests handle ≠ none)
    {error : Option Bytes} {payload : Option Webserver.ResponsePayload}
    (hend : a.step sdk getSpanName (.endRequest (some handle) error payload) = some (outcome, a')) :
    OneOpen a' ∧
      (∀ k, k ≠ handle → a.requests.requests k ≠ none → a'.requests.requests k ≠ none) ∧
      a'.requests.requests handle = none := by
  obtain ⟨ctx, hctx⟩ := Option.ne_none_iff_exists'.mp hlive
  obtain ⟨outcome', a'', hend', hrequests⟩ :=
    WSAgent.endRequest_live sdk getSpanName I hctx error payload
  cases hend.symm.trans hend'
  refine ⟨hone.update hrequests (by rintro ctx' ⟨⟩), fun k hk hk' => ?_, ?_⟩
  · rwa [hrequests, Function.update_of_ne hk]
  · rw [hrequests, Function.update_self]

theorem mem_ended_of_run {log : Log} (hrun : Run (WSAgent.step sdk getSpanName) a log a') {n : ℕ}
    (hn : n ∈ a.requests.tracer.ended) : n ∈ a'.requests.tracer.ended := by
  induction hrun with
  | nil => exact hn
  | snoc _ hstep ih => exact WSAgent.mem_ended hstep ih

end

/-- `otel_stopInteraction` opens nothing, and leaves at most one interaction open. -/
theorem Stopped.frame {a agent : WSAgent} {reqHandle : Option ℕ} {ignoreBackend : Bool} {log : Log}
    (h : Stopped sdk getSpanName a reqHandle ignoreBackend log agent) (I : Engines a)
    (hone : OneOpen a)
    (hlive : ∀ handle, reqHandle = some handle → a.requests.requests handle ≠ none) :
    OneOpen agent ∧ (∀ t ∈ log, OneOpen t.after) ∧
      (∀ k, a.requests.requests k ≠ none → agent.requests.requests k ≠ none) ∧
        openedIn log = [] := by
  cases h with
  | nothing => exact ⟨hone, by simp, fun _ => id, rfl⟩
  | @ended handle _ payload outcome _ hend =>
    obtain ⟨hone', hkept, -⟩ := endInteraction_call I hone (hlive handle rfl) hend
    refine ⟨hone', List.forall_mem_singleton.mpr hone', hkept, ?_⟩
    exact openedIn_ending hend (.inl ⟨_, _, _, rfl⟩)

/-- Where the log hook ends a request, it opens nothing and the handle is given back. -/
theorem Stopped.logged {ts : List WSAgent.CallTransition} {a b agent : WSAgent} {handle : ℕ}
    {log : Log}
    {error : Option Bytes} {payload : Webserver.ResponsePayload} {outcome : WSAgent.Outcome}
    (hrun : Run (WSAgent.step sdk getSpanName) .new ts a) (hone : OneOpen a)
    (hlive : a.requests.requests handle ≠ none)
    (h : Stopped sdk getSpanName a (some handle) false log b)
    (hend : b.step sdk getSpanName (.endRequest (some handle) error (some payload)) =
      some (outcome, agent)) :
    (∀ t ∈ log ++ [(⟨b, .endRequest (some handle) error (some payload), outcome, agent⟩ :
        WSAgent.CallTransition)], OneOpen t.after) ∧ OneOpen agent ∧
      (∀ k, k ≠ handle → a.requests.requests k ≠ none → agent.requests.requests k ≠ none) ∧
      (handle < agent.requests.nextHandle ∧ agent.requests.requests handle = none) ∧
      openedIn (log ++ [⟨b, .endRequest (some handle) error (some payload), outcome, agent⟩]) =
        [] := by
  obtain ⟨hone', hopens, hkept, hopened⟩ :=
    h.frame (engines hrun) hone (fun k hk => Option.some.inj hk ▸ hlive)
  have hE := engines (hrun.append h.agentRun)
  obtain ⟨hone'', hkept', hdead⟩ := endRequest_call hE hone' (hkept _ hlive) hend
  refine ⟨?_, hone'', fun k hk h => hkept' k hk (hkept k h), ⟨?_, hdead⟩, ?_⟩
  · exact List.forall_mem_append.mpr ⟨hopens, List.forall_mem_singleton.mpr hone''⟩
  · obtain ⟨ctx, hctx⟩ := Option.ne_none_iff_exists'.mp (hkept _ hlive)
    obtain ⟨engine, hserved⟩ := hE.served handle ctx hctx
    exact (WSAgent.servedBy_kept hserved hend).lt
  · have hnone := openedIn_ending hend (.inr ⟨_, _, _, rfl⟩)
    rw [openedIn] at hopened hnone
    rw [openedIn, List.filterMap_append, List.flatMap_append, hopened, hnone]
    rfl

/-! ### The invariant of runs -/

/-- What holds after every run of hooks. -/
structure Protocol (ts : List HookTransition) (p : Process) : Prop where
  opens : ∀ t ∈ agentLog ts, OneOpen t.after
  oneOpen : OneOpen p.agent
  live : ∀ r handle, p.notes r = some handle → p.agent.requests.requests handle ≠ none
  injective : ∀ r r' handle, p.notes r = some handle → p.notes r' = some handle → r = r'
  enabled : ∀ cfg, p.processConfig = some cfg → cfg.otelEnabled.value = 1
  stored : ∀ r handle, p.notes r = some handle → p.processConfig ≠ none
  opened : ∀ r, begins r ts ≤ 1 → ∀ n ∈ spansFor r ts,
    (∃ handle, p.notes r = some handle ∧ n ∈ requestSpans handle (engineLog ts)) ∨
      n ∈ p.agent.requests.tracer.ended
  fresh : ∀ r, begins r ts = 0 → p.notes r = none ∧ spansFor r ts = []

section

variable {ts : List HookTransition} {hook : Hook} {log : Log}

theorem protocol_new (dirspec : ℕ → Bytes) : Protocol [] (.new dirspec) where
  opens := by simp [agentLog]
  oneOpen := by simp [OneOpen, Process.new, WSAgent.new, Webserver.RequestProcessingEngine.init]
  live := by simp [Process.new]
  injective := by simp [Process.new]
  enabled := by simp [Process.new]
  stored := by simp [Process.new]
  opened := by simp [spansFor]
  fresh _ _ := ⟨rfl, rfl⟩

theorem begins_le (r : ℕ) (ts : List HookTransition) (t : HookTransition) :
    begins r ts ≤ begins r (ts ++ [t]) := by
  rw [begins_snoc]
  exact Nat.le_add_right _ _

/-- A hook that leaves the notes alone and opens spans only for the handle that is there. -/
theorem Protocol.keep (I : Protocol ts p)
    (hrun : Run (WSAgent.step sdk getSpanName) p.agent log p'.agent)
    (hopens : ∀ t ∈ log, OneOpen t.after) (hone : OneOpen p'.agent) (hnotes : p'.notes = p.notes)
    (hlive : ∀ k, p.agent.requests.requests k ≠ none → p'.agent.requests.requests k ≠ none)
    (hconfig : ∀ cfg, p'.processConfig = some cfg →
      p.processConfig = some cfg ∨ cfg.otelEnabled.value = 1)
    (hstored : p.processConfig ≠ none → p'.processConfig ≠ none)
    (hopened : ∀ n ∈ openedIn log, ∃ r handle, hook.request? = some r ∧ p.notes r = some handle ∧
      n ∈ requestSpans handle (log.filterMap engineTransition)) :
    Protocol (ts ++ [⟨p, hook, log, p'⟩]) p' where
  opens := by
    rw [agentLog_snoc]
    exact List.forall_mem_append.mpr ⟨I.opens, hopens⟩
  oneOpen := hone
  live r handle hr := hlive handle (I.live r handle (hnotes ▸ hr))
  injective r r' handle := hnotes ▸ I.injective r r' handle
  enabled cfg hcfg := (hconfig cfg hcfg).elim (I.enabled cfg) id
  stored r handle hr := hstored (I.stored r handle (hnotes ▸ hr))
  opened r hbegins n hn := by
    rw [spansFor_snoc, List.mem_append] at hn
    rw [engineLog_snoc, hnotes]
    rcases hn with hn | hn
    · rcases I.opened r (Nat.le_trans (begins_le r ts _) hbegins) n hn with
        ⟨handle, hr, hmem⟩ | hmem
      · exact .inl ⟨handle, hr, mem_requestSpans_append.mpr (.inl hmem)⟩
      · exact .inr (mem_ended_of_run hrun hmem)
    · split at hn
      next hr =>
        obtain ⟨r', handle, hr', hhandle, hmem⟩ := hopened n hn
        obtain rfl := Option.some.inj (hr.symm.trans hr')
        exact .inl ⟨handle, hhandle, mem_requestSpans_append.mpr (.inr hmem)⟩
      next => cases hn
  fresh r hbegins := by
    obtain ⟨hr, hspans⟩ := I.fresh r (Nat.eq_zero_of_le_zero (hbegins ▸ begins_le r ts _))
    refine ⟨hnotes ▸ hr, ?_⟩
    rw [spansFor_snoc, hspans, List.nil_append]
    split
    next hhook =>
      rw [List.eq_nil_iff_forall_not_mem]
      intro n hn
      obtain ⟨r', handle, hr', hhandle, -⟩ := hopened n hn
      obtain rfl := Option.some.inj (hhook.symm.trans hr')
      rw [hr] at hhandle
      cases hhandle
    next => rfl

/-- The begin hook that stores a new handle. -/
theorem Protocol.begin (I : Protocol ts p) {r : RequestRec} {answers : InitAnswers} {handle : ℕ}
    (hrun : Run (WSAgent.step sdk getSpanName) p.agent log p'.agent)
    (hopens : ∀ t ∈ log, OneOpen t.after) (hone : OneOpen p'.agent)
    (hnotes : p'.notes = Function.update p.notes r.address (some handle))
    (hlive : ∀ k, p.agent.requests.requests k ≠ none → p'.agent.requests.requests k ≠ none)
    (hconfig : ∀ cfg, p'.processConfig = some cfg →
      p.processConfig = some cfg ∨ cfg.otelEnabled.value = 1)
    (hstored : p'.processConfig ≠ none) (hnew : p.agent.requests.requests handle = none)
    (hhandle : p'.agent.requests.requests handle ≠ none)
    (hopened : ∀ n ∈ openedIn log, n ∈ requestSpans handle (log.filterMap engineTransition)) :
    Protocol (ts ++ [⟨p, .headerParserBegin r answers, log, p'⟩]) p' where
  opens := by
    rw [agentLog_snoc]
    exact List.forall_mem_append.mpr ⟨I.opens, hopens⟩
  oneOpen := hone
  live r' handle' hr' := by
    rw [hnotes] at hr'
    rcases Webserver.update_eq_some_iff.mp hr' with ⟨-, hset⟩ | ⟨-, hold⟩
    · exact Option.some.inj hset ▸ hhandle
    · exact hlive handle' (I.live r' handle' hold)
  injective := by
    -- the new handle is in no other notes, since those are live
    have hother : ∀ r', p.notes r' ≠ some handle := fun r' hr' => I.live r' handle hr' hnew
    intro r₁ r₂ handle' h₁ h₂
    rw [hnotes, Function.update_apply] at h₁ h₂
    split at h₁
    next heq₁ =>
      split at h₂
      next heq₂ => exact heq₁.trans heq₂.symm
      next => exact absurd (h₂.trans h₁.symm) (hother r₂)
    next =>
      split at h₂
      next => exact absurd (h₁.trans h₂.symm) (hother r₁)
      next => exact I.injective r₁ r₂ handle' h₁ h₂
  enabled cfg hcfg := (hconfig cfg hcfg).elim (I.enabled cfg) id
  stored _ _ _ := hstored
  opened r' hbegins n hn := by
    rw [spansFor_snoc, List.mem_append] at hn
    rw [engineLog_snoc, hnotes]
    by_cases heq : r' = r.address
    · subst heq
      -- nothing was opened for the request before its only begin
      have hzero : begins r.address ts = 0 := by
        rw [begins_snoc] at hbegins
        simp only [Hook.begins, decide_true, if_true] at hbegins
        omega
      rw [(I.fresh r.address hzero).2, Function.update_self] at *
      rcases hn with hn | hn
      · cases hn
      · split at hn
        · exact .inl ⟨handle, rfl, mem_requestSpans_append.mpr (.inr (hopened n hn))⟩
        · cases hn
    · rw [Function.update_of_ne heq]
      have hhook : Hook.request? (.headerParserBegin r answers) ≠ some r' :=
        fun h => heq (Option.some.inj h).symm
      rw [if_neg hhook] at hn
      rcases hn with hn | hn
      · rcases I.opened r' (Nat.le_trans (begins_le r' ts _) hbegins) n hn with
          ⟨handle', hr', hmem⟩ | hmem
        · exact .inl ⟨handle', hr', mem_requestSpans_append.mpr (.inl hmem)⟩
        · exact .inr (mem_ended_of_run hrun hmem)
      · cases hn
  fresh r' hbegins := by
    rw [begins_snoc] at hbegins
    have heq : r' ≠ r.address := by
      rintro rfl
      simp [Hook.begins] at hbegins
    obtain ⟨hr', hspans⟩ := I.fresh r' (by omega)
    refine ⟨?_, ?_⟩
    · rwa [hnotes, Function.update_of_ne heq]
    · rw [spansFor_snoc, hspans, List.nil_append]
      exact if_neg fun h => heq (Option.some.inj h).symm

/-- The log hook that ends a request. -/
theorem Protocol.close (I : Protocol ts p) {r : RequestRec} {handle : ℕ}
    (hrun : Run (WSAgent.step sdk getSpanName) p.agent log p'.agent)
    (A : Accounted (engineLog (ts ++ [⟨p, .logTransactionEnd r, log, p'⟩])) p'.agent.requests)
    (hopens : ∀ t ∈ log, OneOpen t.after) (hone : OneOpen p'.agent)
    (hhandle : p.notes r.address = some handle)
    (hnotes : p'.notes = Function.update p.notes r.address none)
    (hlive : ∀ k, k ≠ handle → p.agent.requests.requests k ≠ none →
      p'.agent.requests.requests k ≠ none)
    (hdead : p'.agent.requests.requests handle = none)
    (hconfig : p'.processConfig = p.processConfig) (hopened : openedIn log = []) :
    Protocol (ts ++ [⟨p, .logTransactionEnd r, log, p'⟩]) p' := by
  have hkept : ∀ r' handle', p'.notes r' = some handle' →
      r' ≠ r.address ∧ p.notes r' = some handle' := by
    intro r' handle' hr'
    rw [hnotes, Function.update_apply] at hr'
    split at hr'
    next => cases hr'
    next hne => exact ⟨hne, hr'⟩
  have hspans : ∀ r', spansFor r' (ts ++ [⟨p, .logTransactionEnd r, log, p'⟩]) =
      spansFor r' ts := by
    intro r'
    rw [spansFor_snoc, hopened, ite_self, List.append_nil]
  constructor
  · rw [agentLog_snoc]
    exact List.forall_mem_append.mpr ⟨I.opens, hopens⟩
  · exact hone
  · intro r' handle' hr'
    obtain ⟨hne, hr'⟩ := hkept r' handle' hr'
    refine hlive handle' ?_ (I.live r' handle' hr')
    rintro rfl
    exact hne (I.injective _ _ _ hr' hhandle)
  · intro r₁ r₂ handle' h₁ h₂
    exact I.injective r₁ r₂ handle' (hkept r₁ handle' h₁).2 (hkept r₂ handle' h₂).2
  · intro cfg hcfg
    exact I.enabled cfg (hconfig ▸ hcfg)
  · intro r' handle' hr'
    rw [hconfig]
    exact I.stored r' handle' (hkept r' handle' hr').2
  · intro r' hbegins n hn
    rw [hspans] at hn
    rcases I.opened r' (Nat.le_trans (begins_le r' ts _) hbegins) n hn with
      ⟨handle', hr', hmem⟩ | hmem
    · rw [engineLog_snoc]
      by_cases heq : r' = r.address
      · -- the handle is not live any more, and what belongs to it has been ended
        subst heq
        obtain rfl := Option.some.inj (hhandle.symm.trans hr')
        rw [engineLog_snoc] at A
        exact .inr (A.closed handle hdead n (mem_requestSpans_append.mpr (.inl hmem)))
      · refine .inl ⟨handle', ?_, mem_requestSpans_append.mpr (.inl hmem)⟩
        rwa [hnotes, Function.update_of_ne heq]
    · exact .inr (mem_ended_of_run hrun hmem)
  · intro r' hbegins
    obtain ⟨hr', hnil⟩ := I.fresh r' (Nat.eq_zero_of_le_zero (hbegins ▸ begins_le r' ts _))
    refine ⟨?_, (hspans r').trans hnil⟩
    rw [hnotes, Function.update_apply, hr', ite_self]

/-- The step lemma: what each hook can do keeps the protocol. -/
theorem Protocol.snoc (I : Protocol ts p)
    (hrun : Run (WSAgent.step sdk getSpanName) .new (agentLog ts) p.agent)
    (h : Hooked sdk getSpanName p hook log p') : Protocol (ts ++ [⟨p, hook, log, p'⟩]) p' := by
  have hlog := h.agentRun
  have hE := engines hrun
  have A : Accounted (engineLog (ts ++ [⟨p, hook, log, p'⟩])) p'.agent.requests := by
    rw [engineLog, agentLog_snoc]
    exact accounted_requests (hrun.append hlog)
  cases h with
  | command k d =>
    exact I.keep hlog (by simp) I.oneOpen rfl (fun _ => id) (fun _ => .inl) id (by rintro n ⟨⟩)
  | quiet =>
    exact I.keep hlog (by simp) I.oneOpen rfl (fun _ => id) (fun _ => .inl) id (by rintro n ⟨⟩)
  | declined hdeclined =>
    obtain ⟨-, hnotes, hrequests, hfilter, hafter, hconfig, hstored⟩ := hdeclined.frame
    refine I.keep hlog (fun t ht => ?_) ?_ hnotes ?_ hconfig (fun h => hstored (.inl h)) ?_
    · rw [OneOpen, hafter t ht]
      exact I.oneOpen
    · rw [OneOpen, hrequests]
      exact I.oneOpen
    · rw [hrequests]
      exact fun _ => id
    · rw [openedIn, hfilter]
      rintro n ⟨⟩
  | @begun r answers log q wscontext outcome agent hbegun hname hstart =>
    obtain ⟨hinit, hnotes, hrequests, hfilter, hafter, hconfig, hstored⟩ := hbegun.frame
    have hone : OneOpen q.agent := by
      rw [OneOpen, hrequests]
      exact I.oneOpen
    have hA : Accounted ((agentLog ts ++ log).filterMap engineTransition) q.agent.requests :=
      accounted_requests (hrun.append hinit)
    obtain ⟨hone', hlive, hnew, hopened⟩ := startRequest_call hA hone hstart
    have hopens : ∀ t ∈ log ++
        [(⟨q.agent, .startRequest (some wscontext) (some r.payload) true, outcome,
        agent⟩ : WSAgent.CallTransition)], OneOpen t.after := by
      refine List.forall_mem_append.mpr ⟨fun t ht => ?_, List.forall_mem_singleton.mpr hone'⟩
      rw [OneOpen, hafter t ht]
      exact I.oneOpen
    have hspans : ∀ t : WSAgent.CallTransition, openedIn (log ++ [t]) = openedIn [t] := by
      intro t
      rw [openedIn, List.filterMap_append, hfilter]
      rfl
    rw [hrequests] at hlive hnew
    rcases hhandle : Process.startedHandle outcome with _ | handle
    · refine I.keep hlog hopens hone' (by simp [hnotes]) hlive hconfig
        (fun h => hstored (.inl h)) ?_
      rw [hspans]
      intro n hn
      obtain ⟨k, hk, -⟩ := hopened n hn
      exact absurd (hhandle.symm.trans hk) (Option.some_ne_none k).symm
    · obtain ⟨hfree, hmade⟩ := hnew handle hhandle
      refine I.begin hlog hopens hone'
        (show _ = Function.update p.notes r.address (some handle) by simp [hnotes]) hlive hconfig
        (hstored (.inr rfl)) hfree hmade ?_
      rw [hspans, List.filterMap_append, hfilter]
      intro n hn
      obtain ⟨k, hk, hmem⟩ := hopened n hn
      obtain rfl := Option.some.inj (hhandle.symm.trans hk)
      exact hmem
  | ended hended =>
    obtain ⟨hone, hopens, hlive, hopened⟩ := hended.frame hE I.oneOpen (I.live _)
    refine I.keep hlog hopens hone rfl hlive (fun _ => .inl) id ?_
    rw [hopened]
    simp
  | @started r _ _ _ _ handle payload outcome outcome' a agent hnotes hend hstart =>
    have hmid := hrun.snoc hend
    obtain ⟨hone, hlive, hnil⟩ := endInteraction_call hE I.oneOpen (I.live _ _ hnotes) hend
    obtain ⟨hone', hlive', hopened⟩ :=
      startInteraction_call (engines hmid) hone (hlive _ (I.live _ _ hnotes)) hnil hstart
    have hnone := openedIn_ending hend (.inl ⟨_, _, _, rfl⟩)
    refine I.keep hlog ?_ hone' rfl (fun k hk => hlive' k (hlive k hk)) (fun _ => .inl) id ?_
    · rintro t (_ | ⟨_, ht⟩)
      · exact hone
      · rw [List.mem_singleton.mp ht]
        exact hone'
    · intro n hn
      refine ⟨r.address, handle, rfl, hnotes, ?_⟩
      rw [← List.singleton_append, List.filterMap_append, mem_requestSpans_append]
      refine .inr (hopened n ?_)
      rw [openedIn, ← List.singleton_append, List.filterMap_append, List.flatMap_append] at hn
      rw [openedIn] at hnone
      rwa [hnone, List.nil_append] at hn
  | @logged r log handle a error payload outcome agent hnotes hstopped hend =>
    obtain ⟨hopens, hone, hkept, ⟨-, hdead⟩, hopened⟩ :=
      hstopped.logged hrun I.oneOpen (I.live _ _ hnotes) hend
    exact I.close hlog A hopens hone hnotes rfl hkept hdead rfl hopened

theorem protocol {dirspec : ℕ → Bytes}
    (hrun : Run (Process.step sdk getSpanName) (.new dirspec) ts p) : Protocol ts p := by
  refine (hrun.invariant (fun ts p => Run (WSAgent.step sdk getSpanName) .new (agentLog ts)
    p.agent ∧
    Protocol ts p) ⟨.nil, protocol_new dirspec⟩ ?_).2
  rintro ts p hook log p' ⟨hagent, I⟩ hstep
  refine ⟨?_, I.snoc hagent (hooked hstep)⟩
  rw [agentLog_snoc]
  exact hagent.append (hooked hstep).agentRun

/-! ### The hooks of a request -/

theorem callAgent_of_step {call : WSAgent.Call} {outcome : WSAgent.Outcome} {agent : WSAgent}
    (h : p.agent.step sdk getSpanName call = some (outcome, agent)) :
    p.callAgent sdk getSpanName call =
      some (⟨p.agent, call, outcome, agent⟩, { p with agent := agent }) := by
  rw [Process.callAgent, h]

theorem stopInteraction_defined (sdk : TenantConfig → Sdk) (getSpanName : SpanNamer → Bytes → Bytes)
    (hE : Engines p.agent) (r : RequestRec)
    (isAlwaysRunStage ignoreBackend : Bool)
    (hlive : ∀ handle, p.notes r.address = some handle → p.agent.requests.requests handle ≠ none) :
    (p.stopInteraction sdk getSpanName r isAlwaysRunStage ignoreBackend).isSome := by
  unfold Process.stopInteraction
  split
  · rfl
  · split
    next => rfl
    next handle hnotes =>
      obtain ⟨ctx, hctx⟩ := Option.ne_none_iff_exists'.mp (hlive handle hnotes)
      obtain ⟨outcome, agent, hend, -⟩ :=
        WSAgent.endInteraction_live sdk getSpanName hE hctx ignoreBackend
        ⟨[], ascii "HTTP", Int64.ofInt r.status,
          if Process.requestHasErrors r then ascii "HTTP ERROR CODE:" ++ Process.statusText r.status
          else []⟩
      dsimp only
      rw [callAgent_of_step hend]
      rfl

/-- No hook but the one that begins a request can be undefined. -/
theorem Protocol.defined (I : Protocol ts p)
    (hrun : Run (WSAgent.step sdk getSpanName) .new (agentLog ts) p.agent)
    (hbegin : ∀ r answers, hook ≠ .headerParserBegin r answers) :
    (p.step sdk getSpanName hook).isSome := by
  have hE := engines hrun
  cases hook with
  | command k d => rfl
  | headerParserBegin r answers => exact absurd rfl (hbegin r answers)
  | interactionBegin r module stage isAlwaysRunStage ignoreBackend =>
    simp only [Process.step]
    unfold Process.startInteraction
    split
    · rfl
    · split
      next => rfl
      next handle hnotes =>
        obtain ⟨⟨log, q⟩, hstop⟩ := Option.isSome_iff_exists.mp (stopInteraction_defined sdk
          getSpanName hE r isAlwaysRunStage ignoreBackend (I.live _))
        obtain ⟨-, hstopped, -⟩ := stopInteraction_spec hstop
        obtain ⟨-, -, hkept, -⟩ := hstopped.frame hE I.oneOpen (I.live _)
        obtain ⟨ctx, hctx⟩ := Option.ne_none_iff_exists'.mp (hkept _ (I.live _ _ hnotes))
        obtain ⟨outcome, agent, s, hstart, -⟩ := WSAgent.startInteraction_live sdk
          getSpanName (engines (hrun.append hstopped.agentRun)) hctx ⟨module, stage⟩ ∅
        rw [hstop]
        dsimp only [Option.bind_eq_bind, Option.bind_some]
        rw [callAgent_of_step hstart]
        rfl
  | interactionEnd r isAlwaysRunStage ignoreBackend =>
    exact stopInteraction_defined sdk getSpanName hE r isAlwaysRunStage ignoreBackend (I.live _)
  | logTransactionEnd r =>
    simp only [Process.step]
    unfold Process.logTransactionEnd
    split
    · rfl
    · split
      next => rfl
      next =>
        split
        · rfl
        · obtain ⟨⟨log, q⟩, hstop⟩ := Option.isSome_iff_exists.mp (stopInteraction_defined sdk
            getSpanName hE r false false (I.live _))
          obtain ⟨hq, hstopped, -⟩ := stopInteraction_spec hstop
          obtain ⟨-, -, hkept, -⟩ := hstopped.frame hE I.oneOpen (I.live _)
          rw [hstop]
          dsimp only [Option.bind_eq_bind, Option.bind_some]
          split
          next => rfl
          next handle hnotes =>
            rw [hq] at hnotes
            obtain ⟨ctx, hctx⟩ := Option.ne_none_iff_exists'.mp (hkept _ (I.live _ _ hnotes))
            obtain ⟨outcome, agent, hend, -⟩ := WSAgent.endRequest_live sdk
              getSpanName (engines (hrun.append hstopped.agentRun)) hctx
              (if Process.requestHasErrors r then some (Process.statusText r.status) else none)
              (some ⟨∅, ∅, UInt32.ofInt r.status⟩)
            rw [callAgent_of_step
              (p := { q with notes := Function.update q.notes r.address none }) hend]
            rfl

/-- The log hook of an initial request takes the handle out of the notes. -/
theorem Protocol.notes_logged (I : Protocol ts p)
    (hrun : Run (WSAgent.step sdk getSpanName) .new (agentLog ts) p.agent) {r : RequestRec}
    (hinitial : r.isInitialReq) (h : Hooked sdk getSpanName p (.logTransactionEnd r) log p') :
    p'.notes r.address = none ∧ ∀ handle, p.notes r.address = some handle →
      ∃ stopped a error payload outcome agent,
        log = stopped ++ [⟨a, .endRequest (some handle) error payload, outcome, agent⟩] ∧
        handle < agent.requests.nextHandle ∧ agent.requests.requests handle = none := by
  cases h with
  | quiet _ hquiet =>
    have hnone : p.notes r.address = none := by
      rcases hnotes : p.notes r.address with _ | handle
      · rfl
      · -- a handle was stored after the agent was initialised with a configuration that is enabled
        obtain ⟨cfg, hcfg⟩ := Option.ne_none_iff_exists'.mp (I.stored _ _ hnotes)
        have henabled : cfg.otelEnabled.value ≠ 0 := by
          rw [I.enabled cfg hcfg]
          exact Int.one_ne_zero
        exact hnotes.symm.trans (hquiet r cfg rfl hinitial hcfg henabled)
    refine ⟨hnone, fun handle hnotes => ?_⟩
    exact absurd (hnone.symm.trans hnotes) (Option.some_ne_none handle).symm
  | logged hnotes hstopped hend =>
    refine ⟨Function.update_self .., fun handle hhandle => ?_⟩
    obtain rfl := Option.some.inj (hnotes.symm.trans hhandle)
    obtain ⟨-, -, -, hdead, -⟩ := hstopped.logged hrun I.oneOpen (I.live _ _ hnotes) hend
    exact ⟨_, _, _, _, _, _, rfl, hdead⟩

/-- **The protocol of the hooks.**  In every run of directives and hooks, no request ever
has more than one open interaction, and no hook but the one that begins a request can
be undefined.  When the log hook of an initial request returns, whose begin hook was
called once at most, every span that was opened in its hooks has been ended once; the
handle of the request goes to `endRequest` in the last call and to no later call. -/
theorem hook_protocol {dirspec : ℕ → Bytes}
    (hrun : Run (Process.step sdk getSpanName) (.new dirspec) ts p) :
    (∀ t ∈ agentLog ts, OneOpen t.after) ∧
      (∀ hook, (∀ r answers, hook ≠ .headerParserBegin r answers) →
        (p.step sdk getSpanName hook).isSome) ∧
      ∀ before t after r, ts = before ++ t :: after → t.call = .logTransactionEnd r →
        r.isInitialReq → begins r.address before ≤ 1 →
        (∀ n ∈ spansFor r.address (before ++ [t]),
          t.after.agent.requests.tracer.ended.count n = 1) ∧
        ∀ handle, t.before.notes r.address = some handle →
          (∃ stopped a error payload outcome agent,
            t.outcome = stopped ++ [⟨a, .endRequest (some handle) error payload, outcome, agent⟩]) ∧
          ∀ u ∈ after, ∀ c ∈ u.outcome, c.call.handle? ≠ some handle := by
  refine ⟨(protocol hrun).opens, fun hook => (protocol hrun).defined (agentRun hrun), ?_⟩
  rintro before ⟨q, hook, log, q'⟩ after r hts hhook hinitial hbegins
  obtain ⟨hbefore, hstep⟩ := hrun.reached hts
  dsimp only at hhook hbefore hstep
  subst hhook
  have I := protocol hbefore
  have hlogged := hbefore.snoc hstep
  have I' := protocol hlogged
  obtain ⟨hnone, hended⟩ := I.notes_logged (agentRun hbefore) hinitial (hooked hstep)
  constructor
  · intro n hn
    have hbegins' : begins r.address (before ++ [⟨q, .logTransactionEnd r, log, q'⟩]) ≤ 1 := by
      rw [begins_snoc]
      exact hbegins
    rcases I'.opened r.address hbegins' n hn with ⟨handle, hnotes, -⟩ | hmem
    · exact absurd (hnone.symm.trans hnotes) (Option.some_ne_none handle).symm
    · exact List.count_eq_one_of_mem (accounted_requests (agentRun hlogged)).ended_nodup hmem
  · intro handle hnotes
    obtain ⟨stopped, a, error, payload, outcome, agent, rfl, hdead⟩ := hended handle hnotes
    refine ⟨⟨_, _, _, _, _, _, rfl⟩, ?_⟩
    -- the handle is not live any more when the last call returns
    have hlog : agentLog ts = (agentLog before ++ stopped) ++
        ⟨a, .endRequest (some handle) error payload, outcome, agent⟩ :: agentLog after := by
      rw [hts]
      simp [agentLog]
    have hwhole := agentRun hrun
    rw [hlog] at hwhole
    intro u hu c hc
    exact WSAgent.handle_not_used hwhole hdead c (List.mem_flatMap.mpr ⟨u, hu, hc⟩)

end

end

/-! ### A run -/

/-- An initial request in some sections. -/
def sampleRequest (address : ℕ) (sections : List ℕ) : RequestRec :=
  ⟨address, true, sections, 200, Webserver.sampleRequest ∅⟩

/-- The answers where the given contexts were registered. -/
def sampleAnswers (contexts : List Triple) : InitAnswers :=
  WSAgent.sampleInit (contexts.map fun t => (joined t, WSAgent.tenantOf ⟨t.1, t.2.1, t.2.2⟩)) 0

def sampleTriple : Triple := (ascii "shop", ascii "front", ascii "1")

/-- A section with what is required. -/
def sampleSection : List Hook :=
  [.command 0 (.otelExporterEndpoint (ascii "collector:4317")),
    .command 0 (.webserverContext sampleTriple.1 sampleTriple.2.1 sampleTriple.2.2)]

/-- A stage begins twice, and another one with the flag off. -/
def sampleHooks : List Hook :=
  sampleSection ++
    [.command 0 (.reportAllInstrumentedModules (ascii "ON")),
      .headerParserBegin (sampleRequest 4 [0]) (sampleAnswers [sampleTriple]),
      .interactionBegin (sampleRequest 4 [0]) (ascii "mod_auth") (ascii "fixups") false false,
      .interactionBegin (sampleRequest 4 [0]) (ascii "mod_php") (ascii "handler") true false,
      .command 0 (.reportAllInstrumentedModules (ascii "OFF")),
      .interactionEnd (sampleRequest 4 [0]) false false]

theorem hook_protocol_sample : ∃ ts p p' log,
    Run (Process.step (fun _ => Webserver.sampleSdk) fun _ uri => uri) (.new fun _ => []) ts p ∧
      p.step (fun _ => Webserver.sampleSdk) (fun _ uri => uri)
        (.logTransactionEnd (sampleRequest 4 [0])) =
        some (log, p') ∧
      p.agent.requests.tracer.ended = [1] ∧ p'.agent.requests.tracer.ended = [1, 2, 0] ∧
      ∀ t ∈ agentLog ts, OneOpen t.after := by
  have hchecked : (Run.ofCalls
      (Process.step (fun _ => Webserver.sampleSdk) fun _ uri => uri) (.new fun _ => [])
      sampleHooks).any (fun r =>
        r.2.agent.requests.tracer.ended = [1] &&
          (r.2.step (fun _ => Webserver.sampleSdk) (fun _ uri => uri)
            (.logTransactionEnd (sampleRequest 4 [0]))).any fun s =>
              s.2.agent.requests.tracer.ended = [1, 2, 0]) = true := by
    decide +kernel
  obtain ⟨ts, p, hrun, hchecked⟩ := Run.exists_of_any hchecked
  simp only [Bool.and_eq_true, decide_eq_true_iff] at hchecked
  obtain ⟨s, hs, hended⟩ := (Option.any_eq_true _ _).mp hchecked.2
  exact ⟨ts, p, s.2, s.1, hrun, hs, hchecked.1, of_decide_eq_true hended, (hook_protocol hrun).1⟩

end Apache
