/-
What one request leaves on the thread's stack of contexts.

By the rule that compares contexts, a token pops through the topmost entry with a context
equal to its own.  `ServerSpan` detaches its token in `End`, and the token detaches again
when it is destroyed.  A carrier without a header gives the context that is on top
already, so that the second time the entry below is the one that is equal.

* `Serving` — the stack while a request is served: its interactions, its root, and what
  was there before;
* `context_balance_iff` — the stack is as before exactly when it was empty or a
  propagator finds a header.
-/
import OtelContrib.Webserver.Parenting

open ContextStack Otel

namespace Webserver

/-! ### Extraction -/

/-- A propagator that finds a header makes a new context, and without one the context is
the given one. -/
theorem extractContext_head (extracted : List (Option RemoteContext)) {c : Context SpanContext}
    {s : Stack SpanContext} (hc : c.head < s.nextHead) :
    ((extractContext extracted c s).1.head = c.head ∧ (∀ found ∈ extracted, found = none) ∨
        s.nextHead ≤ (extractContext extracted c s).1.head ∧ ∃ found ∈ extracted, found.isSome) ∧
      s.nextHead ≤ (extractContext extracted c s).2.nextHead ∧
      (extractContext extracted c s).1.head < (extractContext extracted c s).2.nextHead := by
  induction extracted generalizing c s with
  | nil => exact ⟨.inl ⟨rfl, fun _ h => (List.not_mem_nil h).elim⟩, Nat.le_refl _, hc⟩
  | cons found extracted ih =>
    cases found with
    | none =>
      obtain ⟨hhead, hle, hlt⟩ := ih hc
      refine ⟨hhead.imp ?_ ?_, hle, hlt⟩
      · rintro ⟨hsame, hnone⟩
        exact ⟨hsame, List.forall_mem_cons.mpr ⟨rfl, hnone⟩⟩
      · rintro ⟨hnew, hsome⟩
        exact ⟨hnew, List.exists_mem_cons_of_exists hsome⟩
    | some remote =>
      obtain ⟨hhead, hle, hlt⟩ := ih (c := (s.setSpan c (.remote remote)).1)
        (s := (s.setSpan c (.remote remote)).2) (Nat.lt_succ_self _)
      refine ⟨.inr ⟨?_, some remote, List.mem_cons_self, rfl⟩,
        Nat.le_trans (Nat.le_succ _) hle, hlt⟩
      rcases hhead with ⟨hsame, -⟩ | ⟨hnew, -⟩
      · exact Nat.le_of_eq hsame.symm
      · exact Nat.le_trans (Nat.le_succ _) hnew

/-- Some propagator finds a context in the headers of a request. -/
def Found (sdk : Sdk) (carrier : Carrier) : Prop :=
  ∃ propagator ∈ sdk.propagators, (propagator.extract carrier).isSome

variable {sdk : Sdk}

variable (sdk) in
/-- What a server span attaches: the token's context is new if one was found, and else the
one on top; the span's context is new. -/
theorem createSpan_contexts {t : Tracer} (hfresh : t.contexts.Fresh) (name : Bytes)
    (attributes : OtelKeyValueMap) (carrier : Carrier) :
    ∃ n scope token, (createSpan sdk t name .SERVER attributes carrier).1 =
        .serverSpan ⟨n, scope, .SERVER⟩ token ∧
      (createSpan sdk t name .SERVER attributes carrier).2.contexts.entries =
        scope :: token :: t.contexts.entries ∧
      token.context.head ≠ scope.context.head ∧
      (∀ e ∈ t.contexts.entries, scope.context.head ≠ e.context.head) ∧
      (¬ Found sdk carrier ∧ token.context.head = t.contexts.current.head ∨
        Found sdk carrier ∧ ∀ e ∈ t.contexts.entries, token.context.head ≠ e.context.head) := by
  obtain ⟨hhead, hle, hlt⟩ := extractContext_head
    (sdk.propagators.map fun propagator => propagator.extract carrier) hfresh.current_lt
  obtain ⟨-, hentries, -⟩ := extractContext_spec
    (sdk.propagators.map fun propagator => propagator.extract carrier) t.contexts.current t.contexts
  have hcreate : createSpan sdk t name .SERVER attributes carrier =
    newServerSpan sdk t name attributes carrier := if_pos rfl
  rw [hcreate]
  refine ⟨_, _, _, rfl, congrArg (fun entries => _ :: _ :: entries) hentries, Nat.ne_of_lt hlt,
    ?_, ?_⟩
  · intro e he
    exact Nat.ne_of_gt (Nat.lt_of_lt_of_le (hfresh.bounded e he) hle)
  · refine hhead.imp ?_ ?_
    · rintro ⟨hsame, hnone⟩
      refine ⟨?_, hsame⟩
      rintro ⟨propagator, hmem, hsome⟩
      rw [hnone _ (List.mem_map_of_mem hmem)] at hsome
      cases hsome
    · rintro ⟨hnew, found, hfound, hsome⟩
      obtain ⟨propagator, hmem, rfl⟩ := List.mem_map.mp hfound
      refine ⟨⟨propagator, hmem, hsome⟩, fun e he => ?_⟩
      exact Nat.ne_of_gt (Nat.lt_of_lt_of_le (hfresh.bounded e he) hnew)

/-! ### A request that is served -/

open RequestProcessingEngine

/-- A request is served: on the stack are the scopes of its interactions, those of its
root, and what was there before. -/
def Serving (before : List (Entry SpanContext)) (handle : ℕ) (scope token : Entry SpanContext)
    (e : RequestProcessingEngine) : Prop :=
  ∃ n contextName, ∃ interactions : List ScopedSpan,
    e.requests handle = some
      ⟨.serverSpan ⟨n, scope, .SERVER⟩ token, contextName,
        interactions.map IScopedSpan.scopedSpan⟩ ∧
    e.tracer.contexts.entries = interactions.map ScopedSpan.mScope ++ scope :: token :: before

/-- A call for an interaction of the request, or for none. -/
def OfRequest (handle : ℕ) : Call → Prop
  | .startInteraction reqHandle _ _ | .endInteraction reqHandle _ _ =>
    reqHandle = none ∨ reqHandle = some handle
  | .startRequest _ _ _ | .endRequest _ _ _ => False

variable {before : List (Entry SpanContext)} {handle : ℕ} {scope token : Entry SpanContext}
  {e : RequestProcessingEngine}

/-- An interaction that is destroyed takes its own scope from the top. -/
theorem entries_destroy_scopedSpan (hrule : sdk.detachRule = equalContext) (s : ScopedSpan)
    {t : Tracer} {rest : List (Entry SpanContext)} (h : t.contexts.entries = s.mScope :: rest) :
    ((IScopedSpan.scopedSpan s).destroy sdk
      ((IScopedSpan.scopedSpan s).finish sdk t)).contexts.entries = rest := by
  rw [IScopedSpan.destroy, IScopedSpan.finish, Tracer.detach, hrule]
  show Stack.popThrough equalContext s.mScope t.contexts.entries = rest
  rw [h]
  exact Stack.popThrough_equalContext_cons rfl rest

theorem entries_endInteractions (hrule : sdk.detachRule = equalContext)
    (interactions : List ScopedSpan)
    {t : Tracer} {rest : List (Entry SpanContext)}
    (h : t.contexts.entries = interactions.map ScopedSpan.mScope ++ rest) :
    (endInteractions sdk t (interactions.map .scopedSpan)).contexts.entries = rest := by
  induction interactions generalizing t with
  | nil => exact h
  | cons s interactions ih => exact ih (entries_destroy_scopedSpan hrule s h)

/-- Calls for interactions are defined, and keep what is below them. -/
theorem Serving.step (hrule : sdk.detachRule = equalContext) (getSpanName : Bytes → Bytes)
    (S : Serving before handle scope token e) {call : Call} (hcall : OfRequest handle call) :
    ∃ outcome e', e.step sdk getSpanName call = some (outcome, e') ∧
      Serving before handle scope token e' := by
  obtain ⟨n, contextName, interactions, hlive, hentries⟩ := S
  cases call with
  | startRequest => exact hcall.elim
  | endRequest => exact hcall.elim
  | startInteraction reqHandle payload headers =>
    rcases hcall with rfl | rfl
    · exact ⟨_, e, rfl, n, contextName, interactions, hlive, hentries⟩
    · cases payload with
      | none => exact ⟨_, e, rfl, n, contextName, interactions, hlive, hentries⟩
      | some payload =>
        rw [RequestProcessingEngine.step, startInteraction]
        simp only [hlive]
        exact ⟨_, _, rfl, n, contextName, (newScopedSpan e.tracer _ .CLIENT _).1 :: interactions,
          Function.update_self _ _ _, congrArg (_ :: ·) hentries⟩
  | endInteraction reqHandle ignoreBackend payload =>
    rcases hcall with rfl | rfl
    · exact ⟨_, e, rfl, n, contextName, interactions, hlive, hentries⟩
    · cases payload with
      | none => exact ⟨_, e, rfl, n, contextName, interactions, hlive, hentries⟩
      | some payload =>
        rw [RequestProcessingEngine.step, endInteraction]
        simp only [hlive]
        cases interactions with
        | nil => exact ⟨_, e, rfl, n, contextName, [], hlive, hentries⟩
        | cons s interactions =>
          refine ⟨_, _, rfl, n, contextName, interactions, Function.update_self _ _ _, ?_⟩
          refine entries_destroy_scopedSpan hrule s ?_
          rw [(describeInteraction_onlyDescribes _ _ _).contexts]
          exact hentries

/-- What the end of a request pops: the root's token takes everything down to itself, and
then looks once more, and so does the root's scope. -/
theorem Serving.endRequest (hrule : sdk.detachRule = equalContext) (getSpanName : Bytes → Bytes)
    (S : Serving before handle scope token e) (hne : token.context.head ≠ scope.context.head)
    (error : Option Bytes) (payload : Option ResponsePayload) :
    ∃ outcome e', e.step sdk getSpanName (.endRequest (some handle) error payload) =
      some (outcome, e') ∧
      e'.tracer.contexts.entries =
        Stack.popThrough equalContext scope (Stack.popThrough equalContext token before) := by
  obtain ⟨n, contextName, interactions, hlive, hentries⟩ := S
  rw [RequestProcessingEngine.step, RequestProcessingEngine.endRequest]
  simp only [hlive]
  refine ⟨_, _, rfl, ?_⟩
  have hroot := entries_endInteractions hrule interactions hentries
  have hfirst : Stack.popThrough equalContext token (scope :: token :: before) = before := by
    refine (Stack.popThrough_cons _ _ _ _).trans ((if_neg ?_).trans ((if_pos ?_).trans ?_))
    · exact fun hequal => hne (of_decide_eq_true hequal)
    · exact List.any_eq_true.mpr ⟨token, List.mem_cons_self, decide_eq_true rfl⟩
    · exact Stack.popThrough_equalContext_cons rfl before
  rw [IScopedSpan.destroy, IScopedSpan.finish, Tracer.detach, Tracer.detach, Tracer.detach, hrule]
  refine congrArg (fun entries => Stack.popThrough equalContext scope
    (Stack.popThrough equalContext token entries)) ?_
  refine Eq.trans ?_ hfirst
  refine congrArg (Stack.popThrough equalContext token) ?_
  exact (congrArg Stack.entries (describeRequest_onlyDescribes _ _ _ _ _).contexts).trans hroot

/-- From a state in which the request is served, its calls are all defined. -/
theorem Serving.completes (hrule : sdk.detachRule = equalContext) (getSpanName : Bytes → Bytes)
    (S : Serving before handle scope token e) (hne : token.context.head ≠ scope.context.head)
    {calls : List Call} (hcalls : ∀ call ∈ calls, OfRequest handle call) (error : Option Bytes)
    (payload : Option ResponsePayload) :
    ∃ r, Run.ofCalls (RequestProcessingEngine.step sdk getSpanName) e
        (calls ++ [.endRequest (some handle) error payload]) = some r ∧
      r.2.tracer.contexts.entries =
        Stack.popThrough equalContext scope (Stack.popThrough equalContext token before) := by
  induction calls generalizing e with
  | nil =>
    obtain ⟨outcome, e', hstep, hentries⟩ := S.endRequest hrule getSpanName hne error payload
    exact ⟨_, Run.ofCalls_cons hstep rfl, hentries⟩
  | cons call calls ih =>
    obtain ⟨outcome, e', hstep, S'⟩ := S.step hrule getSpanName (hcalls call List.mem_cons_self)
    obtain ⟨r, hr, hentries⟩ := ih S' fun c hc => hcalls c (List.mem_cons_of_mem _ hc)
    exact ⟨_, Run.ofCalls_cons hstep hr, hentries⟩

/-- The calls of one request. -/
def requestCalls (handle : ℕ) (wscontext : Bytes) (payload : RequestPayload)
    (interactions : List Call)
    (error : Option Bytes) (response : Option ResponsePayload) : List Call :=
  .startRequest wscontext (some payload) true ::
    (interactions ++ [.endRequest (some handle) error response])

/-- What the second look of the token pops: nothing if a context was found, and else the
entry that was on top before the request. -/
theorem entries_after (hfound : Prop) (hscope : ∀ e ∈ before, scope.context.head ≠ e.context.head)
    (htoken : ¬ hfound ∧ token.context.head =
      ((before.head?.map Entry.context).getD Context.empty).head ∨
      hfound ∧ ∀ e ∈ before, token.context.head ≠ e.context.head) :
    Stack.popThrough equalContext scope (Stack.popThrough equalContext token before) = before ↔
      before = [] ∨ hfound := by
  rcases htoken with ⟨hnot, hequal⟩ | ⟨hfound, hne⟩
  · cases before with
    | nil => exact ⟨fun _ => .inl rfl, fun _ => rfl⟩
    | cons top rest =>
      rw [Stack.popThrough_equalContext_cons hequal,
        Stack.popThrough_of_forall_ne fun e he => hscope e (List.mem_cons_of_mem _ he)]
      constructor
      · intro hsame
        exact absurd (congrArg List.length hsame) (by simp)
      · rintro (hnil | hfound)
        · cases hnil
        · exact absurd hfound hnot
  · rw [Stack.popThrough_of_forall_ne hne, Stack.popThrough_of_forall_ne hscope]
    exact ⟨fun _ => .inr hfound, fun _ => rfl⟩

/-- **The balance of one request.**  Whatever was on the stack, and whatever the request's
interactions, the stack is as before exactly when it was empty or a propagator finds a
context in the request's headers; else the entry on top is gone. -/
theorem context_balance_iff (hrule : sdk.detachRule = equalContext) (getSpanName : Bytes → Bytes)
    {e : RequestProcessingEngine} (hfresh : e.tracer.contexts.Fresh) (wscontext : Bytes)
    (payload : RequestPayload) {interactions : List Call}
    (hinteractions : ∀ call ∈ interactions, OfRequest e.nextHandle call) (error : Option Bytes)
    (response : Option ResponsePayload) :
    ∃ r, Run.ofCalls (RequestProcessingEngine.step sdk getSpanName) e
        (requestCalls e.nextHandle wscontext payload interactions error response) = some r ∧
      (r.2.tracer.contexts.entries = e.tracer.contexts.entries ↔
        e.tracer.contexts.entries = [] ∨ Found sdk payload.httpHeaders) := by
  obtain ⟨n, scope, token, hroot, hentries, hne, hscope, htoken⟩ := createSpan_contexts sdk hfresh
    (if payload.operationName = [] then getSpanName payload.uri else payload.operationName)
    (rootAttributes payload) payload.httpHeaders
  have S : Serving e.tracer.contexts.entries e.nextHandle scope token
      (e.startRequest sdk getSpanName wscontext (some payload) true).2 := by
    refine ⟨n, wscontext, [], ?_, hentries⟩
    refine (Function.update_self _ _ _).trans ?_
    exact congrArg (fun root => some (RequestContext.mk root wscontext [])) hroot
  obtain ⟨r, hr, hafter⟩ := S.completes hrule getSpanName hne hinteractions error response
  refine ⟨_, Run.ofCalls_cons rfl hr, ?_⟩
  dsimp only
  rw [hafter]
  exact entries_after _ hscope htoken

/-! ### Fresh contexts -/

theorem fresh_extractContext (extracted : List (Option RemoteContext)) {c : Context SpanContext}
    {s : Stack SpanContext} (h : s.Fresh) : (extractContext extracted c s).2.Fresh := by
  induction extracted generalizing c s with
  | nil => exact h
  | cons found extracted ih =>
    cases found with
    | none => exact ih h
    | some remote => exact ih (h.setSpan c (.remote remote))

theorem fresh_newScopedSpan {t : Tracer} (h : t.contexts.Fresh) (name : Bytes) (kind : SpanKind)
    (attributes : OtelKeyValueMap) : (newScopedSpan t name kind attributes).2.contexts.Fresh :=
  (h.setSpan t.contexts.current (.started t.spans.length)).attach (Nat.lt_succ_self _)

theorem fresh_createSpan {t : Tracer} (h : t.contexts.Fresh) (name : Bytes) (kind : SpanKind)
    (attributes : OtelKeyValueMap) (carrier : Carrier) :
    (createSpan sdk t name kind attributes carrier).2.contexts.Fresh := by
  rw [createSpan]
  split
  · refine fresh_newScopedSpan (t := { t with contexts := _ }) ?_ name _ _
    exact (fresh_extractContext _ h).attach (extractContext_head _ h.current_lt).2.2
  · exact fresh_newScopedSpan h name kind attributes

theorem fresh_destroy_finish {t : Tracer} (h : t.contexts.Fresh) (s : IScopedSpan) :
    (s.destroy sdk (s.finish sdk t)).contexts.Fresh := by
  cases s with
  | serverSpan s token => exact ((h.detach _ token).detach _ token).detach _ s.mScope
  | scopedSpan s => exact h.detach _ s.mScope

theorem fresh_endInteractions (interactions : List IScopedSpan) {t : Tracer}
    (h : t.contexts.Fresh) :
    (endInteractions sdk t interactions).contexts.Fresh := by
  induction interactions generalizing t with
  | nil => exact h
  | cons s interactions ih => exact ih (fresh_destroy_finish h s)

/-- No call of the engine makes a context that was there before. -/
theorem fresh_run {getSpanName : Bytes → Bytes}
    {ts : List (Transition RequestProcessingEngine Call Outcome)}
    {e' : RequestProcessingEngine} (hfresh : e.tracer.contexts.Fresh)
    (hrun : Run (RequestProcessingEngine.step sdk getSpanName) e ts e') :
    e'.tracer.contexts.Fresh := by
  refine hrun.invariant (fun _ e => e.tracer.contexts.Fresh) hfresh ?_
  intro _ e call outcome e' hfresh hstep
  cases stepped sdk getSpanName hstep with
  | failed => exact hfresh
  | startedRequest wscontext payload hcreated =>
    subst hcreated
    exact fresh_createSpan hfresh _ _ _ _
  | startedInteraction handle payload headers hlive hcreated =>
    subst hcreated
    exact fresh_createSpan hfresh _ _ _ _
  | endedInteraction handle ignoreBackend payload hlive hopen =>
    refine fresh_destroy_finish ?_ _
    rw [(describeInteraction_onlyDescribes _ _ _).contexts]
    exact hfresh
  | endedRequest handle error payload hlive htracer =>
    subst htracer
    refine fresh_destroy_finish ?_ _
    rw [(describeRequest_onlyDescribes _ _ _ _ _).contexts]
    exact fresh_endInteractions _ hfresh

/-! ### Two requests, one within the other -/

/-- An SDK that compares contexts. -/
def comparingSdk : Sdk := { sampleSdk with detachRule := equalContext }

/-- The engine while a request is served. -/
def serving : RequestProcessingEngine :=
  (init.startRequest comparingSdk id (ascii "ws") (some (sampleRequest ∅)) true).2

theorem serving_fresh : serving.tracer.contexts.Fresh := by
  have hstep : RequestProcessingEngine.step comparingSdk id init
      (.startRequest (ascii "ws") (some (sampleRequest ∅)) true) =
        some (⟨.success, some 0, ∅⟩, serving) := rfl
  exact fresh_run Stack.fresh_empty (Run.single hstep)

def traceparentHeader : Carrier :=
  OrderedMap.singleton (ascii "traceparent")
    (ascii "00-00112233445566778899aabbccddeeff-0101010101010101-01")

/-- With a header, a request in between leaves everything as it was. -/
theorem context_balance_sample :
    ∃ r, Run.ofCalls (RequestProcessingEngine.step comparingSdk id) serving
        (requestCalls 1 (ascii "ws") (sampleRequest traceparentHeader)
          [.startInteraction (some 1) (some ⟨ascii "mod_proxy", ascii "fixup"⟩) ∅] none none) =
            some r ∧
      r.2.tracer.contexts.entries = serving.tracer.contexts.entries := by
  have hinteractions : ∀ call ∈
      [Call.startInteraction (some 1) (some ⟨ascii "mod_proxy", ascii "fixup"⟩) ∅],
      OfRequest serving.nextHandle call :=
    List.forall_mem_singleton.mpr (.inr rfl)
  obtain ⟨r, hr, hiff⟩ :=
    context_balance_iff (rfl : comparingSdk.detachRule = equalContext) id serving_fresh
    (ascii "ws") (sampleRequest traceparentHeader) hinteractions none none
  exact ⟨r, hr, hiff.mpr (.inr ⟨httpTraceContext, List.mem_singleton.mpr rfl, rfl⟩)⟩

/-- Without one, it takes the scope of the request around it. -/
theorem request_pops_foreign_scope :
    serving.tracer.contexts.entries.map Entry.id = [1, 0] ∧ serving.tracer.contexts.Fresh ∧
    ∃ r, Run.ofCalls (RequestProcessingEngine.step comparingSdk id) serving
        (requestCalls 1 (ascii "ws") (sampleRequest ∅) [] none none) = some r ∧
      r.2.tracer.contexts.entries.map Entry.id = [0] ∧
      ¬ r.2.tracer.contexts.entries = serving.tracer.contexts.entries := by
  have hrun : ∃ r, Run.ofCalls (RequestProcessingEngine.step comparingSdk id) serving
      (requestCalls 1 (ascii "ws") (sampleRequest ∅) [] none none) = some r ∧
      r.2.tracer.contexts.entries.map Entry.id = [0] :=
    ⟨_, rfl, rfl⟩
  obtain ⟨r, hr, hids⟩ := hrun
  refine ⟨rfl, serving_fresh, r, hr, hids, fun hsame => ?_⟩
  rw [hsame] at hids
  cases (show [1, 0] = [0] from hids)

end Webserver
