/-
What the webserver module records of requests and interactions.

A span is what the call that started it says, and then what the call that ended it makes of
that; whatever else is called in between leaves it alone.

* `recording` — the ledger of an agent's spans;
* `spans_recorded` — the spans after a run are those that its calls tell;
* `request_recorded` — the span of a request, from the calls that started and ended it.
-/
import OtelContrib.Lib.LastWins
import OtelContrib.Lib.Ledger
import OtelContrib.Webserver.AgentRequests
import OtelContrib.Webserver.Parenting

open ContextStack Otel
open LastWins (lastValue lastValue_map lastValue_eq_none_iff find?_foldl_insert find?_eq_lastValue)

namespace Webserver

/-! ### What a call says about a span -/

/-- The status for an error code: no error below 400 and, for a server, below 500. -/
def errorStatus (kind : SpanKind) (code : ℤ) (message : Bytes) : StatusCode × Bytes :=
  if HTTP_ERROR_1XX ≤ code ∧ code < (if kind = .SERVER then HTTP_ERROR_5XX else HTTP_ERROR_4XX) then
    (.Unset, [])
  else (.Error, message)

/-- Texts as attributes, their keys behind a common start. -/
def withTexts (start : Bytes) (texts : OrderedMap Bytes Bytes) (attributes : Attributes) :
    Attributes :=
  texts.entries.foldl
    (fun attributes kv => attributes.insert (start ++ kv.1) (.string kv.2)) attributes

/-- The root span of a request. -/
def rootSpanOf (sdk : Sdk) (getSpanName : Bytes → Bytes) (current : Option SpanContext)
    (payload : RequestPayload) : Span where
  name := if payload.operationName = [] then getSpanName payload.uri else payload.operationName
  kind := .SERVER
  parent := ((remoteParent sdk payload.httpHeaders).map .remote).or current
  attributes := rootAttributes payload
  status := (.Unset, [])

/-- The span of an interaction. -/
def interactionSpanOf (current : Option SpanContext) (payload : InteractionPayload) : Span where
  name := payload.moduleName ++ ascii "_" ++ payload.phaseName
  kind := .CLIENT
  parent := current
  attributes := (∅ : Attributes).insert (ascii "interactionType") (.string (ascii "EXIT_CALL"))
  status := (.Unset, [])

def interactionAttributes (payload : EndInteractionPayload) (attributes : Attributes) :
    Attributes :=
  let attributes :=
    if payload.errorCode ≠ 0 ∧ payload.errorMsg ≠ [] then
      attributes.insert (ascii "error_code") (.int64 payload.errorCode)
    else attributes
  if payload.backendName ≠ [] then
    (attributes.insert (ascii "backend_name") (.string payload.backendName)).insert
      (ascii "backend_type") (.string payload.backendType)
  else attributes

/-- What the end of an interaction makes of its span. -/
def endedInteraction (payload : EndInteractionPayload) (span : Span) : Span :=
  { span with
    status :=
      if payload.errorCode ≠ 0 ∧ payload.errorMsg ≠ [] then
        errorStatus .CLIENT payload.errorCode.toInt payload.errorMsg
      else (.Ok, [])
    attributes := interactionAttributes payload span.attributes }

def responseAttributes (payload : ResponsePayload) (attributes : Attributes) : Attributes :=
  (withTexts (ascii "otel.attribute.") payload.otelAttributes
    (withTexts (ascii "http.response.header.") payload.responseHeaders attributes)).insert
      (ascii "http.status_code") (.uint32 payload.statusCode)

/-- The status that the end of a request gives its span. -/
def requestStatus (sdk : Sdk) : Option Bytes → StatusCode × Bytes
  | none => (.Ok, [])
  | some error =>
    errorStatus .SERVER ((readUnsigned error).getD sdk.indeterminate) (kHttpErrorCode ++ error)

/-- What the end of a request makes of its root span. -/
def endedRequest (sdk : Sdk) (error : Option Bytes) (payload : Option ResponsePayload)
    (span : Span) : Span :=
  { span with
    status := requestStatus sdk error
    attributes := payload.elim span.attributes fun payload =>
      responseAttributes payload span.attributes }

/-! ### Updates of one span -/

theorem updateSpan_updateSpan (t : Tracer) (n : ℕ) (f g : Span → Span) :
    (t.updateSpan n f).updateSpan n g = t.updateSpan n fun span => g (f span) :=
  congrArg (fun spans => { t with spans := spans }) (List.modify_modify_eq f g n t.spans)

theorem addAttributes_eq (t : Tracer) (n : ℕ) (start : Bytes) (texts : OrderedMap Bytes Bytes) :
    t.addAttributes n start texts =
      t.updateSpan n fun span =>
        { span with attributes := withTexts start texts span.attributes } := by
  rw [Tracer.addAttributes]
  unfold withTexts
  induction texts.entries generalizing t with
  | nil => exact congrArg (fun spans => { t with spans := spans }) (List.modify_id n t.spans).symm
  | cons kv entries ih =>
    rw [List.foldl_cons, ih, Tracer.setAttribute, updateSpan_updateSpan]
    rfl

theorem setErrorStatus_eq (t : Tracer) (s : IScopedSpan) (code : ℤ) (message : Bytes) :
    setErrorStatus t s code message =
      t.updateSpan s.span fun span =>
        { span with status := errorStatus s.getSpanKind code message } := by
  have hset : setErrorStatus t s code message = t.setStatus s.span
      (errorStatus s.getSpanKind code message).1 (errorStatus s.getSpanKind code message).2 := by
    unfold setErrorStatus errorStatus HTTP_ERROR_1XX HTTP_ERROR_4XX HTTP_ERROR_5XX
    by_cases hserver : s.getSpanKind = .SERVER
    · rw [if_pos hserver, if_pos hserver]
      by_cases hlow : 100 ≤ code ∧ code < 400
      · rw [if_pos hlow, if_pos (by omega)]
      · rw [if_neg hlow]
        by_cases hclient : 400 ≤ code ∧ code < 500
        · rw [if_pos hclient, if_pos (by omega)]
        · rw [if_neg hclient, if_neg (by omega)]
    · rw [if_neg hserver, if_neg hserver]
      by_cases hlow : 100 ≤ code ∧ code < 400
      · rw [if_pos hlow, if_pos hlow]
      · rw [if_neg hlow, if_neg hlow, ite_self]
  exact hset

theorem describeInteraction_eq (t : Tracer) {s : IScopedSpan} (hkind : s.getSpanKind = .CLIENT)
    (payload : EndInteractionPayload) :
    describeInteraction t s payload = t.updateSpan s.span (endedInteraction payload) := by
  unfold describeInteraction endedInteraction interactionAttributes
  by_cases herror : payload.errorCode ≠ 0 ∧ payload.errorMsg ≠ []
  · simp only [if_pos herror, setErrorStatus_eq, hkind, Tracer.setAttribute, updateSpan_updateSpan]
    split <;> rfl
  · simp only [if_neg herror, Tracer.setStatus, Tracer.setAttribute]
    split <;> simp only [updateSpan_updateSpan]

theorem describeRequest_eq (sdk : Sdk) (t : Tracer) {s : IScopedSpan}
    (hkind : s.getSpanKind = .SERVER)
    (error : Option Bytes) (payload : Option ResponsePayload) :
    describeRequest sdk t s error payload =
      t.updateSpan s.span (endedRequest sdk error payload) := by
  have hstatus : describeRequest sdk t s error none = t.updateSpan s.span fun span =>
      { span with status := requestStatus sdk error } := by
    cases error with
    | none => rfl
    | some error =>
      refine (setErrorStatus_eq t s _ _).trans ?_
      rw [hkind]
      rfl
  cases payload with
  | none => exact hstatus
  | some payload =>
    show addResponse (describeRequest sdk t s error none) s.span payload = _
    rw [hstatus, addResponse, addAttributes_eq, addAttributes_eq, Tracer.setAttribute,
      updateSpan_updateSpan, updateSpan_updateSpan, updateSpan_updateSpan]
    rfl

/-! ### The attributes of a request -/

/-- The attributes that have names of their own. -/
def requestFields (payload : RequestPayload) : List (Bytes × AttributeValue) :=
  [(ascii "request_protocol", .string payload.requestProtocol),
    (ascii "http.server_name", .string payload.serverName),
    (ascii "http.method", .string payload.httpRequestMethod),
    (ascii "http.scheme", .string payload.scheme), (ascii "net.host.name", .string payload.host),
    (ascii "net.server.port", .int64 payload.port), (ascii "http.target", .string payload.target),
    (ascii "http.flavor", .string payload.flavor),
    (ascii "http.client_ip", .string payload.clientIp),
    (ascii "http.user_agent", .string payload.userAgent),
    (ascii "net.remote.port", .int64 payload.peerPort)]

/-- Their names. -/
def requestFieldNames : List Bytes :=
  [ascii "request_protocol", ascii "http.server_name", ascii "http.method", ascii "http.scheme",
    ascii "net.host.name", ascii "net.server.port", ascii "http.target", ascii "http.flavor",
    ascii "http.client_ip", ascii "http.user_agent", ascii "net.remote.port"]

theorem requestFieldNames_nodup : requestFieldNames.Nodup := by decide

/-- None of them is that of another attribute. -/
theorem requestFieldNames_apart : ∀ key ∈ requestFieldNames, key ≠ ascii "http.status_code" ∧
    ¬ascii "http.request.header." <+: key ∧ ¬ascii "http.response.header." <+: key ∧
      ¬ascii "otel.attribute." <+: key := by
  decide

/-- What is under every key when a request has ended: headers and further attributes under their
starts, the status code, and the fields. -/
structure RequestAttributes (payload : RequestPayload) (response : ResponsePayload)
    (attributes : Attributes) : Prop where
  requestHeader : ∀ name, attributes.find? (ascii "http.request.header." ++ name) =
    (payload.requestHeaders.find? name).map .string
  responseHeader : ∀ name, attributes.find? (ascii "http.response.header." ++ name) =
    (response.responseHeaders.find? name).map .string
  otelAttribute : ∀ name, attributes.find? (ascii "otel.attribute." ++ name) =
    (response.otelAttributes.find? name).map .string
  statusCode : attributes.find? (ascii "http.status_code") = some (.uint32 response.statusCode)
  field : ∀ key, key ≠ ascii "http.status_code" → ¬ascii "http.request.header." <+: key →
    ¬ascii "http.response.header." <+: key → ¬ascii "otel.attribute." <+: key →
    attributes.find? key = lastValue (requestFields payload) key

theorem withTexts_eq (start : Bytes) (texts : OrderedMap Bytes Bytes) (attributes : Attributes) :
    withTexts start texts attributes =
      (texts.entries.map fun kv => (start ++ kv.1, AttributeValue.string kv.2)).foldl
        (fun attributes x => attributes.insert x.1 x.2) attributes := by
  rw [List.foldl_map]
  rfl

theorem find?_withTexts (start : Bytes) (texts : OrderedMap Bytes Bytes) (attributes : Attributes)
    (name : Bytes) :
    (withTexts start texts attributes).find? (start ++ name) =
      ((texts.find? name).map .string).or (attributes.find? (start ++ name)) := by
  rw [withTexts_eq, find?_foldl_insert, lastValue_map (List.append_right_injective start),
    ← find?_eq_lastValue]

theorem find?_withTexts_of_not_prefix {start key : Bytes} (h : ¬start <+: key)
    (texts : OrderedMap Bytes Bytes) (attributes : Attributes) :
    (withTexts start texts attributes).find? key = attributes.find? key := by
  have hnone : lastValue (texts.entries.map fun kv =>
      (start ++ kv.1, AttributeValue.string kv.2)) key =
      none := by
    refine lastValue_eq_none_iff.mpr fun hmem => h ?_
    rw [List.map_map] at hmem
    obtain ⟨kv, -, rfl⟩ := List.mem_map.mp hmem
    exact List.prefix_append start kv.1
  rw [withTexts_eq, find?_foldl_insert, hnone, Option.none_or]

/-- Texts that differ at a place are not the start of one another. -/
theorem not_prefix_append {s t : Bytes} (n : ℕ) (hs : n < s.length) (ht : n < t.length)
    (hne : s[n]? ≠ t[n]?) (rest : Bytes) : ¬s <+: t ++ rest := by
  rintro ⟨rest', heq⟩
  have hget := congrArg (fun l => l[n]?) heq
  rw [List.getElem?_append_left hs, List.getElem?_append_left ht] at hget
  exact hne hget

/-- The names of the fields have none of the starts. -/
theorem lastValue_requestFields (payload : RequestPayload) {start : Bytes}
    (hstart : start = ascii "http.request.header." ∨ start = ascii "http.response.header." ∨
      start = ascii "otel.attribute.") (name : Bytes) :
    lastValue (requestFields payload) (start ++ name) = none := by
  refine lastValue_eq_none_iff.mpr fun hmem => ?_
  obtain ⟨-, hrequest, hresponse, hattribute⟩ := requestFieldNames_apart _ hmem
  rcases hstart with rfl | rfl | rfl
  · exact hrequest (List.prefix_append _ name)
  · exact hresponse (List.prefix_append _ name)
  · exact hattribute (List.prefix_append _ name)

theorem requestAttributes (payload : RequestPayload) (response : ResponsePayload) :
    RequestAttributes payload response (responseAttributes response (rootAttributes payload)) := by
  have hfields : ∀ key,
      ((requestFields payload).foldl (fun attributes x => attributes.insert x.1 x.2)
      (∅ : Attributes)).find? key = lastValue (requestFields payload) key := by
    intro key
    rw [find?_foldl_insert]
    exact Option.or_none ..
  have hroot : rootAttributes payload =
      withTexts (ascii "http.request.header.") payload.requestHeaders
      ((requestFields payload).foldl (fun attributes x => attributes.insert x.1 x.2) ∅) := rfl
  have hstatus : ∀ {start : Bytes} (name : Bytes), ¬start <+: ascii "http.status_code" →
      ascii "http.status_code" ≠ start ++ name := by
    rintro start name hnot heq
    exact hnot (heq ▸ List.prefix_append start name)
  constructor
  · intro name
    rw [responseAttributes, OrderedMap.find?_insert_of_ne _ (hstatus name (by decide)),
      find?_withTexts_of_not_prefix (not_prefix_append 0 (by decide) (by decide) (by decide) name),
      find?_withTexts_of_not_prefix (not_prefix_append 7 (by decide) (by decide) (by decide) name),
      hroot, find?_withTexts, hfields, lastValue_requestFields payload (.inl rfl), Option.or_none]
  · intro name
    rw [responseAttributes, OrderedMap.find?_insert_of_ne _ (hstatus name (by decide)),
      find?_withTexts_of_not_prefix (not_prefix_append 0 (by decide) (by decide) (by decide) name),
      find?_withTexts, hroot,
      find?_withTexts_of_not_prefix (not_prefix_append 7 (by decide) (by decide) (by decide) name),
      hfields, lastValue_requestFields payload (.inr (.inl rfl)), Option.or_none]
  · intro name
    rw [responseAttributes, OrderedMap.find?_insert_of_ne _ (hstatus name (by decide)),
      find?_withTexts,
      find?_withTexts_of_not_prefix (not_prefix_append 0 (by decide) (by decide) (by decide) name),
      hroot,
      find?_withTexts_of_not_prefix (not_prefix_append 0 (by decide) (by decide) (by decide) name),
      hfields, lastValue_requestFields payload (.inr (.inr rfl)), Option.or_none]
  · exact OrderedMap.find?_insert_self _ _ _
  · intro key hkey hrequest hresponse hattribute
    rw [responseAttributes, OrderedMap.find?_insert_of_ne _ (Ne.symm hkey),
      find?_withTexts_of_not_prefix hattribute, find?_withTexts_of_not_prefix hresponse, hroot,
      find?_withTexts_of_not_prefix hrequest, hfields]

/-! ### The spans of an engine -/

/-- A new span comes behind the others. -/
theorem createSpan_appends (sdk : Sdk) (t : Tracer) (name : Bytes) (kind : SpanKind)
    (attributes : OtelKeyValueMap) (carrier : Carrier) :
    (createSpan sdk t name kind attributes carrier).2.spans = t.spans ++
      [⟨name, kind, ((if kind = .SERVER then remoteParent sdk carrier else none).map .remote).or
        t.contexts.current.span, attributes, (.Unset, [])⟩] := by
  by_cases hkind : kind = .SERVER
  · have hparent :=
      (extractContext_spec (sdk.propagators.map fun propagator => propagator.extract carrier)
      t.contexts.current t.contexts).1
    rw [createSpan, if_pos hkind, if_pos hkind, hkind, remoteParent, ← hparent]
    rfl
  · rw [createSpan, if_neg hkind, if_neg hkind]
    rfl

namespace RequestProcessingEngine

section

variable (sdk : Sdk) (getSpanName : Bytes → Bytes)

/-- The span that a call starts. -/
def begun (e : RequestProcessingEngine) : Call → Option Span
  | .startRequest _ (some payload) true =>
    some (rootSpanOf sdk getSpanName e.tracer.contexts.current.span payload)
  | .startInteraction (some _) (some payload) _ =>
    some (interactionSpanOf e.tracer.contexts.current.span payload)
  | _ => none

/-- What a call makes of a span that it ends.  An interaction that is still active when its
request ends stays as it was started. -/
def finished : Call → Span → Span
  | .endInteraction _ _ (some payload), span => endedInteraction payload span
  | .endRequest _ error payload, span =>
    if span.kind = .SERVER then endedRequest sdk error payload span else span
  | _, span => span

variable {sdk} in
theorem finished_root {reqHandle : Option ℕ} {error : Option Bytes}
    {payload : Option ResponsePayload}
    {span : Span} (h : span.kind = .SERVER) :
    finished sdk (.endRequest reqHandle error payload) span = endedRequest sdk error payload span :=
  if_pos h

/-- The ledger of an engine whose calls all use one SDK. -/
def recording : Ledger RequestProcessingEngine Call Outcome Span where
  records e := e.tracer.spans
  closed e := e.tracer.ended
  opened t := begun sdk getSpanName t.before t.call
  finished t := finished sdk t.call

end

/-- The spans of live requests: the roots are a server's, the interactions a client's. -/
structure Kinds (e : RequestProcessingEngine) : Prop where
  root : ∀ handle c, e.requests handle = some c → c.rootSpan.getSpanKind = .SERVER
  interactions : ∀ handle c, e.requests handle = some c → ∀ s ∈ c.interactions,
    s.getSpanKind = .CLIENT
  spans : ∀ handle c, e.requests handle = some c → ∀ s ∈ c.openSpans,
    (e.tracer.spans.map Span.kind)[s.span]? = some s.getSpanKind

variable {sdk : Sdk} {getSpanName : Bytes → Bytes} {e e' : RequestProcessingEngine} {call : Call}
  {o : Outcome} {handle : ℕ} {c : RequestContext}

theorem kinds_init : Kinds init where
  root _ _ hlive := by cases hlive
  interactions _ _ hlive := by cases hlive
  spans _ _ hlive := by cases hlive

theorem Kinds.kind_eq (K : Kinds e) (hlive : e.requests handle = some c) {s : IScopedSpan}
    (hs : s ∈ c.openSpans) {span : Span} (hspan : e.tracer.spans[s.span]? = some span) :
    span.kind = s.getSpanKind := by
  have hkind := K.spans handle c hlive s hs
  rw [List.getElem?_map, hspan] at hkind
  exact Option.some.inj hkind

theorem Kinds.lt (K : Kinds e) (hlive : e.requests handle = some c) {s : IScopedSpan}
    (hs : s ∈ c.openSpans) : s.span < e.tracer.spans.length := by
  obtain ⟨hlt, -⟩ := List.getElem?_eq_some_iff.mp (K.spans handle c hlive s hs)
  rwa [List.length_map] at hlt

/-- Ending spans of a request keeps the kinds. -/
theorem Kinds.ending (K : Kinds e) (hlive : e.requests handle = some c) {r : Option RequestContext}
    (hrequests : e'.requests = Function.update e.requests handle r)
    (hkinds : e'.tracer.spans.map Span.kind = e.tracer.spans.map Span.kind)
    (hr : ∀ c', r = some c' → c'.rootSpan = c.rootSpan ∧ c'.interactions ⊆ c.interactions) :
    Kinds e' := by
  have hbefore : ∀ k c', e'.requests k = some c' → ∃ c₀, e.requests k = some c₀ ∧
      c'.rootSpan = c₀.rootSpan ∧ c'.interactions ⊆ c₀.interactions := by
    intro k c' hk
    rw [hrequests, update_eq_some_iff] at hk
    rcases hk with ⟨rfl, hk⟩ | ⟨-, hk⟩
    · exact ⟨c, hlive, hr c' hk⟩
    · exact ⟨c', hk, rfl, List.Subset.refl _⟩
  constructor
  · intro k c' hk
    obtain ⟨c₀, hk₀, hroot, -⟩ := hbefore k c' hk
    rw [hroot]
    exact K.root k c₀ hk₀
  · intro k c' hk s hs
    obtain ⟨c₀, hk₀, -, hsubset⟩ := hbefore k c' hk
    exact K.interactions k c₀ hk₀ s (hsubset hs)
  · intro k c' hk s hs
    obtain ⟨c₀, hk₀, hroot, hsubset⟩ := hbefore k c' hk
    rw [hkinds]
    refine K.spans k c₀ hk₀ s ?_
    rcases List.mem_append.mp hs with hs | hs
    · exact List.mem_append_left _ (hsubset hs)
    · exact List.mem_append_right _ (hroot ▸ hs)

/-- So does starting one of the right kind. -/
theorem Kinds.creating (K : Kinds e) {kind : SpanKind}
    (hrequests : e'.requests = Function.update e.requests handle (some c))
    (hkinds : e'.tracer.spans.map Span.kind = e.tracer.spans.map Span.kind ++ [kind])
    (hroot : c.rootSpan.getSpanKind = .SERVER)
    (hinteractions : ∀ s ∈ c.interactions, s.getSpanKind = .CLIENT)
    (hspans : ∀ s ∈ c.openSpans, s.span = e.tracer.spans.length ∧ s.getSpanKind = kind ∨
      (e.tracer.spans.map Span.kind)[s.span]? = some s.getSpanKind) : Kinds e' := by
  have hkept : ∀ (n : ℕ) (k : SpanKind), (e.tracer.spans.map Span.kind)[n]? = some k →
      (e'.tracer.spans.map Span.kind)[n]? = some k := by
    intro n k hn
    rw [hkinds, List.getElem?_append_left (List.getElem?_eq_some_iff.mp hn).1]
    exact hn
  constructor
  · intro k c' hk
    rw [hrequests, update_eq_some_iff] at hk
    rcases hk with ⟨-, hk⟩ | ⟨-, hk⟩
    · exact Option.some.inj hk ▸ hroot
    · exact K.root k c' hk
  · intro k c' hk
    rw [hrequests, update_eq_some_iff] at hk
    rcases hk with ⟨-, hk⟩ | ⟨-, hk⟩
    · exact Option.some.inj hk ▸ hinteractions
    · exact K.interactions k c' hk
  · intro k c' hk s hs
    rw [hrequests, update_eq_some_iff] at hk
    rcases hk with ⟨-, hk⟩ | ⟨-, hk⟩
    · obtain rfl := Option.some.inj hk
      rcases hspans s hs with ⟨hspan, hkind⟩ | hold
      · rw [hkinds, hspan, hkind, ← List.length_map Span.kind, List.getElem?_concat_length]
      · exact hkept _ _ hold
    · exact hkept _ _ (K.spans k c' hk s hs)

theorem Kinds.step (K : Kinds e) (h : e.step sdk getSpanName call = some (o, e')) : Kinds e' := by
  cases stepped sdk getSpanName h with
  | failed _ => exact K
  | @startedRequest wscontext payload name created hcreated =>
    obtain ⟨scope, token, hspan, -⟩ := createSpan_server hcreated
    have happends :=
      createSpan_appends sdk e.tracer name .SERVER (rootAttributes payload) payload.httpHeaders
    rw [hcreated] at happends
    refine K.creating rfl ((congrArg _ happends).trans List.map_append) ?_ (by simp) ?_
    · rw [hspan]
      rfl
    · intro s hs
      obtain rfl := List.mem_singleton.mp hs
      rw [hspan]
      exact .inl ⟨rfl, rfl⟩
  | @startedInteraction handle payload headers name attributes ctx created hlive hcreated =>
    obtain ⟨scope, hspan, -⟩ := createSpan_client hcreated
    have happends := createSpan_appends sdk e.tracer name .CLIENT attributes ∅
    rw [hcreated] at happends
    refine K.creating rfl ((congrArg _ happends).trans List.map_append)
      (K.root handle ctx hlive) ?_ ?_
    · refine List.forall_mem_cons.mpr ⟨?_, K.interactions handle ctx hlive⟩
      rw [hspan]
      rfl
    · refine List.forall_mem_cons.mpr ⟨?_, fun s hs => .inr (K.spans handle ctx hlive s hs)⟩
      rw [hspan]
      exact .inl ⟨rfl, rfl⟩
  | @endedInteraction handle _ payload rContext s rest hlive hopen =>
    have hs : s ∈ rContext.interactions := hopen ▸ List.mem_cons_self
    refine K.ending hlive rfl ?_ ?_
    · rw [(destroy_finish_spans sdk s _).2,
        describeInteraction_eq _ (K.interactions _ _ hlive s hs)]
      exact Tracer.map_updateSpan _ _ fun _ => rfl
    · rintro c' ⟨⟩
      exact ⟨rfl, hopen ▸ List.subset_cons_self s rest⟩
  | @endedRequest handle error payload ctx tracer hlive htracer =>
    refine K.ending hlive rfl ?_ (by simp)
    have hkinds := Tracer.map_updateSpan (g := Span.kind)
      (endInteractions sdk e.tracer ctx.interactions)
      ctx.rootSpan.span (f := endedRequest sdk error payload) fun _ => rfl
    rw [(destroy_finish_spans sdk ctx.rootSpan _).2, ← htracer,
      describeRequest_eq sdk _ (K.root _ _ hlive), hkinds, (endInteractions_spans sdk _ _).2]

/-! ### What a call enters -/

theorem entered_startRequest {wscontext : Bytes} {payload : Option RequestPayload}
    {reqHandle : Bool}
    (h : e.startRequest sdk getSpanName wscontext payload reqHandle = (o, e')) :
    (recording sdk getSpanName).Entered ⟨e, .startRequest wscontext payload reqHandle, o, e'⟩ := by
  unfold startRequest at h
  cases reqHandle with
  | false =>
    cases h
    exact .unchanged (by cases payload <;> rfl) rfl rfl
  | true =>
    cases payload with
    | none =>
      cases h
      exact .unchanged rfl rfl rfl
    | some payload =>
      have happends := createSpan_appends sdk e.tracer
        (if payload.operationName = [] then getSpanName payload.uri else payload.operationName)
        .SERVER (rootAttributes payload) payload.httpHeaders
      cases h
      exact .opens rfl happends rfl

theorem entered_startInteraction {reqHandle : Option ℕ} {payload : Option InteractionPayload}
    {headers : Carrier} (h : e.startInteraction sdk reqHandle payload headers = some (o, e')) :
    (recording sdk getSpanName).Entered ⟨e, .startInteraction reqHandle payload headers, o,
      e'⟩ := by
  unfold startInteraction at h
  cases reqHandle with
  | none =>
    cases h
    exact .unchanged rfl rfl rfl
  | some handle =>
    cases payload with
    | none =>
      cases h
      exact .unchanged rfl rfl rfl
    | some payload =>
      cases hlive : e.requests handle with
      | none => simp [hlive] at h
      | some ctx =>
        have happends :=
          createSpan_appends sdk e.tracer (payload.moduleName ++ ascii "_" ++ payload.phaseName)
            .CLIENT ((∅ : OtelKeyValueMap).insert (ascii "interactionType")
              (.string (ascii "EXIT_CALL"))) ∅
        simp only [hlive] at h
        cases h
        exact .opens rfl happends rfl

/-- An interaction that is ended is open. -/
theorem entered_endedInteraction {ts : List CallTransition} (A : Accounted ts e) (K : Kinds e)
    {ignoreBackend : Bool} {payload : EndInteractionPayload} {s : IScopedSpan}
    {rest : List IScopedSpan}
    (hlive : e.requests handle = some c) (hopen : c.interactions = s :: rest)
    (htracer : e'.tracer = s.destroy sdk (s.finish sdk (describeInteraction e.tracer s payload))) :
    (recording sdk getSpanName).Entered
      ⟨e, .endInteraction (some handle) ignoreBackend (some payload), o, e'⟩ := by
  have hs : s ∈ c.interactions := hopen ▸ List.mem_cons_self
  obtain ⟨hended, hspans⟩ := destroy_finish_spans sdk s (describeInteraction e.tracer s payload)
  rw [← htracer, (describeInteraction_onlyDescribes e.tracer s payload).ended] at hended
  rw [← htracer, describeInteraction_eq _ (K.interactions handle c hlive s hs)] at hspans
  refine .closes rfl (List.forall_mem_singleton.mpr ⟨?_, ?_⟩) (hspans.trans ?_) hended
  · exact K.lt hlive (List.mem_append_left _ hs)
  · exact ((A.live handle c hlive).mem_interactions.mp (List.mem_map_of_mem hs)).2
  · refine Ledger.modify_eq_mapIdx List.mem_cons_self (fun _ _ => rfl) fun i hi hne => ?_
    exact absurd (List.mem_singleton.mp hi) hne

/-- So are those that go with a request, which are left as they are, and its root. -/
theorem entered_endedRequest {ts : List CallTransition} (A : Accounted ts e) (K : Kinds e)
    {error : Option Bytes} {payload : Option ResponsePayload} {tracer : Tracer}
    (hlive : e.requests handle = some c)
    (hdescribed :
      describeRequest sdk (endInteractions sdk e.tracer c.interactions) c.rootSpan error payload =
        tracer)
    (htracer : e'.tracer = c.rootSpan.destroy sdk (c.rootSpan.finish sdk tracer)) :
    (recording sdk getSpanName).Entered ⟨e, .endRequest (some handle) error payload, o, e'⟩ := by
  have hdescribes := A.live handle c hlive
  have hserver := K.root handle c hlive
  have hended := (endedRequest_spans sdk hdescribed).1
  have hspans := (destroy_finish_spans sdk c.rootSpan tracer).2
  rw [← htracer] at hended hspans
  rw [← hdescribed, describeRequest_eq sdk _ hserver] at hspans
  refine .closes rfl (fun n hn => ?_) (hspans.trans ?_) hended
  · rcases List.mem_append.mp hn with hn | hn
    · obtain ⟨s, hs, rfl⟩ := List.mem_map.mp hn
      exact ⟨K.lt hlive (List.mem_append_left _ hs), (hdescribes.mem_interactions.mp hn).2⟩
    · obtain rfl := List.mem_singleton.mp hn
      exact ⟨K.lt hlive c.root_mem_openSpans, hdescribes.root_open⟩
  · show ((endInteractions sdk e.tracer c.interactions).spans.modify c.rootSpan.span _) = _
    rw [(endInteractions_spans sdk c.interactions e.tracer).2]
    refine Ledger.modify_eq_mapIdx (List.mem_append_right _ List.mem_cons_self) (fun r hr => ?_)
      fun n hn hne r hr => ?_
    · exact if_pos ((K.kind_eq hlive c.root_mem_openSpans hr).trans hserver)
    · rcases List.mem_append.mp hn with hn | hn
      · obtain ⟨s, hs, rfl⟩ := List.mem_map.mp hn
        refine if_neg ?_
        rw [K.kind_eq hlive (List.mem_append_left _ hs) hr, K.interactions handle c hlive s hs]
        decide
      · exact absurd (List.mem_singleton.mp hn) hne

/-- Whatever is called, the ledger tells what becomes of the spans. -/
theorem entered {ts : List CallTransition} (A : Accounted ts e) (K : Kinds e)
    (h : e.step sdk getSpanName call = some (o, e')) :
    (recording sdk getSpanName).Entered ⟨e, call, o, e'⟩ := by
  have hstepped := stepped sdk getSpanName h
  cases call with
  | startRequest wscontext payload reqHandle => exact entered_startRequest (Option.some.inj h)
  | startInteraction reqHandle payload headers => exact entered_startInteraction h
  | endInteraction reqHandle ignoreBackend payload =>
    cases hstepped with
    | failed _ => exact .unchanged rfl rfl rfl
    | endedInteraction handle _ payload hlive hopen =>
      exact entered_endedInteraction A K hlive hopen rfl
  | endRequest reqHandle error payload =>
    cases hstepped with
    | failed _ => exact .unchanged rfl rfl rfl
    | endedRequest handle _ _ hlive htracer => exact entered_endedRequest A K hlive htracer rfl

end RequestProcessingEngine

/-! ### The spans of an agent -/

namespace WSAgent

/-- The context whose engine serves a call. -/
def contextOf (a : WSAgent) : Call → Option WebServerContext
  | .startRequest (some wscontext) _ _ => (a.mAgentCore.getRequestProcessor wscontext).2
  | .startInteraction reqHandle _ _ | .endInteraction reqHandle _ _ | .endRequest reqHandle _ _ =>
    (reqHandle.bind a.requests.requests).bind fun ctx =>
      (a.mAgentCore.getRequestProcessor ctx.contextName).2
  | _ => none

/-- It, and what its engine is called with. -/
def servedCall (a : WSAgent) (call : Call) :
    Option (WebServerContext × RequestProcessingEngine.Call) :=
  (a.contextOf call).bind fun ws => (a.engineCall call).map fun engineCall => (ws, engineCall)

section

variable (sdk : TenantConfig → Sdk) (getSpanName : SpanNamer → Bytes → Bytes)

/-- The ledger of the spans, each call read with the SDK and the names of its context. -/
def recording : Ledger WSAgent Call Outcome Span where
  records a := a.requests.tracer.spans
  closed a := a.requests.tracer.ended
  opened t := (t.before.servedCall t.call).bind fun s =>
    t.before.requests.begun (sdk s.1.mTenantConfig) (getSpanName s.1.spanNamer) s.2
  finished t span := (t.before.servedCall t.call).elim span fun s =>
    RequestProcessingEngine.finished (sdk s.1.mTenantConfig) s.2 span

end

variable {sdk : TenantConfig → Sdk} {getSpanName : SpanNamer → Bytes → Bytes} {a a' : WSAgent}
  {ts : List CallTransition} {call : Call} {outcome : Outcome}

/-- No engine serves the call, and the requests stay, or it is a step of the one that does. -/
def ServedStep (sdk : TenantConfig → Sdk) (getSpanName : SpanNamer → Bytes → Bytes)
    (t : CallTransition) :
    Prop :=
  (t.before.servedCall t.call = none ∧ t.after.requests = t.before.requests ∧
      ∀ engine o, t.outcome = .request engine o → o.reqHandle = none) ∨
    ∃ (ws : WebServerContext) (engineCall : RequestProcessingEngine.Call) (o : Webserver.Outcome),
      t.before.servedCall t.call = some (ws, engineCall) ∧ t.outcome = .request (some ws.engine) o ∧
      t.before.requests.step (sdk ws.mTenantConfig) (getSpanName ws.spanNamer) engineCall =
        some (o, t.after.requests)

theorem servedStep (h : a.step sdk getSpanName call = some (outcome, a')) :
    ServedStep sdk getSpanName ⟨a, call, outcome, a'⟩ := by
  have hserved : ∀ context engineCall, a.contextOf call = context →
      a.engineCall call = some engineCall →
      a.serve sdk getSpanName context engineCall = some (outcome, a') →
      ServedStep sdk getSpanName ⟨a, call, outcome, a'⟩ := by
    intro context engineCall hcontext hcall hserve
    obtain ⟨-, ⟨rfl, rfl, rfl⟩ | ⟨ws, o, rfl, houtcome, hstep⟩⟩ := serve_spec hserve
    · refine .inl ⟨?_, rfl, by rintro engine o ⟨⟩; rfl⟩
      rw [servedCall, hcontext]
      rfl
    · refine .inr ⟨ws, engineCall, o, ?_, houtcome, hstep⟩
      rw [servedCall, hcontext, hcall]
      rfl
  rcases step_cases h with ⟨env, answers, rfl, -, -, rfl, rfl⟩ |
    ⟨contextName, contextConfig, rfl, rfl, rfl⟩ | ⟨wscontext, payload, reqHandle, rfl, hserve⟩ |
    ⟨reqHandle, engineCall, hhandle, hcall⟩
  · refine .inl ⟨rfl, ?_, by rintro engine o ⟨⟩⟩
    obtain ⟨-, hresult⟩ | ⟨settings, spanNamer, -, -, hresult⟩ := init_cases a env answers
    · exact congrArg requests hresult
    · rw [hresult]
  · refine .inl ⟨rfl, ?_, by rintro engine o ⟨⟩⟩
    obtain ⟨-, hresult⟩ | ⟨c, -, ⟨-, -, hresult⟩ | ⟨-, -, hresult⟩ | ⟨-, -, hresult⟩ |
        ⟨-, -, hresult⟩⟩ := addWSContextToCore_cases a contextName contextConfig
    all_goals rw [hresult]
  · exact hserved _ _ rfl rfl hserve
  · obtain ⟨handle, ctx, rfl, hlive, hserve⟩ := serveHandle_spec hhandle
    rcases hcall with ⟨_, _, rfl, rfl⟩ | ⟨_, _, rfl, rfl⟩ | ⟨_, _, rfl, rfl⟩
    all_goals
      refine hserved _ _ ?_ rfl hserve
      rw [contextOf, Option.bind_some, hlive, Option.bind_some]

theorem kinds (hrun : Run (step sdk getSpanName) WSAgent.new ts a) : a.requests.Kinds := by
  refine hrun.invariant (fun _ a => a.requests.Kinds) RequestProcessingEngine.kinds_init ?_
  intro ts a call outcome a' K hstep
  rcases servedStep hstep with ⟨-, hsame, -⟩ | ⟨ws, engineCall, o, -, -, hengine⟩
  · have hsame : a'.requests = a.requests := hsame
    rwa [hsame]
  · exact K.step hengine

theorem entered (ts : List CallTransition) (t : CallTransition)
    (hrun : Run (step sdk getSpanName) WSAgent.new ts t.before)
    (hstep : t.before.step sdk getSpanName t.call = some (t.outcome, t.after)) :
    (recording sdk getSpanName).Entered t := by
  rcases servedStep hstep with ⟨hnone, hsame, -⟩ | ⟨ws, engineCall, o, hserved, -, hengine⟩
  · refine .unchanged ?_ (congrArg (fun e => e.tracer.spans) hsame)
      (congrArg (fun e => e.tracer.ended) hsame)
    show (t.before.servedCall t.call).bind _ = none
    rw [hnone, Option.bind_none]
  · have hopened : (recording sdk getSpanName).opened t =
        t.before.requests.begun (sdk ws.mTenantConfig) (getSpanName ws.spanNamer) engineCall := by
      show (t.before.servedCall t.call).bind _ = _
      rw [hserved, Option.bind_some]
    have hfinished : (recording sdk getSpanName).finished t =
        RequestProcessingEngine.finished (sdk ws.mTenantConfig) engineCall := by
      funext span
      show (t.before.servedCall t.call).elim span _ = _
      rw [hserved, Option.elim_some]
    cases RequestProcessingEngine.entered (accounted_requests hrun) (kinds hrun) hengine with
    | unchanged hnone hrecords hclosed => exact .unchanged (hopened.trans hnone) hrecords hclosed
    | opens hsome hrecords hclosed => exact .opens (hopened.trans hsome) hrecords hclosed
    | closes hnone hopen hrecords hclosed =>
      refine .closes (hopened.trans hnone) hopen (hrecords.trans ?_) hclosed
      rw [hfinished]
      rfl

/-- **What a run records.**  The spans of the SDK after a run of the agent are, in the order in
which they were started, what the calls that start requests and interactions say; and each is
what the call in which `End` was called on it, if there is one, makes of that. -/
theorem spans_recorded (hrun : Run (step sdk getSpanName) WSAgent.new ts a) :
    a.requests.tracer.spans = (recording sdk getSpanName).account ts :=
  (Ledger.kept rfl rfl entered hrun).records

/-! ### The span of a request -/

/-- The context of a name, which the request has that has the handle as long as it is live. -/
structure Serves (ws : WebServerContext) (name : Bytes) (handle : ℕ) (a : WSAgent) : Prop where
  settled : Settled a
  looksUp : (a.mAgentCore.getWebServerContext name).1 = name
  context : a.mAgentCore.mWebServerContexts name = some ws
  lt : handle < a.requests.nextHandle
  named : ∀ ctx, a.requests.requests handle = some ctx → ctx.contextName = name

theorem Serves.getRequestProcessor {ws : WebServerContext} {name : Bytes} {handle : ℕ}
    (S : Serves ws name handle a) : (a.mAgentCore.getRequestProcessor name).2 = some ws := by
  show a.mAgentCore.mWebServerContexts (a.mAgentCore.getWebServerContext name).1 = some ws
  rw [S.looksUp]
  exact S.context

theorem Serves.step {ws : WebServerContext} {name : Bytes} {handle : ℕ}
    (S : Serves ws name handle a)
    (h : a.step sdk getSpanName call = some (outcome, a')) : Serves ws name handle a' := by
  have hcontext := context_kept S.settled h S.context
  have hlookup : (a'.mAgentCore.getWebServerContext name).1 = name := S.looksUp
  rcases requests_step h with hsame | ⟨_, _, _, hstepped⟩
  · exact ⟨settled_kept S.settled h, hlookup, hcontext, hsame ▸ S.lt, hsame ▸ S.named⟩
  · obtain ⟨hlt, hnames⟩ := contextName_kept hstepped S.lt
    refine ⟨settled_kept S.settled h, hlookup, hcontext, hlt, fun ctx' hlive' => ?_⟩
    obtain ⟨ctx, hlive, hname⟩ := hnames ctx' hlive'
    exact hname.symm.trans (S.named ctx hlive)

/-- What a `startRequest` that hands out a handle has done. -/
theorem startRequest_served (hsettled : Settled a) {wscontext : Bytes} {payload : RequestPayload}
    {engine : Option ℕ} {o : Webserver.Outcome} {handle : ℕ} (hhandle : o.reqHandle = some handle)
    (h : a.step sdk getSpanName (.startRequest (some wscontext) (some payload) true) =
      some (.request engine o, a')) :
    ∃ ws, (a.mAgentCore.getRequestProcessor wscontext).2 = some ws ∧ engine = some ws.engine ∧
      Serves ws (a.mAgentCore.getRequestProcessor wscontext).1 handle a' ∧
      a.servedCall (.startRequest (some wscontext) (some payload) true) = some (ws,
        .startRequest (a.mAgentCore.getRequestProcessor wscontext).1 (some payload) true) := by
  rcases servedStep h with ⟨-, -, hnone⟩ | ⟨ws, engineCall, o', hserved, houtcome, hengine⟩
  · cases hhandle.symm.trans (hnone engine o rfl)
  · cases houtcome
    obtain ⟨ws', hcontext, hcall⟩ := Option.bind_eq_some_iff.mp hserved
    cases hcall
    have hws : (a.mAgentCore.getRequestProcessor wscontext).2 = some ws := hcontext
    obtain ⟨_, _, _, ctx, hcall, hlive, hname, hlt⟩ := handle_of_step hengine hhandle
    cases hcall
    refine ⟨ws, hws, rfl, ⟨settled_kept hsettled h, ?_, ?_, hlt, ?_⟩, hserved⟩
    · have hlookup := congrArg Prod.fst (getRequestProcessor_idem a.mAgentCore wscontext)
      exact hlookup
    · exact context_kept hsettled h hws
    · intro ctx' hlive'
      rw [hlive] at hlive'
      exact Option.some.inj hlive' ▸ hname

/-- The root span of a live request is the one that was started with its handle. -/
theorem rootSpan_eq {between : List CallTransition} {before : List CallTransition}
    {t : CallTransition}
    (hrun : Run (step sdk getSpanName) WSAgent.new (before ++ t :: between) a)
    {wscontext : Bytes} {payload : RequestPayload} {engine : ℕ} {o : Webserver.Outcome} {handle : ℕ}
    (hcall : t.call = .startRequest (some wscontext) (some payload) true)
    (houtcome : t.outcome = .request (some engine) o) (hhandle : o.reqHandle = some handle)
    {span : Span} (hopened : (recording sdk getSpanName).opened t = some span)
    {ctx : RequestContext}
    (hlive : a.requests.requests handle = some ctx) :
    ctx.rootSpan.span = t.before.requests.tracer.spans.length := by
  obtain ⟨hbefore, hstep⟩ := hrun.reached rfl
  have hlength : t.after.requests.tracer.spans.length =
      t.before.requests.tracer.spans.length + 1 := by
    cases entered _ _ hbefore hstep with
    | unchanged hnone _ _ => cases hnone.symm.trans hopened
    | opens _ hrecords _ => exact (congrArg List.length hrecords).trans List.length_append
    | closes hnone _ _ _ => cases hnone.symm.trans hopened
  have htransition : engineTransition t = some ⟨t.before.requests,
      .startRequest (t.before.mAgentCore.getRequestProcessor wscontext).1 (some payload) true, o,
      t.after.requests⟩ := by
    rw [engineTransition, houtcome, hcall]
    rfl
  have hmem : t.before.requests.tracer.spans.length ∈
      rootSpans handle ((before ++ t :: between).filterMap engineTransition) := by
    refine List.mem_flatMap.mpr ⟨_, List.mem_filterMap.mpr ⟨t, ?_, htransition⟩, ?_⟩
    · exact List.mem_append_right _ List.mem_cons_self
    · simp only [hhandle, if_pos]
      rw [created_of_length_succ hlength rfl rfl]
      exact List.mem_cons_self
  rw [((accounted_requests hrun).live handle ctx hlive).root] at hmem
  exact (List.mem_singleton.mp hmem).symm

/-- The `endRequest` of a live request ends its root span. -/
theorem endRequest_served {ws : WebServerContext} {name : Bytes} {handle : ℕ}
    (S : Serves ws name handle a)
    {error : Option Bytes} {response : Option ResponsePayload} {ctx : RequestContext}
    (hlive : a.requests.requests handle = some ctx)
    (h : a.step sdk getSpanName (.endRequest (some handle) error response) = some (outcome, a')) :
    a.servedCall (.endRequest (some handle) error response) =
        some (ws, .endRequest (some handle) error response) ∧
      ctx.rootSpan.span ∈ a'.requests.tracer.ended := by
  have hserved : a.servedCall (.endRequest (some handle) error response) =
      some (ws, .endRequest (some handle) error response) := by
    have hcontext : a.contextOf (.endRequest (some handle) error response) = some ws := by
      rw [contextOf, Option.bind_some, hlive, Option.bind_some, S.named ctx hlive]
      exact S.getRequestProcessor
    rw [servedCall, hcontext]
    rfl
  refine ⟨hserved, ?_⟩
  rcases servedStep h with ⟨hnone, -⟩ | ⟨ws', engineCall, o', hserved', -, hengine⟩
  · cases hnone.symm.trans hserved
  · cases hserved'.symm.trans hserved
    generalize a'.requests = e' at hengine ⊢
    obtain ⟨o, e, hclosed, hdead⟩ :=
      RequestProcessingEngine.endRequest_closes (sdk ws.mTenantConfig) hlive
      error response
    cases hclosed.symm.trans hengine
    cases RequestProcessingEngine.stepped _ _ hengine with
    | failed hfailed =>
      rw [hdead, Function.update_self] at hlive
      cases hlive
    | endedRequest _ _ _ hlive' htracer =>
      cases hlive'.symm.trans hlive
      show ctx.rootSpan.span ∈ Otel.Tracer.ended _
      rw [(endedRequest_spans _ htracer).1]
      exact List.mem_append_right _ (List.mem_append_right _ List.mem_cons_self)

/-- **What a request records.**  In a run in which a request is started and later ended, whatever
other requests and interactions are called in between and afterwards, its span is what the two calls
say with the SDK of its context, and `End` was called on it once. -/
theorem request_recorded {before between after : List CallTransition} {t u : CallTransition}
    (hrun : Run (step sdk getSpanName) WSAgent.new (before ++ t :: (between ++ u :: after)) a)
    {wscontext : Bytes} {payload : RequestPayload} {engine : Option ℕ} {o : Webserver.Outcome}
    {handle : ℕ} (hstart : t.call = .startRequest (some wscontext) (some payload) true)
    (houtcome : t.outcome = .request engine o) (hhandle : o.reqHandle = some handle)
    {error : Option Bytes} {response : Option ResponsePayload}
    (hend : u.call = .endRequest (some handle) error response) :
    ∃ ws, (t.before.mAgentCore.getRequestProcessor wscontext).2 = some ws ∧
      a.requests.tracer.spans[t.before.requests.tracer.spans.length]? =
        some (endedRequest (sdk ws.mTenantConfig) error response
          (rootSpanOf (sdk ws.mTenantConfig) (getSpanName ws.spanNamer)
            t.before.requests.tracer.contexts.current.span payload)) ∧
      a.requests.tracer.ended.count t.before.requests.tracer.spans.length = 1 := by
  have hsplit : before ++ t :: (between ++ u :: after) =
      (before ++ t :: between) ++ u :: after := by
    simp
  obtain ⟨hbefore, hstep⟩ := hrun.reached rfl
  obtain ⟨hbetween, hstep'⟩ := hrun.reached hsplit
  have hstarted := hstep
  have hended := hstep'
  rw [hstart, houtcome] at hstarted
  rw [hend] at hended
  obtain ⟨ws, hws, rfl, S, hserved⟩ :=
    startRequest_served (engines hbefore).settled hhandle hstarted
  have hopened : (recording sdk getSpanName).opened t = some (rootSpanOf (sdk ws.mTenantConfig)
      (getSpanName ws.spanNamer) t.before.requests.tracer.contexts.current.span payload) := by
    show (t.before.servedCall t.call).bind _ = _
    rw [hstart, hserved]
    rfl
  -- the request is live when it is ended
  have S' : Serves ws _ handle u.before := hbetween.stable (fun _ _ _ _ S h => S.step h) rfl S
  obtain ⟨ctx, hlive⟩ := Option.ne_none_iff_exists'.mp (live_of_call hended rfl)
  obtain ⟨hserved', hmem⟩ := endRequest_served S' hlive hended
  have hroot := rootSpan_eq hbetween hstart houtcome hhandle hopened hlive
  rw [hroot] at hmem
  have hopen : t.before.requests.tracer.spans.length ∉ u.before.requests.tracer.ended :=
    hroot ▸ ((accounted_requests hbetween).live handle ctx hlive).root_open
  have hfinished : (recording sdk getSpanName).finished u =
      RequestProcessingEngine.finished (sdk ws.mTenantConfig)
        (.endRequest (some handle) error response) := by
    funext span
    show (u.before.servedCall u.call).elim span _ = _
    rw [hend, hserved', Option.elim_some]
  refine ⟨ws, hws, ?_, ?_⟩
  · refine (Ledger.getElem?_records rfl rfl entered hrun hopened
      (Ledger.closes_iff.mpr ⟨hmem, hopen⟩)).trans ?_
    rw [hfinished, RequestProcessingEngine.finished_root rfl]
  · have hlast := hrun.stable (P := fun a => t.before.requests.tracer.spans.length ∈
      a.requests.tracer.ended)
      (fun _ _ _ _ hn h => mem_ended h hn) hsplit hmem
    exact List.count_eq_one_of_mem (accounted_requests hrun).ended_nodup hlast

/-! ### A run -/

/-- A request with an interaction that fails, and another request that is started meanwhile. -/
def recordedCalls : List Call :=
  [.init (some sampleSettings) (sampleInit [] 0),
    .startRequest (some []) (some (sampleRequest ∅)) true,
    .startInteraction (some 0) (some ⟨ascii "mod_proxy", ascii "fixup"⟩) ∅,
    .startRequest (some []) (some (sampleRequest ∅)) true,
    .endInteraction (some 0) false (some ⟨[], [], 404, ascii "gone"⟩),
    .endRequest (some 0) (some (ascii "503")) (some ⟨∅, ∅, 503⟩)]

theorem spans_recorded_sample : ∃ ts a,
    Run (step (fun _ => sampleSdk) fun _ uri => uri) WSAgent.new ts a ∧
      a.requests.tracer.spans.map (fun span => (span.parent, span.status)) =
        [(none, (.Error, ascii "HTTP ERROR CODE:503")), (some (.started 0), (.Error, ascii "gone")),
          (some (.started 1), (.Unset, []))] ∧
      a.requests.tracer.spans = (recording (fun _ => sampleSdk) fun _ uri => uri).account ts := by
  have hrun : ∃ r,
      Run.ofCalls (step (fun _ => sampleSdk) fun _ uri => uri) WSAgent.new recordedCalls =
        some r ∧
      r.2.requests.tracer.spans.map (fun span => (span.parent, span.status)) =
        [(none, (.Error, ascii "HTTP ERROR CODE:503")), (some (.started 0), (.Error, ascii "gone")),
          (some (.started 1), (.Unset, []))] := ⟨_, rfl, rfl⟩
  obtain ⟨r, hr, hspans⟩ := hrun
  exact ⟨r.1, r.2, Run.of_ofCalls hr, hspans, spans_recorded (Run.of_ofCalls hr)⟩

example : ∃ ts a,
    Run (step (fun _ => sampleSdk) fun _ uri => uri) WSAgent.new ts a ∧
      a.requests.tracer.spans[0]? =
        some (endedRequest sampleSdk (some (ascii "503")) (some ⟨∅, ∅, 503⟩)
        (rootSpanOf sampleSdk (fun uri => uri) none (sampleRequest ∅))) := by
  have hrun : ∃ t₀ t t₂ t₃ t₄ u a,
      Run.ofCalls (step (fun _ => sampleSdk) fun _ uri => uri) WSAgent.new
        recordedCalls = some ([t₀, t, t₂, t₃, t₄, u], a) ∧
      t.call = .startRequest (some []) (some (sampleRequest ∅)) true ∧
      t.outcome = .request (some 0) ⟨.success, some 0, ∅⟩ ∧
      t.before.requests.tracer.spans.length = 0 ∧
      t.before.requests.tracer.contexts.current.span = none ∧
      u.call = .endRequest (some 0) (some (ascii "503")) (some ⟨∅, ∅, 503⟩) :=
    ⟨_, _, _, _, _, _, _, rfl, rfl, rfl, rfl, rfl, rfl⟩
  obtain ⟨t₀, t, t₂, t₃, t₄, u, a, hr, hstart, houtcome, hlength, hcurrent, hend⟩ := hrun
  have hrun : Run (step (fun _ => sampleSdk) fun _ uri => uri) WSAgent.new
      ([t₀] ++ t :: ([t₂, t₃, t₄] ++ u :: [])) a := Run.of_ofCalls hr
  obtain ⟨ws, -, hspan, -⟩ := request_recorded hrun hstart houtcome rfl hend
  rw [hlength, hcurrent] at hspan
  exact ⟨_, a, hrun, hspan⟩

end WSAgent

end Webserver
