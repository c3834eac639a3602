/-
One span for a request of the nginx module.

`StartNgxSpan` may be called in every location a request passes through, and
`FinishNgxSpan` reads the configuration of the location it ends in.

* `span_per_request_iff` — a request has at most one span, ended once by
  `FinishNgxSpan` with the final status, exactly when at most one call of
  `StartNgxSpan` was let through and, if one was, the last location is enabled and
  none of its attributes takes the place of the status.
-/
import OtelContrib.Nginx.OtelModule

open Otel

namespace Nginx

variable {ngx : NgxCore} {sdk : Sdk} {t : Tracer} {n : ℕ}

/-! ### Attributes of a span -/

/-- Two tracers that differ in names and attributes only. -/
structure Decorates (t t' : Tracer) : Prop extends t.OnlyDescribes t' where
  statuses : t'.spans.map Span.status = t.spans.map Span.status

namespace Decorates

theorem refl (t : Tracer) : Decorates t t := ⟨.refl t, rfl⟩

theorem trans {t t' t'' : Tracer} (h : Decorates t t') (h' : Decorates t' t'') : Decorates t t'' :=
  ⟨h.toOnlyDescribes.trans h'.toOnlyDescribes, h'.statuses.trans h.statuses⟩

theorem updateSpan (t : Tracer) (n : ℕ) {f : Span → Span}
    (hparent : ∀ span, (f span).parent = span.parent)
    (hstatus : ∀ span, (f span).status = span.status) : Decorates t (t.updateSpan n f) :=
  ⟨.updateSpan t n hparent, t.map_updateSpan n hstatus⟩

theorem setAttribute (t : Tracer) (n : ℕ) (key : Bytes) (value : AttributeValue) :
    Decorates t (t.setAttribute n key value) :=
  updateSpan t n (fun _ => rfl) fun _ => rfl

theorem updateName (t : Tracer) (n : ℕ) (name : Bytes) : Decorates t (t.updateName n name) :=
  updateSpan t n (fun _ => rfl) fun _ => rfl

theorem foldl {α : Type} {f : Tracer → α → Tracer} (hf : ∀ (t : Tracer) a, Decorates t (f t a))
    (items : List α) (t : Tracer) : Decorates t (items.foldl f t) := by
  induction items generalizing t with
  | nil => exact refl t
  | cons a items ih => exact (hf t a).trans (ih (f t a))

theorem setIfPresent (t : Tracer) (span : ℕ) (key : Bytes) (value : Option Bytes) :
    Decorates t (setIfPresent t span key value) := by
  cases value with
  | none => exact refl t
  | some value => exact setAttribute t span key _

theorem otelCaptureHeaders (ngx : NgxCore) (t : Tracer) (span : ℕ) (keyPrefix : Bytes)
    (headers : Headers) (names values : Option Bytes) (excluded : List (Option ℕ)) :
    Decorates t (otelCaptureHeaders ngx t span keyPrefix headers names values excluded) := by
  refine foldl (fun t entry => ?_) _ t
  split
  · exact refl t
  · exact setAttribute t span _ _

theorem addScriptAttributes (ngx : NgxCore) (t : Tracer) (span : ℕ)
    (attributes : List CompiledScriptAttribute) (req : NgxHttpRequest) :
    Decorates t (addScriptAttributes ngx t span attributes req) := by
  refine foldl (fun t attrib => ?_) attributes t
  split
  · exact setAttribute t span _ _
  · exact refl t

theorem lt {t t' : Tracer} (h : Decorates t t') (hn : n < t.spans.length) : n < t'.spans.length :=
  h.length ▸ hn

theorem ite {t u : Tracer} {p : Prop} [Decidable p] (h : Decorates t u) :
    Decorates t (if p then u else t) := by
  split
  · exact h
  · exact refl t

theorem captured (ngx : NgxCore) (t : Tracer) (span : ℕ) (keyPrefix : Bytes) (req : NgxHttpRequest)
    (headers : Headers) (names values : Option Bytes) (excluded : List (Option ℕ)) :
    Decorates t (if req.locConf.captureHeaders then
      Nginx.otelCaptureHeaders ngx t span keyPrefix headers names values excluded else t) :=
  ite (otelCaptureHeaders ngx t span keyPrefix headers names values excluded)

end Decorates

/-- What a span has under a key. -/
def attributeOf (t : Tracer) (n : ℕ) (key : Bytes) : Option AttributeValue :=
  t.spans[n]?.bind fun span => span.attributes.find? key

theorem spans_updateSpan (t : Tracer) (n : ℕ) (f : Span → Span) :
    (t.updateSpan n f).spans[n]? = t.spans[n]?.map f := by
  rw [Tracer.updateSpan, List.getElem?_modify_eq]
  rfl

theorem attributeOf_setAttribute (hn : n < t.spans.length) (key key' : Bytes)
    (value : AttributeValue) :
    attributeOf (t.setAttribute n key' value) n key =
      if key' = key then some value else attributeOf t n key := by
  rw [attributeOf, attributeOf, Tracer.setAttribute, spans_updateSpan, List.getElem?_eq_getElem hn]
  by_cases hkey : key' = key
  · rw [if_pos hkey, hkey]
    exact OrderedMap.find?_insert_self _ _ _
  · rw [if_neg hkey]
    exact OrderedMap.find?_insert_of_ne _ hkey _

theorem attributeOf_of_attributes {f : Span → Span}
    (hf : ∀ span, (f span).attributes = span.attributes)
    (key : Bytes) : attributeOf (t.updateSpan n f) n key = attributeOf t n key := by
  rw [attributeOf, attributeOf, spans_updateSpan]
  cases t.spans[n]? with
  | none => rfl
  | some span => exact congrArg (OrderedMap.find? · key) (hf span)

theorem attributeOf_updateName (t : Tracer) (n : ℕ) (name key : Bytes) :
    attributeOf (t.updateName n name) n key = attributeOf t n key :=
  attributeOf_of_attributes (f := fun span => { span with name := name }) (fun _ => rfl) key

theorem attributeOf_setStatus (t : Tracer) (n : ℕ) (code : StatusCode) (desc key : Bytes) :
    attributeOf (t.setStatus n code desc) n key = attributeOf t n key :=
  attributeOf_of_attributes (f := fun span => { span with status := (code, desc) })
    (fun _ => rfl) key

/-- Captured headers are kept apart from other attributes by what their keys start with. -/
theorem attributeOf_otelCaptureHeaders (hn : n < t.spans.length) {keyPrefix key : Bytes}
    (hkey : ¬keyPrefix <+: key) (headers : Headers) (names values : Option Bytes)
    (excluded : List (Option ℕ)) :
    attributeOf (otelCaptureHeaders ngx t n keyPrefix headers names values excluded) n key =
      attributeOf t n key := by
  rw [otelCaptureHeaders]
  induction headers.zipIdx generalizing t with
  | nil => rfl
  | cons entry entries ih =>
    rw [List.foldl_cons]
    split
    · exact ih hn
    · rw [ih (by rwa [(Decorates.setAttribute t n _ _).length]),
        attributeOf_setAttribute hn, if_neg]
      rintro rfl
      exact hkey (List.prefix_append _ _)

/-- The captured headers of a response are none of its status. -/
theorem attributeOf_captured (hn : n < t.spans.length) {p : Prop} [Decidable p] (headers : Headers)
    (names values : Option Bytes) (excluded : List (Option ℕ)) :
    attributeOf
      (if p then
        otelCaptureHeaders ngx t n (ascii "http.response.header.") headers names values excluded
      else t) n (ascii "http.status_code") =
        attributeOf t n (ascii "http.status_code") := by
  split
  · exact attributeOf_otelCaptureHeaders hn (by decide) headers names values excluded
  · rfl

/-- What a list of attributes sets under a key, in order. -/
def valuesFor (ngx : NgxCore) (key : Bytes) (attributes : List CompiledScriptAttribute)
    (req : NgxHttpRequest) : List AttributeValue :=
  attributes.filterMap fun attrib =>
    (attrib.eval ngx req).bind fun kv => if kv.1 = key then some kv.2 else none

/-- The last attribute with a key decides. -/
theorem attributeOf_addScriptAttributes (hn : n < t.spans.length) (key : Bytes)
    (attributes : List CompiledScriptAttribute) (req : NgxHttpRequest) :
    attributeOf (addScriptAttributes ngx t n attributes req) n key =
      (valuesFor ngx key attributes req).getLast?.or (attributeOf t n key) := by
  induction attributes using List.reverseRecOn with
  | nil => rfl
  | append_singleton attributes attrib ih =>
    have hlength := (Decorates.addScriptAttributes ngx t n attributes req).length
    rw [addScriptAttributes, List.foldl_append] at *
    rw [valuesFor, List.filterMap_append, List.filterMap_cons, List.filterMap_nil, List.foldl_cons,
      List.foldl_nil]
    rw [valuesFor] at ih
    rcases heval : attrib.eval ngx req with _ | ⟨key', value⟩
    · rw [Option.bind_none, List.append_nil]
      exact ih
    · dsimp only [Option.bind_some]
      rw [attributeOf_setAttribute (hlength ▸ hn)]
      by_cases hkey : key' = key
      · simp [hkey]
      · rw [if_neg hkey, if_neg hkey, List.append_nil]
        exact ih

/-- No attribute of a script is a number like the status. -/
theorem valuesFor_ne {key : Bytes} {attributes : List CompiledScriptAttribute}
    {req : NgxHttpRequest}
    {value : AttributeValue} (h : value ∈ valuesFor ngx key attributes req) (status : UInt64) :
    value ≠ .uint64 status := by
  obtain ⟨attrib, -, hvalue⟩ := List.mem_filterMap.mp h
  obtain ⟨⟨key', value'⟩, heval, hvalue⟩ := Option.bind_eq_some_iff.mp hvalue
  obtain ⟨-, hvalue⟩ := Option.ite_none_right_eq_some.mp hvalue
  have hvalue : value' = value := Option.some.inj hvalue
  rw [CompiledScriptAttribute.eval] at heval
  split at heval
  · obtain ⟨-, heval⟩ := Prod.mk.inj (Option.some.inj heval)
    rw [← hvalue, ← heval]
    split
    · rintro ⟨⟩
    · rintro ⟨⟩
  · cases heval

/-- What a span was set to. -/
def statusOf (t : Tracer) (n : ℕ) : Option (StatusCode × Bytes) := t.spans[n]?.map Span.status

theorem Decorates.statusOf {t t' : Tracer} (h : Decorates t t') (n : ℕ) :
    statusOf t' n = statusOf t n := by
  rw [Nginx.statusOf, Nginx.statusOf, ← List.getElem?_map, h.statuses, List.getElem?_map]

/-! ### The calls for a request -/

/-- The calls of `StartNgxSpan` that are let through. -/
def startsSpan (ngx : NgxCore) (req : NgxHttpRequest) : Bool :=
  isOtelEnabled ngx req && !req.internal

theorem startNgxSpan_of_not {req : NgxHttpRequest} (h : startsSpan ngx req = false) (s : State) :
    startNgxSpan ngx sdk s req = s := by
  rw [startNgxSpan]
  rcases Bool.and_eq_false_iff.mp h with henabled | hinternal
  · exact if_pos (by rw [henabled]; exact Bool.false_ne_true)
  · split
    · rfl
    · exact if_pos (by rwa [Bool.not_eq_false'] at hinternal)

theorem modify_append_length {α : Type} (l : List α) (a : α) (f : α → α) :
    (l ++ [a]).modify l.length f = l ++ [f a] := by
  induction l with
  | nil => rfl
  | cons b l ih => exact congrArg (b :: ·) ih

/-- A call that is let through starts one span, and ends none. -/
structure StartedSpan (s s' : State) (req : NgxHttpRequest) : Prop where
  length : s'.tracer.spans.length = s.tracer.spans.length + 1
  ended : s'.tracer.ended = s.tracer.ended
  contexts : s'.contexts = s.contexts ++ [⟨req.address, some s.tracer.spans.length⟩]
  otel_ctx : s.otel_ctx = none → s'.otel_ctx = some [(req.address, s.contexts.length)]

theorem startNgxSpan_started {req : NgxHttpRequest} (h : startsSpan ngx req = true) (s : State) :
    StartedSpan s (startNgxSpan ngx sdk s req) req := by
  obtain ⟨henabled, hinternal⟩ := Bool.and_eq_true_iff.mp h
  rw [Bool.not_eq_true'] at hinternal
  rw [startNgxSpan, if_neg (not_not_intro henabled),
    if_neg (by rw [hinternal]; exact Bool.false_ne_true)]
  -- what follows the start of the span only decorates it
  have hdecorates {t : Tracer} {span : ℕ} {v₁ v₂ v₃ : Option Bytes} {headers : Headers}
      {names values : Option Bytes} {excluded : List (Option ℕ)} :=
    (((Decorates.setIfPresent t span (ascii "http.server_name") v₁).trans
      (.setIfPresent _ span (ascii "http.host") v₂)).trans
      (.setIfPresent _ span (ascii "http.user_agent") v₃)).trans
      (.captured ngx _ span (ascii "http.request.header.") req headers names values excluded)
  refine ⟨hdecorates.length.trans List.length_append, hdecorates.ended, modify_append_length _ _ _,
    fun hnone => ?_⟩
  dsimp only [createTraceContext]
  rw [hnone]
  rfl

theorem statusOf_setStatus (hn : n < t.spans.length) (code : StatusCode) (desc : Bytes) :
    statusOf (t.setStatus n code desc) n = some (code, desc) := by
  rw [statusOf, Tracer.setStatus, spans_updateSpan, List.getElem?_eq_getElem hn]
  rfl

/-- The status a response gives its span. -/
def finalStatus (status_code : UInt64) : StatusCode × Bytes :=
  (if status_code ≥ 500 then .Error else .Ok, [])

/-- A call that finds a span ends it; the attributes of the configuration come after
those of the response. -/
structure FinishedSpan (ngx : NgxCore) (s s' : State) (n : ℕ)
    (attributes : List CompiledScriptAttribute) (req : NgxHttpRequest) : Prop where
  contexts : s'.contexts = s.contexts
  length : s'.tracer.spans.length = s.tracer.spans.length
  ended : s'.tracer.ended = s.tracer.ended ++ [n]
  status : statusOf s'.tracer n = some (finalStatus req.headers_out.status)
  status_code : attributeOf s'.tracer n (ascii "http.status_code") =
    (valuesFor ngx (ascii "http.status_code") attributes req).getLast?.or
      (some (.uint64 req.headers_out.status))

/-- What becomes of a span between its status and its end. -/
theorem decorates_response (ngx : NgxCore) (t : Tracer) (n : ℕ)
    (scriptAttributes : List CompiledScriptAttribute)
    (req : NgxHttpRequest) {headers : Headers} {names values : Option Bytes} {name : Bytes} :
    Decorates t ((addScriptAttributes ngx (addScriptAttributes ngx
      (if req.locConf.captureHeaders then
        otelCaptureHeaders ngx t n (ascii "http.response.header.") headers names values [] else t)
      n scriptAttributes req) n req.locConf.customAttributes req).updateName n name) :=
  (((Decorates.captured ngx t n _ req _ _ _ _).trans (.addScriptAttributes ngx _ n _ req)).trans
    (.addScriptAttributes ngx _ n _ req)).trans (.updateName _ n _)

theorem finishNgxSpan_finished {s : State} {req : NgxHttpRequest} {context : ℕ}
    (henabled : isOtelEnabled ngx req = true) (hcontext : getTraceContext s req = some context)
    (hspan : s.contexts[context]?.bind TraceContext.request_span = some n)
    (hn : n < s.tracer.spans.length)
    (scriptAttributes : List CompiledScriptAttribute) :
    ∃ s', finishNgxSpan ngx scriptAttributes s req = some s' ∧
      FinishedSpan ngx s s' n (scriptAttributes ++ req.locConf.customAttributes) req := by
  rw [finishNgxSpan, if_neg (not_not_intro henabled), hcontext]
  dsimp only
  rw [hspan]
  refine ⟨_, rfl, rfl, ?_, ?_, ?_, ?_⟩
  · exact (decorates_response ngx _ n scriptAttributes req).length.trans
      ((Tracer.OnlyDescribes.setStatus _ n _ _).length.trans
        (Decorates.setAttribute _ n _ _).length)
  · exact congrArg (· ++ [n]) (decorates_response ngx _ n scriptAttributes req).ended
  · refine ((decorates_response ngx _ n scriptAttributes req).statusOf n).trans
      (statusOf_setStatus ?_ _ _)
    rwa [(Decorates.setAttribute _ n _ _).length]
  · have hstatus (code : StatusCode) : n < ((s.tracer.setAttribute n (ascii "http.status_code")
        (.uint64 req.headers_out.status)).setStatus n code []).spans.length := by
      rwa [(Tracer.OnlyDescribes.setStatus _ n _ _).length, (Decorates.setAttribute _ n _ _).length]
    refine (attributeOf_updateName _ n _ _).trans ?_
    rw [attributeOf_addScriptAttributes
        (((Decorates.captured ngx _ n _ req _ _ _ _).trans (.addScriptAttributes ngx _ n _ req)).lt
          (hstatus _)),
      attributeOf_addScriptAttributes ((Decorates.captured ngx _ n _ req _ _ _ _).lt (hstatus _)),
      attributeOf_captured (hstatus _), attributeOf_setStatus, attributeOf_setAttribute hn,
      if_pos rfl, ← Option.or_assoc, ← List.getLast?_append, valuesFor, valuesFor, valuesFor,
      List.filterMap_append]

theorem finishNgxSpan_length {s s' : State} {req : NgxHttpRequest}
    {scriptAttributes : List CompiledScriptAttribute}
    (h : finishNgxSpan ngx scriptAttributes s req = some s') :
    s'.tracer.spans.length = s.tracer.spans.length := by
  rw [finishNgxSpan] at h
  split at h
  · rw [Option.some.inj h]
  · split at h
    · rw [Option.some.inj h]
    · obtain ⟨span, -, h⟩ := Option.bind_eq_some_iff.mp h
      rw [← Option.some.inj h]
      exact (decorates_response ngx _ span scriptAttributes req).length.trans
        ((Tracer.OnlyDescribes.setStatus _ span _ _).length.trans
          (Decorates.setAttribute _ span _ _).length)

/-! ### One span per request -/

/-- Only the calls that are let through matter. -/
theorem starts_filter (starts : List NgxHttpRequest) (s : State) :
    starts.foldl (startNgxSpan ngx sdk) s =
      (starts.filter (startsSpan ngx)).foldl (startNgxSpan ngx sdk) s := by
  induction starts generalizing s with
  | nil => rfl
  | cons req starts ih =>
    cases h : startsSpan ngx req with
    | false =>
      rw [List.filter_cons_of_neg (by simp [h]), List.foldl_cons, startNgxSpan_of_not h]
      exact ih s
    | true =>
      rw [List.filter_cons_of_pos h, List.foldl_cons, List.foldl_cons]
      exact ih _

theorem starts_length (starts : List NgxHttpRequest) (s : State) :
    (starts.foldl (startNgxSpan ngx sdk) s).tracer.spans.length =
      s.tracer.spans.length + starts.countP (startsSpan ngx) := by
  induction starts generalizing s with
  | nil => rfl
  | cons req starts ih =>
    rw [List.foldl_cons, ih]
    cases h : startsSpan ngx req with
    | false => rw [startNgxSpan_of_not h, List.countP_cons_of_neg (by simp [h])]
    | true => rw [(startNgxSpan_started h s).length, List.countP_cons_of_pos h]; omega

/-- A request without a span so far. -/
def request (t : Tracer) : State := ⟨t, [], none⟩

/-- At most one span for the request, and that one ended once, by `FinishNgxSpan` and
not when the pool goes, with the status of the response. -/
structure SpanPerRequest (t : Tracer) (status_code : UInt64) (s : State) : Prop where
  atMostOne : s.tracer.spans.length ≤ t.spans.length + 1
  ended : s.tracer.ended =
    t.ended ++ List.range' t.spans.length (s.tracer.spans.length - t.spans.length)
  endedOnce : (destroyPool s).ended = s.tracer.ended
  status : ∀ n, t.spans.length ≤ n → n < s.tracer.spans.length →
    statusOf s.tracer n = some (finalStatus status_code) ∧
      attributeOf s.tracer n (ascii "http.status_code") = some (.uint64 status_code)

/-- One call of `StartNgxSpan` that is let through is the only one that counts. -/
theorem starts_one {starts : List NgxHttpRequest} (hone : starts.countP (startsSpan ngx) = 1)
    (s : State) :
    ∃ start ∈ starts, startsSpan ngx start = true ∧
      starts.foldl (startNgxSpan ngx sdk) s = startNgxSpan ngx sdk s start := by
  rw [List.countP_eq_length_filter] at hone
  obtain ⟨start, hfilter⟩ := List.length_eq_one_iff.mp hone
  obtain ⟨hmem, hstarts⟩ := List.mem_filter.mp (hfilter ▸ List.mem_singleton_self start)
  refine ⟨start, hmem, hstarts, ?_⟩
  rw [starts_filter, hfilter]
  rfl

theorem finish_one {start req : NgxHttpRequest} (hstart : startsSpan ngx start = true)
    (haddress : start.address = req.address) (henabled : isOtelEnabled ngx req = true) (t : Tracer)
    (scriptAttributes : List CompiledScriptAttribute) :
    ∃ s, finishNgxSpan ngx scriptAttributes (startNgxSpan ngx sdk (request t) start) req = some s ∧
      FinishedSpan ngx (startNgxSpan ngx sdk (request t) start) s t.spans.length
        (scriptAttributes ++ req.locConf.customAttributes) req := by
  have hstarted : StartedSpan (request t) (startNgxSpan ngx sdk (request t) start) start :=
    startNgxSpan_started hstart (request t)
  have hcontexts : (startNgxSpan ngx sdk (request t) start).contexts =
      [⟨start.address, some t.spans.length⟩] :=
    hstarted.contexts
  have hcontext : getTraceContext (startNgxSpan ngx sdk (request t) start) req = some 0 := by
    rw [getTraceContext, hstarted.otel_ctx rfl, haddress, Option.getD_some, List.lookup_cons_self]
    rfl
  refine finishNgxSpan_finished henabled hcontext ?_ ?_ scriptAttributes
  · rw [hcontexts]
    rfl
  · rw [hstarted.length]
    exact Nat.lt_succ_self _

/-- Without a span there is nothing to finish. -/
theorem finish_none (req : NgxHttpRequest) (t : Tracer)
    (scriptAttributes : List CompiledScriptAttribute) :
    finishNgxSpan ngx scriptAttributes (request t) req = some (request t) := by
  rw [finishNgxSpan]
  split
  · rfl
  · rfl

theorem starts_none {starts : List NgxHttpRequest} (hnone : starts.countP (startsSpan ngx) = 0)
    (s : State) :
    starts.foldl (startNgxSpan ngx sdk) s = s := by
  rw [List.countP_eq_length_filter, List.length_eq_zero_iff] at hnone
  rw [starts_filter, hnone]
  rfl

theorem spanPerRequest_none (t : Tracer) (status_code : UInt64) :
    SpanPerRequest t status_code (request t) := by
  refine ⟨Nat.le_succ _, ?_, rfl, fun n hle hlt => absurd hlt (Nat.not_lt.mpr hle)⟩
  show t.ended = _
  rw [show (request t).tracer.spans.length - t.spans.length = 0 from Nat.sub_self _,
    List.range'_zero, List.append_nil]

/-- A finished span has what it should, unless an attribute replaced the status. -/
theorem spanPerRequest_one {start req : NgxHttpRequest} (hstart : startsSpan ngx start = true)
    {t : Tracer} {s : State}
    {attributes : List CompiledScriptAttribute}
    (hs : FinishedSpan ngx (startNgxSpan ngx sdk (request t) start) s t.spans.length
      attributes req) :
    SpanPerRequest t req.headers_out.status s ↔
      valuesFor ngx (ascii "http.status_code") attributes req = [] := by
  have hstarted : StartedSpan (request t) (startNgxSpan ngx sdk (request t) start) start :=
    startNgxSpan_started hstart (request t)
  have hlength : s.tracer.spans.length = t.spans.length + 1 := hs.length.trans hstarted.length
  have hended : s.tracer.ended = t.ended ++ [t.spans.length] := by
    rw [hs.ended, hstarted.ended]
    rfl
  constructor
  · rintro ⟨-, -, -, hstatus⟩
    obtain ⟨-, hcode⟩ := hstatus t.spans.length (Nat.le_refl _) (by omega)
    rw [hs.status_code] at hcode
    by_contra hne
    rw [List.getLast?_eq_some_getLast hne, Option.some_or] at hcode
    exact valuesFor_ne (List.getLast_mem hne) _ (Option.some.inj hcode)
  · intro hnone
    refine ⟨Nat.le_of_eq hlength, ?_, ?_, ?_⟩
    · rw [hended, hlength, Nat.add_sub_cancel_left]
      rfl
    · have hcontexts : s.contexts = [⟨start.address, some t.spans.length⟩] :=
        hs.contexts.trans hstarted.contexts
      rw [destroyPool, hcontexts]
      exact congrArg Tracer.ended
        (if_pos (hended ▸ List.mem_append_right _ (List.mem_singleton_self _)))
    · intro n hle hlt
      obtain rfl : n = t.spans.length := by omega
      refine ⟨hs.status, ?_⟩
      rw [hs.status_code, hnone]
      rfl

/-- A request has the one span it may have exactly when at most one call of `StartNgxSpan`
is let through and, if one is, the location at the end is enabled and no attribute of its
takes the place of the status. -/
theorem span_per_request_iff (ngx : NgxCore) (sdk : Sdk) (t : Tracer) (starts : List NgxHttpRequest)
    (req : NgxHttpRequest) (scriptAttributes : List CompiledScriptAttribute)
    (hrequest : ∀ start ∈ starts, start.address = req.address) :
    (∃ s, finishNgxSpan ngx scriptAttributes (starts.foldl (startNgxSpan ngx sdk) (request t)) req =
        some s ∧ SpanPerRequest t req.headers_out.status s) ↔
      starts.countP (startsSpan ngx) = 0 ∨
        (starts.countP (startsSpan ngx) = 1 ∧ isOtelEnabled ngx req ∧
          valuesFor ngx (ascii "http.status_code")
            (scriptAttributes ++ req.locConf.customAttributes) req = []) := by
  constructor
  · rintro ⟨s, hfinish, hspan⟩
    have hcount : starts.countP (startsSpan ngx) ≤ 1 := by
      have hlength := finishNgxSpan_length hfinish
      rw [starts_length] at hlength
      have hatMostOne := hspan.atMostOne
      rw [hlength] at hatMostOne
      exact Nat.le_of_add_le_add_left hatMostOne
    rcases Nat.le_one_iff_eq_zero_or_eq_one.mp hcount with hnone | hone
    · exact .inl hnone
    obtain ⟨start, hmem, hstart, hfold⟩ := starts_one hone (request t)
    rw [hfold] at hfinish
    cases henabled : isOtelEnabled ngx req with
    | true =>
      obtain ⟨s', hfinish', hs'⟩ :=
        finish_one hstart (hrequest start hmem) henabled t scriptAttributes
      obtain rfl : s' = s := Option.some.inj (hfinish'.symm.trans hfinish)
      exact .inr ⟨hone, rfl, (spanPerRequest_one hstart hs').mp hspan⟩
    | false =>
      -- the span stays open
      rw [finishNgxSpan, if_pos (by rw [henabled]; exact Bool.false_ne_true)] at hfinish
      have hstarted : StartedSpan (request t) (startNgxSpan ngx sdk (request t) start) start :=
        startNgxSpan_started hstart (request t)
      have hended := hspan.ended
      rw [← Option.some.inj hfinish, hstarted.ended, hstarted.length] at hended
      have hlength := congrArg List.length hended
      rw [List.length_append, List.length_range'] at hlength
      change t.ended.length = t.ended.length + (t.spans.length + 1 - t.spans.length) at hlength
      omega
  · rintro (hnone | ⟨hone, henabled, hvalues⟩)
    · rw [starts_none hnone]
      exact ⟨request t, finish_none req t scriptAttributes, spanPerRequest_none t _⟩
    · obtain ⟨start, hmem, hstart, hfold⟩ := starts_one hone (request t)
      obtain ⟨s, hfinish, hs⟩ :=
        finish_one hstart (hrequest start hmem) henabled t scriptAttributes
      rw [hfold]
      exact ⟨s, hfinish, (spanPerRequest_one hstart hs).mpr hvalues⟩

/-! ### A redirect -/

/-- A location without attributes of its own. -/
def location (enabled : Bool) (name : Bytes) : OtelNgxLocationConf :=
  { enabled := enabled, trustIncomingSpans := true, captureHeaders := false,
    sensitiveHeaderNames := none, sensitiveHeaderValues := none, ignore_paths := none,
    propagationType := .TracePropagationW3C, operationNameScript := ⟨name, false⟩,
    customAttributes := [] }

/-- A request for `/a` in one of its locations. -/
def requestIn (locConf : OtelNgxLocationConf) (internal : Bool) : NgxHttpRequest :=
  { address := 1, parent := false, internal := internal, locConf := locConf, location := none,
    unparsed_uri := ascii "/a", method_name := ascii "GET", http_version := 1001,
    server_name := ascii "localhost",
    headers_in := ⟨[(ascii "Host", ascii "localhost")], some 0, none⟩, headers_out := ⟨200, []⟩ }

def noMatches : NgxCore := ⟨fun _ _ => -1, fun _ _ => none⟩

def nothingExtracted : Sdk := ⟨fun _ => none, fun _ => none⟩

/-- After a redirect to another enabled location the span is ended. -/
theorem redirected_span :
    ∃ s, finishNgxSpan noMatches []
        ([requestIn (location true (ascii "/a")) false,
          requestIn (location true (ascii "/b")) true].foldl
          (startNgxSpan noMatches nothingExtracted) (request .init))
        (requestIn (location true (ascii "/b")) true) = some s ∧
      SpanPerRequest .init 200 s :=
  (span_per_request_iff noMatches nothingExtracted .init
    [requestIn (location true (ascii "/a")) false, requestIn (location true (ascii "/b")) true]
    (requestIn (location true (ascii "/b")) true) []
    (by simp [requestIn])).mpr (.inr ⟨rfl, rfl, rfl⟩)

/-- After a redirect to a location that is not, it stays open. -/
theorem redirected_span_open :
    ¬∃ s, finishNgxSpan noMatches []
        ([requestIn (location true (ascii "/a")) false,
          requestIn (location false (ascii "/b")) true].foldl
          (startNgxSpan noMatches nothingExtracted) (request .init))
        (requestIn (location false (ascii "/b")) true) = some s ∧
      SpanPerRequest .init 200 s := by
  rintro ⟨s, hfinish, hspan⟩
  have hended := hspan.ended
  rw [← Option.some.inj hfinish] at hended
  exact absurd (congrArg List.length hended) (by decide)

end Nginx
