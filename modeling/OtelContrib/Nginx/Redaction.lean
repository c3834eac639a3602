/-
What the span of a request tells of sensitive headers.

The patterns of a location are consulted for captured headers only.  `Host` and `User-Agent`
have attributes of their own, and scripts may read any header.

* `captureWrites_congr` — captured headers do not depend on sensitive values;
* `recordedAttributes_eq` — the attributes of a span are those that the patterns guard, and
  over them `Host`, `User-Agent` and what scripts set;
* `redacts_iff` — two runs that differ in sensitive headers only have the same attributes,
  and no error of the regex engine lets a value through, exactly when that holds of what is
  not guarded, and no check ends in an error unless the other pattern matches.
-/
import OtelContrib.Nginx.SpanAttributes
import Mathlib.Data.List.Forall2

open Otel
open LastWins (lastValue lastValue_append lastValue_singleton lastValue_swap
  lastValue_eq_none_iff)

namespace Nginx

/-- `ngx_regex_exec` gives other negative numbers for errors. -/
def NGX_REGEX_NO_MATCHED : ℤ := -1

/-! ### Two runs -/

/-- `StartNgxSpan` and `FinishNgxSpan` for a request, as it is at each of them. -/
structure RequestRun where
  start : NgxHttpRequest
  finish : NgxHttpRequest
  same : finish.address = start.address

/-- A request with other values of its headers. -/
def NgxHttpRequest.withHeaders (req : NgxHttpRequest) (request response : Headers) :
    NgxHttpRequest :=
  { req with
    headers_in := { req.headers_in with headers := request }
    headers_out := { req.headers_out with headers := response } }

section

variable (ngx : NgxCore)

def isMatch (regex : Option Bytes) (s : Bytes) : Bool :=
  regex.any fun regex => 0 ≤ ngx.ngx_regex_exec regex s

def isError (regex : Option Bytes) (s : Bytes) : Bool :=
  regex.any fun regex =>
    ngx.ngx_regex_exec regex s < 0 ∧ ngx.ngx_regex_exec regex s ≠ NGX_REGEX_NO_MATCHED

/-- Two headers that differ in a sensitive value at most. -/
structure SameHeader (conf : OtelNgxLocationConf) (header header' : Bytes × Bytes) : Prop where
  name : header'.1 = header.1
  value : header'.2 = header.2 ∨ isMatch ngx conf.sensitiveHeaderNames header.1 = true ∨
    (isMatch ngx conf.sensitiveHeaderValues header.2 = true ∧
      isMatch ngx conf.sensitiveHeaderValues header'.2 = true)

/-- Two runs that differ in the values of sensitive headers only, as the locations have it that
capture them. -/
structure DifferInSensitive (run run' : RequestRun) : Prop where
  start : run'.start =
    run.start.withHeaders run'.start.headers_in.headers run'.start.headers_out.headers
  finish : run'.finish =
    run.finish.withHeaders run'.finish.headers_in.headers run'.finish.headers_out.headers
  request_headers : List.Forall₂ (SameHeader ngx run.start.locConf)
    run.start.headers_in.headers run'.start.headers_in.headers
  request_headers_finish : List.Forall₂ (SameHeader ngx run.start.locConf)
    run.finish.headers_in.headers run'.finish.headers_in.headers
  response_headers : List.Forall₂ (SameHeader ngx run.finish.locConf)
    run.finish.headers_out.headers run'.finish.headers_out.headers

/-! ### What is recorded -/

/-- The attributes of the span at its end, if `FinishNgxSpan` is defined. -/
def recordedAttributes (sdk : Sdk) (scriptAttributes : List CompiledScriptAttribute) (t : Tracer)
    (run : RequestRun) : Option (Bytes → Option AttributeValue) :=
  (finishNgxSpan ngx scriptAttributes (startNgxSpan ngx sdk (request t) run.start) run.finish).map
    fun s => attributeOf s.tracer t.spans.length

/-- The headers that the patterns are consulted for, each with the location's configuration. -/
def checkedHeaders (run : RequestRun) : List (OtelNgxLocationConf × (Bytes × Bytes)) :=
  (if startsSpan ngx run.start ∧ run.start.locConf.captureHeaders then
    (keptHeaders run.start.headers_in.headers
      [run.start.headers_in.host, run.start.headers_in.user_agent]).map
        fun header => (run.start.locConf, header)
  else []) ++
  (if startsSpan ngx run.start ∧ isOtelEnabled ngx run.finish ∧
      run.finish.locConf.captureHeaders then
    (keptHeaders run.finish.headers_out.headers []).map fun header => (run.finish.locConf, header)
  else [])

/-- A check of a header ends in an error. -/
def CheckFails (p : OtelNgxLocationConf × (Bytes × Bytes)) : Prop :=
  isError ngx p.1.sensitiveHeaderNames p.2.1 = true ∨
    isError ngx p.1.sensitiveHeaderValues p.2.2 = true

/-- The attributes do not tell the runs apart, and what a check failed for is redacted. -/
structure Redacts (sdk : Sdk) (scriptAttributes : List CompiledScriptAttribute) (t : Tracer)
    (run run' : RequestRun) : Prop where
  attributes : recordedAttributes ngx sdk scriptAttributes t run' =
    recordedAttributes ngx sdk scriptAttributes t run
  errors : ∀ p ∈ checkedHeaders ngx run, CheckFails ngx p →
    capturedValue ngx p.1.sensitiveHeaderNames p.1.sensitiveHeaderValues p.2 = ascii "[REDACTED]"

/-! ### What the patterns guard -/

/-- The attributes that no header decides, and those of captured headers. -/
def guardedWrites (run : RequestRun) : Writes :=
  requestWrites run.start ++ (capturedRequest ngx run.start ++
    if isOtelEnabled ngx run.finish then
      (ascii "http.status_code", .uint64 run.finish.headers_out.status) ::
        capturedResponse ngx run.finish
    else [])

def allScriptWrites (scriptAttributes : List CompiledScriptAttribute) (run : RequestRun) : Writes :=
  if isOtelEnabled ngx run.finish then
    scriptWrites ngx scriptAttributes run.finish ++
      scriptWrites ngx run.finish.locConf.customAttributes run.finish
  else []

/-! ### What they do not -/

/-- What scripts give an attribute. -/
def scriptValue (scriptAttributes : List CompiledScriptAttribute) (run : RequestRun)
    (key : Bytes) : Option AttributeValue :=
  lastValue (allScriptWrites ngx scriptAttributes run) key

/-- What an attribute is where no script sets it. -/
def unscripted (run : RequestRun) (key : Bytes) : Option AttributeValue :=
  lastValue (guardedWrites ngx run ++ dedicatedWrites run.start) key

/-- `Host` and `User-Agent` are the same where no script hides them, and so is what scripts set:
where those of one run only set an attribute, to what the other one has there anyway. -/
structure SameUnguarded (scriptAttributes : List CompiledScriptAttribute)
    (run run' : RequestRun) : Prop where
  host : scriptValue ngx scriptAttributes run (ascii "http.host") = none →
    scriptValue ngx scriptAttributes run' (ascii "http.host") = none →
      run'.start.headers_in.value run'.start.headers_in.host =
        run.start.headers_in.value run.start.headers_in.host
  user_agent : scriptValue ngx scriptAttributes run (ascii "http.user_agent") = none →
    scriptValue ngx scriptAttributes run' (ascii "http.user_agent") = none →
      run'.start.headers_in.value run'.start.headers_in.user_agent =
        run.start.headers_in.value run.start.headers_in.user_agent
  scripts : ∀ key v v', scriptValue ngx scriptAttributes run key = some v →
    scriptValue ngx scriptAttributes run' key = some v' → v' = v
  only_first : ∀ key v, scriptValue ngx scriptAttributes run key = some v →
    scriptValue ngx scriptAttributes run' key = none → unscripted ngx run' key = some v
  only_second : ∀ key v, scriptValue ngx scriptAttributes run key = none →
    scriptValue ngx scriptAttributes run' key = some v → unscripted ngx run key = some v

/-- What is not guarded does not tell the runs apart, and where a check fails the other pattern
matches, or the value reads as redacted. -/
structure Shielded (scriptAttributes : List CompiledScriptAttribute) (run run' : RequestRun) :
    Prop where
  unguarded : startsSpan ngx run.start = true → SameUnguarded ngx scriptAttributes run run'
  errors : ∀ p ∈ checkedHeaders ngx run, CheckFails ngx p →
    isMatch ngx p.1.sensitiveHeaderNames p.2.1 = true ∨
      isMatch ngx p.1.sensitiveHeaderValues p.2.2 = true ∨ p.2.2 = ascii "[REDACTED]"

end

/-! ### Captured headers -/

section

variable {ngx : NgxCore} {sdk : Sdk} {scriptAttributes : List CompiledScriptAttribute}
  {run run' : RequestRun}

theorem capturedValue_eq (names values : Option Bytes) (header : Bytes × Bytes) :
    capturedValue ngx names values header =
      if isMatch ngx names header.1 ∨ isMatch ngx values header.2 then ascii "[REDACTED]"
      else header.2 := rfl

/-- A value that may differ is not recorded. -/
theorem capturedValue_congr {conf : OtelNgxLocationConf} {header header' : Bytes × Bytes}
    (h : SameHeader ngx conf header header') :
    capturedValue ngx conf.sensitiveHeaderNames conf.sensitiveHeaderValues header' =
      capturedValue ngx conf.sensitiveHeaderNames conf.sensitiveHeaderValues header := by
  rw [capturedValue_eq, capturedValue_eq, h.name]
  rcases h.value with heq | hname | ⟨hvalue, hvalue'⟩
  · rw [heq]
  · rw [if_pos (Or.inl hname), if_pos (Or.inl hname)]
  · rw [if_pos (Or.inr hvalue), if_pos (Or.inr hvalue')]

theorem captureWrites_congr {conf : OtelNgxLocationConf} {headers headers' : Headers}
    (h : List.Forall₂ (SameHeader ngx conf) headers headers') (keyPrefix : Bytes)
    (excluded : List (Option ℕ)) :
    captureWrites ngx keyPrefix headers' conf.sensitiveHeaderNames conf.sensitiveHeaderValues
        excluded =
      captureWrites ngx keyPrefix headers conf.sensitiveHeaderNames conf.sensitiveHeaderValues
        excluded := by
  rw [captureWrites, captureWrites, keptHeaders, keptHeaders]
  generalize 0 = k
  induction h generalizing k with
  | nil => rfl
  | cons hhead _ ih =>
    rw [List.zipIdx_cons, List.zipIdx_cons, List.filter_cons, List.filter_cons]
    split
    · rw [List.map_cons, List.map_cons, List.map_cons, List.map_cons, ih,
        capturedValue_congr hhead, hhead.name]
    · exact ih (k + 1)

theorem guardedWrites_congr (h : DifferInSensitive ngx run run') :
    guardedWrites ngx run' = guardedWrites ngx run := by
  have hrequest : capturedRequest ngx run'.start = capturedRequest ngx run.start := by
    rw [h.start, capturedRequest, capturedRequest]
    exact if_congr Iff.rfl (captureWrites_congr h.request_headers _ _) rfl
  have hresponse : capturedResponse ngx run'.finish = capturedResponse ngx run.finish := by
    rw [h.finish, capturedResponse, capturedResponse]
    exact if_congr Iff.rfl (captureWrites_congr h.response_headers _ _) rfl
  rw [guardedWrites, guardedWrites, hrequest, hresponse, h.start, h.finish]
  rfl

/-! ### The attributes of the span -/

theorem mem_captureWrites {keyPrefix : Bytes} {headers : Headers} {names values : Option Bytes}
    {excluded : List (Option ℕ)} {write : Bytes × AttributeValue}
    (h : write ∈ captureWrites ngx keyPrefix headers names values excluded) :
    keyPrefix <+: write.1 := by
  obtain ⟨header, -, rfl⟩ := List.mem_map.mp h
  exact List.prefix_append _ _

theorem dedicated_key {req : NgxHttpRequest} {write : Bytes × AttributeValue}
    (h : write ∈ dedicatedWrites req) :
    write.1 = ascii "http.host" ∨ write.1 = ascii "http.user_agent" := by
  rcases List.mem_append.mp h with h | h
  · obtain ⟨_, -, rfl⟩ := List.mem_map.mp h
    exact Or.inl rfl
  · obtain ⟨_, -, rfl⟩ := List.mem_map.mp h
    exact Or.inr rfl

/-- No guarded attribute is one of the two dedicated ones. -/
theorem guarded_key {write : Bytes × AttributeValue} (h : write ∈ guardedWrites ngx run) :
    write.1 ≠ ascii "http.host" ∧ write.1 ≠ ascii "http.user_agent" := by
  have hcapture : ∀ {p : Prop} [Decidable p] {keyPrefix : Bytes} {headers : Headers}
      {names values : Option Bytes} {excluded : List (Option ℕ)},
      ¬keyPrefix <+: ascii "http.host" → ¬keyPrefix <+: ascii "http.user_agent" →
      write ∈ (if p then captureWrites ngx keyPrefix headers names values excluded else []) →
      write.1 ≠ ascii "http.host" ∧ write.1 ≠ ascii "http.user_agent" := by
    intro p _ keyPrefix headers names values excluded hhost huser h
    split at h
    · have hstart := mem_captureWrites h
      exact ⟨fun heq => hhost (heq ▸ hstart), fun heq => huser (heq ▸ hstart)⟩
    · cases h
  have hfixed : ∀ key ∈ [ascii "http.method", ascii "http.flavor", ascii "http.target",
      ascii "http.server_name", ascii "http.status_code"],
      key ≠ ascii "http.host" ∧ key ≠ ascii "http.user_agent" := by
    decide
  rcases List.mem_append.mp h with h | h
  · refine hfixed write.1 ?_
    rcases List.mem_append.mp h with h | h
    · simp only [List.mem_cons, List.not_mem_nil, or_false] at h
      rcases h with rfl | rfl | rfl <;> simp
    · obtain ⟨_, -, rfl⟩ := List.mem_map.mp h
      simp
  · rcases List.mem_append.mp h with h | h
    · exact hcapture (by decide) (by decide) h
    · split at h
      · rcases List.mem_cons.mp h with rfl | h
        · exact hfixed _ (by simp)
        · exact hcapture (by decide) (by decide) h
      · cases h

/-- `Host` and `User-Agent` could as well be set after all that is guarded. -/
theorem lastValue_guarded (key : Bytes) :
    lastValue ((requestWrites run.start ++ dedicatedWrites run.start ++
        capturedRequest ngx run.start) ++
      if isOtelEnabled ngx run.finish then finishWrites ngx scriptAttributes run.finish else [])
        key =
    (scriptValue ngx scriptAttributes run key).or (unscripted ngx run key) := by
  have hfinish : (if isOtelEnabled ngx run.finish then
        finishWrites ngx scriptAttributes run.finish else []) =
      (if isOtelEnabled ngx run.finish then
        (ascii "http.status_code", .uint64 run.finish.headers_out.status) ::
          capturedResponse ngx run.finish
        else []) ++ allScriptWrites ngx scriptAttributes run := by
    rw [allScriptWrites]
    split
    · rw [finishWrites, List.append_assoc, List.singleton_append]
    · rfl
  have hdisjoint : ∀ x ∈ dedicatedWrites run.start, ∀ y ∈ capturedRequest ngx run.start ++
      (if isOtelEnabled ngx run.finish then
        (ascii "http.status_code", .uint64 run.finish.headers_out.status) ::
          capturedResponse ngx run.finish
        else []), x.1 ≠ y.1 := by
    intro x hx y hy heq
    have hy' : y ∈ guardedWrites ngx run := List.mem_append_right _ hy
    rcases dedicated_key hx with hkey | hkey
    · exact (guarded_key hy').1 (heq ▸ hkey)
    · exact (guarded_key hy').2 (heq ▸ hkey)
  have hswap := lastValue_swap hdisjoint (requestWrites run.start)
    (allScriptWrites ngx scriptAttributes run) key
  rw [scriptValue, unscripted, ← lastValue_append, hfinish, guardedWrites]
  simp only [List.append_assoc] at hswap ⊢
  exact hswap

theorem recordedAttributes_eq (t : Tracer) (h : startsSpan ngx run.start = true) :
    recordedAttributes ngx sdk scriptAttributes t run =
      some fun key => (scriptValue ngx scriptAttributes run key).or (unscripted ngx run key) := by
  have hstarted : StartedSpan (request t) (startNgxSpan ngx sdk (request t) run.start) run.start :=
    startNgxSpan_started h (request t)
  have hotel := hstarted.otel_ctx rfl
  have hcontexts := hstarted.contexts
  have hlength := hstarted.length
  have hstart : ∀ key, attributeOf (startNgxSpan ngx sdk (request t) run.start).tracer
      t.spans.length key = lastValue (requestWrites run.start ++ dedicatedWrites run.start ++
        capturedRequest ngx run.start) key := attributeOf_startNgxSpan h (request t)
  rw [recordedAttributes]
  generalize startNgxSpan ngx sdk (request t) run.start = s at *
  have hcontext : getTraceContext s run.finish = some 0 := by
    rw [getTraceContext, hotel, run.same]
    simp [request]
  have hspan : s.contexts[0]?.bind TraceContext.request_span = some t.spans.length := by
    rw [hcontexts]
    rfl
  have hlt : t.spans.length < s.tracer.spans.length :=
    Nat.lt_of_lt_of_eq (Nat.lt_succ_self _) hlength.symm
  cases henabled : isOtelEnabled ngx run.finish with
  | false =>
    rw [finishNgxSpan, if_pos (by rw [henabled]; exact Bool.false_ne_true), Option.map_some]
    refine congrArg some (funext fun key => ?_)
    rw [hstart, ← lastValue_guarded, if_neg (by rw [henabled]; exact Bool.false_ne_true),
      List.append_nil]
  | true =>
    obtain ⟨s', hfinish, hattributes⟩ :=
      attributeOf_finishNgxSpan henabled hcontext hspan hlt scriptAttributes
    rw [hfinish, Option.map_some]
    refine congrArg some (funext fun key => ?_)
    rw [hattributes, hstart, ← lastValue_guarded, if_pos henabled,
      lastValue_append _ (finishWrites _ _ _)]

/-- A request for which no span is started has no attributes. -/
theorem recordedAttributes_of_not (t : Tracer) (h : startsSpan ngx run.start = false) :
    recordedAttributes ngx sdk scriptAttributes t run = some fun _ => none := by
  rw [recordedAttributes, startNgxSpan_of_not h]
  have hnone : ∀ key, attributeOf t t.spans.length key = none := by
    intro key
    rw [attributeOf, List.getElem?_eq_none (Nat.le_refl _)]
    rfl
  have hfinish : finishNgxSpan ngx scriptAttributes (request t) run.finish = some (request t) := by
    rw [finishNgxSpan]
    split
    · rfl
    · rfl
  rw [hfinish, Option.map_some]
  exact congrArg some (funext hnone)

/-! ### The runs cannot be told apart -/

theorem startsSpan_congr (h : DifferInSensitive ngx run run') :
    startsSpan ngx run'.start = startsSpan ngx run.start := by
  rw [h.start]
  rfl

theorem lastValue_textWrite (key : Bytes) (value : Option Bytes) :
    lastValue (textWrite key value) key = value.map .string := by
  cases value with
  | none => rfl
  | some value => exact (lastValue_singleton _ _).trans (if_pos rfl)

theorem lastValue_textWrite_of_ne {key key' : Bytes} (hne : key' ≠ key) (value : Option Bytes) :
    lastValue (textWrite key' value) key = none := by
  cases value with
  | none => rfl
  | some value => exact (lastValue_singleton _ _).trans (if_neg hne)

theorem lastValue_guardedWrites {key : Bytes}
    (hkey : key = ascii "http.host" ∨ key = ascii "http.user_agent") :
    lastValue (guardedWrites ngx run) key = none := by
  refine lastValue_eq_none_iff.mpr fun hmem => ?_
  obtain ⟨write, hwrite, rfl⟩ := List.mem_map.mp hmem
  exact hkey.elim (guarded_key hwrite).1 (guarded_key hwrite).2

theorem unscripted_host : unscripted ngx run (ascii "http.host") =
    (run.start.headers_in.value run.start.headers_in.host).map .string := by
  rw [unscripted, lastValue_append, lastValue_guardedWrites (Or.inl rfl), Option.or_none,
    dedicatedWrites, lastValue_append, lastValue_textWrite_of_ne (by decide),
    lastValue_textWrite, Option.none_or]

theorem unscripted_user_agent : unscripted ngx run (ascii "http.user_agent") =
    (run.start.headers_in.value run.start.headers_in.user_agent).map .string := by
  rw [unscripted, lastValue_append, lastValue_guardedWrites (Or.inr rfl), Option.or_none,
    dedicatedWrites, lastValue_append, lastValue_textWrite,
    lastValue_textWrite_of_ne (by decide), Option.or_none]

theorem unscripted_of_ne {key : Bytes} (hhost : ascii "http.host" ≠ key)
    (huser : ascii "http.user_agent" ≠ key) :
    unscripted ngx run key = lastValue (guardedWrites ngx run) key := by
  rw [unscripted, lastValue_append, dedicatedWrites, lastValue_append,
    lastValue_textWrite_of_ne hhost, lastValue_textWrite_of_ne huser, Option.none_or,
    Option.none_or]

/-- Without scripts, only the two dedicated attributes can differ. -/
theorem unscripted_congr (hguarded : guardedWrites ngx run' = guardedWrites ngx run) {key : Bytes}
    (hhost : key = ascii "http.host" →
      run'.start.headers_in.value run'.start.headers_in.host =
        run.start.headers_in.value run.start.headers_in.host)
    (huser : key = ascii "http.user_agent" →
      run'.start.headers_in.value run'.start.headers_in.user_agent =
        run.start.headers_in.value run.start.headers_in.user_agent) :
    unscripted ngx run' key = unscripted ngx run key := by
  by_cases hkey : key = ascii "http.host"
  · have hvalue := hhost hkey
    subst hkey
    rw [unscripted_host, unscripted_host, hvalue]
  · by_cases hkey' : key = ascii "http.user_agent"
    · have hvalue := huser hkey'
      subst hkey'
      rw [unscripted_user_agent, unscripted_user_agent, hvalue]
    · rw [unscripted_of_ne (Ne.symm hkey) (Ne.symm hkey'),
        unscripted_of_ne (Ne.symm hkey) (Ne.symm hkey'), hguarded]

theorem sameUnguarded_iff (hguarded : guardedWrites ngx run' = guardedWrites ngx run) :
    (∀ key, (scriptValue ngx scriptAttributes run' key).or (unscripted ngx run' key) =
        (scriptValue ngx scriptAttributes run key).or (unscripted ngx run key)) ↔
      SameUnguarded ngx scriptAttributes run run' := by
  have hinjective : Function.Injective (Option.map AttributeValue.string) :=
    Option.map_injective fun _ _ heq => AttributeValue.string.inj heq
  constructor
  · intro hall
    constructor
    case host =>
      intro hnone hnone'
      have hhost := hall (ascii "http.host")
      rw [hnone, hnone', Option.none_or, Option.none_or, unscripted_host, unscripted_host] at hhost
      exact hinjective hhost
    case user_agent =>
      intro hnone hnone'
      have huser := hall (ascii "http.user_agent")
      rw [hnone, hnone', Option.none_or, Option.none_or, unscripted_user_agent,
        unscripted_user_agent] at huser
      exact hinjective huser
    case scripts =>
      intro key v v' hsome hsome'
      have hkey := hall key
      rw [hsome, hsome'] at hkey
      exact Option.some.inj hkey
    case only_first =>
      intro key v hsome hnone
      have hkey := hall key
      rw [hsome, hnone] at hkey
      exact hkey
    case only_second =>
      intro key v hnone hsome
      have hkey := hall key
      rw [hsome, hnone] at hkey
      exact hkey.symm
  · intro hsame key
    cases hscript : scriptValue ngx scriptAttributes run key with
    | none =>
      cases hscript' : scriptValue ngx scriptAttributes run' key with
      | none =>
        rw [Option.none_or, Option.none_or]
        refine unscripted_congr hguarded (fun hkey => ?_) (fun hkey => ?_)
        · subst hkey
          exact hsame.host hscript hscript'
        · subst hkey
          exact hsame.user_agent hscript hscript'
      | some v' => exact (hsame.only_second key v' hscript hscript').symm
    | some v =>
      cases hscript' : scriptValue ngx scriptAttributes run' key with
      | none => exact hsame.only_first key v hscript hscript'
      | some v' => exact congrArg some (hsame.scripts key v v' hscript hscript')

/-- The attributes are the same exactly when what is not guarded does not tell the runs apart. -/
theorem recordedAttributes_congr (h : DifferInSensitive ngx run run') (t : Tracer) :
    recordedAttributes ngx sdk scriptAttributes t run' =
        recordedAttributes ngx sdk scriptAttributes t run ↔
      (startsSpan ngx run.start = true → SameUnguarded ngx scriptAttributes run run') := by
  cases hstarts : startsSpan ngx run.start with
  | false =>
    rw [recordedAttributes_of_not t hstarts,
      recordedAttributes_of_not t ((startsSpan_congr h).trans hstarts)]
    exact ⟨fun _ hstarted => absurd hstarted Bool.false_ne_true, fun _ => rfl⟩
  | true =>
    rw [recordedAttributes_eq t hstarts,
      recordedAttributes_eq t ((startsSpan_congr h).trans hstarts), Option.some.injEq, funext_iff,
      sameUnguarded_iff (guardedWrites_congr h)]
    exact ⟨fun hsame _ => hsame, fun hsame => hsame rfl⟩

theorem redacted_iff (p : OtelNgxLocationConf × (Bytes × Bytes)) :
    capturedValue ngx p.1.sensitiveHeaderNames p.1.sensitiveHeaderValues p.2 =
        ascii "[REDACTED]" ↔
      isMatch ngx p.1.sensitiveHeaderNames p.2.1 = true ∨
        isMatch ngx p.1.sensitiveHeaderValues p.2.2 = true ∨ p.2.2 = ascii "[REDACTED]" := by
  rw [capturedValue_eq, ← or_assoc]
  split
  case isTrue h => exact ⟨fun _ => Or.inl h, fun _ => rfl⟩
  case isFalse h => exact ⟨Or.inr, fun hor => hor.resolve_left h⟩

end

/-- Runs that differ in sensitive headers look the same, and errors let nothing through, exactly
when what the patterns do not guard looks the same, and no check fails for a header that the
other one does not match. -/
theorem redacts_iff (ngx : NgxCore) (sdk : Sdk) (scriptAttributes : List CompiledScriptAttribute)
    (t : Tracer) {run run' : RequestRun} (h : DifferInSensitive ngx run run') :
    Redacts ngx sdk scriptAttributes t run run' ↔ Shielded ngx scriptAttributes run run' := by
  constructor
  · intro hredacts
    exact ⟨(recordedAttributes_congr h t).mp hredacts.attributes,
      fun p hp hfails => (redacted_iff p).mp (hredacts.errors p hp hfails)⟩
  · intro hshielded
    exact ⟨(recordedAttributes_congr h t).mpr hshielded.unguarded,
      fun p hp hfails => (redacted_iff p).mpr (hshielded.errors p hp hfails)⟩

/-! ### A location with patterns -/

/-- A location that captures headers, with a pattern for sensitive names. -/
def sampleLocation (pattern : String) : OtelNgxLocationConf :=
  { location true (ascii "/") with
    captureHeaders := true
    sensitiveHeaderNames := some (ascii pattern) }

/-- A pattern without special characters, for names that it matches as a whole; it gives up on
`x-token`. -/
def sampleRegex : NgxCore where
  ngx_regex_exec regex s :=
    if eqIgnoringCase regex s then 1 else if eqIgnoringCase (ascii "x-token") s then -8 else -1
  ngx_http_script_run _ _ := none

def sampleRequestRun (pattern : String) (headers : Headers) : RequestRun :=
  let req : NgxHttpRequest :=
    { requestIn (sampleLocation pattern) false with
      headers_in := ⟨headers, some 0, none⟩ }
  ⟨req, req, rfl⟩

theorem differ_sample {pattern : String} {headers headers' : Headers}
    (h : List.Forall₂ (SameHeader sampleRegex (sampleLocation pattern)) headers headers') :
    DifferInSensitive sampleRegex (sampleRequestRun pattern headers)
      (sampleRequestRun pattern headers') :=
  ⟨rfl, rfl, h, h, .nil⟩

def sampleAuthorization (value : String) : RequestRun :=
  sampleRequestRun "authorization"
    [(ascii "Host", ascii "a"), (ascii "Authorization", ascii value)]

theorem redacts_sample :
    Redacts sampleRegex nothingExtracted [] .init (sampleAuthorization "x")
      (sampleAuthorization "y") := by
  have hvalue : SameHeader sampleRegex (sampleLocation "authorization")
      (ascii "Authorization", ascii "x") (ascii "Authorization", ascii "y") :=
    ⟨rfl, Or.inr (Or.inl (by decide))⟩
  refine (redacts_iff sampleRegex nothingExtracted [] .init
    (differ_sample (.cons ⟨rfl, Or.inl rfl⟩ (.cons hvalue .nil)))).mpr ⟨fun _ => ?_, ?_⟩
  · constructor
    case host => exact fun _ _ => rfl
    case user_agent => exact fun _ _ => rfl
    case scripts => exact fun _ _ _ hsome _ => by cases hsome
    case only_first => exact fun _ _ hsome _ => by cases hsome
    case only_second => exact fun _ _ _ hsome => by cases hsome
  intro p hp _
  have hp : p ∈ [(sampleLocation "authorization", (ascii "Authorization", ascii "x"))] := hp
  obtain rfl := List.mem_singleton.mp hp
  exact Or.inl (by decide)

def sampleHost (value : String) : RequestRun :=
  sampleRequestRun "host" [(ascii "Host", ascii value)]

def sampleToken : RequestRun :=
  sampleRequestRun "token$" [(ascii "Host", ascii "a"), (ascii "X-Token", ascii "x")]

/-- `Host` is recorded whatever the patterns are, and where the check of a name fails the value
is recorded as it is. -/
theorem host_in_clear :
    (DifferInSensitive sampleRegex (sampleHost "a") (sampleHost "b") ∧
      ¬Redacts sampleRegex nothingExtracted [] .init (sampleHost "a") (sampleHost "b")) ∧
    ¬Redacts sampleRegex nothingExtracted [] .init sampleToken sampleToken := by
  have hvalue : SameHeader sampleRegex (sampleLocation "host")
      (ascii "Host", ascii "a") (ascii "Host", ascii "b") := ⟨rfl, Or.inr (Or.inl (by decide))⟩
  have hdiffer : DifferInSensitive sampleRegex (sampleHost "a") (sampleHost "b") :=
    differ_sample (.cons hvalue .nil)
  refine ⟨⟨hdiffer, fun h => ?_⟩, fun h => ?_⟩
  · have hsame := (recordedAttributes_congr hdiffer .init).mp h.attributes rfl
    exact absurd (hsame.host rfl rfl) (by decide)
  · have hredacted := h.errors (sampleLocation "token$", (ascii "X-Token", ascii "x"))
      (List.mem_singleton_self _) (Or.inl (by decide))
    revert hredacted
    decide

end Nginx
