/-
What the blocks of a configuration set and what a location inherits (`MergeLocConf`,
`otel_ngx_module.cpp`).

The directives are run one after the other as they are read, each in its block; a block can
go on after one inside it.  Then each block is merged with the one around it.

* `configured` — a block has what its own directives have set, and the headers for proxied
  servers that they have added, in their order;
* `accepted_iff` — a configuration is accepted exactly when the directives of each block are, and
  every block ends with what its own directives alone leave;
* `location_settings` — each setting of a location is that of the innermost block around it
  that has a directive for it, and the default without one;
* `forwards_iff` — the headers of a location are set from the variables of the format of its
  spans exactly when the innermost block that sets any headers has an
  `opentelemetry_propagate`.
-/
import OtelContrib.Lib.LastSome
import OtelContrib.Nginx.CustomAttributes
import OtelContrib.Nginx.Directives

open Otel
open LastSome (lastSome lastSome_concat lastSome_eq_none_iff lastSome_of_find? foldlM_foldl
  foldlM_getD foldlM_or inherit foldl_inherit foldl_nonempty find?_of_imp)

namespace Nginx

/-! ### The directives of a block -/

/-- What nginx does for the directives: a flag that is set, given what it was, or an error; how
many variables a script has; whether scripts and regular expressions can be compiled.  A flag is
on or off, and an empty script has no variables. -/
structure NgxCompiler where
  ngx_conf_set_flag_slot : Option Bool → Bytes → Option Bool
  ngx_http_script_variables_count : Bytes → ℕ
  ngx_http_script_compile : Bytes → Bool
  ngx_regex_compile : Bytes → Bool
  flag_slot : ∀ old value new, ngx_conf_set_flag_slot old value = some new →
    new = eqIgnoringCase value (ascii "on")
  variables_count_nil : ngx_http_script_variables_count [] = 0

/-- The directives that are allowed in a location, and nginx's own for headers. -/
inductive LocationDirective
  | opentelemetry (value : Bytes)
  | opentelemetry_trust_incoming_spans (value : Bytes)
  | opentelemetry_capture_headers (value : Bytes)
  | opentelemetry_sensitive_header_names (pattern : Bytes)
  | opentelemetry_sensitive_header_values (pattern : Bytes)
  | opentelemetry_ignore_paths (pattern : Bytes)
  | opentelemetry_operation_name (pattern : Bytes)
  | opentelemetry_attribute (key script : Bytes)
  | opentelemetry_propagate (format : Option Bytes)
  | proxy_set_header (field value : Bytes)

/-- `CreateOtelLocConf`. -/
def createOtelLocConf : LocationSettings where
  enabled := none
  trustIncomingSpans := none
  captureHeaders := none
  sensitiveHeaderNames := none
  sensitiveHeaderValues := none
  ignore_paths := none
  propagationType := .TracePropagationUnset
  operationNameScript := ⟨[], false⟩
  customAttributes := none

section

variable (ngx : NgxCompiler)

/-- What `CompileScript` returns. -/
def scriptCompiles (pattern : Bytes) : Bool :=
  ngx.ngx_http_script_variables_count pattern = 0 || ngx.ngx_http_script_compile pattern

def ngxCompileRegex (pattern : Bytes) : Option Bytes :=
  if ngx.ngx_regex_compile pattern then some pattern else none

def otelNgxSetSensitiveHeaderNames (locConf : LocationSettings) (pattern : Bytes) :
    Option LocationSettings :=
  (ngxCompileRegex ngx pattern).map fun regex =>
    { locConf with sensitiveHeaderNames := some (some regex) }

def otelNgxSetSensitiveHeaderValues (locConf : LocationSettings) (pattern : Bytes) :
    Option LocationSettings :=
  (ngxCompileRegex ngx pattern).map fun regex =>
    { locConf with sensitiveHeaderValues := some (some regex) }

def otelNgxSetIgnorePaths (locConf : LocationSettings) (pattern : Bytes) :
    Option LocationSettings :=
  (ngxCompileRegex ngx pattern).map fun regex =>
    { locConf with ignore_paths := some (some regex) }

def otelNgxSetOperationNameVar (locConf : LocationSettings) (pattern : Bytes) :
    Option LocationSettings :=
  if scriptCompiles ngx pattern then
    some { locConf with
      operationNameScript := compileScript ngx.ngx_http_script_variables_count pattern }
  else none

def propagateArgs (format : Option Bytes) : List Bytes :=
  ascii "opentelemetry_propagate" :: format.toList

/-- What a directive makes of the configuration of its block, and nothing for an error. -/
def LocationDirective.set (locConf : LocationSettings) : LocationDirective → Option LocationSettings
  | .opentelemetry value =>
    (ngx.ngx_conf_set_flag_slot locConf.enabled value).map fun flag =>
      { locConf with enabled := some flag }
  | .opentelemetry_trust_incoming_spans value =>
    (ngx.ngx_conf_set_flag_slot locConf.trustIncomingSpans value).map fun flag =>
      { locConf with trustIncomingSpans := some flag }
  | .opentelemetry_capture_headers value =>
    (ngx.ngx_conf_set_flag_slot locConf.captureHeaders value).map fun flag =>
      { locConf with captureHeaders := some flag }
  | .opentelemetry_sensitive_header_names pattern =>
    otelNgxSetSensitiveHeaderNames ngx locConf pattern
  | .opentelemetry_sensitive_header_values pattern =>
    otelNgxSetSensitiveHeaderValues ngx locConf pattern
  | .opentelemetry_ignore_paths pattern => otelNgxSetIgnorePaths ngx locConf pattern
  | .opentelemetry_operation_name pattern => otelNgxSetOperationNameVar ngx locConf pattern
  | .opentelemetry_attribute key script =>
    if scriptCompiles ngx key ∧ scriptCompiles ngx script then
      some { locConf with
        customAttributes := otelNgxSetCustomAttribute ngx.ngx_http_script_variables_count
          locConf.customAttributes (key, script) }
    else none
  | .opentelemetry_propagate format =>
    (requestedType (propagateArgs format)).map fun type => { locConf with propagationType := type }
  | .proxy_set_header _ _ => some locConf

end

/-! ### Reading a configuration -/

section

variable {Rest : Type} (modules : List (NgxModule Rest)) (ngx : NgxCompiler)
  (place : ℕ → NgxPlace) (ctx_index : ℕ)

/-- A directive in the block with an array of configurations.  nginx runs a command of its own
as `OtelNgxConfHandler` does. -/
def readDirective (memory : ConfMemory Rest) (call : ℕ × LocationDirective) :
    Option (ConfMemory Rest) :=
  let locConf := ConfPointer.element call.1 ctx_index
  match call.2 with
  | .opentelemetry_propagate format =>
    let result :=
      otelNgxSetPropagation modules ⟨place call.1, propagateArgs format, [], memory⟩ locConf
    if result.1 = .NGX_CONF_OK then some result.2.memory else none
  | .proxy_set_header field value =>
    let result := otelNgxConfHandler modules
      ⟨place call.1, [ascii "proxy_set_header", field, value], [], memory⟩ NGX_OK
    if result.1 = NGX_OK then some result.2.memory else none
  | directive => (directive.set ngx (memory.locConfs locConf)).map (memory.setLocConf locConf)

/-- Before the first directive. -/
def unconfigured (rest : Rest) : ConfMemory Rest :=
  ⟨fun _ => createOtelLocConf, fun _ _ => [], rest⟩

end

/-- The directives of a block in their order. -/
def directivesOf (calls : List (ℕ × LocationDirective)) (block : ℕ) : List LocationDirective :=
  (calls.filter fun call => call.1 = block).map Prod.snd

/-- The headers for a proxied server that are set from the variables of a format. -/
def proxyPairs (type : TracePropagationType) : Headers :=
  ((propagationVars type).filter fun var =>
    var.directive = ascii "proxy_set_header").map fun var => (var.parameter, var.variableName)

/-- The headers that a directive sets for proxied servers. -/
def LocationDirective.headers : LocationDirective → Headers
  | .opentelemetry_propagate format =>
    ((requestedType (propagateArgs format)).map proxyPairs).getD []
  | .proxy_set_header field value => [(field, value)]
  | _ => []

/-- What a directive in a place adds to the array in a slot. -/
def LocationDirective.added {Rest : Type} (modules : List (NgxModule Rest)) (place : NgxPlace)
    (slot : ConfPointer × ℕ) : LocationDirective → Headers
  | .opentelemetry_propagate format =>
    ((requestedType (propagateArgs format)).map fun type =>
      pairsFor (slotOf modules place) (propagationVars type) slot).getD []
  | .proxy_set_header field value =>
    if slotOf modules place (ascii "proxy_set_header") = some slot then [(field, value)] else []
  | _ => []

/-- nginx with its modules for proxied and FastCGI servers: in each block their directives add
pairs to arrays of their own. -/
structure HttpModules {Rest : Type} (modules : List (NgxModule Rest)) (place : ℕ → NgxPlace)
    (proxyIndex proxyOffset : ℕ) : Prop where
  addPairs : ∀ block, AddPairs modules (place block)
  proxy : ∀ block, slotOf modules (place block) (ascii "proxy_set_header") =
    some (.element block proxyIndex, proxyOffset)
  fastcgi : ∃ index offset, (index, offset) ≠ (proxyIndex, proxyOffset) ∧ ∀ block,
    slotOf modules (place block) (ascii "fastcgi_param") = some (.element block index, offset)

/-- What the blocks have after some directives. -/
structure Configured {Rest : Type} (ngx : NgxCompiler) (ctx_index proxyIndex proxyOffset : ℕ)
    (calls : List (ℕ × LocationDirective)) (memory : ConfMemory Rest) : Prop where
  locConf : ∀ block,
    (directivesOf calls block).foldlM (LocationDirective.set ngx) createOtelLocConf =
      some (memory.locConfs (.element block ctx_index))
  headers : ∀ block, memory.keyvals (.element block proxyIndex) proxyOffset =
    (directivesOf calls block).flatMap LocationDirective.headers

/-- Two memories agree in what a block has. -/
def AgreeIn {Rest : Type} (block : ℕ) (memory memory' : ConfMemory Rest) : Prop :=
  ∀ index, memory.locConfs (.element block index) = memory'.locConfs (.element block index) ∧
    ∀ offset, memory.keyvals (.element block index) offset =
      memory'.keyvals (.element block index) offset

theorem directivesOf_concat (calls : List (ℕ × LocationDirective)) (call : ℕ × LocationDirective)
    (block : ℕ) :
    directivesOf (calls ++ [call]) block =
      directivesOf calls block ++ if call.1 = block then [call.2] else [] := by
  by_cases h : call.1 = block <;> simp [directivesOf, List.filter_append, h]

section

variable {Rest : Type} {modules : List (NgxModule Rest)} {ngx : NgxCompiler}
  {place : ℕ → NgxPlace} {ctx_index proxyIndex proxyOffset : ℕ}

/-- Of a format's pairs the array for proxied servers in the block itself has those for them. -/
theorem pairsFor_proxy (hhttp : HttpModules modules place proxyIndex proxyOffset) (block other : ℕ)
    (type : TracePropagationType) :
    pairsFor (slotOf modules (place block)) (propagationVars type)
        (.element other proxyIndex, proxyOffset) =
      if block = other then proxyPairs type else [] := by
  obtain ⟨index, offset, hne, hfastcgi⟩ := hhttp.fastcgi
  have hslot (var : HeaderPropagation) (hvar : var ∈ propagationVars type) :
      slotOf modules (place block) var.directive = some (.element other proxyIndex, proxyOffset) ↔
        block = other ∧ var.directive = ascii "proxy_set_header" := by
    have hdirective := (directive_propagationVars type var.directive).mp ⟨var, hvar, rfl⟩
    rcases List.mem_cons.mp hdirective with heq | heq
    · rw [heq, hhttp.proxy block]
      simp
    · rw [List.mem_singleton.mp heq, hfastcgi block]
      constructor
      · intro h
        obtain ⟨helement, hoffset⟩ := Prod.mk.inj (Option.some.inj h)
        obtain ⟨-, hindex⟩ := ConfPointer.element.inj helement
        exact absurd (by rw [hindex, hoffset]) hne
      · rintro ⟨-, h⟩
        exact absurd h (by decide)
  rw [pairsFor, proxyPairs]
  by_cases h : block = other
  · rw [if_pos h]
    congr 1
    refine List.filter_congr fun var hvar => ?_
    rw [decide_eq_decide, hslot var hvar]
    exact and_iff_right h
  · rw [if_neg h, List.map_eq_nil_iff, List.filter_eq_nil_iff]
    intro var hvar
    rw [decide_eq_true_eq, hslot var hvar]
    exact fun hboth => h hboth.1

/-- To the array for proxied servers in its own block a directive adds its headers. -/
theorem added_proxy (hhttp : HttpModules modules place proxyIndex proxyOffset) (block other : ℕ)
    (directive : LocationDirective) :
    directive.added modules (place block) (.element other proxyIndex, proxyOffset) =
      if block = other then directive.headers else [] := by
  cases directive with
  | opentelemetry_propagate format =>
    rw [LocationDirective.added, LocationDirective.headers]
    cases requestedType (propagateArgs format) with
    | none => exact (ite_self _).symm
    | some type => exact pairsFor_proxy hhttp block other type
  | proxy_set_header field value =>
    rw [LocationDirective.added, hhttp.proxy block]
    by_cases h : block = other
    · rw [if_pos h, if_pos (by rw [h])]
      rfl
    · rw [if_neg h, if_neg fun heq => ?_]
      exact h (ConfPointer.element.inj (Prod.mk.inj (Option.some.inj heq)).1).1
  | opentelemetry | opentelemetry_trust_incoming_spans | opentelemetry_capture_headers
  | opentelemetry_sensitive_header_names | opentelemetry_sensitive_header_values
  | opentelemetry_ignore_paths | opentelemetry_operation_name | opentelemetry_attribute =>
    exact (ite_self _).symm

/-- To no array in another block a directive adds anything. -/
theorem added_elsewhere (hhttp : HttpModules modules place proxyIndex proxyOffset)
    {block other : ℕ} (hne : block ≠ other) (directive : LocationDirective) (index offset : ℕ) :
    directive.added modules (place block) (.element other index, offset) = [] := by
  have hslot : ∀ {slot : ConfPointer × ℕ} {i j : ℕ}, some slot = some (.element block i, j) →
      slot ≠ (.element other index, offset) := by
    rintro _ i j heq rfl
    exact hne (ConfPointer.element.inj (Prod.mk.inj (Option.some.inj heq)).1).1.symm
  cases directive with
  | opentelemetry_propagate format =>
    rw [LocationDirective.added]
    cases requestedType (propagateArgs format) with
    | none => rfl
    | some type =>
      obtain ⟨i, j, -, hfastcgi⟩ := hhttp.fastcgi
      show pairsFor _ _ _ = _
      rw [pairsFor, List.map_eq_nil_iff, List.filter_eq_nil_iff]
      intro var hvar hsome
      have hsome := of_decide_eq_true hsome
      have hdirective := (directive_propagationVars type var.directive).mp ⟨var, hvar, rfl⟩
      rcases List.mem_cons.mp hdirective with heq | heq
      · rw [heq, hhttp.proxy block] at hsome
        exact hslot hsome.symm rfl
      · rw [List.mem_singleton.mp heq, hfastcgi block] at hsome
        exact hslot hsome.symm rfl
  | proxy_set_header field value =>
    rw [LocationDirective.added, hhttp.proxy block]
    exact if_neg fun heq => hslot heq.symm rfl
  | opentelemetry | opentelemetry_trust_incoming_spans | opentelemetry_capture_headers
  | opentelemetry_sensitive_header_names | opentelemetry_sensitive_header_values
  | opentelemetry_ignore_paths | opentelemetry_operation_name | opentelemetry_attribute => rfl

/-- A directive that is accepted sets what it sets in its own block, and adds its headers to the
arrays that it has slots for. -/
theorem readDirective_spec (hhttp : HttpModules modules place proxyIndex proxyOffset)
    {memory memory' : ConfMemory Rest} (block : ℕ) (directive : LocationDirective)
    (h : readDirective modules ngx place ctx_index memory (block, directive) = some memory') :
    (∃ locConf, directive.set ngx (memory.locConfs (.element block ctx_index)) = some locConf ∧
      memory'.locConfs =
        Function.update memory.locConfs (.element block ctx_index) locConf) ∧
    ∀ slot : ConfPointer × ℕ, memory'.keyvals slot.1 slot.2 =
      memory.keyvals slot.1 slot.2 ++ directive.added modules (place block) slot := by
  have hsettings (h : (directive.set ngx (memory.locConfs (.element block ctx_index))).map
      (memory.setLocConf (.element block ctx_index)) = some memory')
      (hheaders : ∀ slot, directive.added modules (place block) slot = []) :
      (∃ locConf, directive.set ngx (memory.locConfs (.element block ctx_index)) = some locConf ∧
        memory'.locConfs =
          Function.update memory.locConfs (.element block ctx_index) locConf) ∧
      ∀ slot : ConfPointer × ℕ, memory'.keyvals slot.1 slot.2 =
        memory.keyvals slot.1 slot.2 ++ directive.added modules (place block) slot := by
    obtain ⟨locConf, hset, rfl⟩ := Option.map_eq_some_iff.mp h
    refine ⟨⟨locConf, hset, rfl⟩, fun slot => ?_⟩
    rw [hheaders, List.append_nil]
    rfl
  cases directive with
  | opentelemetry_propagate format =>
    have hplace : AddPairs modules
        (NgxConf.mk (place block) (propagateArgs format) [] memory).toNgxPlace :=
      hhttp.addPairs block
    obtain ⟨hok, -, hwritten⟩ := set_propagation hplace (.element block ctx_index)
    obtain ⟨hresult, hmemory⟩ := Option.ite_none_right_eq_some.mp h
    obtain ⟨type, htype⟩ := Option.ne_none_iff_exists'.mp (hok.mp hresult).1
    rw [hwritten type htype hresult, Option.some.injEq] at hmemory
    subst hmemory
    refine ⟨⟨_, ?_, rfl⟩, fun slot => ?_⟩
    · rw [LocationDirective.set, htype]
      rfl
    · rw [LocationDirective.added, htype]
      rfl
  | proxy_set_header field value =>
    have hrun := handler_of_taker
      ⟨place block, [ascii "proxy_set_header", field, value], [], memory⟩
      (hhttp.proxy block) (hhttp.addPairs block _ List.mem_cons_self) rfl
    obtain ⟨-, hmemory⟩ := Option.ite_none_right_eq_some.mp h
    rw [NGX_OK, hrun, Option.some.injEq] at hmemory
    subst hmemory
    refine ⟨⟨_, rfl, (Function.update_eq_self _ _).symm⟩, fun slot => ?_⟩
    rw [LocationDirective.added, hhttp.proxy block]
    show _ ++ _ = _
    simp only [Option.some.injEq]
  | opentelemetry | opentelemetry_trust_incoming_spans | opentelemetry_capture_headers
  | opentelemetry_sensitive_header_names | opentelemetry_sensitive_header_values
  | opentelemetry_ignore_paths | opentelemetry_operation_name | opentelemetry_attribute =>
    exact hsettings h fun _ => rfl

/-- A directive is accepted exactly when its own block accepts it. -/
theorem readDirective_accepted (hhttp : HttpModules modules place proxyIndex proxyOffset)
    (memory : ConfMemory Rest) (block : ℕ) (directive : LocationDirective)
    {locConf : LocationSettings}
    (h : directive.set ngx (memory.locConfs (.element block ctx_index)) = some locConf) :
    ∃ memory',
      readDirective modules ngx place ctx_index memory (block, directive) = some memory' := by
  have hsettings : ∃ memory', (directive.set ngx (memory.locConfs (.element block ctx_index))).map
      (memory.setLocConf (.element block ctx_index)) = some memory' := by
    rw [h]
    exact ⟨_, rfl⟩
  cases directive with
  | opentelemetry_propagate format =>
    have hplace : AddPairs modules
        (NgxConf.mk (place block) (propagateArgs format) [] memory).toNgxPlace :=
      hhttp.addPairs block
    obtain ⟨type, htype, -⟩ := Option.map_eq_some_iff.mp h
    obtain ⟨index, offset, -, hfastcgi⟩ := hhttp.fastcgi
    have hok := (set_propagation hplace (.element block ctx_index)).1.mpr
      ⟨fun hnone => Option.some_ne_none _ (htype.symm.trans hnone),
        fun hnone => Option.some_ne_none _ ((hhttp.proxy block).symm.trans hnone),
        fun hnone => Option.some_ne_none _ ((hfastcgi block).symm.trans hnone)⟩
    exact ⟨_, if_pos hok⟩
  | proxy_set_header field value =>
    have hrun := handler_of_taker
      ⟨place block, [ascii "proxy_set_header", field, value], [], memory⟩
      (hhttp.proxy block) (hhttp.addPairs block _ List.mem_cons_self) rfl
    exact ⟨_, if_pos (congrArg Prod.fst hrun)⟩
  | opentelemetry | opentelemetry_trust_incoming_spans | opentelemetry_capture_headers
  | opentelemetry_sensitive_header_names | opentelemetry_sensitive_header_values
  | opentelemetry_ignore_paths | opentelemetry_operation_name | opentelemetry_attribute =>
    exact hsettings

theorem configured (hhttp : HttpModules modules place proxyIndex proxyOffset) {rest : Rest}
    {calls : List (ℕ × LocationDirective)} {memory : ConfMemory Rest}
    (hrun : calls.foldlM (readDirective modules ngx place ctx_index) (unconfigured rest) =
      some memory) :
    Configured ngx ctx_index proxyIndex proxyOffset calls memory := by
  induction calls using List.reverseRecOn generalizing memory with
  | nil =>
    obtain rfl := Option.some.inj hrun
    exact ⟨fun _ => rfl, fun _ => rfl⟩
  | append_singleton calls call ih =>
    rw [List.foldlM_append, Option.bind_eq_bind, Option.bind_eq_some_iff] at hrun
    obtain ⟨before, hbefore, hcall⟩ := hrun
    rw [List.foldlM_cons, Option.bind_eq_bind, Option.bind_eq_some_iff] at hcall
    obtain ⟨after, hcall, hafter⟩ := hcall
    obtain rfl := Option.some.inj hafter
    obtain ⟨⟨locConf, hset, hlocConfs⟩, hkeyvals⟩ := readDirective_spec hhttp call.1 call.2 hcall
    obtain ⟨hsettings, hheaders⟩ := ih hbefore
    refine ⟨fun block => ?_, fun block => ?_⟩
    · rw [directivesOf_concat, hlocConfs, List.foldlM_append, hsettings block]
      by_cases hblock : call.1 = block
      · subst hblock
        rw [if_pos rfl, Function.update_self]
        simp [hset]
      · rw [if_neg hblock, Function.update_of_ne]
        · rfl
        · exact fun heq => hblock (ConfPointer.element.inj heq).1.symm
    · have hkeyvals := hkeyvals (.element block proxyIndex, proxyOffset)
      rw [added_proxy hhttp] at hkeyvals
      rw [directivesOf_concat, List.flatMap_append, hkeyvals, hheaders block]
      by_cases hblock : call.1 = block
      · rw [if_pos hblock, if_pos hblock, List.flatMap_singleton]
      · rw [if_neg hblock, if_neg hblock]
        rfl

/-- A directive in another block changes nothing in this one. -/
theorem agreeIn_of_elsewhere (hhttp : HttpModules modules place proxyIndex proxyOffset)
    {memory memory' : ConfMemory Rest} {block other : ℕ} (hne : other ≠ block)
    {directive : LocationDirective}
    (h : readDirective modules ngx place ctx_index memory (other, directive) = some memory') :
    AgreeIn block memory' memory := by
  obtain ⟨⟨locConf, -, hlocConfs⟩, hkeyvals⟩ := readDirective_spec hhttp other directive h
  refine fun index => ⟨?_, fun offset => ?_⟩
  · rw [hlocConfs, Function.update_of_ne]
    exact fun heq => hne (ConfPointer.element.inj heq).1.symm
  · rw [hkeyvals (.element block index, offset), added_elsewhere hhttp hne, List.append_nil]

/-- What a directive does in its own block depends on nothing else. -/
theorem AgreeIn.read (hhttp : HttpModules modules place proxyIndex proxyOffset) {block : ℕ}
    {memory memory' alone : ConfMemory Rest} (hagree : AgreeIn block memory alone)
    {directive : LocationDirective}
    (h : readDirective modules ngx place ctx_index memory (block, directive) = some memory') :
    ∃ alone', readDirective modules ngx place ctx_index alone (block, directive) = some alone' ∧
      AgreeIn block memory' alone' := by
  obtain ⟨⟨locConf, hset, hlocConfs⟩, hkeyvals⟩ := readDirective_spec hhttp block directive h
  rw [(hagree ctx_index).1] at hset
  obtain ⟨alone', halone⟩ := readDirective_accepted hhttp alone block directive hset
  obtain ⟨⟨locConf', hset', hlocConfs'⟩, hkeyvals'⟩ :=
    readDirective_spec hhttp block directive halone
  obtain rfl := Option.some.inj (hset.symm.trans hset')
  refine ⟨alone', halone, fun index => ⟨?_, fun offset => ?_⟩⟩
  · rw [hlocConfs, hlocConfs']
    by_cases hindex : index = ctx_index
    · rw [hindex, Function.update_self, Function.update_self]
    · have hne : ConfPointer.element block index ≠ .element block ctx_index :=
        fun heq => hindex (ConfPointer.element.inj heq).2
      rw [Function.update_of_ne hne, Function.update_of_ne hne]
      exact (hagree index).1
  · rw [hkeyvals (.element block index, offset), hkeyvals' (.element block index, offset),
      (hagree index).2 offset]

/-- Without the directives of the other blocks a block ends the same. -/
theorem exists_alone (hhttp : HttpModules modules place proxyIndex proxyOffset) {rest : Rest}
    {calls : List (ℕ × LocationDirective)} {memory : ConfMemory Rest}
    (hrun : calls.foldlM (readDirective modules ngx place ctx_index) (unconfigured rest) =
      some memory) (block : ℕ) :
    ∃ alone, (calls.filter fun call => call.1 = block).foldlM
        (readDirective modules ngx place ctx_index) (unconfigured rest) = some alone ∧
      AgreeIn block memory alone := by
  induction calls using List.reverseRecOn generalizing memory with
  | nil =>
    obtain rfl := Option.some.inj hrun
    exact ⟨_, rfl, fun _ => ⟨rfl, fun _ => rfl⟩⟩
  | append_singleton calls call ih =>
    rw [List.foldlM_append, Option.bind_eq_bind, Option.bind_eq_some_iff] at hrun
    obtain ⟨before, hbefore, hcall⟩ := hrun
    rw [List.foldlM_cons, Option.bind_eq_bind, Option.bind_eq_some_iff] at hcall
    obtain ⟨after, hcall, hafter⟩ := hcall
    obtain rfl := Option.some.inj hafter
    obtain ⟨alone, halone, hagree⟩ := ih hbefore
    rw [List.filter_append, List.foldlM_append, halone]
    by_cases hblock : call.1 = block
    · subst hblock
      obtain ⟨alone', halone', hagree'⟩ := hagree.read hhttp hcall
      refine ⟨alone', ?_, hagree'⟩
      have hown : ([call].filter fun c => c.1 = call.1) = [call] := by simp
      rw [hown]
      simpa using halone'
    · refine ⟨alone, ?_, fun index => ?_⟩
      · rw [List.filter_cons_of_neg (by simpa using hblock), List.filter_nil]
        rfl
      · have hkept := agreeIn_of_elsewhere hhttp hblock hcall index
        exact ⟨hkept.1.trans (hagree index).1,
          fun offset => (hkept.2 offset).trans ((hagree index).2 offset)⟩

/-- A configuration is accepted exactly when the directives of each block are, whatever stands
between them; and then every block ends with what its own directives alone leave. -/
theorem accepted_iff (hhttp : HttpModules modules place proxyIndex proxyOffset) (rest : Rest)
    (calls : List (ℕ × LocationDirective)) :
    ((∃ memory, calls.foldlM (readDirective modules ngx place ctx_index) (unconfigured rest) =
        some memory) ↔
      ∀ block, ∃ locConf,
        (directivesOf calls block).foldlM (LocationDirective.set ngx) createOtelLocConf =
          some locConf) ∧
    ∀ memory, calls.foldlM (readDirective modules ngx place ctx_index) (unconfigured rest) =
        some memory →
      ∀ block, ∃ alone, (calls.filter fun call => call.1 = block).foldlM
          (readDirective modules ngx place ctx_index) (unconfigured rest) = some alone ∧
        AgreeIn block memory alone := by
  refine ⟨?_, fun memory hrun block => exists_alone hhttp hrun block⟩
  constructor
  · rintro ⟨memory, hrun⟩ block
    exact ⟨_, (configured hhttp hrun).locConf block⟩
  · intro h
    induction calls using List.reverseRecOn with
    | nil => exact ⟨_, rfl⟩
    | append_singleton calls call ih =>
      have hbefore (block : ℕ) : ∃ locConf,
          (directivesOf calls block).foldlM (LocationDirective.set ngx) createOtelLocConf =
            some locConf := by
        obtain ⟨locConf, hall⟩ := h block
        rw [directivesOf_concat, List.foldlM_append, Option.bind_eq_bind,
          Option.bind_eq_some_iff] at hall
        exact ⟨_, hall.choose_spec.1⟩
      obtain ⟨memory, hrun⟩ := ih hbefore
      obtain ⟨locConf, hall⟩ := h call.1
      rw [directivesOf_concat, List.foldlM_append, (configured hhttp hrun).locConf call.1,
        if_pos rfl] at hall
      have hset : call.2.set ngx (memory.locConfs (.element call.1 ctx_index)) = some locConf := by
        simpa using hall
      obtain ⟨memory', hstep⟩ := readDirective_accepted hhttp memory call.1 call.2 hset
      refine ⟨memory', ?_⟩
      rw [List.foldlM_append, hrun]
      simpa using hstep

end

/-! ### The settings of a block -/

namespace LocationDirective

/-! What the directives are for: each of these has what one setting is set to. -/

def enabled : LocationDirective → Option Bool
  | .opentelemetry value => some (eqIgnoringCase value (ascii "on"))
  | _ => none

def trustIncomingSpans : LocationDirective → Option Bool
  | .opentelemetry_trust_incoming_spans value => some (eqIgnoringCase value (ascii "on"))
  | _ => none

def captureHeaders : LocationDirective → Option Bool
  | .opentelemetry_capture_headers value => some (eqIgnoringCase value (ascii "on"))
  | _ => none

def sensitiveHeaderNames : LocationDirective → Option (Option Bytes)
  | .opentelemetry_sensitive_header_names pattern => some (some pattern)
  | _ => none

def sensitiveHeaderValues : LocationDirective → Option (Option Bytes)
  | .opentelemetry_sensitive_header_values pattern => some (some pattern)
  | _ => none

def ignorePaths : LocationDirective → Option (Option Bytes)
  | .opentelemetry_ignore_paths pattern => some (some pattern)
  | _ => none

def propagationType : LocationDirective → Option TracePropagationType
  | .opentelemetry_propagate format => requestedType (propagateArgs format)
  | _ => none

def operationName : LocationDirective → Option Bytes
  | .opentelemetry_operation_name pattern => some pattern
  | _ => none

def customAttribute : LocationDirective → Option (Bytes × Bytes)
  | .opentelemetry_attribute key script => some (key, script)
  | _ => none

end LocationDirective

/-- A format that is set. -/
def TracePropagationType.isSet : TracePropagationType → Option TracePropagationType
  | .TracePropagationUnset => none
  | type => some type

theorem isSet_requestedType {args : List Bytes} {type : TracePropagationType}
    (h : requestedType args = some type) : type.isSet = some type := by
  rw [requestedType] at h
  dsimp only at h
  split_ifs at h <;> cases h <;> rfl

/-- One directive in each setting of its block. -/
structure SetBy (ngx : NgxCompiler) (directive : LocationDirective)
    (locConf locConf' : LocationSettings) : Prop where
  enabled : locConf'.enabled = directive.enabled.or locConf.enabled
  trustIncomingSpans :
    locConf'.trustIncomingSpans = directive.trustIncomingSpans.or locConf.trustIncomingSpans
  captureHeaders : locConf'.captureHeaders = directive.captureHeaders.or locConf.captureHeaders
  sensitiveHeaderNames :
    locConf'.sensitiveHeaderNames = directive.sensitiveHeaderNames.or locConf.sensitiveHeaderNames
  sensitiveHeaderValues : locConf'.sensitiveHeaderValues =
    directive.sensitiveHeaderValues.or locConf.sensitiveHeaderValues
  ignore_paths : locConf'.ignore_paths = directive.ignorePaths.or locConf.ignore_paths
  propagationType :
    locConf'.propagationType.isSet = directive.propagationType.or locConf.propagationType.isSet
  operationNameScript : locConf'.operationNameScript =
    (directive.operationName.map (compileScript ngx.ngx_http_script_variables_count)).getD
      locConf.operationNameScript
  customAttributes : locConf'.customAttributes = directive.customAttribute.toList.foldl
    (otelNgxSetCustomAttribute ngx.ngx_http_script_variables_count) locConf.customAttributes

section

variable {ngx : NgxCompiler}

theorem setBy {locConf locConf' : LocationSettings} {directive : LocationDirective}
    (h : directive.set ngx locConf = some locConf') :
    SetBy ngx directive locConf locConf' := by
  have hregex {pattern : Bytes} {regex : Bytes} (h : ngxCompileRegex ngx pattern = some regex) :
      regex = pattern := (Option.some.inj (Option.ite_none_right_eq_some.mp h).2).symm
  cases directive with
  | opentelemetry value =>
    obtain ⟨flag, hflag, rfl⟩ := Option.map_eq_some_iff.mp h
    obtain rfl := ngx.flag_slot _ _ _ hflag
    constructor <;> rfl
  | opentelemetry_trust_incoming_spans value =>
    obtain ⟨flag, hflag, rfl⟩ := Option.map_eq_some_iff.mp h
    obtain rfl := ngx.flag_slot _ _ _ hflag
    constructor <;> rfl
  | opentelemetry_capture_headers value =>
    obtain ⟨flag, hflag, rfl⟩ := Option.map_eq_some_iff.mp h
    obtain rfl := ngx.flag_slot _ _ _ hflag
    constructor <;> rfl
  | opentelemetry_sensitive_header_names pattern =>
    obtain ⟨regex, hcompiled, rfl⟩ := Option.map_eq_some_iff.mp h
    obtain rfl := hregex hcompiled
    constructor <;> rfl
  | opentelemetry_sensitive_header_values pattern =>
    obtain ⟨regex, hcompiled, rfl⟩ := Option.map_eq_some_iff.mp h
    obtain rfl := hregex hcompiled
    constructor <;> rfl
  | opentelemetry_ignore_paths pattern =>
    obtain ⟨regex, hcompiled, rfl⟩ := Option.map_eq_some_iff.mp h
    obtain rfl := hregex hcompiled
    constructor <;> rfl
  | opentelemetry_operation_name pattern =>
    obtain ⟨-, hset⟩ := Option.ite_none_right_eq_some.mp h
    obtain rfl := Option.some.inj hset
    constructor <;> rfl
  | opentelemetry_attribute key script =>
    obtain ⟨-, hset⟩ := Option.ite_none_right_eq_some.mp h
    obtain rfl := Option.some.inj hset
    constructor <;> rfl
  | opentelemetry_propagate format =>
    obtain ⟨type, htype, rfl⟩ := Option.map_eq_some_iff.mp h
    refine ⟨rfl, rfl, rfl, rfl, rfl, rfl, ?_, rfl, rfl⟩
    rw [LocationDirective.propagationType, htype]
    exact isSet_requestedType htype
  | proxy_set_header field value =>
    obtain rfl := Option.some.inj h
    constructor <;> rfl

/-- The settings of a block, where each is by the last directive that is for it. -/
structure SetByAll (ngx : NgxCompiler) (directives : List LocationDirective)
    (locConf : LocationSettings) : Prop where
  enabled : locConf.enabled = lastSome LocationDirective.enabled directives
  trustIncomingSpans :
    locConf.trustIncomingSpans = lastSome LocationDirective.trustIncomingSpans directives
  captureHeaders : locConf.captureHeaders = lastSome LocationDirective.captureHeaders directives
  sensitiveHeaderNames :
    locConf.sensitiveHeaderNames = lastSome LocationDirective.sensitiveHeaderNames directives
  sensitiveHeaderValues :
    locConf.sensitiveHeaderValues = lastSome LocationDirective.sensitiveHeaderValues directives
  ignore_paths : locConf.ignore_paths = lastSome LocationDirective.ignorePaths directives
  propagationType :
    locConf.propagationType.isSet = lastSome LocationDirective.propagationType directives
  operationNameScript : locConf.operationNameScript =
    ((lastSome LocationDirective.operationName directives).map
      (compileScript ngx.ngx_http_script_variables_count)).getD ⟨[], false⟩
  customAttributes : ∀ order, locConf.customAttributes =
    Block.attributes ngx.ngx_http_script_variables_count
      ⟨directives.filterMap LocationDirective.customAttribute, order⟩

theorem setByAll {directives : List LocationDirective}
    {locConf : LocationSettings}
    (h : directives.foldlM (LocationDirective.set ngx) createOtelLocConf = some locConf) :
    SetByAll ngx directives locConf := by
  have hor {β : Type} {get : LocationSettings → Option β} {f : LocationDirective → Option β}
      (hstep : ∀ s d s', SetBy ngx d s s' → get s' = (f d).or (get s))
      (hcreated : get createOtelLocConf = none) : get locConf = lastSome f directives :=
    foldlM_or (fun s d s' hs => hstep s d s' (setBy hs)) h hcreated
  refine ⟨hor (fun _ _ _ hs => hs.enabled) rfl, hor (fun _ _ _ hs => hs.trustIncomingSpans) rfl,
    hor (fun _ _ _ hs => hs.captureHeaders) rfl,
    hor (fun _ _ _ hs => hs.sensitiveHeaderNames) rfl,
    hor (fun _ _ _ hs => hs.sensitiveHeaderValues) rfl, hor (fun _ _ _ hs => hs.ignore_paths) rfl,
    hor (f := LocationDirective.propagationType) (fun _ _ _ hs => hs.propagationType) rfl, ?_,
    fun order => ?_⟩
  · have hstep : ∀ s d s', LocationDirective.set ngx s d = some s' → s'.operationNameScript =
        (d.operationName.map (compileScript ngx.ngx_http_script_variables_count)).getD
          s.operationNameScript := fun s d s' hs => (setBy hs).operationNameScript
    rw [foldlM_getD hstep h, lastSome, lastSome, List.map_findSome?]
    rfl
  · have hstep : ∀ s d s', LocationDirective.set ngx s d = some s' → s'.customAttributes =
        d.customAttribute.toList.foldl
          (otelNgxSetCustomAttribute ngx.ngx_http_script_variables_count) s.customAttributes :=
      fun s d s' hs => (setBy hs).customAttributes
    exact foldlM_foldl hstep h

end

/-! ### Merging -/

def NgxCompiledScript.isEmpty (script : NgxCompiledScript) : Bool := script.pattern.length = 0

/-- `MergeLocConf`, with memory for the arrays. -/
def mergeLocConf (order : IterationOrder) (prev conf : LocationSettings) : LocationSettings where
  enabled := inherit true prev.enabled conf.enabled
  propagationType :=
    if conf.propagationType = .TracePropagationUnset then
      if prev.propagationType ≠ .TracePropagationUnset then prev.propagationType
      else .TracePropagationW3C
    else conf.propagationType
  trustIncomingSpans := inherit true prev.trustIncomingSpans conf.trustIncomingSpans
  captureHeaders := inherit false prev.captureHeaders conf.captureHeaders
  sensitiveHeaderNames := inherit none prev.sensitiveHeaderNames conf.sensitiveHeaderNames
  sensitiveHeaderValues := inherit none prev.sensitiveHeaderValues conf.sensitiveHeaderValues
  ignore_paths := inherit none prev.ignore_paths conf.ignore_paths
  operationNameScript :=
    if ¬prev.operationNameScript.isEmpty ∧ conf.operationNameScript.isEmpty then
      prev.operationNameScript
    else conf.operationNameScript
  customAttributes := mergeCustomAttributes order prev.customAttributes conf.customAttributes

/-- The configuration of the last block of a path, in which each block is merged with the one
around it, from the outermost one on. -/
def mergePath (order : ℕ → IterationOrder) (locConf : ℕ → LocationSettings) :
    List ℕ → LocationSettings
  | [] => createOtelLocConf
  | outermost :: blocks =>
    blocks.foldl (fun prev block => mergeLocConf (order block) prev (locConf block))
      (locConf outermost)

/-- What requests use of a merged configuration, where everything that can be unset is set. -/
def LocationSettings.merged (locConf : LocationSettings) : OtelNgxLocationConf where
  enabled := locConf.enabled.getD false
  trustIncomingSpans := locConf.trustIncomingSpans.getD false
  captureHeaders := locConf.captureHeaders.getD false
  sensitiveHeaderNames := locConf.sensitiveHeaderNames.getD none
  sensitiveHeaderValues := locConf.sensitiveHeaderValues.getD none
  ignore_paths := locConf.ignore_paths.getD none
  propagationType := locConf.propagationType
  operationNameScript := locConf.operationNameScript
  customAttributes := locConf.customAttributes.getD []

section

variable (directives : ℕ → List LocationDirective) (path : List ℕ)

/-- What the last directive for a setting in the innermost block that has one sets it to. -/
def inherited {β : Type} (f : LocationDirective → Option β) : Option β :=
  lastSome (fun block => lastSome f (directives block)) path

/-- The name that is not empty. -/
def inheritedName : Option Bytes :=
  lastSome (fun block =>
    (lastSome LocationDirective.operationName (directives block)).filter (· ≠ [])) path

/-- The configuration of a location by the directives in the blocks around it. -/
def inheritedConf (variablesCount : Bytes → ℕ) (order : ℕ → IterationOrder) :
    OtelNgxLocationConf where
  enabled := (inherited directives path LocationDirective.enabled).getD true
  trustIncomingSpans := (inherited directives path LocationDirective.trustIncomingSpans).getD true
  captureHeaders := (inherited directives path LocationDirective.captureHeaders).getD false
  sensitiveHeaderNames :=
    (inherited directives path LocationDirective.sensitiveHeaderNames).getD none
  sensitiveHeaderValues :=
    (inherited directives path LocationDirective.sensitiveHeaderValues).getD none
  ignore_paths := (inherited directives path LocationDirective.ignorePaths).getD none
  propagationType :=
    (inherited directives path LocationDirective.propagationType).getD .TracePropagationW3C
  operationNameScript := compileScript variablesCount ((inheritedName directives path).getD [])
  customAttributes := (mergeBlocks variablesCount (path.map fun block =>
    ⟨(directives block).filterMap LocationDirective.customAttribute, order block⟩)).getD []

end

section

variable {ngx : NgxCompiler} {directives : ℕ → List LocationDirective}
  {locConf : ℕ → LocationSettings} {order : ℕ → IterationOrder}

/-- A setting that is merged by a default. -/
theorem mergePath_inherited {β : Type} (get : LocationSettings → Option β)
    {f : LocationDirective → Option β} {default : β}
    (hmerge : ∀ order prev conf,
      get (mergeLocConf order prev conf) = inherit default (get prev) (get conf))
    (hget : ∀ block, get (locConf block) = lastSome f (directives block)) (outermost : ℕ)
    {blocks : List ℕ} (hblocks : blocks ≠ []) :
    get (mergePath order locConf (outermost :: blocks)) =
      some ((inherited directives (outermost :: blocks) f).getD default) := by
  have hfold := foldl_inherit (fun block => lastSome f (directives block)) default outermost hblocks
  rw [inherited, ← hfold, ← hget, mergePath]
  refine (List.foldl_hom get fun prev block => ?_).symm
  rw [hmerge, hget]

theorem isSet_merge (order : IterationOrder) (prev conf : LocationSettings) :
    (mergeLocConf order prev conf).propagationType.isSet =
      inherit .TracePropagationW3C prev.propagationType.isSet conf.propagationType.isSet := by
  simp only [mergeLocConf]
  cases conf.propagationType <;> cases prev.propagationType <;> rfl

theorem eq_of_isSet {type type' : TracePropagationType} (h : type.isSet = some type') :
    type = type' := by
  cases type with
  | TracePropagationUnset => cases h
  | TracePropagationW3C | TracePropagationB3 | TracePropagationB3Multi => exact Option.some.inj h

theorem isEmpty_compileScript (variablesCount : Bytes → ℕ) (pattern : Bytes) :
    (compileScript variablesCount pattern).isEmpty = true ↔ pattern = [] := by
  simp [NgxCompiledScript.isEmpty, compileScript]

theorem mergePath_operationName {variablesCount : Bytes → ℕ}
    (hname : ∀ block, (locConf block).operationNameScript = compileScript variablesCount
      ((lastSome LocationDirective.operationName (directives block)).getD []))
    (outermost : ℕ) (blocks : List ℕ) :
    (mergePath order locConf (outermost :: blocks)).operationNameScript =
      compileScript variablesCount ((inheritedName directives (outermost :: blocks)).getD []) := by
  have hfilter (name : Option Bytes) : (name.filter (· ≠ [])).getD [] = name.getD [] := by
    cases name with
    | none => rfl
    | some name => by_cases h : name = [] <;> simp [Option.filter, h]
  induction blocks using List.reverseRecOn with
  | nil =>
    show (locConf outermost).operationNameScript = _
    rw [hname, inheritedName, ← List.nil_append [outermost], lastSome_concat]
    show _ = compileScript variablesCount ((Option.or _ none).getD [])
    rw [Option.or_none, hfilter]
  | append_singleton blocks block ih =>
    have hstep : mergePath order locConf (outermost :: (blocks ++ [block])) =
        mergeLocConf (order block) (mergePath order locConf (outermost :: blocks))
          (locConf block) := by
      rw [mergePath, List.foldl_append]
      rfl
    rw [hstep, ← List.cons_append, inheritedName, lastSome_concat, ← inheritedName]
    simp only [mergeLocConf, ih, hname, isEmpty_compileScript]
    set own := lastSome LocationDirective.operationName (directives block)
    set around := inheritedName directives (outermost :: blocks)
    have hgetD := hfilter own
    cases hown : own.filter (· ≠ []) with
    | some name =>
      have hne : name ≠ [] := of_decide_eq_true (Option.filter_eq_some_iff.mp hown).2
      rw [hown, Option.getD_some] at hgetD
      rw [if_neg fun h => hne (hgetD.trans h.2), Option.some_or, Option.getD_some, hgetD]
    | none =>
      rw [hown, Option.getD_none] at hgetD
      rw [Option.none_or, ← hgetD]
      by_cases haround : around.getD [] = []
      · rw [if_neg fun h => h.1 haround, haround]
      · rw [if_pos ⟨haround, rfl⟩]

theorem mergePath_customAttributes {variablesCount : Bytes → ℕ}
    (hattributes : ∀ block, (locConf block).customAttributes = Block.attributes variablesCount
      ⟨(directives block).filterMap LocationDirective.customAttribute, order block⟩)
    (outermost : ℕ) (blocks : List ℕ) :
    (mergePath order locConf (outermost :: blocks)).customAttributes =
      mergeBlocks variablesCount ((outermost :: blocks).map fun block =>
        ⟨(directives block).filterMap LocationDirective.customAttribute, order block⟩) := by
  rw [List.map_cons, mergeBlocks, List.foldl_map, ← hattributes, mergePath]
  refine (List.foldl_hom LocationSettings.customAttributes fun prev block => ?_).symm
  rw [← hattributes]
  rfl

variable {Rest : Type} {modules : List (NgxModule Rest)} {place : ℕ → NgxPlace}
  {ctx_index proxyIndex proxyOffset : ℕ} {rest : Rest} {calls : List (ℕ × LocationDirective)}
  {memory : ConfMemory Rest}

/-- The format of a location, in at least one block. -/
theorem merged_propagationType (hhttp : HttpModules modules place proxyIndex proxyOffset)
    (hrun : calls.foldlM (readDirective modules ngx place ctx_index) (unconfigured rest) =
      some memory)
    (order : ℕ → IterationOrder) (outermost : ℕ) {blocks : List ℕ} (hblocks : blocks ≠ []) :
    (mergePath order (fun block => memory.locConfs (.element block ctx_index))
        (outermost :: blocks)).propagationType =
      (inherited (directivesOf calls) (outermost :: blocks)
        LocationDirective.propagationType).getD .TracePropagationW3C := by
  have hset (block : ℕ) := setByAll ((configured hhttp hrun).locConf block)
  exact eq_of_isSet (mergePath_inherited (fun s => s.propagationType.isSet) isSet_merge
    (fun block => (hset block).propagationType) outermost hblocks)

/-- What requests use in a location, in at least one block, after a configuration was read. -/
theorem location_settings (hhttp : HttpModules modules place proxyIndex proxyOffset)
    (hrun : calls.foldlM (readDirective modules ngx place ctx_index) (unconfigured rest) =
      some memory)
    (order : ℕ → IterationOrder) (outermost : ℕ) {blocks : List ℕ} (hblocks : blocks ≠ []) :
    (mergePath order (fun block => memory.locConfs (.element block ctx_index))
        (outermost :: blocks)).merged =
      inheritedConf (directivesOf calls) (outermost :: blocks)
        ngx.ngx_http_script_variables_count order := by
  have hset (block : ℕ) : SetByAll ngx (directivesOf calls block)
      (memory.locConfs (.element block ctx_index)) :=
    setByAll ((configured hhttp hrun).locConf block)
  set locConf : ℕ → LocationSettings := fun block => memory.locConfs (.element block ctx_index)
  have hinherited {β : Type} (get : LocationSettings → Option β) {f : LocationDirective → Option β}
      {default : β} (hmerge : ∀ order prev conf,
        get (mergeLocConf order prev conf) = inherit default (get prev) (get conf))
      (hget : ∀ block, get (locConf block) = lastSome f (directivesOf calls block)) :
      get (mergePath order locConf (outermost :: blocks)) =
        some ((inherited (directivesOf calls) (outermost :: blocks) f).getD default) :=
    mergePath_inherited get hmerge hget outermost hblocks
  have henabled := hinherited LocationSettings.enabled (fun _ _ _ => rfl)
    fun block => (hset block).enabled
  have htrust := hinherited LocationSettings.trustIncomingSpans (fun _ _ _ => rfl)
    fun block => (hset block).trustIncomingSpans
  have hcapture := hinherited LocationSettings.captureHeaders (fun _ _ _ => rfl)
    fun block => (hset block).captureHeaders
  have hnames := hinherited LocationSettings.sensitiveHeaderNames (fun _ _ _ => rfl)
    fun block => (hset block).sensitiveHeaderNames
  have hvalues := hinherited LocationSettings.sensitiveHeaderValues (fun _ _ _ => rfl)
    fun block => (hset block).sensitiveHeaderValues
  have hignore := hinherited LocationSettings.ignore_paths (fun _ _ _ => rfl)
    fun block => (hset block).ignore_paths
  have htype : (mergePath order locConf (outermost :: blocks)).propagationType = _ :=
    merged_propagationType hhttp hrun order outermost hblocks
  have hscript (block : ℕ) : (locConf block).operationNameScript =
      compileScript ngx.ngx_http_script_variables_count
        ((lastSome LocationDirective.operationName (directivesOf calls block)).getD []) := by
    rw [(hset block).operationNameScript]
    cases lastSome LocationDirective.operationName (directivesOf calls block) with
    | none => simp [compileScript, ngx.variables_count_nil]
    | some pattern => rfl
  have hname : (mergePath order locConf (outermost :: blocks)).operationNameScript = _ :=
    mergePath_operationName hscript outermost blocks
  have hattributes : (mergePath order locConf (outermost :: blocks)).customAttributes = _ :=
    mergePath_customAttributes (fun block => (hset block).customAttributes (order block))
      outermost blocks
  simp only [LocationSettings.merged, inheritedConf, henabled, htrust, hcapture, hnames, hvalues,
    hignore, hname, hattributes, htype, Option.getD_some]

/-! ### Headers for the upstream -/

/-- `proxy_set_header` is inherited exactly where a block has none of its own. -/
structure InheritsHeaders (mergeHeaders : Headers → Headers → Headers) : Prop where
  inherited : ∀ prev, mergeHeaders prev [] = prev
  own : ∀ prev conf, conf ≠ [] → mergeHeaders prev conf = conf

/-- The headers that the last block of a path sets for proxied servers. -/
def mergeHeadersPath (mergeHeaders : Headers → Headers → Headers) (headers : ℕ → Headers) :
    List ℕ → Headers
  | [] => []
  | outermost :: blocks =>
    blocks.foldl (fun prev block => mergeHeaders prev (headers block)) (headers outermost)

end

namespace LocationDirective

def propagates : LocationDirective → Bool
  | .opentelemetry_propagate _ => true
  | _ => false

def setsHeaders : LocationDirective → Bool
  | .opentelemetry_propagate _ | .proxy_set_header _ _ => true
  | _ => false

end LocationDirective

/-- No header is set from a variable for it by hand. -/
def SetsOwnHeaders (calls : List (ℕ × LocationDirective)) : Prop :=
  ∀ block field value, (block, .proxy_set_header field value) ∈ calls →
    ∀ type, (field, value) ∉ proxyPairs type

theorem proxyPairs_ne_nil (type : TracePropagationType) : proxyPairs type ≠ [] := by
  cases type <;> decide +kernel

/-- The headers of a location for which `Nginx.headersSet` has the values. -/
theorem headersSet_eq_proxyPairs (ngx : NgxCore) (context : ℕ → RemoteContext) (allocated : Bool)
    (s : Outgoing) (req : NgxHttpRequest) :
    headersSet ngx context allocated s req =
      (proxyPairs req.locConf.propagationType).map fun pair =>
        (pair.1, expanded (getVariable ngx context allocated s req (pair.2.drop 1))) := by
  rw [headersSet, proxyPairs, List.map_map]
  rfl

section

variable {ngx : NgxCompiler} {mergeHeaders : Headers → Headers → Headers} {headers : ℕ → Headers}

theorem mergeHeadersPath_eq (hmerge : InheritsHeaders mergeHeaders) (path : List ℕ) :
    mergeHeadersPath mergeHeaders headers path =
      ((path.reverse.find? fun block => !(headers block).isEmpty).map headers).getD [] := by
  have hnil (conf : Headers) : mergeHeaders [] conf = conf := by
    rcases eq_or_ne conf [] with rfl | hne
    · exact hmerge.inherited []
    · exact hmerge.own [] conf hne
  rw [← foldl_nonempty hmerge.inherited hmerge.own]
  cases path with
  | nil => rfl
  | cons outermost blocks => rw [List.foldl_cons, hnil, mergeHeadersPath]

/-- The directives that were run had formats that are supported. -/
theorem requestedType_of_accepted {directives : List LocationDirective} {locConf : LocationSettings}
    (h : directives.foldlM (LocationDirective.set ngx) createOtelLocConf = some locConf)
    {format : Option Bytes} (hformat : .opentelemetry_propagate format ∈ directives) :
    ∃ type, requestedType (propagateArgs format) = some type := by
  induction directives using List.reverseRecOn generalizing locConf with
  | nil => exact absurd hformat List.not_mem_nil
  | append_singleton directives directive ih =>
    rw [List.foldlM_append, Option.bind_eq_bind, Option.bind_eq_some_iff] at h
    obtain ⟨between, hbefore, hlast⟩ := h
    rcases List.mem_append.mp hformat with hformat | hformat
    · exact ih hbefore hformat
    · rw [← List.mem_singleton.mp hformat, List.foldlM_cons, Option.bind_eq_bind,
        Option.bind_eq_some_iff] at hlast
      obtain ⟨after, hset, -⟩ := hlast
      obtain ⟨type, htype, -⟩ := Option.map_eq_some_iff.mp hset
      exact ⟨type, htype⟩

/-- A block sets headers exactly when it has a directive for it. -/
theorem headers_isEmpty {directives : List LocationDirective} {locConf : LocationSettings}
    (h : directives.foldlM (LocationDirective.set ngx) createOtelLocConf = some locConf) :
    (directives.flatMap LocationDirective.headers).isEmpty =
      !directives.any LocationDirective.setsHeaders := by
  have hheaders (directive : LocationDirective) (hmem : directive ∈ directives) :
      directive.headers = [] ↔ directive.setsHeaders = false := by
    cases directive with
    | opentelemetry_propagate format =>
      obtain ⟨type, htype⟩ := requestedType_of_accepted h hmem
      rw [LocationDirective.headers, htype]
      exact iff_of_false (proxyPairs_ne_nil type) (by simp [LocationDirective.setsHeaders])
    | proxy_set_header field value =>
      exact iff_of_false (List.cons_ne_nil _ _) (by simp [LocationDirective.setsHeaders])
    | _ => exact iff_of_true rfl rfl
  rw [Bool.eq_iff_iff, List.isEmpty_iff, List.flatMap_eq_nil_iff, Bool.not_eq_true',
    List.any_eq_false]
  constructor
  · intro hempty directive hmem
    rw [(hheaders directive hmem).mp (hempty directive hmem)]
    exact Bool.false_ne_true
  · intro hnone directive hmem
    exact (hheaders directive hmem).mpr (Bool.eq_false_iff.mpr (hnone directive hmem))

/-- A block has a format exactly when it has a directive for it. -/
theorem format_isSome {directives : List LocationDirective} {locConf : LocationSettings}
    (h : directives.foldlM (LocationDirective.set ngx) createOtelLocConf = some locConf) :
    (lastSome LocationDirective.propagationType directives).isSome =
      directives.any LocationDirective.propagates := by
  rw [Bool.eq_iff_iff, List.any_eq_true]
  constructor
  · intro hsome
    obtain ⟨type, htype⟩ := Option.isSome_iff_exists.mp hsome
    obtain ⟨directive, hmem, hformat⟩ := List.exists_of_findSome?_eq_some htype
    refine ⟨directive, List.mem_reverse.mp hmem, ?_⟩
    cases directive with
    | opentelemetry_propagate format => rfl
    | _ => cases hformat
  · rintro ⟨directive, hmem, hpropagates⟩
    rw [Option.isSome_iff_ne_none]
    intro hnone
    have hformat := lastSome_eq_none_iff.mp hnone directive hmem
    cases directive with
    | opentelemetry_propagate format =>
      obtain ⟨type, htype⟩ := requestedType_of_accepted h hmem
      rw [LocationDirective.propagationType, htype] at hformat
      cases hformat
    | _ => cases hpropagates

theorem setsHeaders_of_propagates {directives : List LocationDirective}
    (h : directives.any LocationDirective.propagates = true) :
    directives.any LocationDirective.setsHeaders = true := by
  obtain ⟨directive, hmem, hpropagates⟩ := List.any_eq_true.mp h
  refine List.any_eq_true.mpr ⟨directive, hmem, ?_⟩
  cases directive with
  | opentelemetry_propagate format => rfl
  | _ => cases hpropagates

variable {Rest : Type} {modules : List (NgxModule Rest)} {place : ℕ → NgxPlace}
  {ctx_index proxyIndex proxyOffset : ℕ} {rest : Rest} {calls : List (ℕ × LocationDirective)}
  {memory : ConfMemory Rest}

theorem mem_directivesOf {block : ℕ} {directive : LocationDirective} :
    directive ∈ directivesOf calls block ↔ (block, directive) ∈ calls := by
  simp [directivesOf]

/-- The headers of a location, in at least one block, are set from the variables of the format of
its spans exactly when the innermost block that sets any has an `opentelemetry_propagate`. -/
theorem forwards_iff (hhttp : HttpModules modules place proxyIndex proxyOffset)
    (hrun : calls.foldlM (readDirective modules ngx place ctx_index) (unconfigured rest) =
      some memory)
    (hown : SetsOwnHeaders calls) (hmerge : InheritsHeaders mergeHeaders)
    (order : ℕ → IterationOrder) (outermost : ℕ) {blocks : List ℕ} (hblocks : blocks ≠ []) :
    proxyPairs (mergePath order (fun block => memory.locConfs (.element block ctx_index))
        (outermost :: blocks)).merged.propagationType ⊆
      mergeHeadersPath mergeHeaders
        (fun block => memory.keyvals (.element block proxyIndex) proxyOffset)
        (outermost :: blocks) ↔
    ∃ block,
      (outermost :: blocks).reverse.find? (fun block =>
        (directivesOf calls block).any LocationDirective.setsHeaders) = some block ∧
      (directivesOf calls block).any LocationDirective.propagates := by
  obtain ⟨hlocConf, hheaders⟩ := configured hhttp hrun
  rw [LocationSettings.merged, merged_propagationType hhttp hrun order outermost hblocks,
    mergeHeadersPath_eq hmerge]
  simp only [hheaders, headers_isEmpty (hlocConf _), Bool.not_not]
  set path := outermost :: blocks
  set type := (inherited (directivesOf calls) path
    LocationDirective.propagationType).getD .TracePropagationW3C with htype
  constructor
  · intro hsubset
    obtain ⟨pair, hpair⟩ := List.exists_mem_of_ne_nil _ (proxyPairs_ne_nil type)
    have hset := hsubset hpair
    cases hfind : path.reverse.find? fun block =>
        (directivesOf calls block).any LocationDirective.setsHeaders with
    | none =>
      rw [hfind] at hset
      exact absurd hset List.not_mem_nil
    | some block =>
      refine ⟨block, rfl, ?_⟩
      rw [hfind] at hset
      obtain ⟨directive, hdirective, hmem⟩ := List.mem_flatMap.mp hset
      rw [List.any_eq_true]
      refine ⟨directive, hdirective, ?_⟩
      cases directive with
      | opentelemetry_propagate format => rfl
      | proxy_set_header field value =>
        have hheader := List.mem_singleton.mp hmem
        subst hheader
        exact absurd hpair (hown block field value (mem_directivesOf.mp hdirective) type)
      | _ => exact absurd hmem List.not_mem_nil
  · rintro ⟨block, hfind, hpropagates⟩
    -- the block is also the innermost one that says what the format is
    have hlast : (lastSome LocationDirective.propagationType (directivesOf calls block)).isSome :=
      (format_isSome (hlocConf block)).trans hpropagates
    have hinner : path.reverse.find? (fun block =>
        (lastSome LocationDirective.propagationType (directivesOf calls block)).isSome) =
        some block := by
      simp only [format_isSome (hlocConf _)]
      exact find?_of_imp hfind (fun _ => setsHeaders_of_propagates) hpropagates
    obtain ⟨last, hsome⟩ := Option.isSome_iff_exists.mp hlast
    have hinherited : type = last := by
      rw [htype, inherited, lastSome_of_find? hinner, hsome, Option.getD_some]
    rw [hfind, hinherited]
    obtain ⟨directive, hdirective, hformat⟩ := List.exists_of_findSome?_eq_some hsome
    intro pair hpair
    refine List.mem_flatMap.mpr ⟨directive, List.mem_reverse.mp hdirective, ?_⟩
    cases directive with
    | opentelemetry_propagate format =>
      rw [LocationDirective.propagationType] at hformat
      rw [LocationDirective.headers, hformat]
      exact hpair
    | _ => cases hformat

end

/-! ### A configuration -/

/-- A flag that is `on` or `off` and was not set before. -/
def sampleFlag (old : Option Bool) (value : Bytes) : Option Bool :=
  if old.isSome then none
  else if eqIgnoringCase value (ascii "on") then some true
  else if eqIgnoringCase value (ascii "off") then some false
  else none

def sampleCompiler : NgxCompiler where
  ngx_conf_set_flag_slot := sampleFlag
  ngx_http_script_variables_count := countDollars
  ngx_http_script_compile := fun _ => true
  ngx_regex_compile := fun _ => true
  flag_slot := by
    intro old value new h
    simp only [sampleFlag] at h
    split_ifs at h with hold hon hoff
    · exact (Option.some.inj h).symm.trans hon.symm
    · exact (Option.some.inj h).symm.trans (Bool.eq_false_iff.mpr hon).symm
  variables_count_nil := rfl

/-- In the server 5 the directive for its spans stands behind the location 6, which sets a header
of its own; the location 7 sets none. -/
def sampleDirectives : List (ℕ × LocationDirective) :=
  [(4, .opentelemetry_propagate (some (ascii "b3"))),
    (5, .opentelemetry_operation_name (ascii "server")),
    (6, .proxy_set_header (ascii "Host") (ascii "backend")),
    (6, .opentelemetry (ascii "off")),
    (5, .opentelemetry_propagate none),
    (7, .opentelemetry_operation_name [])]

/-- The array of a command at the offset of location configurations. -/
theorem sampleModules_slot {directive : Bytes} (type : ℕ) {index offset : ℕ}
    (h : (takerOf sampleModules (samplePlace 0) directive).map
      (fun entry => (entry.2.type, entry.2.conf, entry.1.ctx_index, entry.2.offset)) =
        some (type, 16, index, offset))
    (htype : has type NGX_DIRECT_CONF = false ∧ has type NGX_MAIN_CONF = false) (block : ℕ) :
    slotOf sampleModules (samplePlace block) directive = some (.element block index, offset) := by
  obtain ⟨entry, htaker, hfields⟩ := Option.map_eq_some_iff.mp h
  simp only [Prod.mk.injEq] at hfields
  obtain ⟨rfl, hconf, rfl, rfl⟩ := hfields
  have hblock : takerOf sampleModules (samplePlace block) directive = some entry := htaker
  rw [slotOf, hblock, Option.map_some, NgxPlace.confPointer, htype.1, htype.2]
  simp [samplePlace, hconf]

theorem sampleModules_http : HttpModules sampleModules samplePlace 1 8 where
  addPairs := fun _ => sampleModules_addPairs _
  proxy := sampleModules_slot 0xE000004 (by decide +kernel) (by decide)
  fastcgi := ⟨2, 24, by decide, sampleModules_slot 0xE00000C (by decide +kernel) (by decide)⟩

theorem sampleModules_read : ∃ memory, sampleDirectives.foldlM
    (readDirective sampleModules sampleCompiler samplePlace 3) (unconfigured ()) = some memory := by
  rw [← Option.isSome_iff_exists]
  decide +kernel

theorem accepted_iff_sample :
    (∃ locConf, (directivesOf sampleDirectives 5).foldlM
        (LocationDirective.set sampleCompiler) createOtelLocConf = some locConf) ∧
      ∃ memory alone, sampleDirectives.foldlM
          (readDirective sampleModules sampleCompiler samplePlace 3) (unconfigured ()) =
            some memory ∧
        (sampleDirectives.filter fun call => call.1 = 6).foldlM
          (readDirective sampleModules sampleCompiler samplePlace 3) (unconfigured ()) =
            some alone ∧ AgreeIn 6 memory alone := by
  obtain ⟨hiff, halone⟩ := accepted_iff sampleModules_http () sampleDirectives
  obtain ⟨memory, hrun⟩ := sampleModules_read
  obtain ⟨alone, hown, hagree⟩ := halone memory hrun 6
  exact ⟨hiff.mp ⟨memory, hrun⟩ 5, memory, alone, hrun, hown, hagree⟩

theorem location_settings_sample :
    ∃ memory, sampleDirectives.foldlM (readDirective sampleModules sampleCompiler samplePlace 3)
        (unconfigured ()) = some memory ∧
      (mergePath (fun _ => backwards) (fun block => memory.locConfs (.element block 3))
        [4, 5, 7]).merged.operationNameScript.pattern = ascii "server" := by
  obtain ⟨memory, hrun⟩ := sampleModules_read
  refine ⟨memory, hrun, ?_⟩
  rw [location_settings sampleModules_http hrun (fun _ => backwards) 4 (List.cons_ne_nil 5 [7])]
  decide +kernel

/-- nginx's `proxy_set_header`. -/
def sampleMergeHeaders (prev conf : Headers) : Headers := if conf = [] then prev else conf

theorem sampleMergeHeaders_inherits : InheritsHeaders sampleMergeHeaders where
  inherited := fun _ => if_pos rfl
  own := fun _ _ h => if_neg h

theorem forwards_iff_sample :
    ∃ memory, sampleDirectives.foldlM (readDirective sampleModules sampleCompiler samplePlace 3)
        (unconfigured ()) = some memory ∧
      proxyPairs (mergePath (fun _ => backwards) (fun block => memory.locConfs (.element block 3))
          [4, 5, 7]).merged.propagationType ⊆
        mergeHeadersPath sampleMergeHeaders (fun block => memory.keyvals (.element block 1) 8)
          [4, 5, 7] ∧
      ¬proxyPairs (mergePath (fun _ => backwards) (fun block => memory.locConfs (.element block 3))
          [4, 5, 6]).merged.propagationType ⊆
        mergeHeadersPath sampleMergeHeaders (fun block => memory.keyvals (.element block 1) 8)
          [4, 5, 6] := by
  obtain ⟨memory, hrun⟩ := sampleModules_read
  have hown : SetsOwnHeaders sampleDirectives := by
    intro block field value hmem type
    have hheader : (field, value) = (ascii "Host", ascii "backend") := by
      have hheaders : ∀ call ∈ sampleDirectives, call.2.propagates = false →
          ∀ header ∈ call.2.headers, header = (ascii "Host", ascii "backend") := by
        decide +kernel
      exact hheaders _ hmem rfl _ List.mem_cons_self
    rw [hheader]
    cases type <;> decide +kernel
  refine ⟨memory, hrun, ?_, ?_⟩
  · rw [forwards_iff sampleModules_http hrun hown sampleMergeHeaders_inherits _ 4
      (List.cons_ne_nil 5 [7])]
    exact ⟨5, by decide +kernel⟩
  · rw [forwards_iff sampleModules_http hrun hown sampleMergeHeaders_inherits _ 4
      (List.cons_ne_nil 5 [6])]
    rintro ⟨block, hfind, hpropagates⟩
    have hsix : [4, 5, 6].reverse.find? (fun block =>
        (directivesOf sampleDirectives block).any LocationDirective.setsHeaders) = some 6 := by
      decide +kernel
    obtain rfl := Option.some.inj (hsix.symm.trans hfind)
    revert hpropagates
    decide +kernel

end Nginx
