/-
The configuration of the Apache module (`ApacheConfig.cpp`, and the command table of
`mod_apache_otel.cpp`).

Every directive belongs to a section of the configuration files, which has a record of
its own; a number stands for the section.  Directives of `.htaccess` files are read
while requests are served, so that a directive may come at any time.

* `records_given` — a record has the triple that its section's directives gave last;
* `contexts_completed` — the context of a name is the first one that a section completed.
-/
import OtelContrib.Webserver.WSAgent

namespace Apache

/-! ### Records -/

/-- A member of `otel_cfg` with its `_initialized` flag. -/
structure Field (α : Type) where
  value : α
  initialized : Bool

namespace Field

variable {α : Type}

/-- What `otel_cfg::init` leaves. -/
def default (value : α) : Field α := ⟨value, false⟩

/-- `helperChar` and `helperInt`. -/
def set (_ : Field α) (value : α) : Field α := ⟨value, true⟩

/-- One member of `otel_merge_dir_config`. -/
def merge (pconf nconf : Field α) : Field α :=
  ⟨if nconf.initialized then nconf.value else pconf.value, true⟩

end Field

structure OtelCfg where
  otelEnabled : Field ℤ
  otelExporterType : Field Bytes
  otelExporterEndpoint : Field Bytes
  otelExporterOtlpHeaders : Field Bytes
  otelSslEnabled : Field ℤ
  otelSslCertificatePath : Field Bytes
  otelProcessorType : Field Bytes
  otelSamplerType : Field Bytes
  serviceNamespace : Field Bytes
  serviceName : Field Bytes
  serviceInstanceId : Field Bytes
  otelMaxQueueSize : Field Bytes
  otelScheduledDelay : Field Bytes
  otelExportTimeout : Field Bytes
  otelMaxExportBatchSize : Field Bytes
  resolveBackends : Field ℤ
  traceAsError : Field ℤ
  reportAllInstrumentedModules : Field ℤ
  loc : Bytes
  maskCookie : Field ℤ
  cookiePattern : Field Bytes
  maskSmUser : Field ℤ
  delimiter : Field Bytes
  segment : Field Bytes
  matchFilter : Field Bytes
  matchPattern : Field Bytes
  segmentType : Field Bytes
  segmentParameter : Field Bytes

/-- Namespace, name and instance id of a service. -/
abbrev Triple := Bytes × Bytes × Bytes

namespace OtelCfg

/-- `otel_create_dir_config`, with the defaults of `otel_cfg::init`. -/
def otelCreateDirConfig (dirspec : Bytes) : OtelCfg where
  otelEnabled := .default 1
  otelExporterType := .default (ascii "OTLP")
  otelExporterEndpoint := .default []
  otelExporterOtlpHeaders := .default []
  otelSslEnabled := .default 0
  otelSslCertificatePath := .default []
  otelProcessorType := .default (ascii "BATCH")
  otelSamplerType := .default (ascii "ALWAYSON")
  serviceNamespace := .default []
  serviceName := .default []
  serviceInstanceId := .default []
  otelMaxQueueSize := .default (ascii "2048")
  otelScheduledDelay := .default (ascii "5000")
  otelExportTimeout := .default (ascii "30000")
  otelMaxExportBatchSize := .default (ascii "512")
  resolveBackends := .default 1
  traceAsError := .default 0
  reportAllInstrumentedModules := .default 0
  loc := ascii "DIR(" ++ dirspec ++ ascii ")"
  maskCookie := .default 0
  cookiePattern := .default []
  maskSmUser := .default 0
  delimiter := .default []
  segment := .default []
  matchFilter := .default []
  matchPattern := .default []
  segmentType := .default (ascii "FIRST")
  segmentParameter := .default (ascii "2")

/-- `otel_merge_dir_config`; the exporter's headers are not among the members it merges. -/
def otelMergeDirConfig (pconf nconf : OtelCfg) : OtelCfg :=
  { otelCreateDirConfig (ascii "Merged Directory Configuration") with
    otelEnabled := pconf.otelEnabled.merge nconf.otelEnabled
    otelExporterEndpoint := pconf.otelExporterEndpoint.merge nconf.otelExporterEndpoint
    otelSslEnabled := pconf.otelSslEnabled.merge nconf.otelSslEnabled
    otelSslCertificatePath := pconf.otelSslCertificatePath.merge nconf.otelSslCertificatePath
    otelExporterType := pconf.otelExporterType.merge nconf.otelExporterType
    otelProcessorType := pconf.otelProcessorType.merge nconf.otelProcessorType
    otelSamplerType := pconf.otelSamplerType.merge nconf.otelSamplerType
    serviceNamespace := pconf.serviceNamespace.merge nconf.serviceNamespace
    serviceName := pconf.serviceName.merge nconf.serviceName
    serviceInstanceId := pconf.serviceInstanceId.merge nconf.serviceInstanceId
    otelMaxQueueSize := pconf.otelMaxQueueSize.merge nconf.otelMaxQueueSize
    otelScheduledDelay := pconf.otelScheduledDelay.merge nconf.otelScheduledDelay
    otelExportTimeout := pconf.otelExportTimeout.merge nconf.otelExportTimeout
    otelMaxExportBatchSize := pconf.otelMaxExportBatchSize.merge nconf.otelMaxExportBatchSize
    resolveBackends := pconf.resolveBackends.merge nconf.resolveBackends
    traceAsError := pconf.traceAsError.merge nconf.traceAsError
    reportAllInstrumentedModules :=
      pconf.reportAllInstrumentedModules.merge nconf.reportAllInstrumentedModules
    maskCookie := pconf.maskCookie.merge nconf.maskCookie
    cookiePattern := pconf.cookiePattern.merge nconf.cookiePattern
    maskSmUser := pconf.maskSmUser.merge nconf.maskSmUser
    delimiter := pconf.delimiter.merge nconf.delimiter
    segment := pconf.segment.merge nconf.segment
    matchFilter := pconf.matchFilter.merge nconf.matchFilter
    matchPattern := pconf.matchPattern.merge nconf.matchPattern
    segmentType := pconf.segmentType.merge nconf.segmentType
    segmentParameter := pconf.segmentParameter.merge nconf.segmentParameter }

/-- `otel_cfg::validate`. -/
def validate (cfg : OtelCfg) : Bool :=
  (cfg.otelEnabled.value = 0 ∨ cfg.otelEnabled.value = 1) ∧
    cfg.otelExporterEndpoint.value ≠ [] ∧
    (cfg.otelSslEnabled.value = 0 ∨ cfg.otelSslCertificatePath.value ≠ []) ∧
    cfg.serviceNamespace.value ≠ [] ∧ cfg.serviceName.value ≠ [] ∧ cfg.serviceInstanceId.value ≠ []

def triple (cfg : OtelCfg) : Triple :=
  (cfg.serviceNamespace.value, cfg.serviceName.value, cfg.serviceInstanceId.value)

/-- All three of the triple were initialized. -/
def tripleInitialized (cfg : OtelCfg) : Bool :=
  cfg.serviceNamespace.initialized && cfg.serviceName.initialized &&
    cfg.serviceInstanceId.initialized

end OtelCfg

/-- Namespace, name and instance id with colons between them. -/
def joined (t : Triple) : Bytes := t.1 ++ ascii ":" ++ t.2.1 ++ ascii ":" ++ t.2.2

/-- `computeContextName`. -/
def computeContextName (cfg : OtelCfg) : Bytes :=
  if ¬cfg.tripleInitialized then [] else joined cfg.triple

/-! ### Directives -/

inductive Directive
  | enabled (arg : Bytes)
  | otelSpanExporter (arg : Bytes)
  | otelExporterEndpoint (arg : Bytes)
  | otelExporterHeaders (arg : Bytes)
  | otelSslEnabled (arg : Bytes)
  | otelSslCertificatePath (arg : Bytes)
  | otelSpanProcessor (arg : Bytes)
  | otelSampler (arg : Bytes)
  | serviceName (arg : Bytes)
  | serviceNamespace (arg : Bytes)
  | serviceInstanceId (arg : Bytes)
  | otelMaxQueueSize (arg : Bytes)
  | otelScheduledDelayMillis (arg : Bytes)
  | otelExportTimeoutMillis (arg : Bytes)
  | otelMaxExportBatchSize (arg : Bytes)
  | resolveBackends (arg : Bytes)
  | traceAsError (arg : Bytes)
  | reportAllInstrumentedModules (arg : Bytes)
  | webserverContext (sNamespace sName sInstanceId : Bytes)
  | maskCookie (arg : Bytes)
  | cookieMatchPattern (arg : Bytes)
  | maskSmUser (arg : Bytes)
  | delimiter (arg : Bytes)
  | segment (arg : Bytes)
  | matchfilter (arg : Bytes)
  | matchpattern (arg : Bytes)
  | segmentType (arg : Bytes)
  | segmentParameter (arg : Bytes)

/-- `helperInt`'s value: whether the argument is `on`, in any case. -/
def isOn (arg : Bytes) : ℤ :=
  if (arg.map fun b => if 65 ≤ b ∧ b ≤ 90 then b + 32 else b) = ascii "on" then 1 else 0

/-- What a directive does to the record of its section. -/
def Directive.apply (cfg : OtelCfg) : Directive → OtelCfg
  | .enabled arg => { cfg with otelEnabled := cfg.otelEnabled.set (isOn arg) }
  | .otelSpanExporter arg => { cfg with otelExporterType := cfg.otelExporterType.set arg }
  | .otelExporterEndpoint arg =>
    { cfg with otelExporterEndpoint := cfg.otelExporterEndpoint.set arg }
  | .otelExporterHeaders arg =>
    { cfg with otelExporterOtlpHeaders := cfg.otelExporterOtlpHeaders.set arg }
  | .otelSslEnabled arg => { cfg with otelSslEnabled := cfg.otelSslEnabled.set (isOn arg) }
  | .otelSslCertificatePath arg =>
    { cfg with otelSslCertificatePath := cfg.otelSslCertificatePath.set arg }
  | .otelSpanProcessor arg => { cfg with otelProcessorType := cfg.otelProcessorType.set arg }
  | .otelSampler arg => { cfg with otelSamplerType := cfg.otelSamplerType.set arg }
  | .serviceName arg => { cfg with serviceName := cfg.serviceName.set arg }
  | .serviceNamespace arg => { cfg with serviceNamespace := cfg.serviceNamespace.set arg }
  | .serviceInstanceId arg => { cfg with serviceInstanceId := cfg.serviceInstanceId.set arg }
  | .otelMaxQueueSize arg => { cfg with otelMaxQueueSize := cfg.otelMaxQueueSize.set arg }
  | .otelScheduledDelayMillis arg =>
    { cfg with otelScheduledDelay := cfg.otelScheduledDelay.set arg }
  | .otelExportTimeoutMillis arg => { cfg with otelExportTimeout := cfg.otelExportTimeout.set arg }
  | .otelMaxExportBatchSize arg =>
    { cfg with otelMaxExportBatchSize := cfg.otelMaxExportBatchSize.set arg }
  | .resolveBackends arg => { cfg with resolveBackends := cfg.resolveBackends.set (isOn arg) }
  | .traceAsError arg => { cfg with traceAsError := cfg.traceAsError.set (isOn arg) }
  | .reportAllInstrumentedModules arg =>
    { cfg with
      reportAllInstrumentedModules := cfg.reportAllInstrumentedModules.set (isOn arg) }
  | .webserverContext sNamespace sName sInstanceId =>
    { cfg with
      serviceNamespace := cfg.serviceNamespace.set sNamespace
      serviceName := cfg.serviceName.set sName
      serviceInstanceId := cfg.serviceInstanceId.set sInstanceId }
  | .maskCookie arg => { cfg with maskCookie := cfg.maskCookie.set (isOn arg) }
  | .cookieMatchPattern arg => { cfg with cookiePattern := cfg.cookiePattern.set arg }
  | .maskSmUser arg => { cfg with maskSmUser := cfg.maskSmUser.set (isOn arg) }
  | .delimiter arg => { cfg with delimiter := cfg.delimiter.set arg }
  | .segment arg => { cfg with segment := cfg.segment.set arg }
  | .matchfilter arg => { cfg with matchFilter := cfg.matchFilter.set arg }
  | .matchpattern arg => { cfg with matchPattern := cfg.matchPattern.set arg }
  | .segmentType arg => { cfg with segmentType := cfg.segmentType.set arg }
  | .segmentParameter arg => { cfg with segmentParameter := cfg.segmentParameter.set arg }

/-! ### The state of the handlers -/

/-- The records of the sections, the contexts by their names, and the flag that the
directive for it sets for all sections. -/
structure ConfigHandlers where
  records : ℕ → OtelCfg
  m_webServerContexts : List (Bytes × Triple)
  m_reportAllStages : Bool

namespace ConfigHandlers

/-- Before the first directive; `dirspec` gives what the sections are for. -/
def new (dirspec : ℕ → Bytes) : ConfigHandlers :=
  ⟨fun k => .otelCreateDirConfig (dirspec k), [], false⟩

/-- `insertWebserverContext`; all that a taken name with another content leads to is an
error message. -/
def insertWebserverContext (h : ConfigHandlers) (cfg : OtelCfg) : ConfigHandlers :=
  let contextName := computeContextName cfg
  if contextName = [] then h
  else if contextName ∈ h.m_webServerContexts.map Prod.fst then h
  else { h with m_webServerContexts := h.m_webServerContexts ++ [(contextName, cfg.triple)] }

/-- The command handler of a directive of section `k`. -/
def command (h : ConfigHandlers) (k : ℕ) (d : Directive) : ConfigHandlers :=
  let cfg := d.apply (h.records k)
  let h := { h with records := Function.update h.records k cfg }
  match d with
  | .serviceNamespace _ | .serviceName _ | .serviceInstanceId _ =>
    if cfg.tripleInitialized then h.insertWebserverContext cfg else h
  | .webserverContext _ _ _ => h.insertWebserverContext cfg
  | .reportAllInstrumentedModules _ =>
    { h with m_reportAllStages := cfg.reportAllInstrumentedModules.value ≠ 0 }
  | _ => h

/-- `our_dconfig`: the records of the sections that apply to a request, merged from the
outermost on. -/
def ourDconfig (h : ConfigHandlers) : List ℕ → Option OtelCfg
  | [] => none
  | k :: sections => some ((sections.map h.records).foldl .otelMergeDirConfig (h.records k))

/-- `getConfig`. -/
def getConfig (h : ConfigHandlers) (sections : List ℕ) : Option OtelCfg :=
  (h.ourDconfig sections).filter OtelCfg.validate

/-- What has been read: the handlers after the given directives, each with its section. -/
def read (dirspec : ℕ → Bytes) (directives : List (ℕ × Directive)) : ConfigHandlers :=
  directives.foldl (fun h e => h.command e.1 e.2) (new dirspec)

end ConfigHandlers

/-! ### What the directives give -/

/-- The namespace, name or instance id that a directive gives. -/
def Directive.namespace? : Directive → Option Bytes
  | .serviceNamespace arg => some arg
  | .webserverContext sNamespace _ _ => some sNamespace
  | _ => none

def Directive.name? : Directive → Option Bytes
  | .serviceName arg => some arg
  | .webserverContext _ sName _ => some sName
  | _ => none

def Directive.instanceId? : Directive → Option Bytes
  | .serviceInstanceId arg => some arg
  | .webserverContext _ _ sInstanceId => some sInstanceId
  | _ => none

/-- What the directives of section `k` gave last. -/
def given (part : Directive → Option Bytes) (k : ℕ) (directives : List (ℕ × Directive)) :
    Option Bytes :=
  (directives.filterMap fun e => if e.1 = k then part e.2 else none).getLast?

/-- The triple of section `k`, once all of it was given there. -/
def givenTriple (k : ℕ) (directives : List (ℕ × Directive)) : Option Triple :=
  match given Directive.namespace? k directives, given Directive.name? k directives,
    given Directive.instanceId? k directives with
  | some sNamespace, some sName, some sInstanceId => some (sNamespace, sName, sInstanceId)
  | _, _, _ => none

/-- A directive that gives a part of a triple completes the triple of its section when the
other parts were given there. -/
def completedBy (directives : List (ℕ × Directive)) (e : ℕ × Directive) : Option Triple :=
  if e.2.namespace?.isSome ∨ e.2.name?.isSome ∨ e.2.instanceId?.isSome then
    givenTriple e.1 (directives ++ [e])
  else none

/-- The triples that were completed, in order, when some directives had been read before. -/
def completedAfter (directives : List (ℕ × Directive)) : List (ℕ × Directive) → List Triple
  | [] => []
  | e :: rest => (completedBy directives e).toList ++ completedAfter (directives ++ [e]) rest

/-- The triples that sections completed, in order. -/
def completed (directives : List (ℕ × Directive)) : List Triple := completedAfter [] directives

/-! ### The handlers keep what the directives give -/

open ConfigHandlers

theorem given_snoc (part : Directive → Option Bytes) (k : ℕ) (directives : List (ℕ × Directive))
    (e : ℕ × Directive) :
    given part k (directives ++ [e]) =
      if e.1 = k then (part e.2).or (given part k directives) else given part k directives := by
  rw [given, List.filterMap_append]
  by_cases hk : e.1 = k
  · rcases hpart : part e.2 with _ | arg
    · simp [given, hk, hpart]
    · simp [hk, hpart]
  · simp [given, hk]

theorem completedAfter_snoc (before directives : List (ℕ × Directive)) (e : ℕ × Directive) :
    completedAfter before (directives ++ [e]) =
      completedAfter before directives ++ (completedBy (before ++ directives) e).toList := by
  induction directives generalizing before with
  | nil => simp [completedAfter]
  | cons d directives ih => simp [completedAfter, ih, List.append_assoc]

theorem completed_snoc (directives : List (ℕ × Directive)) (e : ℕ × Directive) :
    completed (directives ++ [e]) = completed directives ++ (completedBy directives e).toList :=
  completedAfter_snoc [] directives e

/-- What a field has when something may have been given for it. -/
def Field.ofGiven (arg : Option Bytes) : Field Bytes := ⟨arg.getD [], arg.isSome⟩

/-- The three fields of a record hold what was given in its section. -/
structure HoldsGiven (cfg : OtelCfg) (k : ℕ) (directives : List (ℕ × Directive)) : Prop where
  serviceNamespace : cfg.serviceNamespace = .ofGiven (given Directive.namespace? k directives)
  serviceName : cfg.serviceName = .ofGiven (given Directive.name? k directives)
  serviceInstanceId : cfg.serviceInstanceId = .ofGiven (given Directive.instanceId? k directives)

theorem apply_triple (d : Directive) (cfg : OtelCfg) :
    (d.apply cfg).serviceNamespace =
      d.namespace?.elim cfg.serviceNamespace cfg.serviceNamespace.set ∧
      (d.apply cfg).serviceName = d.name?.elim cfg.serviceName cfg.serviceName.set ∧
      (d.apply cfg).serviceInstanceId =
        d.instanceId?.elim cfg.serviceInstanceId cfg.serviceInstanceId.set := by
  cases d
  all_goals exact ⟨rfl, rfl, rfl⟩

theorem ofGiven_or (arg given : Option Bytes) :
    Field.ofGiven (arg.or given) = arg.elim (.ofGiven given) (Field.ofGiven given).set := by
  cases arg with
  | none => rfl
  | some arg => rfl

/-- A directive that gives a part of the triple. -/
def Directive.GivesPart (d : Directive) : Prop :=
  d.namespace?.isSome ∨ d.name?.isSome ∨ d.instanceId?.isSome

instance (d : Directive) : Decidable d.GivesPart := inferInstanceAs (Decidable (_ ∨ _ ∨ _))

/-- A command writes the record of its section, and inserts a context where a part of a
triple was given and all of it is there. -/
theorem command_spec (h : ConfigHandlers) (k : ℕ) (d : Directive) :
    (h.command k d).records = Function.update h.records k (d.apply (h.records k)) ∧
      (h.command k d).m_webServerContexts =
        if d.GivesPart ∧ (d.apply (h.records k)).tripleInitialized then
          (h.insertWebserverContext (d.apply (h.records k))).m_webServerContexts
        else h.m_webServerContexts := by
  -- inserting does not look at the records
  have hinsert : ∀ cfg records, (insertWebserverContext { h with records := records } cfg) =
      { h.insertWebserverContext cfg with records := records } := by
    intro cfg records
    rw [insertWebserverContext, insertWebserverContext]
    split
    · rfl
    · split
      · rfl
      · rfl
  have hpart : d.GivesPart → (h.command k d).records =
        Function.update h.records k (d.apply (h.records k)) ∧
      (h.command k d).m_webServerContexts =
        if (d.apply (h.records k)).tripleInitialized then
          (h.insertWebserverContext (d.apply (h.records k))).m_webServerContexts
        else h.m_webServerContexts := by
    intro hpart
    cases d with
    | serviceNamespace | serviceName | serviceInstanceId =>
      simp only [command]
      split
      · rw [hinsert]
        exact ⟨rfl, rfl⟩
      · exact ⟨rfl, rfl⟩
    | webserverContext =>
      simp only [command]
      rw [hinsert]
      exact ⟨rfl, rfl⟩
    | _ => simp [Directive.GivesPart, Directive.namespace?, Directive.name?,
      Directive.instanceId?] at hpart
  by_cases hd : d.GivesPart
  · simpa only [hd, true_and] using hpart hd
  · rw [if_neg fun hboth => hd hboth.1]
    cases d with
    | serviceNamespace => exact absurd (.inl rfl) hd
    | serviceName => exact absurd (.inr (.inl rfl)) hd
    | serviceInstanceId => exact absurd (.inr (.inr rfl)) hd
    | webserverContext => exact absurd (.inl rfl) hd
    | _ => exact ⟨rfl, rfl⟩

theorem read_snoc (dirspec : ℕ → Bytes) (directives : List (ℕ × Directive)) (e : ℕ × Directive) :
    read dirspec (directives ++ [e]) = (read dirspec directives).command e.1 e.2 :=
  List.foldl_append

/-- A record has what its section's directives gave. -/
theorem records_given (dirspec : ℕ → Bytes) (directives : List (ℕ × Directive)) (k : ℕ) :
    HoldsGiven ((read dirspec directives).records k) k directives := by
  induction directives using List.reverseRecOn with
  | nil => exact ⟨rfl, rfl, rfl⟩
  | append_singleton directives e ih =>
    rw [read_snoc, (command_spec _ _ _).1]
    by_cases hk : e.1 = k
    · subst hk
      rw [Function.update_self]
      obtain ⟨hnamespace, hname, hinstanceId⟩ :=
        apply_triple e.2 ((read dirspec directives).records e.1)
      constructor
      · rw [hnamespace, ih.serviceNamespace, given_snoc, if_pos rfl, ofGiven_or]
      · rw [hname, ih.serviceName, given_snoc, if_pos rfl, ofGiven_or]
      · rw [hinstanceId, ih.serviceInstanceId, given_snoc, if_pos rfl, ofGiven_or]
    · rw [Function.update_of_ne (Ne.symm hk)]
      constructor
      · rw [ih.serviceNamespace, given_snoc, if_neg hk]
      · rw [ih.serviceName, given_snoc, if_neg hk]
      · rw [ih.serviceInstanceId, given_snoc, if_neg hk]

/-- The triple of a record is the one that was given in its section. -/
theorem HoldsGiven.givenTriple_eq {cfg : OtelCfg} {k : ℕ} {directives : List (ℕ × Directive)}
    (h : HoldsGiven cfg k directives) :
    givenTriple k directives = if cfg.tripleInitialized then some cfg.triple else none := by
  rw [OtelCfg.tripleInitialized, OtelCfg.triple, h.serviceNamespace, h.serviceName,
    h.serviceInstanceId, givenTriple]
  cases given Directive.namespace? k directives <;> cases given Directive.name? k directives <;>
    cases given Directive.instanceId? k directives <;> rfl

theorem joined_ne_nil (t : Triple) : joined t ≠ [] := by
  simp [joined, ascii]

open OrderedMap (lookup lookup_cons)

theorem lookup_snoc {entries : List (Bytes × Triple)} {key : Bytes} {t : Triple} (name : Bytes) :
    lookup name (entries ++ [(key, t)]) =
      (lookup name entries).or (if key = name then some t else none) := by
  induction entries with
  | nil => simp [lookup]
  | cons entry entries ih =>
    rw [List.cons_append, lookup_cons, lookup_cons, ih]
    split
    · rfl
    · rfl

/-- A context is inserted under its name unless the name is taken. -/
theorem lookup_insertWebserverContext (h : ConfigHandlers) {cfg : OtelCfg}
    (hinitialized : cfg.tripleInitialized) (name : Bytes) :
    lookup name (h.insertWebserverContext cfg).m_webServerContexts =
      (lookup name h.m_webServerContexts).or
        (if joined cfg.triple = name then some cfg.triple else none) := by
  have hname : computeContextName cfg = joined cfg.triple := if_neg (not_not_intro hinitialized)
  rw [insertWebserverContext, hname, if_neg (joined_ne_nil _)]
  split
  next htaken =>
    by_cases heq : joined cfg.triple = name
    · subst heq
      obtain ⟨t, ht⟩ : ∃ t, lookup (joined cfg.triple) h.m_webServerContexts = some t :=
        Option.ne_none_iff_exists'.mp fun hnone => OrderedMap.lookup_eq_none.mp hnone htaken
      rw [ht, Option.some_or]
    · rw [if_neg heq, Option.or_none]
  next => exact lookup_snoc name

/-- The context of a name is the first triple of that name that a section completed. -/
theorem contexts_completed (dirspec : ℕ → Bytes) (directives : List (ℕ × Directive))
    (name : Bytes) :
    lookup name (read dirspec directives).m_webServerContexts =
      (completed directives).find? fun t => joined t = name := by
  induction directives using List.reverseRecOn with
  | nil => rfl
  | append_singleton directives e ih =>
    have hgiven := records_given dirspec (directives ++ [e]) e.1
    rw [read_snoc, (command_spec _ _ _).1, Function.update_self] at hgiven
    rw [read_snoc, (command_spec _ _ _).2, completed_snoc, List.find?_append, ← ih, completedBy,
      hgiven.givenTriple_eq]
    by_cases hpart : e.2.GivesPart
    · rw [if_pos (show _ ∨ _ ∨ _ from hpart)]
      by_cases hinitialized : (e.2.apply ((read dirspec directives).records e.1)).tripleInitialized
      · rw [if_pos ⟨hpart, hinitialized⟩, if_pos hinitialized,
          lookup_insertWebserverContext _ hinitialized]
        refine congrArg _ ?_
        rw [Option.toList_some, List.find?_cons]
        split
        next heq => simp [heq]
        next heq => simp [heq]
      · rw [if_neg fun hboth => hinitialized hboth.2, if_neg hinitialized]
        exact (Option.or_none).symm
    · rw [if_neg fun hboth => hpart hboth.1, if_neg (show ¬(_ ∨ _ ∨ _) from hpart)]
      exact (Option.or_none).symm

end Apache
