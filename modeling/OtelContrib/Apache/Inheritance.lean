/-
How sections inherit settings from the sections around them.

A record is merged with the one around it member by member (`otel_merge_dir_config`).
The exporter's headers are no such member, and every member of a merged record counts as
initialized.

* `ourDconfig_eq` — the record for a request is the merged chain of its sections' levels;
* `chain_inherits_iff` — a chain inherits all settings exactly when it is a single level
  or the exporter's headers are empty anyway;
* `merge_assoc_iff` — merging is associative exactly where an inner level gives the
  setting or the outer one leaves the default.
-/
import OtelContrib.Apache.Config

namespace Apache

/-! ### Settings -/

/-- The members of `otel_cfg` that directives set. -/
inductive Setting
  | otelEnabled | otelExporterType | otelExporterEndpoint | otelExporterOtlpHeaders
  | otelSslEnabled | otelSslCertificatePath | otelProcessorType | otelSamplerType
  | serviceNamespace | serviceName | serviceInstanceId
  | otelMaxQueueSize | otelScheduledDelay | otelExportTimeout | otelMaxExportBatchSize
  | resolveBackends | traceAsError | reportAllInstrumentedModules
  | maskCookie | cookiePattern | maskSmUser
  | delimiter | segment | matchFilter | matchPattern | segmentType | segmentParameter
  deriving DecidableEq

inductive SettingValue
  | int (v : ℤ)
  | text (v : Bytes)
  deriving DecidableEq

namespace Field

variable {α β : Type}

def map (f : α → β) (field : Field α) : Field β := ⟨f field.value, field.initialized⟩

theorem map_merge (f : α → β) (pconf nconf : Field α) :
    (pconf.merge nconf).map f = (pconf.map f).merge (nconf.map f) := by
  rw [merge, merge, map]
  exact congrArg (fun value => Field.mk value true) (apply_ite f _ _ _)

end Field

/-- A member of a record. -/
def OtelCfg.field (cfg : OtelCfg) : Setting → Field SettingValue
  | .otelEnabled => cfg.otelEnabled.map .int
  | .otelExporterType => cfg.otelExporterType.map .text
  | .otelExporterEndpoint => cfg.otelExporterEndpoint.map .text
  | .otelExporterOtlpHeaders => cfg.otelExporterOtlpHeaders.map .text
  | .otelSslEnabled => cfg.otelSslEnabled.map .int
  | .otelSslCertificatePath => cfg.otelSslCertificatePath.map .text
  | .otelProcessorType => cfg.otelProcessorType.map .text
  | .otelSamplerType => cfg.otelSamplerType.map .text
  | .serviceNamespace => cfg.serviceNamespace.map .text
  | .serviceName => cfg.serviceName.map .text
  | .serviceInstanceId => cfg.serviceInstanceId.map .text
  | .otelMaxQueueSize => cfg.otelMaxQueueSize.map .text
  | .otelScheduledDelay => cfg.otelScheduledDelay.map .text
  | .otelExportTimeout => cfg.otelExportTimeout.map .text
  | .otelMaxExportBatchSize => cfg.otelMaxExportBatchSize.map .text
  | .resolveBackends => cfg.resolveBackends.map .int
  | .traceAsError => cfg.traceAsError.map .int
  | .reportAllInstrumentedModules => cfg.reportAllInstrumentedModules.map .int
  | .maskCookie => cfg.maskCookie.map .int
  | .cookiePattern => cfg.cookiePattern.map .text
  | .maskSmUser => cfg.maskSmUser.map .int
  | .delimiter => cfg.delimiter.map .text
  | .segment => cfg.segment.map .text
  | .matchFilter => cfg.matchFilter.map .text
  | .matchPattern => cfg.matchPattern.map .text
  | .segmentType => cfg.segmentType.map .text
  | .segmentParameter => cfg.segmentParameter.map .text

/-- The value that is in effect. -/
def OtelCfg.setting (cfg : OtelCfg) (s : Setting) : SettingValue := (cfg.field s).value

/-- The value before any directive. -/
def Setting.default (s : Setting) : SettingValue := (OtelCfg.otelCreateDirConfig []).setting s

/-- What a directive gives for which settings. -/
def Directive.gives : Directive → List (Setting × SettingValue)
  | .enabled arg => [(.otelEnabled, .int (isOn arg))]
  | .otelSpanExporter arg => [(.otelExporterType, .text arg)]
  | .otelExporterEndpoint arg => [(.otelExporterEndpoint, .text arg)]
  | .otelExporterHeaders arg => [(.otelExporterOtlpHeaders, .text arg)]
  | .otelSslEnabled arg => [(.otelSslEnabled, .int (isOn arg))]
  | .otelSslCertificatePath arg => [(.otelSslCertificatePath, .text arg)]
  | .otelSpanProcessor arg => [(.otelProcessorType, .text arg)]
  | .otelSampler arg => [(.otelSamplerType, .text arg)]
  | .serviceName arg => [(.serviceName, .text arg)]
  | .serviceNamespace arg => [(.serviceNamespace, .text arg)]
  | .serviceInstanceId arg => [(.serviceInstanceId, .text arg)]
  | .otelMaxQueueSize arg => [(.otelMaxQueueSize, .text arg)]
  | .otelScheduledDelayMillis arg => [(.otelScheduledDelay, .text arg)]
  | .otelExportTimeoutMillis arg => [(.otelExportTimeout, .text arg)]
  | .otelMaxExportBatchSize arg => [(.otelMaxExportBatchSize, .text arg)]
  | .resolveBackends arg => [(.resolveBackends, .int (isOn arg))]
  | .traceAsError arg => [(.traceAsError, .int (isOn arg))]
  | .reportAllInstrumentedModules arg => [(.reportAllInstrumentedModules, .int (isOn arg))]
  | .webserverContext sNamespace sName sInstanceId =>
    [(.serviceNamespace, .text sNamespace), (.serviceName, .text sName),
      (.serviceInstanceId, .text sInstanceId)]
  | .maskCookie arg => [(.maskCookie, .int (isOn arg))]
  | .cookieMatchPattern arg => [(.cookiePattern, .text arg)]
  | .maskSmUser arg => [(.maskSmUser, .int (isOn arg))]
  | .delimiter arg => [(.delimiter, .text arg)]
  | .segment arg => [(.segment, .text arg)]
  | .matchfilter arg => [(.matchFilter, .text arg)]
  | .matchpattern arg => [(.matchPattern, .text arg)]
  | .segmentType arg => [(.segmentType, .text arg)]
  | .segmentParameter arg => [(.segmentParameter, .text arg)]

def Directive.givenFor (s : Setting) (d : Directive) : Option SettingValue :=
  OrderedMap.lookup s d.gives

theorem field_apply (d : Directive) (cfg : OtelCfg) (s : Setting) :
    (d.apply cfg).field s = (d.givenFor s).elim (cfg.field s) (cfg.field s).set := by
  cases d <;> cases s <;> rfl

/-- Every member is merged in the same way, but the exporter's headers are not. -/
theorem field_merge (pconf nconf : OtelCfg) {s : Setting} (hs : s ≠ .otelExporterOtlpHeaders) :
    (OtelCfg.otelMergeDirConfig pconf nconf).field s = (pconf.field s).merge (nconf.field s) := by
  cases s with
  | otelExporterOtlpHeaders => exact absurd rfl hs
  | _ => exact Field.map_merge _ _ _

theorem headers_merge (pconf nconf : OtelCfg) :
    (OtelCfg.otelMergeDirConfig pconf nconf).setting .otelExporterOtlpHeaders = .text [] := rfl

theorem default_field (dirspec : Bytes) (s : Setting) :
    (OtelCfg.otelCreateDirConfig dirspec).field s = .default s.default := by
  cases s <;> rfl

/-! ### Levels -/

/-- A section on its own: what it is for, and its directives in order. -/
structure Level where
  dirspec : Bytes
  directives : List Directive

namespace Level

def record (level : Level) : OtelCfg :=
  level.directives.foldl Directive.apply (.otelCreateDirConfig level.dirspec)

/-- What a level gives for a setting: its last directive for it counts. -/
def given? (s : Setting) (level : Level) : Option SettingValue :=
  (level.directives.filterMap (Directive.givenFor s)).getLast?

/-- A member of a level's record is initialized where the level gives it. -/
theorem field_record (level : Level) (s : Setting) :
    level.record.field s = ⟨(level.given? s).getD s.default, (level.given? s).isSome⟩ := by
  obtain ⟨dirspec, directives⟩ := level
  rw [record, given?]
  induction directives using List.reverseRecOn with
  | nil => exact default_field dirspec s
  | append_singleton directives d ih =>
    rw [List.foldl_append, List.foldl_cons, List.foldl_nil, field_apply, ih, List.filterMap_append]
    cases hd : d.givenFor s with
    | none => simp [hd]
    | some value => simp [hd, Field.set]

theorem setting_record (level : Level) (s : Setting) :
    level.record.setting s = (level.given? s).getD s.default :=
  congrArg Field.value (level.field_record s)

end Level

/-- What the innermost level that gives a setting gives for it, or the default. -/
def innermost (s : Setting) (levels : List Level) : SettingValue :=
  ((levels.filterMap (Level.given? s)).getLast?).getD s.default

theorem innermost_snoc (s : Setting) (levels : List Level) (level : Level) :
    innermost s (levels ++ [level]) = (level.given? s).getD (innermost s levels) := by
  rw [innermost, List.filterMap_append, innermost]
  cases hlevel : level.given? s with
  | none => simp [hlevel]
  | some value => simp [hlevel]

/-- The merged record of a chain of levels, from the outermost on. -/
def chain (outer : Level) (inner : List Level) : OtelCfg :=
  (inner.map Level.record).foldl .otelMergeDirConfig outer.record

theorem chain_snoc (outer : Level) (inner : List Level) (level : Level) :
    chain outer (inner ++ [level]) = .otelMergeDirConfig (chain outer inner) level.record := by
  rw [chain, List.map_append, List.foldl_append]
  rfl

/-- A level on its own. -/
theorem setting_chain_nil (outer : Level) (s : Setting) :
    (chain outer []).setting s = innermost s [outer] := by
  refine (outer.setting_record s).trans ?_
  rw [← List.nil_append [outer], innermost_snoc]
  rfl

/-- One step of the chain: the level's own value, or else that of the chain around it. -/
theorem setting_merge_record (pconf : OtelCfg) (level : Level) {s : Setting}
    (hs : s ≠ .otelExporterOtlpHeaders) :
    (OtelCfg.otelMergeDirConfig pconf level.record).setting s =
      (level.given? s).getD (pconf.setting s) := by
  rw [OtelCfg.setting, field_merge _ _ hs, Level.field_record, Field.merge]
  cases level.given? s with
  | none => rfl
  | some value => rfl

theorem setting_chain (outer : Level) (inner : List Level) {s : Setting}
    (hs : s ≠ .otelExporterOtlpHeaders) :
    (chain outer inner).setting s = innermost s (outer :: inner) := by
  induction inner using List.reverseRecOn with
  | nil => exact setting_chain_nil outer s
  | append_singleton inner level ih =>
    rw [chain_snoc, setting_merge_record _ _ hs, ih, ← List.cons_append, innermost_snoc]

theorem headers_chain (outer : Level) {inner : List Level} (hinner : inner ≠ []) :
    (chain outer inner).setting .otelExporterOtlpHeaders = .text [] := by
  induction inner using List.reverseRecOn with
  | nil => exact absurd rfl hinner
  | append_singleton inner level _ =>
    rw [chain_snoc]
    exact headers_merge _ _

/-- A chain has the innermost value for every setting exactly when it is a single level,
or the exporter's headers are empty: they are not merged. -/
theorem chain_inherits_iff (outer : Level) (inner : List Level) :
    (∀ s, (chain outer inner).setting s = innermost s (outer :: inner)) ↔
      inner = [] ∨ innermost .otelExporterOtlpHeaders (outer :: inner) = .text [] := by
  constructor
  · intro hall
    by_cases hinner : inner = []
    · exact .inl hinner
    · exact .inr ((hall _).symm.trans (headers_chain outer hinner))
  · intro h s
    by_cases hinner : inner = []
    · subst hinner
      exact setting_chain_nil outer s
    · by_cases hs : s = .otelExporterOtlpHeaders
      · subst hs
        exact (headers_chain outer hinner).trans (h.resolve_left hinner).symm
      · exact setting_chain outer inner hs

/-- Headers of an outer section, and a section in it without directives. -/
theorem headers_dropped :
    innermost .otelExporterOtlpHeaders
        [⟨[], [.otelExporterHeaders (ascii "api-key=1")]⟩, ⟨ascii "/a", []⟩] =
          .text (ascii "api-key=1") ∧
      (chain ⟨[], [.otelExporterHeaders (ascii "api-key=1")]⟩ [⟨ascii "/a", []⟩]).setting
        .otelExporterOtlpHeaders = .text [] ∧
      ¬ ∀ s, (chain ⟨[], [.otelExporterHeaders (ascii "api-key=1")]⟩ [⟨ascii "/a", []⟩]).setting s =
        innermost s [⟨[], [.otelExporterHeaders (ascii "api-key=1")]⟩, ⟨ascii "/a", []⟩] := by
  refine ⟨rfl, rfl, fun hall => ?_⟩
  have hwrong : SettingValue.text [] = .text (ascii "api-key=1") := hall .otelExporterOtlpHeaders
  cases hwrong

/-! ### The order of merges -/

theorem setting_merge (pconf nconf : OtelCfg) {s : Setting} (hs : s ≠ .otelExporterOtlpHeaders) :
    (OtelCfg.otelMergeDirConfig pconf nconf).setting s =
      if (nconf.field s).initialized then nconf.setting s else pconf.setting s := by
  rw [OtelCfg.setting, field_merge _ _ hs]
  rfl

/-- Whatever was given, a merged member counts as initialized. -/
theorem initialized_merge (pconf nconf : OtelCfg) {s : Setting}
    (hs : s ≠ .otelExporterOtlpHeaders) :
    ((OtelCfg.otelMergeDirConfig pconf nconf).field s).initialized = true := by
  rw [field_merge _ _ hs]
  rfl

/-- Two ways to merge three records agree exactly where one of the inner two has the
setting initialized, or the outer one has the value of the middle one anyway. -/
theorem merge_assoc_iff (a b c : OtelCfg) :
    (∀ s, (OtelCfg.otelMergeDirConfig a (.otelMergeDirConfig b c)).setting s =
        (OtelCfg.otelMergeDirConfig (.otelMergeDirConfig a b) c).setting s) ↔
      ∀ s, s ≠ .otelExporterOtlpHeaders →
        (c.field s).initialized ∨ (b.field s).initialized ∨ a.setting s = b.setting s := by
  refine forall_congr' fun s => ?_
  by_cases hs : s = .otelExporterOtlpHeaders
  · subst hs
    exact ⟨fun _ hne => absurd rfl hne, fun _ => (headers_merge _ _).trans (headers_merge _ _).symm⟩
  · rw [setting_merge a _ hs, if_pos (initialized_merge b c hs), setting_merge b c hs,
      setting_merge _ c hs, setting_merge a b hs]
    cases (c.field s).initialized with
    | true => simp
    | false =>
      cases (b.field s).initialized with
      | true => simp
      | false => simp [hs, eq_comm]

/-- An endpoint given on the outermost of three levels is lost when the inner two are
merged first. -/
theorem endpoint_lost :
    let outer := Level.record ⟨[], [.otelExporterEndpoint (ascii "collector:4317")]⟩
    let middle := Level.record ⟨ascii "/a", []⟩
    let inner := Level.record ⟨ascii "/a/b", []⟩
    (OtelCfg.otelMergeDirConfig (.otelMergeDirConfig outer middle) inner).setting
        .otelExporterEndpoint = .text (ascii "collector:4317") ∧
      (OtelCfg.otelMergeDirConfig outer (.otelMergeDirConfig middle inner)).setting
        .otelExporterEndpoint = .text [] ∧
      ¬ ∀ s, (OtelCfg.otelMergeDirConfig outer (.otelMergeDirConfig middle inner)).setting s =
        (OtelCfg.otelMergeDirConfig (.otelMergeDirConfig outer middle) inner).setting s := by
  refine ⟨rfl, rfl, fun hall => ?_⟩
  have hwrong : SettingValue.text [] = .text (ascii "collector:4317") := hall .otelExporterEndpoint
  cases hwrong

/-! ### The records of the handlers -/

/-- The level of a section, from the directives of all sections. -/
def levelOf (dirspec : ℕ → Bytes) (directives : List (ℕ × Directive)) (k : ℕ) : Level :=
  ⟨dirspec k, (directives.filter fun e => e.1 = k).map Prod.snd⟩

theorem records_eq (dirspec : ℕ → Bytes) (directives : List (ℕ × Directive)) (k : ℕ) :
    (ConfigHandlers.read dirspec directives).records k = (levelOf dirspec directives k).record := by
  induction directives using List.reverseRecOn with
  | nil => rfl
  | append_singleton directives e ih =>
    rw [read_snoc, (command_spec _ _ _).1, Level.record, levelOf, List.filter_append]
    by_cases hk : e.1 = k
    · subst hk
      have hself : ([e].filter fun e' => e'.1 = e.1) = [e] := by simp
      rw [Function.update_self, ih, hself, List.map_append, List.foldl_append]
      rfl
    · have hother : ([e].filter fun e' => e'.1 = k) = [] := by simp [hk]
      rw [Function.update_of_ne (Ne.symm hk), ih, hother, List.append_nil]
      rfl

/-- What a request gets is the merged chain of the levels of its sections. -/
theorem ourDconfig_eq (dirspec : ℕ → Bytes) (directives : List (ℕ × Directive)) (k : ℕ)
    (sections : List ℕ) :
    (ConfigHandlers.read dirspec directives).ourDconfig (k :: sections) =
      some (chain (levelOf dirspec directives k) (sections.map (levelOf dirspec directives))) := by
  have hrecords : (ConfigHandlers.read dirspec directives).records =
      Level.record ∘ levelOf dirspec directives :=
    funext (records_eq dirspec directives)
  rw [ConfigHandlers.ourDconfig, chain, List.map_map, hrecords]
  rfl

end Apache
