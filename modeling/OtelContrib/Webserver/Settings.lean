/-
Reading the settings into the caller's objects (`ReadFromPassedSettings`).

* `readSettingsFromReader_does` — what it does, by the texts that are given under its keys and
  what was in memory;
* `settings_iff` — an error changes nothing; what a success leaves depends on nothing but
  the records exactly when there is no success, and with the field aside that is never
  written, when there is none without the numbers and the flag.
-/
import OtelContrib.Webserver.ApiUtils

namespace Webserver

/-- A record that `Init` accepts. -/
def OtelSdkEnvRecord.Valid (record : OtelSdkEnvRecord) : Prop :=
  ∃ name value, record = ⟨some name, some value⟩ ∧ name ≠ []

/-- Records whose names are known can be checked by computation. -/
theorem OtelSdkEnvRecord.valid_of_all {records : List OtelSdkEnvRecord}
    (h : (records.all fun record => record.name.any (· ≠ []) && record.value.isSome) = true) :
    ∀ record ∈ records, record.Valid := by
  intro record hrecord
  have hrecord := List.all_eq_true.mp h record hrecord
  obtain ⟨_ | name, _ | value⟩ := record
  · cases hrecord
  · cases hrecord
  · simp at hrecord
  · refine ⟨name, value, rfl, ?_⟩
    simpa using hrecord

namespace ApiUtils

open PassedEnvinronmentReader

/-! ### The records -/

/-- The text that the records give under a key; the last record counts. -/
def given (records : List OtelSdkEnvRecord) (key : Bytes) : Bytes :=
  records.foldl (fun text record =>
    if record.name = some key then record.value.getD [] else text) []

theorem readOptional_insert (env : OrderedMap Bytes Bytes) (name value key : Bytes) :
    readOptional (env.insert name value) key =
      if name = key then value else readOptional env key := by
  rw [readOptional, readOptional]
  split
  · subst name
    rw [OrderedMap.find?_insert_self]
    rfl
  · rename_i hne
    rw [OrderedMap.find?_insert_of_ne _ hne]

theorem readRecords_valid {records : List OtelSdkEnvRecord}
    (hvalid : ∀ record ∈ records, record.Valid)
    (env : OrderedMap Bytes Bytes) :
    ∃ env', readRecords env records = .ok env' ∧ ∀ key, readOptional env' key =
      records.foldl (fun text record =>
        if record.name = some key then record.value.getD [] else text) (readOptional env key) := by
  induction records generalizing env with
  | nil => exact ⟨env, rfl, fun _ => rfl⟩
  | cons record records ih =>
    obtain ⟨name, value, rfl, hname⟩ := hvalid record List.mem_cons_self
    obtain ⟨b, name, rfl⟩ := List.exists_cons_of_ne_nil hname
    obtain ⟨env', henv', hread⟩ := ih (fun r hr => hvalid r (List.mem_cons_of_mem _ hr))
      (env.insert (b :: name) value)
    refine ⟨env', henv', fun key => ?_⟩
    rw [hread, readOptional_insert, List.foldl_cons]
    simp only [Option.some.injEq, Option.getD_some]

theorem readRecords_invalid {records : List OtelSdkEnvRecord}
    (hvalid : ¬ ∀ record ∈ records, record.Valid) (env : OrderedMap Bytes Bytes) :
    ∃ res, res ≠ .success ∧ readRecords env records = .error res := by
  induction records generalizing env with
  | nil => exact absurd (fun _ h => by cases h) hvalid
  | cons record records ih =>
    obtain ⟨_ | _ | ⟨b, name⟩, value⟩ := record
    · exact ⟨_, by rintro ⟨⟩, rfl⟩
    · exact ⟨_, by rintro ⟨⟩, rfl⟩
    · cases value with
      | none => exact ⟨_, by rintro ⟨⟩, rfl⟩
      | some value =>
        refine ih (fun hrecords => hvalid fun r hr => ?_) _
        rcases List.mem_cons.mp hr with rfl | hr
        · exact ⟨b :: name, value, rfl, List.cons_ne_nil _ _⟩
        · exact hrecords r hr

/-! ### The settings -/

def mandatoryKeys : List Bytes :=
  [ascii "OTEL_SDK_ENV_SERVICE_NAMESPACE", ascii "OTEL_SDK_ENV_SERVICE_NAME",
    ascii "OTEL_SDK_ENV_SERVICE_INSTANCE_ID", ascii "OTEL_SDK_ENV_OTEL_EXPORTER_ENDPOINT",
    ascii "OTEL_SDK_ENV_OTEL_LIBRARY_NAME"]

def flagKey : Bytes := ascii "OTEL_SDK_ENV_OTEL_SSL_ENABLED"

def numberKeys : List Bytes :=
  [ascii "OTEL_SDK_ENV_MAX_QUEUE_SIZE", ascii "OTEL_SDK_ENV_SCHEDULED_DELAY",
    ascii "OTEL_SDK_ENV_EXPORT_BATCH_SIZE"]

/-- Texts under the keys that can be read. -/
structure ReadableTexts (text : Bytes → Bytes) : Prop where
  mandatory : ∀ key ∈ mandatoryKeys, text key ≠ []
  flag : text flagKey = [] ∨ (lexicalCastBool (text flagKey)).isSome
  numbers : ∀ key ∈ numberKeys, text key = [] ∨ (lexicalCastUnsigned (text key)).isSome

/-- The configuration for these texts; without a text, a number or the flag is what was in
memory. -/
def settings (text : Bytes → Bytes) (locals : Locals) (tenantConfig : TenantConfig) :
    TenantConfig :=
  { tenantConfig with
    serviceNamespace := text (ascii "OTEL_SDK_ENV_SERVICE_NAMESPACE")
    serviceName := text (ascii "OTEL_SDK_ENV_SERVICE_NAME")
    serviceInstanceId := text (ascii "OTEL_SDK_ENV_SERVICE_INSTANCE_ID")
    otelExporterType := text (ascii "OTEL_SDK_ENV_OTEL_EXPORTER_TYPE")
    otelExporterEndpoint := text (ascii "OTEL_SDK_ENV_OTEL_EXPORTER_ENDPOINT")
    otelExporterOtlpHeaders := text (ascii "OTEL_SDK_ENV_OTEL_EXPORTER_OTLPHEADERS")
    otelLibraryName := text (ascii "OTEL_SDK_ENV_OTEL_LIBRARY_NAME")
    otelProcessorType := text (ascii "OTEL_SDK_ENV_OTEL_PROCESSOR_TYPE")
    otelPropagatorType := text (ascii "OTEL_SDK_ENV_OTEL_PROPAGATOR_TYPE")
    otelSamplerType := text (ascii "OTEL_SDK_ENV_OTEL_SAMPLER_TYPE")
    otelMaxQueueSize := some
      ((lexicalCastUnsigned (text (ascii "OTEL_SDK_ENV_MAX_QUEUE_SIZE"))).getD
        locals.otelMaxQueueSize)
    otelScheduledDelayMillis := some
      ((lexicalCastUnsigned (text (ascii "OTEL_SDK_ENV_SCHEDULED_DELAY"))).getD
        locals.otelScheduledDelayMillis)
    otelMaxExportBatchSize := some
      ((lexicalCastUnsigned (text (ascii "OTEL_SDK_ENV_EXPORT_BATCH_SIZE"))).getD
        locals.otelMaxExportBatchSize)
    otelSslEnabled := some ((lexicalCastBool (text flagKey)).getD locals.otelSslEnabled)
    otelSslCertPath := text (ascii "OTEL_SDK_ENV_OTEL_SSL_CERTIFICATE_PATH") }

/-- The rules for span names for these texts. -/
def segmentRules (text : Bytes → Bytes) (spanNamer : SpanNamer) : SpanNamer :=
  spanNamer.setSegmentRules (text (ascii "OTEL_SDK_ENV_SEGMENT_TYPE"))
    (text (ascii "OTEL_SDK_ENV_SEGMENT_PARAMETER"))

/-! ### What the statements do -/

/-- Under a condition the statements succeed with this result, and else they fail and leave the
caller's objects as they were. -/
def Reading.Does (reading : Reading Unit) (readable : Prop) (result : Caller → Caller) : Prop :=
  (readable → ∀ caller, reading.run caller = (.ok (), result caller)) ∧
    (¬readable → ∃ status, status ≠ .success ∧ ∀ caller,
      reading.run caller = (.error status, caller))

section

variable {env : OrderedMap Bytes Bytes} {varName : Bytes} {readable : Prop}
    {result : Caller → Caller}

theorem Reading.Does.failed {α : Type} {status : OtelSdkStatusCode} (hstatus : status ≠ .success)
    {x : Except OtelSdkStatusCode α} (hx : x = .error status) (f : α → Reading Unit)
    (hreadable : ¬readable) : Reading.Does (Reading.local x >>= f) readable result := by
  subst hx
  exact ⟨fun h => absurd h hreadable, fun _ => ⟨status, hstatus, fun _ => rfl⟩⟩

/-- A mandatory text must not be empty. -/
theorem Reading.Does.mandatory {f : Bytes → Reading Unit}
    (h : Reading.Does (f (readOptional env varName)) readable result) :
    Reading.Does (Reading.local (readMandatory env varName) >>= f)
      (readOptional env varName ≠ [] ∧ readable) result := by
  unfold readOptional at h ⊢
  rcases hfind : env.find? varName with _ | _ | ⟨b, text⟩
  · have hread : readMandatory env varName = .error .unspecified_environment_variable := by
      rw [readMandatory, hfind]
    exact .failed (by rintro ⟨⟩) hread f fun hboth => hboth.1 rfl
  · have hread : readMandatory env varName = .error .environment_variable_invalid_value := by
      rw [readMandatory, hfind]
    exact .failed (by rintro ⟨⟩) hread f fun hboth => hboth.1 rfl
  · have hread : readMandatory env varName = .ok (b :: text) := by
      rw [readMandatory, hfind]
    rw [hfind] at h
    rw [hread]
    refine ⟨fun hboth => h.1 hboth.2, fun hneither => h.2 fun hreadable => hneither ⟨?_, hreadable⟩⟩
    exact List.cons_ne_nil b text

/-- Without a text a local variable keeps what was in its memory. -/
theorem Reading.Does.optional {α : Type} {lexicalCast : Bytes → Option α}
    (hnil : lexicalCast [] = none) {memory : α} {f : α → Reading Unit}
    (h : Reading.Does (f ((lexicalCast (readOptional env varName)).getD memory)) readable result) :
    Reading.Does (Reading.local (readOptionalFromReader lexicalCast env varName memory) >>= f)
      ((readOptional env varName = [] ∨ (lexicalCast (readOptional env varName)).isSome) ∧ readable)
      result := by
  rw [readOptionalFromReader]
  by_cases hvalue : readOptional env varName = []
  · rw [hvalue, hnil] at h
    rw [if_pos hvalue]
    exact ⟨fun hboth => h.1 hboth.2,
      fun hneither => h.2 fun hreadable => hneither ⟨.inl hvalue, hreadable⟩⟩
  · rw [if_neg hvalue]
    cases hcast : lexicalCast (readOptional env varName) with
    | none =>
      refine .failed (by rintro ⟨⟩) rfl f fun hboth => ?_
      rcases hboth.1 with hnone | hsome
      · exact hvalue hnone
      · cases hsome
    | some a =>
      rw [hcast] at h
      exact ⟨fun hboth => h.1 hboth.2,
        fun hneither => h.2 fun hreadable => hneither ⟨.inr rfl, hreadable⟩⟩

end

/-- The conditions in the order in which the function comes to them. -/
theorem readableTexts_iff {text : Bytes → Bytes} : ReadableTexts text ↔
    text (ascii "OTEL_SDK_ENV_SERVICE_NAMESPACE") ≠ [] ∧
      text (ascii "OTEL_SDK_ENV_SERVICE_NAME") ≠ [] ∧
      text (ascii "OTEL_SDK_ENV_SERVICE_INSTANCE_ID") ≠ [] ∧
      text (ascii "OTEL_SDK_ENV_OTEL_EXPORTER_ENDPOINT") ≠ [] ∧
      (text flagKey = [] ∨ (lexicalCastBool (text flagKey)).isSome) ∧
      text (ascii "OTEL_SDK_ENV_OTEL_LIBRARY_NAME") ≠ [] ∧
      (text (ascii "OTEL_SDK_ENV_MAX_QUEUE_SIZE") = [] ∨
        (lexicalCastUnsigned (text (ascii "OTEL_SDK_ENV_MAX_QUEUE_SIZE"))).isSome) ∧
      (text (ascii "OTEL_SDK_ENV_SCHEDULED_DELAY") = [] ∨
        (lexicalCastUnsigned (text (ascii "OTEL_SDK_ENV_SCHEDULED_DELAY"))).isSome) ∧
      (text (ascii "OTEL_SDK_ENV_EXPORT_BATCH_SIZE") = [] ∨
        (lexicalCastUnsigned (text (ascii "OTEL_SDK_ENV_EXPORT_BATCH_SIZE"))).isSome) ∧ True := by
  constructor
  · rintro ⟨hmandatory, hflag, hnumbers⟩
    simp only [mandatoryKeys, List.forall_mem_cons] at hmandatory
    simp only [numberKeys, List.forall_mem_cons] at hnumbers
    obtain ⟨hnamespace, hname, hid, hendpoint, hlibrary, -⟩ := hmandatory
    obtain ⟨hqueue, hdelay, hbatch, -⟩ := hnumbers
    exact ⟨hnamespace, hname, hid, hendpoint, hflag, hlibrary, hqueue, hdelay, hbatch, trivial⟩
  · rintro ⟨hnamespace, hname, hid, hendpoint, hflag, hlibrary, hqueue, hdelay, hbatch, -⟩
    refine ⟨?_, hflag, ?_⟩
    · simp only [mandatoryKeys, List.forall_mem_cons]
      exact ⟨hnamespace, hname, hid, hendpoint, hlibrary, nofun⟩
    · simp only [numberKeys, List.forall_mem_cons]
      exact ⟨hqueue, hdelay, hbatch, nofun⟩

/-- For texts that can be read the function succeeds and writes what is given. -/
theorem readSettingsFromReader_does (env : OrderedMap Bytes Bytes) (locals : Locals) :
    Reading.Does (readSettingsFromReader env locals) (ReadableTexts (readOptional env))
      fun caller =>
        ⟨settings (readOptional env) locals caller.tenantConfig,
          segmentRules (readOptional env) caller.spanNamer⟩ := by
  rw [propext readableTexts_iff]
  refine .mandatory <| .mandatory <| .mandatory <| .mandatory <| .optional rfl <| .mandatory <|
    .optional rfl <| .optional rfl <| .optional rfl ?_
  exact ⟨fun _ _ => rfl, fun h => absurd trivial h⟩

/-! ### What a call leaves -/

/-- An array of records from which the settings can be read. -/
def Readable (envIn : Option (List OtelSdkEnvRecord)) : Prop :=
  ∃ records, envIn = some records ∧ (∀ record ∈ records, record.Valid) ∧
    ReadableTexts (given records)

theorem readFromPassedSettings_readable {records : List OtelSdkEnvRecord}
    (hvalid : ∀ record ∈ records, record.Valid) (htexts : ReadableTexts (given records))
    (locals : Locals) (caller : Caller) :
    readFromPassedSettings (some records) locals caller = (.success,
      ⟨settings (given records) locals caller.tenantConfig,
        segmentRules (given records) caller.spanNamer⟩) := by
  obtain ⟨env, henv, hread⟩ := readRecords_valid hvalid ∅
  have htext : readOptional env = given records := funext hread
  rw [← htext] at htexts ⊢
  rw [readFromPassedSettings, PassedEnvinronmentReader.init, henv]
  dsimp only
  rw [(readSettingsFromReader_does env locals).1 htexts caller]

theorem readFromPassedSettings_unreadable {envIn : Option (List OtelSdkEnvRecord)}
    (h : ¬ Readable envIn)
    (locals : Locals) (caller : Caller) :
    ∃ status, status ≠ .success ∧
      readFromPassedSettings envIn locals caller = (status, caller) := by
  rw [readFromPassedSettings]
  cases envIn with
  | none => exact ⟨_, by rintro ⟨⟩, rfl⟩
  | some records =>
    rw [PassedEnvinronmentReader.init]
    by_cases hvalid : ∀ record ∈ records, record.Valid
    · obtain ⟨env, henv, hread⟩ := readRecords_valid hvalid ∅
      have htext : readOptional env = given records := funext hread
      have hunreadable : ¬ReadableTexts (readOptional env) :=
        fun htexts => h ⟨records, rfl, hvalid, htext ▸ htexts⟩
      obtain ⟨status, hstatus, hrun⟩ := (readSettingsFromReader_does env locals).2 hunreadable
      refine ⟨status, hstatus, ?_⟩
      rw [henv]
      dsimp only
      rw [hrun]
    · obtain ⟨res, hres, hread⟩ := readRecords_invalid hvalid ∅
      exact ⟨res, hres, by rw [hread]⟩

/-- A success comes from records that can be read, and leaves what they give. -/
theorem readFromPassedSettings_success {envIn : Option (List OtelSdkEnvRecord)} {locals : Locals}
    {caller caller' : Caller} (h : readFromPassedSettings envIn locals caller =
      (.success, caller')) :
    ∃ records, envIn = some records ∧ (∀ record ∈ records, record.Valid) ∧
      ReadableTexts (given records) ∧
        caller' = ⟨settings (given records) locals caller.tenantConfig,
        segmentRules (given records) caller.spanNamer⟩ := by
  by_cases hreadable : Readable envIn
  · obtain ⟨records, rfl, hvalid, htexts⟩ := hreadable
    rw [readFromPassedSettings_readable hvalid htexts] at h
    exact ⟨records, rfl, hvalid, htexts, (congrArg Prod.snd h).symm⟩
  · obtain ⟨status, hstatus, hread⟩ := readFromPassedSettings_unreadable hreadable locals caller
    rw [hread] at h
    exact absurd (congrArg Prod.fst h) hstatus

/-- An error leaves the caller's objects as they were. -/
def Atomic (envIn : Option (List OtelSdkEnvRecord)) : Prop :=
  ∀ locals caller, (readFromPassedSettings envIn locals caller).1 ≠ .success →
    (readFromPassedSettings envIn locals caller).2 = caller

/-- After a success these fields are the same, whatever was in memory. -/
def Complete (fields : TenantConfig → TenantConfig) (envIn : Option (List OtelSdkEnvRecord)) :
    Prop :=
  ∀ locals locals' caller caller', (readFromPassedSettings envIn locals caller).1 = .success →
    (readFromPassedSettings envIn locals' caller').1 = .success →
    fields (readFromPassedSettings envIn locals caller).2.tenantConfig =
      fields (readFromPassedSettings envIn locals' caller').2.tenantConfig

/-- The fields that the function writes. -/
def writtenFields (c : TenantConfig) : TenantConfig :=
  { c with otelLibraryVersion := [], otelExportTimeoutMillis := none }

/-- The flag and the numbers are given. -/
def NumbersGiven (envIn : Option (List OtelSdkEnvRecord)) : Prop :=
  ∀ records, envIn = some records →
    given records flagKey ≠ [] ∧ ∀ key ∈ numberKeys, given records key ≠ []

theorem atomic (envIn : Option (List OtelSdkEnvRecord)) : Atomic envIn := by
  intro locals caller hstatus
  by_cases hreadable : Readable envIn
  · obtain ⟨records, rfl, hvalid, htexts⟩ := hreadable
    rw [readFromPassedSettings_readable hvalid htexts] at hstatus
    exact absurd rfl hstatus
  · obtain ⟨status, -, hread⟩ := readFromPassedSettings_unreadable hreadable locals caller
    rw [hread]

theorem complete_of_unreadable {envIn : Option (List OtelSdkEnvRecord)} (h : ¬ Readable envIn)
    (fields : TenantConfig → TenantConfig) : Complete fields envIn := by
  intro locals _ caller _ hsuccess
  obtain ⟨status, hstatus, hread⟩ := readFromPassedSettings_unreadable h locals caller
  rw [hread] at hsuccess
  exact absurd hsuccess hstatus

/-- After a success, the fields are those of the texts, with what was in memory. -/
theorem complete_iff {records : List OtelSdkEnvRecord} (hvalid : ∀ record ∈ records, record.Valid)
    (htexts : ReadableTexts (given records)) (fields : TenantConfig → TenantConfig) :
    Complete fields (some records) ↔ ∀ locals locals' : Locals, ∀ c c' : TenantConfig,
      fields (settings (given records) locals c) =
        fields (settings (given records) locals' c') := by
  simp only [Complete, readFromPassedSettings_readable hvalid htexts]
  constructor
  · intro h locals locals' c c'
    exact h locals locals' ⟨c, .new⟩ ⟨c', .new⟩ trivial trivial
  · intro h locals locals' caller caller' _ _
    exact h locals locals' _ _

/-- A field that may be left unwritten depends on the memory exactly without a text. -/
theorem getD_lexicalCast_eq_iff {α : Type} {lexicalCast : Bytes → Option α}
    (hnil : lexicalCast [] = none)
    {text : Bytes} (htext : text = [] ∨ (lexicalCast text).isSome) {a b : α} (hab : a ≠ b) :
    (lexicalCast text).getD a = (lexicalCast text).getD b ↔ text ≠ [] := by
  rcases htext with rfl | hsome
  · simp [hnil, hab]
  · obtain ⟨v, hv⟩ := Option.isSome_iff_exists.mp hsome
    have hne : text ≠ [] := by
      rintro rfl
      rw [hnil] at hv
      cases hv
    simp [hv, hne]

theorem getD_lexicalCast {α : Type} {lexicalCast : Bytes → Option α} {text : Bytes}
    (htext : text = [] ∨ (lexicalCast text).isSome) (hne : text ≠ []) (a b : α) :
    (lexicalCast text).getD a = (lexicalCast text).getD b := by
  obtain ⟨v, hv⟩ := Option.isSome_iff_exists.mp (htext.resolve_left hne)
  rw [hv]
  rfl

/-- The fields that the function writes are the same for all memory exactly when there are texts
for the flag and the numbers. -/
theorem writtenFields_eq_iff {text : Bytes → Bytes} (htexts : ReadableTexts text)
    (c c' : TenantConfig) :
    (∀ locals locals', writtenFields (settings text locals c) =
      writtenFields (settings text locals' c')) ↔
      text flagKey ≠ [] ∧ ∀ key ∈ numberKeys, text key ≠ [] := by
  constructor
  · intro h
    have hsame := h ⟨false, 0, 0, 0⟩ ⟨true, 1, 1, 1⟩
    have hnumber : ∀ key ∈ numberKeys, (lexicalCastUnsigned (text key)).getD 0 =
        (lexicalCastUnsigned (text key)).getD 1 := by
      simp only [numberKeys, List.forall_mem_cons]
      exact ⟨Option.some.inj (congrArg TenantConfig.otelMaxQueueSize hsame),
        Option.some.inj (congrArg TenantConfig.otelScheduledDelayMillis hsame),
        Option.some.inj (congrArg TenantConfig.otelMaxExportBatchSize hsame), nofun⟩
    have hflag : (lexicalCastBool (text flagKey)).getD false =
        (lexicalCastBool (text flagKey)).getD true :=
      Option.some.inj (congrArg TenantConfig.otelSslEnabled hsame)
    refine ⟨(getD_lexicalCast_eq_iff rfl htexts.flag (by decide)).mp hflag, fun key hkey => ?_⟩
    exact (getD_lexicalCast_eq_iff rfl (htexts.numbers key hkey) (by decide)).mp (hnumber key hkey)
  · rintro ⟨hflag, hnumbers⟩ locals locals'
    have hnumber : ∀ key ∈ numberKeys, ∀ a b : UInt32, (lexicalCastUnsigned (text key)).getD a =
        (lexicalCastUnsigned (text key)).getD b :=
      fun key hkey => getD_lexicalCast (htexts.numbers key hkey) (hnumbers key hkey)
    simp only [numberKeys, List.forall_mem_cons] at hnumber
    obtain ⟨hqueue, hdelay, hbatch, -⟩ := hnumber
    dsimp only [writtenFields, settings]
    rw [getD_lexicalCast htexts.flag hflag locals.otelSslEnabled locals'.otelSslEnabled,
      hqueue locals.otelMaxQueueSize locals'.otelMaxQueueSize,
      hdelay locals.otelScheduledDelayMillis locals'.otelScheduledDelayMillis,
      hbatch locals.otelMaxExportBatchSize locals'.otelMaxExportBatchSize]

/-- An error changes nothing; a success leaves a field as it was in memory, and does so
with the fields it writes unless the flag and the numbers are given. -/
theorem settings_iff (envIn : Option (List OtelSdkEnvRecord)) :
    (Atomic envIn ∧ Complete id envIn ↔ ¬ Readable envIn) ∧
      (Atomic envIn ∧ Complete writtenFields envIn ↔ (Readable envIn → NumbersGiven envIn)) := by
  refine ⟨⟨?_, fun h => ⟨atomic envIn, complete_of_unreadable h id⟩⟩, ?_, ?_⟩
  · rintro ⟨-, hcomplete⟩ ⟨records, rfl, hvalid, htexts⟩
    -- the timeout is written nowhere
    have hsame := (complete_iff hvalid htexts id).mp hcomplete ⟨false, 0, 0, 0⟩ ⟨false, 0, 0, 0⟩
      { TenantConfig.new with otelExportTimeoutMillis := some 0 }
      { TenantConfig.new with otelExportTimeoutMillis := some 1 }
    have htimeout : some (0 : UInt32) = some 1 :=
      congrArg TenantConfig.otelExportTimeoutMillis hsame
    exact absurd htimeout (by decide)
  · rintro ⟨-, hcomplete⟩ ⟨records, rfl, hvalid, htexts⟩ _ hrecords
    obtain rfl := Option.some.inj hrecords
    refine (writtenFields_eq_iff htexts TenantConfig.new TenantConfig.new).mp fun locals locals' =>
      ?_
    exact (complete_iff hvalid htexts writtenFields).mp hcomplete locals locals' _ _
  · intro hgiven
    refine ⟨atomic envIn, ?_⟩
    by_cases hreadable : Readable envIn
    · obtain ⟨records, rfl, hvalid, htexts⟩ := hreadable
      refine (complete_iff hvalid htexts writtenFields).mpr fun locals locals' c c' => ?_
      exact (writtenFields_eq_iff htexts c c').mpr (hgiven ⟨records, rfl, hvalid, htexts⟩
        records rfl)
        locals locals'
    · exact complete_of_unreadable hreadable writtenFields

/-- Records with the mandatory keys, and nothing else. -/
def mandatoryRecords : List OtelSdkEnvRecord :=
  mandatoryKeys.map fun key => ⟨some key, some (ascii "x")⟩

/-- With the mandatory settings only, the queue has the size that was in memory. -/
theorem queue_size_from_memory :
    (∀ size, (readFromPassedSettings (some mandatoryRecords) ⟨false, size, 0, 0⟩
        ⟨TenantConfig.new, SpanNamer.new⟩).1 = .success ∧
      (readFromPassedSettings (some mandatoryRecords) ⟨false, size, 0, 0⟩
        ⟨TenantConfig.new, SpanNamer.new⟩).2.tenantConfig.otelMaxQueueSize = some size) ∧
    ¬ Complete id (some mandatoryRecords) := by
  refine ⟨fun size => ⟨rfl, rfl⟩, fun hcomplete => ?_⟩
  have hsame := hcomplete ⟨false, 0, 0, 0⟩ ⟨false, 1, 0, 0⟩ ⟨TenantConfig.new, SpanNamer.new⟩
    ⟨TenantConfig.new, SpanNamer.new⟩ rfl rfl
  have hsize : some (0 : UInt32) = some 1 := congrArg TenantConfig.otelMaxQueueSize hsame
  exact absurd hsize (by decide)

end ApiUtils

end Webserver
