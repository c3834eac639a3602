/-
The numbers of the configuration, from the directives to the settings of a tenant.

`ngx_initialize_opentelemetry` prints a number into six bytes, and `ReadSettingsFromReader`
casts the text to 32 bits.

* `lexicalCastUnsigned_printed` — a number of 32 bits is read back from its text;
* `readableTexts_of_passed` — what is passed can be read;
* `number_round_trips_iff` — a number is stored as it was configured when it has five digits at
  most and is not the export timeout, which nothing reads.
-/
import OtelContrib.Lib.Numerals
import OtelContrib.NginxWebserver.Monitoring

open Numerals (decimalValue printed length_printed_le_iff printed_ne_nil isDigit_of_mem_printed
  decimalValue_printed)
open Otel.Common (cString)
open Webserver (TenantConfig OtelSdkEnvRecord lexicalCastUnsigned)
open Webserver.ApiUtils (Caller Locals ReadableTexts given settings mandatoryKeys numberKeys
  readFromPassedSettings readFromPassedSettings_readable)

namespace NginxWebserver

open Worker (numText envConfig numKey Passed passed exists_envConfig)

/-! ### Numbers that are kept -/

/-- The field of the tenant's configuration that a number is for. -/
def NumOption.stored : NumOption → TenantConfig → Option UInt32
  | .otelMaxQueueSize, c => c.otelMaxQueueSize
  | .otelScheduledDelayMillis, c => c.otelScheduledDelayMillis
  | .otelExportTimeoutMillis, c => c.otelExportTimeoutMillis
  | .otelMaxExportBatchSize, c => c.otelMaxExportBatchSize

/-- The texts of the other numbers fit in their buffers. -/
def OthersFit (o : NumOption) (conf : LocConf) : Prop :=
  ∀ o', o' ≠ o → (numText ((conf.num o').getD (-1))).isSome

/-- The texts without which no settings are read. -/
def ServiceGiven (conf : LocConf) : Prop :=
  ∀ o ∈ [StrOption.serviceNamespace, .serviceName, .serviceInstanceId, .otelExporterEndpoint],
    cString (conf.text o) ≠ []

/-- In every configuration that has the number, where only its own text may not fit: the records
can be made, and what is read from them has the same number, whatever was in memory. -/
def RoundTrips (o : NumOption) (value : UInt64) : Prop :=
  ∀ conf, conf.num o = some value → OthersFit o conf →
    ∃ env, envConfig conf = some env ∧ (ServiceGiven conf →
      ∀ (locals : Locals) (caller : Caller), ∃ caller',
        readFromPassedSettings (some env) locals caller = (.success, caller') ∧
          (o.stored caller'.tenantConfig).map UInt32.toNat = some value.toNat)

/-! ### Texts -/

section Texts

variable {o : NumOption} {value : UInt64} {text : Bytes}

theorem numText_eq_some_iff :
    numText value = some text ↔ text = printed value.toNat ∧ value.toNat < 10 ^ 5 := by
  have hfits : (printed value.toNat).length < 6 ↔ value.toNat < 10 ^ 5 := by
    rw [Nat.lt_succ_iff]
    exact length_printed_le_iff (by decide)
  show (if (printed value.toNat).length < 6 then some (printed value.toNat) else none) = _ ↔ _
  rw [← hfits]
  split_ifs with h
  · rw [Option.some_inj, and_iff_left h, eq_comm]
  · exact iff_of_false nofun fun hboth => h hboth.2

/-- A number that the settings hold in 32 bits is read back from its text. -/
theorem lexicalCastUnsigned_printed {n : ℕ} (hn : n < 2 ^ 32) :
    lexicalCastUnsigned (printed n) = some (UInt32.ofNat n) := by
  obtain ⟨b, digits, hprinted⟩ := List.exists_cons_of_ne_nil (printed_ne_nil n)
  have hdigit : ∀ d ∈ b :: digits, 48 ≤ d ∧ d ≤ 57 := fun d hd =>
    of_decide_eq_true (isDigit_of_mem_printed (hprinted ▸ hd))
  have hvalue : decimalValue (b :: digits) = n := by rw [← hprinted, decimalValue_printed]
  have hsmall : decimalValue (b :: digits) < 2 ^ 32 := by rwa [hvalue]
  have hsign : ¬(b = 43 ∨ b = 45) := by
    rintro (rfl | rfl)
    · exact absurd (hdigit _ List.mem_cons_self).1 (by decide)
    · exact absurd (hdigit _ List.mem_cons_self).1 (by decide)
  have hdigits : ((b :: digits).any fun d => decide (d < 48 ∨ 57 < d)) = false := by
    rw [List.any_eq_false]
    intro d hd
    have hbounds := hdigit d hd
    simp [UInt8.not_lt, hbounds.1, hbounds.2]
  rw [hprinted, lexicalCastUnsigned]
  simp only [if_neg hsign, hdigits]
  rw [if_neg, if_neg]
  · exact congrArg (fun n => some (UInt32.ofNat n)) hvalue
  · exact fun hminus => hsign (.inr (Option.some.inj hminus))
  · rintro (hnil | hother | hlarge)
    · cases hnil
    · cases hother
    · exact absurd hlarge (not_le.mpr hsmall)

end Texts

/-! ### Settings -/

section Settings

variable {o : NumOption} {value : UInt64} {conf : LocConf} {env : List OtelSdkEnvRecord}

/-- A number that is passed has at most five digits, and its text is read as the number. -/
theorem Worker.Passed.cast (P : Passed conf env) (o : NumOption) : ∃ value : UInt64,
    (conf.num o).getD (-1) = value ∧ value.toNat < 10 ^ 5 ∧
      lexicalCastUnsigned (given env (numKey o)) = some (UInt32.ofNat value.toNat) := by
  obtain ⟨htext, hsmall⟩ := numText_eq_some_iff.mp (P.num o)
  refine ⟨_, rfl, hsmall, ?_⟩
  rw [htext]
  exact lexicalCastUnsigned_printed (by omega)

/-- What is passed can be read where the service and its endpoint are given. -/
theorem readableTexts_of_passed (P : Passed conf env) (hservice : ServiceGiven conf) :
    ReadableTexts (given env) := by
  constructor
  · simp only [ServiceGiven, List.forall_mem_cons] at hservice
    obtain ⟨hnamespace, hname, hid, hendpoint, -⟩ := hservice
    simp only [mandatoryKeys, List.forall_mem_cons]
    rw [P.serviceNamespace, P.serviceName, P.serviceInstanceId, P.otelExporterEndpoint,
      P.otelLibraryName]
    exact ⟨hnamespace, hname, hid, hendpoint, by decide, List.forall_mem_nil _⟩
  · right
    rw [P.otelSslEnabled]
    split_ifs
    · decide
    · decide
  · have hnumber : ∀ o, (lexicalCastUnsigned (given env (numKey o))).isSome := fun o => by
      obtain ⟨value, -, -, hcast⟩ := P.cast o
      rw [hcast]
      rfl
    simp only [numberKeys, List.forall_mem_cons]
    exact ⟨.inr (hnumber .otelMaxQueueSize), .inr (hnumber .otelScheduledDelayMillis),
      .inr (hnumber .otelMaxExportBatchSize), List.forall_mem_nil _⟩

/-- A number that is read is stored as it is cast. -/
theorem stored_settings (ho : o ≠ .otelExportTimeoutMillis) {text : Bytes → Bytes} {n : UInt32}
    (hcast : lexicalCastUnsigned (text (numKey o)) = some n) (locals : Locals) (c : TenantConfig) :
    o.stored (settings text locals c) = some n := by
  cases o with
  | otelMaxQueueSize => exact congrArg (fun n => some (n.getD locals.otelMaxQueueSize)) hcast
  | otelScheduledDelayMillis =>
    exact congrArg (fun n => some (n.getD locals.otelScheduledDelayMillis)) hcast
  | otelExportTimeoutMillis => exact absurd rfl ho
  | otelMaxExportBatchSize =>
    exact congrArg (fun n => some (n.getD locals.otelMaxExportBatchSize)) hcast

/-- All texts given, one number as it is wanted and the others 0. -/
def confOf (o : NumOption) (value : UInt64) : LocConf :=
  { LocConf.create with
    str := fun _ => some (ascii "x")
    num := fun o' => some (if o' = o then value else 0) }

theorem confOf_num (o : NumOption) (value : UInt64) : (confOf o value).num o = some value :=
  congrArg some (if_pos rfl)

theorem othersFit_confOf (o : NumOption) (value : UInt64) : OthersFit o (confOf o value) := by
  intro o' ho'
  show (numText (if o' = o then value else 0)).isSome
  rw [if_neg ho']
  decide

theorem serviceGiven_confOf (o : NumOption) (value : UInt64) : ServiceGiven (confOf o value) := by
  intro o' _
  show cString (ascii "x") ≠ []
  decide

/-- A number that is kept had room for its text. -/
theorem RoundTrips.small (h : RoundTrips o value) : value.toNat < 10 ^ 5 := by
  obtain ⟨env, henv, -⟩ := h (confOf o value) (confOf_num o value) (othersFit_confOf o value)
  have htext := (passed henv).num o
  rw [confOf_num, Option.getD_some] at htext
  exact (numText_eq_some_iff.mp htext).2

/-- Nothing is read under the key of the export timeout. -/
theorem not_roundTrips_exportTimeout (value : UInt64) :
    ¬RoundTrips .otelExportTimeoutMillis value := by
  intro h
  obtain ⟨env, henv, hread⟩ := h (confOf _ value) (confOf_num _ value) (othersFit_confOf _ value)
  have hservice := serviceGiven_confOf .otelExportTimeoutMillis value
  have P := passed henv
  -- the field stays what it was in the caller's object
  obtain ⟨caller', hcaller, hstored⟩ := hread hservice ⟨false, 0, 0, 0⟩ ⟨.new, .new⟩
  rw [readFromPassedSettings_readable P.valid (readableTexts_of_passed P hservice)] at hcaller
  cases hcaller
  cases hstored

end Settings

/-- A number is stored as it was configured when it has five digits at most, unless it is the
export timeout. -/
theorem number_round_trips_iff (o : NumOption) (value : UInt64) :
    RoundTrips o value ↔ o ≠ .otelExportTimeoutMillis ∧ value.toNat < 10 ^ 5 := by
  constructor
  · rintro h
    refine ⟨?_, h.small⟩
    rintro rfl
    exact not_roundTrips_exportTimeout value h
  · rintro ⟨ho, hsmall⟩ conf hnum hothers
    have hfit : ∀ o', (numText ((conf.num o').getD (-1))).isSome := by
      intro o'
      by_cases heq : o' = o
      · subst heq
        rw [hnum, Option.getD_some, numText_eq_some_iff.mpr ⟨rfl, hsmall⟩]
        rfl
      · exact hothers o' heq
    obtain ⟨env, henv⟩ := exists_envConfig hfit
    refine ⟨env, henv, fun hservice locals caller => ?_⟩
    have P := passed henv
    refine ⟨_, readFromPassedSettings_readable P.valid (readableTexts_of_passed P hservice)
      locals caller, ?_⟩
    obtain ⟨value', hvalue', -, hcast⟩ := P.cast o
    rw [hnum, Option.getD_some] at hvalue'
    subst hvalue'
    rw [stored_settings ho hcast, Option.map_some, UInt32.toNat_ofNat']
    exact congrArg some (Nat.mod_eq_of_lt (by omega))

/-- A queue of 100000 spans does not fit in its buffer, and the export timeout is not stored even
by default. -/
theorem numbers_lost :
    (∀ conf, conf.num .otelMaxQueueSize = some 100000 → envConfig conf = none) ∧
      ¬RoundTrips .otelMaxQueueSize 100000 ∧
      ¬RoundTrips .otelExportTimeoutMillis NumOption.otelExportTimeoutMillis.default := by
  refine ⟨fun conf hnum => ?_, fun h => absurd h.small (by decide), not_roundTrips_exportTimeout _⟩
  cases henv : envConfig conf with
  | none => rfl
  | some env =>
    have htext := (passed henv).num .otelMaxQueueSize
    rw [hnum, Option.getD_some] at htext
    exact absurd (numText_eq_some_iff.mp htext).2 (by decide)

end NginxWebserver
