/-
The batch processor of the nginx module and the directives that configure it
(`otel_ngx_module.cpp`, `agent_config.h`).

The setter of the schedule delay stores what it reads as the export batch size.

* `option_set` — a directive changes what it stores into, and nothing else;
* `own_directives_iff` — every option is that of its own directive, and no directive changes
  another one, exactly when the delay is left at its default, and no delay was given but
  the batch size of that moment.
-/
import OtelContrib.Lib.LastWins
import OtelContrib.Lib.Numerals

open LastWins (lastValue lastValue_append lastValue_singleton)
open Numerals (atoi)

namespace Nginx

/-! ### The configuration -/

inductive OtelProcessorType
  | OtelProcessorSimple | OtelProcessorBatch
  deriving DecidableEq

structure BatchConfig where
  maxQueueSize : UInt32
  maxExportBatchSize : UInt32
  scheduleDelayMillis : UInt32
  deriving DecidableEq

/-- `OtelNgxAgentConfig::processor`. -/
structure ProcessorConfig where
  type : OtelProcessorType
  batch : BatchConfig
  deriving DecidableEq

/-- What the directives have set, and the errors that they logged. -/
structure Configuring where
  processor : ProcessorConfig
  log : List Bytes
  deriving DecidableEq

def Configuring.new : Configuring := ⟨⟨.OtelProcessorBatch, ⟨2048, 512, 5000⟩⟩, []⟩

/-- A setter of a number, which has to be positive. -/
def setPositive (store : BatchConfig → UInt32 → BatchConfig) (error : Bytes) (conf : Configuring)
    (value : Bytes) : Configuring :=
  let v := atoi value
  if v ≤ 0 then { conf with log := conf.log ++ [error] }
  else
    { conf with
      processor := { conf.processor with batch := store conf.processor.batch v.toUInt32 } }

def otelNgxSetBspMaxQueueSize : Configuring → Bytes → Configuring :=
  setPositive (fun batch v => { batch with maxQueueSize := v })
    (ascii "opentelemetry: max bsp queue size can't be <= 0")

def otelNgxSetBspScheduleDelayMillis : Configuring → Bytes → Configuring :=
  -- what it stores into is not `scheduleDelayMillis`
  setPositive (fun batch v => { batch with maxExportBatchSize := v })
    (ascii "opentelemetry: bsp schedule delay can't be <= 0")

def otelNgxSetBspMaxExportBatchSize : Configuring → Bytes → Configuring :=
  setPositive (fun batch v => { batch with maxExportBatchSize := v })
    (ascii "opentelemetry: bsp export batch size can't be <= 0")

/-- The directives `opentelemetry_bsp_max_queue_size`, `opentelemetry_bsp_schedule_delay_millis`
and `opentelemetry_bsp_max_export_batch_size`. -/
inductive BspOption
  | maxQueueSize | scheduleDelayMillis | maxExportBatchSize
  deriving DecidableEq

def BspOption.set : BspOption → Configuring → Bytes → Configuring
  | .maxQueueSize => otelNgxSetBspMaxQueueSize
  | .scheduleDelayMillis => otelNgxSetBspScheduleDelayMillis
  | .maxExportBatchSize => otelNgxSetBspMaxExportBatchSize

/-- Directives with their arguments, one after the other. -/
abbrev BspSettings := List (BspOption × Bytes)

def configure (settings : BspSettings) : Configuring :=
  settings.foldl (fun conf setting => setting.1.set conf setting.2) .new

/-! ### The processor -/

/-- `BatchSpanProcessorOptions`. -/
structure BatchSpanProcessorOptions where
  max_queue_size : UInt64
  schedule_delay_millis : Int64
  max_export_batch_size : UInt64
  deriving DecidableEq

inductive SpanProcessor
  | batch (opts : BatchSpanProcessorOptions)
  | simple
  deriving DecidableEq

/-- `CreateProcessor`. -/
def createProcessor (conf : ProcessorConfig) : SpanProcessor :=
  match conf.type with
  | .OtelProcessorBatch =>
    .batch
      { max_queue_size := conf.batch.maxQueueSize.toUInt64
        schedule_delay_millis := conf.batch.scheduleDelayMillis.toUInt64.toInt64
        max_export_batch_size := conf.batch.maxExportBatchSize.toUInt64 }
  | .OtelProcessorSimple => .simple

def BatchSpanProcessorOptions.option (opts : BatchSpanProcessorOptions) : BspOption → ℤ
  | .maxQueueSize => opts.max_queue_size.toNat
  | .scheduleDelayMillis => opts.schedule_delay_millis.toInt
  | .maxExportBatchSize => opts.max_export_batch_size.toNat

def BatchConfig.option (batch : BatchConfig) : BspOption → UInt32
  | .maxQueueSize => batch.maxQueueSize
  | .scheduleDelayMillis => batch.scheduleDelayMillis
  | .maxExportBatchSize => batch.maxExportBatchSize

/-- The option that the processor would be built with after these settings. -/
def bspOption (settings : BspSettings) (o : BspOption) : UInt32 :=
  (configure settings).processor.batch.option o

/-! ### What is given -/

/-- The number that a directive takes from its argument. -/
def validValue (value : Bytes) : Option UInt32 :=
  if 0 < atoi value then some (atoi value).toUInt32 else none

/-- The valid values, with the directives they were given by. -/
def validSettings (settings : BspSettings) : List (BspOption × UInt32) :=
  settings.filterMap fun setting => (validValue setting.2).map fun v => (setting.1, v)

def BspOption.default : BspOption → UInt32
  | .maxQueueSize => 2048
  | .scheduleDelayMillis => 5000
  | .maxExportBatchSize => 512

/-- The last valid value of an option's own directive, or its default. -/
def givenOption (settings : BspSettings) (o : BspOption) : UInt32 :=
  (lastValue (validSettings settings) o).getD o.default

/-- The option that a directive stores into. -/
def BspOption.stored : BspOption → BspOption
  | .maxQueueSize => .maxQueueSize
  | .scheduleDelayMillis => .maxExportBatchSize
  | .maxExportBatchSize => .maxExportBatchSize

/-! ### One directive -/

theorem option_setPositive (store : BatchConfig → UInt32 → BatchConfig) (error : Bytes)
    (conf : Configuring) (value : Bytes) (o : BspOption) :
    (setPositive store error conf value).processor.batch.option o =
      ((validValue value).elim conf.processor.batch (store conf.processor.batch)).option o := by
  rw [setPositive, validValue]
  by_cases hv : 0 < atoi value
  · rw [if_pos hv]
    dsimp only
    rw [if_neg (Int32.not_le.mpr hv)]
    rfl
  · rw [if_neg hv]
    dsimp only
    rw [if_pos (Int32.not_lt.mp hv)]
    rfl

theorem type_setPositive (store : BatchConfig → UInt32 → BatchConfig) (error : Bytes)
    (conf : Configuring) (value : Bytes) :
    (setPositive store error conf value).processor.type = conf.processor.type := by
  rw [setPositive]
  dsimp only
  split_ifs <;> rfl

/-- Every directive is a setter of one number. -/
theorem set_eq_setPositive (directive : BspOption) :
    ∃ store error, directive.set = setPositive store error ∧ ∀ batch v o,
      (store batch v).option o = if directive.stored = o then v else batch.option o := by
  cases directive with
  | maxQueueSize =>
    refine ⟨fun batch v => { batch with maxQueueSize := v }, _, rfl, fun batch v o => ?_⟩
    cases o <;> rfl
  | scheduleDelayMillis =>
    refine ⟨fun batch v => { batch with maxExportBatchSize := v }, _, rfl, fun batch v o => ?_⟩
    cases o <;> rfl
  | maxExportBatchSize =>
    refine ⟨fun batch v => { batch with maxExportBatchSize := v }, _, rfl, fun batch v o => ?_⟩
    cases o <;> rfl

/-- A directive changes what it stores into, and nothing else. -/
theorem option_set (directive : BspOption) (conf : Configuring) (value : Bytes) (o : BspOption) :
    (directive.set conf value).processor.batch.option o =
      if directive.stored = o then (validValue value).getD (conf.processor.batch.option o)
      else conf.processor.batch.option o := by
  obtain ⟨store, error, hset, hstore⟩ := set_eq_setPositive directive
  rw [hset, option_setPositive]
  cases validValue value with
  | none => rw [Option.elim_none, Option.getD_none, ite_self]
  | some v =>
    rw [Option.elim_some, Option.getD_some]
    exact hstore _ v o

theorem configure_concat (settings : BspSettings) (setting : BspOption × Bytes) :
    configure (settings ++ [setting]) = setting.1.set (configure settings) setting.2 := by
  rw [configure, configure, List.foldl_append, List.foldl_cons, List.foldl_nil]

theorem bspOption_concat (settings : BspSettings) (directive : BspOption) (value : Bytes)
    (o : BspOption) :
    bspOption (settings ++ [(directive, value)]) o =
      if directive.stored = o then (validValue value).getD (bspOption settings o)
      else bspOption settings o := by
  rw [bspOption, configure_concat]
  exact option_set directive _ value o

theorem validSettings_concat (settings : BspSettings) (directive : BspOption) (value : Bytes) :
    validSettings (settings ++ [(directive, value)]) =
      validSettings settings ++ ((validValue value).map fun v => (directive, v)).toList := by
  rw [validSettings, List.filterMap_append]
  cases hvalue : validValue value with
  | none => rw [List.filterMap_cons, hvalue]; rfl
  | some v => rw [List.filterMap_cons, hvalue]; rfl

theorem givenOption_concat (settings : BspSettings) (directive : BspOption) (value : Bytes)
    (o : BspOption) :
    givenOption (settings ++ [(directive, value)]) o =
      if directive = o then (validValue value).getD (givenOption settings o)
      else givenOption settings o := by
  rw [givenOption, validSettings_concat]
  cases validValue value with
  | none =>
    rw [Option.map_none, Option.toList_none, List.append_nil, Option.getD_none, ite_self]
    rfl
  | some v =>
    rw [Option.map_some, Option.toList_some, lastValue_append, lastValue_singleton]
    by_cases ho : directive = o
    · rw [if_pos ho, if_pos ho]
      rfl
    · rw [if_neg ho, if_neg ho]
      rfl

/-! ### All directives -/

theorem type_configure (settings : BspSettings) :
    (configure settings).processor.type = .OtelProcessorBatch := by
  induction settings using List.reverseRecOn with
  | nil => rfl
  | append_singleton settings setting ih =>
    obtain ⟨store, error, hset, -⟩ := set_eq_setPositive setting.1
    rw [configure_concat, hset, type_setPositive, ih]

theorem toInt_toUInt64 (n : UInt32) : n.toUInt64.toInt64.toInt = n.toNat := by
  have hn : n.toUInt64.toNat = n.toNat := UInt32.toNat_toUInt64 n
  have hsmall := n.toNat_lt
  have htoInt := @BitVec.toInt_eq_toNat_of_lt 64 n.toUInt64.toBitVec
    (show 2 * n.toUInt64.toNat < 2 ^ 64 by omega)
  exact htoInt.trans (congrArg Nat.cast hn)

/-- The options that `CreateProcessor` uses are those that the directives have set. -/
theorem createProcessor_configure (settings : BspSettings) :
    ∃ opts, createProcessor (configure settings).processor = .batch opts ∧
      ∀ o, opts.option o = (bspOption settings o).toNat := by
  refine ⟨_, by rw [createProcessor, type_configure], fun o => ?_⟩
  cases o with
  | maxQueueSize => exact congrArg Nat.cast (UInt32.toNat_toUInt64 _)
  | scheduleDelayMillis => exact toInt_toUInt64 _
  | maxExportBatchSize => exact congrArg Nat.cast (UInt32.toNat_toUInt64 _)

/-- Every option is that of its own directive, and every directive changes its own option only. -/
structure OwnDirectives (settings : BspSettings) : Prop where
  options : ∃ opts, createProcessor (configure settings).processor = .batch opts ∧
    ∀ o, opts.option o = (givenOption settings o).toNat
  frame : ∀ earlier directive value, earlier ++ [(directive, value)] <+: settings →
    ∀ o ≠ directive, bspOption (earlier ++ [(directive, value)]) o = bspOption earlier o

/-- The delay is left at its default, and a delay that was given is the batch size given until
then. -/
structure DelaysHarmless (settings : BspSettings) : Prop where
  delay : givenOption settings .scheduleDelayMillis = 5000
  batchSize : ∀ earlier value v, earlier ++ [(.scheduleDelayMillis, value)] <+: settings →
    validValue value = some v → v = givenOption earlier .maxExportBatchSize

theorem bspOption_maxQueueSize (settings : BspSettings) :
    bspOption settings .maxQueueSize = givenOption settings .maxQueueSize := by
  induction settings using List.reverseRecOn with
  | nil => rfl
  | append_singleton settings setting ih =>
    obtain ⟨directive, value⟩ := setting
    rw [bspOption_concat, givenOption_concat, ih]
    cases directive <;> rfl

theorem bspOption_scheduleDelayMillis (settings : BspSettings) :
    bspOption settings .scheduleDelayMillis = 5000 := by
  induction settings using List.reverseRecOn with
  | nil => rfl
  | append_singleton settings setting ih =>
    obtain ⟨directive, value⟩ := setting
    rw [bspOption_concat, ih]
    cases directive <;> rfl

/-- The batch size is the one given as long as each delay is found to be the one given. -/
theorem bspOption_maxExportBatchSize {settings : BspSettings}
    (h : ∀ earlier value v, earlier ++ [(.scheduleDelayMillis, value)] <+: settings →
      validValue value = some v →
        bspOption earlier .maxExportBatchSize = givenOption earlier .maxExportBatchSize →
          v = givenOption earlier .maxExportBatchSize)
    (earlier : BspSettings) (hearlier : earlier <+: settings) :
    bspOption earlier .maxExportBatchSize = givenOption earlier .maxExportBatchSize := by
  induction earlier using List.reverseRecOn with
  | nil => rfl
  | append_singleton earlier setting ih =>
    obtain ⟨directive, value⟩ := setting
    have hbefore := ih ((List.prefix_append earlier _).trans hearlier)
    rw [bspOption_concat, givenOption_concat, hbefore]
    cases directive with
    | maxQueueSize => rfl
    | maxExportBatchSize => rfl
    | scheduleDelayMillis =>
      show (validValue value).getD _ = givenOption earlier .maxExportBatchSize
      cases hvalue : validValue value with
      | none => rfl
      | some v => exact h earlier value v hearlier hvalue hbefore

/-- Every option is the one its own directive gives, and no directive changes another, exactly
when no valid delay differs from the batch size it is stored as, and the last is the default. -/
theorem own_directives_iff (settings : BspSettings) :
    OwnDirectives settings ↔ DelaysHarmless settings := by
  obtain ⟨opts, hopts, hoption⟩ := createProcessor_configure settings
  constructor
  · rintro ⟨⟨opts', hopts', hgiven⟩, hframe⟩
    obtain rfl : opts = opts' := SpanProcessor.batch.inj (hopts.symm.trans hopts')
    constructor
    · have hdelay : (bspOption settings .scheduleDelayMillis).toNat =
          (givenOption settings .scheduleDelayMillis).toNat :=
        Int.ofNat_inj.mp ((hoption _).symm.trans (hgiven _))
      rw [bspOption_scheduleDelayMillis] at hdelay
      exact (UInt32.toNat_inj.mp hdelay).symm
    · have hstep : ∀ earlier value v, earlier ++ [(.scheduleDelayMillis, value)] <+: settings →
          validValue value = some v → v = bspOption earlier .maxExportBatchSize := by
        intro earlier value v hearlier hvalue
        have hsame := hframe earlier _ value hearlier .maxExportBatchSize (by decide)
        rw [bspOption_concat, hvalue] at hsame
        exact hsame
      intro earlier value v hearlier hvalue
      have howned := bspOption_maxExportBatchSize
        (fun earlier value v hearlier hvalue heq => heq ▸ hstep earlier value v hearlier hvalue)
        earlier ((List.prefix_append earlier _).trans hearlier)
      rw [← howned]
      exact hstep earlier value v hearlier hvalue
  · rintro ⟨hdelay, hbatch⟩
    have howned := bspOption_maxExportBatchSize fun earlier value v hearlier hvalue _ =>
      hbatch earlier value v hearlier hvalue
    constructor
    · refine ⟨opts, hopts, fun o => ?_⟩
      rw [hoption]
      cases o with
      | maxQueueSize => rw [bspOption_maxQueueSize]
      | scheduleDelayMillis => rw [bspOption_scheduleDelayMillis, hdelay]
      | maxExportBatchSize => rw [howned settings List.prefix_rfl]
    · intro earlier directive value hearlier o ho
      rw [bspOption_concat]
      by_cases hstored : directive.stored = o
      · rw [if_pos hstored]
        obtain rfl : directive = .scheduleDelayMillis := by
          cases directive <;> first | rfl | exact (ho hstored.symm).elim
        obtain rfl : o = .maxExportBatchSize := hstored.symm
        cases hvalue : validValue value with
        | none => rfl
        | some v =>
          rw [howned earlier ((List.prefix_append earlier _).trans hearlier)]
          exact hbatch earlier value v hearlier hvalue
      · rw [if_neg hstored]

/-- A delay of a second makes batches of a thousand spans. -/
theorem schedule_delay_as_batch_size :
    ¬ OwnDirectives [(.scheduleDelayMillis, ascii "1000")] ∧
      bspOption [(.scheduleDelayMillis, ascii "1000")] .maxExportBatchSize = 1000 ∧
      bspOption [(.scheduleDelayMillis, ascii "1000")] .scheduleDelayMillis = 5000 := by
  have hbatch : bspOption [(.scheduleDelayMillis, ascii "1000")] .maxExportBatchSize = 1000 := by
    decide
  refine ⟨fun h => ?_, hbatch, bspOption_scheduleDelayMillis _⟩
  have hsame := h.frame [] .scheduleDelayMillis (ascii "1000") List.prefix_rfl .maxExportBatchSize
    (by decide)
  rw [List.nil_append, hbatch] at hsame
  exact absurd hsame (by decide)

end Nginx
