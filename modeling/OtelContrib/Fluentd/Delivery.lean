/-
What a fluentd server gets of whole runs of an exporter (`Export` and `Shutdown` over `Send`).

* `exportSpans_sends`, `Logs.exportLogs_sends` — an export hands its messages to `Send`, one after
  the other;
* `trace_delivery`, `log_delivery` — in every run the messages that `Send` reported to be sent
  are what was written whole, each once and in order; and a server that reads one connection
  after the other reads exactly them, as long as no pass writes to a connection with an
  unfinished packet.
-/
import OtelContrib.Fluentd.LogExport
import OtelContrib.Fluentd.Received

open ByteCodec StreamFraming

namespace Fluentd

/-- What the system answers to the calls of `Send` to come: for each as many passes as may be
made. -/
abbrev World (retry_count : ℕ) := ℕ → {answers : List Answers // answers.length = retry_count}

/-- The connection of an exporter, what the system will answer on it, and the passes that were
made so far, each with its packet. -/
structure Wire (retry_count : ℕ) where
  world : World retry_count
  transport : Transport
  passes : List (Bytes × Pass)

/-- `Send` over a connection. -/
def Wire.send {retry_count : ℕ} (kind : Exporter) (packet : Bytes) (n : Wire retry_count) :
    Bool × Wire retry_count :=
  let (delivered, passes, t) := Fluentd.send kind packet (n.world 0).1 n.transport
  (delivered, ⟨fun i => n.world (i + 1), t, n.passes ++ passes.map fun p => (packet, p)⟩)

/-- Messages that are handed to `Send` one after the other, with what it said. -/
inductive Sends {σ : Type} (to_msgpack : Json → Bytes) (Send : Bytes → σ → Bool × σ) (s : σ) :
    List (Json × Bool) → σ → Prop
  | nil : Sends to_msgpack Send s [] s
  | snoc {sent : List (Json × Bool)} {s₁ s₂ : σ} {obj : Json} {ok : Bool}
    (hsent : Sends to_msgpack Send s sent s₁) (hsend : Send (to_msgpack obj) s₁ = (ok, s₂)) :
    Sends to_msgpack Send s (sent ++ [(obj, ok)]) s₂

section

variable {σ : Type} {to_msgpack : Json → Bytes} {Send : Bytes → σ → Bool × σ} {s s₁ : σ}

theorem sendEvents_sends {sent : List (Json × Bool)} (hsent : Sends to_msgpack Send s sent s₁)
    {events : List (Bytes × Json)} {o : Outcome σ}
    (h : sendEvents to_msgpack Send sent events s₁ = some o) :
    Sends to_msgpack Send s o.sent o.state := by
  induction events generalizing sent s₁ with
  | nil =>
    cases h
    exact hsent
  | cons kv events ih =>
    rw [sendEvents] at h
    obtain ⟨elements, -, h⟩ := Option.bind_eq_some_iff.mp h
    obtain ⟨others, -, h⟩ := Option.bind_eq_some_iff.mp h
    obtain ⟨obj, -, h⟩ := Option.bind_eq_some_iff.mp h
    rcases hsend : Send (to_msgpack obj) s₁ with ⟨_ | _, s₂⟩
    · simp only [hsend] at h
      cases h
      exact hsent.snoc hsend
    · simp only [hsend] at h
      exact ih (hsent.snoc hsend) h

/-- An export of spans hands its messages to `Send`, one after the other. -/
theorem exportSpans_sends {e : FluentdExporter} {spans : List (Option Recordable)} {o : Outcome σ}
    (h : e.exportSpans to_msgpack Send spans s = some o) :
    Sends to_msgpack Send s o.sent o.state := by
  rw [FluentdExporter.exportSpans] at h
  split at h
  · cases h
    exact .nil
  · split at h
    · cases h
      exact .nil
    · obtain ⟨c, -, h⟩ := Option.bind_eq_some_iff.mp h
      obtain ⟨obj, -, h⟩ := Option.bind_eq_some_iff.mp h
      rcases hsend : Send (to_msgpack obj) s with ⟨_ | _, s₂⟩
      · simp only [hsend] at h
        cases h
        exact Sends.nil.snoc hsend
      · simp only [hsend, if_true] at h
        split at h
        · obtain ⟨events, -, h⟩ := Option.bind_eq_some_iff.mp h
          exact sendEvents_sends (Sends.nil.snoc hsend) h
        · cases h
          exact Sends.nil.snoc hsend

/-- So does an export of logs. -/
theorem Logs.exportLogs_sends {e : Logs.FluentdExporter} {logs : List (Option Logs.Recordable)}
    {o : Outcome σ} (h : e.exportLogs to_msgpack Send logs s = some o) :
    Sends to_msgpack Send s o.sent o.state := by
  rw [Logs.FluentdExporter.exportLogs] at h
  split at h
  · cases h
    exact .nil
  · split at h
    · cases h
      exact .nil
    · obtain ⟨records, -, h⟩ := Option.bind_eq_some_iff.mp h
      obtain ⟨obj, -, h⟩ := Option.bind_eq_some_iff.mp h
      rcases hsend : Send (to_msgpack obj) s with ⟨_ | _, s₂⟩
      · simp only [hsend] at h
        cases h
        exact Sends.nil.snoc hsend
      · simp only [hsend, if_true] at h
        cases h
        exact Sends.nil.snoc hsend

end

/-! ### Connections -/

/-- What is on the connections are messages that were handed to `Send`; those that were reported
to be sent are what was received. -/
structure Carried (to_msgpack : Json → Bytes) (t : Transport) (passes : List (Bytes × Pass))
    (sent : List (Json × Bool)) : Prop where
  latest : Latest t
  received_eq : received t = (delivered sent).map to_msgpack
  framed_iff : AllFramed t ↔ ∀ p ∈ passes, StopsWriting p.1 p.2
  frames : ∀ c, ∀ w ∈ writesOn c t.events, ∃ m ∈ sent, w.frame = to_msgpack m.1

variable {to_msgpack : Json → Bytes} {retry_count : ℕ} {kind : Exporter}

theorem carried_init : Carried to_msgpack Transport.init [] [] where
  latest := latest_init
  received_eq := rfl
  framed_iff := ⟨by simp, fun _ _ => framed_nil⟩
  frames := by simp [Transport.init, writesOn]

/-- One message more. -/
theorem Carried.send (hne : ∀ j, to_msgpack j ≠ []) {n n' : Wire retry_count}
    {sent : List (Json × Bool)} (h : Carried to_msgpack n.transport n.passes sent) {obj : Json}
    {ok : Bool} (hsend : n.send kind (to_msgpack obj) = (ok, n')) :
    Carried to_msgpack n'.transport n'.passes (sent ++ [(obj, ok)]) := by
  obtain ⟨ok', passes, t, ht⟩ : ∃ ok passes t,
    Fluentd.send kind (to_msgpack obj) (n.world 0).1 n.transport = (ok, passes, t) := ⟨_, _, _, rfl⟩
  rw [Wire.send, ht] at hsend
  cases hsend
  obtain ⟨hlatest, hreceived⟩ := send_received h.latest (hne obj) ht
  obtain ⟨-, hframed, -, hframes⟩ := send_spec h.latest.sound ht
  refine ⟨hlatest, ?_, ?_, fun c w hw => ?_⟩
  · rw [hreceived, h.received_eq, delivered_append, delivered_singleton, List.map_append]
    cases ok <;> rfl
  · rw [hframed, h.framed_iff, List.forall_mem_append, List.forall_mem_map]
  · rcases hframes c w hw with hw | hframe
    · obtain ⟨m, hm, heq⟩ := h.frames c w hw
      exact ⟨m, List.mem_append_left _ hm, heq⟩
    · exact ⟨_, List.mem_append_right _ List.mem_cons_self, hframe⟩

theorem Carried.sends (hne : ∀ j, to_msgpack j ≠ []) {n n' : Wire retry_count}
    {earlier sent : List (Json × Bool)} (h : Carried to_msgpack n.transport n.passes earlier)
    (hsends : Sends to_msgpack (Wire.send kind) n sent n') :
    Carried to_msgpack n'.transport n'.passes (earlier ++ sent) := by
  induction hsends with
  | nil => rwa [List.append_nil]
  | snoc _ hsend ih =>
    rw [← List.append_assoc]
    exact ih.send hne hsend

/-- A server that reads the connections reads what was reported to be sent. -/
theorem Carried.read {α : Type} {from_msgpack : Reader α} {value : Json → α} {t : Transport}
    {passes : List (Bytes × Pass)} {sent : List (Json × Bool)}
    (h : Carried to_msgpack t passes sent)
    (hcodec : ∀ m ∈ sent, SelfDelimiting from_msgpack (to_msgpack m.1) (value m.1))
    (hnil : from_msgpack [] = none) (hstops : ∀ p ∈ passes, StopsWriting p.1 p.2) :
    readConnections from_msgpack t = (delivered sent).map value := by
  rw [readConnections_eq (h.framed_iff.mpr hstops) (fun c w hw => ?_) hnil, h.received_eq]
  · exact valuesOf_delivered fun obj hobj => hcodec _ (mem_delivered hobj)
  · obtain ⟨m, hm, heq⟩ := h.frames c w hw
    exact ⟨value m.1, heq ▸ hcodec m hm⟩

/-! ### Whole runs -/

/-- What is called on an exporter: `Export` of a batch, with what the system will answer, and
`Shutdown`. -/
inductive ExporterCall (ρ : Type) (retry_count : ℕ)
  | exportBatch (batch : List (Option ρ)) (world : World retry_count)
  | shutdown

/-- An exporter with its connection, and the passes that were made on it. -/
structure Running (ε : Type) where
  exporter : ε
  transport : Transport
  passes : List (Bytes × Pass)

/-- A new exporter. -/
def Running.init {ε : Type} (exporter : ε) : Running ε := ⟨exporter, Transport.init, []⟩

section

variable {ε ρ : Type}

/-- One call, with the messages it handed to `Send`.  It is not defined where the process would be
terminated. -/
def exporterStep
    (Export : ε → List (Option ρ) → Wire retry_count → Option (Outcome (Wire retry_count)))
    (Shutdown : ε → ε) (s : Running ε) :
    ExporterCall ρ retry_count → Option (List (Json × Bool) × Running ε)
  | .exportBatch batch world =>
    (Export s.exporter batch ⟨world, s.transport, s.passes⟩).map fun o =>
      (o.sent, ⟨s.exporter, o.state.transport, o.state.passes⟩)
  | .shutdown => some ([], { s with exporter := Shutdown s.exporter })

/-- The messages that the calls of a run handed to `Send`. -/
def sentBy (ts : List (Transition (Running ε) (ExporterCall ρ retry_count) (List (Json × Bool)))) :
    List (Json × Bool) := ts.flatMap Transition.outcome

variable {Export : ε → List (Option ρ) → Wire retry_count → Option (Outcome (Wire retry_count))}
  {Shutdown : ε → ε}

theorem run_carried (kind : Exporter) (hne : ∀ j, to_msgpack j ≠ [])
    (hexport : ∀ e batch n o, Export e batch n = some o →
      Sends to_msgpack (Wire.send kind) n o.sent o.state)
    {exporter : ε} {s : Running ε}
    {ts : List (Transition (Running ε) (ExporterCall ρ retry_count) (List (Json × Bool)))}
    (hrun : Run (exporterStep Export Shutdown) (Running.init exporter) ts s) :
    Carried to_msgpack s.transport s.passes (sentBy ts) := by
  refine hrun.invariant (fun ts s => Carried to_msgpack s.transport s.passes (sentBy ts))
    carried_init ?_
  intro ts s call sent s' h hstep
  rw [sentBy, List.flatMap_append, List.flatMap_singleton]
  cases call with
  | exportBatch batch world =>
    obtain ⟨o, ho, heq⟩ := Option.map_eq_some_iff.mp hstep
    cases heq
    exact h.sends hne (n := ⟨world, s.transport, s.passes⟩) (hexport _ _ _ _ ho)
  | shutdown =>
    cases hstep
    rwa [List.append_nil]

end

/-- One call on a trace exporter. -/
def traceStep (to_msgpack : Json → Bytes) (retry_count : ℕ) :
    Running FluentdExporter → ExporterCall Recordable retry_count →
      Option (List (Json × Bool) × Running FluentdExporter) :=
  exporterStep (fun e spans n => e.exportSpans to_msgpack (Wire.send .trace) spans n)
    fun e => { e with is_shutdown_ := true }

/-- One call on a log exporter. -/
def logStep (to_msgpack : Json → Bytes) (retry_count : ℕ) :
    Running Logs.FluentdExporter → ExporterCall Logs.Recordable retry_count →
      Option (List (Json × Bool) × Running Logs.FluentdExporter) :=
  exporterStep (fun e logs n => e.exportLogs to_msgpack (Wire.send .logs) logs n)
    fun _ => ⟨true⟩

/-- **Delivery of spans.**  In every run of exports and shutdowns of a trace exporter, whatever the
system answers, the messages that `Send` reported to be sent are the ones that were written
whole, each once and in order.  A server that reads one connection after the other reads
exactly these messages, as long as no pass writes to a connection with an unfinished packet. -/
theorem trace_delivery {α : Type} (to_msgpack : Json → Bytes) (from_msgpack : Reader α)
    (value : Json → α) (retry_count : ℕ) (exporter : FluentdExporter)
    (hne : ∀ j, to_msgpack j ≠ []) (hnil : from_msgpack [] = none) {s : Running FluentdExporter}
    {ts : List (Transition (Running FluentdExporter) (ExporterCall Recordable retry_count)
      (List (Json × Bool)))}
    (hrun : Run (traceStep to_msgpack retry_count) (Running.init exporter) ts s)
    (hcodec : ∀ m ∈ sentBy ts, SelfDelimiting from_msgpack (to_msgpack m.1) (value m.1)) :
    received s.transport = (delivered (sentBy ts)).map to_msgpack ∧
      ((∀ p ∈ s.passes, StopsWriting p.1 p.2) →
        readConnections from_msgpack s.transport = (delivered (sentBy ts)).map value) := by
  have hcarried := run_carried .trace hne (fun _ _ _ _ => exportSpans_sends) hrun
  exact ⟨hcarried.received_eq, hcarried.read hcodec hnil⟩

/-- A system that answers every call of `Send` alike. -/
def sampleWorld : World 2 :=
  fun _ => ⟨[⟨0, true, true, [some 1, none]⟩, ⟨104, true, true, [some 7]⟩], rfl⟩

/-- The message without a span, of which one byte is accepted before the connection is reset. -/
theorem trace_delivery_sample :
    ∃ ts s, Run (traceStep (fun _ => [0x92, 0xa4, 83, 112, 97, 110, 0x90]) 2)
        (Running.init ⟨false, false, false⟩) ts s ∧
      received s.transport = [[0x92, 0xa4, 83, 112, 97, 110, 0x90]] ∧
      readConnections (Reader.literal [0x92, 0xa4, 83, 112, 97, 110, 0x90] ()) s.transport =
        [()] := by
  have hrun : ∃ r, Run.ofCalls (traceStep (fun _ => [0x92, 0xa4, 83, 112, 97, 110, 0x90]) 2)
        (Running.init ⟨false, false, false⟩) [.exportBatch [none] sampleWorld, .shutdown,
          .exportBatch [none] sampleWorld] = some r ∧
      delivered (sentBy r.1) = [.array [.string FLUENT_VALUE_SPAN, .array []]] ∧
      ∀ p ∈ r.2.passes, StopsWriting p.1 p.2 := by
    refine ⟨_, rfl, rfl, List.forall_mem_cons.mpr
      ⟨fun hunfinished => ?_, List.forall_mem_singleton.mpr ?_⟩⟩
    · exact absurd hunfinished.1 Bool.false_ne_true
    · exact fun _ => .inl (show (104 : ℤ) ≠ 0 by decide)
  obtain ⟨r, hr, hdelivered, hstops⟩ := hrun
  obtain ⟨hreceived, hread⟩ := trace_delivery (fun _ => [0x92, 0xa4, 83, 112, 97, 110, 0x90])
    (Reader.literal [0x92, 0xa4, 83, 112, 97, 110, 0x90] ()) (fun _ => ()) 2 ⟨false, false, false⟩
    (by simp) rfl (Run.of_ofCalls hr) fun _ _ => literal_selfDelimiting (by simp) ()
  rw [hdelivered] at hreceived hread
  exact ⟨r.1, r.2, Run.of_ofCalls hr, hreceived, hread hstops⟩

/-- **Delivery of logs**, in the same words. -/
theorem log_delivery {α : Type} (to_msgpack : Json → Bytes) (from_msgpack : Reader α)
    (value : Json → α) (retry_count : ℕ) (exporter : Logs.FluentdExporter)
    (hne : ∀ j, to_msgpack j ≠ []) (hnil : from_msgpack [] = none)
    {s : Running Logs.FluentdExporter}
    {ts : List (Transition (Running Logs.FluentdExporter)
      (ExporterCall Logs.Recordable retry_count) (List (Json × Bool)))}
    (hrun : Run (logStep to_msgpack retry_count) (Running.init exporter) ts s)
    (hcodec : ∀ m ∈ sentBy ts, SelfDelimiting from_msgpack (to_msgpack m.1) (value m.1)) :
    received s.transport = (delivered (sentBy ts)).map to_msgpack ∧
      ((∀ p ∈ s.passes, StopsWriting p.1 p.2) →
        readConnections from_msgpack s.transport = (delivered (sentBy ts)).map value) := by
  have hcarried := run_carried .logs hne (fun _ _ _ _ => Logs.exportLogs_sends) hrun
  exact ⟨hcarried.received_eq, hcarried.read hcodec hnil⟩

/-- The message without a log, in the same way. -/
theorem log_delivery_sample :
    ∃ ts s, Run (logStep (fun _ => [0x92, 0xa3, 76, 111, 103, 0x90]) 2)
      (Running.init ⟨false⟩) ts s ∧
      received s.transport = [[0x92, 0xa3, 76, 111, 103, 0x90]] ∧
      readConnections (Reader.literal [0x92, 0xa3, 76, 111, 103, 0x90] ()) s.transport = [()] := by
  have hrun : ∃ r, Run.ofCalls (logStep (fun _ => [0x92, 0xa3, 76, 111, 103, 0x90]) 2)
        (Running.init ⟨false⟩) [.exportBatch [none] sampleWorld, .shutdown] = some r ∧
      delivered (sentBy r.1) = [.array [.string Logs.FLUENT_VALUE_LOG, .array []]] ∧
      ∀ p ∈ r.2.passes, StopsWriting p.1 p.2 := by
    refine ⟨_, rfl, rfl, List.forall_mem_cons.mpr
      ⟨fun hunfinished => ?_, List.forall_mem_singleton.mpr ?_⟩⟩
    · exact absurd hunfinished.1 Bool.false_ne_true
    · exact fun _ => .inl (show (104 : ℤ) ≠ 0 by decide)
  obtain ⟨r, hr, hdelivered, hstops⟩ := hrun
  obtain ⟨hreceived, hread⟩ := log_delivery (fun _ => [0x92, 0xa3, 76, 111, 103, 0x90])
    (Reader.literal [0x92, 0xa3, 76, 111, 103, 0x90] ()) (fun _ => ()) 2 ⟨false⟩
    (by simp) rfl (Run.of_ofCalls hr) fun _ _ => literal_selfDelimiting (by simp) ()
  rw [hdelivered] at hreceived hread
  exact ⟨r.1, r.2, Run.of_ofCalls hr, hreceived, hread hstops⟩

end Fluentd
