/-
Which descriptors the fluentd exporters hold (`Connect`, `Send`, `Disconnect`, `Shutdown` and
the destruction of the trace and of the log exporter).

`socket_` holds a descriptor and closes nothing when it is overwritten or destroyed.  A
descriptor is lost (`Lost`) when the exporter no longer takes itself to be connected to it:
from then on no call closes it.

* `disciplined_iff` — an exporter of either kind is a disciplined owner exactly when no
  call loses a descriptor and there is no connection at the end;
* `ownership_iff` — both are, and open and close alike, exactly when this holds of the
  trace exporter.
-/
import OtelContrib.Fluentd.Transport
import OtelContrib.Lib.Ownership

open Ownership

namespace Fluentd

/-! ### Lives of an exporter -/

/-- What an exporter has besides its options. -/
structure ExporterState where
  transport : Transport
  is_shutdown_ : Bool

inductive Operation
  | connect (a : Answers)
  | send (call : SendCall)
  | disconnect
  | shutdown

namespace ExporterState

def init : ExporterState := ⟨Transport.init, false⟩

/-- One operation, with what it returns and the passes it made.  `Disconnect` returns
whether it closed a socket; only `Export` looks at `is_shutdown_`. -/
def step (kind : Exporter) (retry_count : ℕ) (e : ExporterState) :
    Operation → Option (SendResult × ExporterState)
  | .connect a =>
    let (ok, t) := e.transport.connect kind a
    some (⟨ok, []⟩, { e with transport := t })
  | .send call => do
    let (result, t) ← Fluentd.step kind retry_count e.transport call
    some (result, { e with transport := t })
  | .disconnect =>
    some (⟨e.transport.connected && e.transport.socket.isSome, []⟩,
      { e with transport := e.transport.disconnect })
  | .shutdown => some (⟨kind = .trace, []⟩, { e with is_shutdown_ := true })

end ExporterState

/-- The destructor is the implicit one, and that of `Socket` is empty. -/
def Transport.destruct (t : Transport) : Transport := { t with connected := false, socket := none }

/-- An event as a use of a descriptor. -/
def Event.use : Event → Use ℕ
  | .opened c => .opened c
  | .wrote c _ => .used c
  | .closed c => .closed c

def uses (t : Transport) : List (Use ℕ) := t.events.map Event.use

/-- What was opened and closed, in this order. -/
def decisions (t : Transport) : List (Use ℕ) :=
  (uses t).filter fun
    | .used _ => false
    | _ => true

/-! ### When a call loses nothing -/

/-- A socket that is created is connected, or closed again. -/
def ConnectKeeps (kind : Exporter) (t : Transport) (a : Answers) : Prop :=
  t.connected ∨ kind = .logs ∨ (a.socket → a.connect)

/-- The pass finds no error on its connection, and keeps the socket it may create. -/
def PassKeeps (kind : Exporter) (p : Pass) : Prop :=
  (p.before.connected → p.call.soError = 0) ∧ ConnectKeeps kind p.before p.call

/-- An operation that loses no descriptor. -/
def Keeps (kind : Exporter) (q : Transition ExporterState Operation SendResult) : Prop :=
  match q.call with
  | .connect a => ConnectKeeps kind q.before.transport a
  | .send _ => ∀ p ∈ q.outcome.passes, PassKeeps kind p
  | _ => True

instance (kind : Exporter) (t : Transport) (a : Answers) : Decidable (ConnectKeeps kind t a) :=
  inferInstanceAs (Decidable (_ ∨ _ ∨ _))

instance (kind : Exporter) (p : Pass) : Decidable (PassKeeps kind p) :=
  inferInstanceAs (Decidable (_ ∧ _))

instance (kind : Exporter) (q : Transition ExporterState Operation SendResult) :
    Decidable (Keeps kind q) :=
  match q with
  | ⟨e, .connect a, _, _⟩ => inferInstanceAs (Decidable (ConnectKeeps kind e.transport a))
  | ⟨_, .send _, outcome, _⟩ => inferInstanceAs (Decidable (∀ p ∈ outcome.passes, PassKeeps kind p))
  | ⟨_, .disconnect, _, _⟩ => inferInstanceAs (Decidable True)
  | ⟨_, .shutdown, _, _⟩ => inferInstanceAs (Decidable True)

/-! ### Lost descriptors -/

variable {kind : Exporter} {packet : Bytes} {a : Answers} {t t' : Transport} {c : ℕ}

/-- A descriptor that is open and that no call will close. -/
structure Lost (t : Transport) (c : ℕ) : Prop where
  opened : .opened c ∈ uses t
  notClosed : .closed c ∉ uses t
  old : c < t.nextSocket
  dropped : t.connected → t.socket ≠ some c

theorem uses_concat {e : Event} (h : t'.events = t.events ++ [e]) :
    uses t' = uses t ++ [e.use] := by
  rw [uses, h, List.map_append]
  rfl

namespace Lost

/-- What happens to other descriptors does not matter. -/
theorem concat (h : Lost t c) {e : Event} (hevents : t'.events = t.events ++ [e])
    (hother : e.use ≠ .closed c) (hle : t.nextSocket ≤ t'.nextSocket)
    (hdropped : t'.connected → t'.socket ≠ some c) : Lost t' c where
  opened := by
    rw [uses_concat hevents]
    exact List.mem_append_left _ h.opened
  notClosed hmem := by
    rw [uses_concat hevents] at hmem
    rcases List.mem_append.mp hmem with hmem | hmem
    · exact h.notClosed hmem
    · exact hother (List.mem_singleton.mp hmem).symm
  old := Nat.lt_of_lt_of_le h.old hle
  dropped := hdropped

/-- A descriptor stays lost when the exporter takes itself to be disconnected. -/
theorem unconnected (h : Lost t c) : Lost { t with connected := false } c :=
  ⟨h.opened, h.notClosed, h.old, by simp⟩

theorem closeSocket (h : Lost t c) (hne : t.socket ≠ some c) : Lost t.closeSocket c := by
  rw [Transport.closeSocket]
  split
  next c' hc' =>
    refine h.concat rfl (fun hclosed => hne ?_) (Nat.le_refl _) (fun _ => by simp)
    rw [hc']
    exact congrArg (fun u => some u.descriptor) hclosed
  next => exact h

theorem reopen (h : Lost t c) (a : Answers) :
    Lost (t.reopen a) c ∧ (t.reopen a).socket ≠ some c := by
  rw [Transport.reopen, Transport.openSocket]
  split
  · -- the new socket has a number that was not used before
    have hne : (some t.nextSocket : Option ℕ) ≠ some c :=
      fun heq => absurd (Option.some.inj heq) (Nat.ne_of_gt h.old)
    exact ⟨h.concat rfl (by simp [Event.use]) (Nat.le_succ _) (fun _ => hne), hne⟩
  · exact ⟨⟨h.opened, h.notClosed, h.old, by simp⟩, by simp⟩

theorem connect (h : Lost t c) {ok : Bool} (hconnect : t.connect kind a = (ok, t')) :
    Lost t' c := by
  obtain ⟨hreopened, hne⟩ := h.reopen a
  unfold Transport.connect at hconnect
  split at hconnect
  · cases hconnect
    exact h
  · split at hconnect
    · cases hconnect
      exact hreopened
    · cases kind with
      | trace =>
        cases hconnect
        exact hreopened
      | logs =>
        cases hconnect
        exact hreopened.closeSocket hne

theorem disconnect (h : Lost t c) : Lost t.disconnect c := by
  rw [Transport.disconnect]
  split
  next hconnected =>
    exact h.unconnected.closeSocket (h.dropped hconnected)
  next => exact h

theorem writePacket (h : Lost t c) {sends : List (Option ℕ)} {n : ℕ}
    (hwrite : t.writePacket packet sends = (n, t')) : Lost t' c := by
  rw [Transport.writePacket] at hwrite
  split at hwrite
  · cases hwrite
    exact h
  · cases hwrite
    exact h.concat rfl (by simp [Event.use]) (Nat.le_refl _) h.dropped

theorem pass (h : Lost t c) {written : Option ℕ} (hpass : t.pass kind packet a = (written, t')) :
    Lost t' c := by
  rw [Transport.pass] at hpass
  obtain ⟨t₁, ht₁⟩ : ∃ t₁,
      (if t.connected ∧ a.soError ≠ 0 then { t with connected := false } else t)
    = t₁ := ⟨_, rfl⟩
  have h₁ : Lost t₁ c := by
    split at ht₁
    · exact ht₁ ▸ h.unconnected
    · exact ht₁ ▸ h
  obtain ⟨ok, t₂, ht₂⟩ : ∃ ok t₂, t₁.connect kind a = (ok, t₂) := ⟨_, _, rfl⟩
  have h₂ := h₁.connect ht₂
  obtain ⟨sentSize, t₃, ht₃⟩ : ∃ n t₃, t₂.writePacket packet a.sends = (n, t₃) := ⟨_, _, rfl⟩
  have h₃ := h₂.writePacket ht₃
  simp only [ht₁, ht₂, ht₃] at hpass
  split at hpass
  · split at hpass
    · cases hpass
      exact h₃.disconnect
    · cases hpass
      exact h₃
  · cases hpass
    exact h₂

theorem send (h : Lost t c) {answers : List Answers} {delivered : Bool} {passes : List Pass}
    (hsend : Fluentd.send kind packet answers t = (delivered, passes, t')) : Lost t' c := by
  induction answers generalizing t t' delivered passes with
  | nil =>
    cases hsend
    exact h
  | cons a answers ih =>
    rw [Fluentd.send] at hsend
    obtain ⟨written, t₁, ht₁⟩ : ∃ written t₁, t.pass kind packet a = (written, t₁) := ⟨_, _, rfl⟩
    have h₁ := h.pass ht₁
    simp only [ht₁] at hsend
    split at hsend
    · cases hsend
      exact h₁
    · cases hsend
      exact ih h₁ rfl

/-- A lost descriptor stays open for ever. -/
theorem not_disciplined (h : Lost t c) : ¬Disciplined (uses t.destruct) :=
  fun hdisciplined => h.notClosed (hdisciplined.closed_mem h.opened)

end Lost

/-! ### Descriptors that are held -/

/-- The log is that of a holder of `socket_`. -/
structure Held (t : Transport) : Prop where
  holds : Holds (uses t) t.socket
  old : ∀ u ∈ uses t, u.descriptor < t.nextSocket

namespace Held

theorem lost (h : Held t) (hc : t.socket = some c) (hdropped : t.connected = false) : Lost t c := by
  have hholds := h.holds
  rw [hc] at hholds
  refine ⟨hholds.opened_mem, hholds.closed_not_mem, h.old _ hholds.opened_mem, fun hconnected => ?_⟩
  exact absurd (hdropped.symm.trans hconnected) Bool.false_ne_true

theorem old_concat (h : Held t) {e : Event} (hevents : t'.events = t.events ++ [e])
    (he : e.use.descriptor < t'.nextSocket) (hle : t.nextSocket ≤ t'.nextSocket) :
    ∀ u ∈ uses t', u.descriptor < t'.nextSocket := by
  rw [uses_concat hevents]
  intro u hu
  rcases List.mem_append.mp hu with hu | hu
  · exact Nat.lt_of_lt_of_le (h.old u hu) hle
  · exact List.mem_singleton.mp hu ▸ he

theorem closeSocket (h : Held t) : Held t.closeSocket ∧ t.closeSocket.socket = none := by
  rw [Transport.closeSocket]
  split
  next c hc =>
    have hholds := h.holds
    rw [hc] at hholds
    refine ⟨⟨?_, h.old_concat rfl (h.old (.opened c) hholds.opened_mem) (Nat.le_refl _)⟩, rfl⟩
    rw [uses_concat rfl]
    exact hholds.closed
  next hnone => exact ⟨h, hnone⟩

theorem reopen (h : Held t) (hnone : t.socket = none) (a : Answers) : Held (t.reopen a) := by
  have hholds := h.holds
  rw [hnone] at hholds
  rw [Transport.reopen, Transport.openSocket]
  split
  · refine ⟨?_, h.old_concat rfl (Nat.lt_succ_self _) (Nat.le_succ _)⟩
    rw [uses_concat rfl]
    exact hholds.opened fun u hu => Nat.ne_of_lt (h.old u hu)
  · exact ⟨hholds, h.old⟩

theorem writePacket (h : Held t) {sends : List (Option ℕ)} {n : ℕ}
    (hwrite : t.writePacket packet sends = (n, t')) :
    Held t' ∧ t'.connected = t.connected ∧ t'.socket = t.socket := by
  rw [Transport.writePacket] at hwrite
  split at hwrite
  · cases hwrite
    exact ⟨h, rfl, rfl⟩
  next c hc =>
    cases hwrite
    have hholds := h.holds
    rw [hc] at hholds
    refine ⟨⟨?_, h.old_concat rfl (h.old (.opened c) hholds.opened_mem) (Nat.le_refl _)⟩, rfl, rfl⟩
    rw [uses_concat rfl, hc]
    exact hholds.used

end Held

/-- A socket is held exactly as long as there is a connection. -/
structure Tidy (t : Transport) : Prop where
  held : Held t
  connected : t.connected = t.socket.isSome

theorem tidy_init : Tidy Transport.init where
  held := ⟨.nil, by simp [uses, Transport.init]⟩
  connected := rfl

/-- Either a condition held and the exporter is tidy, or it did not and something is lost. -/
def Decides (P : Prop) (t : Transport) : Prop := P ∧ Tidy t ∨ ¬P ∧ ∃ c, Lost t c

theorem Decides.congr {P Q : Prop} (h : Decides P t) (hPQ : P ↔ Q) : Decides Q t := by
  rwa [Decides, ← hPQ]

namespace Tidy

theorem socket_eq_none (I : Tidy t) (h : t.connected = false) : t.socket = none := by
  rw [I.connected] at h
  exact Option.not_isSome_iff_eq_none.mp (by simp [h])

theorem disconnect (I : Tidy t) : Tidy t.disconnect := by
  rw [Transport.disconnect]
  split
  · obtain ⟨hheld, hnone⟩ := Held.closeSocket (t := { t with connected := false })
      ⟨I.held.holds, I.held.old⟩
    refine ⟨hheld, ?_⟩
    rw [hnone, Transport.closeSocket]
    split <;> rfl
  · exact I

theorem connect (I : Tidy t) {ok : Bool} (h : t.connect kind a = (ok, t')) :
    Decides (ConnectKeeps kind t a) t' ∧ (ok → t'.connected) := by
  unfold Transport.connect at h
  split at h
  next hconnected =>
    cases h
    exact ⟨.inl ⟨.inl hconnected, I⟩, fun _ => hconnected⟩
  next hunconnected =>
    have hheld := I.held.reopen (I.socket_eq_none (by simpa using hunconnected)) a
    have hsocket : (t.reopen a).socket.isSome = a.socket := by
      rw [Transport.reopen, Transport.openSocket]
      split <;> simp [*]
    split at h
    next hok =>
      cases h
      have hboth : a.socket ∧ a.connect := by simpa [Transport.reopen] using hok
      exact ⟨.inl ⟨.inr (.inr fun _ => hboth.2), hheld, by rw [hok, hsocket, hboth.1]⟩,
        fun _ => hok⟩
    next hfailed =>
      have hnot : (t.reopen a).connected = false := by simpa using hfailed
      cases kind with
      | logs =>
        cases h
        obtain ⟨hclosed, hnone⟩ := hheld.closeSocket
        refine ⟨.inl ⟨.inr (.inl rfl), hclosed, ?_⟩, by simp⟩
        rw [hnone, Transport.closeSocket]
        split <;> exact hnot
      | trace =>
        cases h
        refine ⟨?_, by simp⟩
        cases hcreated : a.socket with
        | false =>
          refine .inl ⟨.inr (.inr fun h => ?_), hheld, by rw [hnot, hsocket, hcreated]⟩
          exact absurd (hcreated.symm.trans h) Bool.false_ne_true
        | true =>
          -- the socket that could not be connected is kept, and never looked at again
          rw [hcreated] at hsocket
          obtain ⟨c, hc⟩ := Option.isSome_iff_exists.mp hsocket
          refine .inr ⟨?_, c, hheld.lost hc hnot⟩
          rintro (hconnected | hkind | hconnect)
          · exact hunconnected hconnected
          · cases hkind
          · rw [Transport.reopen, hcreated, hconnect hcreated] at hnot
            cases hnot

end Tidy

/-- A pass that finds an error begins without a connection. -/
theorem pass_of_error (kind : Exporter) (packet : Bytes) (herror : a.soError ≠ 0) :
    t.pass kind packet a = { t with connected := false }.pass kind packet a := by
  rw [Transport.pass, Transport.pass]
  by_cases hconnected : t.connected
  · simp [hconnected, herror]
  · have ht : { t with connected := false } = t := by simp [← Bool.not_eq_true _ ▸ hconnected]
    rw [ht]

theorem Decides.map {P : Prop} (h : Decides P t) (htidy : Tidy t → Tidy t')
    (hlost : ∀ c, Lost t c → Lost t' c) : Decides P t' := by
  rcases h with ⟨hP, I⟩ | ⟨hP, c, hc⟩
  · exact .inl ⟨hP, htidy I⟩
  · exact .inr ⟨hP, c, hlost c hc⟩

theorem Tidy.writePacket (I : Tidy t) {sends : List (Option ℕ)} {n : ℕ}
    (h : t.writePacket packet sends = (n, t')) : Tidy t' := by
  obtain ⟨hheld, hconnected, hsocket⟩ := I.held.writePacket h
  exact ⟨hheld, by rw [hconnected, hsocket, I.connected]⟩

theorem Tidy.pass (I : Tidy t) {written : Option ℕ} (h : t.pass kind packet a = (written, t')) :
    Decides (PassKeeps kind ⟨t, a, written, t'⟩) t' := by
  by_cases hzero : t.connected → a.soError = 0
  · have hpolled : ¬(t.connected ∧ a.soError ≠ 0) := fun hfound => hfound.2 (hzero hfound.1)
    obtain ⟨ok, t₁, ht₁⟩ : ∃ ok t₁, t.connect kind a = (ok, t₁) := ⟨_, _, rfl⟩
    have hkeeps : Decides (PassKeeps kind ⟨t, a, written, t'⟩) t₁ :=
      (I.connect ht₁).1.congr (and_iff_right hzero).symm
    obtain ⟨sentSize, t₂, ht₂⟩ : ∃ n t₂, t₁.writePacket packet a.sends = (n, t₂) := ⟨_, _, rfl⟩
    rw [Transport.pass] at h
    simp only [if_neg hpolled, ht₁, ht₂] at h
    split at h
    · have hwritten := hkeeps.map (·.writePacket ht₂) (fun _ hc => hc.writePacket ht₂)
      split at h
      · cases h
        exact hwritten.map (·.disconnect) (fun _ hc => hc.disconnect)
      · cases h
        exact hwritten
    · cases h
      exact hkeeps
  · -- the connection that reports an error is dropped without being closed
    obtain ⟨hconnected, herror⟩ := Classical.not_imp.mp hzero
    obtain ⟨c, hc⟩ := Option.isSome_iff_exists.mp (I.connected ▸ hconnected)
    have hlost : Lost { t with connected := false } c :=
      Held.lost ⟨I.held.holds, I.held.old⟩ hc rfl
    rw [pass_of_error kind packet herror] at h
    exact .inr ⟨fun hkeeps => hzero hkeeps.1, c, hlost.pass h⟩

theorem Tidy.send (I : Tidy t) {answers : List Answers} {delivered : Bool} {passes : List Pass}
    (h : send kind packet answers t = (delivered, passes, t')) :
    Decides (∀ p ∈ passes, PassKeeps kind p) t' := by
  -- a pass that loses something decides the matter, the others leave it to the rest
  induction answers generalizing t t' delivered passes with
  | nil =>
    cases h
    exact .inl ⟨by simp, I⟩
  | cons a answers ih =>
    rw [Fluentd.send] at h
    obtain ⟨written, t₁, ht₁⟩ : ∃ written t₁, t.pass kind packet a = (written, t₁) := ⟨_, _, rfl⟩
    have hpass := I.pass ht₁
    simp only [ht₁] at h
    split at h
    · cases h
      exact hpass.congr (by rw [List.forall_mem_singleton])
    · cases h
      rcases hpass with ⟨hkeeps, I₁⟩ | ⟨hloses, c, hc⟩
      · exact (ih I₁ rfl).congr (by rw [List.forall_mem_cons, and_iff_right hkeeps])
      · exact .inr ⟨fun hall => hloses (hall _ List.mem_cons_self), c, hc.send rfl⟩

/-- At its destruction a transport has let go of everything unless something was lost or it
is connected. -/
theorem Decides.disciplined_iff {P : Prop} (h : Decides P t) :
    Disciplined (uses t.destruct) ↔ P ∧ t.connected = false := by
  rcases h with ⟨hP, I⟩ | ⟨hP, c, hc⟩
  · rw [and_iff_right hP]
    cases hconnected : t.connected with
    | false =>
      have hholds := I.held.holds
      rw [I.socket_eq_none hconnected] at hholds
      exact iff_of_true hholds.disciplined rfl
    | true =>
      obtain ⟨c, hc⟩ := Option.isSome_iff_exists.mp (I.connected ▸ hconnected)
      have hlost : Lost { t with connected := false } c :=
        Held.lost ⟨I.held.holds, I.held.old⟩ hc rfl
      exact iff_of_false hlost.not_disciplined (by simp)
  · exact iff_of_false hc.not_disciplined fun hall => hP hall.1

/-! ### Whole lives -/

variable {retry_count : ℕ} {e e' : ExporterState} {op : Operation} {outcome : SendResult}

theorem step_send {call : SendCall} {result : SendResult}
    (h : step kind retry_count t call = some (result, t')) :
    send kind call.packet call.answers t = (result.delivered, result.passes, t') := by
  rw [step] at h
  split at h
  · cases h
    rfl
  · cases h

theorem Lost.step (h : Lost e.transport c)
    (hstep : e.step kind retry_count op = some (outcome, e')) : Lost e'.transport c := by
  cases op with
  | connect a =>
    cases hstep
    exact h.connect rfl
  | send call =>
    obtain ⟨⟨result, t⟩, hsend, hrest⟩ := Option.bind_eq_some_iff.mp hstep
    cases hrest
    exact h.send (step_send hsend)
  | disconnect =>
    cases hstep
    exact h.disconnect
  | shutdown =>
    cases hstep
    exact h

theorem Tidy.step (I : Tidy e.transport)
    (hstep : e.step kind retry_count op = some (outcome, e')) :
    Decides (Keeps kind ⟨e, op, outcome, e'⟩) e'.transport := by
  cases op with
  | connect a =>
    cases hstep
    exact (I.connect rfl).1
  | send call =>
    obtain ⟨⟨result, t⟩, hsend, hrest⟩ := Option.bind_eq_some_iff.mp hstep
    cases hrest
    exact I.send (step_send hsend)
  | disconnect =>
    cases hstep
    exact .inl ⟨trivial, I.disconnect⟩
  | shutdown =>
    cases hstep
    exact .inl ⟨trivial, I⟩

theorem run_decides {ts : List (Transition ExporterState Operation SendResult)}
    (hrun : Run (ExporterState.step kind retry_count) .init ts e) :
    Decides (∀ q ∈ ts, Keeps kind q) e.transport := by
  refine hrun.invariant (fun ts e => Decides (∀ q ∈ ts, Keeps kind q) e.transport)
    (.inl ⟨by simp, tidy_init⟩) ?_
  rintro ts e op outcome e' (⟨hkeeps, I⟩ | ⟨hloses, c, hc⟩) hstep
  · refine (I.step hstep).congr ?_
    rw [List.forall_mem_append, List.forall_mem_singleton, and_iff_right hkeeps]
  · exact .inr ⟨fun hall => hloses fun q hq => hall q (List.mem_append_left _ hq), c, hc.step hstep⟩

/-- An exporter of either kind is a disciplined owner of its descriptors exactly when no
call loses one and it is not connected when it is destroyed. -/
theorem disciplined_iff {ts : List (Transition ExporterState Operation SendResult)}
    (hrun : Run (ExporterState.step kind retry_count) .init ts e) :
    Disciplined (uses e.transport.destruct) ↔
      (∀ q ∈ ts, Keeps kind q) ∧ e.transport.connected = false :=
  (run_decides hrun).disciplined_iff

/-! ### The two exporters side by side -/

theorem connect_logs_eq (h : ConnectKeeps .trace t a) : t.connect .logs a = t.connect .trace a := by
  unfold Transport.connect
  split
  · rfl
  next hunconnected =>
    split
    · rfl
    next hfailed =>
      -- there is nothing to close when no socket was created
      have hnone : (t.reopen a).socket = none := by
        rw [Transport.reopen, Transport.openSocket]
        split
        next hcreated =>
          rcases h with hconnected | hkind | hconnect
          · exact absurd hconnected hunconnected
          · cases hkind
          · exact absurd (by simp [Transport.reopen, hcreated, hconnect hcreated]) hfailed
        · rfl
      rw [Transport.closeSocket, hnone]

theorem pass_logs_eq {written : Option ℕ} (h : t.pass .trace packet a = (written, t'))
    (hkeeps : PassKeeps .trace ⟨t, a, written, t'⟩) : t.pass .logs packet a = (written, t') := by
  have hpolled : ¬(t.connected ∧ a.soError ≠ 0) := fun hfound => hfound.2 (hkeeps.1 hfound.1)
  have hconnect := connect_logs_eq hkeeps.2
  rw [← h, Transport.pass, Transport.pass]
  simp only [if_neg hpolled, hconnect]

theorem send_logs_eq {answers : List Answers} {delivered : Bool} {passes : List Pass}
    (h : send .trace packet answers t = (delivered, passes, t'))
    (hkeeps : ∀ p ∈ passes, PassKeeps .trace p) :
    send .logs packet answers t = (delivered, passes, t') := by
  induction answers generalizing t t' delivered passes with
  | nil => exact h
  | cons a answers ih =>
    obtain ⟨written, t₁, ht₁⟩ : ∃ written t₁, t.pass .trace packet a = (written, t₁) := ⟨_, _, rfl⟩
    rw [Fluentd.send] at h ⊢
    simp only [ht₁] at h
    split at h
    next hwhole =>
      cases h
      simp only [pass_logs_eq ht₁ (hkeeps _ List.mem_cons_self), if_pos hwhole]
    next hpart =>
      cases h
      obtain ⟨hfirst, hrest⟩ := List.forall_mem_cons.mp hkeeps
      simp only [pass_logs_eq ht₁ hfirst, if_neg hpart, ih rfl hrest]

/-- A call that loses nothing in the trace exporter does the same to the log exporter. -/
theorem step_logs_eq {outcome' : SendResult} {e'' : ExporterState}
    (htrace : e.step .trace retry_count op = some (outcome, e'))
    (hlogs : e.step .logs retry_count op = some (outcome', e''))
    (hkeeps : Keeps .trace ⟨e, op, outcome, e'⟩) : e' = e'' := by
  cases op with
  | connect a =>
    cases htrace
    cases hlogs
    exact congrArg (fun t : Bool × Transport => { e with transport := t.2 })
      (connect_logs_eq hkeeps).symm
  | send call =>
    obtain ⟨⟨result, t⟩, hsend, hrest⟩ := Option.bind_eq_some_iff.mp htrace
    obtain ⟨⟨result', t'⟩, hsend', hrest'⟩ := Option.bind_eq_some_iff.mp hlogs
    cases hrest
    cases hrest'
    have hsame := (send_logs_eq (step_send hsend) hkeeps).symm.trans (step_send hsend')
    injection hsame with _ hsame
    injection hsame with _ hsame
    rw [hsame]
  | disconnect =>
    cases htrace
    cases hlogs
    rfl
  | shutdown =>
    cases htrace
    cases hlogs
    rfl

/-- **Descriptors of the fluentd exporters.**  For every life of the trace and of the log
exporter with the same calls and the same answers of the operating system: both own at
most one open descriptor at any moment, close each once and write to none that is closed,
and both open and close alike, exactly when no pass of the trace exporter finds an error
on its connection, every socket it creates gets connected, and it is not connected when it
is destroyed. -/
theorem ownership_iff {ts us : List (Transition ExporterState Operation SendResult)}
    (htrace : Run (ExporterState.step .trace retry_count) .init ts e)
    (hlogs : Run (ExporterState.step .logs retry_count) .init us e')
    (hcalls : ts.map Transition.call = us.map Transition.call) :
    (Disciplined (uses e.transport.destruct) ∧ Disciplined (uses e'.transport.destruct) ∧
        decisions e.transport.destruct = decisions e'.transport.destruct) ↔
      (∀ q ∈ ts, Keeps .trace q) ∧ e.transport.connected = false := by
  constructor
  · rintro ⟨hdisciplined, -, -⟩
    exact (disciplined_iff htrace).mp hdisciplined
  · intro hkeeps
    have hdisciplined := (disciplined_iff htrace).mpr hkeeps
    -- then the log exporter has gone through the same states
    have hsame : e = e' := htrace.related (R := Eq) rfl
      (fun s s' a b t b' t' hs hstep hstep' hright => step_logs_eq hstep (hs ▸ hstep') hright)
      hlogs hcalls hkeeps.1
    subst hsame
    exact ⟨hdisciplined, hdisciplined, rfl⟩

/-- A packet that is delivered and one that is given up, with nothing held then. -/
def deliveredThenRefused : List Operation :=
  [.send ⟨[1, 2], [⟨0, true, true, [some 2]⟩, ⟨0, true, true, []⟩]⟩,
    .send ⟨[3], [⟨0, false, false, []⟩, ⟨0, false, false, []⟩]⟩, .shutdown]

theorem ownership_sample : ∃ ts us e e',
    Run (ExporterState.step .trace 2) .init ts e ∧ Run (ExporterState.step .logs 2) .init us e' ∧
      ts.map (fun q => q.outcome.delivered) = [true, false, true] ∧
      decisions e.transport = [.opened 0, .closed 0] ∧
      Disciplined (uses e.transport.destruct) ∧ Disciplined (uses e'.transport.destruct) ∧
      decisions e.transport.destruct = decisions e'.transport.destruct := by
  have htrace : ∃ r, Run.ofCalls (ExporterState.step .trace 2) .init deliveredThenRefused = some r ∧
      r.1.map Transition.call = deliveredThenRefused ∧
      r.1.map (fun q => q.outcome.delivered) = [true, false, true] ∧
      decisions r.2.transport = [.opened 0, .closed 0] ∧
      (∀ q ∈ r.1, Keeps .trace q) ∧ r.2.transport.connected = false := by
    exact ⟨_, rfl, rfl, rfl, rfl, by decide, rfl⟩
  have hlogs : ∃ r, Run.ofCalls (ExporterState.step .logs 2) .init deliveredThenRefused = some r ∧
      r.1.map Transition.call = deliveredThenRefused := ⟨_, rfl, rfl⟩
  obtain ⟨r, hr, hcalls, hdelivered, hdecisions, hkeeps⟩ := htrace
  obtain ⟨r', hr', hcalls'⟩ := hlogs
  exact ⟨r.1, r'.1, r.2, r'.2, Run.of_ofCalls hr, Run.of_ofCalls hr', hdelivered, hdecisions,
    (ownership_iff (Run.of_ofCalls hr) (Run.of_ofCalls hr') (hcalls.trans hcalls'.symm)).mpr hkeeps⟩

/-- Two attempts to connect fail.  The trace exporter has two descriptors open and closes
neither of them, where the log exporter has closed both. -/
theorem failed_connects_leak : ∃ ts us e e',
    Run (ExporterState.step .trace 2) .init ts e ∧ Run (ExporterState.step .logs 2) .init us e' ∧
      ts.map Transition.call = [.connect ⟨0, true, false, []⟩, .connect ⟨0, true, false, []⟩] ∧
      us.map Transition.call = [.connect ⟨0, true, false, []⟩, .connect ⟨0, true, false, []⟩] ∧
      openAfter (uses e.transport.destruct) = [1, 0] ∧ openAfter (uses e'.transport.destruct) = [] ∧
      ¬Disciplined (uses e.transport.destruct) := by
  have htrace : ∃ r, Run.ofCalls (ExporterState.step .trace 2) .init
        [.connect ⟨0, true, false, []⟩, .connect ⟨0, true, false, []⟩] = some r ∧
      r.1.map Transition.call = [.connect ⟨0, true, false, []⟩, .connect ⟨0, true, false, []⟩] ∧
      openAfter (uses r.2.transport.destruct) = [1, 0] := ⟨_, rfl, rfl, rfl⟩
  have hlogs : ∃ r, Run.ofCalls (ExporterState.step .logs 2) .init
        [.connect ⟨0, true, false, []⟩, .connect ⟨0, true, false, []⟩] = some r ∧
      r.1.map Transition.call = [.connect ⟨0, true, false, []⟩, .connect ⟨0, true, false, []⟩] ∧
      openAfter (uses r.2.transport.destruct) = [] := ⟨_, rfl, rfl, rfl⟩
  obtain ⟨r, hr, hcalls, hopen⟩ := htrace
  obtain ⟨r', hr', hcalls', hopen'⟩ := hlogs
  refine ⟨r.1, r'.1, r.2, r'.2, Run.of_ofCalls hr, Run.of_ofCalls hr', hcalls, hcalls', hopen,
    hopen', ?_⟩
  intro hdisciplined
  have hle := hdisciplined.atMostOne _ (List.prefix_refl _)
  rw [hopen] at hle
  exact absurd hle (by decide)

end Fluentd
