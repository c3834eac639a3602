/-
How the Geneva exporter delivers a message (`UnixDomainSocketDataTransport`).

`socket_tools.h` is the same here as in the fluentd exporters, so the sockets, what the
operating system answers and what was done to a socket are those of `Fluentd.Transport`.

* `stream_framing` — whatever the calls are and whatever the operating system answers,
  every connection carries whole messages and at most one proper prefix of a message at
  its end, and `Send` returns true exactly when it wrote the whole of its message.
-/
import OtelContrib.Fluentd.Transport

open StreamFraming
open Fluentd (Answers Event Transport Sound AllFramed writeall writeall_le writesOn closeSocket_spec
  connect_spec writePacket_spec)

namespace Geneva.UnixDomainSocketDataTransport

/-! ### The transport -/

/-- `UnixDomainSocketDataTransport::Connect`. -/
def connect (a : Answers) (t : Transport) : Bool × Transport :=
  if t.connected then (true, t)
  else if (t.reopen a).connected then (true, t.reopen a)
  else (false, (t.reopen a).closeSocket)

/-- `UnixDomainSocketDataTransport::Disconnect`. -/
def disconnect (t : Transport) : Bool × Transport :=
  if t.connected then
    let t := { t with connected := false }
    if t.socket.isSome then (true, t.closeSocket) else (false, t)
  else (false, t)

/-- `UnixDomainSocketDataTransport::Send` of the `length` bytes at `data`. -/
def send (message : Bytes) (a : Answers) (t : Transport) : Bool × Transport :=
  let (error_code, t) := if t.connected then (a.soError, t) else (0, (connect a t).2)
  if ¬t.connected ∨ error_code ≠ 0 then (false, { t with connected := false })
  else
    let (sent_size, t) := t.writePacket message a.sends
    if message.length ≠ sent_size then (false, (disconnect t).2) else (true, t)

inductive Call
  | connect (a : Answers)
  | send (message : Bytes) (a : Answers)
  | disconnect

/-- One call, with what it returns.  Every call is defined on every transport. -/
def step (t : Transport) : Call → Option (Bool × Transport)
  | .connect a => some (connect a t)
  | .send message a => some (send message a t)
  | .disconnect => some (disconnect t)

/-! ### What one call does -/

variable {t t' : Transport} {a : Answers} {message : Bytes} {ok : Bool}

/-- `Connect` is that of the log exporter. -/
theorem connect_eq (a : Answers) (t : Transport) : connect a t = t.connect .logs a := rfl

theorem connect_result (h : connect a t = (ok, t')) : t'.connected = ok := by
  rw [connect] at h
  split at h
  · cases h
    assumption
  · split at h
    · cases h
      assumption
    next hfailed =>
      cases h
      rw [Transport.closeSocket]
      split
      · exact Bool.eq_false_iff.mpr hfailed
      · exact Bool.eq_false_iff.mpr hfailed

/-- Connections are sound and framed, and the one that is held has nothing unfinished. -/
structure Healthy (t : Transport) : Prop where
  sound : Sound t
  framed : AllFramed t
  finished : ¬t.Unfinished

theorem healthy_init : Healthy Transport.init where
  sound := Fluentd.sound_init
  framed _ := framed_nil
  finished h := absurd h.1 Bool.false_ne_true

/-- What writes nothing and ends without a connection leaves nothing unfinished. -/
theorem healthy_of_dropped (hframed : AllFramed t) (hsound : Sound t')
    (hsame : ∀ c, writesOn c t'.events = writesOn c t.events) (hconnected : t'.connected = false) :
    Healthy t' where
  sound := hsound
  framed c := hsame c ▸ hframed c
  finished h := absurd (hconnected.symm.trans h.1) Bool.false_ne_true

theorem connect_healthy (I : Healthy t) (h : connect a t = (ok, t')) :
    Healthy t' ∧ ∀ c, writesOn c t'.events = writesOn c t.events := by
  obtain ⟨hsound, hsame, -, hfound⟩ := connect_spec I.sound (connect_eq a t ▸ h)
  refine ⟨⟨hsound, fun c => hsame c ▸ I.framed c, ?_⟩, hsame⟩
  rintro ⟨hconnected, c, hc, hunfinished⟩
  rw [hsame] at hunfinished
  obtain ⟨c', hc', hold | hnew⟩ := hfound (connect_result h ▸ hconnected)
  · -- the connection there was
    rw [hc] at hc'
    exact I.finished ⟨hold.1, c, Option.some.inj hc' ▸ hold.2, hunfinished⟩
  · -- a new one, on which there is nothing
    rw [hc] at hc'
    obtain rfl := Option.some.inj hc'
    rw [hnew.2] at hunfinished
    exact not_unfinished_nil hunfinished

/-- After `Disconnect` there is no connection, whatever was written before. -/
theorem disconnect_healthy (hsound : Sound t) (hframed : AllFramed t)
    (h : disconnect t = (ok, t')) :
    Healthy t' ∧ ∀ c, writesOn c t'.events = writesOn c t.events := by
  rw [disconnect] at h
  have hdropped : Sound { t with connected := false } := ⟨by simp, hsound.lt, hsound.fresh⟩
  split at h
  · dsimp only at h
    split at h
    · cases h
      obtain ⟨hclosed, hsame⟩ := closeSocket_spec hdropped rfl
      refine ⟨healthy_of_dropped hframed hclosed hsame ?_, hsame⟩
      rw [Transport.closeSocket]
      split <;> rfl
    · cases h
      exact ⟨healthy_of_dropped hframed hdropped (fun _ => rfl) rfl, fun _ => rfl⟩
  next hclosed =>
    cases h
    exact ⟨⟨hsound, hframed, fun hunfinished => hclosed hunfinished.1⟩, fun _ => rfl⟩

/-! ### What `Send` returns -/

/-- Sockets were opened and closed, and nothing was written. -/
def Quiet (t t' : Transport) : Prop :=
  ∃ new, t'.events = t.events ++ new ∧ ∀ c w, Event.wrote c w ∉ new

theorem Quiet.refl (t : Transport) : Quiet t t := ⟨[], (List.append_nil _).symm, by simp⟩

theorem Quiet.trans {t₁ t₂ t₃ : Transport} (h : Quiet t₁ t₂) (h' : Quiet t₂ t₃) : Quiet t₁ t₃ := by
  obtain ⟨new, hevents, hnew⟩ := h
  obtain ⟨new', hevents', hnew'⟩ := h'
  refine ⟨new ++ new', by rw [hevents', hevents, List.append_assoc], fun c w hw => ?_⟩
  rcases List.mem_append.mp hw with hw | hw
  · exact hnew c w hw
  · exact hnew' c w hw

theorem quiet_closeSocket (t : Transport) : Quiet t t.closeSocket := by
  rw [Transport.closeSocket]
  split
  next c _ => exact ⟨[.closed c], rfl, by simp⟩
  next => exact .refl t

theorem quiet_reopen (a : Answers) (t : Transport) : Quiet t (t.reopen a) := by
  rw [Transport.reopen, Transport.openSocket]
  split
  · exact ⟨[.opened t.nextSocket], rfl, by simp⟩
  · exact .refl t

theorem quiet_connect (h : connect a t = (ok, t')) : Quiet t t' := by
  rw [connect] at h
  split at h
  · cases h
    exact .refl t
  · split at h
    · cases h
      exact quiet_reopen a t
    · cases h
      exact (quiet_reopen a t).trans (quiet_closeSocket _)

theorem quiet_disconnect (h : disconnect t = (ok, t')) : Quiet t t' := by
  rw [disconnect] at h
  split at h
  · dsimp only at h
    split at h
    · cases h
      exact quiet_closeSocket { t with connected := false }
    · cases h
      exact .refl t
  · cases h
    exact .refl t

/-- `Send` without a usable connection: nothing was written. -/
theorem Quiet.not_sent (h : Quiet t t') :
    ∃ new, t'.events = t.events ++ new ∧
      (false ↔ ∃ c, Event.wrote c ⟨message, message.length⟩ ∈ new) := by
  obtain ⟨new, hevents, hnew⟩ := h
  refine ⟨new, hevents, by simp, ?_⟩
  rintro ⟨c, hc⟩
  exact absurd hc (hnew c _)

/-- One call of `Send`: it writes nothing but its message, and it returns true exactly
when it wrote the whole of it. -/
theorem send_spec (I : Healthy t) (h : send message a t = (ok, t')) :
    Healthy t' ∧ (∀ c, ∀ w ∈ writesOn c t'.events, w ∈ writesOn c t.events ∨ w.frame = message) ∧
      ∃ new, t'.events = t.events ++ new ∧
        (ok ↔ ∃ c, Event.wrote c ⟨message, message.length⟩ ∈ new) := by
  rw [send] at h
  -- polling or connecting comes first, and writes nothing
  obtain ⟨error_code, t₁, ht₁⟩ : ∃ error_code t₁,
    (if t.connected then (a.soError, t) else (0, (connect a t).2)) = (error_code, t₁) := ⟨_, _, rfl⟩
  have hready : Healthy t₁ ∧ (∀ c, writesOn c t₁.events = writesOn c t.events) ∧ Quiet t t₁ := by
    split at ht₁
    · cases ht₁
      exact ⟨I, fun _ => rfl, .refl t⟩
    · cases ht₁
      obtain ⟨I₁, hsame⟩ := connect_healthy (a := a) I rfl
      exact ⟨I₁, hsame, quiet_connect rfl⟩
  obtain ⟨I₁, hsame₁, hquiet₁⟩ := hready
  simp only [ht₁] at h
  split at h
  next hunusable =>
    cases h
    have hdropped : Sound { t₁ with connected := false } :=
      ⟨by simp, I₁.sound.lt, I₁.sound.fresh⟩
    exact ⟨healthy_of_dropped I₁.framed hdropped (fun _ => rfl) rfl,
      fun c w hw => .inl (hsame₁ c ▸ hw), hquiet₁.not_sent⟩
  next husable =>
    have hconnected : t₁.connected := by
      by_contra hne
      exact husable (.inl hne)
    obtain ⟨c, hc⟩ := Option.isSome_iff_exists.mp (I₁.sound.valid hconnected)
    obtain ⟨t₂, ht₂, hsound₂, -, hsocket₂, hevents₂, hwrites₂⟩ :=
      writePacket_spec I₁.sound hc message a.sends
    -- nothing was unfinished on the connection, so that it is framed with one more write
    have hframed₂ : AllFramed t₂ := by
      intro c'
      rw [hwrites₂]
      have hfinished : ¬Unfinished (writesOn c t₁.events) :=
        fun hunfinished => I₁.finished ⟨hconnected, c, hc, hunfinished⟩
      split
      · split
        · rw [List.append_nil]
          exact I₁.framed c'
        next hcc _ =>
          subst hcc
          exact (framed_concat_iff _ (writeall_le a.sends message)).mpr ⟨I₁.framed _, hfinished⟩
      · rw [List.append_nil]
        exact I₁.framed c'
    have hframes₂ : ∀ c', ∀ w ∈ writesOn c' t₂.events,
        w ∈ writesOn c' t.events ∨ w.frame = message := by
      intro c' w hw
      rw [hwrites₂, hsame₁] at hw
      rcases List.mem_append.mp hw with hw | hw
      · exact .inl hw
      · split at hw
        · split at hw
          · cases hw
          · exact .inr (congrArg Write.frame (List.mem_singleton.mp hw))
        · cases hw
    obtain ⟨new₁, hevents₁, hnew₁⟩ := hquiet₁
    rw [hevents₁, List.append_assoc] at hevents₂
    simp only [ht₂] at h
    split at h
    next hshort =>
      obtain ⟨closed, t₃, ht₃⟩ : ∃ closed t₃, disconnect t₂ = (closed, t₃) := ⟨_, _, rfl⟩
      rw [ht₃] at h
      cases h
      obtain ⟨I', hsame'⟩ := disconnect_healthy hsound₂ hframed₂ ht₃
      obtain ⟨new₂, hevents', hnew₂⟩ := quiet_disconnect ht₃
      refine ⟨I', fun c' w hw => hframes₂ c' w (hsame' c' ▸ hw),
        new₁ ++ [.wrote c ⟨message, writeall a.sends message⟩] ++ new₂, ?_, by simp, ?_⟩
      · rw [hevents', hevents₂, List.append_assoc]
      · rintro ⟨c', hc'⟩
        rcases List.mem_append.mp hc' with hc' | hc'
        · rcases List.mem_append.mp hc' with hc' | hc'
          · exact absurd hc' (hnew₁ c' _)
          · injection List.mem_singleton.mp hc' with _ hwrite
            exact absurd (congrArg Write.accepted hwrite) hshort
        · exact absurd hc' (hnew₂ c' _)
    next hwhole =>
      cases h
      have hsent : message.length = writeall a.sends message := by
        by_contra hne
        exact hwhole hne
      refine ⟨⟨hsound₂, hframed₂, ?_⟩, hframes₂, _, hevents₂, by simp [← hsent]⟩
      -- what is last on the connection now is the whole message, or what was last before
      rintro ⟨-, c', hc', hunfinished⟩
      rw [hsocket₂] at hc'
      obtain rfl := Option.some.inj hc'
      rw [hwrites₂, if_pos rfl] at hunfinished
      split at hunfinished
      · rw [List.append_nil] at hunfinished
        exact I₁.finished ⟨hconnected, c, hc, hunfinished⟩
      · obtain ⟨w, hlast, hpart⟩ := hunfinished
        rw [List.getLast?_concat] at hlast
        cases hlast
        exact hpart hsent.symm

/-! ### Whole runs -/

/-- What is on a connection was sent by a call of the run. -/
def FramesSent (ts : List (Transition Transport Call Bool)) (t : Transport) : Prop :=
  ∀ c, ∀ w ∈ writesOn c t.events, ∃ q ∈ ts, ∃ a, q.call = .send w.frame a

theorem run_spec {ts : List (Transition Transport Call Bool)}
    (hrun : Run step Transport.init ts t) : Healthy t ∧ FramesSent ts t := by
  refine hrun.invariant (fun ts t => Healthy t ∧ FramesSent ts t) ⟨healthy_init, ?_⟩ ?_
  · intro c w hw
    cases hw
  · rintro ts t call ok t' ⟨I, hsent⟩ hstep
    -- writes that were there before stay those of earlier calls
    have hearlier : ∀ q : Transition Transport Call Bool, ∀ c, ∀ w ∈ writesOn c t.events,
        ∃ p ∈ ts ++ [q], ∃ a, p.call = .send w.frame a := by
      intro q c w hw
      obtain ⟨p, hp, hcall⟩ := hsent c w hw
      exact ⟨p, List.mem_append_left _ hp, hcall⟩
    cases call with
    | connect a =>
      obtain ⟨I', hsame⟩ := connect_healthy I (Option.some.inj hstep)
      exact ⟨I', fun c w hw => hearlier _ c w (hsame c ▸ hw)⟩
    | disconnect =>
      obtain ⟨I', hsame⟩ := disconnect_healthy I.sound I.framed (Option.some.inj hstep)
      exact ⟨I', fun c w hw => hearlier _ c w (hsame c ▸ hw)⟩
    | send message a =>
      obtain ⟨I', hframes, -⟩ := send_spec I (Option.some.inj hstep)
      refine ⟨I', fun c w hw => ?_⟩
      rcases hframes c w hw with hw | hframe
      · exact hearlier _ c w hw
      · exact ⟨_, List.mem_append_right _ List.mem_cons_self, a, by rw [hframe]⟩

/-- **Stream framing.**  Whatever calls are made and whatever the operating system
answers, every connection carries whole messages of `Send` calls and at most one proper
prefix of such a message, at its end; and `Send` returns true exactly when the call
wrote the whole of its message to a connection. -/
theorem stream_framing {ts : List (Transition Transport Call Bool)}
    (hrun : Run step Transport.init ts t) :
    (∀ c, Framed (writesOn c t.events)) ∧ FramesSent ts t ∧
      ∀ q ∈ ts, ∀ message a, q.call = .send message a →
        ∃ new, q.after.events = q.before.events ++ new ∧
          (q.outcome ↔ ∃ c, Event.wrote c ⟨message, message.length⟩ ∈ new) := by
  obtain ⟨I, hsent⟩ := run_spec hrun
  refine ⟨I.framed, hsent, fun q hq message a hcall => ?_⟩
  obtain ⟨before, after, hts⟩ := List.append_of_mem hq
  obtain ⟨hbefore, hstep⟩ := hrun.reached hts
  rw [hcall] at hstep
  exact (send_spec (run_spec hbefore).1 (Option.some.inj hstep)).2.2

/-- A message cut short after one byte, and the next one, which goes to a new connection. -/
theorem stream_framing_sample : ∃ ts t, Run step Transport.init ts t ∧
    ts.map Transition.outcome = [false, true] ∧
    (writesOn 0 t.events).flatMap Write.bytes = [1] ∧
    (writesOn 1 t.events).flatMap Write.bytes = [4, 5] ∧ ∀ c, Framed (writesOn c t.events) := by
  have hrun : ∃ r, Run.ofCalls step Transport.init
        [.send [1, 2, 3] ⟨0, true, true, [some 1, none]⟩,
          .send [4, 5] ⟨0, true, true, [some 1, some 1]⟩] = some r ∧
      r.1.map Transition.outcome = [false, true] ∧
      (writesOn 0 r.2.events).flatMap Write.bytes = [1] ∧
      (writesOn 1 r.2.events).flatMap Write.bytes = [4, 5] :=
    ⟨_, rfl, rfl, rfl, rfl⟩
  obtain ⟨r, hr, houtcomes, hfirst, hsecond⟩ := hrun
  exact ⟨r.1, r.2, Run.of_ofCalls hr, houtcomes, hfirst, hsecond,
    (stream_framing (Run.of_ofCalls hr)).1⟩

end Geneva.UnixDomainSocketDataTransport
