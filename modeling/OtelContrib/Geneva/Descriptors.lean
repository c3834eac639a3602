/-
Which descriptors the Geneva transport holds (`UnixDomainSocketDataTransport`).

What is lost and what is held is said as for the fluentd exporters.  `Connect` closes a
socket that it could not connect, as that of the log exporter does.

* `descriptors_iff` — the transport is a disciplined owner of its descriptors exactly when
  no `Send` finds an error on its connection and there is no connection at the end.
-/
import OtelContrib.Fluentd.Descriptors
import OtelContrib.Geneva.Transport

open Ownership
open Fluentd (Answers Transport Lost Held Tidy Decides uses tidy_init)

namespace Geneva.UnixDomainSocketDataTransport

variable {t t' : Transport} {a : Answers} {message : Bytes} {c : ℕ} {ok : Bool}

/-- The call does not find an error on a connection. -/
def FindsNoError (q : Transition Transport Call Bool) : Prop :=
  match q.call with
  | .send _ a => q.before.connected → a.soError = 0
  | _ => True

instance (q : Transition Transport Call Bool) : Decidable (FindsNoError q) :=
  match q with
  | ⟨t, .send _ a, _, _⟩ => inferInstanceAs (Decidable (t.connected → a.soError = 0))
  | ⟨_, .connect _, _, _⟩ => inferInstanceAs (Decidable True)
  | ⟨_, .disconnect, _, _⟩ => inferInstanceAs (Decidable True)

/-- `Disconnect` does what that of the fluentd exporters does. -/
theorem disconnect_eq (t : Transport) : (disconnect t).2 = t.disconnect := by
  rw [disconnect, Transport.disconnect, Transport.closeSocket]
  split
  · cases t.socket <;> rfl
  · rfl

theorem disconnect_snd (h : disconnect t = (ok, t')) : t' = t.disconnect := by
  rw [← disconnect_eq, h]

/-- `Send` polls a connection or connects. -/
theorem ready_cases {error_code : Int} {t₁ : Transport}
    (h : (if t.connected then (a.soError, t) else (0, (connect a t).2)) = (error_code, t₁)) :
    t.connected ∧ error_code = a.soError ∧ t₁ = t ∨
      ¬t.connected ∧ error_code = 0 ∧ t₁ = (connect a t).2 := by
  split at h
  next hconnected =>
    cases h
    exact .inl ⟨hconnected, rfl, rfl⟩
  next hunconnected =>
    cases h
    exact .inr ⟨hunconnected, rfl, rfl⟩

/-- `Send` polls or connects, gives up without a usable connection, and else writes and ends
the connection if not all was written. -/
theorem send_cases (h : send message a t = (ok, t')) :
    (t.connected ∧ a.soError ≠ 0 ∧ t' = { t with connected := false }) ∨
      ∃ t₁, (t.connected ∧ a.soError = 0 ∧ t₁ = t ∨ ¬t.connected ∧ t₁ = (connect a t).2) ∧
        (¬t₁.connected ∧ t' = { t₁ with connected := false } ∨
          ∃ n t₂, t₁.writePacket message a.sends = (n, t₂) ∧ (t' = t₂ ∨ t' = t₂.disconnect)) := by
  rw [send] at h
  obtain ⟨error_code, t₁, ht₁⟩ : ∃ error_code t₁,
    (if t.connected then (a.soError, t) else (0, (connect a t).2)) = (error_code, t₁) := ⟨_, _, rfl⟩
  simp only [ht₁] at h
  have hready := ready_cases ht₁
  split at h
  next hunusable =>
    cases h
    rcases hready with ⟨hconnected, rfl, rfl⟩ | ⟨hunconnected, rfl, rfl⟩
    · refine .inl ⟨hconnected, ?_, rfl⟩
      rcases hunusable with hunconnected | herror
      · exact absurd hconnected hunconnected
      · exact herror
    · refine .inr ⟨_, .inr ⟨hunconnected, rfl⟩, .inl ⟨?_, rfl⟩⟩
      rcases hunusable with hfailed | herror
      · exact hfailed
      · exact absurd rfl herror
  next husable =>
    obtain ⟨n, t₂, ht₂⟩ : ∃ n t₂, t₁.writePacket message a.sends = (n, t₂) := ⟨_, _, rfl⟩
    have hzero : error_code = 0 := by
      by_contra herror
      exact husable (.inr herror)
    have hwritten : t' = t₂ ∨ t' = t₂.disconnect := by
      simp only [ht₂] at h
      split at h
      · cases h
        exact .inr (disconnect_eq t₂)
      · cases h
        exact .inl rfl
    refine .inr ⟨t₁, ?_, .inr ⟨n, t₂, ht₂, hwritten⟩⟩
    rcases hready with ⟨hconnected, rfl, ht⟩ | ⟨hunconnected, -, ht⟩
    · exact .inl ⟨hconnected, hzero, ht⟩
    · exact .inr ⟨hunconnected, ht⟩

theorem lost_connect (h : Lost t c) (hconnect : connect a t = (ok, t')) : Lost t' c := by
  rw [connect_eq] at hconnect
  exact h.connect hconnect

theorem lost_send (h : Lost t c) (hsend : send message a t = (ok, t')) : Lost t' c := by
  rcases send_cases hsend with ⟨-, -, rfl⟩ | ⟨t₁, hready, hrest⟩
  · exact h.unconnected
  · have h₁ : Lost t₁ c := by
      rcases hready with ⟨-, -, rfl⟩ | ⟨-, rfl⟩
      · exact h
      · exact lost_connect h rfl
    rcases hrest with ⟨-, rfl⟩ | ⟨n, t₂, ht₂, rfl | rfl⟩
    · exact h₁.unconnected
    · exact h₁.writePacket ht₂
    · exact (h₁.writePacket ht₂).disconnect

theorem tidy_connect (I : Tidy t) (h : connect a t = (ok, t')) : Tidy t' := by
  rw [connect_eq] at h
  obtain ⟨⟨-, I'⟩ | ⟨hloses, -⟩, -⟩ := I.connect h
  · exact I'
  · exact absurd (.inr (.inl rfl)) hloses

theorem tidy_send (I : Tidy t) (hsend : send message a t = (ok, t')) :
    Decides (FindsNoError ⟨t, .send message a, ok, t'⟩) t' := by
  rcases send_cases hsend with ⟨hconnected, herror, rfl⟩ | ⟨t₁, hready, hrest⟩
  · -- the connection is dropped and its socket kept, not closed
    obtain ⟨c, hc⟩ := Option.isSome_iff_exists.mp (I.connected ▸ hconnected)
    exact .inr ⟨fun hnone => herror (hnone hconnected), c,
      Held.lost ⟨I.held.holds, I.held.old⟩ hc rfl⟩
  · have hready : FindsNoError ⟨t, .send message a, ok, t'⟩ ∧ Tidy t₁ := by
      rcases hready with ⟨-, hzero, rfl⟩ | ⟨hunconnected, rfl⟩
      · exact ⟨fun _ => hzero, I⟩
      · exact ⟨fun hconnected => absurd hconnected hunconnected, tidy_connect I rfl⟩
    refine .inl ⟨hready.1, ?_⟩
    rcases hrest with ⟨hfailed, rfl⟩ | ⟨n, t₂, ht₂, rfl | rfl⟩
    · have hsame : { t₁ with connected := false } = t₁ := by simp [← Bool.not_eq_true _ ▸ hfailed]
      exact hsame ▸ hready.2
    · exact hready.2.writePacket ht₂
    · exact (hready.2.writePacket ht₂).disconnect

theorem run_decides {ts : List (Transition Transport Call Bool)}
    (hrun : Run step Transport.init ts t) : Decides (∀ q ∈ ts, FindsNoError q) t := by
  refine hrun.invariant (fun ts t => Decides (∀ q ∈ ts, FindsNoError q) t)
    (.inl ⟨by simp, tidy_init⟩) ?_
  rintro ts t call ok t' (⟨hnone, I⟩ | ⟨hfound, c, hc⟩) hstep
  · have hcall : Decides (FindsNoError ⟨t, call, ok, t'⟩) t' := by
      cases call with
      | connect a => exact .inl ⟨trivial, tidy_connect I (Option.some.inj hstep)⟩
      | send message a => exact tidy_send I (Option.some.inj hstep)
      | disconnect =>
        refine .inl ⟨trivial, ?_⟩
        rw [disconnect_snd (Option.some.inj hstep)]
        exact I.disconnect
    refine hcall.congr ?_
    rw [List.forall_mem_append, List.forall_mem_singleton, and_iff_right hnone]
  · refine .inr ⟨fun hall => hfound fun q hq => hall q (List.mem_append_left _ hq), c, ?_⟩
    cases call with
    | connect a => exact lost_connect hc (Option.some.inj hstep)
    | send message a => exact lost_send hc (Option.some.inj hstep)
    | disconnect =>
      rw [disconnect_snd (Option.some.inj hstep)]
      exact hc.disconnect

/-- **Descriptors of the Geneva transport.**  In every life of the transport, whatever the
operating system answers, at most one descriptor is open at any moment, each is closed
once and none is written to after that, exactly when no `Send` finds an error pending on
its connection and the transport is not connected when it is destroyed. -/
theorem descriptors_iff {ts : List (Transition Transport Call Bool)}
    (hrun : Run step Transport.init ts t) :
    Disciplined (uses t.destruct) ↔ (∀ q ∈ ts, FindsNoError q) ∧ t.connected = false :=
  (run_decides hrun).disciplined_iff

/-- A message cut short, which ends its connection, and one on the next, which is closed. -/
theorem descriptors_sample : ∃ ts t, Run step Transport.init ts t ∧
    ts.map Transition.outcome = [false, true, true] ∧
    openAfter (uses t.destruct) = [] ∧ Disciplined (uses t.destruct) := by
  have hrun : ∃ r, Run.ofCalls step Transport.init
        [.send [1, 2, 3] ⟨0, true, true, [some 1, none]⟩, .send [4, 5] ⟨0, true, true, [some 2]⟩,
          .disconnect] = some r ∧
      r.1.map Transition.outcome = [false, true, true] ∧ openAfter (uses r.2.destruct) = [] ∧
      (∀ q ∈ r.1, FindsNoError q) ∧ r.2.connected = false :=
    ⟨_, rfl, rfl, rfl, by decide, rfl⟩
  obtain ⟨r, hr, houtcomes, hopen, hcondition⟩ := hrun
  exact ⟨r.1, r.2, Run.of_ofCalls hr, houtcomes, hopen,
    (descriptors_iff (Run.of_ofCalls hr)).mpr hcondition⟩

/-- The peer resets two connections in turn.  Each `Send` that is told so drops its connection
without closing it, and the next one opens another. -/
def resets : List Call :=
  [.send [1] ⟨0, true, true, [some 1]⟩, .send [1] ⟨104, true, true, []⟩,
    .send [1] ⟨0, true, true, [some 1]⟩, .send [1] ⟨104, true, true, []⟩]

theorem resets_leak : ∃ ts t, Run step Transport.init ts t ∧
    ts.map Transition.call = resets ∧ ts.map Transition.outcome = [true, false, true, false] ∧
    openAfter (uses t) = [1, 0] ∧ ¬Disciplined (uses t.destruct) := by
  have hrun : ∃ r, Run.ofCalls step Transport.init resets = some r ∧
      r.1.map Transition.call = resets ∧ r.1.map Transition.outcome = [true, false, true, false] ∧
      openAfter (uses r.2) = [1, 0] := ⟨_, rfl, rfl, rfl, rfl⟩
  obtain ⟨r, hr, hcalls, houtcomes, hopen⟩ := hrun
  refine ⟨r.1, r.2, Run.of_ofCalls hr, hcalls, houtcomes, hopen, fun hdisciplined => ?_⟩
  have hle := hdisciplined.atMostOne (uses r.2) (List.prefix_refl _)
  rw [hopen] at hle
  exact absurd hle (by decide)

end Geneva.UnixDomainSocketDataTransport
