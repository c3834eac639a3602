/-
What was received over the connections of a fluentd exporter (`Connect` and `Send`).

The connections are opened one after the other, and what is written is written to the one that
was opened last.

* `pass_received` — a pass adds its packet to what was received when it writes all of it;
* `send_received` — `Send` adds its packet exactly when it returns true: once, and behind
  everything that was received before;
* `readConnections_eq` — a server that reads framed connections one after the other reads what
  was received.
-/
import OtelContrib.Fluentd.Transport
import OtelContrib.Lib.StreamDecoding

open ByteCodec StreamFraming

namespace Fluentd

/-- The messages that `Send` reported to be sent, of those it was handed. -/
def delivered {μ : Type} (sent : List (μ × Bool)) : List μ :=
  sent.filterMap fun m => if m.2 then some m.1 else none

theorem delivered_append {μ : Type} (sent sent' : List (μ × Bool)) :
    delivered (sent ++ sent') = delivered sent ++ delivered sent' := List.filterMap_append

theorem delivered_singleton {μ : Type} (m : μ) (ok : Bool) :
    delivered [(m, ok)] = if ok then [m] else [] := by
  cases ok <;> rfl

theorem delivered_all {μ : Type} (messages : List μ) :
    delivered (messages.map fun m => (m, true)) = messages := by
  rw [delivered, List.filterMap_map]
  exact List.filterMap_some

theorem mem_delivered {μ : Type} {sent : List (μ × Bool)} {m : μ} (h : m ∈ delivered sent) :
    (m, true) ∈ sent := by
  obtain ⟨⟨m', ok⟩, hmem, heq⟩ := List.mem_filterMap.mp h
  cases ok with
  | false => cases heq
  | true => exact Option.some.inj heq ▸ hmem

theorem delivered_sublist {μ : Type} (sent : List (μ × Bool)) :
    (delivered sent).Sublist (sent.map Prod.fst) := by
  induction sent with
  | nil => exact .slnil
  | cons m sent ih =>
    obtain ⟨m, ok⟩ := m
    cases ok with
    | false => exact ih.cons m
    | true => exact ih.cons_cons m

/-- The packets that were written whole, connection after connection. -/
def received (t : Transport) : List Bytes :=
  (List.range t.nextSocket).flatMap fun c => wholes (writesOn c t.events)

/-- What is written is written to the socket that was opened last. -/
structure Latest (t : Transport) : Prop where
  sound : Sound t
  latest : ∀ c, t.socket = some c → t.nextSocket = c + 1

theorem latest_init : Latest Transport.init := ⟨sound_init, by simp [Transport.init]⟩

variable {kind : Exporter} {packet : Bytes} {a : Answers} {t t' : Transport}

/-- What changes no write changes nothing that was received. -/
theorem received_congr (hnext : t'.nextSocket = t.nextSocket)
    (hsame : ∀ c, writesOn c t'.events = writesOn c t.events) : received t' = received t := by
  rw [received, received, hnext]
  simp only [hsame]

theorem closeSocket_received (I : Latest t) (hconnected : t.connected = false) :
    Latest t.closeSocket ∧ received t.closeSocket = received t := by
  obtain ⟨hsound, hsame⟩ := closeSocket_spec I.sound hconnected
  have hnext : t.closeSocket.nextSocket = t.nextSocket := by
    rw [Transport.closeSocket]
    split <;> rfl
  refine ⟨⟨hsound, fun c hc => ?_⟩, received_congr hnext hsame⟩
  rw [Transport.closeSocket] at hc
  split at hc
  · cases hc
  next hnone => exact absurd (hnone.symm.trans hc) (by simp)

/-- On a new connection nothing was received. -/
theorem reopen_received (I : Latest t) (a : Answers) :
    Latest (t.reopen a) ∧ received (t.reopen a) = received t := by
  obtain ⟨hsound, hsame, -⟩ := reopen_spec I.sound a
  rw [Transport.reopen, Transport.openSocket] at *
  cases hsocket : a.socket with
  | false =>
    rw [hsocket] at hsound
    exact ⟨⟨hsound, by simp⟩, rfl⟩
  | true =>
    rw [hsocket] at hsound hsame
    refine ⟨⟨hsound, fun c hc => ?_⟩, ?_⟩
    · obtain rfl := Option.some.inj hc
      rfl
    · rw [received, received]
      simp only [if_true] at hsame ⊢
      simp only [hsame]
      rw [List.range_succ, List.flatMap_append, List.flatMap_singleton,
        I.sound.fresh t.nextSocket (Nat.le_refl _)]
      exact List.append_nil _

theorem connect_received (I : Latest t) {ok : Bool} (h : t.connect kind a = (ok, t')) :
    Latest t' ∧ received t' = received t := by
  unfold Transport.connect at h
  obtain ⟨I', hsame⟩ := reopen_received I a
  split at h
  · cases h
    exact ⟨I, rfl⟩
  · split at h
    · cases h
      exact ⟨I', hsame⟩
    next hfailed =>
      cases kind with
      | trace =>
        cases h
        exact ⟨I', hsame⟩
      | logs =>
        cases h
        obtain ⟨hclosed, hsame'⟩ := closeSocket_received I' (Bool.eq_false_iff.mpr hfailed)
        exact ⟨hclosed, hsame'.trans hsame⟩

theorem dropped_latest (I : Latest t) : Latest { t with connected := false } :=
  ⟨⟨by simp, I.sound.lt, I.sound.fresh⟩, I.latest⟩

/-- What is written whole is received, behind everything that was. -/
theorem writePacket_received (I : Latest t) {c : ℕ} (hc : t.socket = some c) (hne : packet ≠ [])
    (sends : List (Option ℕ)) :
    ∃ t', t.writePacket packet sends = (writeall sends packet, t') ∧ Latest t' ∧
      t'.connected = t.connected ∧ t'.socket = some c ∧
      received t' =
        received t ++ if writeall sends packet = packet.length then [packet] else [] := by
  obtain ⟨t', hwrite, hsound, hconnected, hsocket, -, hwrites⟩ :=
    writePacket_spec I.sound hc packet sends
  have hnext : t'.nextSocket = t.nextSocket := by
    rw [Transport.writePacket, hc] at hwrite
    obtain rfl := congrArg Prod.snd hwrite
    rfl
  have hlast := I.latest c hc
  have hlatest : ∀ c', t'.socket = some c' → t'.nextSocket = c' + 1 := by
    intro c' hc'
    rw [hsocket] at hc'
    obtain rfl := Option.some.inj hc'
    rw [hnext, hlast]
  refine ⟨t', hwrite, ⟨hsound, hlatest⟩, hconnected, hsocket, ?_⟩
  -- the connection written to is the last one, and the others stay as they were
  have hothers : ∀ c' ∈ List.range c, wholes (writesOn c' t'.events) =
      wholes (writesOn c' t.events) := by
    intro c' hc'
    rw [hwrites, if_neg (Nat.ne_of_lt (List.mem_range.mp hc')), List.append_nil]
  have hwhole : wholes (writesOn c t'.events) = wholes (writesOn c t.events) ++
      if writeall sends packet = packet.length then [packet] else [] := by
    rw [hwrites, if_pos rfl, wholes_append]
    refine congrArg (_ ++ ·) ?_
    by_cases hzero : writeall sends packet = 0
    · have hpositive := List.length_pos_of_ne_nil hne
      rw [if_pos hzero, if_neg (by omega)]
      rfl
    · rw [if_neg hzero, wholes, List.filterMap_cons, List.filterMap_nil]
      by_cases hall : writeall sends packet = packet.length
      · simp only [if_pos hall]
      · simp only [if_neg hall]
  rw [received, received, hnext, hlast, List.range_succ, List.flatMap_append, List.flatMap_append,
    List.flatMap_singleton, List.flatMap_singleton, hwhole, List.append_assoc]
  exact congrArg (· ++ _) (List.flatMap_congr hothers)

/-- One pass adds its packet to what was received when it writes all of it. -/
theorem pass_received (I : Latest t) (hne : packet ≠ []) {written : Option ℕ}
    (h : t.pass kind packet a = (written, t')) :
    Latest t' ∧
      received t' = received t ++ if written = some packet.length then [packet] else [] := by
  rw [Transport.pass] at h
  obtain ⟨t₁, ht₁⟩ : ∃ t₁,
      (if t.connected ∧ a.soError ≠ 0 then { t with connected := false } else t)
    = t₁ := ⟨_, rfl⟩
  have hpolled : Latest t₁ ∧ received t₁ = received t := by
    split at ht₁
    · subst ht₁
      exact ⟨dropped_latest I, rfl⟩
    · subst ht₁
      exact ⟨I, rfl⟩
  obtain ⟨I₁, hsame₁⟩ := hpolled
  obtain ⟨ok, t₂, ht₂⟩ : ∃ ok t₂, t₁.connect kind a = (ok, t₂) := ⟨_, _, rfl⟩
  obtain ⟨I₂, hsame₂⟩ := connect_received I₁ ht₂
  obtain ⟨-, -, -, hused⟩ := connect_spec I₁.sound ht₂
  simp only [ht₁, ht₂] at h
  cases ok with
  | false =>
    cases h
    exact ⟨I₂, by rw [hsame₂, hsame₁, if_neg (by simp), List.append_nil]⟩
  | true =>
    obtain ⟨c, hc, -⟩ := hused rfl
    obtain ⟨t₃, ht₃, I₃, -, -, hreceived⟩ := writePacket_received I₂ hc hne a.sends
    simp only [if_true, ht₃] at h
    rw [hsame₂, hsame₁] at hreceived
    split at h
    next hwhole =>
      cases h
      rw [if_pos hwhole.symm] at hreceived
      rw [if_pos (by rw [← hwhole]), ← hreceived, Transport.disconnect]
      split
      · exact closeSocket_received (dropped_latest I₃) rfl
      · exact ⟨I₃, rfl⟩
    next hshort =>
      cases h
      rw [if_neg (Ne.symm hshort)] at hreceived
      rw [if_neg fun heq => hshort (Option.some.inj heq).symm]
      exact ⟨I₃, hreceived⟩

/-- `Send` adds its packet to what was received exactly when it returns true. -/
theorem send_received (I : Latest t) (hne : packet ≠ []) {answers : List Answers}
    {delivered : Bool} {passes : List Pass}
    (h : send kind packet answers t = (delivered, passes, t')) :
    Latest t' ∧ received t' = received t ++ if delivered then [packet] else [] := by
  induction answers generalizing t t' delivered passes with
  | nil =>
    cases h
    exact ⟨I, (List.append_nil _).symm⟩
  | cons a answers ih =>
    obtain ⟨written, t₁, hpass⟩ : ∃ written t₁, t.pass kind packet a = (written, t₁) := ⟨_, _, rfl⟩
    obtain ⟨I₁, hreceived₁⟩ := pass_received I hne hpass
    rw [send] at h
    simp only [hpass] at h
    by_cases hwhole : written = some packet.length
    · rw [if_pos hwhole] at h hreceived₁
      cases h
      exact ⟨I₁, hreceived₁⟩
    · rw [if_neg hwhole] at h hreceived₁
      obtain ⟨delivered', passes', t₂, hrest⟩ :
        ∃ delivered passes t₂, send kind packet answers t₁ = (delivered, passes, t₂) :=
          ⟨_, _, _, rfl⟩
      obtain ⟨I₂, hreceived₂⟩ := ih I₁ hrest
      simp only [hrest] at h
      cases h
      rw [hreceived₁, List.append_nil] at hreceived₂
      exact ⟨I₂, hreceived₂⟩

/-! ### Reading the connections -/

/-- The bytes on a connection. -/
def bytesOn (c : ℕ) (t : Transport) : List UInt8 := (writesOn c t.events).flatMap Write.bytes

/-- What a server reads that reads one connection after the other. -/
def readConnections {α : Type} (r : Reader α) (t : Transport) : List α :=
  (List.range t.nextSocket).flatMap fun c => (r.readAll (bytesOn c t)).1

/-- A server reads what was received from connections that are framed. -/
theorem readConnections_eq {α : Type} {r : Reader α} (hframed : AllFramed t)
    (hframes : ∀ c, ∀ w ∈ writesOn c t.events, ∃ v, SelfDelimiting r w.frame v)
    (hnil : r [] = none) : readConnections r t = valuesOf r (received t) := by
  have hread : ∀ c ∈ List.range t.nextSocket, (r.readAll (bytesOn c t)).1 =
      valuesOf r (wholes (writesOn c t.events)) := by
    intro c _
    obtain ⟨rest, heq, -⟩ := (hframed c).readAll (hframes c) hnil
    rw [bytesOn, heq]
  rw [readConnections, List.flatMap_congr hread, received, valuesOf, List.filterMap_flatMap]
  rfl

/-- The values of the messages that were received, each of which can be told apart. -/
theorem valuesOf_delivered {μ α : Type} {r : Reader α} {bytes : μ → List UInt8} {value : μ → α}
    {messages : List μ} (h : ∀ m ∈ messages, SelfDelimiting r (bytes m) (value m)) :
    valuesOf r (messages.map bytes) = messages.map value := by
  rw [valuesOf, List.filterMap_map]
  have hread : ∀ m ∈ messages,
      ((fun frame => (r frame).map Prod.fst) ∘ bytes) m = (some ∘ value) m := fun m hm =>
    congrArg (Option.map Prod.fst) (h m hm).read_eq
  rw [List.filterMap_congr hread, List.filterMap_eq_map]

end Fluentd
