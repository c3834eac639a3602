/-
How the fluentd exporters deliver a packet (`Connect`, `Send` and `Disconnect` of the
trace and the log exporter, `Socket` of `socket_tools.h`).

The operating system's part in one pass of the loop of `Send` is given by `Answers`.  A
socket that was opened has a number of its own, so that what happens to it can be told
from what happens to the next one.  An `int` holds what one call of `send` accepts.

* `send_events` — `Send` writes at most once for each retry, and reports a packet delivered
  exactly when it wrote all of it to a socket;
* `framing_iff` — every connection carries whole packets and at most one proper prefix
  at its end exactly when no pass writes to a connection with an unfinished packet.
-/
import OtelContrib.Lib.Runs
import OtelContrib.Lib.StreamFraming
import OtelContrib.Lib.Text
import Mathlib.Data.Int.Notation

open StreamFraming

namespace Fluentd

inductive Exporter
  | trace | logs
  deriving DecidableEq

/-- What the operating system answers in one pass: the code that polling `SO_ERROR`
leaves, whether `socket` and `connect` succeed, and how much each `send` accepts,
`none` being an error. -/
structure Answers where
  soError : ℤ
  socket : Bool
  connect : Bool
  sends : List (Option ℕ)

inductive Event
  | opened (c : ℕ)
  | wrote (c : ℕ) (w : Write UInt8)
  | closed (c : ℕ)

/-- The connection state of an exporter, and what was done to its sockets, oldest first. -/
structure Transport where
  connected : Bool
  socket : Option ℕ
  events : List Event
  nextSocket : ℕ

/-- `Socket::writeall`: the number of bytes sent.  The loop ends when everything is sent,
when nothing is accepted and on an error. -/
def writeall : List (Option ℕ) → Bytes → ℕ
  | [], _ => 0
  | none :: _, _ => 0
  | some n :: sends, buffer =>
    let bytes_sent := min n buffer.length
    if bytes_sent = 0 ∨ bytes_sent = buffer.length then bytes_sent
    else bytes_sent + writeall sends (buffer.drop bytes_sent)

namespace Transport

/-- The exporter before its first packet. -/
def init : Transport := ⟨false, none, [], 0⟩

/-- `socket_ = Socket(socketparams_)`: the socket that was held is dropped, not closed. -/
def openSocket (t : Transport) (succeeds : Bool) : Transport :=
  if succeeds then
    { t with
      socket := some t.nextSocket
      events := t.events ++ [.opened t.nextSocket]
      nextSocket := t.nextSocket + 1 }
  else { t with socket := none }

/-- `Socket::close` on a socket that is valid. -/
def closeSocket (t : Transport) : Transport :=
  match t.socket with
  | some c => { t with socket := none, events := t.events ++ [.closed c] }
  | none => t

/-- A new socket and the attempt to connect it, which fails when it is invalid. -/
def reopen (a : Answers) (t : Transport) : Transport :=
  { t.openSocket a.socket with connected := a.socket && a.connect }

/-- `Connect`.  The log exporter closes the socket that it could not connect. -/
def connect (kind : Exporter) (a : Answers) (t : Transport) : Bool × Transport :=
  if t.connected then (true, t)
  else if (t.reopen a).connected then (true, t.reopen a)
  else
    match kind with
    | .trace => (false, t.reopen a)
    | .logs => (false, (t.reopen a).closeSocket)

/-- `Disconnect`. -/
def disconnect (t : Transport) : Transport :=
  if t.connected then { t with connected := false }.closeSocket else t

/-- `writeall` on the socket, which sends nothing when it is invalid. -/
def writePacket (t : Transport) (packet : Bytes) (sends : List (Option ℕ)) : ℕ × Transport :=
  match t.socket with
  | none => (0, t)
  | some c =>
    let sentSize := writeall sends packet
    (sentSize, { t with events := t.events ++ [.wrote c ⟨packet, sentSize⟩] })

/-- One pass of the loop of `Send`: how much was written, `none` when there was no
connection. -/
def pass (kind : Exporter) (packet : Bytes) (a : Answers) (t : Transport) : Option ℕ × Transport :=
  let t := if t.connected ∧ a.soError ≠ 0 then { t with connected := false } else t
  let (connected, t) := t.connect kind a
  if connected then
    let (sentSize, t) := t.writePacket packet a.sends
    if packet.length = sentSize then (some sentSize, t.disconnect) else (some sentSize, t)
  else (none, t)

end Transport

/-- A pass that was made: the state before it, the answers, what was written, and the
state after it. -/
abbrev Pass := Transition Transport Answers (Option ℕ)

/-- The loop of `Send`, with the answers for the passes that may be made: whether the
packet was delivered, the passes made, and the state. -/
def send (kind : Exporter) (packet : Bytes) :
    List Answers → Transport → Bool × List Pass × Transport
  | [], t => (false, [], t)
  | a :: answers, t =>
    let (written, t') := t.pass kind packet a
    if written = some packet.length then (true, [⟨t, a, written, t'⟩], t')
    else
      let (delivered, passes, t'') := send kind packet answers t'
      (delivered, ⟨t, a, written, t'⟩ :: passes, t'')

/-- A packet to send and what the system will answer. -/
structure SendCall where
  packet : Bytes
  answers : List Answers

structure SendResult where
  delivered : Bool
  passes : List Pass

/-- One call of `Send`, with answers for as many passes as the retry count allows. -/
def step (kind : Exporter) (retry_count : ℕ) (t : Transport) (call : SendCall) :
    Option (SendResult × Transport) :=
  if call.answers.length = retry_count then
    let (delivered, passes, t') := send kind call.packet call.answers t
    some (⟨delivered, passes⟩, t')
  else none

/-! ### Writes -/

theorem writeall_le (sends : List (Option ℕ)) (buffer : Bytes) :
    writeall sends buffer ≤ buffer.length := by
  induction sends generalizing buffer with
  | nil => exact Nat.zero_le _
  | cons answer sends ih =>
    rcases answer with _ | n
    · exact Nat.zero_le _
    · rw [writeall]
      split
      · exact Nat.min_le_right _ _
      · have hrest := ih (buffer.drop (min n buffer.length))
        rw [List.length_drop] at hrest
        omega

/-- What was written to a socket, without the attempts of which nothing was accepted. -/
def writesOn (c : ℕ) (events : List Event) : List (Write UInt8) :=
  events.filterMap fun
    | .wrote c' w => if c' = c ∧ w.accepted ≠ 0 then some w else none
    | _ => none

theorem writesOn_append (c : ℕ) (events events' : List Event) :
    writesOn c (events ++ events') = writesOn c events ++ writesOn c events' :=
  List.filterMap_append

/-! ### What one pass does -/

/-- A connection has a socket, and nothing was written to sockets to come. -/
structure Sound (t : Transport) : Prop where
  valid : t.connected → t.socket.isSome
  lt : ∀ c, t.socket = some c → c < t.nextSocket
  fresh : ∀ c, t.nextSocket ≤ c → writesOn c t.events = []

theorem sound_init : Sound Transport.init where
  valid := by simp [Transport.init]
  lt := by simp [Transport.init]
  fresh _ _ := rfl

variable {kind : Exporter} {packet : Bytes} {a : Answers} {t t' : Transport}

theorem closeSocket_spec (I : Sound t) (hconnected : t.connected = false) :
    Sound t.closeSocket ∧ ∀ c, writesOn c t.closeSocket.events = writesOn c t.events := by
  have hsame : ∀ c, writesOn c t.closeSocket.events = writesOn c t.events := by
    intro c
    rw [Transport.closeSocket]
    split
    · exact (writesOn_append ..).trans (List.append_nil _)
    · rfl
  refine ⟨?_, hsame⟩
  rw [Transport.closeSocket] at hsame ⊢
  split at hsame
  · refine ⟨by simp [hconnected], by simp, fun c hc => ?_⟩
    exact (hsame c).trans (I.fresh c hc)
  · exact I

theorem disconnect_spec (I : Sound t) :
    Sound t.disconnect ∧ ∀ c, writesOn c t.disconnect.events = writesOn c t.events := by
  rw [Transport.disconnect]
  split
  · exact closeSocket_spec ⟨by simp, I.lt, I.fresh⟩ rfl
  · exact ⟨I, fun _ => rfl⟩

/-- Opening a socket writes nothing, and what was opened is new. -/
theorem reopen_spec (I : Sound t) (a : Answers) :
    Sound (t.reopen a) ∧ (∀ c, writesOn c (t.reopen a).events = writesOn c t.events) ∧
      ((t.reopen a).connected → ∃ c, (t.reopen a).socket = some c ∧ writesOn c t.events = []) := by
  rw [Transport.reopen, Transport.openSocket]
  cases a.socket with
  | false =>
    refine ⟨⟨by simp, ?_, I.fresh⟩, fun _ => rfl, by simp⟩
    intro c hc
    cases hc
  | true =>
    have hsame : ∀ c, writesOn c (t.events ++ [.opened t.nextSocket]) = writesOn c t.events :=
      fun c => (writesOn_append ..).trans (List.append_nil _)
    refine ⟨⟨fun _ => rfl, ?_, ?_⟩, hsame, fun _ => ⟨t.nextSocket, rfl, I.fresh _ (Nat.le_refl _)⟩⟩
    · intro c hc
      cases hc
      exact Nat.lt_succ_self _
    · intro c hc
      exact (hsame c).trans (I.fresh c (Nat.le_of_succ_le hc))

/-- A connection is the one there was, or a new one. -/
theorem connect_spec (I : Sound t) {ok : Bool} (h : t.connect kind a = (ok, t')) :
    Sound t' ∧ (∀ c, writesOn c t'.events = writesOn c t.events) ∧
      (ok = false → ¬t.connected) ∧
      (ok → ∃ c, t'.socket = some c ∧
        (t.connected ∧ t.socket = some c ∨ ¬t.connected ∧ writesOn c t.events = [])) := by
  unfold Transport.connect at h
  by_cases hconnected : t.connected
  · rw [if_pos hconnected] at h
    cases h
    obtain ⟨c, hc⟩ := Option.isSome_iff_exists.mp (I.valid hconnected)
    exact ⟨I, fun _ => rfl, by simp, fun _ => ⟨c, hc, .inl ⟨hconnected, hc⟩⟩⟩
  · obtain ⟨hsound, hsame, hopened⟩ := reopen_spec I a
    rw [if_neg hconnected] at h
    by_cases hok : (t.reopen a).connected
    · rw [if_pos hok] at h
      cases h
      obtain ⟨c, hc, hnone⟩ := hopened hok
      exact ⟨hsound, hsame, by simp, fun _ => ⟨c, hc, .inr ⟨hconnected, hnone⟩⟩⟩
    · rw [if_neg hok] at h
      cases kind with
      -- the trace exporter keeps the socket it could not connect
      | trace =>
        cases h
        exact ⟨hsound, hsame, fun _ => hconnected, by simp⟩
      | logs =>
        cases h
        obtain ⟨hclosed, hsame'⟩ := closeSocket_spec hsound (by simpa using hok)
        exact ⟨hclosed, fun c => (hsame' c).trans (hsame c), fun _ => hconnected, by simp⟩

/-- The connection a pass finds is one with an unfinished packet. -/
def Transport.Unfinished (t : Transport) : Prop :=
  t.connected ∧ ∃ c, t.socket = some c ∧ StreamFraming.Unfinished (writesOn c t.events)

/-- The write a pass makes, unless nothing is accepted. -/
def accepted (packet : Bytes) (a : Answers) : List (Write UInt8) :=
  if writeall a.sends packet = 0 then [] else [⟨packet, writeall a.sends packet⟩]

/-- `writeall` on a valid socket is one write, on that socket and on no other. -/
theorem writePacket_spec (I : Sound t) {c : ℕ} (hc : t.socket = some c) (packet : Bytes)
    (sends : List (Option ℕ)) :
    ∃ t', t.writePacket packet sends = (writeall sends packet, t') ∧ Sound t' ∧
      t'.connected = t.connected ∧ t'.socket = some c ∧
      t'.events = t.events ++ [.wrote c ⟨packet, writeall sends packet⟩] ∧
      ∀ c', writesOn c' t'.events = writesOn c' t.events ++ if c' = c then
        if writeall sends packet = 0 then [] else [⟨packet, writeall sends packet⟩] else [] := by
  have hwrites : ∀ c', writesOn c' (t.events ++ [.wrote c ⟨packet, writeall sends packet⟩]) =
      writesOn c' t.events ++ if c' = c then
        if writeall sends packet = 0 then [] else [⟨packet, writeall sends packet⟩] else [] := by
    intro c'
    rw [writesOn_append]
    refine congrArg (_ ++ ·) ?_
    by_cases hcc : c' = c
    · by_cases hzero : writeall sends packet = 0
      · simp [writesOn, hcc, hzero]
      · simp [writesOn, hcc, hzero]
    · simp [writesOn, hcc, Ne.symm hcc]
  refine ⟨{ t with events := t.events ++ [.wrote c ⟨packet, writeall sends packet⟩] }, ?_,
    ⟨I.valid, I.lt, fun c' hc' => ?_⟩, rfl, hc, rfl, hwrites⟩
  · rw [Transport.writePacket, hc]
  · have hne : c' ≠ c := Nat.ne_of_gt (Nat.lt_of_lt_of_le (I.lt c hc) hc')
    rw [hwrites, if_neg hne, List.append_nil]
    exact I.fresh c' hc'

/-- A pass that has no connection writes nothing.  Any other makes one write, on the
connection it found when that reports no error, and else on a new one. -/
theorem pass_spec (I : Sound t) {written : Option ℕ} (h : t.pass kind packet a = (written, t')) :
    Sound t' ∧
      (written = none ∧ ¬(t.connected ∧ a.soError = 0) ∧
          (∀ c, writesOn c t'.events = writesOn c t.events) ∨
        written = some (writeall a.sends packet) ∧ ∃ c,
          (t.connected ∧ a.soError = 0 ∧ t.socket = some c ∨
            ¬(t.connected ∧ a.soError = 0) ∧ writesOn c t.events = []) ∧
          ∀ c', writesOn c' t'.events =
            writesOn c' t.events ++ if c' = c then accepted packet a else []) := by
  rw [Transport.pass] at h
  -- polling may drop the connection, and nothing else
  obtain ⟨t₁, ht₁⟩ : ∃ t₁,
      (if t.connected ∧ a.soError ≠ 0 then { t with connected := false } else t)
    = t₁ := ⟨_, rfl⟩
  have hpolled : Sound t₁ ∧ t₁.events = t.events ∧ t₁.socket = t.socket ∧
      (t₁.connected ↔ t.connected ∧ a.soError = 0) := by
    by_cases herror : t.connected ∧ a.soError ≠ 0
    · rw [if_pos herror] at ht₁
      subst ht₁
      exact ⟨⟨by simp, I.lt, I.fresh⟩, rfl, rfl, by simp [herror.2]⟩
    · rw [if_neg herror] at ht₁
      subst ht₁
      refine ⟨I, rfl, rfl, fun hconnected => ⟨hconnected, ?_⟩, And.left⟩
      by_contra hne
      exact herror ⟨hconnected, hne⟩
  obtain ⟨hsound₁, hevents₁, hsocket₁, hconnected₁⟩ := hpolled
  obtain ⟨ok, t₂, ht₂⟩ : ∃ ok t₂, t₁.connect kind a = (ok, t₂) := ⟨_, _, rfl⟩
  obtain ⟨hsound₂, hsame₂, hunused, hused⟩ := connect_spec hsound₁ ht₂
  rw [hevents₁] at hsame₂
  simp only [ht₁, ht₂] at h
  cases ok with
  | false =>
    cases h
    exact ⟨hsound₂, .inl ⟨rfl, fun hfound => hunused rfl (hconnected₁.mpr hfound), hsame₂⟩⟩
  | true =>
    obtain ⟨c, hc, hfound⟩ := hused rfl
    rw [hsocket₁, hconnected₁, hevents₁] at hfound
    -- the write is on the socket that is held now
    obtain ⟨t₃, ht₃, hsound₃, -, -, -, hwrites⟩ :=
      writePacket_spec hsound₂ hc packet a.sends
    simp only [hsame₂] at hwrites
    have hfound' : t.connected ∧ a.soError = 0 ∧ t.socket = some c ∨
        ¬(t.connected ∧ a.soError = 0) ∧ writesOn c t.events = [] := by
      rcases hfound with ⟨⟨hconnected, hzero⟩, hsocket⟩ | hnew
      · exact .inl ⟨hconnected, hzero, hsocket⟩
      · exact .inr hnew
    simp only [if_true, ht₃] at h
    split at h
    · cases h
      -- a packet that was written whole ends the connection
      obtain ⟨hsound, hsame⟩ := disconnect_spec hsound₃
      exact ⟨hsound, .inr ⟨rfl, c, hfound', fun c' => (hsame c').trans (hwrites c')⟩⟩
    · cases h
      exact ⟨hsound₃, .inr ⟨rfl, c, hfound', hwrites⟩⟩

/-! ### What `Send` reports -/

/-- All writes to sockets, also those of which nothing was accepted. -/
def writesIn (events : List Event) : List (Write UInt8) :=
  events.filterMap fun
    | .wrote _ w => some w
    | _ => none

theorem writesIn_append (events events' : List Event) :
    writesIn (events ++ events') = writesIn events ++ writesIn events' :=
  List.filterMap_append

theorem mem_writesIn {w : Write UInt8} {events : List Event} :
    w ∈ writesIn events ↔ ∃ c, Event.wrote c w ∈ events := by
  rw [writesIn, List.mem_filterMap]
  constructor
  · rintro ⟨event, hevent, hw⟩
    cases event with
    | wrote c w' => exact ⟨c, Option.some.inj hw ▸ hevent⟩
    | opened c => cases hw
    | closed c => cases hw
  · rintro ⟨c, hc⟩
    exact ⟨_, hc, rfl⟩

/-- From one state to a later one these writes were made to sockets. -/
def Wrote (t t' : Transport) (ws : List (Write UInt8)) : Prop :=
  ∃ new, t'.events = t.events ++ new ∧ writesIn new = ws

theorem Wrote.refl (t : Transport) : Wrote t t [] := ⟨[], (List.append_nil _).symm, rfl⟩

theorem Wrote.trans {t'' : Transport} {ws ws' : List (Write UInt8)} (h : Wrote t t' ws)
    (h' : Wrote t' t'' ws') : Wrote t t'' (ws ++ ws') := by
  obtain ⟨new, hevents, rfl⟩ := h
  obtain ⟨new', hevents', rfl⟩ := h'
  refine ⟨new ++ new', ?_, writesIn_append new new'⟩
  rw [hevents', hevents, List.append_assoc]

theorem wrote_closeSocket (t : Transport) : Wrote t t.closeSocket [] := by
  rw [Transport.closeSocket]
  split
  next c _ => exact ⟨[.closed c], rfl, rfl⟩
  next => exact .refl t

theorem wrote_disconnect (t : Transport) : Wrote t t.disconnect [] := by
  rw [Transport.disconnect]
  split
  · exact wrote_closeSocket { t with connected := false }
  · exact .refl t

theorem wrote_reopen (a : Answers) (t : Transport) : Wrote t (t.reopen a) [] := by
  rw [Transport.reopen, Transport.openSocket]
  split
  · exact ⟨[.opened t.nextSocket], rfl, rfl⟩
  · exact .refl t

theorem wrote_connect {ok : Bool} (h : t.connect kind a = (ok, t')) : Wrote t t' [] := by
  unfold Transport.connect at h
  split at h
  · cases h
    exact .refl t
  · split at h
    · cases h
      exact wrote_reopen a t
    · cases kind with
      | trace =>
        cases h
        exact wrote_reopen a t
      | logs =>
        cases h
        exact (wrote_reopen a t).trans (wrote_closeSocket _)

/-- A pass that has a connection makes one write, of as much as it returns; any other makes
none. -/
theorem pass_wrote (I : Sound t) {written : Option ℕ} (h : t.pass kind packet a = (written, t')) :
    Wrote t t' (written.toList.map fun sentSize => ⟨packet, sentSize⟩) := by
  rw [Transport.pass] at h
  obtain ⟨t₁, ht₁⟩ : ∃ t₁,
      (if t.connected ∧ a.soError ≠ 0 then { t with connected := false } else t)
    = t₁ := ⟨_, rfl⟩
  have hpolled : Sound t₁ ∧ t₁.events = t.events := by
    split at ht₁
    · subst ht₁
      exact ⟨⟨by simp, I.lt, I.fresh⟩, rfl⟩
    · subst ht₁
      exact ⟨I, rfl⟩
  obtain ⟨hsound₁, hevents₁⟩ := hpolled
  obtain ⟨ok, t₂, ht₂⟩ : ∃ ok t₂, t₁.connect kind a = (ok, t₂) := ⟨_, _, rfl⟩
  obtain ⟨hsound₂, -, -, hused⟩ := connect_spec hsound₁ ht₂
  have hconnected : Wrote t t₂ [] := by
    obtain ⟨new, hevents, hnew⟩ := wrote_connect ht₂
    exact ⟨new, hevents₁ ▸ hevents, hnew⟩
  simp only [ht₁, ht₂] at h
  cases ok with
  | false =>
    cases h
    exact hconnected
  | true =>
    obtain ⟨c, hc, -⟩ := hused rfl
    obtain ⟨t₃, ht₃, -, -, -, hevents₃, -⟩ := writePacket_spec hsound₂ hc packet a.sends
    have hwritten : Wrote t t₃ [⟨packet, writeall a.sends packet⟩] :=
      hconnected.trans ⟨_, hevents₃, rfl⟩
    simp only [if_true, ht₃] at h
    split at h
    · cases h
      exact hwritten.trans (wrote_disconnect t₃)
    · cases h
      exact hwritten

/-- What `Send` writes: for each pass at most one write, of its packet, and it reports the packet
delivered exactly when one of them was of all of it. -/
theorem send_events (I : Sound t) {answers : List Answers} {delivered : Bool} {passes : List Pass}
    (h : send kind packet answers t = (delivered, passes, t')) :
    ∃ ws, Wrote t t' ws ∧ (∀ w ∈ ws, w.frame = packet) ∧ ws.length ≤ answers.length ∧
      (delivered ↔ ⟨packet, packet.length⟩ ∈ ws) := by
  induction answers generalizing t t' delivered passes with
  | nil =>
    cases h
    exact ⟨[], .refl t, by simp, Nat.le_refl _, by simp⟩
  | cons a answers ih =>
    obtain ⟨written, t₁, hpass⟩ : ∃ written t₁, t.pass kind packet a = (written, t₁) :=
      ⟨_, _, rfl⟩
    have hwrote := pass_wrote I hpass
    have hframe : ∀ w ∈ written.toList.map fun sentSize => (⟨packet, sentSize⟩ : Write UInt8),
        w.frame = packet := by
      intro w hw
      obtain ⟨sentSize, -, rfl⟩ := List.mem_map.mp hw
      rfl
    have hone :
        (written.toList.map fun sentSize => (⟨packet, sentSize⟩ : Write UInt8)).length ≤ 1 := by
      rw [List.length_map]
      exact Option.length_toList_le
    rw [send] at h
    simp only [hpass] at h
    by_cases hwhole : written = some packet.length
    · rw [if_pos hwhole] at h
      cases h
      refine ⟨_, hwrote, hframe, ?_, ?_⟩
      · exact Nat.le_trans hone (Nat.succ_le_succ (Nat.zero_le _))
      · simp [hwhole]
    · rw [if_neg hwhole] at h
      obtain ⟨delivered', passes', t₂, hrest⟩ :
        ∃ delivered passes t₂, send kind packet answers t₁ = (delivered, passes, t₂) :=
          ⟨_, _, _, rfl⟩
      obtain ⟨ws, hwrote', hframes, hlength, hdelivered⟩ := ih (pass_spec I hpass).1 hrest
      simp only [hrest] at h
      cases h
      refine ⟨_, hwrote.trans hwrote', ?_, ?_, ?_⟩
      · intro w hw
        rcases List.mem_append.mp hw with hw | hw
        · exact hframe w hw
        · exact hframes w hw
      · rw [List.length_append, List.length_cons]
        omega
      · rw [hdelivered, List.mem_append]
        refine (or_iff_right fun hmem => hwhole ?_).symm
        obtain ⟨sentSize, hsent, heq⟩ := List.mem_map.mp hmem
        cases heq
        exact Option.mem_toList.mp hsent

/-! ### Framing -/

/-- All connections carry whole frames and at most one proper prefix at the end. -/
def AllFramed (t : Transport) : Prop := ∀ c, Framed (writesOn c t.events)

/-- A pass that finds a connection with an unfinished packet is told of an error, or
nothing more is accepted. -/
def StopsWriting (packet : Bytes) (p : Pass) : Prop :=
  p.before.Unfinished → p.call.soError ≠ 0 ∨ writeall p.call.sends packet = 0

/-- One pass keeps the connections framed exactly when it stops writing where it has to. -/
theorem pass_framed_iff (I : Sound t) {written : Option ℕ}
    (h : t.pass kind packet a = (written, t')) :
    AllFramed t' ↔ AllFramed t ∧ StopsWriting packet ⟨t, a, written, t'⟩ := by
  obtain ⟨-, ⟨-, hunused, hsame⟩ | ⟨-, c, hfound, hwrites⟩⟩ := pass_spec I h
  · -- there was no connection to be found
    have hstops : StopsWriting packet ⟨t, a, written, t'⟩ :=
      fun hunfinished => .inl fun hzero => hunused ⟨hunfinished.1, hzero⟩
    have hall : AllFramed t' ↔ AllFramed t := forall_congr' fun c => by rw [hsame]
    rw [hall]
    exact (and_iff_left hstops).symm
  · by_cases hzero : writeall a.sends packet = 0
    · have hsame : ∀ c', writesOn c' t'.events = writesOn c' t.events := by
        intro c'
        rw [hwrites, accepted, if_pos hzero, ite_self, List.append_nil]
      have hall : AllFramed t' ↔ AllFramed t := forall_congr' fun c => by rw [hsame]
      rw [hall]
      exact (and_iff_left fun _ => .inr hzero).symm
    · have hc : writesOn c t'.events =
          writesOn c t.events ++ [⟨packet, writeall a.sends packet⟩] := by
        rw [hwrites, if_pos rfl, accepted, if_neg hzero]
      have hne : ∀ c', c' ≠ c → writesOn c' t'.events = writesOn c' t.events := by
        intro c' hcc
        rw [hwrites, if_neg hcc, List.append_nil]
      have hwrite := framed_concat_iff (writesOn c t.events)
        (w := ⟨packet, writeall a.sends packet⟩) (writeall_le a.sends packet)
      -- the unfinished connection, if there is one, is the one written to
      have hstops : StopsWriting packet ⟨t, a, written, t'⟩ ↔
          ¬StreamFraming.Unfinished (writesOn c t.events) := by
        rcases hfound with ⟨hconnected, herror, hsocket⟩ | ⟨hunused, hnil⟩
        · constructor
          · intro hstops hunfinished
            rcases hstops ⟨hconnected, c, hsocket, hunfinished⟩ with herror' | hzero'
            · exact herror' herror
            · exact hzero hzero'
          · rintro hfinished ⟨-, c', hsocket', hunfinished⟩
            rw [show t.socket = some c' from hsocket'] at hsocket
            exact absurd (Option.some.inj hsocket ▸ hunfinished) hfinished
        · rw [hnil]
          refine iff_of_true (fun hunfinished => .inl fun herror => ?_) not_unfinished_nil
          exact hunused ⟨hunfinished.1, herror⟩
      rw [hstops]
      constructor
      · intro hall
        have hframed := hall c
        rw [hc, hwrite] at hframed
        refine ⟨fun c' => ?_, hframed.2⟩
        by_cases hcc : c' = c
        · exact hcc ▸ hframed.1
        · exact hne c' hcc ▸ hall c'
      · rintro ⟨hall, hfinished⟩ c'
        by_cases hcc : c' = c
        · rw [hcc, hc, hwrite]
          exact ⟨hall c, hfinished⟩
        · rw [hne c' hcc]
          exact hall c'

/-- Every write is of the packet that is being sent. -/
theorem pass_frames (I : Sound t) {written : Option ℕ} (h : t.pass kind packet a = (written, t'))
    {c : ℕ} {w : Write UInt8} (hw : w ∈ writesOn c t'.events) :
    w ∈ writesOn c t.events ∨ w.frame = packet := by
  obtain ⟨-, ⟨-, -, hsame⟩ | ⟨-, c', -, hwrites⟩⟩ := pass_spec I h
  · exact .inl (hsame c ▸ hw)
  · rw [hwrites] at hw
    rcases List.mem_append.mp hw with hw | hw
    · exact .inl hw
    · rw [accepted] at hw
      split at hw
      · split at hw
        · cases hw
        · exact .inr (congrArg Write.frame (List.mem_singleton.mp hw))
      · cases hw

/-- What the loop of `Send` does with a packet. -/
theorem send_spec (I : Sound t) {answers : List Answers} {delivered : Bool} {passes : List Pass}
    (h : send kind packet answers t = (delivered, passes, t')) :
    Sound t' ∧ (AllFramed t' ↔ AllFramed t ∧ ∀ p ∈ passes, StopsWriting packet p) ∧
      passes.length ≤ answers.length ∧
      ∀ c, ∀ w ∈ writesOn c t'.events, w ∈ writesOn c t.events ∨ w.frame = packet := by
  -- one pass for each retry that is left, until one writes all of the packet
  induction answers generalizing t t' delivered passes with
  | nil =>
    cases h
    exact ⟨I, by simp, Nat.le_refl _, fun _ _ hw => .inl hw⟩
  | cons a answers ih =>
    obtain ⟨written, t₁, hpass⟩ : ∃ written t₁, t.pass kind packet a = (written, t₁) :=
      ⟨_, _, rfl⟩
    have hsound₁ := (pass_spec I hpass).1
    have hframed := pass_framed_iff I hpass
    have hframes := fun c w => pass_frames (c := c) (w := w) I hpass
    rw [send] at h
    simp only [hpass] at h
    by_cases hwhole : written = some packet.length
    · rw [if_pos hwhole] at h
      cases h
      refine ⟨hsound₁, ?_, by simp, hframes⟩
      rw [hframed, List.forall_mem_singleton]
    · rw [if_neg hwhole] at h
      obtain ⟨delivered', passes', t₂, hrest⟩ :
        ∃ delivered passes t₂, send kind packet answers t₁ = (delivered, passes, t₂) :=
          ⟨_, _, _, rfl⟩
      obtain ⟨hsound₂, hframed₂, hlength, hframes₂⟩ := ih hsound₁ hrest
      simp only [hrest] at h
      cases h
      refine ⟨hsound₂, ?_, Nat.succ_le_succ hlength, ?_⟩
      · rw [hframed₂, hframed, List.forall_mem_cons, and_assoc]
      · intro c w hw
        rcases hframes₂ c w hw with hw | hw
        · exact hframes c w hw
        · exact .inr hw

abbrev SendTransition := Transition Transport SendCall SendResult

/-- What a call of `Send` did to the sockets: it wrote its packet only, or a part of it, no more
often than the retry count allows, and it reported the packet delivered exactly when it wrote all
of it to a socket. -/
structure Reported (retry_count : ℕ) (q : SendTransition) (new : List Event) : Prop where
  events : q.after.events = q.before.events ++ new
  packet : ∀ w ∈ writesIn new, w.frame = q.call.packet
  attempts : (writesIn new).length ≤ retry_count
  delivered_iff : q.outcome.delivered ↔
    ∃ c, Event.wrote c ⟨q.call.packet, q.call.packet.length⟩ ∈ new

/-- What a run does: connections stay framed as long as every pass stops writing where it
has to, and the rest holds of every run. -/
theorem run_spec {retry_count : ℕ} {ts : List SendTransition}
    (hrun : Run (step kind retry_count) Transport.init ts t) :
    Sound t ∧
      (AllFramed t ↔ ∀ q ∈ ts, ∀ p ∈ q.outcome.passes, StopsWriting q.call.packet p) ∧
      (∀ c, ∀ w ∈ writesOn c t.events, ∃ q ∈ ts, w.frame = q.call.packet) ∧
      ∀ q ∈ ts, (∃ new, Reported retry_count q new) ∧ q.outcome.passes.length ≤ retry_count := by
  induction hrun with
  | nil =>
    refine ⟨sound_init, ?_, ?_, by simp⟩
    · simp [AllFramed, Transport.init, writesOn, framed_nil]
    · simp [Transport.init, writesOn]
  | @snoc ts t t' call outcome hrun hstep ih =>
    obtain ⟨I, hframed, hframes, hresults⟩ := ih
    rw [step] at hstep
    split at hstep
    next hlength =>
      cases hstep
      obtain ⟨I', hframed', hpasses, hframes'⟩ := send_spec I rfl
      obtain ⟨ws, ⟨new, hevents, rfl⟩, hpacket, hattempts, hdelivered⟩ := send_events I rfl
      rw [mem_writesIn] at hdelivered
      refine ⟨I', ?_, ?_, ?_⟩
      · rw [hframed', hframed, List.forall_mem_append, List.forall_mem_singleton]
      · intro c w hw
        rcases hframes' c w hw with hw | hw
        · obtain ⟨q, hq, hframe⟩ := hframes c w hw
          exact ⟨q, List.mem_append_left _ hq, hframe⟩
        · exact ⟨_, List.mem_append_right _ List.mem_cons_self, hw⟩
      · rw [List.forall_mem_append, List.forall_mem_singleton]
        rw [hlength] at hpasses hattempts
        exact ⟨hresults, ⟨new, hevents, hpacket, hattempts, hdelivered⟩, hpasses⟩
    next => cases hstep

/-- In such a run the bytes on a connection are packets that were sent, followed by a
proper prefix of one, which may be missing. -/
theorem connection_bytes {retry_count : ℕ} {ts : List SendTransition}
    (hrun : Run (step kind retry_count) Transport.init ts t)
    (hstops : ∀ q ∈ ts, ∀ p ∈ q.outcome.passes, StopsWriting q.call.packet p) (c : ℕ) :
    ∃ (packets : List Bytes) (rest : Bytes),
      (writesOn c t.events).flatMap Write.bytes = packets.flatten ++ rest ∧
      (∀ packet ∈ packets, ∃ q ∈ ts, packet = q.call.packet) ∧
      (rest = [] ∨ ∃ q ∈ ts, rest <+: q.call.packet ∧ rest.length < q.call.packet.length) := by
  obtain ⟨-, hframed, hframes, -⟩ := run_spec hrun
  obtain ⟨packets, rest, hbytes, hpackets, hrest⟩ := (hframed.mpr hstops c).bytes
  refine ⟨packets, rest, hbytes, fun packet hpacket => ?_, ?_⟩
  · obtain ⟨w, hw, rfl⟩ := List.mem_map.mp (hpackets packet hpacket)
    exact hframes c w hw
  · rcases hrest with hnil | ⟨packet, hpacket, hpart⟩
    · exact .inl hnil
    · obtain ⟨w, hw, rfl⟩ := List.mem_map.mp hpacket
      obtain ⟨q, hq, heq⟩ := hframes c w hw
      exact .inr ⟨q, hq, heq ▸ hpart⟩

/-- **Framing under retries.**  In every run of the trace or the log exporter, whatever
the operating system does, a packet is reported delivered exactly when the call wrote all of it
to a socket, and it makes no more passes and no more writes than the retry count allows; and every
connection carries whole packets and at most one proper prefix of one at its end
exactly when no pass writes to a connection with an unfinished packet. -/
theorem framing_iff {retry_count : ℕ} {ts : List SendTransition}
    (hrun : Run (step kind retry_count) Transport.init ts t) :
    (AllFramed t ∧ (∀ c, ∀ w ∈ writesOn c t.events, ∃ q ∈ ts, w.frame = q.call.packet) ∧
      ∀ q ∈ ts, (∃ new, Reported retry_count q new) ∧ q.outcome.passes.length ≤ retry_count) ↔
      ∀ q ∈ ts, ∀ p ∈ q.outcome.passes, StopsWriting q.call.packet p := by
  obtain ⟨-, hframed, hrest⟩ := run_spec hrun
  rw [hframed]
  exact and_iff_left hrest

/-- A packet of which the first pass delivers one byte.  Then the connection is reset and
the second pass delivers all of it on a new one. -/
def resetCall : SendCall :=
  ⟨[1, 2, 3], [⟨0, true, true, [some 1, none]⟩, ⟨104, true, true, [some 3]⟩]⟩

theorem framing_sample : ∃ ts t, Run (step .trace 2) Transport.init ts t ∧
    (writesOn 0 t.events).flatMap Write.bytes = [1] ∧
    (writesOn 1 t.events).flatMap Write.bytes = [1, 2, 3] ∧ AllFramed t := by
  have hrun : ∃ r, Run.ofCalls (step .trace 2) Transport.init [resetCall] = some r ∧
      (writesOn 0 r.2.events).flatMap Write.bytes = [1] ∧
      (writesOn 1 r.2.events).flatMap Write.bytes = [1, 2, 3] ∧
      ∀ q ∈ r.1, ∀ p ∈ q.outcome.passes, StopsWriting q.call.packet p := by
    refine ⟨_, rfl, rfl, rfl, List.forall_mem_singleton.mpr ?_⟩
    refine List.forall_mem_cons.mpr ⟨fun hunfinished => ?_, List.forall_mem_singleton.mpr ?_⟩
    · exact absurd hunfinished.1 Bool.false_ne_true
    · exact fun _ => .inl (show (104 : ℤ) ≠ 0 by decide)
  obtain ⟨r, hr, hfirst, hsecond, hstops⟩ := hrun
  exact ⟨r.1, r.2, Run.of_ofCalls hr, hfirst, hsecond,
    ((framing_iff (Run.of_ofCalls hr)).mpr hstops).1⟩

/-- The same with no error to be seen on the connection. -/
def shortWriteCall : SendCall :=
  ⟨[1, 2, 3], [⟨0, true, true, [some 1, none]⟩, ⟨0, true, true, [some 3]⟩]⟩

/-- The packet is sent again from its start behind its own first byte, and is reported
delivered. -/
theorem short_write_breaks_stream : ∃ ts t, Run (step .trace 2) Transport.init ts t ∧
    ts.map (fun q => q.outcome.delivered) = [true] ∧
    (writesOn 0 t.events).flatMap Write.bytes = [1, 1, 2, 3] ∧
    (∀ (n : ℕ) (rest : Bytes), rest.length < 3 →
      [1, 1, 2, 3] ≠ (List.replicate n [1, 2, 3]).flatten ++ rest) ∧ ¬AllFramed t := by
  have hrun : ∃ r, Run.ofCalls (step .trace 2) Transport.init [shortWriteCall] = some r ∧
      r.1.map (fun q => q.outcome.delivered) = [true] ∧
      writesOn 0 r.2.events = [⟨[1, 2, 3], 1⟩] ++ [⟨[1, 2, 3], 3⟩] :=
    ⟨_, rfl, rfl, rfl⟩
  obtain ⟨r, hr, hdelivered, hwrites⟩ := hrun
  refine ⟨r.1, r.2, Run.of_ofCalls hr, hdelivered, by rw [hwrites]; rfl, ?_, fun hall => ?_⟩
  · intro n rest hlength heq
    cases n with
    | zero =>
      have hrest : [1, 1, 2, 3] = rest := heq
      simp [← hrest] at hlength
    | succ n => simp [List.replicate_succ] at heq
  · have hframed := hall 0
    rw [hwrites, framed_concat_iff _ (Nat.le_refl _)] at hframed
    refine hframed.2 ⟨_, rfl, ?_⟩
    simp [Write.Whole]

end Fluentd
