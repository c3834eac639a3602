/-
Frames on a byte stream that may accept only a part of what is written.

The reader of a stream of frames needs whole frames, with at most one proper prefix of
a frame at the end of the stream.

* `framed_concat_iff` — one more write keeps a stream framed exactly when the last
  write before it was not cut short;
* `Framed.bytes` — what a framed stream carries.
-/
import Mathlib.Data.List.Basic

namespace StreamFraming

variable {α : Type}

/-- A frame, and how much of it the stream accepted. -/
structure Write (α : Type) where
  frame : List α
  accepted : ℕ

namespace Write

def bytes (w : Write α) : List α := w.frame.take w.accepted

def Whole (w : Write α) : Prop := w.accepted = w.frame.length

end Write

/-- Whole frames, and at the end at most one proper prefix of a frame. -/
def Framed (ws : List (Write α)) : Prop :=
  ∃ wholes rest, ws = wholes ++ rest ∧ (∀ w ∈ wholes, w.Whole) ∧ rest.length ≤ 1 ∧
    ∀ w ∈ rest, w.accepted < w.frame.length

/-- The last write was cut short. -/
def Unfinished (ws : List (Write α)) : Prop := ∃ w, ws.getLast? = some w ∧ ¬w.Whole

theorem framed_nil : Framed ([] : List (Write α)) := ⟨[], [], rfl, by simp, by simp, by simp⟩

theorem not_unfinished_nil : ¬Unfinished ([] : List (Write α)) := by
  rintro ⟨w, hlast, -⟩
  cases hlast

theorem framed_not_unfinished_iff {ws : List (Write α)} :
    Framed ws ∧ ¬Unfinished ws ↔ ∀ w ∈ ws, w.Whole := by
  constructor
  · rintro ⟨⟨wholes, rest, rfl, hwholes, hlength, hrest⟩, hfinished⟩
    -- the rest has at most one write, and that one would be unfinished
    rcases rest with _ | ⟨w, _ | ⟨w', rest⟩⟩
    · rwa [List.append_nil]
    · refine absurd ⟨w, List.getLast?_concat .., ?_⟩ hfinished
      exact Nat.ne_of_lt (hrest w List.mem_cons_self)
    · simp at hlength
  · intro hall
    refine ⟨⟨ws, [], (List.append_nil ws).symm, hall, by simp, by simp⟩, ?_⟩
    rintro ⟨w, hlast, hpart⟩
    exact hpart (hall w (List.mem_of_getLast? hlast))

/-- One more write keeps the stream framed exactly when nothing before it was cut short. -/
theorem framed_concat_iff (ws : List (Write α)) {w : Write α} (hw : w.accepted ≤ w.frame.length) :
    Framed (ws ++ [w]) ↔ Framed ws ∧ ¬Unfinished ws := by
  rw [framed_not_unfinished_iff]
  constructor
  · rintro ⟨wholes, rest, heq, hwholes, hlength, hrest⟩
    -- either the new write is one of the whole ones, or it is the rest
    rcases rest with _ | ⟨w', _ | ⟨w'', rest⟩⟩
    · rw [List.append_nil] at heq
      exact fun v hv => hwholes v (heq ▸ List.mem_append_left _ hv)
    · obtain ⟨rfl, -⟩ := List.append_inj' heq rfl
      exact hwholes
    · simp at hlength
  · intro hall
    -- the new write is the rest if it was cut short
    rcases Nat.lt_or_eq_of_le hw with hlt | heq
    · refine ⟨ws, [w], rfl, hall, by simp, ?_⟩
      exact fun v hv => List.mem_singleton.mp hv ▸ hlt
    · refine ⟨ws ++ [w], [], (List.append_nil _).symm, ?_, by simp, by simp⟩
      intro v hv
      rcases List.mem_append.mp hv with hv | hv
      · exact hall v hv
      · exact List.mem_singleton.mp hv ▸ heq

/-- The bytes of a framed stream are whole frames followed by a proper prefix of one,
which may be missing. -/
theorem Framed.bytes {ws : List (Write α)} (h : Framed ws) :
    ∃ (frames : List (List α)) (rest : List α), ws.flatMap Write.bytes = frames.flatten ++ rest ∧
      (∀ f ∈ frames, f ∈ ws.map Write.frame) ∧
      (rest = [] ∨ ∃ f ∈ ws.map Write.frame, rest <+: f ∧ rest.length < f.length) := by
  obtain ⟨wholes, rest, rfl, hwholes, hlength, hrest⟩ := h
  refine ⟨wholes.map Write.frame, rest.flatMap Write.bytes, ?_, ?_, ?_⟩
  · rw [List.flatMap_append]
    refine congrArg (· ++ _) ?_
    rw [List.flatMap_def]
    refine congrArg List.flatten (List.map_congr_left fun w hw => ?_)
    exact List.take_of_length_le (Nat.le_of_eq (hwholes w hw).symm)
  · intro f hf
    rw [List.map_append]
    exact List.mem_append_left _ hf
  · rcases rest with _ | ⟨w, _ | ⟨w', rest⟩⟩
    · exact .inl rfl
    · refine .inr ⟨w.frame, by simp, ?_, ?_⟩
      · rw [List.flatMap_singleton]
        exact List.take_prefix _ _
      · rw [List.flatMap_singleton, Write.bytes, List.length_take]
        exact Nat.lt_of_le_of_lt (Nat.min_le_left _ _) (hrest w List.mem_cons_self)
    · simp at hlength

end StreamFraming
