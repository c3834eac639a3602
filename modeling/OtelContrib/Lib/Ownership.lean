/-
A holder of descriptors that have to be opened and closed by hand.

A log says what was done to descriptors, oldest first.  `Holds` is the abstract holder: it
opens a descriptor only while it holds none, and uses and closes only the one it holds.

* `Holds.disciplined` — the log of such a holder that let go of its last descriptor has
  at most one descriptor open at any moment, every one that was opened is closed once, and
  none is used after that;
* `Disciplined.closed_mem` — a descriptor that was opened and is never closed is enough to
  break this.
-/
import Mathlib.Data.List.Basic

namespace Ownership

variable {D : Type}

inductive Use (D : Type)
  | opened (d : D)
  | used (d : D)
  | closed (d : D)
  deriving DecidableEq

def Use.descriptor : Use D → D
  | .opened d => d
  | .used d => d
  | .closed d => d

/-! ### The holder -/

/-- A log of the abstract holder, and what it holds then. -/
inductive Holds : List (Use D) → Option D → Prop
  | nil : Holds [] none
  | opened {us : List (Use D)} {d : D} (h : Holds us none)
    (hnew : ∀ u ∈ us, u.descriptor ≠ d) : Holds (us ++ [.opened d]) (some d)
  | used {us : List (Use D)} {d : D} (h : Holds us (some d)) : Holds (us ++ [.used d]) (some d)
  | closed {us : List (Use D)} {d : D} (h : Holds us (some d)) : Holds (us ++ [.closed d]) none

namespace Holds

variable {us us' : List (Use D)} {held : Option D} {d : D}

/-- At any earlier moment the log was one of the holder too. -/
theorem of_initial (h : Holds us held) (hpre : us' <+: us) : ∃ held', Holds us' held' := by
  induction h with
  | nil => exact ⟨none, List.prefix_nil.mp hpre ▸ .nil⟩
  | opened h hnew ih =>
    rcases List.prefix_concat_iff.mp hpre with rfl | hbefore
    · exact ⟨_, .opened h hnew⟩
    · exact ih hbefore
  | used h ih =>
    rcases List.prefix_concat_iff.mp hpre with rfl | hbefore
    · exact ⟨_, .used h⟩
    · exact ih hbefore
  | closed h ih =>
    rcases List.prefix_concat_iff.mp hpre with rfl | hbefore
    · exact ⟨_, .closed h⟩
    · exact ih hbefore

theorem of_used (h : Holds (us ++ [.used d]) held) : Holds us (some d) := by
  generalize hlog : us ++ [.used d] = log at h
  cases h with
  | nil => simp at hlog
  | opened _ _ => simp at hlog
  | used h =>
    obtain ⟨rfl, hlast⟩ := List.append_inj' hlog rfl
    cases hlast
    exact h
  | closed _ => simp at hlog

theorem fresh_of_opened (h : Holds (us ++ [.opened d]) held) : ∀ u ∈ us, u.descriptor ≠ d := by
  generalize hlog : us ++ [.opened d] = log at h
  cases h with
  | nil => simp at hlog
  | opened _ hnew =>
    obtain ⟨rfl, hlast⟩ := List.append_inj' hlog rfl
    cases hlast
    exact hnew
  | used _ => simp at hlog
  | closed _ => simp at hlog

end Holds

/-! ### Logs seen from outside -/

variable [DecidableEq D]

/-- What one use makes of the open descriptors. -/
def Use.apply (held : List D) : Use D → List D
  | .opened d => d :: held
  | .used _ => held
  | .closed d => held.erase d

/-- The descriptors that are open after a log. -/
def openAfter (us : List (Use D)) : List D := us.foldl Use.apply []

theorem openAfter_concat (us : List (Use D)) (u : Use D) :
    openAfter (us ++ [u]) = u.apply (openAfter us) := by
  rw [openAfter, List.foldl_append]
  rfl

/-- What one wants of the log of a whole life. -/
structure Disciplined (us : List (Use D)) : Prop where
  atMostOne : ∀ us', us' <+: us → (openAfter us').length ≤ 1
  closedOnce : ∀ before d after, us = before ++ .opened d :: after →
    .closed d ∉ before ∧ after.count (.closed d) = 1
  notAfter : ∀ before d after, us = before ++ .used d :: after → .closed d ∉ before

theorem Disciplined.closed_mem {us : List (Use D)} (h : Disciplined us) {d : D}
    (hopened : .opened d ∈ us) : .closed d ∈ us := by
  obtain ⟨before, after, hus⟩ := List.append_of_mem hopened
  have hcount := (h.closedOnce before d after hus).2
  have hmem : .closed d ∈ after := List.count_pos_iff.mp (by omega)
  rw [hus]
  exact List.mem_append_right _ (List.mem_cons_of_mem _ hmem)

namespace Holds

variable {us : List (Use D)} {held : Option D} {d : D}

theorem openAfter_eq (h : Holds us held) : openAfter us = held.toList := by
  induction h with
  | nil => rfl
  | opened _ _ ih =>
    rw [openAfter_concat, ih]
    rfl
  | used _ ih => rw [openAfter_concat, ih, Use.apply]
  | closed _ ih =>
    rw [openAfter_concat, ih]
    exact List.erase_cons_head ..

/-- What was opened was closed, but for what is held. -/
theorem count_closed (h : Holds us held) (d : D) :
    us.count (.closed d) + (if held = some d then 1 else 0) = us.count (.opened d) ∧
      us.count (.opened d) ≤ 1 := by
  induction h with
  | nil => simp
  | @opened us d' _ hnew ih =>
    have hopened : d' = d → us.count (.opened d) = 0 := by
      rintro rfl
      exact List.count_eq_zero.mpr fun hmem => hnew _ hmem rfl
    by_cases hd : d' = d
    · have hzero := hopened hd
      subst hd
      simp only [List.count_append, List.count_singleton, reduceCtorEq, ite_true, ite_false,
        beq_iff_eq] at ih ⊢
      omega
    · simp [List.count_append, hd] at ih ⊢
      exact ih
  | used _ ih => simpa [List.count_append, List.count_singleton] using ih
  | @closed us d' _ ih =>
    by_cases hd : d' = d
    · simpa [List.count_append, List.count_singleton, hd] using ih
    · simpa [List.count_append, List.count_singleton, hd] using ih

theorem closed_not_mem (h : Holds us (some d)) : .closed d ∉ us := by
  obtain ⟨hcount, hle⟩ := h.count_closed d
  rw [if_pos rfl] at hcount
  exact List.count_eq_zero.mp (by omega)

theorem opened_mem (h : Holds us (some d)) : .opened d ∈ us := by
  obtain ⟨hcount, -⟩ := h.count_closed d
  rw [if_pos rfl] at hcount
  exact List.count_pos_iff.mp (by omega)

/-- The holder is disciplined once it has let go of everything. -/
theorem disciplined (h : Holds us none) : Disciplined us where
  atMostOne us' hpre := by
    obtain ⟨held', h'⟩ := h.of_initial hpre
    rw [h'.openAfter_eq]
    cases held' <;> simp
  closedOnce before d after hus := by
    have hpre : before ++ [.opened d] <+: us := ⟨after, by simp [hus]⟩
    obtain ⟨_, hopened⟩ := h.of_initial hpre
    have hbefore : .closed d ∉ before := fun hmem => hopened.fresh_of_opened _ hmem rfl
    refine ⟨hbefore, ?_⟩
    -- it is closed as often as it is opened, which is once
    obtain ⟨hcount, hle⟩ := h.count_closed d
    have hnone := List.count_eq_zero.mpr hbefore
    simp only [hus, List.count_append, List.count_cons, reduceCtorEq, beq_iff_eq, ite_false,
      ite_true, beq_self_eq_true] at hcount hle
    omega
  notAfter before d after hus := by
    have hpre : before ++ [.used d] <+: us := ⟨after, by simp [hus]⟩
    obtain ⟨_, hused⟩ := h.of_initial hpre
    exact hused.of_used.closed_not_mem

end Holds

end Ownership
