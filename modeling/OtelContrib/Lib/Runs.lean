/-
Runs of a system that takes one call after another.

A step is a partial function: it is undefined where the caller broke its contract.
A run records every transition it made.

* `Run.invariant` — what every step keeps holds after every run;
* `Run.reached` — every transition of a run was made from the state that the run
  before it reached;
* `Run.stable` — what one transition established and every step keeps still holds;
* `Run.forall_iff` — a property of transitions that is equivalent to a condition
  on each of them, in every reachable state, is equivalent to it on whole runs;
* `Run.related` — what two systems keep between them call by call holds after runs of the
  same calls;
* `Run.ofCalls_iff` — calls that do right exactly as far as an abstract machine goes on
  are all right exactly when it accepts them;
* `Run.foldl_good_iff` — where steps are always defined and a bad one leads to a bad state,
  all states are good exactly when all steps are.
-/
import Mathlib.Data.List.Basic
import Mathlib.Data.List.Induction

/-- One step of a run. -/
structure Transition (σ α β : Type) where
  before : σ
  call : α
  outcome : β
  after : σ

variable {σ α β : Type}

/-- The transitions of a run from `init`, oldest first, and the state it ends in. -/
inductive Run (step : σ → α → Option (β × σ)) (init : σ) : List (Transition σ α β) → σ → Prop
  | nil : Run step init [] init
  | snoc {ts : List (Transition σ α β)} {s s' : σ} {a : α} {b : β} (hrun : Run step init ts s)
    (hstep : step s a = some (b, s')) : Run step init (ts ++ [⟨s, a, b, s'⟩]) s'

namespace Run

variable {step : σ → α → Option (β × σ)} {init : σ} {ts : List (Transition σ α β)} {s : σ}

/-- What holds initially and is kept by every step holds after every run. -/
theorem invariant (I : List (Transition σ α β) → σ → Prop) (hinit : I [] init)
    (hkeep : ∀ ts s a b s', I ts s → step s a = some (b, s') → I (ts ++ [⟨s, a, b, s'⟩]) s')
    (h : Run step init ts s) : I ts s := by
  induction h with
  | nil => exact hinit
  | snoc _ hstep ih => exact hkeep _ _ _ _ _ ih hstep

/-- A run can be continued by another one from where it ended. -/
theorem append {ts' : List (Transition σ α β)} {s' : σ} (h : Run step init ts s)
    (h' : Run step s ts' s') : Run step init (ts ++ ts') s' := by
  induction h' with
  | nil => rwa [List.append_nil]
  | snoc _ hstep ih =>
    rw [← List.append_assoc]
    exact ih.snoc hstep

theorem single {a : α} {b : β} {s' : σ} (hstep : step s a = some (b, s')) :
    Run step s [⟨s, a, b, s'⟩] s' :=
  Run.nil.snoc hstep

/-- A run up to one of its transitions is a run, and the transition is a step from
the state it reached. -/
theorem reached (h : Run step init ts s) {before after : List (Transition σ α β)}
    {t : Transition σ α β} (hts : ts = before ++ t :: after) :
    Run step init before t.before ∧ step t.before t.call = some (t.outcome, t.after) := by
  induction h generalizing after with
  | nil => simp at hts
  | @snoc ts s s' a b hrun hstep ih =>
    rcases List.eq_nil_or_concat after with rfl | ⟨after, last, rfl⟩
    · obtain ⟨rfl, hlast⟩ := List.append_inj' hts rfl
      obtain rfl := (List.cons.injEq _ _ _ _ ▸ hlast).1
      exact ⟨hrun, hstep⟩
    · rw [List.concat_eq_append, ← List.cons_append, ← List.append_assoc] at hts
      exact ih (List.append_inj' hts rfl).1

/-- What holds after one of the transitions and is kept by every step holds at the end. -/
theorem stable {P : σ → Prop} (hkeep : ∀ s a b s', P s → step s a = some (b, s') → P s')
    (h : Run step init ts s) {before after : List (Transition σ α β)} {t : Transition σ α β}
    (hts : ts = before ++ t :: after) (hP : P t.after) : P s := by
  induction h generalizing after with
  | nil => simp at hts
  | @snoc ts s s' a b hrun hstep ih =>
    rcases List.eq_nil_or_concat after with rfl | ⟨after, last, rfl⟩
    · obtain ⟨-, hlast⟩ := List.append_inj' hts rfl
      obtain rfl := (List.cons.injEq _ _ _ _ ▸ hlast).1
      exact hP
    · rw [List.concat_eq_append, ← List.cons_append, ← List.append_assoc] at hts
      exact hkeep s a b s' (ih (List.append_inj' hts rfl).1) hstep

/-- All transitions are right exactly when all meet a condition that, in a reachable
state, says whether a transition is right. -/
theorem forall_iff {I : List (Transition σ α β) → σ → Prop}
    {Right Condition : Transition σ α β → Prop} (hinit : I [] init)
    (hkeep : ∀ ts s a b s', I ts s → step s a = some (b, s') → I (ts ++ [⟨s, a, b, s'⟩]) s')
    (hiff : ∀ ts t, I ts t.before → step t.before t.call = some (t.outcome, t.after) →
      (Right t ↔ Condition t))
    (h : Run step init ts s) : (∀ t ∈ ts, Right t) ↔ ∀ t ∈ ts, Condition t := by
  refine forall₂_congr fun t ht => ?_
  obtain ⟨before, after, hts⟩ := List.append_of_mem ht
  obtain ⟨hbefore, hstep⟩ := h.reached hts
  exact hiff before t (hbefore.invariant I hinit hkeep) hstep

/-- Two systems that are given the same calls stay related if each call keeps them so. -/
theorem related {σ' β' : Type} {step' : σ' → α → Option (β' × σ')} {init' : σ'}
    {R : σ → σ' → Prop} {Right : Transition σ α β → Prop} (hinit : R init init')
    (hkeep : ∀ s s' a b t b' t', R s s' → step s a = some (b, t) → step' s' a = some (b', t') →
      Right ⟨s, a, b, t⟩ → R t t')
    (h : Run step init ts s) {ts' : List (Transition σ' α β')} {s' : σ'}
    (h' : Run step' init' ts' s') (hcalls : ts.map Transition.call = ts'.map Transition.call)
    (hright : ∀ t ∈ ts, Right t) : R s s' := by
  induction h generalizing ts' s' with
  | nil =>
    obtain rfl := List.map_eq_nil_iff.mp hcalls.symm
    generalize hts : ([] : List (Transition σ' α β')) = ts' at h'
    cases h' with
    | nil => exact hinit
    | snoc _ _ => simp at hts
  | @snoc ts s t a b hrun hstep ih =>
    cases h' with
    | nil => simp at hcalls
    | snoc hrun' hstep' =>
      rw [List.map_append, List.map_append] at hcalls
      obtain ⟨hbefore, hlast⟩ := List.append_inj' hcalls rfl
      cases hlast
      exact hkeep _ _ _ _ _ _ _
        (ih hrun' hbefore fun t ht => hright t (List.mem_append_left _ ht)) hstep hstep'
        (hright _ (List.mem_append_right _ List.mem_cons_self))

/-- The run of a list of calls, if all of them are defined. -/
def ofCalls (step : σ → α → Option (β × σ)) (s : σ) :
    List α → Option (List (Transition σ α β) × σ)
  | [] => some ([], s)
  | a :: calls =>
    match step s a with
    | none => none
    | some (b, s') => (ofCalls step s' calls).map fun r => (⟨s, a, b, s'⟩ :: r.1, r.2)

theorem ofCalls_cons {a : α} {b : β} {s' : σ} {calls : List α} {r : List (Transition σ α β) × σ}
    (hstep : step s a = some (b, s')) (hcalls : ofCalls step s' calls = some r) :
    ofCalls step s (a :: calls) = some (⟨s, a, b, s'⟩ :: r.1, r.2) := by
  rw [ofCalls, hstep]
  exact congrArg (Option.map _) hcalls

theorem append_ofCalls (h : Run step init ts s) {calls : List α} {r : List (Transition σ α β) × σ}
    (hcalls : ofCalls step s calls = some r) : Run step init (ts ++ r.1) r.2 := by
  induction calls generalizing ts s r with
  | nil =>
    obtain rfl := Option.some.inj hcalls
    rwa [List.append_nil]
  | cons a calls ih =>
    rw [ofCalls] at hcalls
    rcases hstep : step s a with _ | ⟨b, s'⟩
    · simp [hstep] at hcalls
    · rw [hstep] at hcalls
      obtain ⟨r', hr', rfl⟩ := Option.map_eq_some_iff.mp hcalls
      have hrest := ih (h.snoc hstep) hr'
      rwa [List.append_assoc] at hrest

/-- Calls that are all defined make a run. -/
theorem of_ofCalls {calls : List α} {r : List (Transition σ α β) × σ}
    (hcalls : ofCalls step init calls = some r) : Run step init r.1 r.2 := by
  have h := append_ofCalls Run.nil hcalls
  rwa [List.nil_append] at h

theorem calls_ofCalls {calls : List α} {r : List (Transition σ α β) × σ}
    (hcalls : ofCalls step s calls = some r) : r.1.map Transition.call = calls := by
  induction calls generalizing s r with
  | nil =>
    obtain rfl := Option.some.inj hcalls
    rfl
  | cons a calls ih =>
    rw [ofCalls] at hcalls
    rcases hstep : step s a with _ | ⟨b, s'⟩
    · simp [hstep] at hcalls
    · rw [hstep] at hcalls
      obtain ⟨r', hr', rfl⟩ := Option.map_eq_some_iff.mp hcalls
      exact congrArg (a :: ·) (ih hr')

/-- Calls whose run was checked. -/
theorem exists_of_any {calls : List α} {p : List (Transition σ α β) × σ → Bool}
    (h : (ofCalls step init calls).any p = true) :
    ∃ ts s, Run step init ts s ∧ p (ts, s) = true := by
  obtain ⟨r, hr, hp⟩ := (Option.any_eq_true _ _).mp h
  exact ⟨r.1, r.2, of_ofCalls hr, hp⟩

/-- `At` relates a system to the stage of a machine, with the calls still to come.  The
calls are all defined and right, and end well, exactly when the machine accepts them. -/
theorem ofCalls_iff {γ : Type} {next : γ → α → Option γ} {At : List α → γ → σ → Prop}
    {Right : Transition σ α β → Prop} {EndsWell : σ → Prop} {Accepting : γ → Prop}
    (hgoes : ∀ a calls g g' s, At (a :: calls) g s → next g a = some g' →
      ∃ b s', step s a = some (b, s') ∧ Right ⟨s, a, b, s'⟩ ∧ At calls g' s')
    (hsticks : ∀ a calls g s b s', At (a :: calls) g s → next g a = none →
      step s a = some (b, s') → ¬ Right ⟨s, a, b, s'⟩)
    (hends : ∀ g s, At [] g s → (EndsWell s ↔ Accepting g))
    {calls : List α} {g : γ} (h : At calls g s) :
    (∃ r, ofCalls step s calls = some r ∧ (∀ t ∈ r.1, Right t) ∧ EndsWell r.2) ↔
      ∃ g', calls.foldlM next g = some g' ∧ Accepting g' := by
  induction calls generalizing g s with
  | nil =>
    constructor
    · rintro ⟨r, hr, -, hend⟩
      obtain rfl := Option.some.inj hr
      exact ⟨g, rfl, (hends g s h).mp hend⟩
    · rintro ⟨g', hg', haccepting⟩
      obtain rfl := Option.some.inj hg'
      exact ⟨([], s), rfl, fun t ht => (List.not_mem_nil ht).elim, (hends g s h).mpr haccepting⟩
  | cons a calls ih =>
    rw [List.foldlM_cons, ofCalls]
    cases hnext : next g a with
    | none =>
      refine ⟨?_, fun ⟨g', hg', _⟩ => by cases hg'⟩
      rintro ⟨r, hr, hright, -⟩
      rcases hstep : step s a with _ | ⟨b, s'⟩
      · rw [hstep] at hr
        cases hr
      · rw [hstep] at hr
        obtain ⟨r', -, rfl⟩ := Option.map_eq_some_iff.mp hr
        exact (hsticks a calls g s b s' h hnext hstep (hright _ List.mem_cons_self)).elim
    | some g₁ =>
      obtain ⟨b, s', hstep, hright, h'⟩ := hgoes a calls g g₁ s h hnext
      rw [hstep]
      refine Iff.trans ⟨?_, ?_⟩ (ih h')
      · rintro ⟨r, hr, hall, hend⟩
        obtain ⟨r', hr', rfl⟩ := Option.map_eq_some_iff.mp hr
        exact ⟨r', hr', fun t ht => hall t (List.mem_cons_of_mem _ ht), hend⟩
      · rintro ⟨r', hr', hall, hend⟩
        refine ⟨_, Option.map_eq_some_iff.mpr ⟨r', hr', rfl⟩, fun t ht => ?_, hend⟩
        rcases List.mem_cons.mp ht with rfl | ht
        · exact hright
        · exact hall t ht

/-- Steps that do the same for every call of a list do the same for the list. -/
theorem foldlM_congr {σ α : Type} {f g : σ → α → Option σ} {as : List α}
    (h : ∀ a ∈ as, ∀ s, f s a = g s a) (s : σ) : as.foldlM f s = as.foldlM g s := by
  induction as generalizing s with
  | nil => rfl
  | cons a as ih =>
    have hrest := ih fun a' ha' => h a' (List.mem_cons_of_mem a ha')
    rw [List.foldlM_cons, List.foldlM_cons, h a List.mem_cons_self s]
    exact bind_congr hrest

/-! ### Steps that are always defined -/

section

variable {σ α : Type} {f : σ → α → σ} {init : σ} {Inv Good : σ → Prop} {Ok : σ → α → Prop}
  {as : List α}

/-- What good steps keep holds as long as every step is good. -/
theorem foldl_inv_of_ok (hinit : Inv init) (hkeep : ∀ s a, Inv s → Ok s a → Inv (f s a))
    (hok : ∀ pre a, pre ++ [a] <+: as → Ok (pre.foldl f init) a) (pre : List α)
    (hpre : pre <+: as) : Inv (pre.foldl f init) := by
  induction pre using List.reverseRecOn with
  | nil => exact hinit
  | append_singleton pre a ih =>
    rw [List.foldl_append]
    exact hkeep _ a (ih ((List.prefix_append pre [a]).trans hpre)) (hok pre a hpre)

/-- Where a bad step leads to a bad state, all states are good exactly when all steps are. -/
theorem foldl_good_iff (hinit : Inv init) (hgood : ∀ s, Inv s → Good s)
    (hkeep : ∀ s a, Inv s → Ok s a → Inv (f s a))
    (hbad : ∀ s a, Inv s → Good (f s a) → Ok s a) :
    (∀ pre, pre <+: as → Good (pre.foldl f init)) ↔
      ∀ pre a, pre ++ [a] <+: as → Ok (pre.foldl f init) a := by
  constructor
  · intro hall
    have hstep : ∀ pre a, pre ++ [a] <+: as → Inv (pre.foldl f init) →
        Ok (pre.foldl f init) a := by
      intro pre a hpre hinv
      have hlast := hall (pre ++ [a]) hpre
      rw [List.foldl_append] at hlast
      exact hbad _ a hinv hlast
    have hinv : ∀ pre, pre <+: as → Inv (pre.foldl f init) := by
      intro pre hpre
      induction pre using List.reverseRecOn with
      | nil => exact hinit
      | append_singleton pre a ih =>
        have hbefore := ih ((List.prefix_append pre [a]).trans hpre)
        rw [List.foldl_append]
        exact hkeep _ a hbefore (hstep pre a hpre hbefore)
    exact fun pre a hpre => hstep pre a hpre (hinv pre ((List.prefix_append pre [a]).trans hpre))
  · exact fun hok pre hpre => hgood _ (foldl_inv_of_ok hinit hkeep hok pre hpre)

end

end Run
