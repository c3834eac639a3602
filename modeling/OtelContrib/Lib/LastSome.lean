/-
The last element of a list that has a value.

Of assignments made one after the other it is the one that counts, and of settings in nested
scopes, the outermost scope first, the one that is inherited.

* `foldlM_getD`, `foldlM_or` — what a run leaves in a field that some of its steps write;
* `foldl_inherit` — scopes that are merged one after the other, each with what is around it,
  come to the last value, and to a default without one;
* `find?_of_imp` — where the innermost scope of a kind is also the innermost of a narrower kind.
-/
import Mathlib.Data.List.Induction

namespace LastSome

variable {α β : Type}

def lastSome (f : α → Option β) (l : List α) : Option β := l.reverse.findSome? f

theorem lastSome_concat (f : α → Option β) (l : List α) (a : α) :
    lastSome f (l ++ [a]) = (f a).or (lastSome f l) := by
  rw [lastSome, List.reverse_append, List.reverse_singleton, List.singleton_append,
    List.findSome?_cons]
  cases f a with
  | none => rfl
  | some b => rfl

theorem lastSome_eq_none_iff {f : α → Option β} {l : List α} :
    lastSome f l = none ↔ ∀ a ∈ l, f a = none := by
  simp [lastSome, List.findSome?_eq_none_iff]

theorem lastSome_filterMap {γ : Type} (f : α → Option β) (g : γ → Option α) (l : List γ) :
    lastSome f (l.filterMap g) = lastSome (fun c => (g c).bind f) l := by
  rw [lastSome, lastSome, ← List.getLast?_filterMap, ← List.getLast?_filterMap,
    List.filterMap_filterMap]

theorem lastSome_map {γ : Type} (f : α → Option β) (g : γ → α) (l : List γ) :
    lastSome f (l.map g) = lastSome (fun c => f (g c)) l := by
  rw [lastSome, lastSome, ← List.map_reverse, List.findSome?_map]
  rfl

theorem foldl_filterMap (f : α → Option β) (l : List α) (b : β) :
    (l.filterMap f).foldl (fun _ b => b) b = (lastSome f l).getD b := by
  induction l using List.reverseRecOn with
  | nil => rfl
  | append_singleton l a ih =>
    rw [List.filterMap_append, List.foldl_append, ih, lastSome_concat]
    cases h : f a <;> simp [h]

section

variable {σ γ : Type} {step : σ → α → Option σ} {f : α → Option β} {l : List α} {s s' : σ}

/-- The steps of a run that write a field write it one after the other. -/
theorem foldlM_foldl {get : σ → γ} {write : γ → β → γ}
    (hstep : ∀ s a s', step s a = some s' → get s' = (f a).toList.foldl write (get s))
    (h : l.foldlM step s = some s') : get s' = (l.filterMap f).foldl write (get s) := by
  induction l using List.reverseRecOn generalizing s' with
  | nil =>
    obtain rfl := Option.some.inj h
    rfl
  | append_singleton l a ih =>
    rw [List.foldlM_append, Option.bind_eq_bind, Option.bind_eq_some_iff] at h
    obtain ⟨between, hbefore, hlast⟩ := h
    rw [List.foldlM_cons, Option.bind_eq_bind, Option.bind_eq_some_iff] at hlast
    obtain ⟨after, hlast, hafter⟩ := hlast
    obtain rfl := Option.some.inj hafter
    rw [hstep between a _ hlast, ih hbefore, List.filterMap_append, List.foldl_append]
    cases hf : f a <;> simp [hf]

/-- A field has the last value that a step gives it. -/
theorem foldlM_getD {get : σ → β}
    (hstep : ∀ s a s', step s a = some s' → get s' = (f a).getD (get s))
    (h : l.foldlM step s = some s') : get s' = (lastSome f l).getD (get s) := by
  rw [← foldl_filterMap]
  refine foldlM_foldl (fun s a s' hs => ?_) h
  rw [hstep s a s' hs]
  cases f a with
  | none => rfl
  | some b => rfl

/-- A field that is not set at first has the last value that a step gives it, if one does. -/
theorem foldlM_or {get : σ → Option β}
    (hstep : ∀ s a s', step s a = some s' → get s' = (f a).or (get s))
    (h : l.foldlM step s = some s') (hs : get s = none) : get s' = lastSome f l := by
  have hset : get s' = (lastSome (fun a => (f a).map some) l).getD (get s) := by
    refine foldlM_getD (fun s a s' hs => ?_) h
    rw [hstep s a s' hs]
    cases f a with
    | none => rfl
    | some b => rfl
  have hmap : lastSome (fun a => (f a).map some) l = (lastSome f l).map some :=
    List.map_findSome?.symm
  rw [hset, hmap, hs]
  cases lastSome f l with
  | none => rfl
  | some b => rfl

end

/-- A scope that has no value has the value around it, and the default if there is none. -/
def inherit (default : β) (prev conf : Option β) : Option β := some (conf.getD (prev.getD default))

theorem foldl_inherit (f : α → Option β) (default : β) (outermost : α) {scopes : List α}
    (h : scopes ≠ []) :
    scopes.foldl (fun prev a => inherit default prev (f a)) (f outermost) =
      some ((lastSome f (outermost :: scopes)).getD default) := by
  induction scopes using List.reverseRecOn with
  | nil => exact absurd rfl h
  | append_singleton scopes a ih =>
    rw [List.foldl_append, List.foldl_cons, List.foldl_nil, ← List.cons_append, lastSome_concat]
    rcases eq_or_ne scopes [] with rfl | hscopes
    · simp only [inherit, List.foldl_nil, lastSome, List.reverse_singleton, List.findSome?_cons,
        List.findSome?_nil]
      cases f a <;> cases f outermost <;> rfl
    · rw [ih hscopes, inherit, Option.getD_some]
      cases f a with
      | none => rw [Option.none_or, Option.getD_none]
      | some b => rw [Option.some_or, Option.getD_some, Option.getD_some]

theorem lastSome_of_find? {f : α → Option β} {l : List α} {a : α}
    (h : l.reverse.find? (fun a => (f a).isSome) = some a) : lastSome f l = f a := by
  obtain ⟨ha, before, after, hl, hbefore⟩ := List.find?_eq_some_iff_append.mp h
  have hnone : before.findSome? f = none := by
    rw [List.findSome?_eq_none_iff]
    intro b hb
    simpa using hbefore b hb
  rw [lastSome, hl, List.findSome?_append, hnone, Option.none_or, List.findSome?_cons]
  obtain ⟨b, hb⟩ := Option.isSome_iff_exists.mp ha
  rw [hb]

/-- The scopes have some values that are lists; the empty one stands for none. -/
theorem foldl_nonempty {merge : List β → List β → List β} (hnil : ∀ prev, merge prev [] = prev)
    (hne : ∀ prev conf, conf ≠ [] → merge prev conf = conf) (f : α → List β) (init : List β)
    (l : List α) :
    l.foldl (fun prev a => merge prev (f a)) init =
      ((l.reverse.find? fun a => !(f a).isEmpty).map f).getD init := by
  induction l using List.reverseRecOn with
  | nil => rfl
  | append_singleton l a ih =>
    rw [List.foldl_append, List.reverse_append, List.reverse_singleton, List.singleton_append,
      List.find?_cons, ih]
    rcases h : f a with _ | ⟨b, bs⟩
    · simp [h, hnil]
    · simp [h, hne]

theorem find?_of_imp {p q : α → Bool} {l : List α} {a : α} (h : l.find? p = some a)
    (hqp : ∀ a, q a = true → p a = true) (hq : q a = true) : l.find? q = some a := by
  obtain ⟨-, before, after, rfl, hbefore⟩ := List.find?_eq_some_iff_append.mp h
  refine List.find?_eq_some_iff_append.mpr ⟨hq, before, after, rfl, fun b hb => ?_⟩
  have hnot := hbefore b hb
  simp only [Bool.not_eq_eq_eq_not, Bool.not_true] at hnot ⊢
  exact Bool.eq_false_iff.mpr fun hqb => Bool.eq_false_iff.mp hnot (hqp b hqb)

end LastSome
