/-
Assignments to keys that are made one after the other.

* `lastValue_append` — later assignments win;
* `lastValue_append_comm` — assignments to different keys can be made in any order;
* `lastValue_perm` — and so can assignments to distinct keys;
* `find?_foldl_insert` — a map that takes one assignment after the other keeps the last values.
-/
import OtelContrib.Lib.OrderedMap
import Mathlib.Data.List.Induction
import Mathlib.Data.List.Perm.Basic

namespace LastWins

variable {κ ν : Type} [DecidableEq κ]

/-- The value that the last assignment to a key gives it. -/
def lastValue (assignments : List (κ × ν)) (key : κ) : Option ν :=
  (assignments.filterMap fun a => if a.1 = key then some a.2 else none).getLast?

theorem lastValue_append (xs ys : List (κ × ν)) (key : κ) :
    lastValue (xs ++ ys) key = (lastValue ys key).or (lastValue xs key) := by
  rw [lastValue, lastValue, lastValue, List.filterMap_append, List.getLast?_append]

theorem lastValue_singleton (a : κ × ν) (key : κ) :
    lastValue [a] key = if a.1 = key then some a.2 else none := by
  rw [lastValue, List.filterMap_cons, List.filterMap_nil]
  split_ifs <;> rfl

theorem lastValue_eq_none_iff {xs : List (κ × ν)} {key : κ} :
    lastValue xs key = none ↔ key ∉ xs.map Prod.fst := by
  rw [lastValue, List.getLast?_eq_none_iff, List.filterMap_eq_nil_iff]
  constructor
  · intro h hmem
    obtain ⟨a, ha, rfl⟩ := List.mem_map.mp hmem
    have hnone := h a ha
    rw [if_pos rfl] at hnone
    cases hnone
  · intro h a ha
    exact if_neg fun (heq : a.1 = key) => h (heq ▸ List.mem_map_of_mem ha)

/-- The last assignment to a key is a place behind which there is none. -/
theorem lastValue_eq_some_iff {xs : List (κ × ν)} {key : κ} {v : ν} :
    lastValue xs key = some v ↔
      ∃ pre post, xs = pre ++ (key, v) :: post ∧ key ∉ post.map Prod.fst := by
  constructor
  · intro h
    induction xs using List.reverseRecOn with
    | nil => cases h
    | append_singleton xs a ih =>
      rw [lastValue_append, lastValue_singleton] at h
      by_cases hkey : a.1 = key
      · rw [if_pos hkey] at h
        obtain rfl := Option.some.inj h
        exact ⟨xs, [], by rw [← hkey], List.not_mem_nil⟩
      · rw [if_neg hkey, Option.none_or] at h
        obtain ⟨pre, post, rfl, hpost⟩ := ih h
        refine ⟨pre, post ++ [a], by rw [List.append_assoc, List.cons_append], ?_⟩
        rw [List.map_append, List.mem_append, not_or]
        exact ⟨hpost, fun hmem => hkey (List.mem_singleton.mp hmem).symm⟩
  · rintro ⟨pre, post, rfl, hpost⟩
    rw [← List.singleton_append, lastValue_append, lastValue_append, lastValue_singleton,
      if_pos rfl, lastValue_eq_none_iff.mpr hpost, Option.none_or, Option.some_or]

theorem lastValue_append_comm {xs ys : List (κ × ν)}
    (h : ∀ x ∈ xs, ∀ y ∈ ys, x.1 ≠ y.1) (key : κ) :
    lastValue (xs ++ ys) key = lastValue (ys ++ xs) key := by
  rw [lastValue_append, lastValue_append]
  by_cases hkey : key ∈ xs.map Prod.fst
  · obtain ⟨x, hx, rfl⟩ := List.mem_map.mp hkey
    have hys : lastValue ys x.1 = none := by
      refine lastValue_eq_none_iff.mpr fun hmem => ?_
      obtain ⟨y, hy, heq⟩ := List.mem_map.mp hmem
      exact h x hx y hy heq.symm
    rw [hys, Option.none_or, Option.or_none]
  · rw [lastValue_eq_none_iff.mpr hkey, Option.none_or, Option.or_none]

/-- The same between other assignments. -/
theorem lastValue_swap {xs ys : List (κ × ν)} (h : ∀ x ∈ xs, ∀ y ∈ ys, x.1 ≠ y.1)
    (pre post : List (κ × ν)) (key : κ) :
    lastValue (pre ++ xs ++ ys ++ post) key = lastValue (pre ++ ys ++ xs ++ post) key := by
  rw [List.append_assoc pre xs, List.append_assoc pre ys, lastValue_append _ post,
    lastValue_append _ post, lastValue_append pre, lastValue_append pre, lastValue_append_comm h]

/-- Among distinct keys each assignment is the last one. -/
theorem lastValue_of_mem {xs : List (κ × ν)} (hnodup : (xs.map Prod.fst).Nodup) {a : κ × ν}
    (ha : a ∈ xs) : lastValue xs a.1 = some a.2 := by
  obtain ⟨pre, post, rfl⟩ := List.append_of_mem ha
  rw [List.map_append, List.map_cons] at hnodup
  refine lastValue_eq_some_iff.mpr ⟨pre, post, rfl, ?_⟩
  exact (List.nodup_cons.mp (List.nodup_append.mp hnodup).2.1).1

theorem lastValue_perm {xs ys : List (κ × ν)} (h : xs.Perm ys)
    (hnodup : (xs.map Prod.fst).Nodup) (key : κ) : lastValue xs key = lastValue ys key := by
  by_cases hkey : key ∈ xs.map Prod.fst
  · obtain ⟨a, ha, rfl⟩ := List.mem_map.mp hkey
    rw [lastValue_of_mem hnodup ha,
      lastValue_of_mem ((h.map Prod.fst).nodup_iff.mp hnodup) (h.subset ha)]
  · rw [lastValue_eq_none_iff.mpr hkey,
      lastValue_eq_none_iff.mpr fun hmem => hkey ((h.map Prod.fst).symm.subset hmem)]

/-- Assignments to keys that are told apart by what they are renamed to. -/
theorem lastValue_map {κ' ν' : Type} [DecidableEq κ'] {f : κ → κ'} (hf : f.Injective) (g : ν → ν')
    (xs : List (κ × ν)) (key : κ) :
    lastValue (xs.map fun a => (f a.1, g a.2)) (f key) = (lastValue xs key).map g := by
  rw [lastValue, lastValue, ← List.getLast?_map, List.filterMap_map, List.map_filterMap]
  refine congrArg List.getLast? (List.filterMap_congr fun a _ => ?_)
  show (if f a.1 = f key then some (g a.2) else none) = _
  by_cases hkey : a.1 = key
  · rw [if_pos hkey, if_pos (congrArg f hkey)]
    rfl
  · rw [if_neg hkey, if_neg fun h => hkey (hf h)]
    rfl

/-! ### Maps -/

section

variable [LT κ] [DecidableLT κ] [Trans (α := κ) (· < ·) (· < ·) (· < ·)]
  [Std.Trichotomous fun a b : κ => a < b] [Std.Asymm fun a b : κ => a < b]

theorem find?_foldl_insert (m : OrderedMap κ ν) (xs : List (κ × ν)) (key : κ) :
    (xs.foldl (fun m x => m.insert x.1 x.2) m).find? key = (lastValue xs key).or (m.find? key) := by
  induction xs using List.reverseRecOn with
  | nil => rfl
  | append_singleton xs x ih =>
    rw [List.foldl_append, lastValue_append, lastValue_singleton]
    by_cases hkey : x.1 = key
    · rw [if_pos hkey, ← hkey]
      exact OrderedMap.find?_insert_self _ _ _
    · rw [if_neg hkey, Option.none_or, ← ih]
      exact OrderedMap.find?_insert_of_ne _ hkey _

/-- The entries of a map are assignments of what is in it. -/
theorem find?_eq_lastValue (m : OrderedMap κ ν) (key : κ) :
    m.find? key = lastValue m.entries key := by
  have hentries := find?_foldl_insert ∅ m.entries key
  rw [OrderedMap.foldl_insert_entries] at hentries
  exact hentries.trans (Option.or_none ..)

end

end LastWins
