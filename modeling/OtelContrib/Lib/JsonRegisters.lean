/-
Objects whose members are assigned one after the other, some of them objects themselves.

A place is a member, or a member of a member that is an object.  An object that is only
assigned to is a set of registers, each of which holds what was last assigned to it.

* `OrderedMap.eq_of_find?` — maps in which the same is found are equal;
* `registers_updateAll` — assignments never fail, and the last one to a place wins;
* `Registers.members_eq` — registers with the same last values are the same object.
-/
import OtelContrib.Lib.Json
import OtelContrib.Lib.LastWins
import Mathlib.Data.List.Perm.Basic

open LastWins (lastValue lastValue_append lastValue_singleton)

/-! ### Equal maps -/

namespace OrderedMap

section

variable {κ ν : Type} [LT κ] [DecidableEq κ]

theorem mem_keys_iff {m : OrderedMap κ ν} {k : κ} : k ∈ m.keys ↔ (m.find? k).isSome := by
  rw [← not_iff_not, keys, ← lookup_eq_none, find?, Option.not_isSome_iff_eq_none]

/-- Maps in which the same is found are equal. -/
theorem eq_of_find? [Std.Asymm fun a b : κ => a < b] [Std.Irrefl fun a b : κ => a < b]
    {m m' : OrderedMap κ ν} (h : ∀ k, m.find? k = m'.find? k) : m = m' := by
  have hperm : m.keys.Perm m'.keys := by
    refine (List.perm_ext_iff_of_nodup m.keys_nodup m'.keys_nodup).mpr fun k => ?_
    rw [mem_keys_iff, mem_keys_iff, h]
  have hkeys : m.keys = m'.keys := by
    have hle : m.keys.Pairwise (· < ·) := List.pairwise_map.mpr m.sorted
    refine hperm.eq_of_pairwise ?_ hle (List.pairwise_map.mpr m'.sorted)
    intro a b _ _ hab hba
    exact absurd hba (Std.Asymm.asymm (r := fun a b : κ => a < b) a b hab)
  refine OrderedMap.ext ?_
  cases hentries : m.entries with
  | nil =>
    rw [keys, hentries] at hkeys
    exact (List.map_eq_nil_iff.mp hkeys.symm).symm
  | cons kv entries =>
    rw [← hentries, m.entries_eq_map_keys kv.2, m'.entries_eq_map_keys kv.2, hkeys]
    exact List.map_congr_left fun k _ => by rw [h]

end

end OrderedMap

namespace Json

/-! ### Places -/

/-- A member of an object, or a member of a member. -/
inductive Place
  | field (k : Bytes)
  | member (k k' : Bytes)
  deriving DecidableEq

/-- The assignment of a value to a place. -/
def Place.update (v : Json) : Place → Bytes × (Json → Option Json)
  | .field k => (k, fun _ => some v)
  | .member k k' => (k, fun inner => inner.set k' v)

/-- A place, with the fields that are objects. -/
def Place.Fits (objects : List Bytes) : Place → Prop
  | .field k => k ∉ objects
  | .member k _ => k ∈ objects

/-- The assignments of values to places, as they are made. -/
def updates (writes : List (Place × Json)) : List (Bytes × (Json → Option Json)) :=
  writes.map fun w => w.1.update w.2

/-- What is at a place. -/
def at? (j : Json) : Place → Option Json
  | .field k => j.member? k
  | .member k k' => (j.member? k).bind (·.member? k')

/-- An object in which every place holds what was last assigned to it.  An object that nothing
was assigned to is not there. -/
structure Registers (objects : List Bytes) (j : Json) (writes : List (Place × Json)) : Prop where
  holds : ∃ m : OrderedMap Bytes Json, j.members? = some m.entries ∧
    (∀ k ∉ objects, m.find? k = lastValue writes (.field k)) ∧
    ∀ k ∈ objects, ∃ inner : OrderedMap Bytes Json,
      (∀ k', inner.find? k' = lastValue writes (.member k k')) ∧
      m.find? k = if inner.entries.isEmpty then none else some (object inner.entries)

variable {objects : List Bytes} {j j' : Json} {writes writes' : List (Place × Json)}

theorem registers_null : Registers objects null [] where
  holds := ⟨∅, rfl, fun _ _ => rfl, fun _ _ => ⟨∅, fun _ => rfl, rfl⟩⟩

theorem isEmpty_insert (m : OrderedMap Bytes Json) (k : Bytes) (v : Json) :
    (m.insert k v).entries.isEmpty = false := by
  have hfind : (m.insert k v).find? k = some v := OrderedMap.find?_insert_self ..
  rw [List.isEmpty_eq_false_iff]
  intro hnil
  rw [OrderedMap.find?, hnil] at hfind
  cases hfind

/-- An inner object is found where something was assigned to it, and else null is. -/
theorem members_inner {inner : OrderedMap Bytes Json} :
    ((if inner.entries.isEmpty then none else some (object inner.entries)).getD null).members? =
      some inner.entries := by
  split
  next hempty => rw [List.isEmpty_iff.mp hempty]; rfl
  next => rfl

/-- One assignment, after which its place holds the value and the others what they held. -/
theorem Registers.update (h : Registers objects j writes) {p : Place} (hp : p.Fits objects)
    (v : Json) :
    ∃ j', j.update (p.update v).1 (p.update v).2 = some j' ∧
      Registers objects j' (writes ++ [(p, v)]) := by
  obtain ⟨m, hm, hfields, hobjects⟩ := h.holds
  have hlast : ∀ q, lastValue (writes ++ [(p, v)]) q =
      if p = q then some v else lastValue writes q := by
    intro q
    rw [lastValue_append, lastValue_singleton]
    split
    next => rfl
    next => rw [Option.none_or]
  cases p with
  | field k =>
    refine ⟨_, update_eq hm k _, m.insert k v, rfl, fun k₁ hk₁ => ?_, fun k₁ hk₁ => ?_⟩
    · rw [hlast]
      by_cases hk : k = k₁
      · rw [hk, OrderedMap.find?_insert_self, if_pos rfl]
      · rw [OrderedMap.find?_insert_of_ne _ hk, hfields k₁ hk₁, if_neg]
        exact fun heq => hk (Place.field.inj heq)
    · -- an object is another field
      have hne : k ≠ k₁ := fun heq => hp (heq ▸ hk₁)
      obtain ⟨inner, hinner, hfind⟩ := hobjects k₁ hk₁
      refine ⟨inner, fun k' => ?_, ?_⟩
      · rw [hinner, hlast, if_neg fun heq => Place.noConfusion heq]
      · rw [OrderedMap.find?_insert_of_ne _ hne, hfind]
  | member k k' =>
    obtain ⟨inner, hinner, hfind⟩ := hobjects k hp
    have hread : ((m.find? k).getD null).members? = some inner.entries := by
      rw [hfind, members_inner]
    have hset : ((m.find? k).getD null).set k' v = some (object (inner.insert k' v).entries) :=
      set_eq hread k' v
    refine ⟨object (m.insert k (object (inner.insert k' v).entries)).entries, ?_, _, rfl,
      fun k₁ hk₁ => ?_, fun k₁ hk₁ => ?_⟩
    · rw [update_eq hm]
      show (((m.find? k).getD null).set k' v).map _ = _
      rw [hset]
      rfl
    · have hne : k ≠ k₁ := fun heq => hk₁ (heq ▸ hp)
      rw [OrderedMap.find?_insert_of_ne _ hne, hfields k₁ hk₁, hlast,
        if_neg fun heq => Place.noConfusion heq]
    · by_cases hk : k = k₁
      · subst hk
        refine ⟨inner.insert k' v, fun k₂ => ?_, ?_⟩
        · rw [hlast]
          by_cases hk₂ : k' = k₂
          · rw [hk₂, OrderedMap.find?_insert_self, if_pos rfl]
          · rw [OrderedMap.find?_insert_of_ne _ hk₂, hinner, if_neg]
            exact fun heq => hk₂ (Place.member.inj heq).2
        · rw [OrderedMap.find?_insert_self, isEmpty_insert]
          rfl
      · obtain ⟨other, hother, hfind'⟩ := hobjects k₁ hk₁
        refine ⟨other, fun k₂ => ?_, ?_⟩
        · rw [hother, hlast, if_neg]
          exact fun heq => hk (Place.member.inj heq).1
        · rw [OrderedMap.find?_insert_of_ne _ hk, hfind']

/-- Assignments to places never fail, and the last one to a place wins. -/
theorem registers_updateAll (h : Registers objects j writes)
    (hfits : ∀ w ∈ writes', w.1.Fits objects) :
    ∃ j', j.updateAll (updates writes') = some j' ∧ Registers objects j' (writes ++ writes') := by
  induction writes' generalizing j writes with
  | nil => exact ⟨j, rfl, by rwa [List.append_nil]⟩
  | cons w writes' ih =>
    obtain ⟨j₁, hupdate, h₁⟩ := h.update (hfits w List.mem_cons_self) w.2
    obtain ⟨j', hall, h'⟩ := ih h₁ fun w' hw' => hfits w' (List.mem_cons_of_mem _ hw')
    refine ⟨j', ?_, by rwa [List.append_assoc] at h'⟩
    rw [updates, List.map_cons, updateAll, hupdate]
    exact hall

/-- Every place holds what was last assigned to it. -/
theorem Registers.at_eq (h : Registers objects j writes) {p : Place} (hp : p.Fits objects) :
    j.at? p = lastValue writes p := by
  obtain ⟨m, hm, hfields, hobjects⟩ := h.holds
  cases p with
  | field k => rw [at?, member?_eq hm, hfields k hp]
  | member k k' =>
    obtain ⟨inner, hinner, hfind⟩ := hobjects k hp
    rw [at?, member?_eq hm, hfind, ← hinner]
    split
    next hempty =>
      rw [OrderedMap.find?, List.isEmpty_iff.mp hempty]
      rfl
    next => exact member?_eq (j := object inner.entries) rfl k'

/-- Registers with the same last values are the same object. -/
theorem Registers.members_eq (h : Registers objects j writes) (h' : Registers objects j' writes')
    (hsame : ∀ p, lastValue writes p = lastValue writes' p) : j.members? = j'.members? := by
  obtain ⟨m, hm, hfields, hobjects⟩ := h.holds
  obtain ⟨m', hm', hfields', hobjects'⟩ := h'.holds
  obtain rfl : m = m' := by
    refine OrderedMap.eq_of_find? fun k => ?_
    by_cases hk : k ∈ objects
    · obtain ⟨inner, hinner, hfind⟩ := hobjects k hk
      obtain ⟨inner', hinner', hfind'⟩ := hobjects' k hk
      obtain rfl : inner = inner' :=
        OrderedMap.eq_of_find? fun k' => by rw [hinner, hinner', hsame]
      rw [hfind, hfind']
    · rw [hfields k hk, hfields' k hk, hsame]
  rw [hm, hm']

/-- An object that is made empty before something is assigned to it. -/
theorem update_emptied {m : OrderedMap Bytes Json} (h : j.members? = some m.entries) {k : Bytes}
    (hmissing : j.contains k = false) (k' : Bytes) (v : Json)
    (others : List (Bytes × (Json → Option Json))) :
    j.updateAll ((k, fun _ => some (object [])) :: (Place.member k k').update v :: others) =
      j.updateAll ((Place.member k k').update v :: others) := by
  have hnone : m.find? k = none := by
    rwa [contains_eq h, Option.isSome_eq_false_iff, Option.isNone_iff_eq_none] at hmissing
  have hempty : (object []).set k' v = null.set k' v := rfl
  have hemptied : ∀ f, (object (m.insert k (object [])).entries).update k f =
      (f (object [])).map fun v => object (m.insert k v).entries := by
    intro f
    rw [update_eq rfl, OrderedMap.find?_insert_self, Option.getD_some]
    simp only [OrderedMap.insert_insert]
  -- the empty object is read as null would be
  simp only [updateAll, Place.update, update_eq h, hnone, Option.map_some, Option.bind_eq_bind,
    Option.bind_some, hemptied, Option.getD_none, hempty]

end Json
