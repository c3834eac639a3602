/-
JSON values that are built in place.

`j[k]` on a mutable value finds or inserts a member, and turns null into an object first;
appending turns null into an array.  On a value of another type both throw a type error,
here `none`.

* `update_eq` — assigning through `j[k]` is an insertion among the members;
* `updateAll_spec` — what no assignment names stays as it was.
-/
import OtelContrib.Lib.OrderedMap
import OtelContrib.Lib.Text

open OrderedMap (lookup alterEntries)

/-- Numbers are stored as signed, unsigned or floating-point; a float is its bit pattern. -/
inductive Json
  | null
  | bool (b : Bool)
  | int (n : Int64)
  | uint (n : UInt64)
  | float (bits : UInt64)
  | string (s : Bytes)
  | binary (bytes : Bytes) (subtype : UInt8)
  | array (elements : List Json)
  | object (members : List (Bytes × Json))

namespace Json

/-! ### Reading and building -/

/-- The members of an object.  Null stands for an empty one. -/
def members? : Json → Option (List (Bytes × Json))
  | null => some []
  | object members => some members
  | _ => none

/-- The elements of an array.  Null stands for an empty one. -/
def elements? : Json → Option (List Json)
  | null => some []
  | array elements => some elements
  | _ => none

/-- The text of a string. -/
def string? : Json → Option Bytes
  | string s => some s
  | _ => none

def size : Json → Nat
  | null => 0
  | array elements => elements.length
  | object members => members.length
  | _ => 1

def contains (k : Bytes) : Json → Bool
  | object members => (lookup k members).isSome
  | _ => false

/-- The member of a name, where nothing is inserted for it. -/
def member? (j : Json) (k : Bytes) : Option Json := j.members?.bind fun members => lookup k members

/-- What is read through `j[k]`: the member, and `j` with the member in it. -/
def index (j : Json) (k : Bytes) : Option (Json × Json) := do
  let members ← j.members?
  some ((lookup k members).getD null, object (alterEntries k (·.getD null) members))

/-- What is read through `j[k][k']`, and `j` with the members in it. -/
def indexIn (j : Json) (k k' : Bytes) : Option (Json × Json) := do
  let (inner, j) ← j.index k
  let (v, inner) ← inner.index k'
  let members ← j.members?
  some (v, object (alterEntries k (fun _ => inner) members))

/-- `j[k] = f(j[k])`. -/
def update (j : Json) (k : Bytes) (f : Json → Option Json) : Option Json := do
  let members ← j.members?
  let v ← f ((lookup k members).getD null)
  some (object (alterEntries k (fun _ => v) members))

/-- `j[k] = v`. -/
def set (j : Json) (k : Bytes) (v : Json) : Option Json := j.update k fun _ => some v

/-- One assignment through `j[k]` after the other. -/
def updateAll (j : Json) : List (Bytes × (Json → Option Json)) → Option Json
  | [] => some j
  | (k, f) :: updates => do (← j.update k f).updateAll updates

/-- `j.push_back(v)`. -/
def pushBack (j v : Json) : Option Json := do
  let elements ← j.elements?
  some (array (elements ++ [v]))

/-- `j[i]` of an array. -/
def element? (j : Json) (i : Nat) : Option Json := do
  let elements ← j.elements?
  elements[i]?

/-- `j[i] = v` of an array. -/
def setElement (j : Json) (i : Nat) (v : Json) : Option Json := do
  let elements ← j.elements?
  some (array (elements.set i v))

/-! ### Assignments -/

variable {j j' : Json} {m : OrderedMap Bytes Json}

theorem contains_eq (h : j.members? = some m.entries) (k : Bytes) :
    j.contains k = (m.find? k).isSome := by
  cases j with
  | null =>
    obtain rfl : m = ∅ := OrderedMap.ext (Option.some.inj h).symm
    rfl
  | object members =>
    obtain rfl : members = m.entries := Option.some.inj h
    rfl
  | _ => cases h

theorem entries_eq_nil (h : j.members? = some m.entries) (hsize : j.size = 0) : m = ∅ := by
  cases j with
  | null => exact OrderedMap.ext (Option.some.inj h).symm
  | object members =>
    obtain rfl : members = m.entries := Option.some.inj h
    exact OrderedMap.ext (List.length_eq_zero_iff.mp hsize)
  | _ => cases h

theorem index_eq (h : j.members? = some m.entries) (k : Bytes) :
    j.index k = some ((m.find? k).getD null, object (m.alter k (·.getD null)).entries) := by
  rw [index, h]
  rfl

theorem indexIn_eq (h : j.members? = some m.entries) {k : Bytes} {inner : OrderedMap Bytes Json}
    (hinner : ((m.find? k).getD null).members? = some inner.entries) (k' : Bytes) :
    j.indexIn k k' = some ((inner.find? k').getD null,
      object (m.insert k (object (inner.alter k' (·.getD null)).entries)).entries) := by
  have hread := index_eq hinner k'
  generalize object (inner.alter k' (·.getD null)).entries = written at hread
  have hwrite := OrderedMap.alterEntries_alterEntries k (·.getD null) (fun _ => written) m.entries
  rw [indexIn, index_eq h]
  simp only [Option.bind_eq_bind, Option.bind_some, hread, members?, OrderedMap.alter, hwrite,
    OrderedMap.insert]

theorem update_eq (h : j.members? = some m.entries) (k : Bytes) (f : Json → Option Json) :
    j.update k f = (f ((m.find? k).getD null)).map fun v => object (m.insert k v).entries := by
  rw [update, h]
  change ((f ((m.find? k).getD null)).bind fun v => some (object (m.insert k v).entries)) = _
  cases f ((m.find? k).getD null) with
  | none => rfl
  | some v => rfl

theorem set_eq (h : j.members? = some m.entries) (k : Bytes) (v : Json) :
    j.set k v = some (object (m.insert k v).entries) := update_eq h k _

theorem member?_eq (h : j.members? = some m.entries) (k : Bytes) : j.member? k = m.find? k := by
  rw [member?, h]
  rfl

/-- An update of what was just assigned is one assignment. -/
theorem update_of_set {k : Bytes} {v : Json} (h : j.set k v = some j') (f : Json → Option Json) :
    j'.update k f = (f v).bind fun v' => j.set k v' := by
  obtain ⟨members, hmembers, hset⟩ := Option.bind_eq_some_iff.mp h
  obtain rfl : object (alterEntries k (fun _ => v) members) = j' := Option.some.inj hset
  rw [update, members?]
  simp only [Option.bind_eq_bind, Option.bind_some, OrderedMap.lookup_alterEntries_const,
    Option.getD_some, OrderedMap.alterEntries_alterEntries, set, update, hmembers]

/-- Appending one value after the other. -/
theorem foldlM_pushBack (done vs : List Json) :
    vs.foldlM pushBack (array done) = some (array (done ++ vs)) := by
  induction vs generalizing done with
  | nil => rw [List.append_nil]; rfl
  | cons v vs ih =>
    rw [List.foldlM_cons, List.append_cons done v vs]
    exact ih (done ++ [v])

/-- Assigning all members of an object makes the object. -/
theorem foldlM_set_entries (hne : m.entries ≠ []) :
    m.entries.foldlM (fun fields kv => fields.set kv.1 kv.2) null = some (object m.entries) := by
  have hfold : ∀ (entries : List (Bytes × Json)) (acc : OrderedMap Bytes Json),
      entries.foldlM (fun fields kv => fields.set kv.1 kv.2) (object acc.entries)
        = some (object (entries.foldl (fun acc kv => acc.insert kv.1 kv.2) acc).entries) := by
    intro entries
    induction entries with
    | nil => exact fun _ => rfl
    | cons kv entries ih =>
      intro acc
      rw [List.foldlM_cons, set_eq rfl]
      exact ih (acc.insert kv.1 kv.2)
  have hall := OrderedMap.foldl_insert_entries m
  obtain ⟨kv, entries, hentries⟩ := List.exists_cons_of_ne_nil hne
  rw [hentries, List.foldl_cons] at hall
  -- the first assignment turns null into an object
  have hfirst : null.set kv.1 kv.2
      = some (object ((∅ : OrderedMap Bytes Json).insert kv.1 kv.2).entries) :=
    set_eq (m := ∅) rfl kv.1 kv.2
  rw [hentries, List.foldlM_cons, hfirst]
  refine (hfold entries _).trans ?_
  rw [hall, hentries]

/-- What no assignment names stays as it was. -/
theorem updateAll_spec (h : j.members? = some m.entries)
    {updates : List (Bytes × (Json → Option Json))} (hupdate : j.updateAll updates = some j') :
    ∃ m' : OrderedMap Bytes Json, j'.members? = some m'.entries ∧
      ∀ k ∉ updates.map Prod.fst, m'.find? k = m.find? k := by
  induction updates generalizing j m with
  | nil =>
    cases hupdate
    exact ⟨m, h, fun _ _ => rfl⟩
  | cons u updates ih =>
    obtain ⟨j₁, hj₁, hrest⟩ := Option.bind_eq_some_iff.mp hupdate
    rw [update_eq h] at hj₁
    obtain ⟨v, -, rfl⟩ := Option.map_eq_some_iff.mp hj₁
    obtain ⟨m', hm', hothers⟩ := ih rfl hrest
    refine ⟨m', hm', fun k hk => ?_⟩
    rw [List.map_cons, List.mem_cons, not_or] at hk
    rw [hothers k hk.2, OrderedMap.find?_insert_of_ne m (Ne.symm hk.1)]

end Json
