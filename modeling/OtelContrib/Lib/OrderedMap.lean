/-
Ordered associative containers (`std::map`): entries with strictly increasing
keys, the order carried by the value itself.

* `keys_nodup` — a key occurs at most once, so a loop over the entries that keeps
  what it made of one key keeps the value under that key (`foldl_select`);
* `entries_groups` — grouping a list by a key gives every key that occurs once, in
  order, with exactly its items in the order of the list, and `flatMap_groups_perm`:
  no item is lost or duplicated.
-/
import Mathlib.Data.List.Basic
import Mathlib.Data.List.Induction
import Mathlib.Data.List.Nodup
import Mathlib.Order.Basic

/-- Entries in strictly increasing order of their keys. -/
@[ext]
structure OrderedMap (κ ν : Type) [LT κ] where
  entries : List (κ × ν)
  sorted : entries.Pairwise fun a b => a.1 < b.1

namespace OrderedMap

variable {κ ν : Type} [LT κ]

instance : EmptyCollection (OrderedMap κ ν) := ⟨⟨[], List.Pairwise.nil⟩⟩

def singleton (k : κ) (v : ν) : OrderedMap κ ν := ⟨[(k, v)], List.pairwise_singleton _ _⟩

/-- The keys, in order. -/
def keys (m : OrderedMap κ ν) : List κ := m.entries.map Prod.fst

/-- The value that some entries have under a key. -/
def lookup [DecidableEq κ] (k : κ) (entries : List (κ × ν)) : Option ν :=
  (entries.find? fun kv => kv.1 = k).map Prod.snd

/-- The value under a key. -/
def find? [DecidableEq κ] (m : OrderedMap κ ν) (k : κ) : Option ν := lookup k m.entries

theorem keys_nodup [Std.Irrefl fun a b : κ => a < b] (m : OrderedMap κ ν) : m.keys.Nodup := by
  refine List.pairwise_map.mpr (m.sorted.imp ?_)
  intro a b hab heq
  rw [heq] at hab
  exact Std.Irrefl.irrefl _ hab

/-- An entry is what is found under its key. -/
theorem mem_entries_iff [DecidableEq κ] [Std.Irrefl fun a b : κ => a < b] (m : OrderedMap κ ν)
    {k : κ}
    {v : ν} : (k, v) ∈ m.entries ↔ m.find? k = some v := by
  rw [find?, lookup, Option.map_eq_some_iff]
  constructor
  · intro hmem
    have hsome : (m.entries.find? fun kv => kv.1 = k).isSome :=
      List.find?_isSome.mpr ⟨(k, v), hmem, by simp⟩
    obtain ⟨kv, hkv⟩ := Option.isSome_iff_exists.mp hsome
    have hkey : kv.1 = k := by simpa using List.find?_some hkv
    have hsame := List.inj_on_of_nodup_map m.keys_nodup (List.mem_of_find?_eq_some hkv) hmem hkey
    exact ⟨kv, hkv, congrArg Prod.snd hsame⟩
  · rintro ⟨kv, hkv, rfl⟩
    obtain rfl : kv.1 = k := by simpa using List.find?_some hkv
    exact List.mem_of_find?_eq_some hkv

omit [LT κ] in
theorem foldl_const_of_not_mem [DecidableEq κ] {β : Type} {k : κ} {f : ν → β}
    {entries : List (κ × ν)} (h : k ∉ entries.map Prod.fst) (b : β) :
    entries.foldl (fun acc kv => if kv.1 = k then f kv.2 else acc) b = b := by
  induction entries with
  | nil => rfl
  | cons kv entries ih =>
    rw [List.map_cons, List.mem_cons, not_or] at h
    rw [List.foldl_cons, if_neg (Ne.symm h.1), ih h.2]

/-- A loop that keeps what it made of the entry under `k` ends with the value
under `k`. -/
theorem foldl_select [DecidableEq κ] [Std.Irrefl fun a b : κ => a < b] {β : Type}
    (m : OrderedMap κ ν) (k : κ) (f : ν → β) (b : β) :
    m.entries.foldl (fun acc kv => if kv.1 = k then f kv.2 else acc) b
      = (m.find? k).elim b f := by
  have hnodup := m.keys_nodup
  rw [find?, lookup]
  rw [keys] at hnodup
  generalize m.entries = entries at hnodup
  induction entries generalizing b with
  | nil => rfl
  | cons kv entries ih =>
    rw [List.map_cons, List.nodup_cons] at hnodup
    rw [List.foldl_cons]
    by_cases hk : kv.1 = k
    · -- the key does not occur again
      rw [if_pos hk, foldl_const_of_not_mem (hk ▸ hnodup.1), List.find?_cons_of_pos (by simpa)]
      rfl
    · rw [if_neg hk, ih b hnodup.2, List.find?_cons_of_neg (by simpa)]

/-! ### Updates -/

/-- The entries with the value under `k` replaced by what `f` makes of it. -/
def alterEntries [DecidableLT κ] (k : κ) (f : Option ν → ν) : List (κ × ν) → List (κ × ν)
  | [] => [(k, f none)]
  | kv :: rest =>
    if k < kv.1 then (k, f none) :: kv :: rest
    else if kv.1 < k then kv :: alterEntries k f rest
    else (kv.1, f (some kv.2)) :: rest

omit [LT κ] in
theorem key_of_mem_alterEntries [LT κ] [DecidableLT κ] {k : κ} {f : Option ν → ν} {kv : κ × ν}
    {entries : List (κ × ν)} (h : kv ∈ alterEntries k f entries) :
    kv.1 = k ∨ ∃ kv' ∈ entries, kv'.1 = kv.1 := by
  induction entries with
  | nil =>
    rw [alterEntries, List.mem_singleton] at h
    exact .inl (by rw [h])
  | cons top rest ih =>
    rw [alterEntries] at h
    split at h
    · rcases List.mem_cons.mp h with rfl | h
      · exact .inl rfl
      · exact .inr ⟨kv, h, rfl⟩
    · split at h
      · rcases List.mem_cons.mp h with rfl | h
        · exact .inr ⟨kv, List.mem_cons_self .., rfl⟩
        · rcases ih h with heq | ⟨kv', hmem, heq⟩
          · exact .inl heq
          · exact .inr ⟨kv', List.mem_cons_of_mem _ hmem, heq⟩
      · rcases List.mem_cons.mp h with rfl | h
        · exact .inr ⟨top, List.mem_cons_self .., rfl⟩
        · exact .inr ⟨kv, List.mem_cons_of_mem _ h, rfl⟩

theorem alterEntries_sorted [DecidableLT κ] [Trans (α := κ) (· < ·) (· < ·) (· < ·)] (k : κ)
    (f : Option ν → ν) {entries : List (κ × ν)}
    (h : entries.Pairwise fun a b => a.1 < b.1) :
    (alterEntries k f entries).Pairwise fun a b => a.1 < b.1 := by
  induction entries with
  | nil => exact List.pairwise_singleton _ _
  | cons top rest ih =>
    obtain ⟨hbelow, hrest⟩ := List.pairwise_cons.mp h
    rw [alterEntries]
    split
    case isTrue hk =>
      refine List.pairwise_cons.mpr ⟨fun kv hkv => ?_, h⟩
      rcases List.mem_cons.mp hkv with rfl | hkv
      · exact hk
      · exact Trans.trans hk (hbelow kv hkv)
    case isFalse =>
      split
      case isTrue hk =>
        refine List.pairwise_cons.mpr ⟨fun kv hkv => ?_, ih hrest⟩
        rcases key_of_mem_alterEntries hkv with heq | ⟨kv', hmem, heq⟩
        · rwa [heq]
        · exact heq ▸ hbelow kv' hmem
      case isFalse => exact List.pairwise_cons.mpr ⟨hbelow, hrest⟩

/-- `m[k] = f(m[k])`, where a missing value is `none` to `f`. -/
def alter [DecidableLT κ] [Trans (α := κ) (· < ·) (· < ·) (· < ·)] (m : OrderedMap κ ν) (k : κ)
    (f : Option ν → ν) : OrderedMap κ ν :=
  ⟨alterEntries k f m.entries, alterEntries_sorted k f m.sorted⟩

/-- `m[k] = v`. -/
def insert [DecidableLT κ] [Trans (α := κ) (· < ·) (· < ·) (· < ·)] (m : OrderedMap κ ν) (k : κ)
    (v : ν) : OrderedMap κ ν := m.alter k fun _ => v

/-- An update makes its key one of the keys. -/
theorem mem_keys_alterEntries [DecidableLT κ] [Std.Trichotomous fun a b : κ => a < b] {k x : κ}
    {f : Option ν → ν} {entries : List (κ × ν)} :
    x ∈ (alterEntries k f entries).map Prod.fst ↔ x = k ∨ x ∈ entries.map Prod.fst := by
  induction entries with
  | nil => simp [alterEntries]
  | cons top rest ih =>
    rw [alterEntries]
    split
    · rw [List.map_cons, List.mem_cons]
    · split
      · rw [List.map_cons, List.mem_cons, ih, List.map_cons, List.mem_cons]
        exact or_left_comm
      case isFalse hk htop =>
        obtain rfl := Std.Trichotomous.trichotomous (r := fun a b : κ => a < b) k top.1 hk htop
        rw [List.map_cons, List.map_cons, List.mem_cons]
        exact ⟨.inr, fun h => h.elim .inl id⟩

/-- An update after the values were mapped is an update before. -/
theorem alterEntries_map [DecidableLT κ] {ν' : Type} (g : ν → ν') (k : κ) (f : Option ν → ν)
    (f' : Option ν' → ν') (h : ∀ old, f' (old.map g) = g (f old)) (entries : List (κ × ν)) :
    alterEntries k f' (entries.map (Prod.map id g)) =
      (alterEntries k f entries).map (Prod.map id g) := by
  induction entries with
  | nil => exact congrArg (fun v => [(k, v)]) (h none)
  | cons top rest ih =>
    rw [List.map_cons, alterEntries, alterEntries, ih]
    have hnone : f' none = g (f none) := h none
    have hsome : f' (some (g top.2)) = g (f (some top.2)) := h (some top.2)
    simp only [Prod.map_fst, Prod.map_snd, id_eq, hnone, hsome]
    split
    · rfl
    · split <;> rfl

/-- The last of two updates that replace what is under a key is the one that counts. -/
theorem alterEntries_alterEntries [DecidableLT κ] [Std.Irrefl fun a b : κ => a < b] (k : κ)
    (f g : Option ν → ν) (entries : List (κ × ν)) :
    alterEntries k g (alterEntries k f entries) =
      alterEntries k (fun old => g (some (f old))) entries := by
  have hirrefl : ∀ a : κ, ¬a < a := Std.Irrefl.irrefl (r := fun a b : κ => a < b)
  induction entries with
  | nil => simp [alterEntries, hirrefl]
  | cons top rest ih =>
    rw [alterEntries, alterEntries]
    split
    · simp [alterEntries, hirrefl]
    · split
      case isTrue hk htop => rw [alterEntries, if_neg hk, if_pos htop, ih]
      case isFalse hk htop => rw [alterEntries, if_neg hk, if_neg htop]

section Lookup

variable [DecidableEq κ]

omit [LT κ] in
theorem lookup_cons (kv : κ × ν) (entries : List (κ × ν)) (k : κ) :
    lookup k (kv :: entries) = if kv.1 = k then some kv.2 else lookup k entries := by
  by_cases h : kv.1 = k
  · rw [lookup, List.find?_cons_of_pos (by simpa), if_pos h]
    rfl
  · rw [lookup, List.find?_cons_of_neg (by simpa), if_neg h]
    rfl

omit [LT κ] in
theorem lookup_eq_none {k : κ} {entries : List (κ × ν)} :
    lookup k entries = none ↔ k ∉ entries.map Prod.fst := by
  induction entries with
  | nil => simp [lookup]
  | cons kv entries ih =>
    rw [lookup_cons, List.map_cons, List.mem_cons, not_or, ← ih]
    by_cases h : kv.1 = k
    · simp [h]
    · simp [h, Ne.symm h]

omit [LT κ] in
theorem lookup_map {ν' : Type} (g : ν → ν') (k : κ) (entries : List (κ × ν)) :
    lookup k (entries.map (Prod.map id g)) = (lookup k entries).map g := by
  induction entries with
  | nil => rfl
  | cons kv entries ih =>
    rw [List.map_cons, lookup_cons, lookup_cons, ih]
    by_cases h : kv.1 = k
    · simp [h]
    · simp [h]

variable [DecidableLT κ] [Std.Trichotomous fun a b : κ => a < b]

/-- An update leaves the values under the other keys alone. -/
theorem lookup_alterEntries_of_ne {k k' : κ} (h : k ≠ k') (f : Option ν → ν)
    (entries : List (κ × ν)) :
    lookup k' (alterEntries k f entries) = lookup k' entries := by
  induction entries with
  | nil => rw [alterEntries, lookup_cons, if_neg h]
  | cons top rest ih =>
    rw [alterEntries]
    split
    · rw [lookup_cons, if_neg h]
    · split
      · rw [lookup_cons, lookup_cons, ih]
      case isFalse hk htop =>
        obtain rfl := Std.Trichotomous.trichotomous (r := fun a b : κ => a < b) k top.1 hk htop
        rw [lookup_cons, lookup_cons, if_neg h, if_neg h]

/-- A value that replaces what is under a key is found under it, in any list. -/
theorem lookup_alterEntries_const [Std.Irrefl fun a b : κ => a < b] (k : κ) (v : ν)
    (entries : List (κ × ν)) : lookup k (alterEntries k (fun _ => v) entries) = some v := by
  induction entries with
  | nil => rw [alterEntries, lookup_cons, if_pos rfl]
  | cons top rest ih =>
    rw [alterEntries]
    split
    · rw [lookup_cons, if_pos rfl]
    · split
      case isTrue htop =>
        have hne : top.1 ≠ k := fun heq =>
          Std.Irrefl.irrefl (r := fun a b : κ => a < b) k (heq ▸ htop)
        rw [lookup_cons, if_neg hne, ih]
      case isFalse hk htop =>
        obtain rfl := Std.Trichotomous.trichotomous (r := fun a b : κ => a < b) k top.1 hk htop
        rw [lookup_cons, if_pos rfl]

omit [DecidableLT κ] [Std.Trichotomous fun a b : κ => a < b] in
/-- A key below the first one is below all of them. -/
theorem lookup_of_lt [Std.Irrefl fun a b : κ => a < b] [Trans (α := κ) (· < ·) (· < ·) (· < ·)]
    {top : κ × ν} {rest : List (κ × ν)} (h : (top :: rest).Pairwise fun a b => a.1 < b.1) {k : κ}
    (hk : k < top.1) : lookup k (top :: rest) = none := by
  have hirrefl : ∀ a : κ, ¬a < a := Std.Irrefl.irrefl (r := fun a b : κ => a < b)
  rw [lookup_eq_none, List.map_cons, List.mem_cons, not_or]
  refine ⟨fun heq => hirrefl k (heq ▸ hk), fun hmem => ?_⟩
  obtain ⟨kv, hkv, rfl⟩ := List.mem_map.mp hmem
  exact hirrefl kv.1 (Trans.trans hk ((List.pairwise_cons.mp h).1 kv hkv))

/-- An update puts what it makes of the old value under its key. -/
theorem lookup_alterEntries_self [Std.Irrefl fun a b : κ => a < b]
    [Trans (α := κ) (· < ·) (· < ·) (· < ·)] (k : κ) (f : Option ν → ν) {entries : List (κ × ν)}
    (h : entries.Pairwise fun a b => a.1 < b.1) :
    lookup k (alterEntries k f entries) = some (f (lookup k entries)) := by
  have hirrefl : ∀ a : κ, ¬a < a := Std.Irrefl.irrefl (r := fun a b : κ => a < b)
  induction entries with
  | nil => rw [alterEntries, lookup_cons, if_pos rfl, lookup_eq_none.mpr (by simp)]
  | cons top rest ih =>
    have hrest := (List.pairwise_cons.mp h).2
    rw [alterEntries]
    split
    case isTrue hk => rw [lookup_of_lt h hk, lookup_cons, if_pos rfl]
    case isFalse hk =>
      split
      case isTrue htop =>
        have hne : top.1 ≠ k := fun heq => hirrefl k (heq ▸ htop)
        rw [lookup_cons, lookup_cons, if_neg hne, if_neg hne, ih hrest]
      case isFalse htop =>
        obtain rfl := Std.Trichotomous.trichotomous (r := fun a b : κ => a < b) k top.1 hk htop
        rw [lookup_cons, lookup_cons, if_pos rfl, if_pos rfl]

section Map

variable [Trans (α := κ) (· < ·) (· < ·) (· < ·)]

@[simp]
theorem find?_alter_self [Std.Irrefl fun a b : κ => a < b] (m : OrderedMap κ ν) (k : κ)
    (f : Option ν → ν) : (m.alter k f).find? k = some (f (m.find? k)) :=
  lookup_alterEntries_self k f m.sorted

theorem find?_alter_of_ne (m : OrderedMap κ ν) {k k' : κ} (h : k ≠ k') (f : Option ν → ν) :
    (m.alter k f).find? k' = m.find? k' :=
  lookup_alterEntries_of_ne h f m.entries

@[simp]
theorem find?_insert_self [Std.Irrefl fun a b : κ => a < b] (m : OrderedMap κ ν) (k : κ) (v : ν) :
    (m.insert k v).find? k = some v :=
  find?_alter_self m k _

omit [Std.Trichotomous fun a b : κ => a < b] [DecidableEq κ] in
theorem insert_insert [Std.Irrefl fun a b : κ => a < b] (m : OrderedMap κ ν) (k : κ) (v v' : ν) :
    (m.insert k v).insert k v' = m.insert k v' := by
  have hentries := alterEntries_alterEntries k (fun _ => v) (fun _ => v') m.entries
  simp only [insert, alter, hentries]

theorem find?_insert_of_ne (m : OrderedMap κ ν) {k k' : κ} (h : k ≠ k') (v : ν) :
    (m.insert k v).find? k' = m.find? k' :=
  find?_alter_of_ne m h _

/-- An update inserts what it makes of the old value. -/
theorem alter_eq_insert [Std.Irrefl fun a b : κ => a < b] (m : OrderedMap κ ν) (k : κ)
    (f : Option ν → ν) : m.alter k f = m.insert k (f (m.find? k)) := by
  have hentries : ∀ entries : List (κ × ν), (entries.Pairwise fun a b => a.1 < b.1) →
      alterEntries k f entries = alterEntries k (fun _ => f (lookup k entries)) entries := by
    intro entries h
    induction entries with
    | nil => rfl
    | cons top rest ih =>
      rw [alterEntries, alterEntries]
      split
      case isTrue hk => rw [lookup_of_lt h hk]
      case isFalse hk =>
        split
        case isTrue htop =>
          have hne : top.1 ≠ k := fun heq =>
            Std.Irrefl.irrefl (r := fun a b : κ => a < b) k (heq ▸ htop)
          rw [ih (List.pairwise_cons.mp h).2, lookup_cons, if_neg hne]
        case isFalse htop =>
          obtain rfl := Std.Trichotomous.trichotomous (r := fun a b : κ => a < b) k top.1 hk htop
          rw [lookup_cons, if_pos rfl]
  simp only [insert, alter, find?, hentries m.entries m.sorted]

end Map

end Lookup

/-! ### Values -/

/-- The map with `g` applied to every value. -/
def mapValues {ν' : Type} (g : ν → ν') (m : OrderedMap κ ν) : OrderedMap κ ν' :=
  ⟨m.entries.map (Prod.map id g), List.pairwise_map.mpr (m.sorted.imp id)⟩

theorem find?_mapValues [DecidableEq κ] {ν' : Type} (g : ν → ν') (m : OrderedMap κ ν) (k : κ) :
    (m.mapValues g).find? k = (m.find? k).map g :=
  lookup_map g k m.entries

theorem mapValues_insert [DecidableLT κ] [Trans (α := κ) (· < ·) (· < ·) (· < ·)] {ν' : Type}
    (g : ν → ν') (m : OrderedMap κ ν) (k : κ) (v : ν) :
    (m.insert k v).mapValues g = (m.mapValues g).insert k (g v) := by
  have hentries := alterEntries_map g k (fun _ => v) (fun _ => g v) (fun _ => rfl) m.entries
  simp only [insert, alter, mapValues, hentries]

/-- A key above all others comes last. -/
theorem alterEntries_of_lt [DecidableLT κ] [Std.Asymm fun a b : κ => a < b] {k : κ}
    {entries : List (κ × ν)} (h : ∀ kv ∈ entries, kv.1 < k) (f : Option ν → ν) :
    alterEntries k f entries = entries ++ [(k, f none)] := by
  induction entries with
  | nil => rfl
  | cons top rest ih =>
    have htop : top.1 < k := h top (List.mem_cons_self ..)
    rw [alterEntries, if_neg (Std.Asymm.asymm (r := fun a b : κ => a < b) _ _ htop), if_pos htop,
      ih fun kv hkv => h kv (List.mem_cons_of_mem _ hkv), List.cons_append]

/-- Inserting the entries of a map one after the other makes the map. -/
theorem foldl_insert_entries [DecidableLT κ] [Trans (α := κ) (· < ·) (· < ·) (· < ·)]
    [Std.Asymm fun a b : κ => a < b] (m : OrderedMap κ ν) :
    m.entries.foldl (fun acc kv => acc.insert kv.1 kv.2) ∅ = m := by
  obtain ⟨entries, h⟩ := m
  have hentries : (entries.foldl (fun acc kv => acc.insert kv.1 kv.2)
      (∅ : OrderedMap κ ν)).entries = entries := by
    induction entries using List.reverseRecOn with
    | nil => rfl
    | append_singleton entries kv ih =>
      obtain ⟨hentries, -, hbelow⟩ := List.pairwise_append.mp h
      have hlast : alterEntries kv.1 (fun _ => kv.2) entries = entries ++ [kv] :=
        alterEntries_of_lt (fun kv' hkv' => hbelow kv' hkv' kv (List.mem_singleton_self _)) _
      rw [List.foldl_append, List.foldl_cons, List.foldl_nil]
      exact (congrArg _ (ih hentries)).trans hlast
  exact OrderedMap.ext hentries

/-! ### Grouping -/

section Groups

variable [DecidableEq κ] [DecidableLT κ] [Trans (α := κ) (· < ·) (· < ·) (· < ·)]

/-- The items of a list under their keys, each group in the order of the list. -/
def groups (items : List (κ × ν)) : OrderedMap κ (List ν) :=
  items.foldl (fun m item => m.alter item.1 fun old => old.getD [] ++ [item.2]) ∅

omit [DecidableEq κ] in
theorem groups_concat (items : List (κ × ν)) (item : κ × ν) :
    groups (items ++ [item])
      = (groups items).alter item.1 fun old => old.getD [] ++ [item.2] := by
  rw [groups, List.foldl_append]
  rfl

/-- The items under a key. -/
def under (k : κ) (items : List (κ × ν)) : List ν :=
  (items.filter fun item => item.1 = k).map Prod.snd

variable [Std.Trichotomous fun a b : κ => a < b] [Std.Irrefl fun a b : κ => a < b]

omit [Std.Irrefl fun a b : κ => a < b] [DecidableEq κ] in
/-- The keys of the groups are the keys that occur. -/
theorem mem_keys_groups {items : List (κ × ν)} {k : κ} :
    k ∈ (groups items).keys ↔ ∃ item ∈ items, item.1 = k := by
  induction items using List.reverseRecOn with
  | nil => simp [groups, keys, EmptyCollection.emptyCollection]
  | append_singleton items item ih =>
    have hkeys : k ∈ (groups (items ++ [item])).keys ↔ k = item.1 ∨ k ∈ (groups items).keys := by
      rw [groups_concat]
      exact mem_keys_alterEntries
    rw [hkeys, ih]
    simp only [List.mem_append, List.mem_singleton, or_and_right, exists_or, exists_eq_left]
    exact or_comm.trans (or_congr_right eq_comm)

/-- The group of a key that occurs are the items under it. -/
theorem find?_groups (items : List (κ × ν)) (k : κ) :
    ((groups items).find? k).getD [] = under k items := by
  induction items using List.reverseRecOn with
  | nil => rfl
  | append_singleton items item ih =>
    rw [groups_concat, under, List.filter_append, List.map_append]
    by_cases hk : item.1 = k
    · subst hk
      rw [find?_alter_self, Option.getD_some, ih, under]
      simp
    · rw [find?_alter_of_ne _ hk, ih, under]
      simp [hk]

omit [DecidableLT κ] [Trans (α := κ) (· < ·) (· < ·) (· < ·)]
  [Std.Trichotomous fun a b : κ => a < b] in
/-- The entries are determined by the keys and the values under them. -/
theorem entries_eq_map_keys (m : OrderedMap κ ν) (default : ν) :
    m.entries = m.keys.map fun k => (k, (m.find? k).getD default) := by
  have hnodup := m.keys_nodup
  simp only [keys, find?] at hnodup ⊢
  generalize m.entries = entries at hnodup
  induction entries with
  | nil => rfl
  | cons kv entries ih =>
    rw [List.map_cons, List.nodup_cons] at hnodup
    rw [List.map_cons, List.map_cons, lookup_cons, if_pos rfl]
    refine congrArg (kv :: ·) ((ih hnodup.2).trans (List.map_congr_left fun k hk => ?_))
    have hne : kv.1 ≠ k := by
      rintro rfl
      exact hnodup.1 hk
    rw [lookup_cons, if_neg hne]

/-- Each key that occurs stands once, in order, with its items in the order of the list. -/
theorem entries_groups (items : List (κ × ν)) :
    (groups items).entries = (groups items).keys.map fun k => (k, under k items) := by
  refine (entries_eq_map_keys (groups items) []).trans (List.map_congr_left fun k _ => ?_)
  rw [find?_groups]

omit [LT κ] [DecidableLT κ] [Trans (α := κ) (· < ·) (· < ·) (· < ·)]
  [Std.Trichotomous fun a b : κ => a < b] [Std.Irrefl fun a b : κ => a < b] in
/-- The items under keys that occur once each, and cover the list, are the items of the list. -/
theorem flatMap_filter_perm {ks : List κ} (hnodup : ks.Nodup) {items : List (κ × ν)}
    (hcover : ∀ item ∈ items, item.1 ∈ ks) :
    (ks.flatMap fun k => items.filter fun item => item.1 = k).Perm items := by
  induction ks generalizing items with
  | nil =>
    obtain rfl : items = [] := by
      refine List.eq_nil_iff_forall_not_mem.mpr fun item hitem => ?_
      simpa using hcover item hitem
    exact .nil
  | cons k ks ih =>
    obtain ⟨hk, hnodup⟩ := List.nodup_cons.mp hnodup
    rw [List.flatMap_cons]
    -- the rest of the keys see the items under other keys
    have hrest : (ks.flatMap fun k' => items.filter fun item => item.1 = k')
        = ks.flatMap fun k' =>
          (items.filter fun item => !decide (item.1 = k)).filter fun item => item.1 = k' := by
      refine List.flatMap_congr fun k' hk' => ?_
      rw [List.filter_filter]
      refine List.filter_congr fun item _ => ?_
      by_cases h : item.1 = k'
      · have hne : item.1 ≠ k := fun heq => hk (heq ▸ h ▸ hk')
        simp [h, h ▸ hne]
      · simp [h]
    rw [hrest]
    refine (List.Perm.append_left _ (ih hnodup fun item hitem => ?_)).trans
      (List.filter_append_perm (fun item => decide (item.1 = k)) items)
    obtain ⟨hitem, hne⟩ := List.mem_filter.mp hitem
    exact ((List.mem_cons.mp (hcover item hitem)).resolve_left (by simpa using hne))

/-- No item is lost, duplicated or put under another key. -/
theorem flatMap_groups_perm (items : List (κ × ν)) :
    ((groups items).keys.flatMap fun k => items.filter fun item => item.1 = k).Perm items :=
  flatMap_filter_perm (groups items).keys_nodup fun item hitem =>
    mem_keys_groups.mpr ⟨item, hitem, rfl⟩

end Groups

end OrderedMap
