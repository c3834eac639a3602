/-
A thread's stack of attached contexts.

`attach` pushes a context and hands out a token; `detach` pops through the entry
its token stands for and does nothing when there is none.  Which entries a token
stands for is a parameter: its own entry (`ownEntry`), or any entry with an equal
context (`equalContext`).

Every entry carries the number of its token.  Numbers grow towards the top of the
stack and none is used twice; both facts are fields of the stack.

* `mem_detach_ownEntry` — detaching an entry removes it and what is above it;
* `mem_detachAll_ownEntry` — the same for several entries, in any order;
* `le_of_head` — the entry on top has the largest number;
* `Fresh` — contexts that are still to be made differ from all that are attached;
* `popThrough_of_forall_ne` — by equal contexts, a token that has none is not noticed.
-/
import Mathlib.Data.List.Basic

namespace ContextStack

/-- A context with an identity; `span` is the value attached under the span key. -/
structure Context (σ : Type) where
  head : ℕ
  span : Option σ

/-- The context of a thread that has nothing attached. -/
def Context.empty {σ : Type} : Context σ := ⟨0, none⟩

/-- An attached context and the number of its token; a token is a copy of it. -/
structure Entry (σ : Type) where
  id : ℕ
  context : Context σ

/-- When an entry is the one a token stands for. -/
abbrev DetachRule (σ : Type) : Type := Entry σ → Entry σ → Bool

def ownEntry {σ : Type} : DetachRule σ := fun token e => token.id = e.id

def equalContext {σ : Type} : DetachRule σ := fun token e => token.context.head = e.context.head

/-- The entries, topmost first, and the numbers that are still free. -/
structure Stack (σ : Type) where
  entries : List (Entry σ)
  nextId : ℕ
  nextHead : ℕ
  ordered : entries.Pairwise fun upper lower => lower.id < upper.id
  bounded : ∀ e ∈ entries, e.id < nextId

namespace Stack

variable {σ : Type}

/-- The stack of a fresh thread; head `0` is the empty context's. -/
def empty : Stack σ := ⟨[], 0, 1, .nil, by simp⟩

/-- The context on top. -/
def current (s : Stack σ) : Context σ := (s.entries.head?.map Entry.context).getD Context.empty

/-- Pushes a context. -/
def attach (s : Stack σ) (c : Context σ) : Entry σ × Stack σ :=
  (⟨s.nextId, c⟩,
    { s with
      entries := ⟨s.nextId, c⟩ :: s.entries
      nextId := s.nextId + 1
      ordered := List.pairwise_cons.mpr ⟨fun e he => s.bounded e he, s.ordered⟩
      bounded := fun e he => by
        rcases List.mem_cons.mp he with rfl | he
        · exact Nat.lt_succ_self _
        · exact Nat.lt_succ_of_lt (s.bounded e he) })

/-- A context that differs from `c` in its span. -/
def setSpan (s : Stack σ) (c : Context σ) (x : σ) : Context σ × Stack σ :=
  ({ c with head := s.nextHead, span := some x }, { s with nextHead := s.nextHead + 1 })

/-- What `detach` leaves of the entries. -/
def popThrough (rule : DetachRule σ) (token : Entry σ) (entries : List (Entry σ)) :
    List (Entry σ) :=
  if entries.any (rule token) then (entries.dropWhile fun e => !rule token e).tail else entries

theorem popThrough_sublist (rule : DetachRule σ) (token : Entry σ) (entries : List (Entry σ)) :
    (popThrough rule token entries).Sublist entries := by
  rw [popThrough]
  split
  · exact (List.tail_sublist _).trans (List.dropWhile_sublist _)
  · exact List.Sublist.refl _

/-- Pops through the topmost entry that the token stands for, if there is one. -/
def detach (rule : DetachRule σ) (token : Entry σ) (s : Stack σ) : Stack σ :=
  { s with
    entries := popThrough rule token s.entries
    ordered := s.ordered.sublist (popThrough_sublist rule token s.entries)
    bounded := fun e he => s.bounded e ((popThrough_sublist rule token s.entries).subset he) }

/-- The numbers of the attached entries. -/
def ids (s : Stack σ) : List ℕ := s.entries.map Entry.id

theorem lt_of_mem_ids {s : Stack σ} {i : ℕ} (h : i ∈ s.ids) : i < s.nextId := by
  obtain ⟨e, he, rfl⟩ := List.mem_map.mp h
  exact s.bounded e he

theorem popThrough_cons (rule : DetachRule σ) (token top : Entry σ) (rest : List (Entry σ)) :
    popThrough rule token (top :: rest) =
      if rule token top then rest
      else if rest.any (rule token) then popThrough rule token rest
      else top :: rest := by
  by_cases htop : rule token top
  · simp [popThrough, htop]
  · by_cases hrest : rest.any (rule token)
    · rw [if_neg htop, if_pos hrest, popThrough, popThrough, if_pos hrest, List.any_cons, hrest,
        Bool.or_true, if_pos rfl, List.dropWhile_cons_of_pos (by simpa using htop)]
    · rw [if_neg htop, if_neg hrest, popThrough, List.any_cons]
      simp [htop, hrest]

theorem any_ownEntry (token : Entry σ) (entries : List (Entry σ)) :
    entries.any (ownEntry token) ↔ token.id ∈ entries.map Entry.id := by
  rw [List.any_eq_true, List.mem_map]
  constructor
  · rintro ⟨e, he, hid⟩
    exact ⟨e, he, (by simpa [ownEntry] using hid : token.id = e.id).symm⟩
  · rintro ⟨e, he, hid⟩
    exact ⟨e, he, by simp [ownEntry, hid]⟩

theorem mem_popThrough_ownEntry {token e : Entry σ} {entries : List (Entry σ)}
    (hordered : entries.Pairwise fun upper lower => lower.id < upper.id) :
    e ∈ popThrough ownEntry token entries ↔
      e ∈ entries ∧ (token.id ∈ entries.map Entry.id → e.id < token.id) := by
  induction entries with
  | nil => simp [popThrough]
  | cons top rest ih =>
    obtain ⟨hbelow, hrest⟩ := List.pairwise_cons.mp hordered
    rw [popThrough_cons, List.map_cons, List.mem_cons, List.mem_cons]
    -- numbers fall from the top, so that the search stops at the first match
    by_cases htop : token.id = top.id
    · rw [if_pos (by simpa [ownEntry] using htop)]
      constructor
      · intro he
        exact ⟨.inr he, fun _ => htop ▸ hbelow e he⟩
      · rintro ⟨rfl | he, hlt⟩
        · exact absurd (hlt (.inl htop)) (by omega)
        · exact he
    · rw [if_neg (by simpa [ownEntry] using htop)]
      by_cases hany : token.id ∈ rest.map Entry.id
      · rw [if_pos ((any_ownEntry token rest).mpr hany), ih hrest]
        obtain ⟨t, ht, hid⟩ := List.mem_map.mp hany
        have htoken : token.id < top.id := hid ▸ hbelow t ht
        constructor
        · rintro ⟨he, hlt⟩
          exact ⟨.inr he, fun _ => hlt hany⟩
        · rintro ⟨rfl | he, hlt⟩
          · exact absurd (hlt (.inr hany)) (by omega)
          · exact ⟨he, fun _ => hlt (.inr hany)⟩
      · -- the entry is not there, and nothing is popped
        rw [if_neg (by rwa [any_ownEntry]), List.mem_cons]
        constructor
        · intro he
          exact ⟨he, fun hid => absurd hid (by simp [htop, hany])⟩
        · exact fun h => h.1

/-- Detaching an entry that is there removes it and everything above it. -/
theorem mem_detach_ownEntry {s : Stack σ} {token e : Entry σ} :
    e ∈ (s.detach ownEntry token).entries ↔
      e ∈ s.entries ∧ (token.id ∈ s.ids → e.id < token.id) :=
  mem_popThrough_ownEntry s.ordered

theorem mem_ids_detach_ownEntry {s : Stack σ} {token : Entry σ} {i : ℕ} :
    i ∈ (s.detach ownEntry token).ids ↔ i ∈ s.ids ∧ (token.id ∈ s.ids → i < token.id) := by
  constructor
  · intro hi
    obtain ⟨e, he, rfl⟩ := List.mem_map.mp hi
    obtain ⟨hmem, hlt⟩ := mem_detach_ownEntry.mp he
    exact ⟨List.mem_map_of_mem hmem, hlt⟩
  · rintro ⟨hi, hlt⟩
    obtain ⟨e, he, rfl⟩ := List.mem_map.mp hi
    exact List.mem_map_of_mem (mem_detach_ownEntry.mpr ⟨he, hlt⟩)

/-- Detaches one token after the other. -/
def detachAll (rule : DetachRule σ) (tokens : List (Entry σ)) (s : Stack σ) : Stack σ :=
  tokens.foldl (fun s token => s.detach rule token) s

theorem detachAll_append (rule : DetachRule σ) (tokens tokens' : List (Entry σ)) (s : Stack σ) :
    s.detachAll rule (tokens ++ tokens') = (s.detachAll rule tokens).detachAll rule tokens' :=
  List.foldl_append

/-- What is left is what lies below every detached entry that was there, in whichever
order they were detached. -/
theorem mem_detachAll_ownEntry {tokens : List (Entry σ)} {s : Stack σ} {e : Entry σ} :
    e ∈ (s.detachAll ownEntry tokens).entries ↔
      e ∈ s.entries ∧ ∀ token ∈ tokens, token.id ∈ s.ids → e.id < token.id := by
  induction tokens generalizing s with
  | nil => simp [detachAll]
  | cons token tokens ih =>
    have hcons : s.detachAll ownEntry (token :: tokens) =
        (s.detach ownEntry token).detachAll ownEntry tokens := rfl
    rw [hcons, ih, mem_detach_ownEntry, List.forall_mem_cons, and_assoc]
    refine and_congr_right fun _ => and_congr_right fun htoken => forall₂_congr fun token' _ => ?_
    rw [mem_ids_detach_ownEntry]
    constructor
    · intro h hmem
      -- an entry that `token` already took away lies above it
      by_cases hlt : token.id ∈ s.ids → token'.id < token.id
      · exact h ⟨hmem, hlt⟩
      · obtain ⟨hpresent, hle⟩ := Classical.not_imp.mp hlt
        exact Nat.lt_of_lt_of_le (htoken hpresent) (Nat.le_of_not_lt hle)
    · exact fun h hmem => h hmem.1

/-- The entry on top has the largest number. -/
theorem le_of_head {s : Stack σ} {top : Entry σ} (h : s.entries.head? = some top) {i : ℕ}
    (hi : i ∈ s.ids) : i ≤ top.id := by
  obtain ⟨e, he, rfl⟩ := List.mem_map.mp hi
  obtain ⟨rest, hrest⟩ := List.head?_eq_some_iff.mp h
  have hordered := s.ordered
  rw [hrest] at he hordered
  rcases List.mem_cons.mp he with rfl | he
  · exact Nat.le_refl _
  · exact Nat.le_of_lt ((List.pairwise_cons.mp hordered).1 e he)

/-! ### Contexts by their identity -/

/-- The contexts on the stack were all made before. -/
structure Fresh (s : Stack σ) : Prop where
  pos : 0 < s.nextHead
  bounded : ∀ e ∈ s.entries, e.context.head < s.nextHead

theorem fresh_empty : (empty : Stack σ).Fresh := ⟨Nat.one_pos, fun _ h => (List.not_mem_nil h).elim⟩

theorem Fresh.current_lt {s : Stack σ} (h : s.Fresh) : s.current.head < s.nextHead := by
  rw [current]
  rcases hentries : s.entries with _ | ⟨top, rest⟩
  · exact h.pos
  · exact h.bounded top (hentries ▸ List.mem_cons_self)

theorem Fresh.attach {s : Stack σ} (h : s.Fresh) {c : Context σ} (hc : c.head < s.nextHead) :
    (s.attach c).2.Fresh :=
  ⟨h.pos, List.forall_mem_cons.mpr ⟨hc, h.bounded⟩⟩

theorem Fresh.setSpan {s : Stack σ} (h : s.Fresh) (c : Context σ) (x : σ) :
    (s.setSpan c x).2.Fresh :=
  ⟨Nat.succ_pos _, fun e he => Nat.lt_succ_of_lt (h.bounded e he)⟩

theorem Fresh.detach {s : Stack σ} (h : s.Fresh) (rule : DetachRule σ) (token : Entry σ) :
    (s.detach rule token).Fresh :=
  ⟨h.pos, fun e he => h.bounded e ((popThrough_sublist rule token s.entries).subset he)⟩

/-- A token whose context is on top pops one entry. -/
theorem popThrough_equalContext_cons {token top : Entry σ}
    (h : token.context.head = top.context.head)
    (rest : List (Entry σ)) : popThrough equalContext token (top :: rest) = rest :=
  (popThrough_cons _ _ _ _).trans (if_pos (decide_eq_true h))

/-- A token whose context is not on the stack pops nothing. -/
theorem popThrough_of_forall_ne {token : Entry σ} {entries : List (Entry σ)}
    (h : ∀ e ∈ entries, token.context.head ≠ e.context.head) :
    popThrough equalContext token entries = entries := by
  refine if_neg ?_
  rw [List.any_eq_true]
  rintro ⟨e, he, hequal⟩
  exact h e he (of_decide_eq_true hequal)

end Stack

end ContextStack
