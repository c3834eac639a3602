/-
String objects that may hold their text in themselves.

A text lies in its string object or in a buffer of the heap.  A move hands on the buffer, but
a text in the object is copied into the new object, and the old object keeps an empty one.
Numbers are not given twice, so a pointer to a text that is gone can be told from any other.

* `move_text` — the moved string has the text of the old one;
* `move_data_eq_iff`, `move_move_data_eq_iff` — and has it at the same place, also after a
  second move, exactly when that was a buffer;
* `move_frame`, `destroy_frame` — the texts of other strings stay.
-/
import Mathlib.Logic.Function.Basic
import Mathlib.Data.Nat.Notation

namespace StringObject

/-- Where a text lies, with the number of the object or of the buffer. -/
inductive Place
  | object (n : ℕ)
  | buffer (n : ℕ)
  deriving DecidableEq

def Place.number : Place → ℕ
  | .object n => n
  | .buffer n => n

/-- The texts that can be read, and the first number that was not given yet. -/
structure Memory (T : Type) where
  text : Place → Option T
  next : ℕ

/-- A string: the number of its object, and where its text lies. -/
structure Str where
  address : ℕ
  data : Place
  deriving DecidableEq

variable {T : Type}

/-- A string lies in itself or in a buffer, at numbers that have been given. -/
structure Str.WellFormed (m : Memory T) (s : Str) : Prop where
  address_lt : s.address < m.next
  number_lt : s.data.number < m.next
  inside : ∀ n, s.data = .object n → n = s.address

/-! ### Operations -/

/-- A string with a text; `inObject` says which texts lie in the object. -/
def construct (inObject : T → Bool) (m : Memory T) (t : T) : Str × Memory T :=
  let data := if inObject t then Place.object m.next else .buffer m.next
  (⟨m.next, data⟩, ⟨Function.update m.text data (some t), m.next + 1⟩)

/-- What a string is after it has been moved. -/
def Str.movedFrom (s : Str) : Str := ⟨s.address, .object s.address⟩

/-- A new string takes over the text of another. -/
def move (empty : T) (m : Memory T) (s : Str) : Str × Memory T :=
  if s.data = .object s.address then
    (⟨m.next, .object m.next⟩,
      ⟨Function.update (Function.update m.text (.object m.next) (m.text s.data))
        s.data (some empty), m.next + 1⟩)
  else (⟨m.next, s.data⟩, ⟨Function.update m.text s.movedFrom.data (some empty), m.next + 1⟩)

def destroy (m : Memory T) (s : Str) : Memory T :=
  { m with text := Function.update m.text s.data none }

/-! ### What they do -/

section

variable {inObject : T → Bool} {empty : T} {m : Memory T} {t : T} {s : Str} {p : Place}

theorem construct_text : (construct inObject m t).2.text (construct inObject m t).1.data = some t :=
  Function.update_self _ _ _

theorem construct_frame (hp : p.number < m.next) :
    (construct inObject m t).2.text p = m.text p := by
  refine Function.update_of_ne (fun h => ?_) _ _
  subst h
  split at hp <;> exact Nat.lt_irrefl _ hp

theorem construct_wellFormed :
    (construct inObject m t).1.WellFormed (construct inObject m t).2 where
  address_lt := Nat.lt_succ_self _
  number_lt := by
    show (if inObject t then Place.object m.next else .buffer m.next).number < m.next + 1
    split <;> exact Nat.lt_succ_self _
  inside n hn := by
    have hn : (if inObject t then Place.object m.next else .buffer m.next) = .object n := hn
    split at hn
    · exact (Place.object.inj hn).symm
    · cases hn

theorem construct_inside :
    (construct inObject m t).1.data = .object (construct inObject m t).1.address ↔
      inObject t = true := by
  show (if inObject t then Place.object m.next else .buffer m.next) = .object m.next ↔ _
  cases inObject t with
  | true => exact ⟨fun _ => rfl, fun _ => rfl⟩
  | false => exact ⟨nofun, nofun⟩

theorem move_next : (move empty m s).2.next = m.next + 1 := by
  rw [move]
  split <;> rfl

theorem move_address : (move empty m s).1.address = m.next := by
  rw [move]
  split <;> rfl

/-- A moved string has its text at the same place exactly when it is not in the object. -/
theorem move_data_eq_iff (hs : s.WellFormed m) :
    (move empty m s).1.data = s.data ↔ s.data ≠ .object s.address := by
  rw [move]
  split
  case isTrue h =>
    refine ⟨fun heq => ?_, fun hne => absurd h hne⟩
    have haddress : m.next = s.address := hs.inside m.next heq.symm
    exact absurd hs.address_lt (haddress ▸ Nat.lt_irrefl _)
  case isFalse h => exact ⟨fun _ => h, fun _ => rfl⟩

theorem move_inside_iff (hs : s.WellFormed m) :
    (move empty m s).1.data = .object (move empty m s).1.address ↔ s.data = .object s.address := by
  rw [move]
  split
  case isTrue h => exact ⟨fun _ => h, fun _ => rfl⟩
  case isFalse h =>
    refine ⟨fun heq => ?_, fun heq => absurd heq h⟩
    have hlt := hs.number_lt
    rw [show s.data = .object m.next from heq] at hlt
    exact absurd hlt (Nat.lt_irrefl _)

theorem move_wellFormed (hs : s.WellFormed m) :
    (move empty m s).1.WellFormed (move empty m s).2 := by
  refine ⟨by rw [move_address, move_next]; exact Nat.lt_succ_self _, ?_, ?_⟩
  · rw [move_next, move]
    split
    · exact Nat.lt_succ_self _
    · exact Nat.lt_succ_of_lt hs.number_lt
  · rw [move]
    split
    case isTrue => exact fun n hn => (Place.object.inj hn).symm
    case isFalse h =>
      intro n hn
      exact absurd (hs.inside n hn ▸ hn) h

theorem move_data_ne (hs : s.WellFormed m) {n : ℕ} (hn : n < m.next) :
    (move empty m s).1.data ≠ .object n := by
  intro h
  have hn' : n = m.next := ((move_wellFormed hs).inside n h).trans move_address
  exact absurd hn (hn' ▸ Nat.lt_irrefl _)

/-- A second move changes nothing about that. -/
theorem move_move_data_eq_iff (hs : s.WellFormed m) :
    (move empty (move empty m s).2 (move empty m s).1).1.data = s.data ↔
      s.data ≠ .object s.address := by
  constructor
  · intro heq hinside
    have hlt : s.address < (move empty m s).2.next := by
      rw [move_next]
      exact Nat.lt_succ_of_lt hs.address_lt
    exact move_data_ne (move_wellFormed hs) hlt (heq.trans hinside)
  · intro hbuffer
    have hbuffer' := mt (@move_inside_iff T empty m s hs).mp hbuffer
    exact ((move_data_eq_iff (move_wellFormed hs)).mpr hbuffer').trans
      ((move_data_eq_iff hs).mpr hbuffer)

theorem move_text (hs : s.WellFormed m) :
    (move empty m s).2.text (move empty m s).1.data = m.text s.data := by
  rw [move]
  split
  case isTrue h =>
    have hne : Place.object m.next ≠ s.data := by
      intro heq
      exact absurd hs.number_lt (heq ▸ Nat.lt_irrefl _)
    exact (Function.update_of_ne hne _ _).trans (Function.update_self _ _ _)
  case isFalse h => exact Function.update_of_ne h _ _

/-- Texts that are not in the two objects of a move stay. -/
theorem move_frame (hp : p.number < m.next) (hold : p ≠ .object s.address) :
    (move empty m s).2.text p = m.text p := by
  rw [move]
  split
  case isTrue h =>
    have hnew : p ≠ .object m.next := by
      intro heq
      subst heq
      exact Nat.lt_irrefl _ hp
    exact (Function.update_of_ne (h ▸ hold) _ _).trans (Function.update_of_ne hnew _ _)
  case isFalse => exact Function.update_of_ne hold _ _

theorem destroy_frame (hp : p ≠ s.data) : (destroy m s).text p = m.text p :=
  Function.update_of_ne hp _ _

end

end StringObject
