/-
Byte-string codecs: little-endian integers, length-prefixed strings, counted
repetition.

A reader consumes a prefix of its input.  `Inverts r enc valid` says that a
reader accepts exactly the encodings of valid values and hands back what
follows them:

* `uint_inverts`, `lenString_inverts` — the two primitive fields;
* `Inverts.bind`, `Inverts.replicateM` — a sequence of fields and a counted run;
* `InvertsAll` — the same for a reader that is to consume its whole input, where
  optional fields at the end have a meaning too (`InvertsAll.unlessEof_bind`);
* `Inverts.encode_injective`, `Inverts.flatMap_injective` — an invertible
  encoding is self-delimiting, so neither one value nor a run of values can be
  read in two ways.
-/
import Mathlib.Data.Nat.Bits
import Mathlib.Data.List.Basic
import Mathlib.Tactic.Ring

namespace ByteCodec

/-! ### Little-endian integers -/

/-- The `n` low bytes of a number, least significant first. -/
def leBytes : ℕ → ℕ → List UInt8
  | 0, _ => []
  | n + 1, v => UInt8.ofNat v :: leBytes n (v / 256)

/-- The number that a list of bytes spells, least significant byte first. -/
def leValue : List UInt8 → ℕ
  | [] => 0
  | b :: bs => b.toNat + 256 * leValue bs

@[simp] theorem length_leBytes (n v : ℕ) : (leBytes n v).length = n := by
  induction n generalizing v with
  | zero => rfl
  | succ n ih => rw [leBytes, List.length_cons, ih]

theorem leValue_leBytes (n v : ℕ) : leValue (leBytes n v) = v % 256 ^ n := by
  induction n generalizing v with
  | zero => simp [leBytes, leValue, Nat.mod_one]
  | succ n ih =>
    have hb : (UInt8.ofNat v).toNat = v % 256 := by simp
    rw [leBytes, leValue, ih, hb, Nat.pow_succ, Nat.mul_comm (256 ^ n) 256, Nat.mod_mul]

theorem leValue_lt (bs : List UInt8) : leValue bs < 256 ^ bs.length := by
  induction bs with
  | nil => simp [leValue]
  | cons b bs ih =>
    have hb : b.toNat < 256 := b.toNat_lt
    have hlen : 256 ^ (b :: bs).length = 256 ^ bs.length * 256 := by
      rw [List.length_cons, Nat.pow_succ]
    rw [leValue, hlen]
    omega

theorem leBytes_leValue (bs : List UInt8) : leBytes bs.length (leValue bs) = bs := by
  induction bs with
  | nil => rfl
  | cons b bs ih =>
    have hb : b.toNat < 256 := b.toNat_lt
    have hdiv : (b.toNat + 256 * leValue bs) / 256 = leValue bs := by omega
    have hbyte : UInt8.ofNat (b.toNat + 256 * leValue bs) = b := by
      apply UInt8.toNat_inj.mp
      rw [UInt8.toNat_ofNat']
      omega
    rw [List.length_cons, leValue, leBytes, hdiv, hbyte, ih]

/-! ### Readers -/

/-- A reader of a value from the front of a byte string: the value and the
bytes left over, or nothing when the bytes run out. -/
def Reader (α : Type) : Type := List UInt8 → Option (α × List UInt8)

namespace Reader

instance : Monad Reader where
  pure a := fun bs => some (a, bs)
  bind r f := fun bs => match r bs with
    | none => none
    | some (a, rest) => f a rest

/-- The reader that always fails. -/
def fail {α : Type} : Reader α := fun _ => none

/-- The next `n` bytes. -/
def take (n : ℕ) : Reader (List UInt8) := fun bs =>
  if n ≤ bs.length then some (bs.take n, bs.drop n) else none

/-- An unsigned little-endian integer of `n` bytes. -/
def uint (n : ℕ) : Reader ℕ := fun bs =>
  match take n bs with
  | none => none
  | some (front, rest) => some (leValue front, rest)

/-- A string behind its own length, an integer of `n` bytes. -/
def lenString (n : ℕ) : Reader (List UInt8) := do
  let len ← uint n
  take len

/-- The same field `n` times. -/
def replicateM {α : Type} (r : Reader α) : ℕ → Reader (List α)
  | 0 => pure []
  | n + 1 => do
    let a ← r
    let as ← replicateM r n
    pure (a :: as)

/-- A field that is only there when the input has not ended. -/
def unlessEof {α : Type} (r : Reader α) : Reader (Option α) := fun bs =>
  if bs = [] then some (none, bs) else
    match r bs with
    | none => none
    | some (a, rest) => some (some a, rest)

@[simp] theorem pure_apply {α : Type} (a : α) (bs : List UInt8) :
    (pure a : Reader α) bs = some (a, bs) := rfl

theorem bind_eq_some_iff {α β : Type} {r : Reader α} {f : α → Reader β}
    {bs rest : List UInt8} {b : β} :
    (r >>= f) bs = some (b, rest) ↔
      ∃ a mid, r bs = some (a, mid) ∧ f a mid = some (b, rest) := by
  show (match r bs with | none => none | some (a, mid) => f a mid) = _ ↔ _
  rcases h : r bs with _ | ⟨a, mid⟩
  · simp
  · constructor
    · intro hf
      exact ⟨a, mid, rfl, hf⟩
    · rintro ⟨a', mid', heq, hf⟩
      obtain ⟨rfl, rfl⟩ := Prod.mk.injEq _ _ _ _ ▸ Option.some.inj heq
      exact hf

end Reader

open Reader

/-! ### Invertible fields -/

/-- A reader accepts exactly the encodings of valid values, and consumes
exactly the encoding. -/
def Inverts {α : Type} (r : Reader α) (enc : α → List UInt8) (valid : α → Prop) : Prop :=
  ∀ bs a rest, r bs = some (a, rest) ↔ valid a ∧ bs = enc a ++ rest

variable {α β : Type} {r : Reader α} {enc : α → List UInt8} {valid : α → Prop}

theorem Inverts.read_append (h : Inverts r enc valid) {a : α} (ha : valid a)
    (rest : List UInt8) : r (enc a ++ rest) = some (a, rest) :=
  (h _ _ _).mpr ⟨ha, rfl⟩

/-- Two valid values whose encodings start the same byte string are equal,
and so is what follows them. -/
theorem Inverts.encode_injective (h : Inverts r enc valid) {a b : α}
    (ha : valid a) (hb : valid b) {x y : List UInt8} (heq : enc a ++ x = enc b ++ y) :
    a = b ∧ x = y := by
  have hra := h.read_append ha x
  rw [heq, h.read_append hb y] at hra
  have hpair := Option.some.inj hra
  exact ⟨(congrArg Prod.fst hpair).symm, (congrArg Prod.snd hpair).symm⟩

theorem take_inverts (n : ℕ) : Inverts (take n) id (fun bs => bs.length = n) := by
  intro bs a rest
  rw [take]
  constructor
  · intro h
    split at h
    case isTrue hn =>
      obtain ⟨rfl, rfl⟩ := Prod.mk.injEq _ _ _ _ ▸ Option.some.inj h
      exact ⟨by simp [hn], (List.take_append_drop n bs).symm⟩
    case isFalse => exact absurd h (by simp)
  · rintro ⟨rfl, rfl⟩
    simp

theorem uint_inverts (n : ℕ) : Inverts (uint n) (leBytes n) (fun v => v < 256 ^ n) := by
  intro bs v rest
  rw [uint]
  constructor
  · intro h
    rcases ht : take n bs with _ | ⟨front, rest'⟩
    · rw [ht] at h
      exact absurd h (by simp)
    · rw [ht] at h
      obtain ⟨rfl, rfl⟩ := Prod.mk.injEq _ _ _ _ ▸ Option.some.inj h
      obtain ⟨hlen, hbs⟩ := (take_inverts n _ _ _).mp ht
      refine ⟨hlen ▸ leValue_lt front, ?_⟩
      rw [hbs, ← hlen, leBytes_leValue, id_eq]
  · rintro ⟨hv, rfl⟩
    have ht : take n (leBytes n v ++ rest) = some (leBytes n v, rest) :=
      (take_inverts n).read_append (length_leBytes n v) rest
    rw [ht]
    simp only [leValue_leBytes, Nat.mod_eq_of_lt hv]

/-- A string behind its length. -/
def lenStringBytes (n : ℕ) (s : List UInt8) : List UInt8 := leBytes n s.length ++ s

@[simp] theorem length_lenStringBytes (n : ℕ) (s : List UInt8) :
    (lenStringBytes n s).length = n + s.length := by
  rw [lenStringBytes, List.length_append, length_leBytes]

theorem lenString_inverts (n : ℕ) :
    Inverts (lenString n) (lenStringBytes n) (fun s => s.length < 256 ^ n) := by
  intro bs s rest
  rw [lenString, bind_eq_some_iff, lenStringBytes]
  constructor
  · rintro ⟨len, mid, hlen, hs⟩
    obtain ⟨hlt, rfl⟩ := (uint_inverts n _ _ _).mp hlen
    obtain ⟨rfl, rfl⟩ := (take_inverts len _ _ _).mp hs
    exact ⟨hlt, by rw [id_eq, List.append_assoc]⟩
  · rintro ⟨hs, rfl⟩
    refine ⟨s.length, s ++ rest, ?_, (take_inverts _).read_append rfl rest⟩
    rw [List.append_assoc]
    exact (uint_inverts n).read_append hs _

theorem Inverts.congr {enc' : α → List UInt8} {valid' : α → Prop} (h : Inverts r enc valid)
    (henc : ∀ a, valid a → enc a = enc' a) (hvalid : ∀ a, valid a ↔ valid' a) :
    Inverts r enc' valid' := by
  intro bs a rest
  rw [h bs a rest, ← hvalid a]
  exact and_congr_right fun ha => by rw [henc a ha]

theorem Inverts.pure (a : α) : Inverts (Pure.pure a : Reader α) (fun _ => []) (fun b => b = a) := by
  intro bs b rest
  rw [pure_apply, List.nil_append]
  constructor
  · intro h
    obtain ⟨rfl, rfl⟩ := Prod.mk.injEq _ _ _ _ ▸ Option.some.inj h
    exact ⟨rfl, rfl⟩
  · rintro ⟨rfl, rfl⟩
    rfl

/-- A field followed by others that may depend on it; `proj` finds the field in
what was read in the end. -/
theorem Inverts.bind {f : α → Reader β} {enc₂ : α → β → List UInt8} {valid₂ : α → β → Prop}
    (h₁ : Inverts r enc valid) (proj : β → α)
    (h₂ : ∀ a, valid a → Inverts (f a) (enc₂ a) (valid₂ a))
    (hproj : ∀ a b, valid₂ a b → proj b = a) :
    Inverts (r >>= f) (fun b => enc (proj b) ++ enc₂ (proj b) b)
      (fun b => valid (proj b) ∧ valid₂ (proj b) b) := by
  intro bs b rest
  rw [bind_eq_some_iff]
  constructor
  · rintro ⟨a, mid, ha, hb⟩
    obtain ⟨hva, rfl⟩ := (h₁ _ _ _).mp ha
    obtain ⟨hvb, rfl⟩ := (h₂ a hva _ _ _).mp hb
    -- `a` is what `proj` finds, so that the encoding can name it
    obtain rfl := hproj a b hvb
    exact ⟨⟨hva, hvb⟩, by rw [List.append_assoc]⟩
  · rintro ⟨⟨hva, hvb⟩, rfl⟩
    refine ⟨proj b, enc₂ (proj b) b ++ rest, ?_, (h₂ _ hva).read_append hvb rest⟩
    rw [List.append_assoc]
    exact h₁.read_append hva _

/-- A field under a constructor. -/
theorem Inverts.map (h : Inverts r enc valid) (g : α → β) {enc' : β → List UInt8}
    (henc : ∀ a, valid a → enc' (g a) = enc a) :
    Inverts (r >>= fun a => Pure.pure (g a)) enc' (fun b => ∃ a, valid a ∧ b = g a) := by
  intro bs b rest
  rw [bind_eq_some_iff]
  constructor
  · rintro ⟨a, mid, ha, hb⟩
    obtain ⟨hva, rfl⟩ := (h _ _ _).mp ha
    obtain ⟨rfl, rfl⟩ := Prod.mk.injEq _ _ _ _ ▸ Option.some.inj hb
    exact ⟨⟨a, hva, rfl⟩, by rw [henc a hva]⟩
  · rintro ⟨⟨a, hva, rfl⟩, rfl⟩
    exact ⟨a, rest, by rw [henc a hva]; exact h.read_append hva rest, rfl⟩

/-- A counted run of invertible fields is invertible. -/
theorem Inverts.replicateM (h : Inverts r enc valid) (n : ℕ) :
    Inverts (r.replicateM n) (fun as => as.flatMap enc)
      (fun as => as.length = n ∧ ∀ a ∈ as, valid a) := by
  induction n with
  | zero =>
    intro bs as rest
    rw [Reader.replicateM, pure_apply]
    constructor
    · intro heq
      obtain ⟨rfl, rfl⟩ := Prod.mk.injEq _ _ _ _ ▸ Option.some.inj heq
      simp
    · rintro ⟨⟨hlen, -⟩, rfl⟩
      rw [List.length_eq_zero_iff.mp hlen]
      rfl
  | succ n ih =>
    intro bs as rest
    simp only [Reader.replicateM, bind_eq_some_iff, pure_apply]
    constructor
    · rintro ⟨a, mid, ha, as', mid', has, heq⟩
      obtain ⟨rfl, rfl⟩ := Prod.mk.injEq _ _ _ _ ▸ Option.some.inj heq
      obtain ⟨hva, rfl⟩ := (h _ _ _).mp ha
      obtain ⟨⟨hlen, hvs⟩, rfl⟩ := (ih _ _ _).mp has
      refine ⟨⟨by rw [List.length_cons, hlen], ?_⟩, by simp⟩
      rintro b hb
      rcases List.mem_cons.mp hb with rfl | hb
      · exact hva
      · exact hvs b hb
    · rintro ⟨⟨hlen, hvs⟩, rfl⟩
      rcases as with _ | ⟨a, as⟩
      · simp at hlen
      · -- read the first value, then the others by induction
        have hread := h.read_append (hvs a (by simp)) (as.flatMap enc ++ rest)
        have hreads := (ih _ as rest).mpr
          ⟨⟨by simpa using hlen, fun b hb => hvs b (by simp [hb])⟩, rfl⟩
        exact ⟨a, _, by simpa using hread, as, rest, hreads, rfl⟩

/-! ### Whole inputs -/

/-- A reader uses up exactly the encodings of valid values. -/
def InvertsAll (r : Reader α) (enc : α → List UInt8) (valid : α → Prop) : Prop :=
  ∀ bs a, r bs = some (a, []) ↔ valid a ∧ bs = enc a

theorem Inverts.all (h : Inverts r enc valid) : InvertsAll r enc valid := by
  intro bs a
  rw [h bs a [], List.append_nil]

theorem InvertsAll.congr {enc' : α → List UInt8} {valid' : α → Prop} (h : InvertsAll r enc valid)
    (henc : ∀ a, valid a → enc a = enc' a) (hvalid : ∀ a, valid a ↔ valid' a) :
    InvertsAll r enc' valid' := by
  intro bs a
  rw [h bs a, ← hvalid a]
  exact and_congr_right fun ha => by rw [henc a ha]

theorem InvertsAll.bind {f : α → Reader β} {enc₂ : α → β → List UInt8} {valid₂ : α → β → Prop}
    (h₁ : Inverts r enc valid) (proj : β → α)
    (h₂ : ∀ a, valid a → InvertsAll (f a) (enc₂ a) (valid₂ a))
    (hproj : ∀ a b, valid₂ a b → proj b = a) :
    InvertsAll (r >>= f) (fun b => enc (proj b) ++ enc₂ (proj b) b)
      (fun b => valid (proj b) ∧ valid₂ (proj b) b) := by
  intro bs b
  rw [bind_eq_some_iff]
  constructor
  · rintro ⟨a, mid, ha, hb⟩
    obtain ⟨hva, rfl⟩ := (h₁ _ _ _).mp ha
    obtain ⟨hvb, rfl⟩ := (h₂ a hva _ _).mp hb
    obtain rfl := hproj a b hvb
    exact ⟨⟨hva, hvb⟩, rfl⟩
  · rintro ⟨⟨hva, hvb⟩, rfl⟩
    exact ⟨proj b, enc₂ (proj b) b, h₁.read_append hva _, (h₂ _ hva _ _).mpr ⟨hvb, rfl⟩⟩

theorem InvertsAll.map (h : InvertsAll r enc valid) {g : α → β} (proj : β → α)
    (hproj : ∀ a, proj (g a) = a) :
    InvertsAll (r >>= fun a => Pure.pure (g a)) (fun b => enc (proj b))
      (fun b => valid (proj b) ∧ b = g (proj b)) := by
  intro bs b
  rw [bind_eq_some_iff]
  constructor
  · rintro ⟨a, mid, ha, hb⟩
    obtain ⟨rfl, rfl⟩ := Prod.mk.injEq _ _ _ _ ▸ Option.some.inj hb
    obtain ⟨hva, rfl⟩ := (h _ _).mp ha
    beta_reduce
    rw [hproj]
    exact ⟨⟨hva, rfl⟩, rfl⟩
  · rintro ⟨⟨hva, hb⟩, rfl⟩
    exact ⟨proj b, [], (h _ _).mpr ⟨hva, rfl⟩, by rw [← hb, pure_apply]⟩

/-- A field that may be missing at the end of the input. -/
theorem InvertsAll.unlessEof (h : Inverts r enc valid) (hne : ∀ a, valid a → enc a ≠ []) :
    InvertsAll (r.unlessEof) (fun o => o.elim [] enc) (fun o => ∀ a ∈ o, valid a) := by
  intro bs o
  beta_reduce
  rw [Reader.unlessEof]
  -- a valid value is never empty, so that the end of the input tells them apart
  by_cases hbs : bs = []
  · rw [if_pos hbs, hbs]
    rcases o with _ | a
    · simp
    · have : valid a → [] ≠ enc a := fun ha => (hne a ha).symm
      simpa using this
  · rw [if_neg hbs]
    rcases hr : r bs with _ | ⟨a', rest⟩
    · rcases o with _ | a
      · simp [hbs]
      · have hno : valid a → bs ≠ enc a := by
          rintro ha rfl
          have hread := h.read_append ha []
          rw [List.append_nil, hr] at hread
          exact absurd hread (by simp)
        simpa using hno
    · obtain ⟨hva', rfl⟩ := (h _ _ _).mp hr
      constructor
      · intro heq
        obtain ⟨rfl, rfl⟩ := Prod.mk.injEq _ _ _ _ ▸ Option.some.inj heq
        refine ⟨?_, List.append_nil _⟩
        rintro a ⟨⟩
        exact hva'
      · rintro ⟨hvo, heq⟩
        rcases o with _ | a
        · exact absurd heq hbs
        · obtain ⟨rfl, rfl⟩ := h.encode_injective hva' (hvo a rfl) (x := rest) (y := [])
            (by rw [List.append_nil]; exact heq)
          rfl

/-- A field that may be missing at the end of the input, followed by others; when
it is missing, what follows has nothing to read. -/
theorem InvertsAll.unlessEof_bind {f : Option α → Reader β} {enc₂ : Option α → β → List UInt8}
    {valid₂ : Option α → β → Prop} (h₁ : Inverts r enc valid) (hne : ∀ a, valid a → enc a ≠ [])
    (proj : β → Option α)
    (h₂ : ∀ o, (∀ a ∈ o, valid a) → InvertsAll (f o) (enc₂ o) (valid₂ o))
    (hproj : ∀ o b, valid₂ o b → proj b = o) :
    InvertsAll (r.unlessEof >>= f) (fun b => (proj b).elim [] enc ++ enc₂ (proj b) b)
      (fun b => (∀ a ∈ proj b, valid a) ∧ valid₂ (proj b) b ∧
        (proj b = none → enc₂ none b = [])) := by
  intro bs b
  beta_reduce
  rw [bind_eq_some_iff]
  constructor
  · rintro ⟨o, mid, ho, hb⟩
    rw [Reader.unlessEof] at ho
    by_cases hbs : bs = []
    · rw [if_pos hbs] at ho
      obtain ⟨rfl, rfl⟩ := Prod.mk.injEq _ _ _ _ ▸ Option.some.inj ho
      -- nothing is left to read, and so nothing follows
      obtain ⟨hvb, henc⟩ := (h₂ none (by simp) _ _).mp hb
      rw [hproj none b hvb]
      exact ⟨⟨by simp, hvb, fun _ => henc ▸ hbs⟩, henc⟩
    · rw [if_neg hbs] at ho
      rcases hr : r bs with _ | ⟨a, rest⟩
      · simp [hr] at ho
      · rw [hr] at ho
        obtain ⟨rfl, rfl⟩ := Prod.mk.injEq _ _ _ _ ▸ Option.some.inj ho
        obtain ⟨hva, rfl⟩ := (h₁ _ _ _).mp hr
        have hvo : ∀ a' ∈ some a, valid a' := by
          rintro a' ⟨⟩
          exact hva
        obtain ⟨hvb, rfl⟩ := (h₂ (some a) hvo _ _).mp hb
        rw [hproj (some a) b hvb]
        exact ⟨⟨hvo, hvb, by simp⟩, rfl⟩
  · rintro ⟨⟨hvo, hvb, hnone⟩, rfl⟩
    rcases ho : proj b with _ | a
    · rw [ho] at hvb
      rw [hnone ho]
      exact ⟨none, [], rfl, (h₂ none (by simp) _ _).mpr ⟨hvb, (hnone ho).symm⟩⟩
    · rw [ho] at hvb hvo
      have hva : valid a := hvo a rfl
      refine ⟨some a, enc₂ (some a) b, ?_, (h₂ (some a) hvo _ _).mpr ⟨hvb, rfl⟩⟩
      show r.unlessEof (enc a ++ enc₂ (some a) b) = _
      rw [Reader.unlessEof, if_neg (by simp [hne a hva]), h₁.read_append hva]

/-- Runs of invertible fields that fill the same bytes are the same runs,
provided no field is empty. -/
theorem Inverts.flatMap_injective (h : Inverts r enc valid)
    (hne : ∀ a, valid a → enc a ≠ []) {as bs : List α}
    (has : ∀ a ∈ as, valid a) (hbs : ∀ b ∈ bs, valid b)
    (heq : as.flatMap enc = bs.flatMap enc) : as = bs := by
  induction as generalizing bs with
  | nil =>
    rcases bs with _ | ⟨b, bs⟩
    · rfl
    · have hnil : enc b ++ bs.flatMap enc = [] := by simpa using heq.symm
      exact absurd (List.append_eq_nil_iff.mp hnil).1 (hne b (hbs b (by simp)))
  | cons a as ih =>
    rcases bs with _ | ⟨b, bs⟩
    · have hnil : enc a ++ as.flatMap enc = [] := by simpa using heq
      exact absurd (List.append_eq_nil_iff.mp hnil).1 (hne a (has a (by simp)))
    · rw [List.flatMap_cons, List.flatMap_cons] at heq
      -- the first items are the same, and the rest by induction
      obtain ⟨rfl, htail⟩ :=
        h.encode_injective (has a (by simp)) (hbs b (by simp)) heq
      rw [ih (fun x hx => has x (by simp [hx])) (fun x hx => hbs x (by simp [hx])) htail]

theorem lenStringBytes_ne_nil {n : ℕ} (hn : 0 < n) (s : List UInt8) :
    lenStringBytes n s ≠ [] := by
  intro h
  have hlen := congrArg List.length h
  rw [length_lenStringBytes, List.length_nil] at hlen
  omega

end ByteCodec
