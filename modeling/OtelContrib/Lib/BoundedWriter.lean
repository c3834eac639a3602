/-
Sequential writing into a buffer of bounded capacity.

Memory is addressed from the start of the buffer and does not end with it, so
a write past the capacity is a state a writer could reach; every `memcpy` is
also logged.  A `Serializer` runs on a memory with a running index and may
abort, in which case what it wrote so far stays in memory.

* `Emits cap op bytes a` — started anywhere below the capacity, `op` either
  appends exactly `bytes` and returns `a`, when they fit, or aborts after a
  part of its work, without passing the capacity;
* `Emits.bind`, `Emits.foldlM_filter` — the rule for sequencing and the rule for
  loops that skip items;
* `Writes`, `Writes.attempt`, `Writes.atIndex` — the same for a back-patch whose
  success is not looked at;
* `Emits.bind_hole` — a field kept free and patched once a later loop has
  counted its items;
* `runSerializer_framed` — a message whose content is written behind space kept
  for a header that is patched last.
-/
import Mathlib.Data.List.Basic
import Mathlib.Logic.Function.Iterate

namespace BoundedWriter

/-! ### Memory -/

/-- The contents with `bytes` laid over them from offset `i`. -/
def overlay (cells : ℕ → UInt8) (i : ℕ) (bytes : List UInt8) : ℕ → UInt8 :=
  fun j => if i ≤ j then (bytes[j - i]?).getD (cells j) else cells j

/-- The `n` bytes from offset `i`. -/
def readCells (cells : ℕ → UInt8) (i n : ℕ) : List UInt8 :=
  (List.range n).map fun j => cells (i + j)

@[simp] theorem length_readCells (cells : ℕ → UInt8) (i n : ℕ) :
    (readCells cells i n).length = n := by simp [readCells]

@[simp] theorem overlay_nil (cells : ℕ → UInt8) (i : ℕ) : overlay cells i [] = cells := by
  funext j
  simp [overlay]

theorem overlay_append (cells : ℕ → UInt8) (i : ℕ) (a b : List UInt8) :
    overlay (overlay cells i a) (i + a.length) b = overlay cells i (a ++ b) := by
  funext j
  simp only [overlay]
  by_cases hij : i ≤ j
  · by_cases hj : i + a.length ≤ j
    · have hna : a[j - i]? = none := List.getElem?_eq_none (by omega)
      have hsub : j - i - a.length = j - (i + a.length) := by omega
      rw [if_pos hj, if_pos hij, if_pos hij, hna, List.getElem?_append_right (by omega), hsub]
      rfl
    · rw [if_neg hj, if_pos hij, if_pos hij, List.getElem?_append_left (by omega)]
  · rw [if_neg (by omega), if_neg hij, if_neg hij]

theorem overlay_apply_of_lt {cells : ℕ → UInt8} {i j : ℕ} {bytes : List UInt8} (h : j < i) :
    overlay cells i bytes j = cells j := by
  rw [overlay, if_neg (by omega)]

theorem overlay_apply_of_ge {cells : ℕ → UInt8} {i j : ℕ} {bytes : List UInt8}
    (h : i + bytes.length ≤ j) : overlay cells i bytes j = cells j := by
  rw [overlay, if_pos (by omega), List.getElem?_eq_none (by omega)]
  rfl

theorem readCells_add (cells : ℕ → UInt8) (i m n : ℕ) :
    readCells cells i (m + n) = readCells cells i m ++ readCells cells (i + m) n := by
  rw [readCells, List.range_add, List.map_append, List.map_map]
  simp only [readCells, Function.comp_def, Nat.add_assoc]

theorem take_readCells (cells : ℕ → UInt8) (i : ℕ) {m n : ℕ} (h : m ≤ n) :
    (readCells cells i n).take m = readCells cells i m := by
  rw [readCells, readCells, ← List.map_take, List.take_range, Nat.min_eq_left h]

theorem readCells_congr {c d : ℕ → UInt8} {i n : ℕ} (h : ∀ j, i ≤ j → j < i + n → c j = d j) :
    readCells c i n = readCells d i n := by
  apply List.map_congr_left
  intro j hj
  exact h (i + j) (by omega) (by have := List.mem_range.mp hj; omega)

theorem readCells_overlay (cells : ℕ → UInt8) (i : ℕ) (bytes : List UInt8) :
    readCells (overlay cells i bytes) i bytes.length = bytes := by
  apply List.ext_getElem (by simp)
  intro j hj hj'
  simp [readCells, overlay, hj']

theorem readCells_overlay_of_length (cells : ℕ → UInt8) (i : ℕ) {bytes : List UInt8} {n : ℕ}
    (h : bytes.length = n) : readCells (overlay cells i bytes) i n = bytes := by
  subst h
  exact readCells_overlay cells i bytes

theorem readCells_overlay_of_disjoint (cells : ℕ → UInt8) (i : ℕ) (bytes : List UInt8) (j n : ℕ)
    (h : j + n ≤ i ∨ i + bytes.length ≤ j) :
    readCells (overlay cells i bytes) j n = readCells cells j n := by
  apply readCells_congr
  intro k hk hk'
  rcases h with h | h
  · exact overlay_apply_of_lt (by omega)
  · exact overlay_apply_of_ge (by omega)

/-- Laying `c` over the middle part of equal length replaces that part. -/
theorem overlay_patch (cells : ℕ → UInt8) (i : ℕ) {z c : List UInt8} (q : List UInt8)
    (h : c.length = z.length) :
    overlay (overlay cells i (z ++ q)) i c = overlay cells i (c ++ q) := by
  funext j
  simp only [overlay]
  by_cases hij : i ≤ j
  · rw [if_pos hij, if_pos hij, if_pos hij]
    by_cases hj : j - i < c.length
    · rw [List.getElem?_append_left hj, List.getElem?_eq_getElem hj]
      rfl
    · rw [List.getElem?_eq_none (by omega), List.getElem?_append_right (by omega),
        List.getElem?_append_right (by omega), h]
      rfl
  · rw [if_neg hij, if_neg hij, if_neg hij]

/-- Memory addressed from the start of a buffer, with the offset and length of
every write made to it, oldest first. -/
structure Memory where
  cells : ℕ → UInt8
  writes : List (ℕ × ℕ)

/-- Copies `bytes` to offset `i`. -/
def Memory.memcpy (m : Memory) (i : ℕ) (bytes : List UInt8) : Memory :=
  { cells := overlay m.cells i bytes, writes := m.writes ++ [(i, bytes.length)] }

/-- The first `n` bytes of the buffer. -/
def Memory.take (m : Memory) (n : ℕ) : List UInt8 := readCells m.cells 0 n

/-! ### Serializers -/

/-- A buffer and the running index into it. -/
structure Writer where
  memory : Memory
  index : ℕ

/-- A computation that writes at a running index and may abort. -/
def Serializer (α : Type) : Type := Writer → Option α × Writer

namespace Serializer

instance : Monad Serializer where
  pure a := fun w => (some a, w)
  bind op f := fun w => match op w with
    | (none, w') => (none, w')
    | (some a, w') => f a w'

/-- Stops the computation, leaving memory as it is. -/
def abort {α : Type} : Serializer α := fun w => (none, w)

/-- The running index. -/
def getIndex : Serializer ℕ := fun w => (some w.index, w)

/-- Copies bytes to the running index and moves it behind them, unchecked. -/
def append (bytes : List UInt8) : Serializer Unit := fun w =>
  (some (), ⟨w.memory.memcpy w.index bytes, w.index + bytes.length⟩)

/-- Runs a computation and goes on whether or not it aborted. -/
def attempt (op : Serializer Unit) : Serializer Unit := fun w => (some (), (op w).2)

/-- Runs a computation with another running index, then returns to this one. -/
def atIndex {α : Type} (i : ℕ) (op : Serializer α) : Serializer α := fun w =>
  ((op { w with index := i }).1, { (op { w with index := i }).2 with index := w.index })

@[simp] theorem pure_apply {α : Type} (a : α) (w : Writer) :
    (pure a : Serializer α) w = (some a, w) := rfl

theorem bind_apply_some {α β : Type} {op : Serializer α} {f : α → Serializer β}
    {w w' : Writer} {a : α} (h : op w = (some a, w')) : (op >>= f) w = f a w' := by
  show (match op w with | (none, w') => (none, w') | (some a, w') => f a w') = _
  rw [h]

theorem bind_apply_none {α β : Type} {op : Serializer α} {f : α → Serializer β}
    {w w' : Writer} (h : op w = (none, w')) : (op >>= f) w = (none, w') := by
  show (match op w with | (none, w') => (none, w') | (some a, w') => f a w') = _
  rw [h]

end Serializer

open Serializer

/-- `w'` is `w` after appending `bytes`: only the appended range was written. -/
structure Appends (w w' : Writer) (bytes : List UInt8) : Prop where
  index_eq : w'.index = w.index + bytes.length
  cells_eq : w'.memory.cells = overlay w.memory.cells w.index bytes
  writes_eq : ∃ new, w'.memory.writes = w.memory.writes ++ new ∧
    ∀ p ∈ new, w.index ≤ p.1 ∧ p.1 + p.2 ≤ w'.index

theorem Appends.refl (w : Writer) : Appends w w [] :=
  ⟨by simp, by simp, [], by simp, by simp⟩

theorem Appends.trans {w w₁ w₂ : Writer} {a b : List UInt8}
    (h₁ : Appends w w₁ a) (h₂ : Appends w₁ w₂ b) : Appends w w₂ (a ++ b) := by
  obtain ⟨new₁, heq₁, hin₁⟩ := h₁.writes_eq
  obtain ⟨new₂, heq₂, hin₂⟩ := h₂.writes_eq
  have hidx₁ := h₁.index_eq
  have hidx₂ := h₂.index_eq
  refine ⟨?_, ?_, new₁ ++ new₂, ?_, ?_⟩
  · rw [hidx₂, hidx₁, List.length_append, Nat.add_assoc]
  · rw [h₂.cells_eq, h₁.cells_eq, hidx₁, overlay_append]
  · rw [heq₂, heq₁, List.append_assoc]
  · intro p hp
    rcases List.mem_append.mp hp with hp | hp
    · obtain ⟨hlo, hhi⟩ := hin₁ p hp
      exact ⟨hlo, by omega⟩
    · obtain ⟨hlo, hhi⟩ := hin₂ p hp
      exact ⟨by omega, hhi⟩

theorem append_appends (bytes : List UInt8) (w : Writer) :
    Appends w ((append bytes w).2) bytes :=
  ⟨rfl, rfl, [(w.index, bytes.length)], rfl, by
    intro p hp
    rw [List.mem_singleton.mp hp]
    exact ⟨Nat.le_refl _, Nat.le_refl _⟩⟩

/-- When `bytes` fit below the capacity, `op` appends them and returns `a`. -/
def Writes {α : Type} (cap : ℕ) (op : Serializer α) (bytes : List UInt8) (a : α) : Prop :=
  ∀ w, w.index + bytes.length ≤ cap → ∃ w', op w = (some a, w') ∧ Appends w w' bytes

/-- `op` appends `bytes` and returns `a` when they fit below the capacity, and
otherwise aborts without having passed it. -/
structure Emits {α : Type} (cap : ℕ) (op : Serializer α) (bytes : List UInt8) (a : α) :
    Prop where
  writes : Writes cap op bytes a
  aborts : ∀ w, w.index ≤ cap → cap < w.index + bytes.length →
    ∃ w' part, op w = (none, w') ∧ Appends w w' part ∧ w'.index ≤ cap

variable {α β γ σ : Type} {cap : ℕ}

theorem Writes.bind {op : Serializer α} {f : α → Serializer β} {x y : List UInt8} {a : α} {b : β}
    (h₁ : Writes cap op x a) (h₂ : Writes cap (f a) y b) :
    Writes cap (op >>= f) (x ++ y) b := by
  intro w hw
  rw [List.length_append] at hw
  obtain ⟨w₁, hop, happ₁⟩ := h₁ w (by omega)
  obtain ⟨w₂, hf, happ₂⟩ := h₂ w₁ (by rw [happ₁.index_eq]; omega)
  exact ⟨w₂, by rw [bind_apply_some hop, hf], happ₁.trans happ₂⟩

theorem Writes.pure (a : α) : Writes cap (Pure.pure a : Serializer α) [] a :=
  fun w _ => ⟨w, rfl, Appends.refl w⟩

theorem Writes.attempt {op : Serializer Unit} {x : List UInt8} (h : Writes cap op x ()) :
    Writes cap op.attempt x () := by
  intro w hw
  obtain ⟨w', hop, happ⟩ := h w hw
  exact ⟨w', by rw [Serializer.attempt, hop], happ⟩

/-- A back-patch: only the patched range changes, and the index stays. -/
theorem Writes.atIndex {op : Serializer α} {x : List UInt8} {a : α} {i : ℕ}
    (h : Writes cap op x a) (hi : i + x.length ≤ cap) (w : Writer) :
    ∃ w', op.atIndex i w = (some a, w') ∧ w'.index = w.index ∧
      w'.memory.cells = overlay w.memory.cells i x ∧
      ∃ new, w'.memory.writes = w.memory.writes ++ new ∧
        ∀ p ∈ new, i ≤ p.1 ∧ p.1 + p.2 ≤ i + x.length := by
  obtain ⟨w', hop, happ⟩ := h { w with index := i } hi
  obtain ⟨new, hnew, hin⟩ := happ.writes_eq
  refine ⟨{ w' with index := w.index }, by rw [Serializer.atIndex, hop], rfl,
    happ.cells_eq, new, hnew, fun p hp => ?_⟩
  rw [← happ.index_eq]
  exact hin p hp

theorem Emits.pure (a : α) : Emits cap (Pure.pure a : Serializer α) [] a :=
  ⟨Writes.pure a, fun w h₁ h₂ => absurd h₂ (by simpa using h₁)⟩

theorem Emits.bind {op : Serializer α} {f : α → Serializer β} {x y : List UInt8} {a : α} {b : β}
    (h₁ : Emits cap op x a) (h₂ : Emits cap (f a) y b) :
    Emits cap (op >>= f) (x ++ y) b := by
  refine ⟨h₁.writes.bind h₂.writes, fun w hw hover => ?_⟩
  rw [List.length_append] at hover
  -- it is either the first or the second part that does not fit
  by_cases hx : w.index + x.length ≤ cap
  · obtain ⟨w₁, hop, happ₁⟩ := h₁.writes w hx
    have hidx := happ₁.index_eq
    obtain ⟨w₂, part, hf, happ₂, hcap⟩ := h₂.aborts w₁ (by omega) (by omega)
    exact ⟨w₂, x ++ part, by rw [bind_apply_some hop, hf], happ₁.trans happ₂, hcap⟩
  · obtain ⟨w₁, part, hop, happ₁, hcap⟩ := h₁.aborts w hw (by omega)
    exact ⟨w₁, part, bind_apply_none hop, happ₁, hcap⟩

/-- Appending behind a check that the bytes fit. -/
theorem emits_of_check {op : Serializer Unit} {bytes : List UInt8}
    (hfits : ∀ w, w.index + bytes.length ≤ cap → ∃ w', op w = (some (), w') ∧ Appends w w' bytes)
    (hover : ∀ w, cap < w.index + bytes.length → op w = (none, w)) :
    Emits cap op bytes () :=
  ⟨hfits, fun w hw hlt => ⟨w, [], hover w hlt, Appends.refl w, hw⟩⟩

/-- The rule for a loop that skips some items: the others are appended in order,
and each steps the loop's state. -/
theorem Emits.foldlM_filter {f : σ → β → Serializer σ} {step : σ → σ} (keep : β → Prop)
    [DecidablePred keep] (item : β → γ) (enc : γ → List UInt8)
    (hkeep : ∀ s x, keep x → Emits cap (f s x) (enc (item x)) (step s))
    (hskip : ∀ s x, ¬ keep x → Emits cap (f s x) [] s) (xs : List β) (s : σ) :
    Emits cap (xs.foldlM f s) (((xs.filter fun x => keep x).map item).flatMap enc)
      (step^[(xs.filter fun x => keep x).length] s) := by
  induction xs generalizing s with
  | nil => exact Emits.pure s
  | cons x xs ih =>
    rw [List.foldlM_cons]
    by_cases hx : keep x
    · rw [List.filter_cons_of_pos (by simpa), List.map_cons, List.flatMap_cons, List.length_cons,
        Function.iterate_succ_apply]
      exact (hkeep s x hx).bind (ih (step s))
    · rw [List.filter_cons_of_neg (by simpa)]
      exact (hskip s x hx).bind (ih s)

/-- The same rule for a loop without state. -/
theorem Emits.forM_filter {f : β → Serializer Unit} (keep : β → Prop) [DecidablePred keep]
    (item : β → γ) (enc : γ → List UInt8)
    (hkeep : ∀ x, keep x → Emits cap (f x) (enc (item x)) ())
    (hskip : ∀ x, ¬ keep x → Emits cap (f x) [] ()) (xs : List β) :
    Emits cap (xs.forM f) (((xs.filter fun x => keep x).map item).flatMap enc) () := by
  induction xs with
  | nil => exact Emits.pure ()
  | cons x xs ih =>
    show Emits cap (f x >>= fun _ => xs.forM f) _ _
    by_cases hx : keep x
    · rw [List.filter_cons_of_pos (by simpa), List.map_cons, List.flatMap_cons]
      exact (hkeep x hx).bind ih
    · rw [List.filter_cons_of_neg (by simpa)]
      exact (hskip x hx).bind ih

/-- A field kept free in front of `op` and patched with what `op` returned. -/
theorem Emits.bind_hole {hole : Serializer Unit} {op : Serializer β} (patch : β → Serializer Unit)
    {z q c : List UInt8} {b : β} (hz : Emits cap hole z ()) (hq : Emits cap op q b)
    (hc : Writes cap (patch b) c ()) (hlen : c.length = z.length) (f : β → α) :
    Emits cap
      (getIndex >>= fun i => hole >>= fun _ => op >>= fun b =>
        (patch b).atIndex i >>= fun _ => Pure.pure (f b))
      (c ++ q) (f b) := by
  have hzq := hz.bind (f := fun _ => op) hq
  refine ⟨fun w hw => ?_, fun w hw hover => ?_⟩
  · rw [List.length_append, hlen] at hw
    obtain ⟨w₁, hhole, happ₁⟩ := hz.writes w (by omega)
    obtain ⟨w₂, hop, happ₂⟩ := hq.writes w₁ (by rw [happ₁.index_eq]; omega)
    -- the hole and what is behind it are appended, then the hole is overlaid
    have happ := happ₁.trans happ₂
    obtain ⟨w₃, hpatch, hidx, hcells, new, hnew, hin⟩ :=
      hc.atIndex (i := w.index) (by omega) w₂
    obtain ⟨new', hnew', hin'⟩ := happ.writes_eq
    have hidx₂ := happ.index_eq
    rw [List.length_append] at hidx₂
    refine ⟨w₃, ?_, ?_, ?_, new' ++ new, ?_, ?_⟩
    · rw [bind_apply_some (show getIndex w = (some w.index, w) from rfl),
        bind_apply_some hhole, bind_apply_some hop, bind_apply_some hpatch]
      rfl
    · rw [hidx, hidx₂, List.length_append, hlen]
    · rw [hcells, happ.cells_eq, overlay_patch _ _ _ hlen]
    · rw [hnew, hnew', List.append_assoc]
    · intro p hp
      rcases List.mem_append.mp hp with hp | hp
      · obtain ⟨hlo, hhi⟩ := hin' p hp
        exact ⟨hlo, by omega⟩
      · obtain ⟨hlo, hhi⟩ := hin p hp
        exact ⟨hlo, by omega⟩
  · -- an abort leaves the hole unpatched
    rw [List.length_append, hlen] at hover
    by_cases hzfit : w.index + z.length ≤ cap
    · obtain ⟨w₁, hhole, happ₁⟩ := hz.writes w hzfit
      have hidx₁ := happ₁.index_eq
      obtain ⟨w₂, part, hop, happ₂, hcap⟩ := hq.aborts w₁ (by omega) (by omega)
      refine ⟨w₂, z ++ part, ?_, happ₁.trans happ₂, hcap⟩
      rw [bind_apply_some (show getIndex w = (some w.index, w) from rfl),
        bind_apply_some hhole, bind_apply_none hop]
    · obtain ⟨w₁, part, hhole, happ₁, hcap⟩ := hz.aborts w hw (by omega)
      refine ⟨w₁, part, ?_, happ₁, hcap⟩
      rw [bind_apply_some (show getIndex w = (some w.index, w) from rfl),
        bind_apply_none hhole]

/-! ### Framed messages -/

/-- Runs a serializer on a buffer from an index: what it returned, or `0` when
it aborted, and the memory as it was left. -/
def runSerializer (op : Serializer ℕ) (start : ℕ) (buffer : Memory) : ℕ × Memory :=
  match op ⟨buffer, start⟩ with
  | (some n, w) => (n, w.memory)
  | (none, w) => (0, w.memory)

/-- What is left of writing a content behind the space of a header: either the
content fits, or nothing is returned. -/
inductive FramedRun (cap start : ℕ) (content : Serializer α) (buffer : Memory)
    (h b : List UInt8) (a : α) (n : ℕ) (result : ℕ × Memory) : Prop
  | fits (w : Writer) (hfits : start + b.length ≤ cap)
    (hcontent : content ⟨buffer, start⟩ = (some a, w)) (hindex : w.index = start + b.length)
    (hresult : result.1 = n) (hheader : readCells result.2.cells 0 h.length = h)
    (hbody : readCells result.2.cells start b.length = b)
    (hwrites : ∃ new new', result.2.writes = buffer.writes ++ (new ++ new') ∧
      (∀ p ∈ new, start ≤ p.1 ∧ p.1 + p.2 ≤ start + b.length) ∧ ∀ p ∈ new', p.1 + p.2 ≤ h.length)
  | overflows (w : Writer) (hover : cap < start + b.length)
    (hcontent : content ⟨buffer, start⟩ = (none, w)) (hresult : result.1 = 0)
    (hwrites : ∃ new, result.2.writes = buffer.writes ++ new ∧
      ∀ p ∈ new, start ≤ p.1 ∧ p.1 + p.2 ≤ cap)

/-- A content written from `start` on, then a header patched in front of it.
Content and header are each written within their own range. -/
theorem runSerializer_framed {content : Serializer α} (header : ℕ → α → Serializer Unit)
    (size : ℕ → ℕ) {start : ℕ} {h b : List UInt8} {a : α} (hb : Emits cap content b a)
    (hh : start + b.length ≤ cap → Writes cap (header (start + b.length) a) h ())
    (hle : h.length ≤ start) (hstart : start ≤ cap) (buffer : Memory) :
    FramedRun cap start content buffer h b a (size (start + b.length))
      (runSerializer
        (content >>= fun a => getIndex >>= fun i => (header i a).atIndex 0 >>= fun _ =>
          Pure.pure (size i)) start buffer) := by
  by_cases hfits : start + b.length ≤ cap
  · obtain ⟨w₁, hcontent, happ⟩ := hb.writes ⟨buffer, start⟩ hfits
    have hidx : w₁.index = start + b.length := happ.index_eq
    have hpatch' := hh hfits
    rw [← hidx] at hpatch'
    -- the header goes below `start`, so that it leaves the content alone
    obtain ⟨w₂, hpatch, -, hcells, new', hnew', hin'⟩ := hpatch'.atIndex (i := 0) (by omega) w₁
    obtain ⟨new, hnew, hin⟩ := happ.writes_eq
    have hrun : runSerializer
        (content >>= fun a => getIndex >>= fun i => (header i a).atIndex 0 >>= fun _ =>
          Pure.pure (size i)) start buffer = (size (start + b.length), w₂.memory) := by
      rw [runSerializer, bind_apply_some hcontent,
        bind_apply_some (show getIndex w₁ = (some w₁.index, w₁) from rfl),
        bind_apply_some hpatch, ← hidx]
      rfl
    rw [hrun]
    refine .fits w₁ hfits hcontent hidx rfl ?_ ?_ ⟨new, new', ?_, ?_, ?_⟩
    · rw [hcells, readCells_overlay]
    · rw [hcells, readCells_overlay_of_disjoint _ _ _ _ _ (.inr (by omega)), happ.cells_eq,
        readCells_overlay]
    · rw [hnew', hnew, List.append_assoc]
    · intro p hp
      rw [← hidx]
      exact hin p hp
    · intro p hp
      have := (hin' p hp).2
      omega
  · -- the content aborted, and the header was never written
    obtain ⟨w₁, part, hcontent, happ, hcap⟩ := hb.aborts ⟨buffer, start⟩ hstart (by
      show cap < start + b.length
      omega)
    obtain ⟨new, hnew, hin⟩ := happ.writes_eq
    have hrun : runSerializer
        (content >>= fun a => getIndex >>= fun i => (header i a).atIndex 0 >>= fun _ =>
          Pure.pure (size i)) start buffer = (0, w₁.memory) := by
      rw [runSerializer, bind_apply_none hcontent]
    rw [hrun]
    refine .overflows w₁ (by omega) hcontent rfl ⟨new, hnew, fun p hp => ?_⟩
    obtain ⟨hlo, hhi⟩ := hin p hp
    exact ⟨hlo, by omega⟩

/-- The start of the buffer is the whole message when header and content meet. -/
theorem FramedRun.take_eq {start n : ℕ} {content : Serializer α} {buffer : Memory}
    {h b : List UInt8} {a : α} {result : ℕ × Memory}
    (hrun : FramedRun cap start content buffer h b a n result) (hlen : h.length = start)
    (hfits : (h ++ b).length ≤ cap) :
    result.1 = n ∧ result.2.take (h ++ b).length = h ++ b := by
  rw [List.length_append] at hfits
  cases hrun with
  | fits w _ _ _ hresult hheader hbody _ =>
    refine ⟨hresult, ?_⟩
    rw [← hlen] at hbody
    rw [Memory.take, List.length_append, readCells_add, hheader, Nat.zero_add, hbody]
  | overflows w hover _ _ _ => omega

end BoundedWriter
