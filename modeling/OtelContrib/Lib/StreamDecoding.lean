/-
Values that are read one after the other from a byte stream.

The writer of the stream may stop in the middle of a value, and its reader stops there.

* `readAll_parts` — what is made of parts that can be told apart is read as their values;
* `Inverts.selfDelimiting` — the encodings of an invertible reader can be told apart;
* `Framed.readAll` — a framed stream is read as the values of the frames that were written
  whole, and what is left is a proper prefix of one frame.
-/
import OtelContrib.Lib.ByteCodec
import OtelContrib.Lib.StreamFraming

namespace ByteCodec

variable {α : Type} {r : Reader α}

/-- Reads at most so many values, and stops where none can be read: the values, and what is
left. -/
def Reader.many (r : Reader α) : ℕ → List UInt8 → List α × List UInt8
  | 0, bs => ([], bs)
  | fuel + 1, bs =>
    match r bs with
    | none => ([], bs)
    | some (a, rest) => (a :: (r.many fuel rest).1, (r.many fuel rest).2)

/-- Reads all values of a stream, of which each takes at least one byte. -/
def Reader.readAll (r : Reader α) (bs : List UInt8) : List α × List UInt8 := r.many bs.length bs

/-- Some bytes are read as a value whatever follows them, and nothing is read from a part of
them. -/
structure SelfDelimiting (r : Reader α) (bytes : List UInt8) (a : α) : Prop where
  ne_nil : bytes ≠ []
  read : ∀ rest, r (bytes ++ rest) = some (a, rest)
  part : ∀ p, p <+: bytes → p.length < bytes.length → r p = none

theorem SelfDelimiting.read_eq {bytes : List UInt8} {a : α} (h : SelfDelimiting r bytes a) :
    r bytes = some (a, []) := by
  have hread := h.read []
  rwa [List.append_nil] at hread

/-- The encodings of an invertible reader that are not empty can be told apart. -/
theorem Inverts.selfDelimiting {enc : α → List UInt8} {valid : α → Prop} (h : Inverts r enc valid)
    {a : α} (ha : valid a) (hne : enc a ≠ []) : SelfDelimiting r (enc a) a where
  ne_nil := hne
  read := h.read_append ha
  part := by
    rintro p ⟨q, hpq⟩ hlt
    rcases hr : r p with _ | ⟨b, rest⟩
    · rfl
    · -- what is read from a part would be the value, and would take all of its bytes
      obtain ⟨hb, hp⟩ := (h _ _ _).mp hr
      have heq : enc a ++ [] = enc b ++ (rest ++ q) := by
        rw [List.append_nil, ← hpq, hp, List.append_assoc]
      obtain ⟨-, hnil⟩ := h.encode_injective ha hb heq
      obtain ⟨-, rfl⟩ := List.append_eq_nil_iff.mp hnil.symm
      rw [← hpq, List.append_nil] at hlt
      exact absurd hlt (Nat.lt_irrefl _)

/-- A reader of fixed bytes, which stand for a value. -/
def Reader.literal (bytes : List UInt8) (a : α) : Reader α := fun bs =>
  if bytes.isPrefixOf bs then some (a, bs.drop bytes.length) else none

theorem literal_selfDelimiting {bytes : List UInt8} (hne : bytes ≠ []) (a : α) :
    SelfDelimiting (Reader.literal bytes a) bytes a where
  ne_nil := hne
  read rest := by
    rw [Reader.literal, if_pos (List.isPrefixOf_iff_prefix.mpr (List.prefix_append _ _)),
      List.drop_left]
  part p _ hlt := by
    rw [Reader.literal, if_neg]
    intro hprefix
    exact absurd (List.isPrefixOf_iff_prefix.mp hprefix).length_le (Nat.not_le.mpr hlt)

theorem many_parts {parts : List (List UInt8 × α)} {rest : List UInt8}
    (hparts : ∀ p ∈ parts, SelfDelimiting r p.1 p.2) (hrest : r rest = none) {fuel : ℕ}
    (hfuel : parts.length ≤ fuel) :
    r.many fuel ((parts.map Prod.fst).flatten ++ rest) = (parts.map Prod.snd, rest) := by
  induction parts generalizing fuel with
  | nil =>
    rw [List.map_nil, List.flatten_nil, List.nil_append]
    cases fuel with
    | zero => rfl
    | succ fuel => rw [Reader.many, hrest]; rfl
  | cons p parts ih =>
    obtain ⟨fuel, rfl⟩ : ∃ n, fuel = n + 1 := ⟨fuel - 1, by rw [List.length_cons] at hfuel; omega⟩
    have hp := hparts p List.mem_cons_self
    have hothers := ih (fun q hq => hparts q (List.mem_cons_of_mem _ hq))
      (Nat.le_of_succ_le_succ hfuel)
    rw [List.map_cons, List.flatten_cons, List.append_assoc, Reader.many, hp.read, List.map_cons]
    simp only [hothers]

theorem length_le_flatten {parts : List (List UInt8 × α)}
    (hparts : ∀ p ∈ parts, SelfDelimiting r p.1 p.2) :
    parts.length ≤ (parts.map Prod.fst).flatten.length := by
  induction parts with
  | nil => exact Nat.zero_le _
  | cons p parts ih =>
    have hp := List.length_pos_of_ne_nil (hparts p List.mem_cons_self).ne_nil
    have hothers := ih fun q hq => hparts q (List.mem_cons_of_mem _ hq)
    rw [List.map_cons, List.flatten_cons, List.length_append, List.length_cons]
    omega

/-- A stream of parts that can be told apart is read as their values, up to where nothing can
be read. -/
theorem readAll_parts {parts : List (List UInt8 × α)} {rest : List UInt8}
    (hparts : ∀ p ∈ parts, SelfDelimiting r p.1 p.2) (hrest : r rest = none) :
    r.readAll ((parts.map Prod.fst).flatten ++ rest) = (parts.map Prod.snd, rest) := by
  refine many_parts hparts hrest ((length_le_flatten hparts).trans ?_)
  rw [List.length_append]
  exact Nat.le_add_right _ _

end ByteCodec

namespace StreamFraming

open ByteCodec

/-- The frames that were written whole. -/
def wholes {α : Type} (ws : List (Write α)) : List (List α) :=
  ws.filterMap fun w => if w.accepted = w.frame.length then some w.frame else none

theorem wholes_append {α : Type} (ws ws' : List (Write α)) :
    wholes (ws ++ ws') = wholes ws ++ wholes ws' := List.filterMap_append

theorem wholes_of_whole {α : Type} {ws : List (Write α)} (h : ∀ w ∈ ws, w.Whole) :
    wholes ws = ws.map Write.frame := by
  have hsome : ∀ w ∈ ws, (if w.accepted = w.frame.length then some w.frame else none) =
      (some ∘ Write.frame) w := fun w hw => if_pos (h w hw)
  rw [wholes, List.filterMap_congr hsome, List.filterMap_eq_map]

theorem wholes_of_part {α : Type} {ws : List (Write α)}
    (h : ∀ w ∈ ws, w.accepted < w.frame.length) : wholes ws = [] :=
  List.filterMap_eq_nil_iff.mpr fun w hw => if_neg (Nat.ne_of_lt (h w hw))

theorem bytes_of_whole {α : Type} {ws : List (Write α)} (h : ∀ w ∈ ws, w.Whole) :
    ws.flatMap Write.bytes = (ws.map Write.frame).flatten := by
  have hbytes : ∀ w ∈ ws, w.bytes = w.frame := by
    intro w hw
    rw [Write.bytes, h w hw, List.take_length]
  rw [List.flatMap_def, List.map_congr_left hbytes]

/-- The values that frames are read as. -/
def valuesOf {α : Type} (r : Reader α) (frames : List (List UInt8)) : List α :=
  frames.filterMap fun frame => (r frame).map Prod.fst

theorem valuesOf_cons {α : Type} {r : Reader α} {frame : List UInt8} {a : α}
    (h : SelfDelimiting r frame a) (frames : List (List UInt8)) :
    valuesOf r (frame :: frames) = a :: valuesOf r frames := by
  rw [valuesOf, valuesOf, List.filterMap_cons, h.read_eq]
  rfl

/-- Frames that can be told apart, with the values they are read as. -/
theorem exists_parts {α : Type} {r : Reader α} (frames : List (List UInt8))
    (h : ∀ frame ∈ frames, ∃ a, SelfDelimiting r frame a) :
    ∃ parts : List (List UInt8 × α), parts.map Prod.fst = frames ∧
      parts.map Prod.snd = valuesOf r frames ∧ ∀ p ∈ parts, SelfDelimiting r p.1 p.2 := by
  induction frames with
  | nil => exact ⟨[], rfl, rfl, by simp⟩
  | cons frame frames ih =>
    obtain ⟨a, ha⟩ := h frame List.mem_cons_self
    obtain ⟨parts, hfst, hsnd, hparts⟩ := ih fun f hf => h f (List.mem_cons_of_mem _ hf)
    refine ⟨(frame, a) :: parts, by rw [List.map_cons, hfst], ?_,
      List.forall_mem_cons.mpr ⟨ha, hparts⟩⟩
    rw [List.map_cons, hsnd, valuesOf_cons ha]

/-- A framed stream whose frames can be told apart is read as the values of the whole ones. -/
theorem Framed.readAll {α : Type} {r : Reader α} {ws : List (Write UInt8)} (h : Framed ws)
    (hframes : ∀ w ∈ ws, ∃ a, SelfDelimiting r w.frame a) (hnil : r [] = none) :
    ∃ rest, r.readAll (ws.flatMap Write.bytes) = (valuesOf r (wholes ws), rest) ∧
      (rest = [] ∨ ∃ w ∈ ws, rest <+: w.frame ∧ rest.length < w.frame.length) := by
  obtain ⟨whole, part, rfl, hwhole, hlength, hpart⟩ := h
  -- what is left: nothing, or what was accepted of the last frame
  obtain ⟨rest, hrest, hstuck, hleft⟩ : ∃ rest, part.flatMap Write.bytes = rest ∧ r rest = none ∧
      (rest = [] ∨ ∃ w ∈ part, rest <+: w.frame ∧ rest.length < w.frame.length) := by
    rcases part with _ | ⟨w, _ | ⟨w', part⟩⟩
    · exact ⟨[], rfl, hnil, .inl rfl⟩
    · have hlt : w.bytes.length < w.frame.length := by
        have haccepted := hpart w List.mem_cons_self
        rw [Write.bytes, List.length_take]
        omega
      obtain ⟨a, ha⟩ := hframes w (List.mem_append_right _ List.mem_cons_self)
      exact ⟨w.bytes, List.flatMap_singleton .., ha.part _ (List.take_prefix _ _) hlt,
        .inr ⟨w, List.mem_cons_self, List.take_prefix _ _, hlt⟩⟩
    · simp at hlength
  obtain ⟨parts, hfst, hsnd, hparts⟩ := exists_parts (whole.map Write.frame)
    fun frame hframe => by
      obtain ⟨w, hw, rfl⟩ := List.mem_map.mp hframe
      exact hframes w (List.mem_append_left _ hw)
  have hread := readAll_parts hparts hstuck
  rw [hfst, hsnd] at hread
  refine ⟨rest, ?_, ?_⟩
  · rw [List.flatMap_append, bytes_of_whole hwhole, hrest, wholes_append, wholes_of_whole hwhole,
      wholes_of_part hpart, List.append_nil]
    exact hread
  · rcases hleft with hnil | ⟨w, hw, hprefix⟩
    · exact .inl hnil
    · exact .inr ⟨w, List.mem_append_right _ hw, hprefix⟩

end StreamFraming
