/-
Socket addresses (`socket_tools.h` of the fluentd and of the Geneva exporter).

An address is a union, which is modelled by its bytes: `sockaddr_in`, `sockaddr_in6` and
`sockaddr_un` share the family in front, and the first two the port behind it.  Both exporters
read an endpoint alike: a scheme is left out, and what is behind the last colon is the port.
-/
import OtelContrib.Geneva.ConnectionString
import OtelContrib.Lib.BoundedWriter
import OtelContrib.Lib.ByteCodec
import OtelContrib.Lib.Numerals

open BoundedWriter (overlay readCells readCells_overlay_of_length readCells_overlay_of_disjoint
  take_readCells)
open ByteCodec (leBytes leValue length_leBytes leValue_leBytes)
open Numerals (integer atoi)

namespace SocketTools

/-! ### The union -/

/-- The bytes of the union, and of the memory behind it. -/
abbrev Cells : Type := ℕ → UInt8

def AF_UNIX : UInt16 := 1
def AF_INET : UInt16 := 2
def AF_INET6 : UInt16 := 10

/-- `sizeof(sockaddr_un)`, which is the size of the union. -/
def sizeofUn : ℕ := 110

/-- `sizeof(sun_path)`. -/
def sizeofPath : ℕ := 108

def family (m : Cells) : ℕ := leValue (readCells m 0 2)

/-- The port, whose higher byte comes first. -/
def port (m : Cells) : ℕ := leValue (readCells m 2 2).reverse

def sin_addr (m : Cells) : Bytes := readCells m 4 4

def sin6_addr (m : Cells) : Bytes := readCells m 8 16

def setFamily (m : Cells) (f : UInt16) : Cells := overlay m 0 (leBytes 2 f.toNat)

/-- The port goes through `htons`, which takes the lower 16 bits. -/
def setPort (m : Cells) (p : Int32) : Cells :=
  overlay m 2 (leBytes 2 (p.toInt % 2 ^ 16).toNat).reverse

def setAddr (m : Cells) (addr : Bytes) : Cells := overlay m 4 addr

def setAddr6 (m : Cells) (addr : Bytes) : Cells := overlay m 8 addr

/-- What `strncpy` writes of a text without a NUL: `n` bytes, with zeros behind a shorter text. -/
def strncpy (text : Bytes) (n : ℕ) : Bytes :=
  text.take n ++ List.replicate (n - text.length) 0

def setPath (m : Cells) (path : Bytes) : Cells := overlay m 2 (strncpy path sizeofPath)

/-- The union after `memset`. -/
def cleared (m : Cells) : Cells := overlay m 0 (List.replicate sizeofUn 0)

/-! ### Endpoints -/

/-- The endpoint without its scheme. -/
def stripScheme (addr : Bytes) : Bytes :=
  match Geneva.findString (ascii "://") addr with
  | some found => addr.drop (found + 3)
  | none => addr

/-- `strrchr(s, ':')`. -/
def lastColon (s : Bytes) : Option ℕ :=
  (s.reverse.findIdx? (· = 58)).map fun i => s.length - 1 - i

def numColons (s : Bytes) : ℕ := s.count 58

/-- The host and the port. -/
def hostPort (ipAddress : Bytes) : Bytes × Int32 :=
  match lastColon ipAddress with
  | some i => (ipAddress.take i, atoi (ipAddress.drop (i + 1)))
  | none => (ipAddress, 0)

/-- An address in square brackets loses them. -/
def withoutBrackets (ipAddress : Bytes) : Bytes :=
  if ipAddress.head? = some 91 ∧ ipAddress.getLast? = some 93 then
    (ipAddress.drop 1).take (ipAddress.length - 2)
  else ipAddress

/-! ### Schemes -/

theorem infix_of_findString {pattern s : Bytes} {i : ℕ} (h : Geneva.findString pattern s = some i) :
    i + pattern.length ≤ s.length ∧ pattern <:+: s := by
  induction s generalizing i with
  | nil =>
    rw [Geneva.findString] at h
    split at h
    · rename_i hpattern
      cases h
      subst hpattern
      exact ⟨Nat.le_refl _, List.nil_infix⟩
    · cases h
  | cons b s ih =>
    rw [Geneva.findString] at h
    split at h
    · rename_i hstart
      cases h
      have hpattern := List.isPrefixOf_iff_prefix.mp hstart
      exact ⟨by simpa using hpattern.length_le, hpattern.isInfix⟩
    · obtain ⟨j, hj, rfl⟩ := Option.map_eq_some_iff.mp h
      obtain ⟨hlength, hinfix⟩ := ih hj
      exact ⟨by rw [List.length_cons]; omega, List.infix_cons hinfix⟩

theorem not_infix_of_findString {pattern s : Bytes} (h : Geneva.findString pattern s = none) :
    ¬pattern <:+: s := by
  induction s with
  | nil =>
    rw [Geneva.findString] at h
    split at h
    · cases h
    · rename_i hpattern
      exact fun hinfix => hpattern (List.infix_nil.mp hinfix)
  | cons b s ih =>
    rw [Geneva.findString] at h
    split at h
    · cases h
    · rename_i hstart
      intro hinfix
      cases List.infix_cons_iff.mp hinfix with
      | inl hpattern => exact hstart (List.isPrefixOf_iff_prefix.mpr hpattern)
      | inr hinfix => exact ih (Option.map_eq_none_iff.mp h) hinfix

theorem stripScheme_of_not_infix {addr : Bytes} (h : ¬ascii "://" <:+: addr) :
    stripScheme addr = addr := by
  rw [stripScheme]
  cases hfound : Geneva.findString (ascii "://") addr with
  | none => rfl
  | some i => exact absurd (infix_of_findString hfound).2 h

/-- An endpoint loses at least the `://` that it has. -/
theorem length_stripScheme_lt {addr : Bytes} (h : ascii "://" <:+: addr) :
    (stripScheme addr).length < addr.length := by
  rw [stripScheme]
  cases hfound : Geneva.findString (ascii "://") addr with
  | none => exact absurd h (not_infix_of_findString hfound)
  | some i =>
    have hlength : i + 3 ≤ addr.length := (infix_of_findString hfound).1
    rw [List.length_drop]
    omega

theorem stripScheme_suffix (addr : Bytes) : stripScheme addr <:+ addr := by
  rw [stripScheme]
  cases Geneva.findString (ascii "://") addr with
  | none => exact List.suffix_refl addr
  | some i => exact List.drop_suffix _ _

/-! ### Fields -/

variable {m : Cells} {f : UInt16} {p : Int32} {addr : Bytes}

@[simp]
theorem family_setFamily : family (setFamily m f) = f.toNat := by
  rw [family, setFamily, readCells_overlay_of_length _ _ (length_leBytes 2 _), leValue_leBytes]
  exact Nat.mod_eq_of_lt f.toNat_lt

@[simp]
theorem family_setPort : family (setPort m p) = family m := by
  rw [family, setPort, readCells_overlay_of_disjoint _ _ _ _ _ (.inl (by omega)), family]

theorem port_setPort : (port (setPort m p) : ℤ) = p.toInt % 2 ^ 16 := by
  have hlength : (leBytes 2 (p.toInt % 2 ^ 16).toNat).reverse.length = 2 := by
    rw [List.length_reverse, length_leBytes]
  rw [port, setPort, readCells_overlay_of_length _ _ hlength, List.reverse_reverse, leValue_leBytes]
  omega

@[simp]
theorem sin_addr_setFamily : sin_addr (setFamily m f) = sin_addr m := by
  rw [sin_addr, setFamily, readCells_overlay_of_disjoint, sin_addr]
  rw [length_leBytes]
  omega

@[simp]
theorem sin_addr_setPort : sin_addr (setPort m p) = sin_addr m := by
  rw [sin_addr, setPort, readCells_overlay_of_disjoint, sin_addr]
  rw [List.length_reverse, length_leBytes]
  omega

theorem sin_addr_setAddr (h : addr.length = 4) : sin_addr (setAddr m addr) = addr := by
  rw [sin_addr, setAddr, readCells_overlay_of_length _ _ h]

theorem read_cleared : readCells (cleared m) 0 sizeofUn = List.replicate sizeofUn 0 :=
  readCells_overlay_of_length m 0 List.length_replicate

theorem family_cleared : family (cleared m) = 0 := by
  rw [family, ← take_readCells _ _ (show 2 ≤ sizeofUn by decide), read_cleared]
  decide

end SocketTools
