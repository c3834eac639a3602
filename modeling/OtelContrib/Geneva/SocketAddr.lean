/-
The addresses of the Geneva exporter (`SocketAddr` of `metrics/socket_tools.h`).

A path that begins with `@` is an abstract name, which is stored with a zero in the place of the
`@` and has no terminator.

* `readBack_encoded` — from the bytes that are stored for it a path can be told;
* `encoded_faithfully_iff` — paths are stored faithfully when they have at most 108 bytes and
  no `://` in them.
-/
import OtelContrib.SocketTools.Endpoint

open SocketTools
open BoundedWriter (overlay readCells length_readCells readCells_overlay_of_length take_readCells
  overlay_patch readCells_add)

namespace Geneva

structure SocketAddr where
  data : Cells
  isUnixDomain : Bool
  abstract_socket_size : ℕ

/-- The constructor, with what it logs.  `m` is the memory that the object is made in. -/
def SocketAddr.ofText (inet_pton : UInt16 → Bytes → Option Bytes) (m : Cells) (addr : Bytes)
    (unixDomain : Bool) : SocketAddr × List Bytes :=
  let data := cleared m
  let ipAddress := stripScheme addr
  if unixDomain then
    let data := setPath (setFamily data AF_UNIX) ipAddress
    if ipAddress.head? = some 64 then (⟨overlay data 2 [0], true, ipAddress.length⟩, [])
    else (⟨data, true, 0⟩, [])
  else
    let (host, p) := hostPort ipAddress
    if 1 < numColons ipAddress then
      let data := setPort (setFamily data AF_INET6) p
      match inet_pton AF_INET6 (withoutBrackets host) with
      | some bytes => (⟨setAddr6 data bytes, false, 0⟩, [])
      | none => (⟨data, false, 0⟩, [ascii "Invalid IPv6 address: " ++ addr])
    else
      let data := setPort (setFamily data AF_INET) p
      match inet_pton AF_INET host with
      | some bytes => (⟨setAddr data bytes, false, 0⟩, [])
      | none => (⟨data, false, 0⟩, [ascii "Invalid IPv4 address: " ++ addr])

/-- `size`; the sizes are those of `sa_family_t` and of the members of the union. -/
def SocketAddr.size (a : SocketAddr) : ℕ :=
  if a.isUnixDomain ∧ a.abstract_socket_size ≠ 0 then 2 + a.abstract_socket_size
  else if a.isUnixDomain then sizeofUn
  else if family a.data = AF_INET.toNat then 16
  else if family a.data = AF_INET6.toNat then 28
  else 16

/-! ### Paths -/

/-- The path bytes of an address, within its size. -/
def SocketAddr.pathBytes (a : SocketAddr) : Bytes := readCells a.data 2 (a.size - 2)

/-- The path of an address: all bytes of an abstract name, else those before the terminator. -/
def SocketAddr.path (a : SocketAddr) : Bytes :=
  if a.abstract_socket_size = 0 then a.pathBytes.takeWhile (· ≠ 0) else a.pathBytes

/-- What the system is handed. -/
def SocketAddr.bytes (a : SocketAddr) : Bytes := readCells a.data 0 a.size

/-- A path with its `@` mapped to a zero. -/
def encoded (path : Bytes) : Bytes := if path.head? = some 64 then 0 :: path.tail else path

/-- The size is that of a `sockaddr_un` at most, and the path is the given one or reported to be
unusable. -/
def Faithful (path : Bytes) (result : SocketAddr × List Bytes) : Prop :=
  result.1.size ≤ sizeofUn ∧ (result.1.path = encoded path ∨ result.2 ≠ [])

def Encodable (path : Bytes) : Prop := ¬ascii "://" <:+: path ∧ path.length ≤ sizeofPath

theorem size_abstract {data : Cells} {n : ℕ} :
    (SocketAddr.mk data true (n + 1)).size = 2 + (n + 1) :=
  if_pos ⟨rfl, Nat.succ_ne_zero n⟩

theorem pathBytes_abstract {data : Cells} {n : ℕ} :
    (SocketAddr.mk data true (n + 1)).pathBytes = readCells data 2 (n + 1) := by
  rw [SocketAddr.pathBytes, size_abstract, Nat.add_sub_cancel_left]

theorem pathBytes_path {data : Cells} :
    (SocketAddr.mk data true 0).pathBytes = readCells data 2 sizeofPath := rfl

section Paths

variable {inet_pton : UInt16 → Bytes → Option Bytes} {m : Cells} {path s : Bytes}

theorem length_strncpy (s : Bytes) (n : ℕ) : (strncpy s n).length = n := by
  rw [strncpy, List.length_append, List.length_take, List.length_replicate]
  omega

theorem takeWhile_strncpy (h : 0 ∉ s) (n : ℕ) : (strncpy s n).takeWhile (· ≠ 0) = s.take n := by
  have htake : ∀ b ∈ s.take n, decide (b ≠ 0) = true := fun b hb =>
    decide_eq_true fun hzero => h (hzero ▸ List.mem_of_mem_take hb)
  have hzeros : (List.replicate (n - s.length) (0 : UInt8)).takeWhile (· ≠ 0) = [] := by
    cases n - s.length <;> rfl
  rw [strncpy, List.takeWhile_append_of_pos htake, hzeros, List.append_nil]

theorem readCells_setPath : readCells (setPath m s) 2 sizeofPath = strncpy s sizeofPath :=
  readCells_overlay_of_length m 2 (length_strncpy s sizeofPath)

/-- The constructor of a path that is not abstract. -/
theorem ofText_path (h : (stripScheme path).head? ≠ some 64) :
    SocketAddr.ofText inet_pton m path true =
      (⟨setPath (setFamily (cleared m) AF_UNIX) (stripScheme path), true, 0⟩, []) := by
  simp only [SocketAddr.ofText, if_true, if_neg h]

/-- The constructor of an abstract name. -/
theorem ofText_abstract {name : Bytes} (h : stripScheme path = 64 :: name) :
    SocketAddr.ofText inet_pton m path true =
      (⟨overlay (setFamily (cleared m) AF_UNIX) 2 (0 :: (strncpy (64 :: name) sizeofPath).tail),
        true, name.length + 1⟩, []) := by
  have hhead : (stripScheme path).head? = some 64 := by rw [h, List.head?_cons]
  have hstrncpy : strncpy (64 :: name) sizeofPath
      = [64] ++ (strncpy (64 :: name) sizeofPath).tail := rfl
  simp only [SocketAddr.ofText, if_true, if_pos hhead]
  rw [h, setPath, hstrncpy, overlay_patch _ _ _ (by rfl)]
  rfl

theorem errors_ofText : (SocketAddr.ofText inet_pton m path true).2 = [] := by
  rw [SocketAddr.ofText, if_pos rfl]
  split_ifs <;> rfl

/-- The path within the size of a `sockaddr_un` is no longer than it is without a scheme, and no
longer than `sun_path`. -/
theorem length_path_le (hpath : 0 ∉ path)
    (hsize : (SocketAddr.ofText inet_pton m path true).1.size ≤ sizeofUn) :
    (SocketAddr.ofText inet_pton m path true).1.path.length ≤ (stripScheme path).length ∧
      (SocketAddr.ofText inet_pton m path true).1.path.length ≤ sizeofPath := by
  by_cases hhead : (stripScheme path).head? = some 64
  · obtain ⟨name, hname⟩ := List.head?_eq_some_iff.mp hhead
    rw [ofText_abstract hname] at hsize ⊢
    rw [size_abstract] at hsize
    have hlength : name.length + 1 ≤ sizeofPath := Nat.le_of_add_le_add_left hsize
    rw [SocketAddr.path, if_neg (Nat.succ_ne_zero _), pathBytes_abstract, length_readCells, hname]
    exact ⟨Nat.le_refl _, hlength⟩
  · have hstrip : 0 ∉ stripScheme path := fun h => hpath ((stripScheme_suffix path).subset h)
    rw [ofText_path hhead]
    have htake : (SocketAddr.mk (setPath (setFamily (cleared m) AF_UNIX) (stripScheme path)) true
        0).path = (stripScheme path).take sizeofPath := by
      rw [SocketAddr.path, if_pos rfl, pathBytes_path, readCells_setPath, takeWhile_strncpy hstrip]
    rw [htake, List.length_take]
    omega

/-- The bytes that are stored for a path. -/
def storedBytes (path : Bytes) : Bytes :=
  if path.head? = some 64 then 0 :: path.tail else strncpy path sizeofPath

/-- What an encodable path is stored as. -/
theorem ofText_encodable (h : Encodable path) :
    (SocketAddr.ofText inet_pton m path true).1.size ≤ sizeofUn ∧
      (SocketAddr.ofText inet_pton m path true).1.pathBytes = storedBytes path ∧
      ((SocketAddr.ofText inet_pton m path true).1.abstract_socket_size = 0 ↔
        path.head? ≠ some 64) := by
  have hstrip := stripScheme_of_not_infix h.1
  by_cases hhead : path.head? = some 64
  · obtain ⟨name, rfl⟩ := List.head?_eq_some_iff.mp hhead
    have hlength : name.length + 1 ≤ sizeofPath := h.2
    rw [ofText_abstract hstrip, storedBytes, if_pos hhead]
    refine ⟨by rw [size_abstract]; exact Nat.add_le_add_left hlength 2, ?_, by simp⟩
    have hstored : (0 :: (strncpy (64 :: name) sizeofPath).tail).take (name.length + 1)
        = 0 :: name := by
      rw [List.take_succ_cons, strncpy, List.take_of_length_le h.2]
      exact congrArg (0 :: ·) List.take_left
    have hall : (0 :: (strncpy (64 :: name) sizeofPath).tail).length = sizeofPath := by
      rw [List.length_cons, List.length_tail, length_strncpy]
      rfl
    rw [pathBytes_abstract, ← take_readCells _ _ hlength, readCells_overlay_of_length _ _ hall,
      hstored]
    rfl
  · rw [ofText_path (by rwa [hstrip]), hstrip, storedBytes, if_neg hhead]
    exact ⟨Nat.le_refl _, readCells_setPath, iff_of_true rfl hhead⟩

/-- The path that some stored bytes are of. -/
def readBack (bytes : Bytes) : Bytes :=
  if bytes.head? = some 0 ∧ 0 ∉ bytes.tail then 64 :: bytes.tail else bytes.takeWhile (· ≠ 0)

theorem readBack_storedBytes (hpath : 0 ∉ path) (hlength : path.length ≤ sizeofPath) :
    readBack (storedBytes path) = path := by
  by_cases hhead : path.head? = some 64
  · obtain ⟨name, rfl⟩ := List.head?_eq_some_iff.mp hhead
    rw [storedBytes, if_pos hhead, readBack]
    exact if_pos ⟨rfl, fun h => hpath (List.mem_cons_of_mem 64 h)⟩
  · rw [storedBytes, if_neg hhead, readBack, if_neg, takeWhile_strncpy hpath,
      List.take_of_length_le hlength]
    cases path with
    | nil => decide
    | cons b path =>
      rintro ⟨hzero, -⟩
      have hb : b = 0 := Option.some.inj hzero
      exact hpath (hb ▸ List.mem_cons_self)

/-- Every address begins with the two bytes of its family. -/
theorem two_le_size (a : SocketAddr) : 2 ≤ a.size := by
  rw [SocketAddr.size, sizeofUn]
  split_ifs <;> omega

theorem drop_bytes (a : SocketAddr) : a.bytes.drop 2 = a.pathBytes := by
  have hsplit := readCells_add a.data 0 2 (a.size - 2)
  rw [Nat.add_sub_cancel' (two_le_size a)] at hsplit
  rw [SocketAddr.bytes, hsplit]
  exact List.drop_left' (length_readCells _ _ _)

theorem faithful_of_encodable (hpath : 0 ∉ path) (h : Encodable path) :
    Faithful path (SocketAddr.ofText inet_pton m path true) := by
  obtain ⟨hsize, hbytes, habstract⟩ := @ofText_encodable inet_pton m path h
  refine ⟨hsize, .inl ?_⟩
  rw [SocketAddr.path, hbytes, storedBytes, encoded]
  by_cases hhead : path.head? = some 64
  · rw [if_neg fun hzero => habstract.mp hzero hhead, if_pos hhead, if_pos hhead]
  · rw [if_pos (habstract.mpr hhead), if_neg hhead, if_neg hhead, takeWhile_strncpy hpath,
      List.take_of_length_le h.2]

theorem encodable_of_faithful (hpath : 0 ∉ path)
    (h : Faithful path (SocketAddr.ofText inet_pton m path true)) : Encodable path := by
  obtain ⟨hsize, hstored | hreported⟩ := h
  · have hle := length_path_le hpath hsize
    have hlength : (encoded path).length = path.length := by
      rw [encoded]
      split_ifs with hhead
      · obtain ⟨name, rfl⟩ := List.head?_eq_some_iff.mp hhead
        rfl
      · rfl
    rw [hstored, hlength] at hle
    exact ⟨fun hinfix => absurd hle.1 (Nat.not_le.mpr (length_stripScheme_lt hinfix)), hle.2⟩
  · exact absurd errors_ofText hreported

end Paths

/-- Paths are stored faithfully, and different ones as different addresses, when they have no
scheme and at most 108 bytes. -/
theorem encoded_faithfully_iff (inet_pton : UInt16 → Bytes → Option Bytes) (m m' : Cells)
    {path path' : Bytes} (hpath : 0 ∉ path) (hpath' : 0 ∉ path') :
    (Faithful path (SocketAddr.ofText inet_pton m path true) ∧
      Faithful path' (SocketAddr.ofText inet_pton m' path' true) ∧
      (path ≠ path' → (SocketAddr.ofText inet_pton m path true).1.bytes ≠
          (SocketAddr.ofText inet_pton m' path' true).1.bytes ∨
        (SocketAddr.ofText inet_pton m path true).2 ≠ [] ∨
        (SocketAddr.ofText inet_pton m' path' true).2 ≠ [])) ↔
      Encodable path ∧ Encodable path' := by
  constructor
  · rintro ⟨h, h', -⟩
    exact ⟨encodable_of_faithful hpath h, encodable_of_faithful hpath' h'⟩
  · rintro ⟨h, h'⟩
    refine ⟨faithful_of_encodable hpath h, faithful_of_encodable hpath' h', fun hne => .inl ?_⟩
    intro heq
    have hbytes := congrArg (List.drop 2) heq
    rw [drop_bytes, drop_bytes, (ofText_encodable h).2.1, (ofText_encodable h').2.1] at hbytes
    have hread := congrArg readBack hbytes
    rw [readBack_storedBytes hpath h.2, readBack_storedBytes hpath' h'.2] at hread
    exact hne hread

theorem encoded_faithfully_sample :
    Faithful (ascii "@name")
        (SocketAddr.ofText (fun _ _ => none) (fun _ => 7) (ascii "@name") true) ∧
      Faithful (ascii "/tmp/s")
        (SocketAddr.ofText (fun _ _ => none) (fun _ => 7) (ascii "/tmp/s") true) :=
  have h := (encoded_faithfully_iff (fun _ _ => none) (fun _ => 7) (fun _ => 7)
    (show 0 ∉ ascii "@name" by decide) (show 0 ∉ ascii "/tmp/s" by decide)).mpr
    ⟨⟨by decide, by decide⟩, by decide, by decide⟩
  ⟨h.1, h.2.1⟩

/-- A path of 108 times `a` and one more byte. -/
def longPath (last : UInt8) : Bytes := List.replicate 108 97 ++ [last]

/-- Two paths that differ in their last byte become the same address, and nothing is reported. -/
theorem truncated_alike : longPath 98 ≠ longPath 99 ∧
    SocketAddr.ofText (fun _ _ => none) (fun _ => 0) (longPath 98) true
      = SocketAddr.ofText (fun _ _ => none) (fun _ => 0) (longPath 99) true ∧
    (SocketAddr.ofText (fun _ _ => none) (fun _ => 0) (longPath 98) true).2 = [] := by
  have hstrip (b : UInt8) (h : b = 98 ∨ b = 99) :
      stripScheme (longPath b) = longPath b ∧
        strncpy (longPath b) sizeofPath = strncpy (longPath 98)
        sizeofPath ∧ (longPath b).head? ≠ some 64 := by
    rcases h with rfl | rfl <;> decide +kernel
  have h₁ := hstrip 98 (.inl rfl)
  have h₂ := hstrip 99 (.inr rfl)
  refine ⟨by decide +kernel, ?_, errors_ofText⟩
  rw [ofText_path (by rw [h₁.1]; exact h₁.2.2), ofText_path (by rw [h₂.1]; exact h₂.2.2), h₁.1,
    h₂.1, setPath, setPath, h₂.2.1]

end Geneva
