/-
The addresses of the fluentd exporters (`SocketAddr` of `common/socket_tools.h`).

The resolver answers with a list of addresses.  The loop over it leaves out those of the family
`AF_INET6`, and takes every other one.

* `first_usable_iff` — the first address of a usable family is taken when it is the first of the
  list and an IPv4 address, and the port is a port number.
-/
import OtelContrib.SocketTools.Endpoint

open SocketTools
open BoundedWriter (readCells length_readCells)
open Numerals (integer atoi toInt_atoi)

namespace Fluentd

/-- An `addrinfo` of the resolver's list, and the memory that it refers to. -/
structure AddrInfo where
  ai_family : UInt16
  ai_addr : Cells

/-- What the system answers. -/
structure Net where
  /-- The addresses of a host, or the text of the error. -/
  getaddrinfo : Bytes → Except Bytes (List AddrInfo)
  inet_pton : UInt16 → Bytes → Option Bytes

structure SocketAddr where
  data : Cells
  isUnixDomain : Bool

/-- The loop over the resolver's list, with nothing where it comes to the end. -/
def viableAddress (p : Int32) (data : Cells) : List AddrInfo → Option Cells
  | [] => none
  | address :: rest =>
    if address.ai_family = AF_INET then
      some (setPort (setFamily (setAddr data (sin_addr address.ai_addr)) address.ai_family) p)
    else if address.ai_family ≠ AF_INET6 then
      some (setPort (setFamily (setAddr6 data (sin6_addr address.ai_addr)) address.ai_family) p)
    else viableAddress p data rest

def noViableAddress : Bytes := ascii "Could not find a viable IPv4/IPv6 address"

/-- The constructor, with what it logs.  `m` is the memory that the object is made in. -/
def SocketAddr.ofText (net : Net) (m : Cells) (addr : Bytes) (unixDomain : Bool) :
    SocketAddr × List Bytes :=
  let data := cleared m
  let ipAddress := stripScheme addr
  if unixDomain then (⟨setPath (setFamily data AF_UNIX) ipAddress, true⟩, [])
  else
    let (host, p) := hostPort ipAddress
    if 1 < numColons ipAddress then
      let data := setPort (setFamily data AF_INET6) p
      match net.inet_pton AF_INET6 (withoutBrackets host) with
      | some bytes => (⟨setAddr6 data bytes, false⟩, [])
      | none => (⟨data, false⟩, [ascii "Invalid IPv6 address: " ++ addr])
    else
      match net.getaddrinfo host with
      | .error text =>
        (⟨data, false⟩, [ascii "Unable to lookup hostname/address: " ++ host ++ ascii ", " ++ text])
      | .ok addresses =>
        match viableAddress p data addresses with
        | some data => (⟨data, false⟩, [])
        | none => (⟨data, false⟩, [noViableAddress])

/-! ### Usable addresses -/

def AddrInfo.usable (a : AddrInfo) : Bool := a.ai_family = AF_INET ∨ a.ai_family = AF_INET6

/-- The address proper, which the family says where to find. -/
def addressOf (f : UInt16) (m : Cells) : Bytes :=
  if f = AF_INET then sin_addr m else sin6_addr m

/-- The number behind the last colon of an endpoint. -/
def endpointPort (addr : Bytes) : ℤ :=
  ((lastColon (stripScheme addr)).map fun i => integer ((stripScheme addr).drop (i + 1))).getD 0

/-- The first usable address is stored with the port, and its absence reported. -/
structure FirstUsable (addresses : List AddrInfo) (p : ℤ) (result : SocketAddr × List Bytes) :
    Prop where
  selected : ∀ a ∈ addresses.find? AddrInfo.usable, family result.1.data = a.ai_family.toNat ∧
    addressOf a.ai_family result.1.data = addressOf a.ai_family a.ai_addr ∧
    (port result.1.data : ℤ) = p
  ignored : addresses.find? AddrInfo.usable = none →
    readCells result.1.data 0 sizeofUn = List.replicate sizeofUn 0
  reported : noViableAddress ∈ result.2 ↔ addresses.find? AddrInfo.usable = none

/-! ### The loop -/

section Loop

variable {p : Int32} {data data' : Cells} {a : AddrInfo} {addresses : List AddrInfo}

theorem viableAddress_inet (h : a.ai_family = AF_INET) :
    viableAddress p data (a :: addresses)
      = some (setPort (setFamily (setAddr data (sin_addr a.ai_addr)) AF_INET) p) := by
  rw [viableAddress, if_pos h, h]

theorem viableAddress_inet6 (h : a.ai_family = AF_INET6) :
    viableAddress p data (a :: addresses) = viableAddress p data addresses := by
  rw [viableAddress, if_neg (by rw [h]; decide), if_neg (not_not_intro h)]

theorem viableAddress_other (h : a.ai_family ≠ AF_INET) (h' : a.ai_family ≠ AF_INET6) :
    viableAddress p data (a :: addresses)
      = some (setPort (setFamily (setAddr6 data (sin6_addr a.ai_addr)) a.ai_family) p) := by
  rw [viableAddress, if_neg h, if_pos h']

/-- No address is taken as one of the family `AF_INET6`. -/
theorem viableAddress_family (h : viableAddress p data addresses = some data') :
    family data' ≠ AF_INET6.toNat := by
  induction addresses with
  | nil => cases h
  | cons a rest ih =>
    by_cases hinet : a.ai_family = AF_INET
    · rw [viableAddress_inet hinet] at h
      cases h
      rw [family_setPort, family_setFamily]
      decide
    · by_cases hinet6 : a.ai_family = AF_INET6
      · rw [viableAddress_inet6 hinet6] at h
        exact ih h
      · rw [viableAddress_other hinet hinet6] at h
        cases h
        rw [family_setPort, family_setFamily]
        exact fun heq => hinet6 (UInt16.toNat_inj.mp heq)

end Loop

/-! ### The constructor -/

section Constructor

variable {net : Net} {m : Cells} {addr : Bytes} {addresses : List AddrInfo}

/-- What the constructor makes of the resolver's list. -/
def SocketAddr.ofAddresses (m : Cells) (p : Int32) (addresses : List AddrInfo) :
    SocketAddr × List Bytes :=
  match viableAddress p (cleared m) addresses with
  | some data => (⟨data, false⟩, [])
  | none => (⟨cleared m, false⟩, [noViableAddress])

theorem ofText_eq (hcolons : numColons (stripScheme addr) ≤ 1)
    (hlist : net.getaddrinfo (hostPort (stripScheme addr)).1 = .ok addresses) :
    SocketAddr.ofText net m addr false
      = SocketAddr.ofAddresses m (hostPort (stripScheme addr)).2 addresses := by
  rw [SocketAddr.ofText]
  simp only [Bool.false_eq_true, if_false, if_neg (not_lt.mpr hcolons), hlist]
  rfl

/-- The port that is stored is the number of the endpoint, unless that is no port number. -/
theorem toInt_port_iff : (hostPort (stripScheme addr)).2.toInt % 2 ^ 16 = endpointPort addr ↔
    0 ≤ endpointPort addr ∧ endpointPort addr < 2 ^ 16 := by
  constructor
  · intro h
    rw [← h]
    omega
  · rintro ⟨hlow, hhigh⟩
    rw [endpointPort] at hlow hhigh ⊢
    rw [hostPort]
    cases hcolon : lastColon (stripScheme addr) with
    | none => rfl
    | some i =>
      rw [hcolon, Option.map_some, Option.getD_some] at hlow hhigh
      have hexact : (atoi ((stripScheme addr).drop (i + 1))).toInt = _ :=
        toInt_atoi (by omega) (by omega)
      rw [Option.map_some, Option.getD_some]
      show (atoi _).toInt % 2 ^ 16 = _
      rw [hexact, Int.emod_eq_of_lt hlow hhigh]

/-- A list whose first address is not taken as it is. -/
theorem not_firstUsable {p : Int32} {q : ℤ} {a : AddrInfo} (hinet : a.ai_family ≠ AF_INET) :
    ¬FirstUsable (a :: addresses) q (SocketAddr.ofAddresses m p (a :: addresses)) := by
  intro h
  by_cases hinet6 : a.ai_family = AF_INET6
  · -- the address is left out, and no later one is stored with its family
    have hfamily := (h.selected a (by simp [AddrInfo.usable, hinet6])).1
    rw [hinet6, SocketAddr.ofAddresses] at hfamily
    cases hrest : viableAddress p (cleared m) (a :: addresses) with
    | none =>
      rw [hrest] at hfamily
      rw [family_cleared] at hfamily
      exact absurd hfamily (by decide)
    | some data =>
      rw [hrest] at hfamily
      exact viableAddress_family hrest hfamily
  · -- the address is stored, with a family that is not usable
    have hother : AddrInfo.usable a = false := by simp [AddrInfo.usable, hinet, hinet6]
    rw [SocketAddr.ofAddresses, viableAddress_other hinet hinet6] at h
    have hfind : (a :: addresses).find? AddrInfo.usable ≠ none :=
      fun hnone => List.not_mem_nil (h.reported.mpr hnone)
    obtain ⟨b, hb⟩ := Option.ne_none_iff_exists'.mp hfind
    have hfamily := (h.selected b hb).1
    rw [family_setPort, family_setFamily, UInt16.toNat_inj] at hfamily
    have husable := List.find?_some hb
    rw [AddrInfo.usable, ← hfamily] at husable
    rw [AddrInfo.usable, husable] at hother
    exact Bool.noConfusion hother

theorem firstUsable_cons_iff {p : Int32} {q : ℤ} {a : AddrInfo} (hinet : a.ai_family = AF_INET) :
    FirstUsable (a :: addresses) q (SocketAddr.ofAddresses m p (a :: addresses)) ↔
      p.toInt % 2 ^ 16 = q := by
  have hfind : (a :: addresses).find? AddrInfo.usable = some a := by
    simp [AddrInfo.usable, hinet]
  rw [SocketAddr.ofAddresses, viableAddress_inet hinet]
  constructor
  · intro h
    have hport := (h.selected a hfind).2.2
    rwa [port_setPort] at hport
  · intro hport
    refine ⟨fun b hb => ?_, fun hnone => ?_, ?_⟩
    · cases hfind.symm.trans hb
      rw [hinet, addressOf, if_pos rfl, addressOf, if_pos rfl, port_setPort]
      refine ⟨by simp, ?_, hport⟩
      rw [sin_addr_setPort, sin_addr_setFamily]
      exact sin_addr_setAddr (length_readCells _ _ _)
    · rw [hfind] at hnone
      cases hnone
    · simp [hfind]

theorem firstUsable_nil {p : Int32} {q : ℤ} :
    FirstUsable [] q (SocketAddr.ofAddresses m p []) where
  selected _ ha := by cases ha
  ignored _ := read_cleared
  reported := ⟨fun _ => rfl, fun _ => List.mem_singleton_self _⟩

end Constructor

/-- The first usable address is selected when the resolver's list is empty, or begins with an
IPv4 address and the port is a port number. -/
theorem first_usable_iff {net : Net} {m : Cells} {addr : Bytes} {addresses : List AddrInfo}
    (hcolons : numColons (stripScheme addr) ≤ 1)
    (hlist : net.getaddrinfo (hostPort (stripScheme addr)).1 = .ok addresses) :
    FirstUsable addresses (endpointPort addr) (SocketAddr.ofText net m addr false) ↔
      ∀ a ∈ addresses.head?,
        a.ai_family = AF_INET ∧ 0 ≤ endpointPort addr ∧ endpointPort addr < 2 ^ 16 := by
  rw [ofText_eq hcolons hlist]
  cases addresses with
  | nil => exact iff_of_true firstUsable_nil fun a ha => by cases ha
  | cons a rest =>
    simp only [List.head?_cons, Option.mem_some, forall_eq']
    by_cases hinet : a.ai_family = AF_INET
    · rw [firstUsable_cons_iff hinet, toInt_port_iff, and_iff_right hinet]
    · exact iff_of_false (not_firstUsable hinet) fun h => hinet h.1

/-- A memory that begins with some bytes. -/
def memoryOf (bytes : Bytes) : Cells := fun i => bytes[i]?.getD 0

/-- The two addresses of a local host. -/
def localhost (first second : UInt16) : Net where
  getaddrinfo _ := .ok [⟨first, memoryOf [2, 0, 0, 0, 127, 0, 0, 1]⟩, ⟨second, memoryOf []⟩]
  inet_pton _ _ := none

theorem first_usable_localhost :
    numColons (stripScheme (ascii "localhost:24222")) ≤ 1 ∧
      FirstUsable [⟨AF_INET, memoryOf [2, 0, 0, 0, 127, 0, 0, 1]⟩, ⟨AF_INET6, memoryOf []⟩]
        (endpointPort (ascii "localhost:24222"))
        (SocketAddr.ofText (localhost AF_INET AF_INET6) (memoryOf []) (ascii "localhost:24222")
          false) :=
  ⟨by decide, (first_usable_iff (by decide) rfl).mpr
    fun a ha => by
      cases ha
      exact ⟨rfl, by decide +kernel, by decide +kernel⟩⟩

/-- A host that has one IPv6 address is reported to have none. -/
theorem inet6_not_viable :
    (SocketAddr.ofText ⟨fun _ => .ok [⟨AF_INET6, memoryOf []⟩], fun _ _ => none⟩ (memoryOf [])
        (ascii "localhost:24222") false).2 = [noViableAddress] ∧
      ¬FirstUsable [⟨AF_INET6, memoryOf []⟩] (endpointPort (ascii "localhost:24222"))
        (SocketAddr.ofText ⟨fun _ => .ok [⟨AF_INET6, memoryOf []⟩], fun _ _ => none⟩ (memoryOf [])
          (ascii "localhost:24222") false) := by
  have hlog : (SocketAddr.ofText ⟨fun _ => .ok [⟨AF_INET6, memoryOf []⟩], fun _ _ => none⟩
      (memoryOf []) (ascii "localhost:24222") false).2 = [noViableAddress] := by decide +kernel
  refine ⟨hlog, fun h => ?_⟩
  have hnone := h.reported.mp (by rw [hlog]; exact List.mem_singleton_self _)
  exact absurd hnone (by simp [AddrInfo.usable])

end Fluentd
