/-
The Geneva connection string parser (`connection_string_parser.h`), as built
on a Unix platform with Unix-domain sockets.

Strings are byte strings.  The constructor's loop over the `key=value` fields
runs on explicit fuel: every iteration moves `key_pos` forward, so the length
of the string bounds the number of iterations.
-/
import OtelContrib.Lib.Binary64

namespace Geneva

/-! ### `std::string` searches -/

/-- `s.find(c, pos)`. -/
def find (s : List UInt8) (c : UInt8) (pos : ℕ) : Option ℕ :=
  ((s.drop pos).findIdx? fun b => b = c).map (pos + ·)

/-- `s.find_first_not_of(c, pos)`. -/
def findFirstNotOf (s : List UInt8) (c : UInt8) (pos : ℕ) : Option ℕ :=
  ((s.drop pos).findIdx? fun b => b ≠ c).map (pos + ·)

/-- `s.find(pattern, 0)`. -/
def findString (pattern : List UInt8) : List UInt8 → Option ℕ
  | [] => if pattern = [] then some 0 else none
  | b :: s =>
    if pattern.isPrefixOf (b :: s) then some 0 else (findString pattern s).map (· + 1)

/-- `s.substr(pos, stop - pos)`, up to the end of the string without a `stop`. -/
def substr (s : List UInt8) (pos : ℕ) (stop : Option ℕ) : List UInt8 :=
  match stop with
  | some e => (s.drop pos).take (e - pos)
  | none => s.drop pos

/-! ### The parser -/

inductive TransportProtocol
  | kETW | kTCP | kUDP | kUNIX | kUnknown
  deriving DecidableEq

def kSemicolon : UInt8 := 59
def kEqual : UInt8 := 61
def kEndpoint : List UInt8 := ascii "Endpoint"
def kAccount : List UInt8 := ascii "Account"
def kNamespace : List UInt8 := ascii "Namespace"

structure ConnectionStringParser where
  account : List UInt8 := []
  namespace_ : List UInt8 := []
  transportProtocol : TransportProtocol := .kUnknown
  connectionString : List UInt8 := []

/-- What an `Endpoint` value does: the part after `://` is kept, and a known
scheme selects the protocol. -/
def ConnectionStringParser.setEndpoint (p : ConnectionStringParser) (value : List UInt8) :
    ConnectionStringParser :=
  match findString (ascii "://") value with
  | none => p
  | some pos =>
    let scheme := value.take pos
    let p := { p with connectionString := value.drop (pos + 3) }
    let p := if scheme = ascii "unix" then { p with transportProtocol := .kUNIX } else p
    let p := if scheme = ascii "tcp" then { p with transportProtocol := .kTCP } else p
    if scheme = ascii "udp" then { p with transportProtocol := .kUDP } else p

/-- One `key=value` field. -/
def ConnectionStringParser.setField (p : ConnectionStringParser) (key value : List UInt8) :
    ConnectionStringParser :=
  if key = kNamespace then { p with namespace_ := value }
  else if key = kAccount then { p with account := value }
  else if key = kEndpoint then p.setEndpoint value
  else p

/-- The constructor's loop, from `key_pos` on. -/
def ConnectionStringParser.parseFields (s : List UInt8) :
    ℕ → ℕ → ConnectionStringParser → ConnectionStringParser
  | 0, _, p => p
  | fuel + 1, keyPos, p =>
    match find s kEqual keyPos with
    | none => p
    | some keyEnd =>
      match findFirstNotOf s kEqual keyEnd with
      | none => p
      | some valPos =>
        let valEnd := find s kSemicolon valPos
        let p := p.setField (substr s keyPos (some keyEnd)) (substr s valPos valEnd)
        match valEnd with
        | none => p
        | some e => parseFields s fuel (e + 1) p

/-- The constructor. -/
def ConnectionStringParser.ofString (connectionString : List UInt8) : ConnectionStringParser :=
  ConnectionStringParser.parseFields connectionString (connectionString.length + 1) 0 {}

/-- `IsValid`. -/
def ConnectionStringParser.isValid (p : ConnectionStringParser) : Bool :=
  p.transportProtocol ≠ .kUnknown

example :
    (ConnectionStringParser.ofString (ascii "Endpoint=unix:///tmp/s;Account=a;Namespace=n")).account
      = ascii "a" := by decide +kernel

end Geneva
