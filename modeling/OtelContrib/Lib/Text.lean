/-
Texts as byte strings.
-/

/-- A string of the source. -/
abbrev Bytes : Type := List UInt8

-- definitions that sort or look up texts refer to these two by name
instance isPreorder_byte : Std.IsPreorder UInt8 := inferInstance

instance lawfulBEq_bytes : LawfulBEq Bytes := inferInstance

/-- The bytes of an ASCII text. -/
def ascii (s : String) : Bytes := s.toList.map fun c => UInt8.ofNat c.toNat
