/-
Decimal numerals, as they are printed and as the C library reads them.

* `decimalValue_printed` — the digits of a number have its value;
* `length_printed_le_iff` — a number has as many digits as its size asks for.
-/
import OtelContrib.Lib.Text
import Mathlib.Algebra.Order.Ring.Nat
import Mathlib.Data.FinEnum

namespace Numerals

def isDigit (b : UInt8) : Bool := 48 ≤ b ∧ b ≤ 57

/-- The number that digits stand for. -/
def decimalValue (digits : Bytes) : ℕ := digits.foldl (fun n d => 10 * n + (d.toNat - 48)) 0

/-- A number in decimal. -/
def printed (n : ℕ) : Bytes := ascii (toString n)

/-! ### The C library -/

/-- `isspace`. -/
def isSpace (b : UInt8) : Bool := b = 32 ∨ 9 ≤ b ∧ b ≤ 13

/-- The number at the front of a text, up to the first byte that is no digit. -/
def integer (text : Bytes) : ℤ :=
  let s := text.dropWhile isSpace
  let unsigned := if s.head? = some 43 ∨ s.head? = some 45 then s.tail else s
  let n : ℤ := decimalValue (unsigned.takeWhile isDigit)
  if s.head? = some 45 then -n else n

/-- `strtol` to the base ten, which stays between the bounds of a `long`. -/
def strtol (text : Bytes) : ℤ := max (-2 ^ 63) (min (integer text) (2 ^ 63 - 1))

/-- `atoi`, which keeps the lower half of what `strtol` reads. -/
def atoi (text : Bytes) : Int32 := Int32.ofInt (strtol text)

theorem toInt_atoi {text : Bytes} (hlow : -2 ^ 31 ≤ integer text) (hhigh : integer text < 2 ^ 31) :
    (atoi text).toInt = integer text := by
  have hstrtol : strtol text = integer text := by
    rw [strtol, min_eq_left (by omega), max_eq_right (by omega)]
  rw [atoi, hstrtol]
  exact Int32.toInt_ofInt_of_le hlow hhigh

/-! ### Numbers that are printed -/

theorem printed_eq_map (n : ℕ) :
    printed n = (Nat.toDigits 10 n).map fun c => UInt8.ofNat c.toNat := by
  rw [printed, ascii, Nat.toString_eq_repr, Nat.toList_repr]

theorem length_printed_le_iff {n k : ℕ} (hk : 0 < k) : (printed n).length ≤ k ↔ n < 10 ^ k := by
  rw [printed_eq_map, List.length_map]
  exact Nat.length_toDigits_le_iff (by omega) hk

theorem printed_ne_nil (n : ℕ) : printed n ≠ [] := by
  rw [printed_eq_map, ne_eq, List.map_eq_nil_iff]
  exact Nat.toDigits_ne_nil

theorem toNat_of_isDigit {c : Char} (h : c.isDigit) :
    (UInt8.ofNat c.toNat).toNat = c.toNat ∧ 48 ≤ c.toNat ∧ c.toNat ≤ 57 := by
  have hbounds : 48 ≤ c.toNat ∧ c.toNat ≤ 57 := by
    simpa [Char.isDigit, UInt32.le_iff_toNat_le] using h
  refine ⟨?_, hbounds⟩
  rw [UInt8.toNat_ofNat']
  omega

theorem isDigit_of_mem_printed {n : ℕ} {b : UInt8} (hb : b ∈ printed n) : isDigit b = true := by
  rw [printed_eq_map] at hb
  obtain ⟨c, hc, rfl⟩ := List.mem_map.mp hb
  obtain ⟨hval, hlow, hhigh⟩ :=
    toNat_of_isDigit (Nat.isDigit_of_mem_toDigits (by omega) (by omega) hc)
  rw [isDigit, decide_eq_true_iff, UInt8.le_iff_toNat_le, UInt8.le_iff_toNat_le, hval]
  exact ⟨hlow, hhigh⟩

/-- The digits of characters, added to a number that is read already. -/
theorem foldl_map_digits {cs : List Char} (h : ∀ c ∈ cs, c.isDigit) (init : ℕ) :
    (cs.map fun c => UInt8.ofNat c.toNat).foldl (fun n d => 10 * n + (d.toNat - 48)) init =
      Nat.ofDigitChars 10 cs init := by
  induction cs generalizing init with
  | nil => rw [Nat.ofDigitChars_nil, List.map_nil, List.foldl_nil]
  | cons c cs ih =>
    have hc := (toNat_of_isDigit (h c List.mem_cons_self)).1
    rw [List.map_cons, List.foldl_cons, hc, ih fun d hd => h d (List.mem_cons_of_mem c hd),
      Nat.ofDigitChars_cons]
    rfl

theorem decimalValue_printed (n : ℕ) : decimalValue (printed n) = n := by
  rw [decimalValue, printed_eq_map, foldl_map_digits fun c hc =>
    Nat.isDigit_of_mem_toDigits (by omega) (by omega) hc]
  exact Nat.ofDigitChars_ten_toDigits

end Numerals
