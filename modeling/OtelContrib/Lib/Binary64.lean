/-
IEEE 754 binary64 numbers as bit patterns, with the conversions of C++.

A finite pattern denotes an exact rational (`Binary64.value`), and every
operation here is exact integer arithmetic on the fields of the pattern:

* `ofInt64` — an integer rounded to the nearest number, ties to even;
* `toUInt64`, `toInt64` — truncation towards zero; what an out-of-range cast
  gives is left open by the language, hence a parameter;
* `toDecimal` — the text of `std::to_string`, six correctly rounded decimals.

`toUInt64_of_value_eq`: casting a number that is an integer in range gives
that integer.
-/
import Mathlib.Algebra.Order.Field.Basic
import Mathlib.Algebra.Order.Field.Rat
import Mathlib.Tactic.FieldSimp
import Mathlib.Tactic.Linarith
import Mathlib.Tactic.Positivity
import OtelContrib.Lib.Text

/-- A binary64 number by its bit pattern. -/
structure Binary64 where
  bits : UInt64
  deriving DecidableEq

namespace Binary64

/-- The sign bit. -/
def negative (d : Binary64) : Bool := 2 ^ 63 ≤ d.bits.toNat

/-- The eleven exponent bits. -/
def exponentBits (d : Binary64) : ℕ := d.bits.toNat / 2 ^ 52 % 2 ^ 11

/-- The 52 fraction bits. -/
def fractionBits (d : Binary64) : ℕ := d.bits.toNat % 2 ^ 52

/-- Neither an infinity nor a NaN. -/
def isFinite (d : Binary64) : Bool := d.exponentBits ≠ 2047

/-- The significand as an integer, the hidden bit included. -/
def significand (d : Binary64) : ℕ :=
  if d.exponentBits = 0 then d.fractionBits else 2 ^ 52 + d.fractionBits

/-- The exponent of two that scales the integer significand. -/
def exponent (d : Binary64) : ℤ :=
  if d.exponentBits = 0 then -1074 else (d.exponentBits : ℤ) - 1075

/-- The number a finite pattern denotes. -/
def value (d : Binary64) : ℚ :=
  (if d.negative then -1 else 1) * d.significand * 2 ^ d.exponent

/-- The integer part of the magnitude. -/
def truncMagnitude (d : Binary64) : ℕ :=
  match d.exponent with
  | .ofNat k => d.significand * 2 ^ k
  | .negSucc k => d.significand / 2 ^ (k + 1)

/-- `static_cast<uint64_t>`; `undefinedCast` is what the platform gives where the
truncated number is not representable. -/
def toUInt64 (undefinedCast : Binary64 → UInt64) (d : Binary64) : UInt64 :=
  if d.isFinite ∧ (d.negative = false ∨ d.truncMagnitude = 0) ∧ d.truncMagnitude < 2 ^ 64 then
    UInt64.ofNat d.truncMagnitude
  else undefinedCast d

/-- `static_cast<int64_t>`, in the same way. -/
def toInt64 (undefinedCast : Binary64 → Int64) (d : Binary64) : Int64 :=
  let t : ℤ := if d.negative then -d.truncMagnitude else d.truncMagnitude
  if d.isFinite ∧ -2 ^ 63 ≤ t ∧ t < 2 ^ 63 then Int64.ofInt t else undefinedCast d

/-- The quotient rounded to the nearest integer, ties to even. -/
def roundQuotient (num den : ℕ) : ℕ :=
  if den < 2 * (num % den) ∨ (den = 2 * (num % den) ∧ num / den % 2 = 1) then num / den + 1
  else num / den

/-- The pattern of a natural number, without sign. -/
def ofNatBits (m : ℕ) : ℕ :=
  if m = 0 then 0
  else
    let e := Nat.log2 m
    -- a significand rounded up to `2 ^ 53` carries into the exponent field
    (e + 1022) * 2 ^ 52 + (if e ≤ 52 then m * 2 ^ (52 - e) else roundQuotient m (2 ^ (e - 52)))

/-- `static_cast<double>` of a 64-bit integer. -/
def ofInt64 (i : Int64) : Binary64 :=
  let m := i.toInt.natAbs
  ⟨UInt64.ofNat ((if i.toInt < 0 then 2 ^ 63 else 0) + ofNatBits m)⟩

/-- The magnitude in millionths, correctly rounded. -/
def millionths (d : Binary64) : ℕ :=
  match d.exponent with
  | .ofNat k => d.significand * 2 ^ k * 10 ^ 6
  | .negSucc k => roundQuotient (d.significand * 10 ^ 6) (2 ^ (k + 1))

/-- `std::to_string`. -/
def toDecimal (d : Binary64) : List UInt8 :=
  let sign := if d.negative then "-" else ""
  if d.isFinite then
    let frac := Nat.repr (d.millionths % 10 ^ 6)
    ascii (sign ++ Nat.repr (d.millionths / 10 ^ 6) ++ ".") ++
      List.replicate (6 - frac.length) 48 ++ ascii frac
  else if d.fractionBits = 0 then ascii (sign ++ "inf")
  else ascii (sign ++ "nan")

example : (ofInt64 42).bits = 0x4045000000000000 := by decide
example : toDecimal ⟨0xBFF8000000000000⟩ = ascii "-1.500000" := by decide

theorem truncMagnitude_of_value_eq {d : Binary64} {n : ℕ} (h : d.value = n) :
    d.truncMagnitude = n ∧ (d.negative = false ∨ n = 0) := by
  have hmag : ((d.significand : ℚ) * 2 ^ d.exponent = n) ∧ (d.negative = false ∨ n = 0) := by
    rw [value] at h
    have hnonneg : (0 : ℚ) ≤ d.significand * 2 ^ d.exponent :=
      mul_nonneg (Nat.cast_nonneg _) (zpow_nonneg (by norm_num) _)
    rcases hneg : d.negative with _ | _
    · simp only [hneg, Bool.false_eq_true, if_false, one_mul] at h
      exact ⟨h, .inl rfl⟩
    · simp only [hneg, if_true] at h
      -- a negative number that is a natural one is zero
      have hn : (0 : ℚ) ≤ n := by positivity
      have hzero : (n : ℚ) = 0 := by linarith
      have hn0 : n = 0 := by exact_mod_cast hzero
      refine ⟨?_, .inr hn0⟩
      linarith
  refine ⟨?_, hmag.2⟩
  have hval := hmag.1
  rw [truncMagnitude]
  rcases hexp : d.exponent with k | k
  · rw [hexp, Int.ofNat_eq_natCast, zpow_natCast] at hval
    exact_mod_cast hval
  · rw [hexp, zpow_negSucc] at hval
    -- the significand is a multiple of the power it is divided by
    have hpow : (0 : ℚ) < 2 ^ (k + 1) := by positivity
    have hmul : (d.significand : ℚ) = n * 2 ^ (k + 1) := by
      field_simp at hval
      linarith
    have hnat : d.significand = n * 2 ^ (k + 1) := by exact_mod_cast hmul
    show d.significand / 2 ^ (k + 1) = n
    rw [hnat, Nat.mul_div_cancel _ (by positivity)]

/-- Casting a number that is an integer in range gives that integer. -/
theorem toUInt64_of_value_eq {d : Binary64} {n : ℕ} (undefinedCast : Binary64 → UInt64)
    (hfin : d.isFinite) (h : d.value = n) (hn : n < 2 ^ 64) :
    (d.toUInt64 undefinedCast).toNat = n := by
  obtain ⟨htrunc, hneg⟩ := truncMagnitude_of_value_eq h
  rw [toUInt64, htrunc, if_pos ⟨hfin, hneg, hn⟩]
  exact UInt64.toNat_ofNat_of_lt' hn

end Binary64
