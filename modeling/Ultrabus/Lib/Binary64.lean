import Mathlib.Algebra.Order.Ring.Int

/-! # The order of IEEE 754 binary64 words

Comparison of doubles on their bit patterns.  The words that are numbers are ordered
like the integers obtained by reading them as sign and magnitude; a NaN compares with
nothing, and the two zeros have the same rank. -/

namespace Binary64

/-- Exponent all ones with a non-zero fraction. -/
def isNaN (bits : UInt64) : Bool :=
  bits.toNat / 2 ^ 52 % 2 ^ 11 = 2 ^ 11 - 1 && bits.toNat % 2 ^ 52 ≠ 0

/-- The word read as sign and magnitude. -/
def rank (bits : UInt64) : Int :=
  if bits.toNat < 2 ^ 63 then bits.toNat else -(bits.toNat - 2 ^ 63 : Nat)

/-- `a < b` on doubles. -/
def less (a b : UInt64) : Bool := !isNaN a && !isNaN b && decide (rank a < rank b)

/-- `a == b` on doubles. -/
def equal (a b : UInt64) : Bool := !isNaN a && !isNaN b && decide (rank a = rank b)

/-- `a <=> b` on doubles. -/
def compare? (a b : UInt64) : Option Ordering :=
  if isNaN a || isNaN b then none else some (compare (rank a) (rank b))

/-- The double nearest to an integer below `2 ^ 64` in size; of two equally near ones the
    one with the even fraction. -/
def ofInt (n : Int) : UInt64 :=
  let size := n.natAbs
  let sign := if n < 0 then 2 ^ 63 else 0
  if size = 0 then 0
  else
    let exponent := size.log2
    -- The leading bit is not stored: adding the fraction to the exponent field carries over
    -- into it when rounding reaches the next power of two.
    let significand :=
      if exponent ≤ 52 then size * 2 ^ (52 - exponent)
      else
        let unit := 2 ^ (exponent - 52)
        let down := size / unit
        if 2 * (size % unit) > unit ∨ (2 * (size % unit) = unit ∧ down % 2 = 1) then down + 1
        else down
    UInt64.ofNat (sign + (exponent + 1022) * 2 ^ 52 + significand)

/-- The number without its fraction. -/
def truncate (bits : UInt64) : Int :=
  let field := bits.toNat / 2 ^ 52 % 2 ^ 11
  -- Subnormal numbers have the exponent of the smallest normal ones and no leading bit.
  let exponent := max field 1
  let significand := bits.toNat % 2 ^ 52 + if field = 0 then 0 else 2 ^ 52
  let size : Nat :=
    if 1075 ≤ exponent then significand * 2 ^ (exponent - 1075)
    else significand / 2 ^ (1075 - exponent)
  if bits.toNat < 2 ^ 63 then size else -size

theorem less_of_isNaN_left {a : UInt64} (b : UInt64) (h : isNaN a = true) : less a b = false := by
  simp [less, h]

theorem less_of_isNaN_right (a : UInt64) {b : UInt64} (h : isNaN b = true) : less a b = false := by
  simp [less, h]

theorem less_iff {a b : UInt64} (ha : isNaN a = false) (hb : isNaN b = false) :
    less a b = true ↔ rank a < rank b := by
  simp [less, ha, hb]

theorem equal_iff {a b : UInt64} (ha : isNaN a = false) (hb : isNaN b = false) :
    equal a b = true ↔ rank a = rank b := by
  simp [equal, ha, hb]

theorem equal_comm (a b : UInt64) : equal a b = equal b a := by
  simp only [equal, eq_comm, Bool.and_comm (!isNaN a)]

theorem equal_of_isNaN_left {a : UInt64} (b : UInt64) (h : isNaN a = true) :
    equal a b = false := by
  simp [equal, h]

example : less 0x3FF0000000000000 0x4000000000000000 = true := by decide
example : equal 0x8000000000000000 0 = true := by decide
example : ofInt (-3) = 0xC008000000000000 := by decide
example : ofInt (2 ^ 64 - 1) = 0x43F0000000000000 := by decide

end Binary64
