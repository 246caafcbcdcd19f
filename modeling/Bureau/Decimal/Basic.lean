import Bureau.Words

/-!
# Fixed-precision decimals

A decimal is a sign, a 96-bit mantissa and a scale of at most 28 places. The scale is part of the
value as written (`1.0` and `1.00` differ), but order and equality of amounts go by `grains`: the
exact value counted in units of `10⁻²⁸`, of which every decimal is a whole number.
-/

namespace Bureau

/-- Sign, 96-bit mantissa and number of decimal places. -/
structure Decimal where
  negative : Bool
  mantissa : Nat
  scale : Nat
  mantissa_lt : mantissa < twoTo 96
  scale_le : scale ≤ 28
deriving DecidableEq

namespace Decimal

/-- Mantissas stay below this bound. -/
abbrev mantissaBound : Nat := twoTo 96

/-- Largest number of decimal places. -/
abbrev maxScale : Nat := 28

/-- The exact value as a count of units of `10⁻²⁸`. -/
def grains (d : Decimal) : Int :=
  let size : Nat := d.mantissa * tenTo (maxScale - d.scale)
  if d.negative then -(size : Int) else size

/-- A mantissa at a scale, where it fits; a zero carries no minus sign. -/
def ofParts? (negative : Bool) (mantissa scale : Nat) : Option Decimal :=
  if h : mantissa < twoTo 96 ∧ scale ≤ 28 then
    some ⟨negative && mantissa != 0, mantissa, scale, h.1, h.2⟩
  else
    none

/-- A whole number of 96 bits, without places. -/
def whole (n : BitVec 96) : Decimal :=
  ⟨false, n.toNat, 0, n.isLt, by decide⟩

/-- A number of hundredths, with two places. -/
def hundredths (n : BitVec 96) : Decimal :=
  ⟨false, n.toNat, 2, n.isLt, by decide⟩

/-- Zero without decimal places. -/
def zero : Decimal := whole 0

/-- One without decimal places. -/
def one : Decimal := whole 1

instance : Inhabited Decimal := ⟨zero⟩

/-! ### Order by value -/

instance : LT Decimal := ⟨fun a b => a.grains < b.grains⟩

instance : LE Decimal := ⟨fun a b => a.grains ≤ b.grains⟩

instance (a b : Decimal) : Decidable (a < b) :=
  inferInstanceAs (Decidable (a.grains < b.grains))

instance (a b : Decimal) : Decidable (a ≤ b) :=
  inferInstanceAs (Decidable (a.grains ≤ b.grains))

/-- Equal by value, whatever the scales. -/
def sameValue (a b : Decimal) : Bool :=
  a.grains == b.grains

/-- The value is zero, whatever the scale and the sign. -/
def isZero (d : Decimal) : Bool :=
  d.mantissa == 0

/-- The value is above zero; a zero is not, even one without a minus sign. -/
def isPositive (d : Decimal) : Bool :=
  !d.negative && d.mantissa != 0

/-- The value is below zero; a zero is not, even one with a minus sign. -/
def isNegative (d : Decimal) : Bool :=
  d.negative && d.mantissa != 0

/-! ### Sign -/

/-- The opposite sign, also on a zero. -/
def neg (d : Decimal) : Decimal :=
  { d with negative := !d.negative }

instance : Neg Decimal := ⟨neg⟩

/-- The decimal without its sign. -/
def abs (d : Decimal) : Decimal :=
  { d with negative := false }

end Decimal

end Bureau
