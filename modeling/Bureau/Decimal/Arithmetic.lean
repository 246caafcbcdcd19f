import Bureau.Decimal.Basic

/-!
# Arithmetic on decimals

Every operation forms the exact result first. When its mantissa does not fit, digits are dropped
from the right, a half going to the even neighbour; when no digit is left to drop, the operation
has no result.
-/

namespace Bureau.Decimal

/-- The quotient rounded to the nearest whole number, a half to the even one. -/
def roundHalfEven (n d : Nat) : Nat :=
  let q := n / d
  let twice := 2 * (n % d)
  if d < twice ∨ (twice = d ∧ q % 2 = 1) then q + 1 else q

/-- How many trailing digits, at most `available`, must go before the rest fits 96 bits. -/
def surplusDigits (magnitude : Nat) : Nat → Nat
  | 0 => 0
  | available + 1 =>
    if magnitude < mantissaBound then 0 else surplusDigits (magnitude / 10) available + 1

/-- The decimal nearest to `magnitude · 10⁻ˢ` that keeps as many digits as fit. Rounding up may
need one digit more, which then goes too. -/
def fit? (negative : Bool) (magnitude scale : Nat) : Option Decimal :=
  let dropped := max (surplusDigits magnitude scale) (scale - maxScale)
  let rounded := roundHalfEven magnitude (tenTo dropped)
  if rounded < mantissaBound then
    ofParts? negative rounded (scale - dropped)
  else if scale = dropped then
    none
  else
    ofParts? negative (roundHalfEven rounded 10) (scale - dropped - 1)

/-- Signed mantissa of a decimal brought to a scale at least its own. -/
def mantissaAt (scale : Nat) (d : Decimal) : Int :=
  let size : Nat := d.mantissa * tenTo (scale - d.scale)
  if d.negative then -(size : Int) else size

/-- The sum; a zero operand leaves the other one as it is written. -/
def add? (a b : Decimal) : Option Decimal :=
  if a.isZero then some b
  else if b.isZero then some a
  else
    let scale := max a.scale b.scale
    let total := mantissaAt scale a + mantissaAt scale b
    fit? (total < 0) total.natAbs scale

/-- The sum of a list, from zero and from left to right. -/
def sum? (ds : List Decimal) : Option Decimal :=
  ds.foldlM add? zero

/-- Places beyond which the product of two 32-bit mantissas is plain zero. -/
def shortProductPlaces : Nat := 47

/-- The product; a zero operand gives plain zero. -/
def mul? (a b : Decimal) : Option Decimal :=
  let scale := a.scale + b.scale
  let short := a.mantissa < twoTo 32 ∧ b.mantissa < twoTo 32
  if a.isZero ∨ b.isZero ∨ (short ∧ shortProductPlaces < scale) then some zero
  else fit? (a.negative != b.negative) (a.mantissa * b.mantissa) scale

/-- Removes trailing zeros of a mantissa, at most as many as there are places. -/
def trimZeros (mantissa : Nat) : Nat → Nat × Nat
  | 0 => (mantissa, 0)
  | scale + 1 =>
    if mantissa % 10 = 0 then trimZeros (mantissa / 10) scale else (mantissa, scale + 1)

/-- The largest scale up to `limit` at which the whole part of `n / d` still fits 96 bits. -/
def quotientScale (n d : Nat) : Nat → Nat
  | 0 => 0
  | limit + 1 =>
    if n * tenTo (limit + 1) / d < mantissaBound then limit + 1 else quotientScale n d limit

/-- One divided by the decimal, to as many digits as fit and without trailing zeros. -/
def reciprocal? (d : Decimal) : Option Decimal :=
  if d.isZero then none
  else
    let n := tenTo d.scale
    let scale := quotientScale n d.mantissa maxScale
    let rounded := roundHalfEven (n * tenTo scale) d.mantissa
    let (mantissa, scale) :=
      if rounded < mantissaBound then trimZeros rounded scale
      else trimZeros (roundHalfEven rounded 10) (scale - 1)
    ofParts? d.negative mantissa scale

/-- Drops the digits past `places`, toward zero. -/
def truncate (places : Nat) (d : Decimal) : Decimal :=
  if h : d.scale ≤ places then d
  else
    let mantissa := d.mantissa / tenTo (d.scale - places)
    { negative := d.negative && mantissa != 0
      mantissa
      scale := places
      mantissa_lt := Nat.lt_of_le_of_lt (Nat.div_le_self _ _) d.mantissa_lt
      scale_le := Nat.le_trans (Nat.le_of_lt (Nat.not_le.1 h)) d.scale_le }

end Bureau.Decimal
