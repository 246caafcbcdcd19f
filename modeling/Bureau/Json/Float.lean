import Bureau.Json.Basic
import Bureau.Words

/-!
# Numbers of JSON

A number without point and exponent is a whole number while it fits 64 bits; every other number
becomes a double. Doubles are formed from at most 64 bits of digits and one power of ten, and are
written with the fewest digits that read back, never with an exponent.
-/

namespace Bureau.Json

/-- What a number literal stands for. -/
inductive Number where
  | natural (n : Nat)
  | negative (n : Int)
  | double (x : Float)

/-! ### Reading -/

/-- The double times a power of ten, in one multiplication or division; only a power below the
range of doubles takes more than one, and three make any double zero. -/
def scaled? : Nat → Float → Int → Option Float
  | 0, _, _ => none
  | fuel + 1, f, exponent =>
    if exponent.natAbs ≤ 308 then
      let power := Float.ofScientific 1 false exponent.natAbs
      if 0 ≤ exponent then
        let product := f * power
        if product.isInf then none else some product
      else some (f / power)
    else if f == 0.0 then some f
    else if 0 ≤ exponent then none
    else scaled? fuel (f / Float.ofScientific 1 false 308) (exponent + 308)

/-- The double nearest to a significand of 64 bits, times a power of ten. -/
def doubleOfParts? (significand : Nat) (exponent : Int) : Option Float :=
  scaled? 8 significand.toUInt64.toFloat exponent

/-- The digits that fit 64 bits, and how many more there are. -/
def significandOf (value : Nat) : List Char → Nat × Nat
  | [] => (value, 0)
  | c :: rest =>
    let next := value * 10 + (Text.digit? c).getD 0
    if next < twoTo 64 then significandOf next rest else (value, rest.length + 1)

/-- A literal as a double, if it is in range. -/
def Literal.double? (n : Literal) : Option Float :=
  let (significand, cut) := significandOf 0 n.whole
  let (significand, scale) :=
    let (s, left) := significandOf significand n.fraction
    (s, (cut : Int) - (n.fraction.length - left))
  let magnitude :=
    match n.exponent with
    | none => doubleOfParts? significand scale
    | some (negative, digits) =>
      let e := (Text.digits? digits).getD 0
      if twoTo 31 ≤ e then
        if significand = 0 ∨ negative then some 0.0 else none
      else
        let e : Int := if negative then -(e : Int) else e
        doubleOfParts? significand (max (-(twoTo 31 : Int)) (min (twoTo 31 - 1) (scale + e)))
  magnitude.map fun f => if n.negative then -f else f

/-- The number that a literal stands for. -/
def Literal.number? (n : Literal) : Option Number :=
  if n.fraction.isEmpty ∧ n.exponent.isNone then
    let value := (Text.digits? n.whole).getD 0
    if value < twoTo 64 then
      if !n.negative then some (.natural value)
      else if value = 0 ∨ twoTo 63 < value then some (.double (-value.toUInt64.toFloat))
      else some (.negative (-(value : Int)))
    else n.double?.map .double
  else n.double?.map .double

/-! ### Writing -/

/-- Mantissa and power of two of a finite double without its sign. -/
def doubleParts (x : Float) : Nat × Int :=
  let bits := x.toBits.toNat
  let field : Nat := bits / twoTo 52 % twoTo 11
  let fraction : Nat := bits % twoTo 52
  if field = 0 then (fraction, -1074) else (fraction + twoTo 52, (field : Int) - 1075)

/-- The floor of `m · 2^q · 10^k`, and whether the upper neighbour is nearer. -/
def onGrid (m : Nat) (q k : Int) : Nat × Bool :=
  let n : Nat := m * twoTo q.toNat * tenTo k.toNat
  let d : Nat := twoTo (-q).toNat * tenTo (-k).toNat
  (n / d, d < 2 * (n % d) || (2 * (n % d) == d && n / d % 2 == 1))

/-- Number of decimal digits of a positive number. -/
def digitCount (n : Nat) : Nat := (Nat.repr n).length

/-- Fewest digits that read back as the double of magnitude `x`, and their power of ten. Of the
two neighbours on a grid of digits the nearer one is preferred. -/
def shortest (x : Float) (m : Nat) (q : Int) : Nat × Int :=
  let (whole, _) := onGrid m q 0
  let magnitude : Int :=
    if whole != 0 then digitCount whole
    else
      let (tail, _) := onGrid m q 350
      (digitCount tail : Int) - 350
  let attempt (count : Nat) : Option (Nat × Int) :=
    let k := (count : Int) - magnitude
    let (low, up) := onGrid m q k
    let readsBack (d : Nat) : Bool :=
      let y :=
        if 0 ≤ k then Float.ofScientific d true k.toNat
        else Float.ofScientific d false (-k).toNat
      y.toBits == x.toBits
    let (first, second) := if up then (low + 1, low) else (low, low + 1)
    if readsBack first then some (first, -k)
    else if readsBack second then some (second, -k)
    else none
  ((List.range' 1 17).findSome? attempt).getD (0, 0)

/-- A finite double with all its digits and no exponent. -/
def doubleText (x : Float) : String :=
  let (m, q) := doubleParts x
  let sign := if x.toBits.toNat / twoTo 63 = 1 then "-" else ""
  if m = 0 then sign ++ "0"
  else
    let (digits, power) := shortest x.abs m q
    if 0 ≤ power then sign ++ Nat.repr digits ++ String.ofList (List.replicate power.toNat '0')
    else
      let places := (-power).toNat
      sign ++ Nat.repr (digits / tenTo places) ++ "." ++
        String.ofList (Text.padded places (digits % tenTo places))

end Bureau.Json
