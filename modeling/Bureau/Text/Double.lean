import Bureau.Text.Basic

/-!
# Doubles as text

A double is written as digits with at most one point and an optional exponent, or by one of the
names of infinity and of what is not a number, in any case. A text stands for the double nearest to
its exact value.
-/

namespace Bureau.Text

/-- The double nearest to a whole number times a power of ten. Powers far out of range are not
computed. -/
def nearestDouble (digits : List Char) (exponent : Int) : Float :=
  let digits := digits.dropWhile (· == '0')
  let mantissa := (digitsFrom 0 digits).getD 0
  let magnitude := digits.length + exponent
  if mantissa = 0 ∨ magnitude < -400 then 0.0
  else if 400 < magnitude then 1.0 / 0.0
  else if 0 ≤ exponent then Float.ofScientific mantissa false exponent.toNat
  else Float.ofScientific mantissa true exponent.natAbs

/-- An unsigned double in digits. -/
def plainDouble? (cs : List Char) : Option Float :=
  let isDigit := fun c : Char => (digit? c).isSome
  let whole := cs.takeWhile isDigit
  let rest := cs.dropWhile isDigit
  let (fraction, rest) :=
    match rest with
    | '.' :: rest => (rest.takeWhile isDigit, rest.dropWhile isDigit)
    | rest => ([], rest)
  if whole.isEmpty ∧ fraction.isEmpty then none
  else
    let scaled := fun e : Int => nearestDouble (whole ++ fraction) (e - fraction.length)
    match rest with
    | [] => some (scaled 0)
    | mark :: exponent =>
      if mark = 'e' ∨ mark = 'E' then (integer? (String.ofList exponent)).map scaled else none

/-- An unsigned double. -/
def unsignedDouble? (cs : List Char) : Option Float :=
  let name := String.ofList (cs.map Char.toLower)
  if name = "inf" ∨ name = "infinity" then some (1.0 / 0.0)
  else if name = "nan" then some (0.0 / 0.0)
  else plainDouble? cs

/-- A double with an optional sign. -/
def double? (text : String) : Option Float :=
  match text.toList with
  | '-' :: rest => (unsignedDouble? rest).map (- ·)
  | '+' :: rest => unsignedDouble? rest
  | cs => unsignedDouble? cs

end Bureau.Text
