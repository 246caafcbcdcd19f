import Bureau.Decimal.Arithmetic
import Bureau.Text.Basic

/-!
# Decimals as text

The written form is a sign, digits and at most one point, with underscores between digits. Digits
that no longer fit behind the point are rounded away at the first of them, and what follows it is
not read. A text that is not of this form may still carry an exponent.
-/

namespace Bureau.Decimal

/-- Why a text is not a decimal. -/
inductive TextFault where
  | empty
  | strangeCharacter
  | secondPoint
  | leadingUnderscore
  | noDigits
  | tooManyDigits
  | roundedTooHigh
deriving DecidableEq

namespace TextFault

/-- What is said about a text that is not a decimal. -/
def message : TextFault → String
  | empty => "Invalid decimal: empty"
  | strangeCharacter => "Invalid decimal: unknown character"
  | secondPoint => "Invalid decimal: two decimal points"
  | leadingUnderscore => "Invalid decimal: must start lead with a number"
  | noDigits => "Invalid decimal: no digits found"
  | tooManyDigits => "Invalid decimal: overflow from too many digits"
  | roundedTooHigh => "Invalid decimal: overflow from mantissa after rounding"

/-- The fault of a character where a digit should be. -/
def ofChar (c : Char) : TextFault :=
  if c = '.' then secondPoint else if c = '_' then leadingUnderscore else strangeCharacter

end TextFault

/-- The decimal of digits that have been read. -/
def ofDigits (negative : Bool) (mantissa scale : Nat) : Except TextFault Decimal :=
  (ofParts? negative mantissa scale).elim (.error .tooManyDigits) .ok

/-- Adds the first digit that did not fit: five and above round up. -/
def roundDigit (negative : Bool) (mantissa scale : Nat) (c : Char) : Except TextFault Decimal :=
  match Text.digit? c with
  | none => .error (.ofChar c)
  | some d =>
    if d < 5 then ofDigits negative mantissa scale
    else if mantissa + 1 < mantissaBound then ofDigits negative (mantissa + 1) scale
    else if scale = 0 then .error .roundedTooHigh
    else ofDigits negative ((mantissa + 1 + 4) / 10) (scale - 1)

/-- The digits read so far: the sign, their value, how many stand behind the point, and whether a
point and a digit have been seen. -/
structure Reading where
  negative : Bool
  mantissa : Nat := 0
  scale : Nat := 0
  point : Bool := false
  digits : Bool := false

/-- Reads on from the digits read so far. -/
def readOn (r : Reading) : List Char → Except TextFault Decimal
  | [] => if r.digits then ofDigits r.negative r.mantissa r.scale else .error .noDigits
  | c :: rest =>
    if c = '_' ∧ r.digits then readOn r rest
    else if c = '.' ∧ !r.point then readOn { r with point := true } rest
    else
      match Text.digit? c with
      | none => .error (.ofChar c)
      | some d =>
        let mantissa := r.mantissa * 10 + d
        let scale := if r.point then r.scale + 1 else 0
        if mantissaBound ≤ mantissa then
          if r.point then roundDigit r.negative r.mantissa r.scale c else .error .tooManyDigits
        else if r.point ∧ maxScale ≤ scale then
          match rest.dropWhile (· == '_') with
          | [] => ofDigits r.negative mantissa scale
          | next :: _ => roundDigit r.negative mantissa scale next
        else readOn { r with mantissa, scale, digits := true } rest

/-- A decimal written without an exponent. -/
def ofPlain (text : List Char) : Except TextFault Decimal :=
  match text with
  | [] => .error .empty
  | '-' :: rest => readOn { negative := true } rest
  | '+' :: rest => readOn { negative := false } rest
  | _ => readOn { negative := false } text

/-- Multiplies by a power of ten in steps of at most nineteen places, each product a decimal. -/
def raise? (d : Decimal) (places : Nat) : Option Decimal :=
  if d.isZero ∨ places = 0 then some d
  else
    let step := min places 19
    (ofParts? false (tenTo step) 0).bind fun power =>
      (mul? d power).bind fun product => raise? product (places - step)
termination_by places
decreasing_by
  have : places ≠ 0 := fun h => ‹¬_› (Or.inr h)
  omega

/-- The same mantissa with its point moved, where that many places exist. -/
def withScale? (scale : Nat) (d : Decimal) : Option Decimal :=
  if h : scale ≤ 28 then some { d with scale, scale_le := h } else none

/-- A decimal with an exponent: `1.5e3`, `15E-1`. -/
def ofScientific? (text : List Char) : Option Decimal :=
  let isMark := fun c : Char => c == 'e' || c == 'E'
  match text.dropWhile (!isMark ·) with
  | [] => none
  | _ :: exponent =>
    (ofPlain (text.takeWhile (!isMark ·))).toOption.bind fun base =>
      match exponent with
      | '-' :: digits =>
        (Text.naturalBelow? (twoTo 32) (String.ofList digits)).bind fun e =>
          base.withScale? (base.scale + e)
      | digits =>
        (Text.naturalBelow? (twoTo 32) (String.ofList digits)).bind fun e =>
          if e ≤ base.scale then base.withScale? (base.scale - e)
          else (raise? base (e - base.scale)).bind (withScale? 0)

/-- Reads a decimal as people and programs write it. -/
def ofText (text : String) : Except TextFault Decimal :=
  match ofPlain text.toList with
  | .ok d => .ok d
  | .error fault => (ofScientific? text.toList).elim (.error fault) .ok

/-- A decimal as people and programs write it. -/
def ofString? (text : String) : Option Decimal :=
  (ofText text).toOption

/-- The digits with the point in place and every place of the scale shown. -/
def toString (d : Decimal) : String :=
  let whole := Nat.repr (d.mantissa / tenTo d.scale)
  let fraction :=
    if d.scale = 0 then ""
    else "." ++ String.ofList (Text.padded d.scale (d.mantissa % tenTo d.scale))
  (if d.negative then "-" else "") ++ whole ++ fraction

instance : ToString Decimal := ⟨toString⟩

end Bureau.Decimal
