/-!
# Blanks and digits

The text without the blanks at its ends; reading of unsigned and signed whole numbers, where a
reader accepts the whole text or nothing; the fixed-width writing that dates and amounts need; and
bytes as pairs of hexadecimal digits, lower case when written, either case when read.
-/

namespace Bureau.Text

/-! ### Blanks -/

/-- The Unicode property `White_Space`. -/
def isBlank (c : Char) : Bool :=
  let n := c.toNat
  (9 ≤ n && n ≤ 13) || n == 0x20 || n == 0x85 || n == 0xa0 || n == 0x1680 ||
  (0x2000 ≤ n && n ≤ 0x200a) || n == 0x2028 || n == 0x2029 || n == 0x202f || n == 0x205f ||
  n == 0x3000

/-- The characters without the blanks in front. -/
def trimStart (cs : List Char) : List Char :=
  cs.dropWhile isBlank

/-- The characters without the blanks in front and behind. -/
def trimmed (cs : List Char) : List Char :=
  ((trimStart cs).reverse.dropWhile isBlank).reverse

/-! ### Decimal digits -/

/-- Value of an ASCII decimal digit. -/
def digit? (c : Char) : Option Nat :=
  if '0' ≤ c ∧ c ≤ '9' then some (c.toNat - '0'.toNat) else none

/-- Digit of a value below ten; larger values wrap around. -/
def digitChar (n : Nat) : Char :=
  Char.ofNat ('0'.toNat + n % 10)

/-- Positional value of a digit sequence, continued from the value read so far. -/
def digitsFrom (value : Nat) : List Char → Option Nat
  | [] => some value
  | c :: rest => (digit? c).bind fun d => digitsFrom (value * 10 + d) rest

/-- A whole number written with at least one digit and nothing else. -/
def digits? : List Char → Option Nat
  | [] => none
  | cs => digitsFrom 0 cs

/-- A natural number with an optional plus sign. -/
def natural? (text : String) : Option Nat :=
  match text.toList with
  | '+' :: rest => digits? rest
  | cs => digits? cs

/-- A natural number with an optional plus sign, below `bound`. -/
def naturalBelow? (bound : Nat) (text : String) : Option Nat :=
  (natural? text).filter (· < bound)

/-- A whole number with an optional sign. -/
def integer? (text : String) : Option Int :=
  match text.toList with
  | '-' :: rest => (digits? rest).map fun n => -(n : Int)
  | '+' :: rest => (digits? rest).map Int.ofNat
  | cs => (digits? cs).map Int.ofNat

/-- The last `width` digits of a number, most significant first. -/
def padded : Nat → Nat → List Char
  | 0, _ => []
  | width + 1, n => padded width (n / 10) ++ [digitChar n]

/-- All digits of a number, at least `width` of them. -/
def atLeast (width n : Nat) : List Char :=
  let plain := (Nat.repr n).toList
  List.replicate (width - plain.length) '0' ++ plain

/-! ### Hexadecimal digits -/

namespace Hex

/-- Value of a hexadecimal digit of either case. -/
def value? (c : Char) : Option Nat :=
  if '0' ≤ c ∧ c ≤ '9' then some (c.toNat - '0'.toNat)
  else if 'a' ≤ c ∧ c ≤ 'f' then some (c.toNat - 'a'.toNat + 10)
  else if 'A' ≤ c ∧ c ≤ 'F' then some (c.toNat - 'A'.toNat + 10)
  else none

/-- Lower-case digit of a value below sixteen. -/
def digit (n : Nat) : Char :=
  if n < 10 then Char.ofNat ('0'.toNat + n) else Char.ofNat ('a'.toNat + (n - 10) % 6)

/-- Two digits per byte, the high half first. -/
def encode : List UInt8 → List Char
  | [] => []
  | b :: rest => digit (b.toNat / 16) :: digit (b.toNat % 16) :: encode rest

/-- Refuses an odd number of digits and every other character. -/
def decode? : List Char → Option (List UInt8)
  | [] => some []
  | [_] => none
  | hi :: lo :: rest => do
    let h ← value? hi
    let l ← value? lo
    let bytes ← decode? rest
    return UInt8.ofNat (16 * h + l) :: bytes

/-- Value of a run of hexadecimal digits, continued from the value read so far. -/
def valueFrom (value : Nat) : List Char → Option Nat
  | [] => some value
  | c :: rest => (value? c).bind fun d => valueFrom (value * 16 + d) rest

/-- The last `width` hexadecimal digits of a number. -/
def padded : Nat → Nat → List Char
  | 0, _ => []
  | width + 1, n => padded width (n / 16) ++ [digit (n % 16)]

end Hex

end Bureau.Text
