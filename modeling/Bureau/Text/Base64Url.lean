import Bureau.Words

/-!
# Base64 for URLs

Three bytes are four characters of the alphabet `A–Z a–z 0–9 - _`, without padding at the end.
Reading is strict: the bits that the last character does not need are zero.
-/

namespace Bureau.Text.Base64Url

/-- The character of a value below 64. -/
def digit (n : Nat) : Char :=
  if n < 26 then Char.ofNat ('A'.toNat + n)
  else if n < 52 then Char.ofNat ('a'.toNat + (n - 26))
  else if n < 62 then Char.ofNat ('0'.toNat + (n - 52))
  else if n = 62 then '-'
  else '_'

/-- The value of a character of the alphabet. -/
def value? (c : Char) : Option Nat :=
  if 'A' ≤ c ∧ c ≤ 'Z' then some (c.toNat - 'A'.toNat)
  else if 'a' ≤ c ∧ c ≤ 'z' then some (c.toNat - 'a'.toNat + 26)
  else if '0' ≤ c ∧ c ≤ '9' then some (c.toNat - '0'.toNat + 52)
  else if c = '-' then some 62
  else if c = '_' then some 63
  else none

/-- Three bytes become four characters; one or two left over become two or three, with no padding.
-/
def encode : Bytes → List Char
  | a :: b :: c :: rest =>
    let n := a.toNat * 65536 + b.toNat * 256 + c.toNat
    digit (n / 262144) :: digit (n / 4096 % 64) :: digit (n / 64 % 64) :: digit (n % 64) ::
      encode rest
  | [a, b] =>
    let n := a.toNat * 256 + b.toNat
    [digit (n / 1024), digit (n / 16 % 64), digit (n % 16 * 4)]
  | [a] => [digit (a.toNat / 4), digit (a.toNat % 4 * 16)]
  | [] => []

/-- Reads what is written so and nothing else: bits that no byte needs must be zero. -/
def decode? : List Char → Option Bytes
  | p :: q :: r :: s :: rest => do
    let n := (← value? p) * 262144 + (← value? q) * 4096 + (← value? r) * 64 + (← value? s)
    let bytes ← decode? rest
    return UInt8.ofNat (n / 65536) :: UInt8.ofNat (n / 256) :: UInt8.ofNat n :: bytes
  | [p, q, r] => do
    let n := (← value? p) * 4096 + (← value? q) * 64 + (← value? r)
    if n % 4 = 0 then some [UInt8.ofNat (n / 1024), UInt8.ofNat (n / 4)] else none
  | [p, q] => do
    let n := (← value? p) * 64 + (← value? q)
    if n % 16 = 0 then some [UInt8.ofNat (n / 16)] else none
  | [_] => none
  | [] => some []

end Bureau.Text.Base64Url
