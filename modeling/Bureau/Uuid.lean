import Bureau.Text.Basic
import Bureau.Words

/-!
# Universally unique identifiers

An identifier is a number of 128 bits, written as 32 lower-case hexadecimal digits in groups of
8, 4, 4, 4 and 12. Reading also takes the digits without hyphens, and the grouped form in braces
or behind `urn:uuid:`.
-/

namespace Bureau

/-- An identifier of 128 bits, as a number. -/
structure Uuid where
  number : Nat
  number_lt : number < twoTo 128
deriving DecidableEq

namespace Uuid

/-- The identifier whose bits are all zero. -/
def nil : Uuid := ⟨0, by decide⟩

instance : Inhabited Uuid := ⟨nil⟩

/-- The identifier of a number that has at most 128 bits. -/
def ofNat? (n : Nat) : Option Uuid :=
  if h : n < twoTo 128 then some ⟨n, h⟩ else none

instance : Ord Uuid := ⟨fun a b => compare a.number b.number⟩

/-! ### Bytes -/

/-- The sixteen bytes of the identifier. -/
def toBytes (u : Uuid) : Bytes :=
  Bytes.ofNat 16 u.number

/-- The identifier that exactly sixteen bytes write. -/
def ofBytes? (bytes : Bytes) : Option Uuid :=
  if bytes.length = 16 then ofNat? bytes.toNat else none

/-- The random identifier made of sixteen random bytes: version 4 of the standard variant. -/
def ofRandom (bits : BitVec 128) : Uuid :=
  let version : BitVec 128 := 0x4#128 <<< 76
  let variant : BitVec 128 := 0x2#128 <<< 62
  let free : BitVec 128 := ~~~((0xf#128 <<< 76) ||| (0x3#128 <<< 62))
  let value := (bits &&& free) ||| version ||| variant
  ⟨value.toNat, value.isLt⟩

/-- The digit that tells how the identifier was made. -/
def version (u : Uuid) : Nat :=
  u.number / twoTo 76 % 16

/-! ### Text -/

/-- The digits without hyphens. -/
def simple (u : Uuid) : String :=
  String.ofList (Text.Hex.padded 32 u.number)

/-- The digits in groups of 8, 4, 4, 4 and 12. -/
def toString (u : Uuid) : String :=
  let ds := Text.Hex.padded 32 u.number
  String.ofList <|
    ds.take 8 ++ '-' :: (ds.drop 8).take 4 ++ '-' :: (ds.drop 12).take 4 ++
      '-' :: (ds.drop 16).take 4 ++ '-' :: ds.drop 20

instance : ToString Uuid := ⟨toString⟩

/-- The identifier of 32 hexadecimal digits. -/
private def ofDigits? (ds : List Char) : Option Uuid :=
  if ds.length = 32 then (Text.Hex.valueFrom 0 ds).bind ofNat? else none

/-- The grouped form: hyphens at places 8, 13, 18 and 23 and digits everywhere else. -/
def ofGrouped? (cs : List Char) : Option Uuid :=
  if cs.length = 36 ∧ cs[8]? = some '-' ∧ cs[13]? = some '-' ∧ cs[18]? = some '-' ∧
      cs[23]? = some '-' then
    ofDigits? (cs.take 8 ++ (cs.drop 9).take 4 ++ (cs.drop 14).take 4 ++ (cs.drop 19).take 4 ++
      cs.drop 24)
  else none

/-- Any of the written forms. -/
def ofString? (text : String) : Option Uuid :=
  match text.toList with
  | '\x7b' :: rest =>
    if rest.getLast? = some '\x7d' then ofGrouped? rest.dropLast else none
  | 'u' :: 'r' :: 'n' :: ':' :: 'u' :: 'u' :: 'i' :: 'd' :: ':' :: rest => ofGrouped? rest
  | 'U' :: 'R' :: 'N' :: ':' :: 'U' :: 'U' :: 'I' :: 'D' :: ':' :: rest => ofGrouped? rest
  | cs => if cs.length = 32 then ofDigits? cs else ofGrouped? cs

end Uuid

end Bureau
