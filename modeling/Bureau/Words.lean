/-!
# Words and bytes

How many values fit a word of binary digits or a row of decimal places; both are plain natural
numbers, so that the widths of machine words and the scales of amounts can be compared exactly. A
sum that does not fit its type is an overflow. Byte strings are lists of bytes; numbers are written
into them most significant byte first.
-/

namespace Bureau

/-! ### Powers of two and ten -/

/-- How many values a word of so many binary digits has. -/
abbrev twoTo (bits : Nat) : Nat := Nat.pow 2 bits

/-- How many values a row of so many decimal digits has. -/
abbrev tenTo (places : Nat) : Nat := Nat.pow 10 places

theorem twoTo_succ (bits : Nat) : twoTo (bits + 1) = twoTo bits * 2 := rfl

theorem tenTo_succ (places : Nat) : tenTo (places + 1) = tenTo places * 10 := rfl

theorem tenTo_pos (places : Nat) : 0 < tenTo places := by
  induction places with
  | zero => decide
  | succ n ih => rw [tenTo_succ]; omega

theorem tenTo_add (m n : Nat) : tenTo (m + n) = tenTo m * tenTo n := by
  induction n with
  | zero => simp
  | succ n ih => rw [Nat.add_succ, tenTo_succ, tenTo_succ, ih, Nat.mul_assoc]

/-! ### Sums that do not fit -/

/-- A sum that does not fit its type. Whatever needs the sum breaks off. -/
inductive SumOverflow where
  /-- Of two decimals. -/
  | addition
  /-- Of two words. -/
  | count
  /-- Of a moment and a span, past the end of the calendar. -/
  | moment
deriving DecidableEq

/-- What is said when something breaks off. -/
def SumOverflow.message : SumOverflow → String
  | addition => "Addition overflowed"
  | count => "attempt to add with overflow"
  | moment => "`DateTime + TimeDelta` overflowed"

/-- The sum of two words of 64 bits. -/
def addWords (a b : Nat) : Except SumOverflow Nat :=
  if a + b < twoTo 64 then .ok (a + b) else .error .count

/-! ### Byte strings -/

/-- Bytes in their order. -/
abbrev Bytes := List UInt8

namespace Bytes

/-- The last `width` bytes of a number, most significant first. -/
def ofNat : Nat → Nat → Bytes
  | 0, _ => []
  | width + 1, n => ofNat width (n / 256) ++ [UInt8.ofNat n]

/-- The number that the bytes write, most significant first. -/
def toNat (bytes : Bytes) : Nat :=
  bytes.foldl (fun n b => n * 256 + b.toNat) 0

/-- Bytewise exclusive or, as long as the shorter one. -/
def xor (a b : Bytes) : Bytes :=
  List.zipWith (· ^^^ ·) a b

/-- The UTF-8 form of a text. -/
def ofString (text : String) : Bytes :=
  text.toUTF8.toList

/-- The text that the bytes write in UTF-8. -/
def toString? (bytes : Bytes) : Option String :=
  String.fromUTF8? ⟨bytes.toArray⟩

end Bytes

end Bureau
