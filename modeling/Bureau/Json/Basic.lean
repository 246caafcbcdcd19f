import Bureau.Text.Basic

/-!
# JSON values

A value as it is written or as it was read. A text that is not JSON still reads as a value up to
the place where it breaks off: there stands an `unread` leaf, or an array or object whose ending
is a fault. Whoever looks at a value in the order of its text meets the first fault first.
-/

namespace Bureau

namespace Json

/-- What can be wrong with a text that should hold a JSON value of a certain shape. -/
inductive Fault where
  /-- The text ends too early. -/
  | ended
  /-- The text is not JSON. -/
  | malformed
  /-- The value does not have the shape or content that is asked for. -/
  | mismatch
deriving DecidableEq, Repr

/-- What is said about a text that cannot be read. -/
def Fault.message : Fault → String
  | ended => "the text ends too early"
  | malformed => "the text is not JSON"
  | mismatch => "the value does not have the expected shape"

/-- What the first characters of an unread value promise. -/
inductive Beginning where
  /-- The text ends before the value. -/
  | absent
  /-- A quotation mark. -/
  | quoted
  /-- Anything else. -/
  | other
deriving DecidableEq, Repr

/-- How an array or object ends. -/
inductive Ending where
  | closed
  | broken (fault : Fault)
deriving DecidableEq, Repr

/-- A number as written: sign, digits before and behind the point, and exponent. -/
structure Literal where
  negative : Bool
  whole : List Char
  fraction : List Char
  exponent : Option (Bool × List Char)
deriving DecidableEq, Repr

end Json

/-- A value as far as the text that it is read from is well formed. -/
inductive Json where
  | null
  | bool (value : Bool)
  | number (literal : Json.Literal)
  | string (value : String)
  | array (items : List Json) (ending : Json.Ending)
  | object (members : List (String × Json)) (ending : Json.Ending)
  | unread (beginning : Json.Beginning) (fault : Json.Fault)

namespace Json

instance : Inhabited Json := ⟨null⟩

/-- An array that is complete. -/
def list (items : List Json) : Json := array items .closed

/-- An object that is complete. -/
def record (members : List (String × Json)) : Json := object members .closed

/-- A natural number. -/
def nat (n : Nat) : Json := number ⟨false, (Nat.repr n).toList, [], none⟩

/-- A whole number. -/
def int (n : Int) : Json := number ⟨n < 0, (Nat.repr n.natAbs).toList, [], none⟩

/-! ### Writing -/

/-- A character inside quotation marks: marks, backslashes and control characters are escaped. -/
def escaped (c : Char) : List Char :=
  if c = '"' then ['\\', '"']
  else if c = '\\' then ['\\', '\\']
  else if c = '\n' then ['\\', 'n']
  else if c = '\r' then ['\\', 'r']
  else if c = '\t' then ['\\', 't']
  else if c = '\x08' then ['\\', 'b']
  else if c = '\x0c' then ['\\', 'f']
  else if c.toNat < 0x20 then '\\' :: 'u' :: Text.Hex.padded 4 c.toNat
  else [c]

/-- A text in quotation marks. -/
def quoted (text : String) : List Char :=
  '"' :: text.toList.flatMap escaped ++ ['"']

/-- The characters of a number as they are written. -/
def Literal.chars (n : Literal) : List Char :=
  (if n.negative then ['-'] else []) ++ n.whole ++
    (if n.fraction.isEmpty then [] else '.' :: n.fraction) ++
    match n.exponent with
    | none => []
    | some (negative, digits) => 'e' :: (if negative then '-' :: digits else digits)

mutual

/-- The text of a value without blanks, members in their order. -/
def render : Json → List Char
  | null => "null".toList
  | bool true => "true".toList
  | bool false => "false".toList
  | number n => n.chars
  | string s => quoted s
  | array items _ => '[' :: renderItems items ++ [']']
  | object members _ => '\x7b' :: renderMembers members ++ ['\x7d']
  | unread _ _ => []

/-- The members of an array with commas between them. -/
def renderItems : List Json → List Char
  | [] => []
  | [item] => render item
  | item :: rest => render item ++ ',' :: renderItems rest

/-- The members of an object, each behind its name. -/
def renderMembers : List (String × Json) → List Char
  | [] => []
  | [(name, value)] => quoted name ++ ':' :: render value
  | (name, value) :: rest => quoted name ++ ':' :: (render value ++ ',' :: renderMembers rest)

end

/-- The compact text of a value. -/
def compress (j : Json) : String :=
  String.ofList j.render

end Json

end Bureau
