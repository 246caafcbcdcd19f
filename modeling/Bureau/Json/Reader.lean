import Bureau.Json.Basic

/-!
# Reading JSON

A reader takes a value from the front of a text and gives the text behind it, or nothing when the
value breaks off: then nothing behind it is read.
-/

namespace Bureau.Json

/-- A value and the text behind it, if reading can go on there. -/
abbrev Taken := Json × Option (List Char)

/-- The four characters that JSON allows between tokens. -/
def isSpace (c : Char) : Bool :=
  c == ' ' || c == '\n' || c == '\t' || c == '\r'

/-- The text from its first character that is not a space. -/
def skipSpace (cs : List Char) : List Char :=
  cs.dropWhile isSpace

/-- The character is an ASCII decimal digit. -/
def isDigit (c : Char) : Bool :=
  (Text.digit? c).isSome

/-! ### Words and numbers -/

/-- The rest of a literal word of which the first letter has been read. -/
def takeWord (value : Json) : List Char → List Char → Taken
  | [], cs => (value, some cs)
  | _ :: _, [] => (unread .other .ended, none)
  | w :: word, c :: cs =>
    if w = c then takeWord value word cs else (unread .other .malformed, none)

/-- Digits where at least one is needed. -/
def takeDigits (cs : List Char) : Except Fault (List Char × List Char) :=
  let ds := cs.takeWhile isDigit
  if !ds.isEmpty then .ok (ds, cs.drop ds.length)
  else if cs.isEmpty then .error .ended
  else .error .malformed

/-- Digits of the whole part: a zero stands alone. -/
def takeWhole (cs : List Char) : Except Fault (List Char × List Char) :=
  match cs with
  | '0' :: c :: rest => if isDigit c then .error .malformed else .ok (['0'], c :: rest)
  | _ => takeDigits cs

/-- Reads the exponent of a number, if it has one: its sign and its digits. -/
def takeExponent (cs : List Char) : Except Fault (Option (Bool × List Char) × List Char) :=
  match cs with
  | c :: rest =>
    if c = 'e' ∨ c = 'E' then
      match rest with
      | '+' :: rest => (takeDigits rest).map fun (ds, rest) => (some (false, ds), rest)
      | '-' :: rest => (takeDigits rest).map fun (ds, rest) => (some (true, ds), rest)
      | _ => (takeDigits rest).map fun (ds, rest) => (some (false, ds), rest)
    else .ok (none, cs)
  | [] => .ok (none, [])

/-- A number behind its sign. -/
def takeLiteral (negative : Bool) (cs : List Char) : Except Fault (Literal × List Char) := do
  let (whole, cs) ← takeWhole cs
  let (fraction, cs) ←
    match cs with
    | '.' :: rest => takeDigits rest
    | _ => .ok ([], cs)
  let (exponent, cs) ← takeExponent cs
  return (⟨negative, whole, fraction, exponent⟩, cs)

/-- Reads a number behind its sign. -/
def takeNumber (negative : Bool) (cs : List Char) : Taken :=
  match takeLiteral negative cs with
  | .ok (literal, rest) => (number literal, some rest)
  | .error fault => (unread .other fault, none)

/-! ### Strings -/

/-- The four hexadecimal digits of an escape. -/
def takeUnit (cs : List Char) : Except Fault (Nat × List Char) :=
  if cs.length < 4 then .error .ended
  else
    match Text.Hex.valueFrom 0 (cs.take 4) with
    | some n => .ok (n, cs.drop 4)
    | none => .error .malformed

/-- The character of a hexadecimal escape; two escapes make a character outside the first plane,
and neither half stands alone. -/
def takeEscapedUnit (cs : List Char) : Except Fault (Char × List Char) := do
  let (high, rest) ← takeUnit cs
  if 0xdc00 ≤ high ∧ high ≤ 0xdfff then .error .malformed
  else if 0xd800 ≤ high ∧ high ≤ 0xdbff then
    match rest with
    | [] => .error .ended
    | ['\\'] => .error .ended
    | '\\' :: 'u' :: rest =>
      let (low, rest) ← takeUnit rest
      if 0xdc00 ≤ low ∧ low ≤ 0xdfff then
        return (Char.ofNat (0x10000 + (high - 0xd800) * 0x400 + (low - 0xdc00)), rest)
      else .error .malformed
    | _ => .error .malformed
  else return (Char.ofNat high, rest)

/-- The character of an escape, behind its backslash. -/
def takeEscape : List Char → Except Fault (Char × List Char)
  | [] => .error .ended
  | '"' :: rest => .ok ('"', rest)
  | '\\' :: rest => .ok ('\\', rest)
  | '/' :: rest => .ok ('/', rest)
  | 'b' :: rest => .ok ('\x08', rest)
  | 'f' :: rest => .ok ('\x0c', rest)
  | 'n' :: rest => .ok ('\n', rest)
  | 'r' :: rest => .ok ('\r', rest)
  | 't' :: rest => .ok ('\t', rest)
  | 'u' :: rest => takeEscapedUnit rest
  | _ => .error .malformed

/-- The characters up to the closing quotation mark, and the text behind it. Every step shortens
the text, so that the first argument may bound their number. -/
def takeQuoted : Nat → List Char → Except Fault (List Char × List Char)
  | 0, _ => .error .ended
  | _ + 1, [] => .error .ended
  | _ + 1, '"' :: rest => .ok ([], rest)
  | fuel + 1, '\\' :: rest => do
    let (c, rest) ← takeEscape rest
    let (cs, rest) ← takeQuoted fuel rest
    return (c :: cs, rest)
  | fuel + 1, c :: rest =>
    if c.toNat < 0x20 then .error .malformed
    else do
      let (cs, rest) ← takeQuoted fuel rest
      return (c :: cs, rest)

/-- A text behind its opening quotation mark. -/
def takeText (cs : List Char) : Except Fault (String × List Char) :=
  (takeQuoted (cs.length + 1) cs).map fun (s, rest) => (String.ofList s, rest)

/-! ### Values

The first argument bounds the number of nested steps; the length of the text is enough of it. -/

mutual

/-- Reads a value, of as many levels as there is fuel for. -/
def takeValue : Nat → List Char → Taken
  | 0, _ => (unread .absent .ended, none)
  | fuel + 1, cs =>
    match skipSpace cs with
    | [] => (unread .absent .ended, none)
    | '"' :: rest =>
      match takeText rest with
      | .ok (s, rest) => (string s, some rest)
      | .error fault => (unread .quoted fault, none)
    | '[' :: rest =>
      match skipSpace rest with
      | ']' :: rest => (array [] .closed, some rest)
      | [] => (array [] (.broken .ended), none)
      | rest =>
        let (items, ending, rest) := takeItems fuel rest
        (array items ending, rest)
    | '\x7b' :: rest =>
      match skipSpace rest with
      | '\x7d' :: rest => (object [] .closed, some rest)
      | [] => (object [] (.broken .ended), none)
      | rest =>
        let (members, ending, rest) := takeMembers fuel rest
        (object members ending, rest)
    | 'n' :: rest => takeWord null ['u', 'l', 'l'] rest
    | 't' :: rest => takeWord (bool true) ['r', 'u', 'e'] rest
    | 'f' :: rest => takeWord (bool false) ['a', 'l', 's', 'e'] rest
    | '-' :: rest => takeNumber true rest
    | c :: rest =>
      if isDigit c then takeNumber false (c :: rest) else (unread .other .malformed, none)

/-- The items of an array from one item on, its ending and the text behind it. -/
def takeItems : Nat → List Char → List Json × Ending × Option (List Char)
  | 0, _ => ([], .broken .ended, none)
  | fuel + 1, cs =>
    match takeValue fuel cs with
    | (item, none) => ([item], .broken .ended, none)
    | (item, some rest) =>
      match skipSpace rest with
      | [] => ([item], .broken .ended, none)
      | ']' :: rest => ([item], .closed, some rest)
      | ',' :: rest =>
        match skipSpace rest with
        | ']' :: _ => ([item, unread .other .malformed], .broken .malformed, none)
        | rest =>
          let (items, ending, rest) := takeItems fuel rest
          (item :: items, ending, rest)
      | _ => ([item], .broken .malformed, none)

/-- The members of an object from one name on, its ending and the text behind it. -/
def takeMembers : Nat → List Char → List (String × Json) × Ending × Option (List Char)
  | 0, _ => ([], .broken .ended, none)
  | fuel + 1, cs =>
    match cs with
    | [] => ([], .broken .ended, none)
    | '"' :: rest =>
      match takeText rest with
      | .error fault => ([], .broken fault, none)
      | .ok (name, rest) =>
        match skipSpace rest with
        | [] => ([(name, unread .absent .ended)], .broken .ended, none)
        | ':' :: rest =>
          match takeValue fuel rest with
          | (value, none) => ([(name, value)], .broken .ended, none)
          | (value, some rest) =>
            match skipSpace rest with
            | [] => ([(name, value)], .broken .ended, none)
            | '\x7d' :: rest => ([(name, value)], .closed, some rest)
            | ',' :: rest =>
              let (members, ending, rest) := takeMembers fuel (skipSpace rest)
              ((name, value) :: members, ending, rest)
            | _ => ([(name, value)], .broken .malformed, none)
        | _ => ([(name, unread .other .malformed)], .broken .malformed, none)
    | _ => ([], .broken .malformed, none)

end

/-- A whole text as a value, with the fault of what stands behind it, if anything does. -/
def read (text : String) : Json × Option Fault :=
  let cs := text.toList
  match takeValue (2 * cs.length + 2) cs with
  | (value, some rest) => (value, if (skipSpace rest).isEmpty then none else some .malformed)
  | (value, none) => (value, none)

end Bureau.Json
