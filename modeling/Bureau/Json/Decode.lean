import Bureau.Json.Float
import Bureau.Json.Reader

/-!
# Decoding JSON

A decoder looks at a value in the order of its text and answers with what the value means or with
the first fault. A record may be written as an object or as the array of its fields; members that
the record does not know are skipped, and no member may be given twice.
-/

namespace Bureau.Json

/-- Reads a value of a type, or says what is wrong with the text. -/
abbrev Decoder (α : Type) := Json → Except Fault α

/-! ### Skipping -/

/-- The fault of an ending, if it is one. -/
def ended : Ending → Except Fault Unit
  | .closed => .ok ()
  | .broken fault => .error fault

mutual

/-- Looks at a whole value without asking for a shape. Of a value that is kept for later, only so
many levels may be nested and every number must be in range. -/
def skipped (levels : Option Nat) : Json → Except Fault Unit
  | null => .ok ()
  | bool _ => .ok ()
  | number literal =>
    if levels.isSome ∧ literal.number?.isNone then .error .malformed else .ok ()
  | string _ => .ok ()
  | unread _ fault => .error fault
  | array items ending =>
    if levels = some 0 then .error .malformed
    else do skippedItems (levels.map (· - 1)) items; ended ending
  | object members ending =>
    if levels = some 0 then .error .malformed
    else do skippedMembers (levels.map (· - 1)) members; ended ending

/-- Reads over the members of an array. -/
def skippedItems (levels : Option Nat) : List Json → Except Fault Unit
  | [] => .ok ()
  | item :: rest => do skipped levels item; skippedItems levels rest

/-- Reads over the members of an object. -/
def skippedMembers (levels : Option Nat) : List (String × Json) → Except Fault Unit
  | [] => .ok ()
  | (_, value) :: rest => do skipped levels value; skippedMembers levels rest

end

/-- A value that nobody asks for; it may be nested to any depth. -/
def ignored : Json → Except Fault Unit :=
  skipped none

/-! ### Single values -/

/-- The fault of a value of the wrong kind. A scalar is read to its end first. -/
def wrongKind {α : Type} : Json → Except Fault α
  | unread _ fault => .error fault
  | number literal => .error (if literal.number?.isSome then .mismatch else .malformed)
  | _ => .error .mismatch

/-- Reads a string. -/
def text : Decoder String
  | string s => .ok s
  | j => wrongKind j

/-- A text that `parse` accepts. -/
def parsed {α : Type} (parse : String → Option α) : Decoder α := fun j =>
  (text j).bind fun s => (parse s).elim (.error .mismatch) .ok

/-- Reads a truth value. -/
def flag : Decoder Bool
  | bool b => .ok b
  | j => wrongKind j

/-- A whole number between two bounds. -/
def whole (low high : Int) : Decoder Int
  | number literal =>
    match literal.number? with
    | none => .error .malformed
    | some (.natural n) => if low ≤ n ∧ (n : Int) ≤ high then .ok n else .error .mismatch
    | some (.negative n) => if low ≤ n ∧ n ≤ high then .ok n else .error .mismatch
    | some (.double _) => .error .mismatch
  | j => wrongKind j

/-- A natural number of 64 bits. -/
def natural : Decoder Nat := fun j =>
  (whole 0 (twoTo 64 - 1) j).map Int.toNat

/-- A value or `null`. -/
def optional {α : Type} (decode : Decoder α) : Decoder (Option α)
  | null => .ok none
  | j => (decode j).map some

/-- The items of an array. -/
def items {α : Type} (decode : Decoder α) : Decoder (List α)
  | array items ending => do
    let values ← items.mapM decode
    ended ending
    return values
  | j => wrongKind j

/-- One of a few named values: its name, or an object from its name to `null`. -/
def choice {α : Type} (ofName? : String → Option α) : Decoder α
  | string s => (ofName? s).elim (.error .mismatch) .ok
  | object ((name, value) :: rest) ending =>
    match ofName? name with
    | none => .error .mismatch
    | some a =>
      match value with
      | null =>
        if !rest.isEmpty then .error .malformed
        else (ended ending).map fun _ => a
      | j => wrongKind j
  | object [] (.broken .ended) => .error .ended
  | unread .absent fault => .error fault
  | unread .quoted fault => .error fault
  | _ => .error .malformed

/-! ### Records -/

/-- The fields of a record, as they are filled one by one. -/
structure Fields (α : Type) where
  /-- What has been filled so far. -/
  Partial : Type
  start : Partial
  /-- Number of fields. -/
  count : Nat
  /-- Fills the field of a name, if there is one. -/
  member : String → Json → Partial → Option (Except Fault Partial)
  /-- Fills the field at a place. -/
  item : Nat → Json → Partial → Except Fault Partial
  /-- The record, if every field that it needs is filled. -/
  finish : Partial → Option α

namespace Fields

/-- A field that must be given. -/
def required {α : Type} (name : String) (decode : Decoder α) : Fields α where
  Partial := Option α
  start := none
  count := 1
  member key value filled :=
    if key = name then
      some (if filled.isSome then .error .mismatch else (decode value).map some)
    else none
  item _ value _ := (decode value).map some
  finish := id

/-- A field that may be absent or `null`. -/
def absentable {α : Type} (name : String) (decode : Decoder α) : Fields (Option α) where
  Partial := Option (Option α)
  start := none
  count := 1
  member key value filled :=
    if key = name then
      some (if filled.isSome then .error .mismatch else (optional decode value).map some)
    else none
  item _ value _ := (optional decode value).map some
  finish filled := some (filled.getD none)

/-- The fields of two records, one behind the other. -/
def pair {α β : Type} (a : Fields α) (b : Fields β) : Fields (α × β) where
  Partial := a.Partial × b.Partial
  start := (a.start, b.start)
  count := a.count + b.count
  member key value filled :=
    match a.member key value filled.1 with
    | some result => some (result.map fun p => (p, filled.2))
    | none => (b.member key value filled.2).map fun result => result.map fun p => (filled.1, p)
  item i value filled :=
    if i < a.count then (a.item i value filled.1).map fun p => (p, filled.2)
    else (b.item (i - a.count) value filled.2).map fun p => (filled.1, p)
  finish filled := (a.finish filled.1).bind fun x => (b.finish filled.2).map fun y => (x, y)

/-- The same fields for what is made of them. -/
def map {α β : Type} (f : α → β) (a : Fields α) : Fields β where
  Partial := a.Partial
  start := a.start
  count := a.count
  member := a.member
  item := a.item
  finish filled := (a.finish filled).map f

end Fields

/-- Fills a record from the members of an object. -/
def fillMembers {α : Type} (fields : Fields α) (skip : Json → Except Fault Unit) :
    List (String × Json) → fields.Partial → Except Fault fields.Partial
  | [], filled => .ok filled
  | (key, value) :: rest, filled =>
    match fields.member key value filled with
    | some result => result.bind fun filled => fillMembers fields skip rest filled
    | none => (skip value).bind fun _ => fillMembers fields skip rest filled

/-- Fills a record from the items of an array, and gives the items behind the last field. -/
def fillItems {α : Type} (fields : Fields α) (ending : Ending) :
    Nat → Nat → List Json → fields.Partial → Except Fault (fields.Partial × List Json)
  | 0, _, rest, filled => .ok (filled, rest)
  | _ + 1, _, [], _ => .error (match ending with | .closed => .mismatch | .broken fault => fault)
  | left + 1, i, value :: rest, filled =>
    (fields.item i value filled).bind fun filled => fillItems fields ending left (i + 1) rest filled

/-- A record written as an object or as an array. -/
def record? {α : Type} (fields : Fields α) : Decoder α
  | object members ending => do
    let filled ← fillMembers fields ignored members fields.start
    ended ending
    (fields.finish filled).elim (.error .mismatch) .ok
  | array items ending => do
    let (filled, rest) ← fillItems fields ending fields.count 0 items fields.start
    match fields.finish filled with
    | none => .error .mismatch
    | some a =>
      if !rest.isEmpty then .error .malformed
      else (ended ending).map fun _ => a
  | j => wrongKind j

/-! ### Tagged values -/

/-- Levels that may be nested in a text, its outermost value included. -/
def maxLevels : Nat := 127

/-- What a tagged value holds besides its tag: other members or items. -/
inductive Untagged where
  | members (rest : List (String × Json))
  | items (rest : List Json)

/-- Separates the tag from the members of an object, looking at every other member as a whole. -/
def separate {τ : Type} (name : String) (tag : Decoder τ) (levels : Option Nat) :
    List (String × Json) → Option τ → Except Fault (Option τ × List (String × Json))
  | [], found => .ok (found, [])
  | (key, value) :: rest, found =>
    if key = name then
      if found.isSome then .error .mismatch
      else (tag value).bind fun t => separate name tag levels rest (some t)
    else do
      skipped levels value
      let (found, others) ← separate name tag levels rest found
      return (found, (key, value) :: others)

/-- Takes a value apart that names its variant in a member or in its first item. `levels` tells
how many levels may be nested inside it; a value that has been kept before has no limit. -/
def tagged {τ : Type} (name : String) (tag : Decoder τ) (levels : Option Nat) :
    Decoder (τ × Untagged)
  | object members ending => do
    let (found, rest) ← separate name tag levels members none
    ended ending
    match found with
    | some t => return (t, .members rest)
    | none => .error .mismatch
  | array [] ending => .error (match ending with | .closed => .mismatch | .broken fault => fault)
  | array (first :: rest) ending => do
    let t ← tag first
    skippedItems levels rest
    ended ending
    return (t, .items rest)
  | j => wrongKind j

/-- The record of a variant. -/
def Untagged.record? {α : Type} (fields : Fields α) : Untagged → Except Fault α
  | members rest => do
    let filled ← fillMembers fields (fun _ => .ok ()) rest fields.start
    (fields.finish filled).elim (.error .mismatch) .ok
  | items rest =>
    if rest.length = fields.count then do
      let (filled, _) ← fillItems fields .closed fields.count 0 rest fields.start
      (fields.finish filled).elim (.error .mismatch) .ok
    else .error .mismatch

/-- A variant without fields. -/
def Untagged.empty? {α : Type} (a : α) : Untagged → Except Fault α
  | members _ => .ok a
  | items rest => if rest.isEmpty then .ok a else .error .mismatch

/-- The variants of a type: the name of each, and how it is read. -/
abbrev Variants (α : Type) := List (String × (Untagged → Except Fault α))

/-- A tag as it stands in a text: the name of a variant. -/
def tagName {β : Type} (variants : List (String × β)) : Decoder β :=
  parsed fun name => variants.lookup name

/-- A tag in a value that has been kept before: the name of a variant, or its place. -/
def tagPlace {β : Type} (variants : List (String × β)) : Decoder β
  | number literal =>
    match literal.number? with
    | some (.natural n) => (variants[n]?).elim (.error .mismatch) (.ok ·.2)
    | _ => .error .mismatch
  | j => tagName variants j

/-- A value of a type with tagged variants, some levels deep in its text. -/
def variant {α : Type} (name : String) (depth : Nat) (variants : Variants α) : Decoder α := fun j =>
  (tagged name (tagName variants) (some (maxLevels - depth)) j).bind fun (read, rest) => read rest

/-- A value of a type with tagged variants, inside a value that has been kept before. -/
def keptVariant {α : Type} (name : String) (variants : Variants α) : Decoder α := fun j =>
  (tagged name (tagPlace variants) none j).bind fun (read, rest) => read rest

/-! ### Texts -/

/-- A whole text as a value of a shape. -/
def decode {α : Type} (decoder : Decoder α) (text : String) : Except Fault α :=
  let (value, behind) := read text
  (decoder value).bind fun a => behind.elim (.ok a) .error

end Bureau.Json
