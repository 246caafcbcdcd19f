import Bureau.Calendar.Instant
import Bureau.Decimal.Text
import Bureau.Identity
import Bureau.Json.Decode
import Bureau.Settlement

/-!
# JSON forms

A type with a JSON form can be written as a JSON value and read back from one. Identifiers,
currencies, decimals and instants are strings; a decimal may also be read from a number.
-/

namespace Bureau

/-- A type with a JSON form. -/
class Wire (α : Type) where
  encode : α → Json
  decode : Json.Decoder α

namespace Wire

open Json (Fields Decoder Fault record?)

/-- The JSON form of the value that a text holds. -/
def normalize (α : Type) [Wire α] (text : String) : Except Fault Json :=
  (Json.decode (decode (α := α)) text).map encode

/-- A field of a record, under its name. -/
def field {α : Type} [Wire α] (name : String) : Fields α :=
  Fields.required name decode

/-- A type that is written as text. -/
abbrev ofText {α : Type} (write : α → String) (read? : String → Option α) : Wire α where
  encode a := .string (write a)
  decode := Json.parsed read?

/-- A type of a few values that are known by name. -/
abbrev ofNames {α : Type} (name : α → String) (ofName? : String → Option α) : Wire α where
  encode a := .string (name a)
  decode := Json.choice ofName?

/-! ### Single values -/

instance : Wire Bool := ⟨.bool, Json.flag⟩

instance : Wire String := ⟨.string, Json.text⟩

/-- Natural numbers of 64 bits. -/
instance : Wire Nat := ⟨.nat, Json.natural⟩

instance {α : Type} [Wire α] : Wire (List α) where
  encode items := .list (items.map encode)
  decode := Json.items decode

instance : Wire Currency := ofText toString Currency.ofString?

instance : Wire Instant := ofText toString Instant.ofString?

instance : Wire ClientId := ofText toString fun text => (Uuid.ofString? text).map ClientId.mk

instance : Wire OfferId := ofText toString fun text => (Uuid.ofString? text).map OfferId.mk

instance : Wire TxId := ofText toString fun text => (Uuid.ofString? text).map TxId.mk

instance : Wire AssetClass :=
  ofNames AssetClass.name fun name => AssetClass.all.find? (·.name == name)

instance : Wire SettlementKind := ofNames SettlementKind.name SettlementKind.ofName?

instance : Wire OfferState := ofNames OfferState.name OfferState.ofName?

/-- The decimal that a number stands for; of a double, the one with its fewest digits. -/
def decimalOfNumber? : Json.Number → Option Decimal
  | .natural n => Decimal.ofParts? false n 0
  | .negative n => Decimal.ofParts? true n.natAbs 0
  | .double x => Decimal.ofString? (Json.doubleText x)

/-- Reads a decimal from a string or from a number. -/
def decodeDecimal : Decoder Decimal
  | .string text => (Decimal.ofString? text).elim (.error .mismatch) .ok
  | .number literal =>
    match literal.number? with
    | none => .error .malformed
    | some n => (decimalOfNumber? n).elim (.error .mismatch) .ok
  | j => Json.wrongKind j

instance : Wire Decimal := ⟨fun d => .string (toString d), decodeDecimal⟩

/-! ### Keys -/

instance : Wire AccountKey where
  encode k := .record [("client_id", encode k.client), ("currency", encode k.currency)]
  decode := record? <|
    ((field "client_id").pair (field "currency")).map fun (client, currency) =>
      ⟨client, currency⟩

instance : Wire CurrencyPair where
  encode p := .record [("base", encode p.base), ("quote", encode p.quote)]
  decode := record? <|
    ((field "base").pair (field "quote")).map fun (base, quote) => ⟨base, quote⟩

end Wire

end Bureau
