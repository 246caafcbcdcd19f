import Bureau.Currency
import Bureau.Decimal.Text

/-!
# Money

An amount in a currency. An amount is at scale when it has no digits past the decimal places of
its currency; only such amounts, positive and in range, may be debited.
-/

namespace Bureau

/-- Largest amount and largest balance: twenty digits before the point. -/
def maxAmount : Decimal := .whole 99999999999999999999

/-- Whether an amount lies between the negative and the positive maximum. -/
def Decimal.inRange (d : Decimal) : Bool :=
  d.abs ≤ maxAmount

/-- An amount of a currency. -/
structure Money where
  value : Decimal
  currency : Currency
deriving DecidableEq

/-- Why an amount may not be debited. -/
inductive AmountError where
  | notPositive (amount : Decimal)
  | excessPrecision (amount : Decimal) (currency : Currency)
  | tooLarge (amount : Decimal)
deriving DecidableEq

namespace AmountError

/-- The name of the kind of error. -/
def name : AmountError → String
  | notPositive _ => "NotPositive"
  | excessPrecision _ _ => "ExcessPrecision"
  | tooLarge _ => "TooLarge"

/-- What is said about an amount that is refused. -/
def message : AmountError → String
  | notPositive amount => s!"amount {amount} must be greater than zero"
  | excessPrecision amount currency =>
    s!"amount {amount} exceeds {currency.places} decimal places for {currency}"
  | tooLarge amount => s!"amount {amount} exceeds the maximum of {maxAmount}"

end AmountError

/-- Drops the digits past the decimal places of a currency, toward zero. -/
def truncateToScale (value : Decimal) (currency : Currency) : Decimal :=
  value.truncate currency.places

namespace Money

/-- Nothing, in a currency. -/
def zero (currency : Currency) : Money := ⟨Decimal.zero, currency⟩

instance : ToString Money := ⟨fun m => toString m.value ++ " " ++ m.currency.code⟩

/-- The amount without the decimal places that its currency does not have. -/
def truncated (m : Money) : Money := ⟨truncateToScale m.value m.currency, m.currency⟩

/-- Truncation does not change the value. -/
def isAtScale (m : Money) : Bool :=
  m.value.sameValue (truncateToScale m.value m.currency)

/-- Accepts an amount that is at scale, greater than zero and no larger than the maximum. -/
def validateDebit (m : Money) : Except AmountError Unit :=
  if !m.isAtScale then .error (.excessPrecision m.value m.currency)
  else if !m.value.isPositive then .error (.notPositive m.value)
  else if maxAmount < m.value then .error (.tooLarge m.value)
  else .ok ()

end Money

end Bureau
