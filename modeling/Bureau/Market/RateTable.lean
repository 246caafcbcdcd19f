import Bureau.Calendar.Instant
import Bureau.Market.Error
import Bureau.Money

/-!
# Quotes and the table of rates

A quote is an amount of the source currency priced in the destination currency: the product with
the rate, cut off at the decimal places of the destination. A rate kept for a pair also serves the
inverse pair, through its reciprocal. The table can be switched off, and can be slow to answer.
-/

namespace Bureau

/-! ### Quotes -/

/-- A price: what some amount of one currency is in another. -/
structure Quote where
  /-- From source to destination. -/
  pair : CurrencyPair
  rate : Decimal
  sourceAmount : Decimal
  /-- The amount of the destination currency. -/
  amount : Decimal
  quotedAt : Instant
deriving DecidableEq

namespace Quote

/-- The amount that a rate makes of an amount, if it fits the range of amounts. -/
def convert? (pair : CurrencyPair) (rate amount : Decimal) : Option Decimal :=
  ((amount.mul? rate).map (truncateToScale · pair.quote)).filter Decimal.inRange

/-- Prices an amount at a rate. -/
def price (now : Instant) (pair : CurrencyPair) (rate amount : Decimal) :
    Except MarketError Quote :=
  match convert? pair rate amount with
  | some converted => .ok ⟨pair, rate, amount, converted, now⟩
  | none => .error (.amountOverflow pair amount rate)

/-- What the client pays. -/
def debit (q : Quote) : Money := ⟨q.sourceAmount, q.pair.base⟩

/-- What the client gets. -/
def credit (q : Quote) : Money := ⟨q.amount, q.pair.quote⟩

end Quote

/-! ### The table -/

/-- The rates of a provider, which may be out of reach or slow. -/
structure RateTable where
  name : String
  /-- At most one rate for each pair. -/
  rates : List (CurrencyPair × Decimal) := []
  available : Bool := true
  /-- Nanoseconds before each answer. -/
  latency : Nat := 0

namespace RateTable

/-- Keeps a rate for one unit of the base currency, in place of the one kept before. -/
def setRate (t : RateTable) (pair : CurrencyPair) (rate : Decimal) : RateTable :=
  { t with rates := (pair, rate) :: t.rates.filter (·.1 ≠ pair) }

/-- The rate kept for exactly this pair. -/
def kept? (t : RateTable) (pair : CurrencyPair) : Option Decimal :=
  t.rates.lookup pair

/-- The rate of a pair: the one that is kept, or else the reciprocal of the inverse pair's. -/
def rate? (t : RateTable) (pair : CurrencyPair) : Option Decimal :=
  (t.kept? pair).orElse fun _ => (t.kept? pair.inverse).bind Decimal.reciprocal?

/-- What a conversion is between. -/
inductive Conversion where
  /-- Money for money. -/
  | fiat
  /-- Money for crypto. -/
  | purchase
  /-- Crypto for money. -/
  | sale
deriving DecidableEq

/-- Whether the currencies are of the classes that the conversion is between. -/
def Conversion.supports (c : Conversion) (pair : CurrencyPair) : Bool :=
  match c with
  | fiat => pair.base.isFiat && pair.quote.isFiat
  | purchase => pair.base.isFiat && pair.quote.isCrypto
  | sale => pair.base.isCrypto && pair.quote.isFiat

/-- Prices a conversion that the table supports, once it answers. -/
def quote (t : RateTable) (now : Instant) (pair : CurrencyPair) (amount : Decimal) :
    Except MarketError Quote :=
  if !t.available then .error (.providerFailed (t.name ++ " is offline"))
  else
    match t.rate? pair with
    | none => .error (.rateNotAvailable pair)
    | some rate => Quote.price now pair rate amount

end RateTable

end Bureau
