import Bureau.Currency
import Bureau.Decimal.Text

/-!
# What can go wrong between a request and an offer

The causes for which a conversion is not priced or an offer is not kept. Outages are transient:
the same request may succeed later.
-/

namespace Bureau

/-- Why the market or the cache of offers does not answer. -/
inductive MarketError where
  /-- No rate is known for the pair. -/
  | rateNotAvailable (pair : CurrencyPair)
  /-- The table does not price this direction or mix of asset classes. -/
  | unsupportedConversion (source destination : Currency)
  | providerFailed (reason : String)
  /-- The priced amount is out of range. -/
  | amountOverflow (pair : CurrencyPair) (amount rate : Decimal)
  | cacheUnavailable (reason : String)
deriving DecidableEq

namespace MarketError

/-- The name of the kind of error. -/
def name : MarketError → String
  | rateNotAvailable _ => "RateNotAvailable"
  | unsupportedConversion _ _ => "UnsupportedConversion"
  | providerFailed _ => "ProviderError"
  | amountOverflow _ _ _ => "AmountOverflow"
  | cacheUnavailable _ => "CacheUnavailable"

/-- What is said about the request that failed. -/
def message : MarketError → String
  | rateNotAvailable pair => s!"Rate not available for {pair}"
  | unsupportedConversion source destination =>
    s!"Unsupported conversion from {source} to {destination}"
  | providerFailed reason => s!"Quote provider error: {reason}"
  | amountOverflow pair amount rate =>
    s!"Converting {amount} at {rate} for {pair} exceeds the amount range"
  | cacheUnavailable reason => s!"Offer cache unavailable: {reason}"

/-- Whether the cause is an outage and not the request. -/
def isTransient : MarketError → Bool
  | rateNotAvailable _ | providerFailed _ | cacheUnavailable _ => true
  | unsupportedConversion _ _ | amountOverflow _ _ _ => false

end MarketError

end Bureau
