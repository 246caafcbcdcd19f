import Bureau.Text.Basic

/-!
# Currencies

The currencies are a closed set: ISO 4217 money, a fixed list of crypto tickers, and two clearing
currencies that belong to the bureau itself and are never held by clients. Currencies are ordered
by code.
-/

namespace Bureau

/-- What a currency is a unit of. Clients hold nothing in a clearing currency. -/
inductive AssetClass where
  | fiat
  | crypto
  | clearing
deriving DecidableEq, Repr

namespace AssetClass

/-- The name that is written for the class. -/
def name : AssetClass → String
  | fiat => "FIAT"
  | crypto => "CRYPTO"
  | clearing => "CLEARING"

/-- The classes in the order in which they are declared. -/
def all : List AssetClass := [fiat, crypto, clearing]

end AssetClass

/-! ### The codes -/

/-- The codes of ISO 4217 money. -/
def fiatCodes : List String := [
  "AED", "AFN", "ALL", "AMD", "ANG", "AOA", "ARS", "AUD", "AWG", "AZN", "BAM", "BBD", "BDT",
  "BGN", "BHD", "BIF", "BMD", "BND", "BOB", "BRL", "BSD", "BTN", "BWP", "BYN", "BZD", "CAD",
  "CDF", "CHF", "CLP", "CNY", "COP", "CRC", "CUC", "CUP", "CVE", "CZK", "DJF", "DKK", "DOP",
  "DZD", "EGP", "ERN", "ETB", "EUR", "FJD", "FKP", "GBP", "GEL", "GGP", "GHS", "GIP", "GMD",
  "GNF", "GTQ", "GYD", "HKD", "HNL", "HRK", "HTG", "HUF", "IDR", "ILS", "IMP", "INR", "IQD",
  "IRR", "ISK", "JEP", "JMD", "JOD", "JPY", "KES", "KGS", "KHR", "KMF", "KPW", "KRW", "KWD",
  "KYD", "KZT", "LAK", "LBP", "LKR", "LRD", "LSL", "LYD", "MAD", "MDL", "MGA", "MKD", "MMK",
  "MNT", "MOP", "MRU", "MUR", "MVR", "MWK", "MXN", "MYR", "MZN", "NAD", "NGN", "NIO", "NOK",
  "NPR", "NZD", "OMR", "PAB", "PEN", "PGK", "PHP", "PKR", "PLN", "PYG", "QAR", "RON", "RSD",
  "RUB", "RWF", "SAR", "SBD", "SCR", "SDG", "SEK", "SGD", "SHP", "SLL", "SOS", "SPL", "SRD",
  "STN", "SVC", "SYP", "SZL", "THB", "TJS", "TMT", "TND", "TOP", "TRY", "TTD", "TVD", "TWD",
  "TZS", "UAH", "UGX", "USD", "UYU", "UZS", "VEF", "VND", "VUV", "WST", "XAF", "XCD", "XDR",
  "XOF", "XPF", "YER", "ZAR", "ZMW", "ZWD"]

/-- The codes of the crypto currencies. -/
def cryptoTickers : List String := [
  "ADA", "ATOM", "AVAX", "BCH", "BNB", "BTC", "DOGE", "DOT", "ETC", "ETH", "LINK", "LTC",
  "MATIC", "SOL", "TRX", "USDC", "USDT", "XLM", "XMR", "XRP"]

/-- The codes that only the bureau's own accounts are kept in. -/
def clearingCodes : List String := ["DEPOSIT", "CRYPTO"]

/-- All codes that are known; a currency is one of them. -/
def currencyCodes : List String := fiatCodes ++ cryptoTickers ++ clearingCodes

/-- One of the listed currencies. -/
structure Currency where
  code : String
  listed : code ∈ currencyCodes
deriving DecidableEq

namespace Currency

/-- The currency with exactly this code. -/
def ofCode? (code : String) : Option Currency :=
  if h : code ∈ currencyCodes then some ⟨code, h⟩ else none

/-- The currency that a text names; blanks at the ends and the case of ASCII letters do not
matter. -/
def ofString? (text : String) : Option Currency :=
  ofCode? (String.ofList ((Text.trimmed text.toList).map Char.toUpper))

/-- What is said of a text that names no currency. -/
def unknownMessage (text : String) : String := "invalid currency: " ++ text

instance : ToString Currency := ⟨code⟩

instance : Ord Currency := ⟨fun a b => compare a.code b.code⟩

/-- The class of a currency, told from the list its code is in. -/
def assetClass (c : Currency) : AssetClass :=
  if c.code ∈ fiatCodes then .fiat
  else if c.code ∈ cryptoTickers then .crypto
  else .clearing

/-- The currency is money. -/
def isFiat (c : Currency) : Bool := c.assetClass == .fiat

/-- The currency is a crypto currency. -/
def isCrypto (c : Currency) : Bool := c.assetClass == .crypto

/-- The currency is only used for clearing. -/
def isClearing (c : Currency) : Bool := c.assetClass == .clearing

/-- Decimal places of amounts in ISO 4217 money. -/
def fiatPlaces : Nat := 2

/-- Decimal places of amounts in a crypto ticker. -/
def cryptoPlaces : Nat := 8

/-- Debited by money that enters from outside. -/
def deposit : Currency := ⟨"DEPOSIT", by decide⟩

/-- Kept for the bureau's own accounts on the crypto side. -/
def cryptoClearing : Currency := ⟨"CRYPTO", by decide⟩

/-- Decimal places of amounts in the currency. -/
def places (c : Currency) : Nat :=
  if c = cryptoClearing ∨ c.isCrypto then cryptoPlaces else fiatPlaces

/-- The dollar of the United States. -/
def usd : Currency := ⟨"USD", by decide⟩

/-- The euro. -/
def eur : Currency := ⟨"EUR", by decide⟩

/-- The pound sterling. -/
def gbp : Currency := ⟨"GBP", by decide⟩

/-- The Canadian dollar. -/
def cad : Currency := ⟨"CAD", by decide⟩

/-- The dirham of the Emirates. -/
def aed : Currency := ⟨"AED", by decide⟩

/-- Bitcoin. -/
def btc : Currency := ⟨"BTC", by decide⟩

/-- Ether. -/
def eth : Currency := ⟨"ETH", by decide⟩

instance : Inhabited Currency := ⟨usd⟩

/-- Every currency that clients may hold, in the order of codes. -/
def holdable : List Currency :=
  ((fiatCodes ++ cryptoTickers).filterMap ofCode?).mergeSort fun a b => (compare a b).isLE

end Currency

/-- A directed pair: one unit of `base` is priced in `quote`. -/
structure CurrencyPair where
  base : Currency
  quote : Currency
deriving DecidableEq

namespace CurrencyPair

/-- The pair in the other direction. -/
def inverse (p : CurrencyPair) : CurrencyPair := ⟨p.quote, p.base⟩

instance : ToString CurrencyPair := ⟨fun p => p.base.code ++ "/" ++ p.quote.code⟩

end CurrencyPair

end Bureau
