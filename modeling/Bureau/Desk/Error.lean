import Bureau.Ledger.Error
import Bureau.Market.Error
import Bureau.Money
import Bureau.Token

/-!
# What the desk answers when it cannot serve

Whatever goes wrong in the market, the cache or the ledger reaches the client as one of six
errors. An error is either the client's or passes with time, never both.
-/

namespace Bureau

/-- Why the desk does not do what it has been asked to do, as far as a client may know. -/
inductive DeskError where
  | validation (reason : String) (field : Option String)
  | notFoundOrExpired
  | integrityFault (reason : String)
  | transient (reason : String)
  | insufficientFundsOrMissingAccount (reason : String)
  | accountExists (account : String)
deriving DecidableEq

namespace DeskError

/-- A request that is refused for one of its fields. -/
def invalid (field reason : String) : DeskError := validation reason (some field)

/-- The name of the kind of error. -/
def name : DeskError → String
  | validation _ _ => "Validation"
  | notFoundOrExpired => "NotFoundOrExpired"
  | integrityFault _ => "IntegrityFault"
  | transient _ => "Transient"
  | insufficientFundsOrMissingAccount _ => "InsufficientFundsOrMissingAccount"
  | accountExists _ => "AccountExists"

/-- The text for the bureau itself. -/
def message : DeskError → String
  | validation reason _ => "Validation failed: " ++ reason
  | notFoundOrExpired => "Offer not found or expired"
  | integrityFault reason => "Integrity fault: " ++ reason
  | transient reason => "Transient infrastructure failure: " ++ reason
  | insufficientFundsOrMissingAccount reason => "Insufficient funds or missing account: " ++ reason
  | accountExists account => "Account already exists: " ++ account

/-- The field that a request is refused for. -/
def field? : DeskError → Option String
  | validation _ field => field
  | _ => none

/-- The code that clients see. -/
def code : DeskError → String
  | validation _ _ => "VALIDATION"
  | notFoundOrExpired => "NOT_FOUND_OR_EXPIRED"
  | integrityFault _ | transient _ => "RETRY"
  | insufficientFundsOrMissingAccount _ => "INSUFFICIENT_FUNDS"
  | accountExists _ => "ACCOUNT_EXISTS"

/-- The text that clients see; faults of the bureau are not told apart. -/
def clientMessage : DeskError → String
  | validation reason _ => reason
  | notFoundOrExpired => "invalid or expired offer"
  | integrityFault _ | transient _ => "please retry your request later"
  | insufficientFundsOrMissingAccount reason => reason
  | accountExists _ => "account already exists"

/-- Whether the same request may succeed later. -/
def isRetryable : DeskError → Bool
  | integrityFault _ | transient _ => true
  | _ => false

/-- Milliseconds that a client should let pass before it tries again. -/
def retryAfterMs? (e : DeskError) : Option Nat :=
  if e.isRetryable then some 1000 else none

/-- Whether the request is at fault. -/
def isClientError (e : DeskError) : Bool := !e.isRetryable

/-! ### Causes -/

/-- What clients are told about a refused debit or an absent account. -/
def fundsReason : String := "please check you have both currency accounts and enough funds"

/-- A text that names no currency. -/
def ofCurrency (text : String) : DeskError := invalid "currency" (Currency.unknownMessage text)

/-- An amount that is refused, told with the field it came in. -/
def ofAmount (e : AmountError) : DeskError := invalid "amount" e.message

/-- The requests that can never be priced are at fault themselves; all else may pass. -/
def ofMarket : MarketError → DeskError
  | .unsupportedConversion source destination =>
    invalid "currency" s!"conversion from {source} to {destination} is not supported"
  | .amountOverflow pair amount rate =>
    invalid "amount" (MarketError.amountOverflow pair amount rate).message
  | e => transient e.message

/-- A missing account and a lack of funds are told alike; what the request did not cause may pass.
-/
def ofLedger : LedgerError → DeskError
  | .accountExists key => accountExists (toString key)
  | .accountNotFound _ | .insufficientFunds _ _ _ => insufficientFundsOrMissingAccount fundsReason
  | .inconsistent reason => integrityFault reason
  | .balanceOverflow key balance delta =>
    invalid "amount" (LedgerError.balanceOverflow key balance delta).message
  | e => transient e.message

/-- A call that did not answer before its deadline. -/
def timedOut (call : String) : DeskError := transient (call ++ " timed out")

end DeskError

/-- Why a desk cannot be set up. -/
inductive SetupError where
  | config (reason : String)
  | crypto (error : CryptoError)
  | ledger (error : LedgerError)

namespace SetupError

/-- The name of the kind of error. -/
def name : SetupError → String
  | config _ => "Config"
  | crypto _ => "Crypto"
  | ledger _ => "Ledger"

/-- What is said when the bureau cannot be set up. -/
def message : SetupError → String
  | config reason => "invalid configuration: " ++ reason
  | crypto error => error.message
  | ledger error => error.message

end SetupError

end Bureau
