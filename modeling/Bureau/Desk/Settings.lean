import Bureau.Identity
import Bureau.Text.Basic

/-!
# Settings of the desk

Spans of time are in milliseconds. Some settings can be read from named variables; a text that is
not a number of the right size leaves its setting alone.
-/

namespace Bureau

/-- What can be configured, with what holds where nothing else is said. -/
structure Settings where
  /-- The secret that the key of tokens is derived from. -/
  secret : String := ""
  /-- The client that owns the clearing accounts. -/
  treasury : ClientId := ⟨Uuid.nil⟩
  databaseUrl : String := "postgres://localhost/exchequer"
  maxConnections : Nat := 10
  /-- Lifetime of an offer between two moneys. -/
  fiatLifetime : Nat := 120000
  /-- Lifetime of an offer with crypto on one side. -/
  cryptoLifetime : Nat := 120000
  /-- Deadline for a quote. -/
  quoteDeadline : Nat := 5000
  /-- Deadline for one call to the offer cache. -/
  cacheDeadline : Nat := 2000
  /-- Deadline for a posting, waits for locks included. -/
  ledgerDeadline : Nat := 10000
  /-- Longest wait for the lock of one account. -/
  lockWait : Nat := 5000
  /-- Size of a page when none is asked for. -/
  defaultPageSize : Nat := 10
  maxPageSize : Nat := 100
  /-- Seconds ahead of UTC at which months are taken when a listing does not say. -/
  utcOffset : Int := 0
  logLevel : String := "info"

namespace Settings

/-- Longest lifetime of an offer. -/
def maxLifetime : Nat := 86400000

/-- The first reason for which a desk does not accept the settings. -/
def fault? (s : Settings) : Option String :=
  if s.secret.isEmpty then some "Token secret cannot be empty"
  else if s.fiatLifetime = 0 ∨ s.cryptoLifetime = 0 then some "Offer lifetimes must be positive"
  else if maxLifetime < s.fiatLifetime ∨ maxLifetime < s.cryptoLifetime then
    some "Offer lifetimes cannot exceed one day"
  else if s.ledgerDeadline < s.lockWait then
    some "Lock wait cannot exceed the ledger deadline"
  else if s.defaultPageSize = 0 then some "Default page size cannot be 0"
  else if s.maxPageSize < s.defaultPageSize then
    some "Default page size cannot exceed max page size"
  else none

/-- The settings that are natural numbers: their names, and how they are read and changed. -/
def numbers : List (String × (Settings → Nat) × (Settings → Nat → Settings)) := [
  ("fiat_ttl_ms", (·.fiatLifetime), ({ · with fiatLifetime := · })),
  ("crypto_ttl_ms", (·.cryptoLifetime), ({ · with cryptoLifetime := · })),
  ("quote_ms", (·.quoteDeadline), ({ · with quoteDeadline := · })),
  ("cache_ms", (·.cacheDeadline), ({ · with cacheDeadline := · })),
  ("ledger_ms", (·.ledgerDeadline), ({ · with ledgerDeadline := · })),
  ("lock_wait_ms", (·.lockWait), ({ · with lockWait := · })),
  ("default_page_size", (·.defaultPageSize), ({ · with defaultPageSize := · })),
  ("max_page_size", (·.maxPageSize), ({ · with maxPageSize := · }))]

/-- The variables that settings can be read from. -/
def variableNames : List String := [
  "EXCHEQUER_TOKEN_SECRET", "EXCHEQUER_TREASURY_CLIENT", "DATABASE_URL",
  "EXCHEQUER_MAX_CONNECTIONS", "EXCHEQUER_FIAT_OFFER_TTL_SECS", "EXCHEQUER_CRYPTO_OFFER_TTL_SECS",
  "EXCHEQUER_QUOTE_TIMEOUT_MS", "EXCHEQUER_CACHE_TIMEOUT_MS", "EXCHEQUER_LEDGER_TIMEOUT_MS",
  "EXCHEQUER_DEFAULT_PAGE_SIZE", "EXCHEQUER_MAX_PAGE_SIZE", "LOG_LEVEL"]

/-- The settings that named variables choose. -/
def ofVariables (named? : String → Option String) : Settings :=
  let s : Settings := {}
  let number (name : String) (bits : Nat) : Option Nat :=
    (named? name).bind (Text.naturalBelow? (twoTo bits))
  let seconds (name : String) : Option Nat := (number name 64).map (· * 1000)
  { s with
    secret := (named? "EXCHEQUER_TOKEN_SECRET").getD s.secret
    treasury :=
      (((named? "EXCHEQUER_TREASURY_CLIENT").bind Uuid.ofString?).map ClientId.mk).getD s.treasury
    databaseUrl := (named? "DATABASE_URL").getD s.databaseUrl
    maxConnections := (number "EXCHEQUER_MAX_CONNECTIONS" 32).getD s.maxConnections
    fiatLifetime := (seconds "EXCHEQUER_FIAT_OFFER_TTL_SECS").getD s.fiatLifetime
    cryptoLifetime := (seconds "EXCHEQUER_CRYPTO_OFFER_TTL_SECS").getD s.cryptoLifetime
    quoteDeadline := (number "EXCHEQUER_QUOTE_TIMEOUT_MS" 64).getD s.quoteDeadline
    cacheDeadline := (number "EXCHEQUER_CACHE_TIMEOUT_MS" 64).getD s.cacheDeadline
    ledgerDeadline := (number "EXCHEQUER_LEDGER_TIMEOUT_MS" 64).getD s.ledgerDeadline
    defaultPageSize := (number "EXCHEQUER_DEFAULT_PAGE_SIZE" 64).getD s.defaultPageSize
    maxPageSize := (number "EXCHEQUER_MAX_PAGE_SIZE" 64).getD s.maxPageSize
    logLevel := (named? "LOG_LEVEL").getD s.logLevel }

end Settings

end Bureau
