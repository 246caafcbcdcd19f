import Bureau.Calendar.Instant
import Bureau.Command.Basic
import Bureau.Ledger.Posting
import Bureau.Main
import Bureau.Settlement
import Bureau.Wire.Desk
import Bureau.Proofs.Ledger.LockOrder
import Bureau.Proofs.Ledger.Store
import Bureau.Proofs.Ledger.Posting
import Bureau.Proofs.Ledger.Standing
import Bureau.Proofs.Ledger.Traffic
import Bureau.Proofs.Ledger.Deadlock
import Bureau.Proofs.Ledger.Alone
import Bureau.Proofs.Ledger.Serializability
import Bureau.Proofs.Decimal.Sum
import Bureau.Proofs.Ledger.Batch
import Bureau.Proofs.Ledger.Books
import Bureau.Proofs.Desk.Calls
import Bureau.Proofs.Desk.Offers
import Bureau.Proofs.Desk.Posting
import Bureau.Proofs.Desk.Settlement
import Bureau.Proofs.Desk.Accounts
import Bureau.Proofs.Desk.Conservation
import Bureau.Proofs.Desk.Redemption
import Bureau.Proofs.Desk.Answers
import Bureau.Proofs.Token
import Bureau.Proofs.Offer.Cache
import Bureau.Proofs.Offer.Sound
import Bureau.Proofs.Desk.Failure
import Bureau.Proofs.Desk.Annals
import Bureau.Proofs.Desk.Redeemable
import Bureau.Proofs.Desk.Undisturbed
import Bureau.Proofs.Desk.Quoted
import Bureau.Proofs.Text.Digits
import Bureau.Proofs.Calendar.Date
import Bureau.Proofs.Calendar.Instant
import Bureau.Proofs.Json.Reader
import Bureau.Proofs.Wire
import Bureau.Proofs.Ledger.Listing
import Bureau.Proofs.Desk.Records
import Bureau.Proofs.Desk.Archive
import Bureau.Proofs.Desk.Listing
import Bureau.Proofs.Desk.Walk
import Bureau.Proofs.Desk.AccountWalk
import Bureau.Proofs.Desk.JournalWalk
import Bureau.Proofs.Simulation.Plays
import Bureau.Proofs.Simulation.Audit
import Bureau.Proofs.Ledger.Alike
import Bureau.Proofs.Offer.Agreement
import Bureau.Proofs.Desk.Abreast
import Bureau.Proofs.Desk.Twins
import Bureau.Proofs.Desk.Visits
import Bureau.Proofs.Desk.Mirrors
import Bureau.Proofs.Desk.Mirrored
import Bureau.Proofs.Desk.Isolation
import Bureau.Proofs.Ledger.Overflow
import Bureau.Proofs.Desk.Returns
import Bureau.Proofs.Desk.Overflow
import Bureau.Proofs.Ledger.Chronicle
import Bureau.Proofs.Offer.Ideal
import Bureau.Proofs.Desk.Counted
import Bureau.Proofs.Desk.Tally
import Bureau.Proofs.Cipher.Aes256
import Bureau.Proofs.Cipher.Ghash
import Bureau.Proofs.Cipher.Tampering
import Bureau.Proofs.Tampering
import Bureau.Proofs.Market.RoundTrip
import Bureau.Proofs.Ledger.Shapes
import Bureau.Proofs.Ledger.Drift
import Bureau.Proofs.Desk.Docket
import Bureau.Proofs.Desk.Reposted
import Bureau.Proofs.Desk.Classes
import Bureau.Proofs.Calendar.Month
import Bureau.Proofs.Desk.Months
import Bureau.Proofs.Desk.Paging
import Bureau.Proofs.Desk.Tokens
import Bureau.Proofs.Ledger.Total
import Bureau.Proofs.Simulation.Statistics
import Bureau.Proofs.Ledger.Change
