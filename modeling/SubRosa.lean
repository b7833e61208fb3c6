import SubRosa.Library.MachineInt
import SubRosa.Library.BigEndian
import SubRosa.Library.Invocation
import SubRosa.Library.TokenLedger
import SubRosa.Library.Runs
import SubRosa.Library.FirstBest
import SubRosa.Library.JavaScript
import SubRosa.Library.Report
import SubRosa.Library.Coroutine
import SubRosa.Library.DecimalText
import SubRosa.Library.Double
import SubRosa.Library.Exclusion
import SubRosa.Library.IntegerEngine
import SubRosa.Library.JsonFields
import SubRosa.Library.JsonOrder
import SubRosa.Library.JsonReplacer
import SubRosa.Library.JsonText
import SubRosa.Library.Paging
import SubRosa.Library.SortedHead
import SubRosa.Library.Utf8
import SubRosa.Contract.Types
import SubRosa.Contract.Host
import SubRosa.Contract.Storage
import SubRosa.Contract.Drand
import SubRosa.Contract.Payload
import SubRosa.Contract.Envelope
import SubRosa.Contract.Payouts
import SubRosa.Contract.Rounds
import SubRosa.Contract.RoundsV2
import SubRosa.Contract.Loops
import SubRosa.Contract.Calls
import SubRosa.Contract.Views
import SubRosa.Auction.Model
import SubRosa.Auction.Invariant
import SubRosa.Auction.Accounts
import SubRosa.Auction.View
import SubRosa.Auction.Records
import SubRosa.Auction.FirstGeneration
import SubRosa.Auction.SecondGeneration
import SubRosa.Auction.Refinement
import SubRosa.Auction.Chronicle
import SubRosa.Auction.Enabled
import SubRosa.Auction.Frame
import SubRosa.Auction.Lifecycle
import SubRosa.Auction.Opening
import SubRosa.Auction.Policies
import SubRosa.Auction.Owed
import SubRosa.Auction.Script
import SubRosa.Auction.Supervision
import SubRosa.Auction.Tokens
import SubRosa.Auction.Rejections
import SubRosa.Auction.Refusals
import SubRosa.Sdk.Commitment
import SubRosa.Sdk.Envelope
import SubRosa.Sdk.Accepted
import SubRosa.Sdk.AcceptedV2
import SubRosa.Sdk.Bidders
import SubRosa.Sdk.Client
import SubRosa.Sdk.Freshness
import SubRosa.Sdk.Preflight
import SubRosa.Sdk.Readable
import SubRosa.Sdk.ReadableV2
import SubRosa.Sdk.Receipts
import SubRosa.Sdk.Redact
import SubRosa.Sdk.Redacted
import SubRosa.Sdk.Seal
import SubRosa.Sdk.Serialize
import SubRosa.Sdk.Templates
import SubRosa.Sdk.Verify
import SubRosa.Sdk.VerifyV2
import SubRosa.Agent.Bidder
import SubRosa.Agent.Mandate
import SubRosa.Agent.MandateObject
import SubRosa.Keeper.Discipline
import SubRosa.Keeper.Errors
import SubRosa.Keeper.Network
import SubRosa.Keeper.Passes
import SubRosa.Keeper.Requests
import SubRosa.Keeper.RoundIds
import SubRosa.Keeper.SettlementGuard
import SubRosa.Keeper.Status
import SubRosa.Keeper.Store
import SubRosa.Keeper.StoreFile
import SubRosa.Keeper.WatchLoop
import SubRosa.Pollar.Client
import SubRosa.OpenX402.Amounts
import SubRosa.OpenX402.Offers
import SubRosa.Web.Pilot
import SubRosa.Library.Base32
import SubRosa.Sdk.Export
import SubRosa.Sdk.Exported
import SubRosa.Sdk.Strkey
import SubRosa.Guarantees.Custody
import SubRosa.Guarantees.Payouts
import SubRosa.Guarantees.Exits
import SubRosa.Guarantees.Winner
import SubRosa.Guarantees.Reveals
import SubRosa.Guarantees.Window
import SubRosa.Guarantees.Consistency
import SubRosa.Guarantees.Permanence
import SubRosa.Guarantees.Roster
import SubRosa.Guarantees.OwnerOpening
import SubRosa.Guarantees.Isolation
import SubRosa.Guarantees.Origins
import SubRosa.Guarantees.SealLifetime
import SubRosa.Guarantees.Creation
import SubRosa.Guarantees.Envelopes
import SubRosa.Guarantees.Exports
import SubRosa.Guarantees.Preimages
import SubRosa.Guarantees.Aborts
import SubRosa.Guarantees.Amounts
import SubRosa.Guarantees.Completeness
import SubRosa.Guarantees.Decisions
import SubRosa.Guarantees.LegacyExports
import SubRosa.Guarantees.LegacyReceipts
import SubRosa.Guarantees.Mandates
import SubRosa.Guarantees.Offers
import SubRosa.Guarantees.Pages
import SubRosa.Guarantees.PilotLoads
import SubRosa.Guarantees.Preflights
import SubRosa.Guarantees.Proposals
import SubRosa.Guarantees.QueueFile
import SubRosa.Guarantees.Receipts
import SubRosa.Guarantees.Redaction
import SubRosa.Guarantees.RoundIds
import SubRosa.Guarantees.Schedule
import SubRosa.Guarantees.Sealing
import SubRosa.Guarantees.Selection
import SubRosa.Guarantees.Settlement
import SubRosa.Guarantees.SpendCaps
import SubRosa.Guarantees.StoreFile
import SubRosa.Guarantees.StructuredReceipts
import SubRosa.Guarantees.Verdicts
import SubRosa.Guarantees.WatchQueue
import SubRosa.Guarantees.WriteBoundary
import SubRosa.Guarantees.WebReveals
