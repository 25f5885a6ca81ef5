import Thirdshift.Foundation.Table
import Thirdshift.Foundation.Process
import Thirdshift.Foundation.Transaction
import Thirdshift.Foundation.ReadCommitted
import Thirdshift.HttpApi.Handlers
import Thirdshift.Jobs.Effects
import Thirdshift.Jobs.Credits
import Thirdshift.Jobs.Choice
import Thirdshift.Ledger.Postings
import Thirdshift.Ledger.OneCharge
import Thirdshift.Coordinator.Events
import Thirdshift.Coordinator.Runs
import Thirdshift.Coordinator.Discipline
import Thirdshift.Coordinator.Finality
import Thirdshift.Coordinator.Guarantees
import Thirdshift.Coordinator.Charges
import Thirdshift.Coordinator.Waiters
import Thirdshift.Coordinator.Billing
import Thirdshift.Coordinator.Confinement
import Thirdshift.Coordinator.Idempotency
import Thirdshift.Coordinator.Replays
import Thirdshift.Coordinator.AtMostOnce
import Thirdshift.Ledger.Triggers
import Thirdshift.Ledger.Payouts
import Thirdshift.Ledger.Balance
import Thirdshift.Ledger.Amounts
import Thirdshift.Ledger.Audit
import Thirdshift.Ledger.Corrections
import Thirdshift.Ledger.Reversals
import Thirdshift.Ledger.PaidOnce
import Thirdshift.Ledger.BooksAgree
import Thirdshift.Coordinator.Cancellation
import Thirdshift.Coordinator.Provenance
import Thirdshift.Coordinator.Verification
import Thirdshift.Coordinator.HostReports
import Thirdshift.Coordinator.Conclusion
import Thirdshift.Coordinator.Leases
import Thirdshift.Coordinator.Retries
import Thirdshift.Coordinator.Orphans
import Thirdshift.Reputation.Rates
import Thirdshift.Reputation.Counts
import Thirdshift.Reputation.Mismatches
import Thirdshift.Reputation.Challenges
import Thirdshift.Agent.Thermal
import Thirdshift.Agent.OneJob
import Thirdshift.Agent.Offers
import Thirdshift.Registration.Controls
import Thirdshift.Jobs.Eligibility
import Thirdshift.Catalog.Latest
import Thirdshift.Registration.Locks
import Thirdshift.Agent.HardLimit
import Thirdshift.Agent.Commands
import Thirdshift.Agent.Transitions
import Thirdshift.Coordinator.Conduct
import Thirdshift.Coordinator.Duties
import Thirdshift.Coordinator.Duplicates
import Thirdshift.Coordinator.Usage
import Thirdshift.Foundation.CommitLog
import Thirdshift.Foundation.Json
import Thirdshift.Registration.Enrollment
import Thirdshift.Registration.Tokens
import Thirdshift.Registration.Records
import Thirdshift.Registration.Heartbeats
import Thirdshift.Coordinator.Tenants
import Thirdshift.Protocol.SignedResults
import Thirdshift.Node.ModelCache
import Thirdshift.Node.Promotion
import Thirdshift.Node.RuntimeLog
import Thirdshift.Node.Selection
import Thirdshift.Registration.Refresh
import Thirdshift.Jobs.Identifiers
import Thirdshift.HttpApi.Waitlist
import Thirdshift.Protocol.FileUrl
