import Thirdshift.Database

/-!
# Ledger postings

What an accepted job and a verification attempt post to the ledger. Amounts are machine integers:
Go's `int64` arithmetic wraps, and division truncates toward zero.
-/

namespace Thirdshift

open Foundation

def chargeForTokens (tokens perMillionMicrodollars : Int) : Int :=
  if tokens ≤ 0 ∨ perMillionMicrodollars ≤ 0 then 0
  else (wrap64 (wrap64 (tokens * perMillionMicrodollars) + 500000)).tdiv 1000000

theorem charge_bound (tokens perMillionMicrodollars : Int) :
    -10000000000000 < chargeForTokens tokens perMillionMicrodollars ∧
      chargeForTokens tokens perMillionMicrodollars < 10000000000000 := by
  unfold chargeForTokens
  split
  · omega
  · generalize wrap64 (tokens * perMillionMicrodollars) + 500000 = n
    have low : -9223372036854775808 ≤ wrap64 n := by unfold wrap64; omega
    have high : wrap64 n < 9223372036854775808 := by unfold wrap64; omega
    have quotient : ((wrap64 n).tdiv 1000000).natAbs = (wrap64 n).natAbs / 1000000 :=
      Int.natAbs_tdiv (wrap64 n) 1000000
    omega

theorem wrap64_neg_charge (tokens perMillionMicrodollars : Int) :
    wrap64 (-chargeForTokens tokens perMillionMicrodollars) =
      -chargeForTokens tokens perMillionMicrodollars := by
  obtain ⟨low, high⟩ := charge_bound tokens perMillionMicrodollars
  exact wrap64_eq (by omega) (by omega)

def accountCustomerUsage : String := "customer_usage_charge"
def accountHostPendingCredit : String := "host_pending_credit"
def accountPlatformMargin : String := "platform_margin"
def accountPlatformVerification : String := "platform_verification_overhead"
def defaultPlatformLedgerOwnerID : String := "platform_thirdshift"
def defaultCreditHold : Duration := seconds (24 * 60 * 60)

def errDuplicatePosting : GoError := .other "ledger posting already exists"

structure AcceptedJobPosting where
  jobID : JobID
  attemptID : AttemptID
  receivedAt : Time
  creditHold : Duration
  promptTokens : Int
  completionTokens : Int
  verificationOverheadMicrodollars : Int

structure VerificationOverheadPosting where
  jobID : JobID
  attemptID : AttemptID
  receivedAt : Time
  creditHold : Duration
  completionTokens : Int

/-- What the pricing query joins: the job's organization, the attempt's node, the price in force. -/
structure Pricing where
  organizationID : String
  nodeID : NodeID
  price : ModelPrice

def Db.pricing (db : Db) (jobID : JobID) (attemptID : AttemptID) (t : Time) : Option Pricing :=
  match db.jobs.find? jobID, db.attempts.find? attemptID with
  | some j, some ja =>
    if ja.jobID = j.id then
      (db.catalog.priceAt j.modelID t).map fun price => ⟨j.organizationID, ja.nodeID, price⟩
    else none
  | _, _ => none

namespace Ledger

def findAccount (db : Db) (ownerType : AccountOwner) (ownerID accountType : String) :
    Option LedgerAccount :=
  db.accounts.rows.find? fun a =>
    a.ownerType = ownerType ∧ a.ownerID = ownerID ∧ a.accountType = accountType

/-- `INSERT … ON CONFLICT … DO UPDATE SET status = 'active' RETURNING id`. -/
def ensureAccount (accountID : String) (ownerType : AccountOwner) (ownerID accountType : String) :
    SqlTx String :=
  Tx.write
    (fun db => match findAccount db ownerType ownerID accountType with
      | some account => [.update (.account account)]
      | none => [.insert (.account ⟨accountID, ownerType, ownerID, accountType⟩)])
    (fun db => ((findAccount db ownerType ownerID accountType).map LedgerAccount.id).getD accountID)

def insertEntry (entryID txID accountID : String) (amount : Int) (memo : String) : SqlTx Unit :=
  insertRow (.entry ⟨entryID, txID, accountID, amount, memo⟩)

/-- `INSERT … ON CONFLICT DO NOTHING`: a draft is outside the partial unique index, so only a used
primary key conflicts. -/
def insertDraft (tx : LedgerTransaction) : SqlTx Nat :=
  Tx.write (fun db => if (db.transactions.find? tx.id).isSome then [] else [.insert (.transaction tx)])
    (fun db => if (db.transactions.find? tx.id).isSome then 0 else 1)

def markPosted (txID : String) (at' : Time) : SqlTx Nat :=
  updateTransactions (fun t => t.id = txID) (fun t => { t with status := .posted, postedAt := some at' })

def insertOverhead (accountID entryID txID : String) (overhead : Int) : SqlTx Unit :=
  if overhead > 0 then do
    let account ←
      ensureAccount accountID .platform defaultPlatformLedgerOwnerID accountPlatformVerification
    insertEntry entryID txID account overhead "verification overhead"
  else pure ()

/-- Posts the charge of an accepted job and returns the price version it used. The identifiers are
drawn in order from `ids`. -/
def postAcceptedJob (ids : Nat → String) (posting : AcceptedJobPosting) : SqlTx String := do
  let creditHold := if posting.creditHold ≤ 0 then defaultCreditHold else posting.creditHold
  match ← Tx.select (fun db => db.pricing posting.jobID posting.attemptID posting.receivedAt) with
  | none => Tx.fail (.other "load accepted job pricing: no rows in result set")
  | some pricing =>
    let customerCharge := wrap64 (
      chargeForTokens posting.promptTokens pricing.price.customerInputPerMillion +
      chargeForTokens posting.completionTokens pricing.price.customerOutputPerMillion)
    let hostCredit :=
      chargeForTokens posting.completionTokens pricing.price.hostCreditPerMillionOutput
    let verificationOverhead := max posting.verificationOverheadMicrodollars 0
    let platformMargin := wrap64 (customerCharge - hostCredit - verificationOverhead)
    let txID := ids 0
    let inserted ← insertDraft ⟨txID, .jobAcceptance, .draft, "job", posting.jobID, none, none⟩
    require (inserted ≠ 0) errDuplicatePosting
    let customerAccount ←
      ensureAccount (ids 1) .customer pricing.organizationID accountCustomerUsage
    let hostPendingAccount ← ensureAccount (ids 2) .host pricing.nodeID accountHostPendingCredit
    let platformMarginAccount ←
      ensureAccount (ids 3) .platform defaultPlatformLedgerOwnerID accountPlatformMargin
    insertEntry (ids 4) txID customerAccount customerCharge "customer usage charge"
    insertEntry (ids 5) txID hostPendingAccount (wrap64 (-hostCredit)) "host pending credit"
    insertOverhead (ids 6) (ids 7) txID verificationOverhead
    insertEntry (ids 8) txID platformMarginAccount (wrap64 (-platformMargin)) "platform margin"
    let _ ← markPosted txID posting.receivedAt
    insertRow (.hold ⟨ids 9, pricing.nodeID, posting.jobID, posting.attemptID, txID, hostCredit,
      .pending, posting.receivedAt + creditHold, none⟩)
    pure pricing.price.priceVersion

def postVerificationOverhead (ids : Nat → String) (posting : VerificationOverheadPosting) :
    SqlTx Unit := do
  let creditHold := if posting.creditHold ≤ 0 then defaultCreditHold else posting.creditHold
  match ← Tx.select (fun db => db.pricing posting.jobID posting.attemptID posting.receivedAt) with
  | none => Tx.fail (.other "load verification overhead pricing: no rows in result set")
  | some pricing =>
    let hostCredit :=
      chargeForTokens posting.completionTokens pricing.price.hostCreditPerMillionOutput
    let txID := ids 0
    insertRow (.transaction ⟨txID, .verificationCost, .draft, "job", posting.jobID, none, none⟩)
    let verificationAccount ←
      ensureAccount (ids 1) .platform defaultPlatformLedgerOwnerID accountPlatformVerification
    let hostPendingAccount ← ensureAccount (ids 2) .host pricing.nodeID accountHostPendingCredit
    insertEntry (ids 3) txID verificationAccount hostCredit "verification host credit overhead"
    insertEntry (ids 4) txID hostPendingAccount (wrap64 (-hostCredit))
      "host pending verification credit"
    let _ ← markPosted txID posting.receivedAt
    insertRow (.hold ⟨ids 5, pricing.nodeID, posting.jobID, posting.attemptID, txID, hostCredit,
      .pending, posting.receivedAt + creditHold, none⟩)

end Ledger

end Thirdshift
