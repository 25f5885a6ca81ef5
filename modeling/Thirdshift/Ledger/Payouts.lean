import Thirdshift.Ledger.Store

/-!
# Credit release, reversals and payouts

The operations that move host credit after it was posted. `SELECT … FOR UPDATE` and `UPDATE` over
many rows choose their rows in one snapshot and lock them one after the other; a row that no longer
qualifies once it is locked is passed over. Identifiers are drawn in order from `ids`.
-/

namespace Thirdshift

open Foundation Tx

def accountHostAvailableCredit : String := "host_available_credit"
def accountPlatformPayoutCash : String := "platform_payout_cash"
def defaultPayoutMemoPrefix : String := "Thirdshift host payout"

def errNoAvailableCredit : GoError := .other "no available host credit"

inductive ConfirmationRow
  | short
  | unreadable
  | paid (hostID : NodeID) (amount : Int)

namespace Ledger

section

variable {ρ : Type} (find : Db → String → Option ρ) (row : ρ → Row)

/-- Locks the rows one after the other and returns those that still qualify. -/
def lockEach (p : Db → ρ → Bool) : List String → SqlTx (List ρ)
  | [] => pure []
  | id :: rest => do
    let found ← selectForUpdate (fun db => (find db id).filter (p db)) row
    let others ← lockEach p rest
    pure (found.toList ++ others)

/-- Locks each row and, if it still qualifies, writes it. -/
def updateEach (p : ρ → Bool) (f : ρ → ρ) : List String → SqlTx Unit
  | [] => pure ()
  | id :: rest => do
    write
      (fun db => match (find db id).filter p with
        | some r => [.update (row r), .update (row (f r))]
        | none => [])
      (fun _ => ())
    updateEach p f rest

end

def findHold (db : Db) (id : String) : Option HostCreditHold := db.holds.find? id
def findItem (db : Db) (id : String) : Option PayoutItem := db.items.find? id
def findBatch (db : Db) (id : String) : Option PayoutBatch := db.batches.find? id

def selectHoldsForUpdate (p : Db → HostCreditHold → Bool) : SqlTx (List HostCreditHold) := do
  let chosen ← select fun db => (db.holds.rows.filter (p db)).map HostCreditHold.id
  lockEach findHold .hold p chosen

def updateHolds (p : HostCreditHold → Bool) (f : HostCreditHold → HostCreditHold) : SqlTx Unit := do
  let chosen ← select fun db => (db.holds.rows.filter p).map HostCreditHold.id
  updateEach findHold .hold p f chosen

def updateHold (id : String) (f : HostCreditHold → HostCreditHold) : SqlTx Unit :=
  updateEach findHold .hold (fun _ => true) f [id]

def updateItems (p : PayoutItem → Bool) (f : PayoutItem → PayoutItem) : SqlTx Unit := do
  let chosen ← select fun db => (db.items.rows.filter p).map PayoutItem.id
  updateEach findItem .item p f chosen

def updateItem (id : String) (f : PayoutItem → PayoutItem) : SqlTx Unit :=
  updateEach findItem .item (fun _ => true) f [id]

def updateBatch (id : String) (f : PayoutBatch → PayoutBatch) : SqlTx Unit :=
  updateEach findBatch .batch (fun _ => true) f [id]

def lockBatch (batchID : String) : SqlTx (Option PayoutBatch) :=
  selectForUpdate (fun db => findBatch db batchID) .batch

/-! ### Release of held credit -/

def releaseCredit (ids : Nat → String) (now : Time) (credit : HostCreditHold) : SqlTx Unit := do
  let txID := ids 0
  insertRow (.transaction
    ⟨txID, .hostCreditRelease, .draft, "host_credit_hold", credit.id, none, none⟩)
  let pendingAccount ← ensureAccount (ids 1) .host credit.nodeID accountHostPendingCredit
  let availableAccount ← ensureAccount (ids 2) .host credit.nodeID accountHostAvailableCredit
  insertEntry (ids 3) txID pendingAccount credit.amountMicrodollars "release pending host credit"
  insertEntry (ids 4) txID availableAccount (wrap64 (-credit.amountMicrodollars))
    "host available credit"
  let _ ← markPosted txID now
  updateHold credit.id fun h => { h with state := .available }

def releaseCredits (now : Time) : (Nat → String) → List HostCreditHold → SqlTx Unit
  | _, [] => pure ()
  | ids, credit :: rest => do
    releaseCredit ids now credit
    releaseCredits now (fun n => ids (n + 5)) rest

def releasable (now : Time) (_ : Db) (h : HostCreditHold) : Bool :=
  h.state = .pending && h.availableAt ≤ now

def promoteAvailableCredits (ids : Nat → String) (now : Time) : SqlTx Nat := do
  let credits ← selectHoldsForUpdate (releasable now)
  releaseCredits now ids credits
  pure credits.length

/-! ### Reversal -/

def insertReversals (reversalID : String) : (Nat → String) → List LedgerEntry → SqlTx Unit
  | _, [] => pure ()
  | ids, entry :: rest => do
    insertEntry (ids 0) reversalID entry.accountID (wrap64 (-entry.amountMicrodollars))
      ("reversal: " ++ entry.memo)
    insertReversals reversalID (fun n => ids (n + 1)) rest

/-- `INSERT … SELECT … WHERE id = $5 AND status = 'posted'`: no row when there is no such
transaction. -/
def insertReversal (reversalID transactionID : String) : SqlTx Unit :=
  write
    (fun db => match (db.transactions.find? transactionID).filter (fun t => t.status = .posted) with
      | some t => [.insert (.transaction ⟨reversalID, .ledgerReversal, .draft, t.referenceType,
          t.referenceID, none, some t.id⟩)]
      | none => [])
    (fun _ => ())

def reverseTransaction (ids : Nat → String) (transactionID : String) (now : Time) : SqlTx String := do
  let reversalID := ids 0
  insertReversal reversalID transactionID
  let entries ← select fun db =>
    db.entries.rows.filter fun e => e.transactionID = transactionID
  insertReversals reversalID (fun n => ids (n + 1)) entries
  require (entries ≠ []) (.other s!"posted transaction {transactionID} has no entries")
  let _ ← markPosted reversalID now
  pure reversalID

/-! ### Payout batches -/

/-- The payout transaction on record for a paid batch, from any of its items. -/
def payoutTransaction (batchID : String) (db : Db) : Option String :=
  (db.items.rows.filter fun i => i.payoutBatchID = batchID).findSome?
    PayoutItem.ledgerTransactionID

def reversePayout (ids : Nat → String) (batchID : String) (now : Time) : SqlTx Unit := do
  match ← select (payoutTransaction batchID) with
  | some payoutTxID =>
    let _ ← reverseTransaction ids payoutTxID now
    pure ()
  | none => pure ()

def voidPaid (ids : Nat → String) (batchID : String) (now : Time) : SqlTx Unit := do
  reversePayout ids batchID now
  updateHolds (fun h => h.payoutBatchID = some batchID) fun h => { h with state := .reversed }

def releaseReserved (batchID : String) : SqlTx Unit :=
  updateHolds (fun h => h.payoutBatchID = some batchID && h.state = .payoutPending)
    fun h => { h with state := .available, payoutBatchID := none }

def undoBatch (onPaid : SqlTx Unit) (batch : PayoutBatch) : SqlTx Unit :=
  if batch.status = .paid then onPaid else releaseReserved batch.id

/-- `VoidPayoutBatch`, given what it does with a paid batch. -/
def voidBatch (onPaid : SqlTx Unit) (batchID : String) : SqlTx Unit := do
  match ← lockBatch batchID with
  | none => fail (.other "select payout batch: no rows in result set")
  | some batch =>
    if batch.status = .void then pure ()
    else do
      undoBatch onPaid batch
      updateItems (fun i => i.payoutBatchID = batchID && i.status ≠ .void)
        fun i => { i with status := .void }
      updateBatch batchID fun b => { b with status := .void }

def voidPayoutBatch (ids : Nat → String) (batchID : String) (now : Time) : SqlTx Unit :=
  voidBatch (voidPaid ids batchID now) batchID

/-- The holds that `CreatePayoutBatch` takes into a batch. -/
def payable (organizationID : String) (db : Db) (h : HostCreditHold) : Bool :=
  h.state = .available && 0 < h.amountMicrodollars &&
    (db.nodes.find? h.nodeID).any fun n =>
      organizationID = "" || n.organizationID = some organizationID

/-- The loop of `CreatePayoutBatch`: an item for each credit, which is then reserved. -/
def reserveCredits (batchID : String) : (Nat → String) → List HostCreditHold → SqlTx Unit
  | _, [] => pure ()
  | ids, credit :: rest => do
    insertRow (.item ⟨ids 0, batchID, credit.nodeID, credit.id, credit.amountMicrodollars,
      credit.nodeID, .pending, defaultPayoutMemoPrefix ++ " " ++ batchID, none⟩)
    updateHold credit.id fun h => { h with state := .payoutPending, payoutBatchID := some batchID }
    reserveCredits batchID (fun n => ids (n + 1)) rest

def sum64 (amounts : List Int) : Int := amounts.foldl (fun total amount => wrap64 (total + amount)) 0

def createPayoutBatch (ids : Nat → String) (organizationID : String) : SqlTx String := do
  let batchID := ids 0
  insertRow (.batch ⟨batchID, if organizationID = "" then none else some organizationID, .draft, 0,
    none, none⟩)
  let credits ← selectHoldsForUpdate (payable organizationID)
  reserveCredits batchID (fun n => ids (n + 1)) credits
  require (credits ≠ []) errNoAvailableCredit
  updateBatch batchID fun b =>
    { b with totalMicrodollars := sum64 (credits.map HostCreditHold.amountMicrodollars) }
  pure batchID

def markExported (batch : PayoutBatch) (now : Time) : SqlTx Unit :=
  if batch.status = .draft then do
    updateItems (fun i => i.payoutBatchID = batch.id && i.status = .pending)
      fun i => { i with status := .exported }
    updateBatch batch.id fun b => { b with status := .exported, exportedAt := some now }
  else pure ()

/-- Returns the rows of the exported file: host, account reference, amount and memo. -/
def exportPayoutBatch (batchID : String) (now : Time) :
    SqlTx (List (NodeID × String × Int × String)) := do
  match ← lockBatch batchID with
  | none => fail (.other "select payout batch: no rows in result set")
  | some batch =>
    let items ← select fun db =>
      db.items.rows.filter fun i => i.payoutBatchID = batchID && i.status ≠ .void
    markExported batch now
    pure (items.map fun i => (i.hostNodeID, i.externalReference, i.amountMicrodollars, i.memo))

def confirmedFor (hostID : NodeID) (rows : List ConfirmationRow) : Int :=
  (rows.map fun
    | .paid host amount => if host = hostID then amount else 0
    | _ => 0).sum

def expectedFor (hostID : NodeID) (items : List PayoutItem) : Int :=
  ((items.filter fun i => i.hostNodeID = hostID).map PayoutItem.amountMicrodollars).sum

/-- Every row can be read, and what was paid to each host is what its items say. -/
def confirms (items : List PayoutItem) (rows : List ConfirmationRow) : Bool :=
  (rows.all fun
    | .paid host _ => wrap64 (expectedFor host items - confirmedFor host rows) = 0
    | _ => false) &&
  items.all fun i => wrap64 (expectedFor i.hostNodeID items - confirmedFor i.hostNodeID rows) = 0

/-- The first row that cannot be read, or else a host with a difference: the source names the one
that its map yields first. -/
def confirmationError (items : List PayoutItem) (rows : List ConfirmationRow) : String :=
  let unread := rows.findSome? fun
    | .short => some "payout confirmation row has fewer than 3 columns"
    | .unreadable => some "parse payout confirmation amount"
    | .paid _ _ => none
  let paid := rows.filterMap fun
    | .paid host _ => some host
    | _ => none
  let differs := (items.map PayoutItem.hostNodeID ++ paid).findSome? fun host =>
    let diff := wrap64 (expectedFor host items - confirmedFor host rows)
    if diff = 0 then none
    else some s!"payout confirmation mismatch for host {host}: {diff} microdollars"
  (unread.or differs).getD ""

/-- The loop of `ConfirmPayoutBatch`: each item consumes available credit and is marked paid. -/
def payItems (txID : String) : (Nat → String) → List PayoutItem → SqlTx Unit
  | _, [] => pure ()
  | ids, item :: rest => do
    let account ← ensureAccount (ids 0) .host item.hostNodeID accountHostAvailableCredit
    insertEntry (ids 1) txID account item.amountMicrodollars "host payout consumed available credit"
    updateItem item.id fun i => { i with status := .paid, ledgerTransactionID := some txID }
    payItems txID (fun n => ids (n + 2)) rest

def exportedItems (batchID : String) (db : Db) : List PayoutItem :=
  db.items.rows.filter fun i => i.payoutBatchID = batchID && i.status = .exported

def confirmPayoutBatch (ids : Nat → String) (batchID : String) (rows : List ConfirmationRow)
    (now : Time) : SqlTx Unit := do
  require (rows ≠ []) (.other "payout confirmation CSV has no item rows")
  match ← lockBatch batchID with
  | none => fail (.other "select payout batch: no rows in result set")
  | some batch =>
    require (batch.status = .exported)
      (.other "payout batch must be exported before confirmation")
    let expected ← select (exportedItems batchID)
    require (confirms expected rows = true) (.other (confirmationError expected rows))
    let txID := ids 0
    insertRow (.transaction ⟨txID, .hostPayout, .draft, "payout_batch", batchID, none, none⟩)
    let items ← select (exportedItems batchID)
    payItems txID (fun n => ids (n + 3)) items
    let total := sum64 (items.map PayoutItem.amountMicrodollars)
    require (0 < total) (.other "payout batch has no payable total")
    let cash ←
      ensureAccount (ids 1) .platform defaultPlatformLedgerOwnerID accountPlatformPayoutCash
    insertEntry (ids 2) txID cash (wrap64 (-total)) "manual payout cash out"
    let _ ← markPosted txID now
    updateHolds (fun h => h.payoutBatchID = some batchID && h.state = .payoutPending)
      fun h => { h with state := .paid }
    updateBatch batchID fun b => { b with status := .paid, paidAt := some now }

end Ledger

end Thirdshift
