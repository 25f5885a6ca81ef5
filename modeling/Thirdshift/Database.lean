import Thirdshift.Catalog
import Thirdshift.Foundation.Table
import Thirdshift.Foundation.Transaction

/-!
# Database

The tables of the coordinator's database, with the columns the coordinator reads, and the schema
they form: primary keys, unique indexes, checks, foreign keys and the deferred balance trigger, as
the migrations declare them.
-/

namespace Thirdshift

open Foundation Table List Tx

inductive JobState
  | queued | leased | running | verifying | succeeded | failed | cancelled
  deriving DecidableEq

def JobState.terminal : JobState → Bool
  | .succeeded | .failed | .cancelled => true
  | _ => false

inductive AttemptStatus
  | offered | accepted | running | succeeded | failed | cancelled | expired | rejected | verified
  deriving DecidableEq

def AttemptStatus.name : AttemptStatus → String
  | .offered => "offered"
  | .accepted => "accepted"
  | .running => "running"
  | .succeeded => "succeeded"
  | .failed => "failed"
  | .cancelled => "cancelled"
  | .expired => "expired"
  | .rejected => "rejected"
  | .verified => "verified"

/-- `status IN ('offered', 'accepted', 'running')`. -/
def AttemptStatus.live : AttemptStatus → Bool
  | .offered | .accepted | .running => true
  | _ => false

/-- `status IN ('accepted', 'running')`. -/
def AttemptStatus.taken : AttemptStatus → Bool
  | .accepted | .running => true
  | _ => false

structure Job where
  id : JobID
  organizationID : String
  apiKeyID : String
  modelID : ModelID
  state : JobState
  deadlineAt : Time
  createdAt : Time
  updatedAt : Time
  completedAt : Option Time

structure Attempt where
  id : AttemptID
  jobID : JobID
  nodeID : NodeID
  attemptNumber : Nat
  leaseNonce : String
  leaseExpiresAt : Time
  deadlineAt : Time
  status : AttemptStatus
  transientFailure : Bool
  errorCode : Option String
  createdAt : Time
  acceptedAt : Option Time
  startedAt : Option Time
  finishedAt : Option Time

structure JobResult where
  id : String
  jobID : JobID
  attemptID : AttemptID
  modelHash : String
  runtimeHash : String
  promptTokens : Int
  completionTokens : Int
  durationMillis : Int
  coordinatorDurationMillis : Int
  response : OpenAIResponse
  accepted : Bool
  meteringStatus : String
  priceVersion : String
  createdAt : Time

inductive EventStatus
  | pending | accepted | rejected | quarantined
  deriving DecidableEq

structure VerificationEvent where
  id : String
  jobID : JobID
  attemptID : Option AttemptID
  nodeID : Option NodeID
  eventType : String
  status : EventStatus
  createdAt : Time

/-- The stored response is the body of a completion. -/
structure IdempotencyRow where
  id : String
  apiKeyID : String
  endpoint : String
  idempotencyKey : String
  requestHash : String
  responseStatus : Nat
  response : OpenAIResponse
  jobID : JobID
  expiresAt : Time

inductive AccountOwner
  | customer | host | platform
  deriving DecidableEq

structure LedgerAccount where
  id : String
  ownerType : AccountOwner
  ownerID : String
  accountType : String

inductive TransactionType
  | jobAcceptance | hostCreditRelease | hostPayout | ledgerReversal | verificationCost
  | failedAttemptCost
  deriving DecidableEq

inductive TransactionStatus
  | draft | posted | void
  deriving DecidableEq

structure LedgerTransaction where
  id : String
  transactionType : TransactionType
  status : TransactionStatus
  referenceType : String
  referenceID : String
  postedAt : Option Time
  reversesTransactionID : Option String

structure LedgerEntry where
  id : String
  transactionID : String
  accountID : String
  amountMicrodollars : Int
  memo : String

inductive HoldState
  | pending | available | payoutPending | paid | reversed
  deriving DecidableEq

structure HostCreditHold where
  id : String
  nodeID : NodeID
  jobID : JobID
  attemptID : AttemptID
  ledgerTransactionID : String
  amountMicrodollars : Int
  state : HoldState
  availableAt : Time
  payoutBatchID : Option String

inductive BatchStatus
  | draft | exported | paid | void
  deriving DecidableEq

structure PayoutBatch where
  id : String
  organizationID : Option String
  status : BatchStatus
  totalMicrodollars : Int
  exportedAt : Option Time
  paidAt : Option Time

inductive ItemStatus
  | pending | exported | paid | failed | void
  deriving DecidableEq

structure PayoutItem where
  id : String
  payoutBatchID : String
  hostNodeID : NodeID
  creditHoldID : String
  amountMicrodollars : Int
  externalReference : String
  status : ItemStatus
  memo : String
  ledgerTransactionID : Option String

/-- Rates are in ten-thousandths. -/
structure NodeReputation where
  nodeID : NodeID
  totalAcceptedJobs : Int
  rollingSuccessRate : Int
  timeoutRate : Int
  hashMismatchCount : Int
  duplicateDisagreementRate : Int
  attemptTotal : Int
  attemptFailed : Int
  duplicateTotal : Int
  duplicateDisagreements : Int
  challengeTotal : Int
  challengeFailed : Int
  challengePassRate : Int
  quarantinedAt : Option Time

structure Node where
  id : NodeID
  state : NodeState
  currentModelID : Option ModelID
  quarantinedAt : Option Time
  organizationID : Option String

inductive SessionState
  | connected | draining | closed | stale
  deriving DecidableEq

structure NodeSession where
  id : SessionID
  nodeID : NodeID
  state : SessionState
  connectedAt : Time
  lastHeartbeatAt : Option Time
  disconnectedAt : Option Time

structure NodeHeartbeat where
  id : String
  nodeID : NodeID
  sessionID : SessionID
  sequence : Int
  modelHash : Option String
  runtimeHash : Option String
  scheduleState : String
  thermalState : String
  paused : Bool
  draining : Bool
  receivedAt : Time

structure Db where
  jobs : Table Job.id
  attempts : Table Attempt.id
  results : Table JobResult.id
  events : Table VerificationEvent.id
  idempotency : Table IdempotencyRow.id
  accounts : Table LedgerAccount.id
  transactions : Table LedgerTransaction.id
  entries : Table LedgerEntry.id
  holds : Table HostCreditHold.id
  batches : Table PayoutBatch.id
  items : Table PayoutItem.id
  reputation : Table NodeReputation.nodeID
  nodes : Table Node.id
  sessions : Table NodeSession.id
  heartbeats : Table NodeHeartbeat.id
  catalog : Catalog

inductive Row
  | job (row : Job)
  | attempt (row : Attempt)
  | result (row : JobResult)
  | event (row : VerificationEvent)
  | idempotency (row : IdempotencyRow)
  | account (row : LedgerAccount)
  | transaction (row : LedgerTransaction)
  | entry (row : LedgerEntry)
  | hold (row : HostCreditHold)
  | batch (row : PayoutBatch)
  | item (row : PayoutItem)
  | reputation (row : NodeReputation)
  | node (row : Node)
  | session (row : NodeSession)
  | heartbeat (row : NodeHeartbeat)

inductive TableName
  | jobs | attempts | results | events | idempotency | accounts | transactions | entries | holds
  | batches | items | reputation | nodes | sessions | heartbeats
  deriving DecidableEq

structure Key where
  table : TableName
  id : String
  deriving DecidableEq

@[simp] def Row.key : Row → Key
  | .job r => ⟨.jobs, r.id⟩
  | .attempt r => ⟨.attempts, r.id⟩
  | .result r => ⟨.results, r.id⟩
  | .event r => ⟨.events, r.id⟩
  | .idempotency r => ⟨.idempotency, r.id⟩
  | .account r => ⟨.accounts, r.id⟩
  | .transaction r => ⟨.transactions, r.id⟩
  | .entry r => ⟨.entries, r.id⟩
  | .hold r => ⟨.holds, r.id⟩
  | .batch r => ⟨.batches, r.id⟩
  | .item r => ⟨.items, r.id⟩
  | .reputation r => ⟨.reputation, r.nodeID⟩
  | .node r => ⟨.nodes, r.id⟩
  | .session r => ⟨.sessions, r.id⟩
  | .heartbeat r => ⟨.heartbeats, r.id⟩

namespace Db

def get (db : Db) (k : Key) : Option Row :=
  match k.table with
  | .jobs => (db.jobs.find? k.id).map .job
  | .attempts => (db.attempts.find? k.id).map .attempt
  | .results => (db.results.find? k.id).map .result
  | .events => (db.events.find? k.id).map .event
  | .idempotency => (db.idempotency.find? k.id).map .idempotency
  | .accounts => (db.accounts.find? k.id).map .account
  | .transactions => (db.transactions.find? k.id).map .transaction
  | .entries => (db.entries.find? k.id).map .entry
  | .holds => (db.holds.find? k.id).map .hold
  | .batches => (db.batches.find? k.id).map .batch
  | .items => (db.items.find? k.id).map .item
  | .reputation => (db.reputation.find? k.id).map .reputation
  | .nodes => (db.nodes.find? k.id).map .node
  | .sessions => (db.sessions.find? k.id).map .session
  | .heartbeats => (db.heartbeats.find? k.id).map .heartbeat

def put (db : Db) : Row → Db
  | .job r => { db with jobs := db.jobs.put r }
  | .attempt r => { db with attempts := db.attempts.put r }
  | .result r => { db with results := db.results.put r }
  | .event r => { db with events := db.events.put r }
  | .idempotency r => { db with idempotency := db.idempotency.put r }
  | .account r => { db with accounts := db.accounts.put r }
  | .transaction r => { db with transactions := db.transactions.put r }
  | .entry r => { db with entries := db.entries.put r }
  | .hold r => { db with holds := db.holds.put r }
  | .batch r => { db with batches := db.batches.put r }
  | .item r => { db with items := db.items.put r }
  | .reputation r => { db with reputation := db.reputation.put r }
  | .node r => { db with nodes := db.nodes.put r }
  | .session r => { db with sessions := db.sessions.put r }
  | .heartbeat r => { db with heartbeats := db.heartbeats.put r }

end Db

/-! ### Unique indexes -/

inductive Index
  | attemptNumber (jobID : JobID) (attemptNumber : Nat)
  | leaseNonce (leaseNonce : String)
  | oneSuccessPerJob (jobID : JobID)
  | resultAttempt (attemptID : AttemptID)
  | idempotencyKey (apiKeyID endpoint key : String)
  | account (ownerType : AccountOwner) (ownerID accountType : String)
  | oneJobAcceptance (referenceType referenceID : String)
  | holdAttempt (attemptID : AttemptID)
  | oneCreditHold (creditHoldID : String)
  deriving DecidableEq

def Row.index : Row → List Index
  | .attempt r => [.attemptNumber r.jobID r.attemptNumber, .leaseNonce r.leaseNonce] ++
      if r.status = .succeeded then [.oneSuccessPerJob r.jobID] else []
  | .result r => [.resultAttempt r.attemptID]
  | .idempotency r => [.idempotencyKey r.apiKeyID r.endpoint r.idempotencyKey]
  | .account r => [.account r.ownerType r.ownerID r.accountType]
  | .transaction r =>
      if r.transactionType = .jobAcceptance ∧ r.status = .posted then
        [.oneJobAcceptance r.referenceType r.referenceID]
      else []
  | .hold r => [.holdAttempt r.attemptID]
  | .item r => if r.status ≠ .void then [.oneCreditHold r.creditHoldID] else []
  | _ => []

namespace Db

/-- The rows of the tables that have a unique index besides the primary key. -/
def indexedRows (db : Db) : List Row :=
  db.attempts.rows.map .attempt ++ db.results.rows.map .result ++
  db.idempotency.rows.map .idempotency ++ db.accounts.rows.map .account ++
  db.transactions.rows.map .transaction ++ db.holds.rows.map .hold ++ db.items.rows.map .item

def clashes (db : Db) (row : Row) : Bool :=
  row.index.any fun ix => db.indexedRows.any fun other => other.key ≠ row.key && ix ∈ other.index

/-! ### Checks, foreign keys and triggers -/

def hasJob (db : Db) (id : JobID) : Bool := (db.jobs.find? id).isSome
def hasAttempt (db : Db) (id : AttemptID) : Bool := (db.attempts.find? id).isSome
def hasNode (db : Db) (id : NodeID) : Bool := (db.nodes.find? id).isSome

end Db

def isInt4 (n : Int) : Bool := -2147483648 ≤ n && n ≤ 2147483647
def isInt8 (n : Int) : Bool := -9223372036854775808 ≤ n && n ≤ 9223372036854775807
def isRate (n : Int) : Bool := 0 ≤ n && n ≤ 10000

/-- The columns of an item that the export freezes. -/
def PayoutItem.sameContents (a b : PayoutItem) : Bool :=
  a.payoutBatchID = b.payoutBatchID && a.hostNodeID = b.hostNodeID &&
  a.creditHoldID = b.creditHoldID && a.amountMicrodollars = b.amountMicrodollars &&
  a.externalReference = b.externalReference && a.memo = b.memo

namespace Db

def valid (db : Db) : Row → Bool
  | .attempt r => db.hasJob r.jobID && db.hasNode r.nodeID && 0 < r.attemptNumber
  | .result r => db.hasJob r.jobID && db.hasAttempt r.attemptID &&
      [r.promptTokens, r.completionTokens, r.durationMillis, r.coordinatorDurationMillis].all
        (fun n => isInt4 n && 0 ≤ n)
  | .event r => db.hasJob r.jobID && r.attemptID.all db.hasAttempt && r.nodeID.all db.hasNode
  | .idempotency r => db.hasJob r.jobID
  -- the last conjunct is the trigger that keeps the entries of a posted transaction immutable
  | .entry r => isInt8 r.amountMicrodollars && (db.accounts.find? r.accountID).isSome &&
      (db.transactions.find? r.transactionID).any (fun t => t.status ≠ .posted)
  | .hold r => db.hasNode r.nodeID && db.hasJob r.jobID && db.hasAttempt r.attemptID &&
      (db.transactions.find? r.ledgerTransactionID).isSome &&
      isInt8 r.amountMicrodollars && 0 ≤ r.amountMicrodollars
  | .transaction r => r.reversesTransactionID.all fun id => (db.transactions.find? id).isSome
  | .batch r => isInt8 r.totalMicrodollars && 0 ≤ r.totalMicrodollars
  -- the last conjunct is the trigger that keeps the contents of an exported batch immutable
  | .item r => isInt8 r.amountMicrodollars && 0 ≤ r.amountMicrodollars &&
      db.hasNode r.hostNodeID && (db.holds.find? r.creditHoldID).isSome &&
      r.ledgerTransactionID.all (fun id => (db.transactions.find? id).isSome) &&
      (db.batches.find? r.payoutBatchID).any (fun batch => batch.status = .draft ||
        (db.items.find? r.id).all r.sameContents)
  | .reputation r => db.hasNode r.nodeID && isRate r.rollingSuccessRate && isRate r.timeoutRate &&
      isRate r.duplicateDisagreementRate && isRate r.challengePassRate
  | .session r => db.hasNode r.nodeID
  | .heartbeat r => db.hasNode r.nodeID && (db.sessions.find? r.sessionID).isSome &&
      0 ≤ r.sequence
  | _ => true

def balance (db : Db) (transactionID : String) : Int :=
  ((db.entries.rows.filter (fun e => e.transactionID = transactionID)).map
    LedgerEntry.amountMicrodollars).sum

def balanced (db : Db) : Bool :=
  db.transactions.rows.all fun t => t.status ≠ .posted || db.balance t.id = 0

theorem get_put_self (db : Db) (row : Row) : (db.put row).get row.key = some row := by
  cases row <;> simp [put, get, Row.key]

variable {db : Db} {k : Key} {row : Row}

theorem get_put_other (other : row.key ≠ k) : (db.put row).get k = db.get k := by
  obtain ⟨table, id⟩ := k
  cases row <;> cases table <;> first
    | rfl
    | (simp only [Row.key, ne_eq, Key.mk.injEq, true_and] at other
       simp [put, get, find?_put, other])

theorem key_of_get (found : db.get k = some row) : row.key = k := by
  obtain ⟨table, id⟩ := k
  cases table <;>
    (obtain ⟨r, at_id, rfl⟩ := Option.map_eq_some_iff.mp found
     simp [Row.key, key_of_find? at_id])

theorem mem_indexedRows {ix : Index} (found : db.get k = some row) (entry : ix ∈ row.index) :
    row ∈ db.indexedRows := by
  obtain ⟨table, id⟩ := k
  cases table <;>
    (obtain ⟨r, at_id, rfl⟩ := Option.map_eq_some_iff.mp found
     have member := mem_of_find? at_id
     first
       | exact absurd entry not_mem_nil
       | simp [indexedRows, member])

theorem clashes_of_shared {other : Row} {ix : Index} (found : db.get k = some other)
    (apart : k ≠ row.key) (inRow : ix ∈ row.index) (inOther : ix ∈ other.index) :
    db.clashes row = true := by
  simp only [clashes, any_eq_true, Bool.and_eq_true, decide_eq_true_eq]
  exact ⟨ix, inRow, other, mem_indexedRows found inOther, (key_of_get found).symm ▸ apart, inOther⟩

end Db

def schema : Schema Db Row Key Index GoError where
  key := Row.key
  get := Db.get
  put := Db.put
  index := Row.index
  clashes := Db.clashes
  valid := Db.valid
  deferred := Db.balanced
  violation := .other "constraint violation"
  get_put_self := Db.get_put_self
  get_put_other := Db.get_put_other
  key_of_get := Db.key_of_get
  clashes_of_shared := Db.clashes_of_shared

@[simp] theorem schema_key (row : Row) : schema.key row = row.key := rfl

abbrev SqlTx (α : Type) := Tx Db Row GoError α

variable {κ ρ α : Type} {db db' : Db} {n : Nat} {c : Prop} {e : GoError}

/-! ### Statements -/

def insertRow (row : Row) : SqlTx Unit := Tx.write (fun _ => [.insert row]) (fun _ => ())

/-- Goes on when `c` holds; otherwise the transaction is rolled back with `e`. -/
def require (c : Prop) [Decidable c] (e : GoError) : SqlTx Unit := if c then pure () else Tx.fail e

/-- `UPDATE … SET f WHERE p` on one table; the result is the number of rows affected. -/
def updateRows {ρ κ : Type} {key : ρ → κ} (table : Db → Table key) (row : ρ → Row) (p : ρ → Bool)
    (f : ρ → ρ) : SqlTx Nat :=
  Tx.write (fun db => ((table db).updated p f).map fun r => .update (row r))
    (fun db => ((table db).rows.filter p).length)

def updateJobs : (Job → Bool) → (Job → Job) → SqlTx Nat := updateRows Db.jobs .job
def updateAttempts : (Attempt → Bool) → (Attempt → Attempt) → SqlTx Nat :=
  updateRows Db.attempts .attempt
def updateResults : (JobResult → Bool) → (JobResult → JobResult) → SqlTx Nat :=
  updateRows Db.results .result
def updateTransactions :
    (LedgerTransaction → Bool) → (LedgerTransaction → LedgerTransaction) → SqlTx Nat :=
  updateRows Db.transactions .transaction
def updateReputation : (NodeReputation → Bool) → (NodeReputation → NodeReputation) → SqlTx Nat :=
  updateRows Db.reputation .reputation
def updateNodes : (Node → Bool) → (Node → Node) → SqlTx Nat := updateRows Db.nodes .node
def updateSessions : (NodeSession → Bool) → (NodeSession → NodeSession) → SqlTx Nat :=
  updateRows Db.sessions .session

variable {tables : List TableName}

section

variable [DecidableEq κ] {key : ρ → κ} {table : Db → Table key} {row : ρ → Row}
  (set : Db → Table key → Db) (set_table : ∀ db, set db (table db) = db)
  (table_set : ∀ db t, table (set db t) = t) (set_set : ∀ db t u, set (set db t) u = set db u)
  (put_row : ∀ db r, db.put (row r) = set db ((table db).put r))
include set_table table_set set_set put_row

theorem overlay_updates (db : Db) (rs : List ρ) :
    schema.overlay db (rs.map fun r => .update (row r)) = set db ((table db).putAll rs) := by
  induction rs generalizing db with
  | nil => exact (set_table db).symm
  | cons r rs ih =>
    have head : schema.overlay db ((r :: rs).map fun r => Write.update (row r)) =
        schema.overlay (db.put (row r)) (rs.map fun r => .update (row r)) := rfl
    rw [head, ih, put_row, table_set, set_set, putAll_cons]

theorem updateRows_ok {p : ρ → Bool} {f : ρ → ρ}
    (ok : Tx.exec schema (updateRows table row p f) db = .ok (n, db')) :
    n = ((table db).rows.filter p).length ∧
      db' = set db ((table db).putAll ((table db).updated p f)) := by
  obtain ⟨count, -, after⟩ := exec_write_ok ok
  exact ⟨count, after.trans (overlay_updates set set_table table_set set_set put_row db _)⟩

end

theorem overlay_attempts (db : Db) (rs : List Attempt) :
    schema.overlay db (rs.map fun r => .update (.attempt r)) =
      { db with attempts := db.attempts.putAll rs } :=
  overlay_updates (fun db t => { db with attempts := t }) (fun _ => rfl) (fun _ _ => rfl)
    (fun _ _ _ => rfl) (fun _ _ => rfl) db rs

theorem overlay_nodes (db : Db) (rs : List Node) :
    schema.overlay db (rs.map fun r => .update (.node r)) =
      { db with nodes := db.nodes.putAll rs } :=
  overlay_updates (fun db t => { db with nodes := t }) (fun _ => rfl) (fun _ _ => rfl)
    (fun _ _ _ => rfl) (fun _ _ => rfl) db rs

theorem overlay_sessions (db : Db) (rs : List NodeSession) :
    schema.overlay db (rs.map fun r => .update (.session r)) =
      { db with sessions := db.sessions.putAll rs } :=
  overlay_updates (fun db t => { db with sessions := t }) (fun _ => rfl) (fun _ _ => rfl)
    (fun _ _ _ => rfl) (fun _ _ => rfl) db rs

section

variable {row : Row} {u : Unit}

theorem insertRow_ok (ok : Tx.exec schema (insertRow row) db = .ok (u, db')) :
    schema.admits db (.insert row) = true ∧ db' = db.put row := by
  obtain ⟨-, applied, after⟩ := exec_write_ok ok
  refine ⟨?_, after⟩
  simp only [Schema.applyWrites] at applied
  split at applied
  · assumption
  · cases applied

theorem absent_of_admits (admitted : schema.admits db (.insert row) = true) :
    db.get row.key = none := by
  simp only [Schema.admits, Bool.and_eq_true, Option.isNone_iff_eq_none] at admitted
  exact admitted.1.1

theorem absent_of_insert {seen : Db} (admitted : schema.applyWrites db [.insert row] = some seen) :
    db.get row.key = none := by
  simp only [Schema.applyWrites] at admitted
  split at admitted
  next ok => exact absent_of_admits ok
  · cases admitted

theorem valid_of_admits (admitted : schema.admits db (.insert row) = true) :
    db.valid row = true := by
  simp only [Schema.admits, Bool.and_eq_true] at admitted
  exact admitted.2

theorem insertJob_ok {j : Job} (ok : Tx.exec schema (insertRow (.job j)) db = .ok (u, db')) :
    db.jobs.find? j.id = none ∧ db' = { db with jobs := db.jobs.put j } := by
  obtain ⟨admitted, rfl⟩ := insertRow_ok ok
  exact ⟨Option.map_eq_none_iff.mp (absent_of_admits admitted), rfl⟩

theorem insertAttempt_ok {a : Attempt}
    (ok : Tx.exec schema (insertRow (.attempt a)) db = .ok (u, db')) :
    db.attempts.find? a.id = none ∧ db.hasJob a.jobID = true ∧ db.hasNode a.nodeID = true ∧
      db' = { db with attempts := db.attempts.put a } := by
  obtain ⟨admitted, rfl⟩ := insertRow_ok ok
  have valid := valid_of_admits admitted
  simp only [Db.valid, Bool.and_eq_true] at valid
  exact ⟨Option.map_eq_none_iff.mp (absent_of_admits admitted), valid.1.1, valid.1.2, rfl⟩

theorem require_ok [Decidable c]
    (ok : Tx.exec schema (require c e) db = .ok (u, db')) : c ∧ db' = db := by
  unfold require at ok
  split at ok
  next holds => exact ⟨holds, (exec_done_ok ok).2⟩
  · cases ok

theorem updateJobs_ok {p : Job → Bool} {f : Job → Job}
    (ok : Tx.exec schema (updateJobs p f) db = .ok (n, db')) : n = (db.jobs.rows.filter p).length ∧
      db' = { db with jobs := db.jobs.putAll (db.jobs.updated p f) } :=
  updateRows_ok (fun db t => { db with jobs := t }) (fun _ => rfl) (fun _ _ => rfl)
    (fun _ _ _ => rfl) (fun _ _ => rfl) ok

theorem updateNodes_ok {p : Node → Bool} {f : Node → Node}
    (ok : Tx.exec schema (updateNodes p f) db = .ok (n, db')) :
    db' = { db with nodes := db.nodes.putAll (db.nodes.updated p f) } :=
  (updateRows_ok (fun db t => { db with nodes := t }) (fun _ => rfl) (fun _ _ => rfl)
    (fun _ _ _ => rfl) (fun _ _ => rfl) ok).2

theorem updateSessions_ok {p : NodeSession → Bool} {f : NodeSession → NodeSession}
    (ok : Tx.exec schema (updateSessions p f) db = .ok (n, db')) :
    db' = { db with sessions := db.sessions.putAll (db.sessions.updated p f) } :=
  (updateRows_ok (fun db t => { db with sessions := t }) (fun _ => rfl) (fun _ _ => rfl)
    (fun _ _ _ => rfl) (fun _ _ => rfl) ok).2

theorem updateAttempts_ok {p : Attempt → Bool} {f : Attempt → Attempt}
    (ok : Tx.exec schema (updateAttempts p f) db = .ok (n, db')) :
    n = (db.attempts.rows.filter p).length ∧
      db' = { db with attempts := db.attempts.putAll (db.attempts.updated p f) } :=
  updateRows_ok (fun db t => { db with attempts := t }) (fun _ => rfl) (fun _ _ => rfl)
    (fun _ _ _ => rfl) (fun _ _ => rfl) ok

theorem updateTransactions_ok {p : LedgerTransaction → Bool}
    {f : LedgerTransaction → LedgerTransaction}
    (ok : Tx.exec schema (updateTransactions p f) db = .ok (n, db')) :
    n = (db.transactions.rows.filter p).length ∧
      db' = { db with transactions := db.transactions.putAll (db.transactions.updated p f) } :=
  updateRows_ok (fun db t => { db with transactions := t }) (fun _ => rfl) (fun _ _ => rfl)
    (fun _ _ _ => rfl) (fun _ _ => rfl) ok

end

/-- `SELECT … FOR UPDATE` of one row: the row is written back as it is, which locks it. -/
def selectForUpdate {ρ : Type} (q : Db → Option ρ) (row : ρ → Row) : SqlTx (Option ρ) :=
  Tx.write (fun db => ((q db).map fun r => Write.update (row r)).toList) q

theorem selectForUpdate_ok {q : Db → Option ρ} {row : ρ → Row} {found : Option ρ}
    (same : ∀ r, q db = some r → db.put (row r) = db)
    (ok : Tx.exec schema (selectForUpdate q row) db = .ok (found, db')) :
    found = q db ∧ db' = db := by
  obtain ⟨result, -, after⟩ := exec_write_ok ok
  refine ⟨result, after.trans ?_⟩
  cases read : q db with
  | none => rfl
  | some r => exact same r read

/-! ### Which tables a transaction writes -/

def Row.table (row : Row) : TableName := row.key.table

def WritesTo {α : Type} (tables : List TableName) (t : SqlTx α) : Prop :=
  Tx.Writes (fun row => row.table ∈ tables) t

theorem WritesTo.bind {β : Type} {t : SqlTx α} {f : α → SqlTx β} (first : WritesTo tables t)
    (rest : ∀ a, WritesTo tables (f a)) : WritesTo tables (t >>= f) :=
  Tx.Writes.bind first rest

theorem WritesTo.mono {more : List TableName} {t : SqlTx α} (writes : WritesTo tables t)
    (all : tables ⊆ more) : WritesTo more t :=
  Tx.Writes.mono writes fun _ member => all member

theorem writesTo_pure {a : α} : WritesTo tables (pure a : SqlTx α) := trivial

theorem writesTo_fail : WritesTo tables (Tx.fail e : SqlTx α) := trivial

theorem writesTo_select {q : Db → α} : WritesTo tables (Tx.select q) := writes_select

theorem writesTo_insertRow {row : Row} (member : row.table ∈ tables) :
    WritesTo tables (insertRow row) := by
  apply writes_write
  intro db w written
  rw [mem_singleton] at written
  exact written ▸ member

theorem writesTo_require [Decidable c] : WritesTo tables (require c e) := by
  unfold require
  split <;> trivial

theorem writesTo_updateRows {key : ρ → κ} {table : Db → Table key} {row : ρ → Row} {p : ρ → Bool}
    {f : ρ → ρ} (member : ∀ r, (row r).table ∈ tables) :
    WritesTo tables (updateRows table row p f) := by
  apply writes_write
  intro db w written
  obtain ⟨r, -, rfl⟩ := mem_map.mp written
  exact member r

theorem writesTo_selectForUpdate {q : Db → Option ρ} {row : ρ → Row}
    (member : ∀ r, (row r).table ∈ tables) : WritesTo tables (selectForUpdate q row) := by
  apply writes_write
  intro db w written
  obtain ⟨r, -, rfl⟩ := Option.map_eq_some_iff.mp (Option.mem_toList.mp written)
  exact member r

section

variable {tables : List TableName}

theorem writesTo_updateJobs {p : Job → Bool} {f : Job → Job} (member : .jobs ∈ tables) :
    WritesTo tables (updateJobs p f) := writesTo_updateRows fun _ => member

theorem writesTo_updateAttempts {p : Attempt → Bool} {f : Attempt → Attempt}
    (member : .attempts ∈ tables) : WritesTo tables (updateAttempts p f) :=
  writesTo_updateRows fun _ => member

theorem writesTo_updateResults {p : JobResult → Bool} {f : JobResult → JobResult}
    (member : .results ∈ tables) : WritesTo tables (updateResults p f) :=
  writesTo_updateRows fun _ => member

theorem writesTo_updateTransactions {p : LedgerTransaction → Bool}
    {f : LedgerTransaction → LedgerTransaction} (member : .transactions ∈ tables) :
    WritesTo tables (updateTransactions p f) := writesTo_updateRows fun _ => member

theorem writesTo_updateReputation {p : NodeReputation → Bool} {f : NodeReputation → NodeReputation}
    (member : .reputation ∈ tables) : WritesTo tables (updateReputation p f) :=
  writesTo_updateRows fun _ => member

theorem writesTo_updateNodes {p : Node → Bool} {f : Node → Node} (member : .nodes ∈ tables) :
    WritesTo tables (updateNodes p f) := writesTo_updateRows fun _ => member

theorem writesTo_updateSessions {p : NodeSession → Bool} {f : NodeSession → NodeSession}
    (member : .sessions ∈ tables) : WritesTo tables (updateSessions p f) :=
  writesTo_updateRows fun _ => member

end

section

variable {tables : List TableName} {t : SqlTx α} {a : α}

/-- What is read of the table is the same after a transaction that does not write to it. -/
abbrev Frames {γ : Type} (name : TableName) (g : Db → γ) : Prop :=
  ∀ {α : Type} {tables : List TableName} {t : SqlTx α} {db db' : Db} {a : α}, WritesTo tables t →
    name ∉ tables → Tx.exec schema t db = .ok (a, db') → g db' = g db

theorem frames_of_put {γ : Type} {name : TableName} {g : Db → γ}
    (keep : ∀ db row, row.table ≠ name → g (db.put row) = g db) : Frames name g :=
  fun writes untouched => Tx.Writes.frame writes
    fun db row member => keep db row fun same => untouched (same ▸ member)

theorem WritesTo.jobs : Frames .jobs Db.jobs :=
  frames_of_put fun _ row h => by cases row <;> first | rfl | exact absurd rfl h

theorem WritesTo.attempts : Frames .attempts Db.attempts :=
  frames_of_put fun _ row h => by cases row <;> first | rfl | exact absurd rfl h

theorem WritesTo.transactions : Frames .transactions Db.transactions :=
  frames_of_put fun _ row h => by cases row <;> first | rfl | exact absurd rfl h

theorem WritesTo.entries : Frames .entries Db.entries :=
  frames_of_put fun _ row h => by cases row <;> first | rfl | exact absurd rfl h

theorem WritesTo.accounts : Frames .accounts Db.accounts :=
  frames_of_put fun _ row h => by cases row <;> first | rfl | exact absurd rfl h

theorem WritesTo.holds : Frames .holds Db.holds :=
  frames_of_put fun _ row h => by cases row <;> first | rfl | exact absurd rfl h

theorem WritesTo.reputation : Frames .reputation Db.reputation :=
  frames_of_put fun _ row h => by cases row <;> first | rfl | exact absurd rfl h

theorem WritesTo.nodes : Frames .nodes Db.nodes :=
  frames_of_put fun _ row h => by cases row <;> first | rfl | exact absurd rfl h

theorem WritesTo.sessions : Frames .sessions Db.sessions :=
  frames_of_put fun _ row h => by cases row <;> first | rfl | exact absurd rfl h

theorem WritesTo.idempotency : Frames .idempotency Db.idempotency :=
  frames_of_put fun _ row h => by cases row <;> first | rfl | exact absurd rfl h

section

variable (writes : WritesTo tables t)
include writes

theorem WritesTo.maps_jobs (untouched : .jobs ∉ tables) : Tx.Maps schema Db.jobs id t :=
  maps_id_of_frame fun ok => writes.jobs untouched ok

theorem WritesTo.maps_attempts (untouched : .attempts ∉ tables) : Tx.Maps schema Db.attempts id t :=
  maps_id_of_frame fun ok => writes.attempts untouched ok

theorem WritesTo.maps_nodes (untouched : .nodes ∉ tables) : Tx.Maps schema Db.nodes id t :=
  maps_id_of_frame fun ok => writes.nodes untouched ok

theorem WritesTo.maps_sessions (untouched : .sessions ∉ tables) : Tx.Maps schema Db.sessions id t :=
  maps_id_of_frame fun ok => writes.sessions untouched ok

end

theorem maps_updateNodes {p : Node → Bool} {f : Node → Node}
    (keep : ∀ n, p n = true → (f n).id = n.id) :
    Tx.Maps schema Db.nodes (Table.updateWhere p f) (updateNodes p f) := by
  intro db db' n ok id
  rw [updateNodes_ok ok]
  exact find?_putAll_updated db.nodes p f keep id

theorem maps_updateSessions {p : NodeSession → Bool} {f : NodeSession → NodeSession}
    (keep : ∀ s, p s = true → (f s).id = s.id) :
    Tx.Maps schema Db.sessions (Table.updateWhere p f) (updateSessions p f) := by
  intro db db' n ok id
  rw [updateSessions_ok ok]
  exact find?_putAll_updated db.sessions p f keep id

theorem maps_updateJobs {p : Job → Bool} {f : Job → Job}
    (keep : ∀ j, p j = true → (f j).id = j.id) :
    Tx.Maps schema Db.jobs (Table.updateWhere p f) (updateJobs p f) := by
  intro db db' n ok id
  rw [(updateJobs_ok ok).2]
  exact find?_putAll_updated db.jobs p f keep id

theorem maps_updateTransactions {p : LedgerTransaction → Bool}
    {f : LedgerTransaction → LedgerTransaction} (keep : ∀ t, p t = true → (f t).id = t.id) :
    Tx.Maps schema Db.transactions (Table.updateWhere p f) (updateTransactions p f) := by
  intro db db' n ok id
  rw [(updateTransactions_ok ok).2]
  exact find?_putAll_updated db.transactions p f keep id

theorem maps_updateAttempts {p : Attempt → Bool} {f : Attempt → Attempt}
    (keep : ∀ a, p a = true → (f a).id = a.id) :
    Tx.Maps schema Db.attempts (Table.updateWhere p f) (updateAttempts p f) := by
  intro db db' n ok id
  rw [(updateAttempts_ok ok).2]
  exact find?_putAll_updated db.attempts p f keep id

theorem maps_require [DecidableEq κ] {key : ρ → κ} {table : Db → Table key}
    [Decidable c] : Tx.Maps schema table id (require c e) :=
  maps_id_of_frame fun ok => by rw [(require_ok ok).2]

end

end Thirdshift
