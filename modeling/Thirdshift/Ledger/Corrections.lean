import Thirdshift.Ledger.Balance

/-!
# Corrections and credit holds

The ledger and the credit holds record the same money twice. A reversal writes ledger rows and no
hold; a void writes the holds of its batch and, for a paid batch, a reversal. What each does to the
agreement of the two is worked out here, for any state they start from.
-/

namespace Thirdshift

open Foundation List Table Tx Deployment Ledger HostCreditHold Db

variable {db db' : Db} {u : Unit} {ids : Nat → String} {transactionID : String}

def LedgerAccount.isHost (nodeID : NodeID) (accountType : String) (a : LedgerAccount) : Bool :=
  a.ownerType = .host && a.ownerID = nodeID && a.accountType = accountType

def holdSum (hs : List HostCreditHold) : Int := (hs.map amountMicrodollars).sum

namespace Db

def hostAccount (db : Db) (nodeID : NodeID) (accountType accountID : String) : Bool :=
  (db.accounts.find? accountID).any (LedgerAccount.isHost nodeID accountType)

def postedBalance (db : Db) (nodeID : NodeID) (accountType : String) : Int :=
  entrySum (db.entries.rows.filter fun e =>
    (db.transactions.find? e.transactionID).any (fun t => t.status = .posted) &&
    db.hostAccount nodeID accountType e.accountID)

def held (db : Db) (nodeID : NodeID) (states : HoldState → Bool) : Int :=
  holdSum (db.holds.rows.filter fun h => h.nodeID = nodeID && states h.state)

end Db

/-- The states that count against a credit account. -/
def countedStates (accountType : String) : HoldState → Bool
  | .pending => accountType = accountHostPendingCredit
  | .available | .payoutPending => accountType = accountHostAvailableCredit
  | _ => false

def creditAccounts : List String := [accountHostPendingCredit, accountHostAvailableCredit]

namespace Db

def InStepAt (db : Db) (nodeID : NodeID) : Prop :=
  ∀ kind ∈ creditAccounts, -db.postedBalance nodeID kind = db.held nodeID (countedStates kind)
  deriving Decidable

def InStep (db : Db) : Prop := ∀ nodeID, db.InStepAt nodeID

def creditedNodes (db : Db) : List NodeID :=
  db.holds.rows.map nodeID ++ db.accounts.rows.map LedgerAccount.ownerID

theorem inStep_iff_credited : db.InStep ↔ ∀ nodeID ∈ db.creditedNodes, db.InStepAt nodeID := by
  refine ⟨fun all nodeID _ => all nodeID, fun all nodeID => ?_⟩
  by_cases known : nodeID ∈ db.creditedNodes
  · exact all nodeID known
  · intro kind _
    simp only [creditedNodes, mem_append, mem_map, not_or, not_exists, not_and] at known
    have noEntries : db.entries.rows.filter (fun e =>
        (db.transactions.find? e.transactionID).any (fun t => t.status = .posted) &&
        db.hostAccount nodeID kind e.accountID) = [] := by
      rw [filter_eq_nil_iff]
      intro e _ counted
      simp only [Bool.and_eq_true, hostAccount, Option.any_eq_true, LedgerAccount.isHost,
        decide_eq_true_eq] at counted
      obtain ⟨-, a, found, ⟨-, owner⟩, -⟩ := counted
      exact known.2 a (mem_of_find? found) owner
    have noHolds : db.holds.rows.filter (fun h => h.nodeID = nodeID && countedStates kind h.state) =
        [] := by
      rw [filter_eq_nil_iff]
      intro h member counted
      simp only [Bool.and_eq_true, decide_eq_true_eq] at counted
      exact known.1 h member counted.1
    simp [postedBalance, held, noEntries, noHolds, entrySum, holdSum]

instance (db : Db) : Decidable db.InStep := decidable_of_iff _ inStep_iff_credited.symm

end Db

/-! ### The ledger side -/

/-- What reversing a transaction adds to a node's account. -/
def Db.reversedNet (db : Db) (transactionID : String) (nodeID : NodeID) (kind : String) : Int :=
  ((((entriesOf db transactionID).map reversed).filter fun leg =>
    db.hostAccount nodeID kind leg.1).map Prod.snd).sum

theorem Ledger.Recorded.postedBalance {txID : String} {es : List LedgerEntry}
    (recorded : Recorded db db' txID es) (filed : db.Filed) (accounts : db'.accounts = db.accounts)
    (nodeID : NodeID) (kind : String) : db'.postedBalance nodeID kind =
      db.postedBalance nodeID kind + (((es.map leg).filter fun leg =>
        db.hostAccount nodeID kind leg.1).map Prod.snd).sum := by
  have sameAccount : ∀ id, db'.hostAccount nodeID kind id = db.hostAccount nodeID kind id := by
    intro id
    rw [hostAccount, hostAccount, accounts]
  have old : db.entries.rows.filter (fun e =>
      (db'.transactions.find? e.transactionID).any (fun t => t.status = .posted) &&
      db'.hostAccount nodeID kind e.accountID) = db.entries.rows.filter (fun e =>
      (db.transactions.find? e.transactionID).any (fun t => t.status = .posted) &&
      db.hostAccount nodeID kind e.accountID) := by
    refine filter_congr fun e member => ?_
    have other : e.transactionID ≠ txID := by
      intro here
      have belongs := filed.belongs e member
      simp [here, recorded.fresh] at belongs
    rw [recorded.others _ other, sameAccount]
  have new : es.filter (fun e =>
      (db'.transactions.find? e.transactionID).any (fun t => t.status = .posted) &&
      db'.hostAccount nodeID kind e.accountID) =
      es.filter fun e => db.hostAccount nodeID kind e.accountID := by
    refine filter_congr fun e member => ?_
    obtain ⟨t, found, posted⟩ := recorded.posted
    rw [recorded.ofTransaction e member, found, sameAccount]
    simp [posted]
  rw [Db.postedBalance, recorded.entries, filter_append, old, new, Db.postedBalance]
  simp only [entrySum, map_append, sum_append, filter_map, map_map]
  rfl

theorem Db.postedBalance_congr (entries : db'.entries = db.entries)
    (transactions : db'.transactions = db.transactions) (accounts : db'.accounts = db.accounts)
    (nodeID : NodeID) (kind : String) :
    db'.postedBalance nodeID kind = db.postedBalance nodeID kind := by
  rw [postedBalance, postedBalance, entries, transactions]
  simp only [hostAccount, accounts]

/-! ### The side of the holds -/

namespace Ledger

variable {f : HostCreditHold → HostCreditHold} {p : HostCreditHold → Bool}

theorem holds_updateEach (keep : ∀ h, (f h).id = h.id) {chosen : List String}
    (nodup : chosen.Nodup)
    (ok : Tx.exec schema (updateEach findHold .hold p f chosen) db = .ok (u, db')) :
    db'.holds.rows = db.holds.rows.map fun h => if h.id ∈ chosen ∧ p h = true then f h else h := by
  induction chosen generalizing db with
  | nil =>
    rw [(exec_done_ok ok).2]
    simp
  | cons id rest ih =>
    obtain ⟨_, mid, written, later⟩ := exec_bind_ok ok
    rw [ih (nodup_cons.mp nodup).2 later]
    obtain ⟨-, -, after⟩ := exec_write_ok written
    cases found : (findHold db id).filter p with
    | none =>
      -- the row does not qualify any more, so it is passed over
      have unchanged : mid = db := by rw [after, found]; rfl
      rw [unchanged]
      refine map_congr_left fun h member => ?_
      by_cases here : h.id = id
      · have present : findHold db id = some h := here ▸ find?_of_mem member
        rw [present, Option.filter_some] at found
        have fails : p h = false := by
          by_contra holds
          simp [Bool.not_eq_false] at holds
          simp [holds] at found
        simp [fails]
      · simp [here]
    | some r =>
      rw [found] at after
      obtain ⟨present, qualifies⟩ := Option.filter_eq_some_iff.mp found
      have key : r.id = id := key_of_find? present
      -- locking the row writes it as it is, which changes nothing
      have holds : mid.holds = db.holds.put (f r) := by
        have first : mid.holds = (db.holds.put r).put (f r) := by rw [after]; rfl
        have same : db.holds.put r = db.holds := put_self (key.symm ▸ present)
        rw [first, same]
      have there : db.holds.find? (f r).id = some r := by
        rw [keep, key]
        exact present
      rw [holds, rows_put_present there, map_map]
      refine map_congr_left fun h member => ?_
      by_cases here : h.id = id
      · have same : h = r := eq_of_key member (mem_of_find? present) (here.trans key.symm)
        subst same
        -- the rest does not come back to this row
        have gone : (f h).id ∉ rest := by
          rw [keep, here]
          exact (nodup_cons.mp nodup).1
        simp only [Function.comp_apply, keep, if_true, here, mem_cons, true_or, true_and,
          qualifies]
        rw [keep, here] at gone
        simp [gone]
      · have other : h.id ≠ (f r).id := by rwa [keep, key]
        simp [other, here]

theorem holds_updateHolds (keep : ∀ h, (f h).id = h.id)
    (ok : Tx.exec schema (updateHolds p f) db = .ok (u, db')) :
    db'.holds.rows = db.holds.rows.map (Table.updateWhere p f) := by
  obtain ⟨chosen, _, read, updated⟩ := exec_bind_ok ok
  obtain ⟨rfl, same⟩ := exec_select_ok read
  rw [same] at updated
  have nodup : ((db.holds.rows.filter p).map HostCreditHold.id).Nodup :=
    db.holds.nodup.sublist (filter_sublist.map _)
  rw [holds_updateEach keep nodup updated]
  refine map_congr_left fun h member => ?_
  unfold Table.updateWhere
  by_cases qualifies : p h = true
  · have chosen : h.id ∈ (db.holds.rows.filter p).map HostCreditHold.id :=
      mem_map_of_mem (mem_filter.mpr ⟨member, qualifies⟩)
    simp [qualifies, chosen]
  · simp [qualifies]

theorem writesTo_reverseTransaction {now : Time} :
    WritesTo [.transactions, .entries] (reverseTransaction ids transactionID now) := by
  have reversals : ∀ (original : List LedgerEntry) (ids : Nat → String) (reversalID : String),
      WritesTo [.transactions, .entries] (insertReversals reversalID ids original) := by
    intro original
    induction original with
    | nil => exact fun _ _ => writesTo_pure
    | cons e es ih =>
      exact fun _ _ => (writesTo_insertRow (mem_cons_of_mem _ mem_cons_self)).bind
        fun _ => ih _ _
  refine WritesTo.bind (writes_write fun db w written => ?_) fun _ =>
    writesTo_select.bind fun _ => (reversals _ _ _).bind fun _ => writesTo_require.bind fun _ =>
      (writesTo_updateTransactions (by simp)).bind fun _ => writesTo_pure
  split at written
  · rw [mem_singleton.mp written]
    exact mem_cons_self
  · cases written

end Ledger

theorem WritesTo.postedBalance {α : Type} {tables : List TableName} {t : SqlTx α} {a : α}
    (writes : WritesTo tables t) (entries : .entries ∉ tables)
    (transactions : .transactions ∉ tables) (accounts : .accounts ∉ tables)
    (ok : Tx.exec schema t db = .ok (a, db')) (nodeID : NodeID) (kind : String) :
    db'.postedBalance nodeID kind = db.postedBalance nodeID kind :=
  postedBalance_congr (writes.entries entries ok) (writes.transactions transactions ok)
    (writes.accounts accounts ok) nodeID kind

section

variable {q r : HostCreditHold → Bool} {g : HostCreditHold → HostCreditHold}

section

variable (amount : ∀ h, (g h).amountMicrodollars = h.amountMicrodollars) (hs : List HostCreditHold)
include amount hs

theorem holdSum_map : holdSum (hs.map g) = holdSum hs := by
  simp only [holdSum, map_map]
  congr 2
  exact funext amount

theorem holdSum_filter_map :
    holdSum ((hs.map g).filter q) = holdSum (hs.filter fun h => q (g h)) := by
  rw [filter_map, holdSum_map amount]
  rfl

end

theorem holdSum_filter_split (hs : List HostCreditHold) : holdSum (hs.filter q) =
      holdSum (hs.filter fun h => q h && r h) + holdSum (hs.filter fun h => q h && !r h) := by
  induction hs with
  | nil => rfl
  | cons h hs ih =>
    simp only [holdSum] at ih
    cases first : q h <;> cases second : r h <;>
      simp only [holdSum, filter_cons, first, second, Bool.and_self, Bool.and_true,
        Bool.and_false, Bool.not_true, Bool.not_false, if_true, if_false, map_cons,
        sum_cons, Bool.false_eq_true, ih] <;> omega

end

/-! ### What a correction does to both -/

namespace Db

/-- What a void adds to a node's account: the reversal of the payout on record. -/
def payoutNet (db : Db) (batchID : String) (nodeID : NodeID) (kind : String) : Int :=
  ((payoutTransaction batchID db).map fun p => db.reversedNet p nodeID kind).getD 0

/-- The part of a node's holds in some states that is in the batch. -/
def heldIn (db : Db) (batchID : String) (nodeID : NodeID) (states : HoldState → Bool) : Int :=
  holdSum (db.holds.rows.filter fun h =>
    (h.nodeID = nodeID && states h.state) && h.payoutBatchID = some batchID)

end Db

namespace Ledger

variable {batchID : String} {now : Time}

theorem reverseTransaction_postedBalance {reversalID : String} (filed : db.Filed)
    (new : db.transactions.find? (ids 0) = none)
    (ok : Tx.exec schema (reverseTransaction ids transactionID now) db = .ok (reversalID, db'))
    (nodeID : NodeID) (kind : String) : db'.postedBalance nodeID kind =
      db.postedBalance nodeID kind + db.reversedNet transactionID nodeID kind := by
  obtain ⟨-, es, recorded, legs⟩ := recorded_reverseTransaction new ok
  have accounts := writesTo_reverseTransaction.accounts (by simp) ok
  rw [recorded.postedBalance filed accounts, legs]
  rfl

theorem releaseReserved_held (ok : Tx.exec schema (releaseReserved batchID) db = .ok (u, db'))
    (nodeID : NodeID) (kind : String) :
    db'.held nodeID (countedStates kind) = db.held nodeID (countedStates kind) := by
  have rows := holds_updateHolds (by exact fun _ => rfl) ok
  rw [held, rows, holdSum_filter_map, held]
  · congr 1
    refine filter_congr fun h _ => ?_
    unfold Table.updateWhere
    split
    next reserved =>
      simp only [Bool.and_eq_true, decide_eq_true_eq] at reserved
      simp [reserved.2, countedStates]
    · rfl
  · intro h
    unfold Table.updateWhere
    split <;> rfl

theorem reverseHolds_held (ok : Tx.exec schema (updateHolds (fun h => h.payoutBatchID = some batchID)
      fun h => { h with state := .reversed }) db = .ok (u, db')) (nodeID : NodeID) (kind : String) :
    db'.held nodeID (countedStates kind) =
      db.held nodeID (countedStates kind) - db.heldIn batchID nodeID (countedStates kind) := by
  have amount : ∀ h : HostCreditHold, (Table.updateWhere
      (fun h => decide (h.payoutBatchID = some batchID))
      (fun h : HostCreditHold => { h with state := .reversed }) h).amountMicrodollars =
        h.amountMicrodollars := by
    intro h
    unfold Table.updateWhere
    split <;> rfl
  have kept : db'.held nodeID (countedStates kind) = holdSum (db.holds.rows.filter fun h =>
      (h.nodeID = nodeID && countedStates kind h.state) && !(h.payoutBatchID = some batchID)) := by
    have rows := holds_updateHolds (by exact fun _ => rfl) ok
    rw [held, rows, holdSum_filter_map amount]
    congr 1
    refine filter_congr fun h _ => ?_
    unfold Table.updateWhere
    by_cases inBatch : h.payoutBatchID = some batchID <;> simp [inBatch, countedStates]
  have split := holdSum_filter_split (q := fun h => h.nodeID = nodeID && countedStates kind h.state)
    (r := fun h => h.payoutBatchID = some batchID) db.holds.rows
  rw [kept, held, heldIn, split]
  omega

section

variable (filed : db.Filed) (new : db.transactions.find? (ids 0) = none)
include filed new

theorem reversePayout_postedBalance
    (ok : Tx.exec schema (reversePayout ids batchID now) db = .ok (u, db')) (nodeID : NodeID)
    (kind : String) : db'.postedBalance nodeID kind =
      db.postedBalance nodeID kind + db.payoutNet batchID nodeID kind ∧ db'.holds = db.holds := by
  obtain ⟨payout, _, selected, rest⟩ := exec_bind_ok ok
  obtain ⟨chosen, same⟩ := exec_select_ok selected
  rw [same] at rest
  rw [payoutNet, ← chosen]
  cases payout with
  | none =>
    rw [(exec_done_ok rest).2]
    exact ⟨(Int.add_zero _).symm, rfl⟩
  | some p =>
    obtain ⟨_, mid, reversed, nothing⟩ := exec_bind_ok rest
    rw [(exec_done_ok nothing).2]
    exact ⟨reverseTransaction_postedBalance filed new reversed nodeID kind,
      writesTo_reverseTransaction.holds (by simp) reversed⟩

theorem voidPaid_step
    (ok : Tx.exec schema (voidPaid ids batchID now) db = .ok (u, db')) (nodeID : NodeID)
    (kind : String) : db'.postedBalance nodeID kind =
      db.postedBalance nodeID kind + db.payoutNet batchID nodeID kind ∧
    db'.held nodeID (countedStates kind) =
      db.held nodeID (countedStates kind) - db.heldIn batchID nodeID (countedStates kind) := by
  obtain ⟨_, mid, undone, updated⟩ := exec_bind_ok ok
  obtain ⟨posted, holds⟩ := reversePayout_postedBalance filed new undone nodeID kind
  constructor
  · rw [writesTo_updateHolds.postedBalance (by simp) (by simp) (by simp) updated, posted]
  · rw [reverseHolds_held updated, held, heldIn, holds]
    rfl

theorem voidPayoutBatch_step
    (ok : Tx.exec schema (voidPayoutBatch ids batchID now) db = .ok (u, db')) :
    ∃ batch, db.batches.find? batchID = some batch ∧ ∀ nodeID kind,
      db'.postedBalance nodeID kind = db.postedBalance nodeID kind +
        (if batch.status = .paid then db.payoutNet batchID nodeID kind else 0) ∧
      db'.held nodeID (countedStates kind) = db.held nodeID (countedStates kind) -
        (if batch.status = .paid then db.heldIn batchID nodeID (countedStates kind) else 0) := by
  obtain ⟨found, _, locked, rest₁⟩ := exec_bind_ok ok
  obtain ⟨read, rfl⟩ := lockBatch_ok locked
  cases found with
  | none => cases rest₁
  | some batch =>
    refine ⟨batch, read, fun nodeID kind => ?_⟩
    simp only at rest₁
    split at rest₁
    next void =>
      -- nothing is left to undo
      rw [(exec_done_ok rest₁).2]
      simp [void]
    next live =>
      obtain ⟨_, undone, ran, rest₂⟩ := exec_bind_ok rest₁
      obtain ⟨_, last, voided, closed⟩ := exec_bind_ok rest₂
      -- marking the items and the batch as void moves neither side
      have books : db'.postedBalance nodeID kind = undone.postedBalance nodeID kind := by
        rw [writesTo_updateBatch.postedBalance (by simp) (by simp) (by simp) closed,
          writesTo_updateItems.postedBalance (by simp) (by simp) (by simp) voided]
      have credits : db'.holds = undone.holds := by
        rw [writesTo_updateBatch.holds (by simp) closed, writesTo_updateItems.holds (by simp) voided]
      rw [books, held, credits]
      unfold undoBatch at ran
      split at ran
      next paid =>
        simp only [paid, if_true]
        exact voidPaid_step filed new ran nodeID kind
      next unpaid =>
        simp only [unpaid, if_false]
        have onHolds := releaseReserved_held ran nodeID kind
        have onLedger := writesTo_updateHolds.postedBalance (by simp) (by simp) (by simp) ran nodeID kind
        rw [held] at onHolds
        rw [onLedger, onHolds]
        simp

end

end Ledger

/-! ### Corrections -/

inductive Correction
  | reverseTransaction (transactionID : String) (now : Time)
  | voidPayoutBatch (batchID : String) (now : Time)

namespace Correction

def tx (ids : Nat → String) : Correction → SqlTx Unit
  | .reverseTransaction transactionID now =>
    Ledger.reverseTransaction ids transactionID now >>= fun _ => pure ()
  | .voidPayoutBatch batchID now => Ledger.voidPayoutBatch ids batchID now

/-- The correction moves no node's credit on one side only: a reversed transaction nets to nothing
on every credit account, and what a paid batch put on an account is what its holds still count
for. -/
def KeepsStep (db : Db) : Correction → Prop
  | .reverseTransaction transactionID _ =>
    ∀ nodeID, ∀ kind ∈ creditAccounts, db.reversedNet transactionID nodeID kind = 0
  | .voidPayoutBatch batchID _ => ∀ batch, db.batches.find? batchID = some batch →
    batch.status = .paid → ∀ nodeID, ∀ kind ∈ creditAccounts,
      db.payoutNet batchID nodeID kind = db.heldIn batchID nodeID (countedStates kind)

end Correction

/-- Of books and holds that are in step, a correction keeps them so exactly when it satisfies
`KeepsStep`. -/
theorem correction_keeps_step_iff {ids : Nat → String} {correction : Correction} {db db' : Db}
    {u : Unit} (filed : db.Filed) (new : db.transactions.find? (ids 0) = none) (inStep : db.InStep)
    (ok : Tx.exec schema (correction.tx ids) db = .ok (u, db')) :
    db'.InStep ↔ correction.KeepsStep db := by
  cases correction with
  | reverseTransaction transactionID now =>
    obtain ⟨reversalID, _, reversed, rest⟩ := exec_bind_ok ok
    obtain ⟨-, rfl⟩ := exec_done_ok rest
    have holds := Ledger.writesTo_reverseTransaction.holds (by simp) reversed
    refine forall_congr' fun nodeID => forall₂_congr fun kind member => ?_
    have before := inStep nodeID kind member
    have posted := Ledger.reverseTransaction_postedBalance filed new reversed nodeID kind
    rw [posted, held, holds, ← held]
    omega
  | voidPayoutBatch batchID now =>
    obtain ⟨batch, found, moved⟩ := Ledger.voidPayoutBatch_step filed new ok
    have only : (Correction.voidPayoutBatch batchID now).KeepsStep db ↔ (batch.status = .paid →
        ∀ nodeID, ∀ kind ∈ creditAccounts,
          db.payoutNet batchID nodeID kind = db.heldIn batchID nodeID (countedStates kind)) := by
      constructor
      · exact fun all => all batch found
      · intro all other sameBatch
        cases found.symm.trans sameBatch
        exact all
    rw [only]
    by_cases paid : batch.status = .paid
    · rw [imp_iff_right paid]
      refine forall_congr' fun nodeID => forall₂_congr fun kind member => ?_
      have before := inStep nodeID kind member
      obtain ⟨posted, held⟩ := moved nodeID kind
      rw [if_pos paid] at posted held
      rw [posted, held]
      omega
    · refine iff_of_true (fun nodeID kind member => ?_) fun isPaid => absurd isPaid paid
      have before := inStep nodeID kind member
      obtain ⟨posted, held⟩ := moved nodeID kind
      rw [if_neg paid] at posted held
      rw [posted, held]
      omega

namespace Deployment

def accepted : SqlTx Unit := do
  underway
  (posting 0).tx idle.ids

/-- The credit is released a day later and taken into the batch `b0`. -/
def reserved : SqlTx Unit := do
  accepted
  let _ ← promoteAvailableCredits (drawing "p").ids (seconds 86401)
  let _ ← createPayoutBatch (drawing "b").ids ""
  pure ()

def paidOut : SqlTx Unit := do
  reserved
  let _ ← exportPayoutBatch "b0" (seconds 86402)
  confirmPayoutBatch (drawing "c").ids "b0" [.paid "n1" 1] (seconds 86403)

def inStepAround (before : SqlTx Unit) (correction : Correction) : Option (Bool × Bool) := do
  let last ← (Tx.exec schema before start.db).toOption
  let after ← (Tx.exec schema (correction.tx (drawing "r").ids) last.2).toOption
  pure (decide last.2.InStep, decide after.2.InStep)

end Deployment

/-- A reversed acceptance leaves its hold pending, and the void of a paid batch puts its payout back
on the available credit account while the holds are marked reversed. -/
theorem corrections_out_of_step :
    inStepAround accepted (.reverseTransaction "x0" 20) = some (true, false) ∧
    inStepAround paidOut (.voidPayoutBatch "b0" (seconds 86404)) =
      some (true, false) := by
  decide +kernel

theorem correction_keeps_step_iff_draft : ∃ db db' : Db, db.Filed ∧
    db.transactions.find? "r0" = none ∧ db.InStep ∧
    Tx.exec schema ((Correction.voidPayoutBatch "b0" 30).tx (drawing "r").ids) db =
      .ok ((), db') ∧
    (db'.InStep ↔ (Correction.voidPayoutBatch "b0" 30).KeepsStep db) := by
  have runs : ((Tx.exec schema reserved start.db).toOption.any fun last =>
      last.2.entries.rows.all (fun e => (last.2.transactions.find? e.transactionID).isSome) &&
      last.2.entries.rows.all (fun e => isInt8 e.amountMicrodollars) &&
      (last.2.transactions.find? "r0").isNone && decide last.2.InStep &&
      (Tx.exec schema ((Correction.voidPayoutBatch "b0" 30).tx (drawing "r").ids)
        last.2).toOption.any fun _ => true) = true := by decide +kernel
  obtain ⟨⟨_, db⟩, -, checks⟩ := Deployment.ok_of_check runs
  simp only [Bool.and_eq_true, all_eq_true, Option.isNone_iff_eq_none,
    decide_eq_true_eq] at checks
  obtain ⟨⟨⟨filed, new⟩, inStep⟩, corrects⟩ := checks
  obtain ⟨⟨_, db'⟩, corrected, -⟩ := Deployment.ok_of_check corrects
  exact ⟨db, db', ⟨filed.1, filed.2⟩, new, inStep, corrected,
    correction_keeps_step_iff ⟨filed.1, filed.2⟩ new inStep corrected⟩

end Thirdshift
