import Thirdshift.Ledger.Amounts

/-!
# Audited money actions

The operator's actions on host credit call the ledger, which commits a transaction of its own, and
then record an operator action in a second one. What a caller learns and what is on record is
followed through every way in which either transaction can end.
-/

namespace Thirdshift

open Foundation OperatorStore Deployment

structure OperatorAction where
  id : String
  action : String
  targetType : String
  targetID : String
  createdAt : Time

/-- The database with its table `operator_actions`. -/
structure AuditedDb where
  db : Db
  actions : Table OperatorAction.id

inductive MoneyAction
  | promoteCredits
  | createPayoutBatch (orgID : String)
  | exportPayoutBatch (batchID : String)
  | confirmPayoutBatch (batchID : String) (rows : List ConfirmationRow)

namespace MoneyAction

def action : MoneyAction → String
  | promoteCredits => "credits.release"
  | createPayoutBatch _ => "payout.create"
  | exportPayoutBatch _ => "payout.export"
  | confirmPayoutBatch .. => "payout.confirm"

def targetType : MoneyAction → String
  | promoteCredits => "host_credit_holds"
  | _ => "payout_batch"

def tx (ids : Nat → String) (now : Time) : MoneyAction → SqlTx String
  | promoteCredits => do
    let _ ← Ledger.promoteAvailableCredits ids now
    pure "available"
  | createPayoutBatch orgID => Ledger.createPayoutBatch ids orgID
  | exportPayoutBatch batchID => do
    let _ ← Ledger.exportPayoutBatch batchID now
    pure batchID
  | confirmPayoutBatch batchID rows => do
    Ledger.confirmPayoutBatch ids batchID rows now
    pure batchID

end MoneyAction

/-! ### Transactions that fail -/

/-- How a transaction ends beside what its statements do: it is lost before the commit, the commit
succeeds and its acknowledgement is lost, or the process dies before or after the commit. -/
inductive Ending
  | regular
  | aborted
  | unacknowledged
  | died (committed : Bool)
  deriving DecidableEq

def Ending.commits : Ending → Bool
  | .regular | .unacknowledged | .died true => true
  | _ => false

def errConnection : GoError := .other "connection lost"

/-- The state that a transaction leaves, and what its caller is told if it is still there. -/
def Ending.run {σ α : Type} (tx : σ → Except GoError (α × σ)) (s : σ) :
    Ending → σ × Option (Except GoError α)
  | .aborted => (s, some (.error errConnection))
  | .died false => (s, none)
  | ending => match tx s with
    | .error e => (s, some (.error e))
    | .ok (a, s') => (s', match ending with
      | .regular => some (.ok a)
      | .unacknowledged => some (.error errConnection)
      | _ => none)

namespace OperatorStore

def recordOperatorAction (row : OperatorAction) (s : AuditedDb) : Except GoError (Unit × AuditedDb) :=
  if (s.actions.find? row.id).isSome then .error (.other "insert operator action: duplicate key")
  else .ok ((), { s with actions := s.actions.put row })

def ledgerTx (ids : Nat → String) (now : Time) (action : MoneyAction) (s : AuditedDb) :
    Except GoError (String × AuditedDb) :=
  match Tx.run schema (action.tx ids now) s.db with
  | .ok (target, db) => .ok (target, { s with db })
  | .error e => .error e

/-- `PromoteCredits`, `CreatePayoutBatch`, `ExportPayoutBatch` and `ConfirmPayoutBatch`. -/
def perform (ids : Nat → String) (actionID : String) (now : Time) (action : MoneyAction)
    (first second : Ending) (s : AuditedDb) : AuditedDb × Option (Except GoError Unit) :=
  match first.run (ledgerTx ids now action) s with
  | (s', some (.ok target)) => second.run (recordOperatorAction
      ⟨actionID, action.action, action.targetType, target, now⟩) s'
  | (s', some (.error e)) => (s', some (.error e))
  | (s', none) => (s', none)

end OperatorStore

/-! ### All or nothing -/

/-- An error means that nothing has changed, and a change is on record as the action, once. -/
structure Audited (action : MoneyAction) (s : AuditedDb)
    (out : AuditedDb × Option (Except GoError Unit)) : Prop where
  unchanged : ∀ e, out.2 = some (.error e) → out.1.db = s.db
  recorded : out.1.db ≠ s.db → ∃ row : OperatorAction, row.action = action.action ∧
    row.targetType = action.targetType ∧ out.1.actions.rows = s.actions.rows ++ [row]

section

variable {ids : Nat → String} {actionID : String} {now : Time} {action : MoneyAction}
  {first second : Ending} {s : AuditedDb}

theorem audited_of_same {out : AuditedDb × Option (Except GoError Unit)}
    (same : out.1.db = s.db) : Audited action s out :=
  ⟨fun _ _ => same, fun changed => absurd same changed⟩

theorem db_record (row : OperatorAction) (s : AuditedDb) :
    (second.run (recordOperatorAction row) s).1.db = s.db := by
  unfold Ending.run recordOperatorAction
  split
  · rfl
  · rfl
  · by_cases taken : (s.actions.find? row.id).isSome = true <;> simp [taken]

theorem not_audited_of_unrecorded {answer : Option (Except GoError Unit)} {db : Db}
    (changed : db ≠ s.db) : ¬Audited action s (⟨db, s.actions⟩, answer) := by
  intro audited
  obtain ⟨row, -, -, same⟩ := audited.recorded changed
  simp at same

theorem not_audited_of_error {e : GoError} {s' : AuditedDb} (changed : s'.db ≠ s.db) :
    ¬Audited action s (s', some (.error e)) :=
  fun audited => changed (audited.unchanged e rfl)

theorem audited_record_iff {target : String} {db : Db} (changed : db ≠ s.db) :
    Audited action s (second.run (recordOperatorAction
        ⟨actionID, action.action, action.targetType, target, now⟩) ⟨db, s.actions⟩) ↔
      (second = .regular ∨ second = .died true) ∧ s.actions.find? actionID = none := by
  cases found : s.actions.find? actionID with
  | some old =>
    have taken : recordOperatorAction
        ⟨actionID, action.action, action.targetType, target, now⟩ ⟨db, s.actions⟩ =
          .error (.other "insert operator action: duplicate key") :=
      if_pos (by rw [found]; rfl)
    refine iff_of_false ?_ (by simp)
    rcases second with _ | _ | _ | _ | _ <;> simp only [Ending.run, taken]
    · exact not_audited_of_error changed
    · exact not_audited_of_error changed
    · exact not_audited_of_error changed
    · exact not_audited_of_unrecorded changed
    · exact not_audited_of_error changed
  | none =>
    have inserted : recordOperatorAction
        ⟨actionID, action.action, action.targetType, target, now⟩ ⟨db, s.actions⟩ =
          .ok ((), ⟨db, s.actions.put ⟨actionID, action.action, action.targetType, target, now⟩⟩) :=
      if_neg (by rw [found]; simp)
    have rows : (s.actions.put ⟨actionID, action.action, action.targetType, target, now⟩).rows =
        s.actions.rows ++ [⟨actionID, action.action, action.targetType, target, now⟩] :=
      Table.rows_put_fresh found
    rcases second with _ | _ | _ | _ | _ <;> simp only [Ending.run, inserted]
    · exact iff_of_true ⟨fun _ no => (nomatch no), fun _ => ⟨_, rfl, rfl, rows⟩⟩ (by simp)
    · exact iff_of_false (not_audited_of_error changed) (by simp)
    · exact iff_of_false (not_audited_of_error changed) (by simp)
    · exact iff_of_false (not_audited_of_unrecorded changed) (by simp)
    · exact iff_of_true ⟨fun _ no => (nomatch no), fun _ => ⟨_, rfl, rfl, rows⟩⟩ (by simp)

/-- A money action is all or nothing exactly if, whenever its ledger transaction commits a change,
that commit is acknowledged and the action is recorded, the caller not being told otherwise. -/
theorem money_action_audited_iff :
    Audited action s (perform ids actionID now action first second s) ↔
      ∀ target db, Tx.run schema (action.tx ids now) s.db = .ok (target, db) → db ≠ s.db →
        first.commits = true → first = .regular ∧ (second = .regular ∨ second = .died true) ∧
          s.actions.find? actionID = none := by
  cases ran : Tx.run schema (action.tx ids now) s.db with
  | error e =>
    have failed : ledgerTx ids now action s = .error e := by
      simp only [ledgerTx, ran]
    refine iff_of_true ?_ (fun _ _ no => nomatch no)
    have same : (perform ids actionID now action first second s).1 = s := by
      rcases first with _ | _ | _ | _ | _ <;> simp [perform, Ending.run, failed]
    exact audited_of_same (congrArg AuditedDb.db same)
  | ok result =>
    obtain ⟨target, db⟩ := result
    have committed : ledgerTx ids now action s = .ok (target, { s with db }) := by
      simp only [ledgerTx, ran]
    by_cases changed : db = s.db
    · -- the ledger has committed nothing, so whatever happens to the record is harmless
      subst changed
      refine iff_of_true (audited_of_same ?_) ?_
      · rcases first with _ | _ | _ | _ | _ <;>
          simp only [perform, Ending.run, committed]
        exact db_record _ _
      · rintro _ _ ⟨⟩ differs
        exact absurd rfl differs
    · have only : ∀ {P : Prop}, (∀ target' db', Except.ok (target, db) =
          (.ok (target', db') : Except GoError _) → db' ≠ s.db → P) ↔ P :=
        ⟨fun all => all target db rfl changed, fun holds _ _ _ _ => holds⟩
      rw [only]
      rcases first with _ | _ | _ | _ | _ <;>
        simp only [perform, Ending.run, committed]
      · exact (audited_record_iff changed).trans (by simp [Ending.commits])
      · exact iff_of_true (audited_of_same rfl) (by simp [Ending.commits])
      · exact iff_of_false (not_audited_of_error changed) (by simp [Ending.commits])
      · exact iff_of_true (audited_of_same rfl) (by simp [Ending.commits])
      · exact iff_of_false (not_audited_of_unrecorded changed) (by simp [Ending.commits])

end

namespace Deployment

def available : SqlTx Unit := do
  underway
  let _ ← Ledger.postAcceptedJob idle.ids ⟨"j", "a", 10, 0, 3, 2, 0⟩
  let _ ← Ledger.promoteAvailableCredits (drawing "p").ids (seconds 86401)
  pure ()

end Deployment

/-- The record of a new payout batch is lost: the caller is told of an error, and the batch with its
item is there without an operator action. -/
theorem payout_unrecorded : ∃ s : AuditedDb,
    let (s', answer) := perform (drawing "b").ids "opact" (seconds 86402)
      (.createPayoutBatch "") .regular .aborted s
    (answer.any fun result => result.toOption.isNone) = true ∧
    (s.db.batches.find? "b0").isNone = true ∧
    (s'.db.batches.find? "b0").map PayoutBatch.totalMicrodollars = some 1 ∧
    s'.db.items.rows.length = 1 ∧ s'.actions.rows.length = 0 := by
  have checked : (Tx.exec schema available start.db).toOption.any
      (fun (_, db) =>
        let (s', answer) := perform (drawing "b").ids "opact"
          (seconds 86402) (.createPayoutBatch "") .regular .aborted ⟨db, .empty⟩
        decide ((answer.any fun result => result.toOption.isNone) = true ∧
          (db.batches.find? "b0").isNone = true ∧
          (s'.db.batches.find? "b0").map PayoutBatch.totalMicrodollars = some 1 ∧
          s'.db.items.rows.length = 1 ∧ s'.actions.rows.length = 0)) = true := by decide +kernel
  obtain ⟨⟨_, db⟩, -, holds⟩ := Deployment.ok_of_check checked
  exact ⟨⟨db, .empty⟩, of_decide_eq_true holds⟩

end Thirdshift
