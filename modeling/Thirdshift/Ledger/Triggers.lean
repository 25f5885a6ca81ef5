import Thirdshift.Database

/-!
# The triggers of the ledger

`ledger_transactions` and `ledger_entries` under arbitrary row-level statements. Before each row the
triggers on entries look at one transaction only: the new one of an inserted or updated entry, the
old one of a deleted entry. The balance of a transaction is checked at commit, for the transactions
that the statements have queued.
-/

namespace Thirdshift

open Foundation Table List Option

structure LedgerTables where
  transactions : Table LedgerTransaction.id
  entries : Table LedgerEntry.id

namespace LedgerTables

def empty : LedgerTables := ⟨.empty, .empty⟩

def status (s : LedgerTables) (transactionID : String) : Option TransactionStatus :=
  (s.transactions.find? transactionID).map LedgerTransaction.status

def entriesOf (s : LedgerTables) (transactionID : String) : List LedgerEntry :=
  s.entries.rows.filter fun e => e.transactionID = transactionID

def balance (s : LedgerTables) (transactionID : String) : Int :=
  ((s.entriesOf transactionID).map LedgerEntry.amountMicrodollars).sum

/-- The body of `prevent_posted_ledger_entry_mutation`: it raises on a posted transaction. -/
def preventPostedEntryMutation (s : LedgerTables) (checkedTransactionID : String) : Bool :=
  s.status checkedTransactionID ≠ some .posted

def referenced (s : LedgerTables) (transactionID : String) : Bool :=
  s.entries.rows.any (fun e => e.transactionID = transactionID) ||
    s.transactions.rows.any (fun t => t.reversesTransactionID = some transactionID)

/-- The partial unique index `ledger_transactions_one_job_acceptance`. -/
def oneJobAcceptance (s : LedgerTables) (row : LedgerTransaction) : Bool :=
  s.transactions.rows.all fun t => t.id = row.id ||
    !(t.transactionType = .jobAcceptance ∧ t.status = .posted ∧
      row.transactionType = .jobAcceptance ∧ row.status = .posted ∧
      t.referenceType = row.referenceType ∧ t.referenceID = row.referenceID)

def admitsTransaction (s : LedgerTables) (row : LedgerTransaction) : Bool :=
  (s.transactions.find? row.id).isNone && s.oneJobAcceptance row &&
    row.reversesTransactionID.all fun id => id = row.id || (s.transactions.find? id).isSome

def admitsEntry (s : LedgerTables) (row : LedgerEntry) : Bool :=
  (s.entries.find? row.id).isNone && isInt8 row.amountMicrodollars &&
    (s.transactions.find? row.transactionID).isSome

end LedgerTables

/-- A call of `assert_posted_ledger_transaction_balanced` that is queued for the commit. For an
entry the status is looked up then; for a transaction it is that of the row that queued it. -/
inductive QueuedCheck
  | entry (transactionID : String)
  | transaction (transactionID : String)
  deriving DecidableEq

def QueuedCheck.passes (s : LedgerTables) : QueuedCheck → Bool
  | .entry id => s.status id ≠ some .posted || s.balance id = 0
  | .transaction id => s.balance id = 0

/-- A statement on one row. An update gives the new values of all columns; the status of a
transaction is one of them only when the statement sets it. -/
inductive LedgerStatement
  | insertEntry (row : LedgerEntry)
  | updateEntry (id : String) (row : LedgerEntry)
  | deleteEntry (id : String)
  | insertTransaction (row : LedgerTransaction)
  | updateTransaction (id : String) (row : LedgerTransaction) (setStatus : Option TransactionStatus)
  | deleteTransaction (id : String)

namespace LedgerStatement

/-- The trigger fires on an insert and on an update of the status, when the new one is posted. -/
def queuedFor (row : LedgerTransaction) (fires : Bool) : List QueuedCheck :=
  if fires ∧ row.status = .posted then [.transaction row.id] else []

def newTransaction (old row : LedgerTransaction) (setStatus : Option TransactionStatus) :
    LedgerTransaction :=
  { row with status := setStatus.getD old.status }

/-- One statement: `none` when it is refused. A statement that finds no row does nothing. -/
def exec (s : LedgerTables) : LedgerStatement → Option (LedgerTables × List QueuedCheck)
  | .insertEntry row =>
    if s.preventPostedEntryMutation row.transactionID && s.admitsEntry row then
      some ({ s with entries := s.entries.put row }, [.entry row.transactionID])
    else none
  | .updateEntry id row =>
    match s.entries.find? id with
    | none => some (s, [])
    | some _ =>
      let rest := { s with entries := s.entries.erase id }
      if s.preventPostedEntryMutation row.transactionID && rest.admitsEntry row then
        some ({ s with entries := rest.entries.put row }, [.entry row.transactionID])
      else none
  | .deleteEntry id =>
    match s.entries.find? id with
    | none => some (s, [])
    | some old =>
      if s.preventPostedEntryMutation old.transactionID then
        some ({ s with entries := s.entries.erase id }, [.entry old.transactionID])
      else none
  | .insertTransaction row =>
    if s.admitsTransaction row then
      some ({ s with transactions := s.transactions.put row }, queuedFor row true)
    else none
  | .updateTransaction id row setStatus =>
    match s.transactions.find? id with
    | none => some (s, [])
    | some old =>
      let new := newTransaction old row setStatus
      let rest := { s with transactions := s.transactions.erase id }
      if rest.admitsTransaction new && (new.id = id || !rest.referenced id) then
        some ({ s with transactions := rest.transactions.put new }, queuedFor new setStatus.isSome)
      else none
  | .deleteTransaction id =>
    match s.transactions.find? id with
    | none => some (s, [])
    | some _ =>
      let rest := { s with transactions := s.transactions.erase id }
      if rest.referenced id then none else some (rest, [])

/-- The statements of a database transaction, with the checks they queue. -/
def execAll (s : LedgerTables) : List LedgerStatement → Option (LedgerTables × List QueuedCheck)
  | [] => some (s, [])
  | st :: rest => do
    let (mid, queued) ← st.exec s
    let (last, later) ← execAll mid rest
    pure (last, queued ++ later)

end LedgerStatement

namespace LedgerTables

/-- A database transaction: it commits when no statement is refused and every queued check passes,
and leaves no trace otherwise. -/
def commit (s : LedgerTables) (statements : List LedgerStatement) : LedgerTables :=
  match LedgerStatement.execAll s statements with
  | some (last, queued) => if queued.all (QueuedCheck.passes last) then last else s
  | none => s

def run (s : LedgerTables) (transactions : List (List LedgerStatement)) : LedgerTables :=
  transactions.foldl commit s

def Balanced (s : LedgerTables) : Prop :=
  ∀ id, s.status id = some .posted → s.balance id = 0

end LedgerTables

/-! ### The tables of the database -/

def Db.ledger (db : Db) : LedgerTables := ⟨db.transactions, db.entries⟩

theorem Db.balanced_iff_ledger {db : Db} : db.balanced = true ↔ db.ledger.Balanced := by
  simp only [Db.balanced, List.all_eq_true, Bool.or_eq_true, decide_eq_true_eq]
  constructor
  · intro all id posted
    obtain ⟨t, found, status⟩ := map_eq_some_iff.mp posted
    have own : t.id = id := key_of_find? found
    exact own ▸ (all t (mem_of_find? found)).resolve_left (not_not.mpr status)
  · intro balanced t member
    refine or_iff_not_imp_left.mpr fun posted => balanced t.id ?_
    exact map_eq_some_iff.mpr ⟨t, find?_of_mem member, not_not.mp posted⟩

/-- An entry that the schema takes passes the triggers, and both put it into the same table. -/
theorem Db.exec_insertEntry {db : Db} {row : LedgerEntry} (new : db.entries.find? row.id = none)
    (valid : db.valid (.entry row) = true) : (LedgerStatement.insertEntry row).exec db.ledger =
      some ((db.put (.entry row)).ledger, [.entry row.transactionID]) := by
  simp only [Db.valid, Bool.and_eq_true] at valid
  obtain ⟨t, found, draft⟩ := (Option.any_eq_true _ _).mp valid.2
  refine if_pos ?_
  simp_all [LedgerTables.preventPostedEntryMutation, LedgerTables.status, LedgerTables.admitsEntry,
    Db.ledger]

/-! ### Statements that leave posted transactions alone -/

/-- What the triggers do not look at: an update moves no entry out of a posted transaction, and a
posted transaction keeps its row under its identifier with its status. -/
def LedgerStatement.respects (s : LedgerTables) : LedgerStatement → Bool
  | .updateEntry id row => (s.entries.find? id).all fun old =>
      s.status old.transactionID ≠ some .posted || row.transactionID = old.transactionID
  | .updateTransaction id row setStatus => s.status id ≠ some .posted ||
      (row.id = id && setStatus.getD .posted = .posted)
  | .deleteTransaction id => s.status id ≠ some .posted
  | _ => true

def LedgerStatement.respectsAll (s : LedgerTables) : List LedgerStatement → Bool
  | [] => true
  | st :: rest => st.respects s && match st.exec s with
    | some (mid, _) => respectsAll mid rest
    | none => true

def LedgerTables.respectsRun (s : LedgerTables) : List (List LedgerStatement) → Bool
  | [] => true
  | statements :: rest =>
    LedgerStatement.respectsAll s statements && (s.commit statements).respectsRun rest

structure LedgerTables.Frozen (s s' : LedgerTables) : Prop where
  posted : ∀ id, s.status id = some .posted → s'.status id = some .posted
  entries : ∀ id, s.status id = some .posted → s'.entriesOf id = s.entriesOf id

namespace LedgerTables

theorem Frozen.refl (s : LedgerTables) : Frozen s s := ⟨fun _ posted => posted, fun _ _ => rfl⟩

theorem Frozen.trans {s₁ s₂ s₃ : LedgerTables} (first : Frozen s₁ s₂) (second : Frozen s₂ s₃) :
    Frozen s₁ s₃ where
  posted id posted := second.posted id (first.posted id posted)
  entries id posted := (second.entries id (first.posted id posted)).trans (first.entries id posted)

end LedgerTables

namespace LedgerStatement

variable {s s' : LedgerTables} {queued : List QueuedCheck}

theorem frozen_put {row : LedgerEntry}
    (free : s.preventPostedEntryMutation row.transactionID = true)
    (fresh : (s.entries.find? row.id).isNone = true) :
    s.Frozen { s with entries := s.entries.put row } := by
  refine ⟨fun _ posted => posted, fun id posted => filter_put ?_ ?_⟩
  · simp only [decide_eq_false_iff_not]
    rintro rfl
    simp [LedgerTables.preventPostedEntryMutation, posted] at free
  · intro e member same
    rw [← same, find?_of_mem member] at fresh
    cases fresh

theorem frozen_erase {old : LedgerEntry} {id : String}
    (found : s.entries.find? id = some old) (free : s.status old.transactionID ≠ some .posted) :
    s.Frozen { s with entries := s.entries.erase id } := by
  refine ⟨fun _ posted => posted, fun transactionID posted => filter_erase ?_⟩
  intro e member same
  have here : e = old := by
    have mine := find?_of_mem member
    rw [same, found] at mine
    exact (Option.some.inj mine).symm
  subst here
  simp only [decide_eq_false_iff_not]
  rintro rfl
  exact free posted

theorem frozen_transactions {transactions : Table LedgerTransaction.id}
    (kept : ∀ id, s.status id = some .posted →
      (transactions.find? id).map LedgerTransaction.status = some .posted) :
    s.Frozen { s with transactions := transactions } :=
  ⟨kept, fun _ _ => rfl⟩

section

variable {st : LedgerStatement} (careful : st.respects s = true)
  (done : st.exec s = some (s', queued))
include careful done

theorem frozen_exec : s.Frozen s' := by
  cases st with
  | insertEntry row =>
    simp only [exec] at done
    split at done
    next allowed =>
      cases done
      simp only [LedgerTables.admitsEntry, Bool.and_eq_true] at allowed
      exact frozen_put allowed.1 allowed.2.1.1
    · cases done
  | updateEntry id row =>
    simp only [exec] at done
    split at done
    · cases done
      exact .refl s
    next old found =>
      split at done
      next allowed =>
        cases done
        simp only [LedgerTables.admitsEntry, Bool.and_eq_true] at allowed
        obtain ⟨free, ⟨fresh, -⟩, -⟩ := allowed
        have gone : s.Frozen { s with entries := s.entries.erase id } := by
          refine frozen_erase found fun posted => ?_
          -- an entry of a posted transaction would stay in it, and the trigger refuses that
          simp only [respects, found, all_some, posted, ne_eq, not_true_eq_false,
            decide_false, Bool.false_or, decide_eq_true_eq] at careful
          simp [LedgerTables.preventPostedEntryMutation, careful, posted] at free
        exact gone.trans (frozen_put free fresh)
      · cases done
  | deleteEntry id =>
    simp only [exec] at done
    split at done
    · cases done
      exact .refl s
    next old found =>
      split at done
      next free =>
        cases done
        refine frozen_erase found fun posted => ?_
        simp [LedgerTables.preventPostedEntryMutation, posted] at free
      · cases done
  | insertTransaction row =>
    simp only [exec] at done
    split at done
    next allowed =>
      cases done
      simp only [LedgerTables.admitsTransaction, Bool.and_eq_true] at allowed
      refine frozen_transactions fun id posted => ?_
      have other : row.id ≠ id := by
        rintro rfl
        rw [LedgerTables.status, isNone_iff_eq_none.mp allowed.1.1] at posted
        cases posted
      rw [find?_put, if_neg other]
      exact posted
    · cases done
  | updateTransaction id row setStatus =>
    simp only [exec] at done
    split at done
    · cases done
      exact .refl s
    next old found =>
      split at done
      next allowed =>
        cases done
        simp only [LedgerTables.admitsTransaction, Bool.and_eq_true] at allowed
        refine frozen_transactions fun other posted => ?_
        by_cases here : other = id
        · subst here
          simp only [respects, posted, ne_eq, not_true_eq_false, decide_false,
            Bool.false_or, Bool.and_eq_true, decide_eq_true_eq] at careful
          have was : old.status = .posted := by simpa [LedgerTables.status, found] using posted
          simp [newTransaction, ← careful.1, was, careful.2]
        · have apart : row.id ≠ other := by
            rintro rfl
            have absent := isNone_iff_eq_none.mp allowed.1.1.1
            simp only [newTransaction, find?_erase, here, ↓reduceIte] at absent
            rw [LedgerTables.status, absent] at posted
            cases posted
          rw [find?_put]
          simp only [newTransaction, apart, ↓reduceIte, find?_erase, here]
          exact posted
      · cases done
  | deleteTransaction id =>
    simp only [exec] at done
    split at done
    · cases done
      exact .refl s
    next old found =>
      split at done
      · cases done
      · cases done
        refine frozen_transactions fun other posted => ?_
        have apart : other ≠ id := by
          rintro rfl
          simp [respects, posted] at careful
        rw [find?_erase, if_neg apart]
        exact posted

theorem queued_exec {id : String} (posted : s'.status id = some .posted) :
    s.status id = some .posted ∨ .transaction id ∈ queued := by
  cases st with
  | insertTransaction row =>
    simp only [exec] at done
    split at done
    · cases done
      rw [LedgerTables.status, find?_put] at posted
      split at posted
      next here =>
        have now : row.status = .posted := by simpa using posted
        exact .inr (by simp [queuedFor, now, here])
      · exact .inl posted
    · cases done
  | updateTransaction target row setStatus =>
    simp only [exec] at done
    split at done
    · cases done
      exact .inl posted
    next old found =>
      split at done
      · cases done
        simp only [LedgerTables.status, find?_put, newTransaction] at posted
        split at posted
        next here =>
          have now : setStatus.getD old.status = .posted := by simpa using posted
          cases setStatus with
          | some status => exact .inr (by simpa [queuedFor, newTransaction, here] using now)
          | none =>
            -- the status was not set, so the row was posted before
            have was : s.status target = some .posted := by
              simpa [LedgerTables.status, found] using now
            simp only [respects, was, ne_eq, not_true_eq_false, decide_false, Bool.false_or,
              Bool.and_eq_true, decide_eq_true_eq] at careful
            exact .inl (by rw [← here, careful.1]; exact was)
        · rw [find?_erase] at posted
          split at posted
          · cases posted
          · exact .inl posted
      · cases done
  | deleteTransaction target =>
    simp only [exec] at done
    split at done
    · cases done
      exact .inl posted
    · split at done
      · cases done
      · cases done
        rw [LedgerTables.status, find?_erase] at posted
        split at posted
        · cases posted
        · exact .inl posted
  | _ =>
    simp only [exec] at done
    repeat' split at done
    all_goals cases done
    all_goals exact .inl posted

end

theorem execAll_careful {statements : List LedgerStatement}
    (careful : respectsAll s statements = true) (done : execAll s statements = some (s', queued)) :
    s.Frozen s' ∧ ∀ id, s'.status id = some .posted →
      s.status id = some .posted ∨ .transaction id ∈ queued := by
  induction statements generalizing s queued with
  | nil =>
    cases done
    exact ⟨.refl _, fun _ => .inl⟩
  | cons st rest ih =>
    obtain ⟨⟨mid, first⟩, stepped, done⟩ := bind_eq_some_iff.mp done
    obtain ⟨⟨last, later⟩, ran, eq⟩ := bind_eq_some_iff.mp done
    cases eq
    simp only [respectsAll, stepped, Bool.and_eq_true] at careful
    obtain ⟨frozen, checked⟩ := ih careful.2 ran
    refine ⟨(frozen_exec careful.1 stepped).trans frozen, fun id posted => ?_⟩
    rcases checked id posted with before | queued
    · exact (queued_exec careful.1 stepped before).imp_right (mem_append_left _)
    · exact .inr (mem_append_right _ queued)

end LedgerStatement

namespace LedgerTables

variable {s : LedgerTables}

theorem commit_careful {statements : List LedgerStatement} (balanced : s.Balanced)
    (careful : LedgerStatement.respectsAll s statements = true) :
    s.Frozen (s.commit statements) ∧ (s.commit statements).Balanced := by
  unfold commit
  split
  next last queued done =>
    obtain ⟨frozen, checked⟩ := LedgerStatement.execAll_careful careful done
    split
    next passed =>
      refine ⟨frozen, fun id posted => ?_⟩
      rcases checked id posted with before | member
      · rw [balance, frozen.entries id before]
        exact balanced id before
      · exact of_decide_eq_true (all_eq_true.mp passed _ member)
    · exact ⟨.refl s, balanced⟩
  · exact ⟨.refl s, balanced⟩

theorem run_careful {transactions : List (List LedgerStatement)} (balanced : s.Balanced)
    (careful : s.respectsRun transactions = true) :
    s.Frozen (s.run transactions) ∧ (s.run transactions).Balanced := by
  induction transactions generalizing s with
  | nil => exact ⟨.refl s, balanced⟩
  | cons statements rest ih =>
    simp only [respectsRun, Bool.and_eq_true] at careful
    obtain ⟨first, still⟩ := commit_careful balanced careful.1
    obtain ⟨later, done⟩ := ih still careful.2
    exact ⟨first.trans later, done⟩

theorem respectsRun_append {past future : List (List LedgerStatement)} :
    s.respectsRun (past ++ future) = (s.respectsRun past && (s.run past).respectsRun future) := by
  induction past generalizing s with
  | nil => simp [respectsRun, run]
  | cons statements rest ih => simp [respectsRun, run, ih, Bool.and_assoc]

end LedgerTables

/-- What holds of the committed states of a ledger on which every statement respects the posted
transactions: their entries stay as they are, none is added, and they balance. -/
theorem posted_entries_immutable {s : LedgerTables} (balanced : s.Balanced)
    {past future : List (List LedgerStatement)}
    (careful : s.respectsRun (past ++ future) = true) :
    (∀ e ∈ (s.run past).entries.rows, (s.run past).status e.transactionID = some .posted →
      ∃ e' ∈ (s.run (past ++ future)).entries.rows, e'.id = e.id ∧
        e'.transactionID = e.transactionID ∧ e'.accountID = e.accountID ∧
        e'.amountMicrodollars = e.amountMicrodollars) ∧
    (∀ id, (s.run past).status id = some .posted → ∀ e ∈ (s.run (past ++ future)).entriesOf id,
      ∃ e₀ ∈ (s.run past).entriesOf id, e₀.id = e.id) ∧
    (s.run (past ++ future)).Balanced := by
  rw [LedgerTables.respectsRun_append, Bool.and_eq_true] at careful
  obtain ⟨-, before⟩ := LedgerTables.run_careful balanced careful.1
  obtain ⟨frozen, after⟩ := LedgerTables.run_careful before careful.2
  have split : s.run (past ++ future) = (s.run past).run future := foldl_append
  rw [split]
  refine ⟨fun e member posted => ?_, fun id posted e member => ?_, after⟩
  · have mine : e ∈ (s.run past).entriesOf e.transactionID :=
      mem_filter.mpr ⟨member, decide_eq_true rfl⟩
    rw [← frozen.entries _ posted] at mine
    exact ⟨e, (mem_filter.mp mine).1, rfl, rfl, rfl, rfl⟩
  · rw [frozen.entries id posted] at member
    exact ⟨e, member, rfl⟩

namespace LedgerTables

def transfer : List LedgerStatement :=
  [.insertTransaction ⟨"t", .jobAcceptance, .draft, "job", "j", none, none⟩,
    .insertEntry ⟨"e1", "t", "a", 5, ""⟩, .insertEntry ⟨"e2", "t", "b", -5, ""⟩,
    .updateTransaction "t" ⟨"t", .jobAcceptance, .draft, "job", "j", none, none⟩ (some .posted),
    .insertTransaction ⟨"d", .hostPayout, .draft, "payout_batch", "p", none, none⟩]

def moveAway : List LedgerStatement := [.updateEntry "e1" ⟨"e1", "d", "a", 5, ""⟩]

end LedgerTables

theorem posted_entries_immutable_transfer :
    LedgerTables.empty.Balanced ∧
    LedgerTables.empty.respectsRun ([LedgerTables.transfer] ++ [[.deleteEntry "e1"]]) = true ∧
    (LedgerTables.empty.run [LedgerTables.transfer]).status "t" = some .posted ∧
    (LedgerTables.empty.run ([LedgerTables.transfer] ++ [[.deleteEntry "e1"]])).Balanced := by
  have balanced : LedgerTables.empty.Balanced := fun id posted => by
    simp [LedgerTables.status, LedgerTables.empty] at posted
  have careful : LedgerTables.empty.respectsRun
      ([LedgerTables.transfer] ++ [[.deleteEntry "e1"]]) = true := by decide +kernel
  exact ⟨balanced, careful, by decide +kernel, (posted_entries_immutable balanced careful).2.2⟩

/-- The move commits: the entry has left the posted transaction, which no longer balances. -/
theorem posted_entry_moved_away :
    (LedgerTables.empty.run [LedgerTables.transfer]).status "t" = some .posted ∧
    ((LedgerTables.empty.run [LedgerTables.transfer]).entries.find? "e1").map
      LedgerEntry.transactionID = some "t" ∧
    ((LedgerTables.empty.run [LedgerTables.transfer, LedgerTables.moveAway]).entries.find? "e1").map
      LedgerEntry.transactionID = some "d" ∧
    (LedgerTables.empty.run [LedgerTables.transfer, LedgerTables.moveAway]).status "t" =
      some .posted ∧
    (LedgerTables.empty.run [LedgerTables.transfer, LedgerTables.moveAway]).balance "t" ≠ 0 := by
  decide +kernel

end Thirdshift
