import Thirdshift.Coordinator.Runs
import Thirdshift.Ledger.Postings

/-!
# At most one charge per job

Under READ COMMITTED with row locks and the declared unique indexes, in every interleaving of the
coordinator's transactions: a job is charged at most once, and its accepted result, its posted
acceptance and its host credit hold exist together and agree.
-/

namespace Thirdshift

open Foundation Table Option Deployment

variable {db db' : Db} {t : LedgerTransaction} {r : JobResult} {h : HostCreditHold}
  {e : LedgerEntry} {p : Posting}

/-- A posted `job_acceptance` transaction of the job. -/
def LedgerTransaction.Charges (t : LedgerTransaction) (jobID : JobID) : Prop :=
  t.transactionType = .jobAcceptance ∧ t.status = .posted ∧ t.referenceType = "job" ∧
    t.referenceID = jobID

def JobResult.Accepts (r : JobResult) (jobID : JobID) : Prop := r.accepted = true ∧ r.jobID = jobID

/-- A hold of the job that belongs to a `job_acceptance` transaction. -/
def HostCreditHold.Credits (h : HostCreditHold) (db : Db) (jobID : JobID) : Prop :=
  h.jobID = jobID ∧ ∃ t ∈ db.transactions.rows, t.id = h.ledgerTransactionID ∧
    t.transactionType = .jobAcceptance

def LedgerEntry.ToHost (e : LedgerEntry) (db : Db) : Prop :=
  ∃ account ∈ db.accounts.rows, account.id = e.accountID ∧ account.ownerType = .host

/-- The transaction, the result and the hold of one charge. The host entry is the entry of the
transaction that goes to a host; what it credits is negative in the ledger. -/
structure Charge (db : Db) (t : LedgerTransaction) (r : JobResult) (h : HostCreditHold) : Prop where
  transaction : t ∈ db.transactions.rows
  result : r ∈ db.results.rows
  hold : h ∈ db.holds.rows
  charges : t.Charges r.jobID
  accepts : r.accepted = true
  sameJob : h.jobID = r.jobID
  sameAttempt : h.attemptID = r.attemptID
  sameTransaction : h.ledgerTransactionID = t.id
  hostEntry : ∃ e ∈ db.entries.rows, e.transactionID = t.id ∧ e.ToHost db ∧
    e.amountMicrodollars = -h.amountMicrodollars ∧
    ∀ other ∈ db.entries.rows, other.transactionID = t.id → other.ToHost db → other = e

structure Charged (db : Db) : Prop where
  ofTransaction : ∀ t ∈ db.transactions.rows, t.transactionType = .jobAcceptance →
    ∃ r h, Charge db t r h
  ofResult : ∀ r ∈ db.results.rows, r.accepted = true → ∃ t h, Charge db t r h
  ofHold : ∀ h ∈ db.holds.rows, ∃ t ∈ db.transactions.rows, t.id = h.ledgerTransactionID ∧
    (t.transactionType = .jobAcceptance → ∃ r, Charge db t r h)
  oneHold : ∀ h ∈ db.holds.rows, ∀ h' ∈ db.holds.rows,
    h.ledgerTransactionID = h'.ledgerTransactionID → h = h'
  entered : ∀ e ∈ db.entries.rows, ∃ t ∈ db.transactions.rows, t.id = e.transactionID
  accounted : ∀ e ∈ db.entries.rows, ∃ account ∈ db.accounts.rows, account.id = e.accountID

section

theorem mem_transactions :
    t ∈ db.transactions.rows ↔ schema.get db ⟨.transactions, t.id⟩ = some (.transaction t) := by
  rw [mem_rows_iff]
  change _ ↔ (db.transactions.find? t.id).map Row.transaction = _
  simp

theorem mem_results : r ∈ db.results.rows ↔ schema.get db ⟨.results, r.id⟩ = some (.result r) := by
  rw [mem_rows_iff]
  change _ ↔ (db.results.find? r.id).map Row.result = _
  simp

theorem mem_holds : h ∈ db.holds.rows ↔ schema.get db ⟨.holds, h.id⟩ = some (.hold h) := by
  rw [mem_rows_iff]
  change _ ↔ (db.holds.find? h.id).map Row.hold = _
  simp

theorem mem_entries : e ∈ db.entries.rows ↔ schema.get db ⟨.entries, e.id⟩ = some (.entry e) := by
  rw [mem_rows_iff]
  change _ ↔ (db.entries.find? e.id).map Row.entry = _
  simp

theorem mem_accounts {a : LedgerAccount} :
    a ∈ db.accounts.rows ↔ schema.get db ⟨.accounts, a.id⟩ = some (.account a) := by
  rw [mem_rows_iff]
  change _ ↔ (db.accounts.find? a.id).map Row.account = _
  simp

end

theorem toHost_iff (charged : Charged db)
    (accounts : ∀ a ∈ db.accounts.rows, a ∈ db'.accounts.rows)
    (old : e ∈ db.entries.rows) : e.ToHost db' ↔ e.ToHost db := by
  constructor
  · rintro ⟨account, member, same, host⟩
    obtain ⟨known, inside, sameID⟩ := charged.accounted e old
    have eq : known = account :=
      eq_of_key (accounts known inside) member (sameID.trans same.symm)
    exact ⟨known, inside, sameID, eq ▸ host⟩
  · rintro ⟨account, member, same, host⟩
    exact ⟨account, accounts account member, same, host⟩

/-- The database `db` with a new posting in it. -/
structure Extends (p : Posting) (db db' : Db) : Prop where
  transactions : ∀ t, t ∈ db'.transactions.rows ↔ t = p.transaction ∨ t ∈ db.transactions.rows
  results : ∀ r, r ∈ db'.results.rows ↔ p.result = some r ∨ r ∈ db.results.rows
  holds : ∀ h, h ∈ db'.holds.rows ↔ h = p.hold ∨ h ∈ db.holds.rows
  entries : ∀ e, e ∈ db'.entries.rows ↔ e ∈ p.entries ∨ e ∈ db.entries.rows
  accounts : ∀ a ∈ db.accounts.rows, a ∈ db'.accounts.rows
  fresh : ∀ t ∈ db.transactions.rows, t.id ≠ p.transaction.id
  hostAccount : ∃ a ∈ db'.accounts.rows, a.id = p.hostEntry.accountID ∧ a.ownerType = .host
  otherAccounts : ∀ e ∈ p.entries, e ≠ p.hostEntry →
    ∃ a ∈ db'.accounts.rows, a.id = e.accountID ∧ a.ownerType ≠ .host

section

theorem Extends.charge (charged : Charged db) (extended : Extends p db db')
    (charge : Charge db t r h) : Charge db' t r h := by
  obtain ⟨e, member, ofTransaction, toHost, amount, alone⟩ := charge.hostEntry
  refine ⟨(extended.transactions t).mpr (.inr charge.transaction),
    (extended.results r).mpr (.inr charge.result), (extended.holds h).mpr (.inr charge.hold),
    charge.charges, charge.accepts, charge.sameJob, charge.sameAttempt, charge.sameTransaction,
    ⟨e, (extended.entries e).mpr (.inr member), ofTransaction,
      (toHost_iff charged extended.accounts member).mpr toHost, amount, ?_⟩⟩
  intro other inside same host
  rcases (extended.entries other).mp inside with new | old
  · -- the new entries belong to the new transaction
    have newTransaction := p.entered other new
    exact absurd (same.symm.trans newTransaction) (extended.fresh t charge.transaction)
  · exact alone other old same ((toHost_iff charged extended.accounts old).mp host)

theorem Extends.newCharge (charged : Charged db) (extended : Extends p db db')
    (result : p.result = some r) : Charge db' p.transaction r p.hold := by
  obtain ⟨accepted, sameJob, sameAttempt⟩ := p.completes r result
  have acceptance := p.accepts.mpr (by simp [result])
  refine ⟨(extended.transactions _).mpr (.inl rfl), (extended.results r).mpr (.inl result),
    (extended.holds _).mpr (.inl rfl), ⟨acceptance, p.posted, p.refers.1, ?_⟩, accepted,
    sameJob.symm, sameAttempt.symm, p.held, ⟨p.hostEntry, (extended.entries _).mpr (.inl p.host_mem),
      p.entered _ p.host_mem, extended.hostAccount, p.amount, ?_⟩⟩
  · rw [p.refers.2, sameJob]
  · rintro other inside same ⟨account, member, sameID, host⟩
    rcases (extended.entries other).mp inside with new | old
    · by_contra notHost
      obtain ⟨account', member', sameID', other'⟩ := extended.otherAccounts other new notHost
      exact other' (eq_of_key member member' (sameID.trans sameID'.symm) ▸ host)
    · obtain ⟨t, inDb, sameT⟩ := charged.entered other old
      exact absurd (sameT.trans same) (extended.fresh t inDb)

theorem Extends.charged (charged : Charged db) (extended : Extends p db db') : Charged db' := by
  have old : ∀ {t r h}, Charge db t r h → Charge db' t r h := extended.charge charged
  refine ⟨?_, ?_, ?_, ?_, ?_, ?_⟩
  · intro t member acceptance
    rcases (extended.transactions t).mp member with rfl | before
    · obtain ⟨r, result⟩ := isSome_iff_exists.mp (p.accepts.mp acceptance)
      exact ⟨r, p.hold, extended.newCharge charged result⟩
    · obtain ⟨r, h, charge⟩ := charged.ofTransaction t before acceptance
      exact ⟨r, h, old charge⟩
  · intro r member accepted
    rcases (extended.results r).mp member with new | before
    · exact ⟨_, _, extended.newCharge charged new⟩
    · obtain ⟨t, h, charge⟩ := charged.ofResult r before accepted
      exact ⟨t, h, old charge⟩
  · intro h member
    rcases (extended.holds h).mp member with rfl | before
    · refine ⟨p.transaction, (extended.transactions _).mpr (.inl rfl), p.held.symm, ?_⟩
      intro acceptance
      obtain ⟨r, result⟩ := isSome_iff_exists.mp (p.accepts.mp acceptance)
      exact ⟨r, extended.newCharge charged result⟩
    · obtain ⟨t, inDb, same, charge⟩ := charged.ofHold h before
      refine ⟨t, (extended.transactions t).mpr (.inr inDb), same, fun acceptance => ?_⟩
      obtain ⟨r, charge⟩ := charge acceptance
      exact ⟨r, old charge⟩
  · -- a hold of an earlier transaction is not one of the new transaction
    have apart : ∀ h ∈ db.holds.rows, h.ledgerTransactionID ≠ p.hold.ledgerTransactionID := by
      intro h before same
      obtain ⟨t, inDb, sameT, -⟩ := charged.ofHold h before
      exact extended.fresh t inDb (sameT.trans (same.trans p.held))
    intro h member h' member' same
    rcases (extended.holds h).mp member with rfl | before
    · rcases (extended.holds h').mp member' with rfl | before'
      · rfl
      · exact absurd same.symm (apart h' before')
    · rcases (extended.holds h').mp member' with rfl | before'
      · exact absurd same (apart h before)
      · exact charged.oneHold h before h' before' same
  · intro e member
    rcases (extended.entries e).mp member with new | before
    · exact ⟨p.transaction, (extended.transactions _).mpr (.inl rfl), (p.entered e new).symm⟩
    · obtain ⟨t, inDb, same⟩ := charged.entered e before
      exact ⟨t, (extended.transactions t).mpr (.inr inDb), same⟩
  · intro e member
    rcases (extended.entries e).mp member with new | before
    · by_cases host : e = p.hostEntry
      · obtain ⟨a, inDb, same, -⟩ := extended.hostAccount
        exact ⟨a, inDb, host ▸ same⟩
      · obtain ⟨a, inDb, same, -⟩ := extended.otherAccounts e new host
        exact ⟨a, inDb, same⟩
    · obtain ⟨a, inDb, same⟩ := charged.accounted e before
      exact ⟨a, extended.accounts a inDb, same⟩

end

/-! ### Commits -/

theorem Charged.transfer (charged : Charged db)
    (transactions : ∀ t, t ∈ db'.transactions.rows ↔ t ∈ db.transactions.rows)
    (results : ∀ r, r ∈ db'.results.rows ↔ r ∈ db.results.rows)
    (holds : ∀ h, h ∈ db'.holds.rows ↔ h ∈ db.holds.rows)
    (entries : ∀ e, e ∈ db'.entries.rows ↔ e ∈ db.entries.rows)
    (accounts : ∀ a ∈ db.accounts.rows, a ∈ db'.accounts.rows) : Charged db' := by
  have charge : ∀ {t r h}, Charge db t r h → Charge db' t r h := by
    rintro t r h charge
    obtain ⟨e, member, ofTransaction, toHost, amount, alone⟩ := charge.hostEntry
    refine ⟨(transactions t).mpr charge.transaction, (results r).mpr charge.result,
      (holds h).mpr charge.hold, charge.charges, charge.accepts, charge.sameJob,
      charge.sameAttempt, charge.sameTransaction, ⟨e, (entries e).mpr member, ofTransaction,
        (toHost_iff charged accounts member).mpr toHost, amount, ?_⟩⟩
    intro other inside same host
    have old := (entries other).mp inside
    exact alone other old same ((toHost_iff charged accounts old).mp host)
  refine ⟨?_, ?_, ?_, ?_, ?_, ?_⟩
  · intro t member acceptance
    obtain ⟨r, h, old⟩ := charged.ofTransaction t ((transactions t).mp member) acceptance
    exact ⟨r, h, charge old⟩
  · intro r member accepted
    obtain ⟨t, h, old⟩ := charged.ofResult r ((results r).mp member) accepted
    exact ⟨t, h, charge old⟩
  · intro h member
    obtain ⟨t, inDb, same, old⟩ := charged.ofHold h ((holds h).mp member)
    refine ⟨t, (transactions t).mpr inDb, same, fun acceptance => ?_⟩
    obtain ⟨r, old⟩ := old acceptance
    exact ⟨r, charge old⟩
  · intro h member h' member' same
    exact charged.oneHold h ((holds h).mp member) h' ((holds h').mp member') same
  · intro e member
    obtain ⟨t, inDb, same⟩ := charged.entered e ((entries e).mp member)
    exact ⟨t, (transactions t).mpr inDb, same⟩
  · intro e member
    obtain ⟨a, inDb, same⟩ := charged.accounted e ((entries e).mp member)
    exact ⟨a, accounts a inDb, same⟩

section

variable {ws : List (Write Row)}

theorem untouched_plain (plain : Plain ws) {k : Key} (member : k.table ∈ chargeTables) :
    schema.get (schema.overlay db ws) k = schema.get db k := by
  rw [schema.get_overlay, written_apart fun w inside same => plain w inside (same ▸ member),
    none_or]

theorem results_plain (plain : Plain ws) (r : JobResult) :
    r ∈ (schema.overlay db ws).results.rows ↔ r ∈ db.results.rows := by
  rw [mem_results, mem_results, untouched_plain plain (by simp [chargeTables])]

theorem charged_plain (plain : Plain ws) (charged : Charged db)
    (accounts : ∀ a ∈ db.accounts.rows, a ∈ (schema.overlay db ws).accounts.rows) :
    Charged (schema.overlay db ws) := by
  refine charged.transfer (fun t => ?_) (results_plain plain) (fun h => ?_) (fun e => ?_) accounts
  · rw [mem_transactions, mem_transactions, untouched_plain plain (by simp [chargeTables])]
  · rw [mem_holds, mem_holds, untouched_plain plain (by simp [chargeTables])]
  · rw [mem_entries, mem_entries, untouched_plain plain (by simp [chargeTables])]

variable (fresh : ∀ row, .insert row ∈ ws → schema.get db row.key = none)
  (kept : ∀ (k : Key) old, k.table = .accounts → schema.get db k = some old →
    schema.get (schema.overlay db ws) k = some old)

include kept in
theorem accounts_kept : ∀ a ∈ db.accounts.rows, a ∈ (schema.overlay db ws).accounts.rows := by
  intro a member
  rw [mem_accounts] at member ⊢
  exact kept _ _ rfl member

include fresh

theorem extends_of_writtenBy (written : p.WrittenBy ws)
    (accounts : ∀ a ∈ db.accounts.rows, a ∈ (schema.overlay db ws).accounts.rows) :
    Extends p db (schema.overlay db ws) := by
  have new : ∀ (k : Key) row, k.table ∈ chargeTables → schema.written ws k = some row →
      schema.get db k = none := by
    intro k row charged found
    obtain ⟨inserted, member, same⟩ := written.inserted k row charged found
    exact same ▸ fresh inserted member
  -- a row of these tables is one the posting wrote, or it was there before
  have split : ∀ (k : Key) row, k.table ∈ chargeTables →
      (schema.get (schema.overlay db ws) k = some row ↔
        schema.written ws k = some row ∨ schema.get db k = some row) := by
    intro k row charged
    rw [schema.get_overlay]
    cases found : schema.written ws k with
    | none => simp
    | some other => simp [new k other charged found]
  have entersAccount : ∀ {e a}, EntersInto ws e a → a ∈ (schema.overlay db ws).accounts.rows := by
    rintro e a ⟨-, found⟩
    rw [mem_accounts, schema.get_overlay, found]
    rfl
  refine ⟨?_, ?_, ?_, ?_, accounts, ?_, ?_, ?_⟩
  · intro t
    rw [mem_transactions, mem_transactions, split _ _ (by simp [chargeTables]),
      written.transactions]
  · intro r
    rw [mem_results, mem_results, split _ _ (by simp [chargeTables]), written.results]
  · intro h
    rw [mem_holds, mem_holds, split _ _ (by simp [chargeTables]), written.holds]
  · intro e
    rw [mem_entries, mem_entries, split _ _ (by simp [chargeTables]), written.entries]
  · intro t member same
    rw [mem_transactions, same, new _ _ (by simp [chargeTables])
      ((written.transactions p.transaction).mpr rfl)] at member
    cases member
  · obtain ⟨a, enters, host, -⟩ := written.hostAccount
    exact ⟨a, entersAccount enters, enters.1, host⟩
  · intro e member other
    obtain ⟨a, enters, notHost⟩ := written.otherAccounts e member other
    exact ⟨a, entersAccount enters, enters.1, notHost⟩

include kept

theorem results_commit {completion : Option (JobID × AttemptID)} (posts : Posts ws completion) :
    ∃ new : Option JobResult, new.map (fun r => (r.jobID, r.attemptID)) = completion ∧
      (∀ r ∈ new, r.accepted = true) ∧
      ∀ r, r ∈ (schema.overlay db ws).results.rows ↔ new = some r ∨ r ∈ db.results.rows := by
  have accounts := accounts_kept kept
  cases completion with
  | none =>
    refine ⟨none, rfl, by simp, fun r => ?_⟩
    rcases posts with plain | ⟨p, written, noResult⟩
    · simp [results_plain plain]
    · rw [(extends_of_writtenBy fresh written accounts).results, noResult]
  | some completed =>
    obtain ⟨p, r, written, result, job, attempt⟩ := posts
    refine ⟨some r, by simp [job, attempt], ?_, fun r' => ?_⟩
    · rintro r' same
      exact Option.some.inj same ▸ (p.completes r result).1
    · rw [(extends_of_writtenBy fresh written accounts).results, result]

theorem holds_completion {jobID : JobID} {attemptID : AttemptID}
    (posts : Posts ws (some (jobID, attemptID))) :
    ∃ new : HostCreditHold, new.attemptID = attemptID ∧
      ∀ h, h ∈ (schema.overlay db ws).holds.rows ↔ h = new ∨ h ∈ db.holds.rows := by
  obtain ⟨p, r, written, result, -, attempt⟩ := posts
  exact ⟨p.hold, (p.completes r result).2.2.symm.trans attempt,
    (extends_of_writtenBy fresh written (accounts_kept kept)).holds⟩

theorem holds_commit (writes : Plain ws ∨ ∃ p : Posting, p.WrittenBy ws)
    (member : h ∈ db.holds.rows) : h ∈ (schema.overlay db ws).holds.rows := by
  rcases writes with plain | ⟨p, written⟩
  · rw [mem_holds, untouched_plain plain (by simp [chargeTables]), ← mem_holds]
    exact member
  · exact ((extends_of_writtenBy fresh written (accounts_kept kept)).holds h).mpr (.inr member)

theorem transactions_completion {completed : JobID × AttemptID} (posts : Posts ws (some completed))
    (member : t ∈ (schema.overlay db ws).transactions.rows) :
    t.transactionType = .jobAcceptance ∨ t ∈ db.transactions.rows := by
  obtain ⟨p, r, written, result, -⟩ := posts
  have extended := extends_of_writtenBy fresh written (accounts_kept kept)
  rcases (extended.transactions t).mp member with rfl | old
  · exact .inl (p.accepts.mpr (by simp [result]))
  · exact .inr old

theorem charged_commit (writes : Plain ws ∨ ∃ p : Posting, p.WrittenBy ws) (charged : Charged db) :
    Charged (schema.overlay db ws) := by
  have accounts := accounts_kept kept
  rcases writes with plain | ⟨p, written⟩
  · exact charged_plain plain charged accounts
  · exact (extends_of_writtenBy fresh written accounts).charged charged

end

/-! ### The charges of a job -/

/-- At most one transaction, result and hold charge for the job, and they come together: the hold
is for the attempt of the result, and its amount is what the host entry of the transaction
credits. -/
structure OneCharge (db : Db) (jobID : JobID) : Prop where
  transaction : ∀ t ∈ db.transactions.rows, ∀ t' ∈ db.transactions.rows,
    t.Charges jobID → t'.Charges jobID → t = t'
  result : ∀ r ∈ db.results.rows, ∀ r' ∈ db.results.rows,
    r.Accepts jobID → r'.Accepts jobID → r = r'
  hold : ∀ h ∈ db.holds.rows, ∀ h' ∈ db.holds.rows,
    h.Credits db jobID → h'.Credits db jobID → h = h'
  together : (∃ t ∈ db.transactions.rows, t.Charges jobID) ∨
      (∃ r ∈ db.results.rows, r.Accepts jobID) ∨ (∃ h ∈ db.holds.rows, h.Credits db jobID) →
    ∃ t r h, r.jobID = jobID ∧ Charge db t r h

theorem charged_boot (catalog : Catalog) (nodes : Table Node.id) :
    Charged (boot catalog nodes).db := by
  constructor <;> simp [boot]

theorem oneCharge_of_charged (unique : schema.Unique db) (charged : Charged db)
    (jobID : JobID) : OneCharge db jobID := by
  -- the partial unique index over posted acceptances
  have oneTransaction : ∀ t ∈ db.transactions.rows, ∀ t' ∈ db.transactions.rows,
      t.Charges jobID → t'.Charges jobID → t = t' := by
    intro t member t' member' charges charges'
    have inIndex : ∀ {t : LedgerTransaction}, t.Charges jobID →
        Index.oneJobAcceptance "job" jobID ∈ schema.index (.transaction t) := by
      rintro t ⟨acceptance, posted, job, same⟩
      simp [schema, Row.index, acceptance, posted, job, same]
    have same := unique (mem_transactions.mp member) (mem_transactions.mp member')
      (inIndex charges) (inIndex charges')
    exact eq_of_key member member' (congrArg Key.id same)
  -- results and holds follow their transaction
  have oneHold : ∀ {t t' r r' h h'}, Charge db t r h → Charge db t' r' h' → r.jobID = jobID →
      r'.jobID = jobID → h = h' := by
    intro t t' r r' h h' charge charge' job job'
    have same := oneTransaction t charge.transaction t' charge'.transaction
      (job ▸ charge.charges) (job' ▸ charge'.charges)
    exact charged.oneHold h charge.hold h' charge'.hold
      (charge.sameTransaction.trans (same ▸ charge'.sameTransaction.symm))
  refine ⟨oneTransaction, ?_, ?_, ?_⟩
  · rintro r member r' member' ⟨accepted, job⟩ ⟨accepted', job'⟩
    obtain ⟨t, h, charge⟩ := charged.ofResult r member accepted
    obtain ⟨t', h', charge'⟩ := charged.ofResult r' member' accepted'
    have sameHold := oneHold charge charge' job job'
    have sameAttempt : r.attemptID = r'.attemptID :=
      charge.sameAttempt.symm.trans (sameHold ▸ charge'.sameAttempt)
    have entry : Index.resultAttempt r.attemptID ∈ schema.index (.result r) :=
      List.mem_cons_self
    have entry' : Index.resultAttempt r.attemptID ∈ schema.index (.result r') :=
      List.mem_singleton.mpr (sameAttempt ▸ rfl)
    have same := unique (mem_results.mp member) (mem_results.mp member') entry entry'
    exact eq_of_key member member' (congrArg Key.id same)
  · rintro h member h' member' ⟨job, t, inDb, same, acceptance⟩ ⟨job', t', inDb', same', acceptance'⟩
    have known : ∀ {h : HostCreditHold} {t : LedgerTransaction}, h ∈ db.holds.rows →
        t ∈ db.transactions.rows → t.id = h.ledgerTransactionID →
        t.transactionType = .jobAcceptance → ∃ t r, Charge db t r h := by
      intro h t member inDb same acceptance
      obtain ⟨t', inDb', same', charge⟩ := charged.ofHold h member
      have eq : t = t' := eq_of_key inDb inDb' (same.trans same'.symm)
      obtain ⟨r, charge⟩ := charge (eq ▸ acceptance)
      exact ⟨t', r, charge⟩
    obtain ⟨_, r, charge⟩ := known member inDb same acceptance
    obtain ⟨_, r', charge'⟩ := known member' inDb' same' acceptance'
    exact oneHold charge charge' (charge.sameJob.symm.trans job) (charge'.sameJob.symm.trans job')
  · rintro (⟨t, member, charges⟩ | ⟨r, member, accepted, job⟩ | ⟨h, member, job, t, inDb, same, acceptance⟩)
    · obtain ⟨r, h, charge⟩ := charged.ofTransaction t member charges.1
      exact ⟨t, r, h, charge.charges.2.2.2.symm.trans charges.2.2.2, charge⟩
    · obtain ⟨t, h, charge⟩ := charged.ofResult r member accepted
      exact ⟨t, r, h, job, charge⟩
    · obtain ⟨t', inDb', same', charge⟩ := charged.ofHold h member
      have eq : t = t' := eq_of_key inDb inDb' (same.trans same'.symm)
      obtain ⟨r, charge⟩ := charge (eq ▸ acceptance)
      exact ⟨t', r, h, charge.sameJob.symm.trans job, charge⟩

/-- In every interleaving of the coordinator's transactions, statement by statement, every job is
charged at most once. -/
theorem at_most_one_charge {catalog : Catalog} {nodes : Table Node.id}
    {c : Shared Db Row Key Index GoError}
    (reached : ReadCommitted.Reachable schema Begun (boot catalog nodes).db c) (jobID : JobID) :
    OneCharge c.committed jobID := by
  have unique : schema.Unique (boot catalog nodes).db := unique_boot catalog nodes
  have charged : Charged c.committed := by
    refine reached.invariant unique (fun _ => keepsAccounts_begun) (fun _ => emits_begun) ?_
      fun db ws charged writes fresh kept => charged_commit fresh kept writes charged
    exact charged_boot catalog nodes
  exact oneCharge_of_charged (reached.isolated unique).unique charged jobID

namespace Deployment

/-- A job, an attempt that is accepted, and two transactions that complete it at the same time. -/
def completedTwice : List (Input × StoreCall) :=
  [(drawing "j", .createJob "org" "ak" "m" 1000),
    (drawing "a", .createAttempt "j0" "n1" 1 2000 3000),
    (idle, .markAccepted "j0" "a0"),
    (drawing "c", .completeJob (payload "j0" "a0") 1000 0 "accepted" "public" 1),
    (drawing "d", .completeJob (payload "j0" "a0") 1000 0 "accepted" "public" 1)]

/-- The second completion looks for other successes before the first one starts, and then waits. -/
def completionOrder : List Nat :=
  [0, 0, 1, 1, 1, 2, 2, 2, 4] ++ List.replicate 21 3 ++ [4, 4]

def completedTwiceTxs : List (SqlTx Unit) :=
  completedTwice.map fun (input, call) => do
    let _ ← call.tx input
    pure ()

def completedTwiceFrom : Shared Db Row Key Index GoError :=
  ⟨start.db, completedTwiceTxs.map fun t => some ⟨t, [], []⟩⟩

end Deployment

theorem at_most_one_charge_completedTwice : ∃ c,
    ReadCommitted.Reachable schema Begun start.db c ∧
    (c.committed.transactions.rows.map (fun t => (t.id, t.status)) = [("c1", .posted)] ∧
      c.committed.attemptStatus "a0" = some .succeeded) ∧ OneCharge c.committed "j0" := by
  have evaluated : ((ReadCommitted.advanceAll schema completionOrder
      completedTwiceFrom).any fun c => decide (
        c.committed.transactions.rows.map (fun t => (t.id, t.status)) = [("c1", .posted)] ∧
        c.committed.attemptStatus "a0" = some .succeeded)) = true := by decide +kernel
  obtain ⟨c, advanced, holds⟩ := (any_eq_true _ _).mp evaluated
  have base : ReadCommitted.Reachable schema Begun start.db
      ⟨start.db, []⟩ := .start
  have allowed : ∀ t ∈ completedTwiceTxs, Begun t := by
    intro t member
    obtain ⟨⟨input, call⟩, -, rfl⟩ := List.mem_map.mp member
    exact ⟨input, call, rfl⟩
  have begun : ReadCommitted.Reachable schema Begun start.db
      completedTwiceFrom := base.startAll allowed
  have reached := begun.advanceAll advanced
  exact ⟨c, reached, of_decide_eq_true holds, at_most_one_charge reached "j0"⟩

end Thirdshift
