import Thirdshift.Foundation.ReadCommitted
import Thirdshift.Jobs.Effects

/-!
# What a posting writes

The rows that `CompleteJob` and `PostVerificationOverhead` have written when they are ready to
commit, whatever other transactions commit between their statements, and that every other call of
the coordinator stays away from results, transactions, entries and holds.
-/

namespace Thirdshift

open Foundation List Tx Ledger Row Write Store

variable {ws : List (Write Row)} {e : GoError} {k : Key} {receivedAt : Time}
  {creditHold : Duration} {t : SqlTx Unit}

/-! ### Statements, one at a time -/

section

variable {α β : Type} {Q : List (Write Row) → β → Prop}

theorem emits_require {c : Prop} [Decidable c] {f : Unit → SqlTx β}
    (next : c → Tx.Emits schema Q (f ()) ws) : Tx.Emits schema Q (require c e >>= f) ws := by
  unfold require
  split
  next holds => exact next holds
  · trivial

theorem emits_insertRow {row : Row} {f : Unit → SqlTx β} (next : schema.written ws row.key = none →
      Tx.Emits schema Q (f ()) (ws ++ [.insert row])) :
    Tx.Emits schema Q (insertRow row >>= f) ws := by
  refine emits_write fun base seen admitted => next ?_
  simp only [Schema.applyWrites] at admitted
  split at admitted
  next admits =>
    have absent := absent_of_admits admits
    change schema.get (schema.overlay base ws) row.key = none at absent
    rw [schema.get_overlay, Option.or_eq_none_iff] at absent
    exact absent.1
  · cases admitted

theorem emits_insertRow_last {row : Row} {Q : List (Write Row) → Unit → Prop}
    (last : Q (ws ++ [.insert row]) ()) : Tx.Emits schema Q (insertRow row) ws := by
  intro base new seen ok admitted
  cases ok
  exact last

theorem emits_insertDraft {tx : LedgerTransaction} {rest : SqlTx β}
    (next : Tx.Emits schema Q rest (ws ++ [.insert (.transaction tx)])) :
    Tx.Emits schema Q (do
      let inserted ← insertDraft tx
      require (inserted ≠ 0) e
      rest) ws := by
  refine emits_write fun base seen admitted => emits_require fun inserted => ?_
  split at inserted
  · exact absurd rfl inserted
  next absent =>
    rw [if_neg absent]
    exact next

theorem emits_ensureAccount {accountID ownerID accountType : String} {ownerType : AccountOwner}
    {f : String → SqlTx β}
    (next : ∀ account w, w.row = .account account → account.ownerType = ownerType →
      account.ownerID = ownerID → account.accountType = accountType →
      (∀ row, schema.written ws ⟨.accounts, account.id⟩ = some row → row = .account account) →
      Tx.Emits schema Q (f account.id) (ws ++ [w])) :
    Tx.Emits schema Q (ensureAccount accountID ownerType ownerID accountType >>= f) ws := by
  refine emits_write fun base seen admitted => ?_
  cases found : findAccount (schema.overlay base ws) ownerType ownerID accountType with
  | none =>
    simp only [found, Schema.applyWrites] at admitted ⊢
    split at admitted
    next admits =>
      refine next ⟨accountID, ownerType, ownerID, accountType⟩ _ rfl rfl rfl rfl fun row written => ?_
      have absent := absent_of_admits admits
      change schema.get (schema.overlay base ws) ⟨.accounts, accountID⟩ = none at absent
      rw [schema.get_overlay, written] at absent
      cases absent
    · cases admitted
  | some account =>
    simp only [found] at admitted ⊢
    have matched : account.ownerType = ownerType ∧ account.ownerID = ownerID ∧
        account.accountType = accountType := by
      simpa [findAccount] using find?_some found
    have present : schema.get (schema.overlay base ws) ⟨.accounts, account.id⟩ =
        some (.account account) := by
      change ((schema.overlay base ws).accounts.find? account.id).map Row.account = _
      rw [Table.find?_of_mem (mem_of_find?_eq_some found)]
      rfl
    refine next account _ rfl matched.1 matched.2.1 matched.2.2 fun row written => ?_
    rw [schema.get_overlay, written] at present
    exact Option.some.inj present

variable {f : Nat → SqlTx β}

theorem emits_updateKey {ρ : Type} {key : ρ → String} {table : Db → Table key}
    {row : ρ → Row} {name : TableName}
    (get : ∀ db k, schema.get db ⟨name, k⟩ = ((table db).find? k).map row)
    (inj : ∀ {r q}, row r = row q → r = q) {r : ρ} {k : String} {g : ρ → ρ}
    (written : schema.written ws ⟨name, k⟩ = some (row r))
    (next : ∀ n, Tx.Emits schema Q (f n) (ws ++ [.update (row (g r))])) :
    Tx.Emits schema Q (updateRows table row (fun r => key r = k) g >>= f) ws := by
  refine emits_write fun base seen admitted => ?_
  have seen : (table (schema.overlay base ws)).find? k = some r := by
    have view := get (schema.overlay base ws) k
    rw [schema.get_overlay, written, Option.some_or] at view
    obtain ⟨q, found, same⟩ := Option.map_eq_some_iff.mp view.symm
    exact inj same ▸ found
  rw [Table.updated_key, seen]
  exact next _

theorem emits_markPosted (tx : LedgerTransaction) {at' : Time}
    (written : schema.written ws ⟨.transactions, tx.id⟩ = some (.transaction tx))
    (next : ∀ n, Tx.Emits schema Q (f n)
      (ws ++ [.update (.transaction { tx with status := .posted, postedAt := some at' })])) :
    Tx.Emits schema Q (markPosted tx.id at' >>= f) ws :=
  emits_updateKey (fun _ _ => rfl) (fun same => by cases same; rfl) written next

theorem emits_updateResult (result : JobResult) {g : JobResult → JobResult}
    (written : schema.written ws ⟨.results, result.id⟩ = some (.result result))
    (next : ∀ n, Tx.Emits schema Q (f n) (ws ++ [.update (.result (g result))])) :
    Tx.Emits schema Q (updateResults (fun r => r.id = result.id) g >>= f) ws :=
  emits_updateKey (fun _ _ => rfl) (fun same => by cases same; rfl) written next

end

/-! ### Postings -/

/-- The rows of one posting and how they refer to each other. The result is there when the posting
charges for a job. -/
structure Posting where
  transaction : LedgerTransaction
  hold : HostCreditHold
  hostEntry : LedgerEntry
  entries : List LedgerEntry
  result : Option JobResult
  posted : transaction.status = .posted
  refers : transaction.referenceType = "job" ∧ transaction.referenceID = hold.jobID
  held : hold.ledgerTransactionID = transaction.id
  host_mem : hostEntry ∈ entries
  entered : ∀ e ∈ entries, e.transactionID = transaction.id
  amount : hostEntry.amountMicrodollars = -hold.amountMicrodollars
  accepts : transaction.transactionType = .jobAcceptance ↔ result.isSome
  completes : ∀ r, result = some r →
    r.accepted = true ∧ r.jobID = hold.jobID ∧ r.attemptID = hold.attemptID

def EntersInto (ws : List (Write Row)) (e : LedgerEntry) (account : LedgerAccount) : Prop :=
  account.id = e.accountID ∧ schema.written ws ⟨.accounts, account.id⟩ = some (.account account)

def chargeTables : List TableName := [.results, .transactions, .entries, .holds]

/-- Of the results, transactions, entries and holds, exactly the rows of the posting are written,
each of them is new, and only its host entry goes to an account of a host. -/
structure Posting.WrittenBy (p : Posting) (ws : List (Write Row)) : Prop where
  transactions : ∀ t, schema.written ws ⟨.transactions, t.id⟩ = some (.transaction t) ↔
    t = p.transaction
  holds : ∀ h, schema.written ws ⟨.holds, h.id⟩ = some (.hold h) ↔ h = p.hold
  entries : ∀ e, schema.written ws ⟨.entries, e.id⟩ = some (.entry e) ↔ e ∈ p.entries
  results : ∀ r, schema.written ws ⟨.results, r.id⟩ = some (.result r) ↔ p.result = some r
  inserted : ∀ k row, k.table ∈ chargeTables → schema.written ws k = some row →
    ∃ new, .insert new ∈ ws ∧ new.key = k
  hostAccount : ∃ account, EntersInto ws p.hostEntry account ∧ account.ownerType = .host ∧
    account.ownerID = p.hold.nodeID ∧ account.accountType = accountHostPendingCredit
  otherAccounts : ∀ e ∈ p.entries, e ≠ p.hostEntry →
    ∃ account, EntersInto ws e account ∧ account.ownerType ≠ .host

def Plain (ws : List (Write Row)) : Prop := ∀ w ∈ ws, w.row.table ∉ chargeTables

/-- A completion writes a posting with a result of its attempt. Any other transaction stays away
from those tables, or writes a posting without a result. -/
def Posts (ws : List (Write Row)) : Option (JobID × AttemptID) → Prop
  | some (jobID, attemptID) => ∃ (p : Posting) (r : JobResult), p.WrittenBy ws ∧
      p.result = some r ∧ r.jobID = jobID ∧ r.attemptID = attemptID
  | none => Plain ws ∨ ∃ p : Posting, p.WrittenBy ws ∧ p.result = none

theorem Posts.plain_or_posting {completion : Option (JobID × AttemptID)}
    (posts : Posts ws completion) : Plain ws ∨ ∃ p : Posting, p.WrittenBy ws := by
  cases completion with
  | some completed =>
    obtain ⟨p, _, written, -⟩ := posts
    exact .inr ⟨p, written⟩
  | none => exact posts.imp_right fun ⟨p, written, _⟩ => ⟨p, written⟩

section

def ledgerWrites (draft : LedgerTransaction) (accounts : List (Write Row)) (p : Posting) :
    List (Write Row) :=
  [.insert (.transaction draft)] ++ accounts ++ p.entries.map (fun e => .insert (.entry e)) ++
    [.update (.transaction p.transaction), .insert (.hold p.hold)]

theorem written_apart (apart : ∀ w ∈ ws, w.row.table ≠ k.table) : schema.written ws k = none := by
  rw [schema.written_eq_none]
  intro w member same
  exact apart w member (congrArg Key.table same)

theorem written_inserts {es : List LedgerEntry} (distinct : (es.map LedgerEntry.id).Nodup)
    (e : LedgerEntry) :
    schema.written (es.map fun e => .insert (.entry e)) ⟨.entries, e.id⟩ = some (.entry e) ↔
      e ∈ es := by
  induction es with
  | nil => simp [Schema.written]
  | cons head es ih =>
    simp only [map_cons, nodup_cons] at distinct
    rw [map_cons, ← singleton_append, schema.written_append, schema.written_singleton,
      mem_cons, ← ih distinct.2]
    by_cases same : head.id = e.id
    · -- the head's identifier occurs nowhere in the tail
      have absent : schema.written (es.map fun e => .insert (.entry e)) ⟨.entries, e.id⟩ = none := by
        rw [schema.written_eq_none]
        intro w member hit
        obtain ⟨other, inTail, rfl⟩ := mem_map.mp member
        refine distinct.1 (same ▸ mem_map.mpr ⟨other, inTail, ?_⟩)
        exact congrArg Key.id hit
      have key : schema.key (insert (entry head)).row = ⟨.entries, e.id⟩ := by
        simp [row, key, same]
      rw [absent, if_pos key]
      simp [row, eq_comm]
    · have key : schema.key (insert (entry head)).row ≠ ⟨.entries, e.id⟩ := by
        simpa [row, key] using same
      have other : e ≠ head := fun eq => same (eq ▸ rfl)
      rw [if_neg key]
      simp [other]

variable {p : Posting} {draft : LedgerTransaction} {accounts before after : List (Write Row)}

theorem written_around (clean : ∀ w ∈ before ++ after, w.row.table ∉ tables)
    (ledger : k.table ∈ tables) :
    schema.written (before ++ ledgerWrites draft accounts p ++ after) k =
      schema.written (ledgerWrites draft accounts p) k := by
  have apart : ∀ ws : List (Write Row), ws ⊆ before ++ after → schema.written ws k = none :=
    fun ws part => written_apart fun w member same => clean w (part member) (same ▸ ledger)
  rw [schema.written_append, schema.written_append, apart after (by simp), apart before (by simp)]
  simp

theorem written_result (accountRows : ∀ w ∈ accounts, w.row.table = .accounts) (id : String) :
    schema.written (before ++ ledgerWrites draft accounts p ++ after) ⟨.results, id⟩ =
      schema.written (before ++ after) ⟨.results, id⟩ := by
  have none : schema.written (ledgerWrites draft accounts p) ⟨.results, id⟩ = none := by
    apply written_apart
    intro w member
    simp only [ledgerWrites, mem_append, mem_map, mem_cons, not_mem_nil,
      or_false] at member
    rcases member with ((rfl | account) | ⟨e, -, rfl⟩) | rfl | rfl
    · exact TableName.noConfusion
    · rw [accountRows w account]
      exact TableName.noConfusion
    all_goals exact TableName.noConfusion
  simp [schema.written_append, none]

theorem written_ledger (accountRows : ∀ w ∈ accounts, w.row.table = .accounts)
    (drafted : draft.id = p.transaction.id) (k : Key) :
    schema.written (ledgerWrites draft accounts p) k =
      match k.table with
      | .transactions =>
        if p.transaction.id = k.id then some (.transaction p.transaction) else none
      | .holds => if p.hold.id = k.id then some (.hold p.hold) else none
      | .entries => schema.written (p.entries.map fun e => .insert (.entry e)) k
      | .accounts => schema.written accounts k
      | _ => none := by
  obtain ⟨table, id⟩ := k
  have accountsApart : table ≠ .accounts → schema.written accounts ⟨table, id⟩ = none := by
    intro other
    exact written_apart fun w member same => other (same.symm.trans (accountRows w member))
  have entriesApart : table ≠ .entries →
      schema.written (p.entries.map fun e => .insert (.entry e)) ⟨table, id⟩ = none := by
    intro other
    refine written_apart fun w member same => other ?_
    obtain ⟨e, -, rfl⟩ := mem_map.mp member
    exact same.symm
  have tail : ([.update (.transaction p.transaction), .insert (.hold p.hold)] : List (Write Row)) =
      [.update (.transaction p.transaction)] ++ [.insert (.hold p.hold)] := rfl
  rw [ledgerWrites, tail]
  simp only [schema.written_append, schema.written_singleton]
  cases table <;> simp [accountsApart, entriesApart, row, key, drafted]
  all_goals (split <;> simp)

/-- What the statements of a posting have to establish about its entries and their accounts. -/
structure Entered (p : Posting) (draft : LedgerTransaction) (accounts : List (Write Row)) :
    Prop where
  drafted : draft.id = p.transaction.id
  accountRows : ∀ w ∈ accounts, w.row.table = .accounts
  distinct : (p.entries.map LedgerEntry.id).Nodup
  hostAccount : ∃ account, EntersInto accounts p.hostEntry account ∧ account.ownerType = .host ∧
    account.ownerID = p.hold.nodeID ∧ account.accountType = accountHostPendingCredit
  otherAccounts : ∀ e ∈ p.entries, e ≠ p.hostEntry →
    ∃ account, EntersInto accounts e account ∧ account.ownerType ≠ .host

theorem Entered.writtenBy (entered : Entered p draft accounts)
    (clean : ∀ w ∈ before ++ after, w.row.table ∉ tables)
    (results : ∀ r, schema.written (before ++ after) ⟨.results, r.id⟩ = some (.result r) ↔
      p.result = some r)
    (insertedResult : ∀ id row, schema.written (before ++ after) ⟨.results, id⟩ = some row →
      ∃ new, .insert new ∈ before ++ after ∧ new.key = ⟨.results, id⟩) :
    p.WrittenBy (before ++ ledgerWrites draft accounts p ++ after) := by
  obtain ⟨drafted, accountRows, distinct, hostAccount, otherAccounts⟩ := entered
  have ledger : ∀ k : Key, k.table ∈ tables →
      schema.written (before ++ ledgerWrites draft accounts p ++ after) k =
        schema.written (ledgerWrites draft accounts p) k := fun k => written_around clean
  have within := written_ledger accountRows drafted
  have account : ∀ {e account}, EntersInto accounts e account →
      EntersInto (before ++ ledgerWrites draft accounts p ++ after) e account := by
    rintro e account ⟨same, written⟩
    refine ⟨same, ?_⟩
    rw [ledger _ (by simp [tables]), within]
    exact written
  -- table by table: the last row under each key is that of the posting
  refine ⟨?_, ?_, ?_, ?_, ?_, ?_, ?_⟩
  · intro t
    rw [ledger _ (by simp [tables]), within]
    by_cases here : p.transaction.id = t.id
    · simp [here, eq_comm]
    · have other : t ≠ p.transaction := fun eq => here (eq ▸ rfl)
      simp [here, other]
  · intro h
    rw [ledger _ (by simp [tables]), within]
    by_cases here : p.hold.id = h.id
    · simp [here, eq_comm]
    · have other : h ≠ p.hold := fun eq => here (eq ▸ rfl)
      simp [here, other]
  · intro e
    rw [ledger _ (by simp [tables]), within]
    exact written_inserts distinct e
  · intro r
    rw [written_result accountRows]
    exact results r
  · -- each row of the posting is inserted at some point, so its key was new
    rintro ⟨table, id⟩ row charged written
    have inside : ∀ w ∈ ledgerWrites draft accounts p,
        w ∈ before ++ ledgerWrites draft accounts p ++ after := by simp +contextual
    cases table with
    | results =>
      rw [written_result accountRows] at written
      obtain ⟨new, member, key⟩ := insertedResult id row written
      rcases mem_append.mp member with early | late
      · exact ⟨new, by simp [early], key⟩
      · exact ⟨new, by simp [late], key⟩
    | transactions =>
      rw [ledger _ (by simp [tables]), within] at written
      have same : p.transaction.id = id := (Option.ite_none_right_eq_some.mp written).1
      exact ⟨.transaction draft, inside _ (by simp [ledgerWrites]), by simp [key, drafted, same]⟩
    | holds =>
      rw [ledger _ (by simp [tables]), within] at written
      have same : p.hold.id = id := (Option.ite_none_right_eq_some.mp written).1
      exact ⟨.hold p.hold, inside _ (by simp [ledgerWrites]), by simp [key, same]⟩
    | entries =>
      rw [ledger _ (by simp [tables]), within] at written
      obtain ⟨w, member, rfl⟩ := schema.written_mem written
      have key := schema.key_of_written written
      obtain ⟨e, ofPosting, rfl⟩ := mem_map.mp member
      exact ⟨.entry e, inside _ (by simp [ledgerWrites, ofPosting]), key⟩
    | _ => simp [chargeTables] at charged
  · obtain ⟨owner, enters, facts⟩ := hostAccount
    exact ⟨owner, account enters, facts⟩
  · intro e member other
    obtain ⟨owner, enters, notHost⟩ := otherAccounts e member other
    exact ⟨owner, account enters, notHost⟩

end

/-! ### The two calls that post -/

section

variable {ids : Nat → String}

theorem account_apart {before : List (Write Row)} {w : Write Row} {a b : LedgerAccount}
    (row : w.row = .account a) (owners : a.ownerType ≠ b.ownerType)
    (same : ∀ row, schema.written (before ++ [w]) ⟨.accounts, b.id⟩ = some row → row = .account b) :
    a.id ≠ b.id := by
  intro eq
  have hit : schema.written (before ++ [w]) ⟨.accounts, b.id⟩ = some (.account a) := by
    simp [row, eq]
  exact owners (congrArg LedgerAccount.ownerType (account.inj (same _ hit)))

def acceptedPosting (ids : Nat → String) (posting : AcceptedJobPosting) (pricing : Pricing)
    (customerAccount hostAccount marginAccount : String) (r : JobResult)
    (completes : r.accepted = true ∧ r.jobID = posting.jobID ∧ r.attemptID = posting.attemptID) :
    Posting :=
  let customerCharge := wrap64 (
    chargeForTokens posting.promptTokens pricing.price.customerInputPerMillion +
    chargeForTokens posting.completionTokens pricing.price.customerOutputPerMillion)
  let hostCredit :=
    chargeForTokens posting.completionTokens pricing.price.hostCreditPerMillionOutput
  let platformMargin :=
    wrap64 (customerCharge - hostCredit - max posting.verificationOverheadMicrodollars 0)
  let hostEntry : LedgerEntry :=
    ⟨ids 5, ids 0, hostAccount, wrap64 (-hostCredit), "host pending credit"⟩
  { transaction :=
      ⟨ids 0, .jobAcceptance, .posted, "job", posting.jobID, some posting.receivedAt, none⟩
    hold := ⟨ids 9, pricing.nodeID, posting.jobID, posting.attemptID, ids 0, hostCredit, .pending,
      posting.receivedAt + (if posting.creditHold ≤ 0 then defaultCreditHold else posting.creditHold),
      none⟩
    hostEntry := hostEntry
    entries := [⟨ids 4, ids 0, customerAccount, customerCharge, "customer usage charge"⟩, hostEntry,
      ⟨ids 8, ids 0, marginAccount, wrap64 (-platformMargin), "platform margin"⟩]
    result := some r
    posted := rfl
    refers := ⟨rfl, rfl⟩
    held := rfl
    host_mem := by simp
    entered := by simp [hostEntry]
    amount := wrap64_neg_charge _ _
    accepts := by simp
    completes := fun _ same => Option.some.inj same ▸ completes }

theorem emits_postAcceptedJob {posting : AcceptedJobPosting}
    (free : posting.verificationOverheadMicrodollars = 0) :
    Tx.Emits schema (fun ws' _ => ∀ r : JobResult, r.accepted = true → r.jobID = posting.jobID →
        r.attemptID = posting.attemptID → ∃ p draft accounts, p.result = some r ∧
          Entered p draft accounts ∧ ws' = ws ++ ledgerWrites draft accounts p)
      (postAcceptedJob ids posting) ws := by
  unfold postAcceptedJob
  refine emits_select fun base => ?_
  cases (schema.overlay base ws).pricing posting.jobID posting.attemptID posting.receivedAt with
  | none => trivial
  | some pricing =>
    refine emits_insertDraft ?_
    refine emits_ensureAccount fun customer w₁ row₁ owner₁ _ _ _ => ?_
    refine emits_ensureAccount fun host w₂ row₂ owner₂ id₂ type₂ same₂ => ?_
    refine emits_ensureAccount fun margin w₃ row₃ owner₃ _ _ same₃ => ?_
    refine emits_insertRow fun _ => emits_insertRow fun absent₂ => ?_
    have noOverhead : ¬max posting.verificationOverheadMicrodollars 0 > 0 := by omega
    simp only [insertOverhead, noOverhead, ↓reduceIte]
    refine emits_insertRow fun absent₃ => ?_
    refine emits_markPosted ⟨ids 0, .jobAcceptance, .draft, "job", posting.jobID, none, none⟩
      (by simp [row₁, row₂, row₃]) fun _ => emits_insertRow fun _ => ?_
    intro r accepted ofJob ofAttempt
    have apart₁₂ : customer.id ≠ host.id := account_apart row₁ (by simp [owner₁, owner₂]) same₂
    have apart₂₃ : host.id ≠ margin.id := account_apart row₂ (by simp [owner₂, owner₃]) same₃
    have apart₁₃ : customer.id ≠ margin.id := by
      intro eq
      have hit := same₃ (.account customer) (by simp [row₁, row₂, eq, apart₂₃])
      rw [← account.inj hit, owner₁] at owner₃
      cases owner₃
    refine ⟨acceptedPosting ids posting pricing customer.id host.id margin.id r
      ⟨accepted, ofJob, ofAttempt⟩, ⟨ids 0, .jobAcceptance, .draft, "job", posting.jobID, none, none⟩,
      [w₁, w₂, w₃], rfl, ⟨rfl, ?_, ?_, ⟨host, ⟨rfl, ?_⟩, owner₂, id₂, type₂⟩, ?_⟩, ?_⟩
    · simp [row₁, row₂, row₃, table]
    · have apart₄₅ : ids 4 ≠ ids 5 := fun same => by simp [same] at absent₂
      have apart₅₈ : ids 5 ≠ ids 8 := fun same => by simp [same] at absent₃
      have apart₄₈ : ids 4 ≠ ids 8 := fun same => by simp [same] at absent₃
      simp [acceptedPosting, apart₄₅, apart₅₈, apart₄₈]
    · simp [row₁, row₂, row₃, apart₁₂, apart₂₃.symm]
    · intro e member notHost
      rcases mem_cons.mp member with rfl | member
      · exact ⟨customer, ⟨rfl, by simp [row₁, row₂, row₃, apart₁₂.symm, apart₁₃.symm]⟩,
          by simp [owner₁]⟩
      rcases mem_cons.mp member with rfl | member
      · exact absurd rfl notHost
      rw [mem_singleton.mp member]
      exact ⟨margin, ⟨rfl, by simp [row₃]⟩, by simp [owner₃]⟩
    · simp [ledgerWrites, acceptedPosting]

def verificationPosting (ids : Nat → String) (posting : VerificationOverheadPosting)
    (pricing : Pricing) (platformAccount hostAccount : String) : Posting :=
  let hostCredit :=
    chargeForTokens posting.completionTokens pricing.price.hostCreditPerMillionOutput
  let hostEntry : LedgerEntry :=
    ⟨ids 4, ids 0, hostAccount, wrap64 (-hostCredit), "host pending verification credit"⟩
  { transaction :=
      ⟨ids 0, .verificationCost, .posted, "job", posting.jobID, some posting.receivedAt, none⟩
    hold := ⟨ids 5, pricing.nodeID, posting.jobID, posting.attemptID, ids 0, hostCredit, .pending,
      posting.receivedAt + (if posting.creditHold ≤ 0 then defaultCreditHold else posting.creditHold),
      none⟩
    hostEntry := hostEntry
    entries := [⟨ids 3, ids 0, platformAccount, hostCredit, "verification host credit overhead"⟩,
      hostEntry]
    result := none
    posted := rfl
    refers := ⟨rfl, rfl⟩
    held := rfl
    host_mem := by simp
    entered := by simp [hostEntry]
    amount := wrap64_neg_charge _ _
    accepts := by simp
    completes := fun _ same => nomatch same }

theorem emits_postVerificationOverhead {posting : VerificationOverheadPosting} :
    Tx.Emits schema (fun ws' _ => ∃ p draft accounts, p.result = none ∧
        Entered p draft accounts ∧ ws' = ws ++ ledgerWrites draft accounts p)
      (postVerificationOverhead ids posting) ws := by
  unfold postVerificationOverhead
  refine emits_select fun base => ?_
  cases (schema.overlay base ws).pricing posting.jobID posting.attemptID posting.receivedAt with
  | none => trivial
  | some pricing =>
    refine emits_insertRow fun _ => ?_
    refine emits_ensureAccount fun platform w₁ row₁ owner₁ _ _ _ => ?_
    refine emits_ensureAccount fun host w₂ row₂ owner₂ id₂ type₂ same₂ => ?_
    refine emits_insertRow fun _ => emits_insertRow fun absent₂ => ?_
    refine emits_markPosted ⟨ids 0, .verificationCost, .draft, "job", posting.jobID, none, none⟩
      (by simp [row₁, row₂]) fun _ => emits_insertRow_last ?_
    have apart₁₂ : platform.id ≠ host.id := account_apart row₁ (by simp [owner₁, owner₂]) same₂
    refine ⟨verificationPosting ids posting pricing platform.id host.id,
      ⟨ids 0, .verificationCost, .draft, "job", posting.jobID, none, none⟩, [w₁, w₂], rfl,
      ⟨rfl, ?_, ?_, ⟨host, ⟨rfl, ?_⟩, owner₂, id₂, type₂⟩, ?_⟩, ?_⟩
    · simp [row₁, row₂, table]
    · have apart₃₄ : ids 3 ≠ ids 4 := fun same => by simp [same] at absent₂
      simp [verificationPosting, apart₃₄]
    · simp [row₁, row₂]
    · intro e member notHost
      rcases mem_cons.mp member with rfl | member
      · exact ⟨platform, ⟨rfl, by simp [row₁, row₂, apart₁₂.symm]⟩, by simp [owner₁]⟩
      · exact absurd (mem_singleton.mp member) notHost
    · simp [ledgerWrites, verificationPosting]

variable {payload : JobCompletedPayload} {response : OpenAIResponse}

theorem emits_recordAccepted {status : String}
    {attempt : Attempt} (locked : ∀ w ∈ ws, w.row.table ∈ [TableName.attempts]) :
    Tx.Emits schema (fun ws' _ => Posts ws' (some (payload.jobID, payload.attemptID)))
      (recordAccepted ids payload receivedAt creditHold status response attempt) ws := by
  unfold recordAccepted
  refine emits_insertRow fun _ => (emits_postAcceptedJob rfl).bind ?_
  intro version ws' posted
  let result : JobResult := ⟨ids 0, payload.jobID, payload.attemptID, payload.modelHash,
    payload.runtimeHash, payload.usage.promptTokens, payload.usage.completionTokens,
    payload.durationMillis, coordinatorDurationMillis attempt receivedAt, response, true,
    status, "alpha", receivedAt⟩
  obtain ⟨p, draft, accounts, ofPosting, entered, rfl⟩ :=
    posted { result with priceVersion := version } rfl rfl rfl
  have recorded : schema.written (ws ++ [.insert (.result result)] ++
      ledgerWrites draft accounts p) ⟨.results, result.id⟩ = some (.result result) := by
    have apart : schema.written (ws ++ [.insert (.result result)] ++
        ledgerWrites draft accounts p ++ []) ⟨.results, result.id⟩ =
        schema.written (ws ++ [.insert (.result result)] ++ []) ⟨.results, result.id⟩ :=
      written_result entered.accountRows result.id
    simpa using apart
  refine emits_updateResult result recorded fun _ => ?_
  refine ((writesTo_conclusion payload receivedAt).emits _).mono ?_
  rintro ws' - ⟨tail, rfl, concluding⟩
  have shape : ws ++ [.insert (.result result)] ++ ledgerWrites draft accounts p ++
      [.update (.result { result with priceVersion := version })] ++ tail =
      (ws ++ [.insert (.result result)]) ++ ledgerWrites draft accounts p ++
      ([.update (.result { result with priceVersion := version })] ++ tail) := by simp
  have others : ∀ id, schema.written ws ⟨.results, id⟩ = none ∧
      schema.written tail ⟨.results, id⟩ = none := by
    refine fun id => ⟨written_apart fun w member same => ?_, written_apart fun w member same => ?_⟩
    · simpa [same] using locked w member
    · simpa [same] using concluding w member
  refine ⟨p, _, shape ▸ entered.writtenBy ?_ ?_ ?_, ofPosting, rfl, rfl⟩
  · intro w member ledger
    simp only [mem_append, mem_singleton] at member
    rcases member with (early | rfl) | rfl | late
    · have attempts := locked w early
      rw [mem_singleton] at attempts
      rw [attempts] at ledger
      exact absurd ledger (by decide)
    · exact absurd ledger (by simp [table, tables])
    · exact absurd ledger (by simp [table, tables])
    · have apart : ∀ t ∈ [TableName.attempts, .jobs, .reputation], t ∉ tables := by decide
      exact apart _ (concluding w late) ledger
  · intro r
    by_cases here : ids 0 = r.id
    · simp [others, result, here, ofPosting]
    · have other : ¬{ result with priceVersion := version } = r := fun eq => here (eq ▸ rfl)
      simpa [others, result, here, ofPosting] using other
  · intro id row written
    by_cases here : ids 0 = id
    · exact ⟨.result result, by simp, by simp [result, here]⟩
    · simp [others, result, here] at written

theorem emits_completeJob {status : String} :
    Tx.Emits schema (fun ws' _ => Posts ws' (some (payload.jobID, payload.attemptID)))
      (completeJob ids payload receivedAt creditHold status response) [] := by
  have locks : WritesTo [.attempts] (lockAttempt payload.jobID payload.attemptID) :=
    writesTo_selectForUpdate fun _ => mem_cons_self
  refine emits_select fun base => locks.emits_bind fun found new locked => ?_
  cases found with
  | none => trivial
  | some attempt =>
    refine emits_require fun _ => emits_require fun _ => ?_
    cases attempt.acceptedAt with
    | none => trivial
    | some acceptedAt =>
      exact emits_require fun _ => emits_require fun _ => emits_recordAccepted locked

end

/-! ### Every transaction of the coordinator -/

/-- The transactions that the coordinator begins, with what they return left out. -/
def Begun (t : SqlTx Unit) : Prop :=
  ∃ (input : Input) (call : StoreCall), t = do
    let _ ← call.tx input
    pure ()

theorem plain_call {call : StoreCall} (completes : ∀ p r h m d n, call ≠ .completeJob p r h m d n)
    (verifies : ∀ p h r, call ≠ .postVerificationOverhead p h r) :
    ∀ table ∈ call.tables, table ∉ chargeTables := by
  cases call with
  | completeJob p r h m d n => exact absurd rfl (completes p r h m d n)
  | postVerificationOverhead p h r => exact absurd rfl (verifies p h r)
  | _ => simp [StoreCall.tables, chargeTables]

theorem emits_call (input : Input) (call : StoreCall) :
    (call.tx input).Emits schema (fun ws _ => Posts ws call.completion) [] := by
  by_cases completes : ∃ p r h m d n, call = .completeJob p r h m d n
  · obtain ⟨p, r, h, m, d, n, rfl⟩ := completes
    exact emits_completeJob.bind fun _ _ posted => posted
  have noResult : call.completion = none := by
    cases call with
    | completeJob p r h m d n => exact absurd ⟨p, r, h, m, d, n, rfl⟩ completes
    | _ => rfl
  rw [noResult]
  by_cases verifies : ∃ p h r, call = .postVerificationOverhead p h r
  · obtain ⟨p, h, r, rfl⟩ := verifies
    refine emits_postVerificationOverhead.mono ?_
    rintro ws - ⟨p, draft, accounts, ofPosting, entered, rfl⟩
    have written : p.WrittenBy ([] ++ ledgerWrites draft accounts p ++ []) :=
      entered.writtenBy (by simp) (by simp [ofPosting]) (by simp)
    exact .inr ⟨p, by simpa using written, ofPosting⟩
  · refine ((StoreCall.writesTo_tables input call).emits []).mono ?_
    rintro ws - ⟨new, rfl, within⟩
    refine .inl fun w member => ?_
    exact plain_call (fun p r h m d n same => completes ⟨p, r, h, m, d, n, same⟩)
      (fun p h r same => verifies ⟨p, h, r, same⟩) _ (within w (by simpa using member))

theorem emits_begun (begun : Begun t) :
    t.Emits schema (fun ws _ => Plain ws ∨ ∃ p : Posting, p.WrittenBy ws) [] := by
  obtain ⟨input, call, rfl⟩ := begun
  exact (emits_call input call).bind fun _ _ posts => posts.plain_or_posting

theorem keepsAccounts_call (input : Input) (call : StoreCall) :
    (call.tx input).Preserves schema (fun k => k.table = .accounts) := by
  by_cases posts : .accounts ∈ call.tables
  · cases call with
    | completeJob => exact (StoreCall.postsTo_completeJob _ _ _ _ _ _).2.bind fun _ => trivial
    | postVerificationOverhead => exact (postsTo_postVerificationOverhead _ _).2
    | _ => simp [StoreCall.tables] at posts
  · exact ((StoreCall.writesTo_tables input call).posts (List.Subset.refl _) posts).2

theorem keepsAccounts_begun (begun : Begun t) :
    t.Preserves schema (fun k => k.table = .accounts) := by
  obtain ⟨input, call, rfl⟩ := begun
  exact (keepsAccounts_call input call).bind fun _ => trivial

end Thirdshift
