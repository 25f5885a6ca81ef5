import Thirdshift.Coordinator.Runs
import Thirdshift.Ledger.Payouts

/-!
# Balance of what the code posts

Every posting inserts a draft, adds its entries and marks it posted, so the balance trigger accepts
it exactly when the new entries sum to zero. For each operation that comes down to one condition on
its input.
-/

namespace Thirdshift

open Foundation List Table Tx Deployment Ledger PayoutItem

variable {db db' : Db} {txID accountID entryID ownerID accountType transactionID : String}
  {es : List LedgerEntry} {amount credit overhead : Int} {u : Unit}

/-- What the schema says of stored entries: each belongs to a transaction and is a `bigint`. -/
structure Db.Filed (db : Db) : Prop where
  belongs : ∀ e ∈ db.entries.rows, (db.transactions.find? e.transactionID).isSome = true
  typed : ∀ e ∈ db.entries.rows, isInt8 e.amountMicrodollars = true

def entrySum (es : List LedgerEntry) : Int := (es.map LedgerEntry.amountMicrodollars).sum

theorem balanced_iff : db.balanced = true ↔ ∀ id t, db.transactions.find? id = some t →
    t.status = .posted → db.balance id = 0 := by
  simp only [Db.balanced, all_eq_true, Bool.or_eq_true, decide_eq_true_eq, ne_eq]
  constructor
  · intro all id t found posted
    have here := all t (mem_of_find? found)
    rw [key_of_find? found] at here
    exact here.resolve_left (not_not.mpr posted)
  · intro all t member
    by_cases posted : t.status = .posted
    · exact .inr (all t.id t (find?_of_mem member) posted)
    · exact .inl posted

namespace Ledger

/-! ### Entries of one transaction -/

/-- Entries of one transaction are added, and the transactions stay as they are. -/
structure Enters (db db' : Db) (txID : String) (es : List LedgerEntry) : Prop where
  transactions : db'.transactions = db.transactions
  entries : db'.entries.rows = db.entries.rows ++ es
  ofTransaction : ∀ e ∈ es, e.transactionID = txID
  typed : ∀ e ∈ es, isInt8 e.amountMicrodollars = true

section

variable {mid : Db} {es' : List LedgerEntry}

theorem Enters.trans (first : Enters db mid txID es) (second : Enters mid db' txID es') :
    Enters db db' txID (es ++ es') where
  transactions := second.transactions.trans first.transactions
  entries := by rw [second.entries, first.entries, append_assoc]
  ofTransaction e member := (mem_append.mp member).elim (first.ofTransaction e)
    (second.ofTransaction e)
  typed e member := (mem_append.mp member).elim (first.typed e) (second.typed e)

theorem enters_of_frame {α : Type} {tables : List TableName} {t : SqlTx α} {a : α}
    (writes : WritesTo tables t) (transactions : .transactions ∉ tables)
    (entries : .entries ∉ tables) (ok : Tx.exec schema t db = .ok (a, db')) :
    Enters db db' txID [] where
  transactions := writes.transactions transactions ok
  entries := by rw [writes.entries entries ok, append_nil]
  ofTransaction e member := absurd member not_mem_nil
  typed e member := absurd member not_mem_nil

theorem Enters.balanced_eq (frame : Enters db db' txID []) : db'.balanced = db.balanced := by
  rw [Bool.eq_iff_iff, balanced_iff, balanced_iff]
  simp only [Db.balance, frame.transactions, frame.entries, append_nil]

theorem Enters.filed (frame : Enters db db' txID []) (filed : db.Filed) : db'.Filed := by
  constructor
  · simpa [frame.entries, frame.transactions] using filed.belongs
  · simpa [frame.entries] using filed.typed

variable {ownerType : AccountOwner}

theorem enters_insertEntry {memo : String}
    (ok : Tx.exec schema (insertEntry entryID txID accountID amount memo) db = .ok (u, db')) :
    Enters db db' txID [⟨entryID, txID, accountID, amount, memo⟩] := by
  obtain ⟨admitted, rfl⟩ := insertRow_ok ok
  have valid := valid_of_admits admitted
  simp only [Db.valid, Bool.and_eq_true] at valid
  refine ⟨rfl, ?_, by simp, by simp [valid.1.1]⟩
  exact rows_put_fresh (Option.map_eq_none_iff.mp (absent_of_admits admitted))

theorem writesTo_account :
    WritesTo [.accounts] (ensureAccount accountID ownerType ownerID accountType) := by
  apply writes_write
  intro db w written
  split at written <;> rw [mem_singleton.mp written] <;> exact mem_cons_self

theorem enters_ensureAccount (txID : String) {account : String}
    (ok : Tx.exec schema (ensureAccount accountID ownerType ownerID accountType) db =
      .ok (account, db')) : Enters db db' txID [] :=
  enters_of_frame writesTo_account (by simp) (by simp) ok

end

section

variable {ρ : Type} {find : Db → String → Option ρ} {row : ρ → Row} {table : TableName}

theorem writesTo_lockEach {p : Db → ρ → Bool} (same : ∀ r, (row r).table = table)
    (chosen : List String) : WritesTo [table] (lockEach find row p chosen) := by
  induction chosen with
  | nil => exact writesTo_pure
  | cons id rest ih =>
    exact (writesTo_selectForUpdate fun r => mem_singleton.mpr (same r)).bind fun _ =>
      ih.bind fun _ => writesTo_pure

theorem writesTo_updateEach {p : ρ → Bool} {f : ρ → ρ} (same : ∀ r, (row r).table = table)
    (chosen : List String) : WritesTo [table] (updateEach find row p f chosen) := by
  induction chosen with
  | nil => exact writesTo_pure
  | cons id rest ih =>
    refine WritesTo.bind (writes_write fun db w written => ?_) fun _ => ih
    split at written
    next r _ =>
      simp only [mem_cons, not_mem_nil, or_false] at written
      rcases written with rfl | rfl <;> exact mem_singleton.mpr (same _)
    · cases written

end

variable {p : Db → HostCreditHold → Bool} {f : HostCreditHold → HostCreditHold}
  {id reversalID batchID : String} {n : Nat} {t : LedgerTransaction}
  {ids : Nat → String} {now : Time}

theorem writesTo_selectHoldsForUpdate : WritesTo [.holds] (selectHoldsForUpdate p) := by
  refine writesTo_select.bind fun chosen => ?_
  apply writesTo_lockEach
  exact fun _ => rfl

theorem writesTo_updateHolds {p : HostCreditHold → Bool} : WritesTo [.holds] (updateHolds p f) := by
  refine writesTo_select.bind fun chosen => ?_
  apply writesTo_updateEach
  exact fun _ => rfl

theorem writesTo_updateHold : WritesTo [.holds] (updateHold id f) := by
  apply writesTo_updateEach
  exact fun _ => rfl

theorem writesTo_updateItems {p : PayoutItem → Bool} {f : PayoutItem → PayoutItem} :
    WritesTo [.items] (updateItems p f) := by
  refine writesTo_select.bind fun chosen => ?_
  apply writesTo_updateEach
  exact fun _ => rfl

theorem writesTo_updateItem {f : PayoutItem → PayoutItem} : WritesTo [.items] (updateItem id f) := by
  apply writesTo_updateEach
  exact fun _ => rfl

theorem writesTo_updateBatch {f : PayoutBatch → PayoutBatch} :
    WritesTo [.batches] (updateBatch id f) := by
  apply writesTo_updateEach
  exact fun _ => rfl

theorem lockBatch_ok {found : Option PayoutBatch}
    (ok : Tx.exec schema (lockBatch id) db = .ok (found, db')) :
    db.batches.find? id = found ∧ db' = db := by
  obtain ⟨read, same⟩ := selectForUpdate_ok (fun b here => by
    have kept : db.batches.put b = db.batches := put_self (key_of_find? here ▸ here)
    simp [Db.put, kept]) ok
  exact ⟨read.symm, same⟩

/-! ### A posting as a whole -/

structure Recorded (db db' : Db) (txID : String) (es : List LedgerEntry) : Prop where
  fresh : db.transactions.find? txID = none
  posted : ∃ t, db'.transactions.find? txID = some t ∧ t.status = .posted
  others : ∀ id, id ≠ txID → db'.transactions.find? id = db.transactions.find? id
  entries : db'.entries.rows = db.entries.rows ++ es
  ofTransaction : ∀ e ∈ es, e.transactionID = txID
  typed : ∀ e ∈ es, isInt8 e.amountMicrodollars = true

theorem markPosted_ok {at' : Time} (ok : Tx.exec schema (markPosted txID at') db = .ok (n, db')) :
    db'.entries = db.entries ∧ ∀ id, db'.transactions.find? id =
      (db.transactions.find? id).map (Table.updateWhere (fun t => t.id = txID)
        fun t => { t with status := .posted, postedAt := some at' }) := by
  have writes : WritesTo [.transactions] (markPosted txID at') :=
    writesTo_updateTransactions mem_cons_self
  have maps : Tx.Maps schema Db.transactions (Table.updateWhere (fun t => t.id = txID)
      fun t => { t with status := .posted, postedAt := some at' }) (markPosted txID at') := by
    apply maps_updateTransactions
    exact fun _ _ => rfl
  exact ⟨writes.entries (by simp) ok, maps _ _ _ ok⟩

theorem recorded_of_steps {db₁ db₂ : Db} {at' : Time} (fresh : db.transactions.find? t.id = none)
    (entered : Enters (db.put (.transaction t)) db₁ t.id es)
    (posted : Tx.exec schema (markPosted t.id at') db₁ = .ok (n, db₂))
    (after : Enters db₂ db' t.id []) : Recorded db db' t.id es := by
  obtain ⟨sameEntries, marked⟩ := markPosted_ok posted
  have found : ∀ id, db'.transactions.find? id =
      ((db.transactions.put t).find? id).map (Table.updateWhere (fun t' => t'.id = t.id)
        fun t => { t with status := .posted, postedAt := some at' }) := by
    intro id
    rw [after.transactions, marked, entered.transactions]
    rfl
  refine ⟨fresh, ?_, ?_, ?_, entered.ofTransaction, entered.typed⟩
  · rw [found, find?_put_self]
    exact ⟨_, rfl, by simp [Table.updateWhere]⟩
  · intro id other
    rw [found, find?_put, if_neg (Ne.symm other)]
    cases old : db.transactions.find? id with
    | none => rfl
    | some t' =>
      have apart : t'.id ≠ t.id := key_of_find? old ▸ other
      simp [Table.updateWhere, apart]
  · rw [after.entries, append_nil, sameEntries, entered.entries]
    rfl

section

section

variable (recorded : Recorded db db' txID es)
include recorded

theorem Recorded.filed (filed : db.Filed) : db'.Filed := by
  constructor
  · intro e member
    rw [recorded.entries, mem_append] at member
    by_cases here : e.transactionID = txID
    · obtain ⟨t, found, -⟩ := recorded.posted
      simp [here, found]
    · rw [recorded.others _ here]
      rcases member with old | new
      · exact filed.belongs e old
      · exact absurd (recorded.ofTransaction e new) here
  · intro e member
    rw [recorded.entries, mem_append] at member
    exact member.elim (filed.typed e) (recorded.typed e)

theorem Recorded.balance (id : String) :
    db'.balance id = db.balance id + if id = txID then entrySum es else 0 := by
  simp only [Db.balance, recorded.entries, filter_append, map_append, sum_append]
  congr 1
  split
  next here =>
    have all : es.filter (fun e => e.transactionID = id) = es := by
      rw [filter_eq_self]
      intro e member
      simpa [here] using recorded.ofTransaction e member
    rw [all, entrySum]
  next other =>
    have none : es.filter (fun e => e.transactionID = id) = [] := by
      rw [filter_eq_nil_iff]
      intro e member
      simpa [recorded.ofTransaction e member] using Ne.symm other
    rw [none]
    rfl

theorem Recorded.balanced_iff (filed : db.Filed) :
    db'.balanced = true ↔ db.balanced = true ∧ entrySum es = 0 := by
  have empty : db.balance txID = 0 := by
    have none : db.entries.rows.filter (fun e => e.transactionID = txID) = [] := by
      rw [filter_eq_nil_iff]
      intro e member here
      have belongs := filed.belongs e member
      simp only [decide_eq_true_eq] at here
      simp [here, recorded.fresh] at belongs
    simp [Db.balance, none]
  rw [Thirdshift.balanced_iff, Thirdshift.balanced_iff]
  constructor
  · intro all
    constructor
    · intro id t found posted
      have other : id ≠ txID := by
        rintro rfl
        rw [recorded.fresh] at found
        cases found
      have kept := all id t ((recorded.others id other).trans found) posted
      simpa [recorded.balance, other] using kept
    · obtain ⟨t, found, posted⟩ := recorded.posted
      have zero := all txID t found posted
      simpa [recorded.balance, empty] using zero
  · rintro ⟨all, zero⟩ id t found posted
    rw [recorded.balance]
    by_cases here : id = txID
    · simp [here, empty, zero]
    · rw [recorded.others id here] at found
      simp [here, all id t found posted]

end

end

/-! ### The postings of a job -/

theorem insertDraft_ok (ok : Tx.exec schema (insertDraft t) db = .ok (n, db')) (inserted : n ≠ 0) :
    db.transactions.find? t.id = none ∧ db' = db.put (.transaction t) := by
  obtain ⟨count, -, after⟩ := exec_write_ok ok
  cases found : db.transactions.find? t.id with
  | some old => exact absurd (by simp [count, found]) inserted
  | none => exact ⟨rfl, by rw [after, found]; rfl⟩

theorem insertTransaction_ok (ok : Tx.exec schema (insertRow (.transaction t)) db = .ok (u, db')) :
    db.transactions.find? t.id = none ∧ db' = db.put (.transaction t) := by
  obtain ⟨admitted, after⟩ := insertRow_ok ok
  exact ⟨Option.map_eq_none_iff.mp (absent_of_admits admitted), after⟩

theorem acceptance_sum {charge : Int} (low : 0 < overhead)
    (high : overhead ≤ 9223372036854775807) :
    charge + -credit + overhead + wrap64 (-wrap64 (charge - credit - overhead)) ≠ 0 := by
  unfold wrap64
  omega

theorem acceptance_sum_zero {charge : Int}
    (chargeBound : -20000000000000 < charge ∧ charge < 20000000000000)
    (creditBound : -10000000000000 < credit ∧ credit < 10000000000000) :
    charge + -credit + wrap64 (-wrap64 (charge - credit)) = 0 := by
  unfold wrap64
  omega

theorem enters_insertOverhead
    (ok : Tx.exec schema (insertOverhead accountID entryID txID overhead) db = .ok (u, db')) :
    ∃ es, Enters db db' txID es ∧ (overhead ≤ 0 ∧ es = [] ∨
      0 < overhead ∧ overhead ≤ 9223372036854775807 ∧ entrySum es = overhead) := by
  unfold insertOverhead at ok
  split at ok
  next some =>
    obtain ⟨account, _, ran, rest⟩ := exec_bind_ok ok
    have entered := (enters_ensureAccount txID ran).trans (enters_insertEntry rest)
    have typed := entered.typed _ mem_cons_self
    simp only [isInt8, Bool.and_eq_true, decide_eq_true_eq] at typed
    exact ⟨_, entered, .inr ⟨some, typed.2, by simp [entrySum]⟩⟩
  next none =>
    obtain ⟨-, rfl⟩ := exec_done_ok ok
    exact ⟨[], ⟨rfl, by simp, by simp, by simp⟩, .inl ⟨Int.not_lt.mp none, rfl⟩⟩

def platformMargin (posting : AcceptedJobPosting) (price : ModelPrice) : Int :=
  wrap64 (wrap64 (chargeForTokens posting.promptTokens price.customerInputPerMillion +
      chargeForTokens posting.completionTokens price.customerOutputPerMillion) -
    chargeForTokens posting.completionTokens price.hostCreditPerMillionOutput -
    max posting.verificationOverheadMicrodollars 0)

theorem recorded_postAcceptedJob {posting : AcceptedJobPosting} {version : String}
    (ok : Tx.exec schema (postAcceptedJob ids posting) db = .ok (version, db')) :
    ∃ pricing es, db.pricing posting.jobID posting.attemptID posting.receivedAt = some pricing ∧
      Recorded db db' (ids 0) es ∧
      (∃ account, ⟨ids 8, ids 0, account, wrap64 (-platformMargin posting pricing.price),
        "platform margin"⟩ ∈ es) ∧
      (entrySum es = 0 ↔ posting.verificationOverheadMicrodollars ≤ 0) := by
  obtain ⟨found, _, read, rest₀⟩ := exec_bind_ok ok
  obtain ⟨priced, rfl⟩ := exec_select_ok read
  cases found with
  | none => cases rest₀
  | some pricing =>
    obtain ⟨inserted, _, drafted, rest₁⟩ := exec_bind_ok rest₀
    obtain ⟨_, _, required, rest₂⟩ := exec_bind_ok rest₁
    obtain ⟨nonzero, rfl⟩ := require_ok required
    obtain ⟨fresh, rfl⟩ := insertDraft_ok drafted nonzero
    obtain ⟨customer, _, ran₁, rest₃⟩ := exec_bind_ok rest₂
    obtain ⟨host, _, ran₂, rest₄⟩ := exec_bind_ok rest₃
    obtain ⟨platform, _, ran₃, rest₅⟩ := exec_bind_ok rest₄
    obtain ⟨_, _, charged, rest₆⟩ := exec_bind_ok rest₅
    obtain ⟨_, _, credited, rest₇⟩ := exec_bind_ok rest₆
    obtain ⟨_, _, overhead, rest₈⟩ := exec_bind_ok rest₇
    obtain ⟨_, _, margin, rest₉⟩ := exec_bind_ok rest₈
    obtain ⟨_, _, posted, rest₁₀⟩ := exec_bind_ok rest₉
    obtain ⟨_, _, held, rest₁₁⟩ := exec_bind_ok rest₁₀
    obtain ⟨-, rfl⟩ := exec_done_ok rest₁₁
    obtain ⟨extra, entered, amount⟩ := enters_insertOverhead overhead
    have accounts := ((enters_ensureAccount (ids 0) ran₁).trans
      (enters_ensureAccount (ids 0) ran₂)).trans (enters_ensureAccount (ids 0) ran₃)
    have entries := (((accounts.trans (enters_insertEntry charged)).trans
      (enters_insertEntry credited)).trans entered).trans (enters_insertEntry margin)
    have after : Enters _ _ (ids 0) [] := enters_of_frame
      (show WritesTo [.holds] _ from writesTo_insertRow mem_cons_self) (by simp)
      (by simp) held
    refine ⟨pricing, _, priced.symm, recorded_of_steps fresh entries posted after,
      ⟨platform, mem_concat_self⟩, ?_⟩
    -- a charge is a 64-bit number divided by a million, so the sum of two cannot wrap
    have input := charge_bound posting.promptTokens pricing.price.customerInputPerMillion
    have output := charge_bound posting.completionTokens pricing.price.customerOutputPerMillion
    have credit := charge_bound posting.completionTokens pricing.price.hostCreditPerMillionOutput
    have charge : -20000000000000 < wrap64 (
        chargeForTokens posting.promptTokens pricing.price.customerInputPerMillion +
        chargeForTokens posting.completionTokens pricing.price.customerOutputPerMillion) ∧ wrap64 (
        chargeForTokens posting.promptTokens pricing.price.customerInputPerMillion +
        chargeForTokens posting.completionTokens pricing.price.customerOutputPerMillion) <
          20000000000000 := by
      rw [wrap64_eq] <;> omega
    simp only [entrySum, map_append, sum_append, map_cons, map_nil,
      sum_cons, sum_nil, wrap64_neg_charge, nil_append, Int.add_zero]
    rcases amount with ⟨none, rfl⟩ | ⟨some, fits, sum⟩
    · have zero : max posting.verificationOverheadMicrodollars 0 = 0 := by omega
      rw [zero, Int.sub_zero, map_nil, sum_nil, Int.add_zero]
      exact iff_of_true (acceptance_sum_zero charge credit) (by omega)
    · rw [entrySum] at sum
      rw [sum]
      exact iff_of_false (acceptance_sum some fits) (by omega)

theorem recorded_postVerificationOverhead {posting : VerificationOverheadPosting}
    (ok : Tx.exec schema (postVerificationOverhead ids posting) db = .ok (u, db')) :
    ∃ es, Recorded db db' (ids 0) es ∧ entrySum es = 0 := by
  obtain ⟨found, _, read, rest₀⟩ := exec_bind_ok ok
  obtain ⟨-, rfl⟩ := exec_select_ok read
  cases found with
  | none => cases rest₀
  | some pricing =>
    obtain ⟨_, _, drafted, rest₁⟩ := exec_bind_ok rest₀
    obtain ⟨fresh, rfl⟩ := insertTransaction_ok drafted
    obtain ⟨verification, _, ran₁, rest₂⟩ := exec_bind_ok rest₁
    obtain ⟨host, _, ran₂, rest₃⟩ := exec_bind_ok rest₂
    obtain ⟨_, _, overhead, rest₄⟩ := exec_bind_ok rest₃
    obtain ⟨_, _, credited, rest₅⟩ := exec_bind_ok rest₄
    obtain ⟨_, _, posted, held⟩ := exec_bind_ok rest₅
    have entries := (((enters_ensureAccount (ids 0) ran₁).trans
      (enters_ensureAccount (ids 0) ran₂)).trans (enters_insertEntry overhead)).trans
      (enters_insertEntry credited)
    have after : Enters _ _ (ids 0) [] := enters_of_frame
      (show WritesTo [.holds] _ from writesTo_insertRow mem_cons_self) (by simp)
      (by simp) held
    refine ⟨_, recorded_of_steps fresh entries posted after, ?_⟩
    simp [entrySum, wrap64_neg_charge]

/-! ### Release of held credit -/

theorem wrap64_neg (typed : isInt8 amount = true)
    (above : amount ≠ -9223372036854775808) : wrap64 (-amount) = -amount := by
  simp only [isInt8, Bool.and_eq_true, decide_eq_true_eq] at typed
  apply wrap64_eq <;> omega

theorem recorded_releaseCredit {credit : HostCreditHold}
    (ok : Tx.exec schema (releaseCredit ids now credit) db = .ok (u, db'))
    (positive : 0 ≤ credit.amountMicrodollars) :
    ∃ es, Recorded db db' (ids 0) es ∧ entrySum es = 0 := by
  obtain ⟨_, _, drafted, rest₁⟩ := exec_bind_ok ok
  obtain ⟨fresh, rfl⟩ := insertTransaction_ok drafted
  obtain ⟨pending, _, ran₁, rest₂⟩ := exec_bind_ok rest₁
  obtain ⟨available, _, ran₂, rest₃⟩ := exec_bind_ok rest₂
  obtain ⟨_, _, released, rest₄⟩ := exec_bind_ok rest₃
  obtain ⟨_, _, credited, rest₅⟩ := exec_bind_ok rest₄
  obtain ⟨_, _, posted, held⟩ := exec_bind_ok rest₅
  have release := enters_insertEntry released
  have entries := (((enters_ensureAccount (ids 0) ran₁).trans
    (enters_ensureAccount (ids 0) ran₂)).trans release).trans (enters_insertEntry credited)
  have after : Enters _ _ (ids 0) [] :=
    enters_of_frame writesTo_updateHold (by simp) (by simp) held
  refine ⟨_, recorded_of_steps fresh entries posted after, ?_⟩
  have negated : wrap64 (-credit.amountMicrodollars) = -credit.amountMicrodollars :=
    wrap64_neg (release.typed _ mem_cons_self) (by omega)
  simp [entrySum, negated]

theorem balanced_releaseCredits {credits : List HostCreditHold} (filed : db.Filed)
    (positive : ∀ credit ∈ credits, 0 ≤ credit.amountMicrodollars)
    (ok : Tx.exec schema (releaseCredits now ids credits) db = .ok (u, db')) :
    db'.balanced = true ↔ db.balanced = true := by
  induction credits generalizing ids db with
  | nil => rw [(exec_done_ok ok).2]
  | cons credit rest ih =>
    obtain ⟨_, mid, released, later⟩ := exec_bind_ok ok
    obtain ⟨es, recorded, zero⟩ := recorded_releaseCredit released (positive credit mem_cons_self)
    have others := ih (recorded.filed filed)
      (fun credit member => positive credit (mem_cons_of_mem _ member)) later
    rw [others, recorded.balanced_iff filed, and_iff_left zero]

theorem valid_of_lockEach {chosen : List String} {locked : List HostCreditHold}
    (ok : Tx.exec schema (lockEach findHold .hold p chosen) db = .ok (locked, db')) :
    ∀ h ∈ locked, 0 ≤ h.amountMicrodollars := by
  induction chosen generalizing db db' locked with
  | nil =>
    obtain ⟨rfl, -⟩ := exec_done_ok ok
    simp
  | cons id rest ih =>
    obtain ⟨found, mid, locks, rest₁⟩ := exec_bind_ok ok
    obtain ⟨others, last, locksRest, rest₂⟩ := exec_bind_ok rest₁
    obtain ⟨rfl, -⟩ := exec_done_ok rest₂
    intro h member
    rcases mem_append.mp member with here | later
    · obtain ⟨read, applied, -⟩ := exec_write_ok locks
      dsimp only at applied
      rw [← read, Option.mem_toList.mp here] at applied
      simp only [Option.map_some, Option.toList_some, Schema.applyWrites] at applied
      split at applied
      next admitted =>
        simp only [Schema.admits, Bool.and_eq_true] at admitted
        have valid : db.valid (.hold h) = true := admitted.2
        simp only [Db.valid, Bool.and_eq_true, decide_eq_true_eq] at valid
        exact valid.2
      · cases applied
    · exact ih locksRest h later

theorem balanced_promoteAvailableCredits (filed : db.Filed)
    (ok : Tx.exec schema (promoteAvailableCredits ids now) db = .ok (n, db')) :
    db'.balanced = true ↔ db.balanced = true := by
  obtain ⟨credits, mid, selected, rest₁⟩ := exec_bind_ok ok
  obtain ⟨_, last, released, rest₂⟩ := exec_bind_ok rest₁
  obtain ⟨-, rfl⟩ := exec_done_ok rest₂
  have frame : Enters db mid "" [] :=
    enters_of_frame writesTo_selectHoldsForUpdate (by simp) (by simp) selected
  obtain ⟨chosen, _, read, locked⟩ := exec_bind_ok selected
  rw [← frame.balanced_eq]
  exact balanced_releaseCredits (frame.filed filed) (valid_of_lockEach locked) released

/-! ### Reversal -/

def entriesOf (db : Db) (transactionID : String) : List LedgerEntry :=
  db.entries.rows.filter fun e => e.transactionID = transactionID

def reversed (e : LedgerEntry) : String × Int := (e.accountID, wrap64 (-e.amountMicrodollars))

def leg (e : LedgerEntry) : String × Int := (e.accountID, e.amountMicrodollars)

theorem enters_insertReversals {original : List LedgerEntry}
    (ok : Tx.exec schema (insertReversals reversalID ids original) db = .ok (u, db')) :
    ∃ es, Enters db db' reversalID es ∧ es.map leg = original.map reversed := by
  induction original generalizing ids db with
  | nil =>
    obtain ⟨-, rfl⟩ := exec_done_ok ok
    exact ⟨[], ⟨rfl, by simp, by simp, by simp⟩, rfl⟩
  | cons entry rest ih =>
    obtain ⟨_, mid, inserted, later⟩ := exec_bind_ok ok
    obtain ⟨es, entered, legs⟩ := ih later
    exact ⟨_, (enters_insertEntry inserted).trans entered, by
      simp [legs, leg, reversed]⟩

theorem recorded_reverseTransaction (new : db.transactions.find? (ids 0) = none)
    (ok : Tx.exec schema (reverseTransaction ids transactionID now) db = .ok (reversalID, db')) :
    (∃ t, db.transactions.find? transactionID = some t ∧ t.status = .posted) ∧
    ∃ es, Recorded db db' (ids 0) es ∧ es.map leg = (entriesOf db transactionID).map reversed := by
  obtain ⟨_, drafts, drafted, rest₁⟩ := exec_bind_ok ok
  obtain ⟨original, _, read, rest₂⟩ := exec_bind_ok rest₁
  obtain ⟨same, rfl⟩ := exec_select_ok read
  obtain ⟨_, last, inserted, rest₃⟩ := exec_bind_ok rest₂
  obtain ⟨_, _, required, rest₄⟩ := exec_bind_ok rest₃
  obtain ⟨nonempty, rfl⟩ := require_ok required
  obtain ⟨_, _, posted, rest₅⟩ := exec_bind_ok rest₄
  obtain ⟨-, rfl⟩ := exec_done_ok rest₅
  obtain ⟨es, entered, legs⟩ := enters_insertReversals inserted
  obtain ⟨-, -, after⟩ := exec_write_ok drafted
  cases found : (db.transactions.find? transactionID).filter (fun t => t.status = .posted) with
  | none =>
    -- no draft was inserted, so there is no transaction for the entries to belong to
    rw [found] at after
    subst after
    exfalso
    obtain ⟨entry, rest, rfl⟩ := exists_cons_of_ne_nil nonempty
    obtain ⟨_, _, first, -⟩ := exec_bind_ok inserted
    have valid := valid_of_admits (insertRow_ok first).1
    simp [Db.valid, new] at valid
  | some t =>
    rw [found] at after
    subst after
    obtain ⟨present, isPosted⟩ := Option.filter_eq_some_iff.mp found
    refine ⟨⟨t, present, of_decide_eq_true isPosted⟩, es, ?_, legs.trans (by rw [same]; rfl)⟩
    exact recorded_of_steps (t := ⟨ids 0, .ledgerReversal, .draft, t.referenceType,
      t.referenceID, none, some t.id⟩) new entered posted ⟨rfl, by simp, by simp, by simp⟩

theorem sum_reversed (es : List LedgerEntry)
    (typed : ∀ e ∈ es, isInt8 e.amountMicrodollars = true) :
    ∃ k : Nat, ((es.map reversed).map Prod.snd).sum = -entrySum es - 18446744073709551616 * k ∧
      (k = 0 ↔ ∀ e ∈ es, e.amountMicrodollars ≠ -9223372036854775808) := by
  induction es with
  | nil => exact ⟨0, by simp [entrySum], by simp⟩
  | cons e es ih =>
    obtain ⟨k, sum, all⟩ := ih fun e member => typed e (mem_cons_of_mem _ member)
    simp only [entrySum] at sum
    by_cases least : e.amountMicrodollars = -9223372036854775808
    · refine ⟨k + 1, ?_, by simp [least]⟩
      have wrapped : wrap64 (- -9223372036854775808) = -9223372036854775808 := by decide
      simp only [map_cons, sum_cons, entrySum, reversed, least, wrapped, sum]
      omega
    · refine ⟨k, ?_, by simp [least, all]⟩
      have negated := wrap64_neg (typed e mem_cons_self) least
      simp only [map_cons, sum_cons, entrySum, reversed, negated, sum]
      omega

section

variable (filed : db.Filed) (balanced : db.balanced = true)
  (new : db.transactions.find? (ids 0) = none)
include filed balanced new

theorem balanced_reverseTransaction
    (ok : Tx.exec schema (reverseTransaction ids transactionID now) db = .ok (reversalID, db')) :
    db'.balanced = true ↔
      ∀ e ∈ entriesOf db transactionID, e.amountMicrodollars ≠ -9223372036854775808 := by
  obtain ⟨⟨t, found, posted⟩, es, recorded, legs⟩ := recorded_reverseTransaction new ok
  have typed : ∀ e ∈ entriesOf db transactionID, isInt8 e.amountMicrodollars = true :=
    fun e member => filed.typed e (mem_of_mem_filter member)
  obtain ⟨k, sum, none⟩ := sum_reversed _ typed
  have zero : entrySum (entriesOf db transactionID) = 0 :=
    Thirdshift.balanced_iff.mp balanced transactionID t found posted
  have added : entrySum es = ((es.map leg).map Prod.snd).sum := by
    rw [map_map]
    rfl
  rw [recorded.balanced_iff filed, and_iff_right balanced, added, legs, sum, zero, ← none]
  omega

/-! ### Payout batches -/

theorem balanced_voidPaid (ok : Tx.exec schema (voidPaid ids batchID now) db = .ok (u, db')) :
    db'.balanced = true ↔ ∀ p, payoutTransaction batchID db = some p →
      ∀ e ∈ entriesOf db p, e.amountMicrodollars ≠ -9223372036854775808 := by
  obtain ⟨_, _, payoutUndone, updated⟩ := exec_bind_ok ok
  have frame : Enters _ db' "" [] :=
    enters_of_frame writesTo_updateHolds (by simp) (by simp) updated
  obtain ⟨payout, _, selected, rest⟩ := exec_bind_ok payoutUndone
  obtain ⟨chosen, rfl⟩ := exec_select_ok selected
  cases payout with
  | none =>
    -- no item of the batch has a payout on record, so nothing is reversed
    obtain ⟨-, rfl⟩ := exec_done_ok rest
    rw [frame.balanced_eq, balanced]
    refine iff_of_true rfl fun p same => ?_
    rw [← chosen] at same
    cases same
  | some p =>
    obtain ⟨reversalID, _, reversed, nothing⟩ := exec_bind_ok rest
    obtain ⟨-, rfl⟩ := exec_done_ok nothing
    rw [frame.balanced_eq, balanced_reverseTransaction filed balanced new reversed]
    constructor
    · rintro all q found
      cases chosen.trans found
      exact all
    · exact fun all => all p chosen.symm

theorem balanced_voidPayoutBatch
    (ok : Tx.exec schema (voidPayoutBatch ids batchID now) db = .ok (u, db')) :
    db'.balanced = true ↔ ∀ batch, db.batches.find? batchID = some batch → batch.status = .paid →
      ∀ p, payoutTransaction batchID db = some p →
        ∀ e ∈ entriesOf db p, e.amountMicrodollars ≠ -9223372036854775808 := by
  obtain ⟨found, _, locked, rest₁⟩ := exec_bind_ok ok
  obtain ⟨present, rfl⟩ := lockBatch_ok locked
  cases found with
  | none => cases rest₁
  | some batch =>
    simp only at rest₁
    split at rest₁
    next void =>
      -- a batch that is void already is left as it is
      obtain ⟨-, rfl⟩ := exec_done_ok rest₁
      rw [balanced]
      refine iff_of_true rfl fun other found paid => ?_
      cases present.symm.trans found
      rw [void] at paid
      cases paid
    next live =>
      obtain ⟨_, undone, ran, rest₂⟩ := exec_bind_ok rest₁
      obtain ⟨_, _, voided, closed⟩ := exec_bind_ok rest₂
      -- marking the items and the batch touches no entry
      have after : Enters undone db' "" [] :=
        (enters_of_frame writesTo_updateItems (by simp) (by simp) voided).trans
          (enters_of_frame writesTo_updateBatch (by simp) (by simp) closed)
      rw [after.balanced_eq]
      unfold undoBatch at ran
      split at ran
      next paid =>
        rw [balanced_voidPaid filed balanced new ran]
        constructor
        · rintro all other found - p same
          exact all p same
        · exact fun all => all batch present paid
      next unpaid =>
        have frame : Enters _ undone "" [] :=
          enters_of_frame writesTo_updateHolds (by simp) (by simp) ran
        rw [frame.balanced_eq, balanced]
        refine iff_of_true rfl fun other found paid => ?_
        cases present.symm.trans found
        exact absurd paid unpaid

end

/-! ### Confirmation -/

theorem wrap64_wrap64 (n m : Int) : wrap64 (wrap64 n + m) = wrap64 (n + m) := by
  unfold wrap64
  omega

theorem sum64_eq (amounts : List Int) : sum64 amounts = wrap64 amounts.sum := by
  have fold : ∀ (amounts : List Int) (total : Int),
      amounts.foldl (fun total amount => wrap64 (total + amount)) (wrap64 total) =
        wrap64 (total + amounts.sum) := by
    intro amounts
    induction amounts with
    | nil => simp
    | cons amount amounts ih =>
      intro total
      rw [foldl_cons, wrap64_wrap64, ih, sum_cons, Int.add_assoc]
  have start := fold amounts 0
  rwa [Int.zero_add] at start

theorem enters_payItems {items : List PayoutItem}
    (ok : Tx.exec schema (payItems txID ids items) db = .ok (u, db')) :
    ∃ es, Enters db db' txID es ∧ entrySum es = (items.map amountMicrodollars).sum := by
  induction items generalizing ids db with
  | nil =>
    obtain ⟨-, rfl⟩ := exec_done_ok ok
    exact ⟨[], ⟨rfl, by simp, by simp, by simp⟩, rfl⟩
  | cons item rest ih =>
    obtain ⟨account, _, ran, rest₁⟩ := exec_bind_ok ok
    obtain ⟨_, _, inserted, rest₂⟩ := exec_bind_ok rest₁
    obtain ⟨_, _, updated, later⟩ := exec_bind_ok rest₂
    obtain ⟨es, entered, sum⟩ := ih later
    refine ⟨_, (((enters_ensureAccount txID ran).trans (enters_insertEntry inserted)).trans
      (enters_of_frame writesTo_updateItem (by simp) (by simp) updated)).trans entered, ?_⟩
    simp only [entrySum] at sum
    simp [entrySum, sum]

theorem balanced_confirmPayoutBatch {rows : List ConfirmationRow} (filed : db.Filed)
    (balanced : db.balanced = true)
    (ok : Tx.exec schema (confirmPayoutBatch ids batchID rows now) db = .ok (u, db')) :
    db'.balanced = true ↔
      isInt8 ((exportedItems batchID db).map amountMicrodollars).sum = true := by
  obtain ⟨_, _, required, rest₀⟩ := exec_bind_ok ok
  rw [(require_ok required).2] at rest₀
  obtain ⟨found, _, locked, rest₁⟩ := exec_bind_ok rest₀
  obtain ⟨-, rfl⟩ := lockBatch_ok locked
  cases found with
  | none => cases rest₁
  | some batch =>
    obtain ⟨_, _, status, rest₂⟩ := exec_bind_ok rest₁
    obtain ⟨-, rfl⟩ := require_ok status
    obtain ⟨expected, _, read₁, rest₃⟩ := exec_bind_ok rest₂
    obtain ⟨-, rfl⟩ := exec_select_ok read₁
    obtain ⟨_, db, confirmed, rest₄⟩ := exec_bind_ok rest₃
    obtain ⟨-, rfl⟩ := require_ok confirmed
    obtain ⟨_, _, drafted, rest₅⟩ := exec_bind_ok rest₄
    obtain ⟨fresh, rfl⟩ := insertTransaction_ok drafted
    obtain ⟨items, _, read₂, rest₆⟩ := exec_bind_ok rest₅
    obtain ⟨which, rfl⟩ := exec_select_ok read₂
    obtain ⟨_, _, paid, rest₇⟩ := exec_bind_ok rest₆
    obtain ⟨_, _, payable, rest₈⟩ := exec_bind_ok rest₇
    obtain ⟨positive, rfl⟩ := require_ok payable
    obtain ⟨cash, _, ran, rest₉⟩ := exec_bind_ok rest₈
    obtain ⟨_, _, cashOut, rest₁₀⟩ := exec_bind_ok rest₉
    obtain ⟨_, _, posted, rest₁₁⟩ := exec_bind_ok rest₁₀
    obtain ⟨_, _, holds, closed⟩ := exec_bind_ok rest₁₁
    obtain ⟨es, entered, sum⟩ := enters_payItems paid
    have entries := (entered.trans (enters_ensureAccount (ids 0) ran)).trans
      (enters_insertEntry cashOut)
    have after : Enters _ db' (ids 0) [] :=
      (enters_of_frame writesTo_updateHolds (by simp) (by simp) holds).trans
        (enters_of_frame writesTo_updateBatch (by simp) (by simp) closed)
    have recorded := recorded_of_steps fresh entries posted after
    have same : items = exportedItems batchID db := which
    rw [recorded.balanced_iff filed, and_iff_right balanced, ← same]
    simp only [entrySum, map_append, sum_append, map_cons, map_nil,
      sum_cons, sum_nil, Int.add_zero] at sum ⊢
    rw [sum]
    -- the loop's total is the true total wrapped, and the two agree exactly when it fits
    rw [sum64_eq] at positive ⊢
    generalize (items.map amountMicrodollars).sum = total at positive ⊢
    simp only [isInt8, Bool.and_eq_true, decide_eq_true_eq]
    unfold wrap64 at positive ⊢
    omega

end Ledger

/-! ### The calls that post -/

inductive LedgerCall
  | postAcceptedJob (posting : AcceptedJobPosting)
  | postVerificationOverhead (posting : VerificationOverheadPosting)
  | promoteAvailableCredits (now : Time)
  | reverseTransaction (transactionID : String) (now : Time)
  | voidPayoutBatch (batchID : String) (now : Time)
  | confirmPayoutBatch (batchID : String) (rows : List ConfirmationRow) (now : Time)

namespace LedgerCall

def tx (ids : Nat → String) : LedgerCall → SqlTx Unit
  | .postAcceptedJob posting => Ledger.postAcceptedJob ids posting >>= fun _ => pure ()
  | .postVerificationOverhead posting => Ledger.postVerificationOverhead ids posting
  | .promoteAvailableCredits now => Ledger.promoteAvailableCredits ids now >>= fun _ => pure ()
  | .reverseTransaction transactionID now =>
    Ledger.reverseTransaction ids transactionID now >>= fun _ => pure ()
  | .voidPayoutBatch batchID now => Ledger.voidPayoutBatch ids batchID now
  | .confirmPayoutBatch batchID rows now => Ledger.confirmPayoutBatch ids batchID rows now

/-- What makes the entries of a call balance: no overhead is charged with an acceptance, the items
of a payout add up to an `int64`, and an amount that is reversed has a negation in `int64`. -/
def Balances (db : Db) : LedgerCall → Prop
  | .postAcceptedJob posting => posting.verificationOverheadMicrodollars ≤ 0
  | .postVerificationOverhead _ => True
  | .promoteAvailableCredits _ => True
  | .reverseTransaction transactionID _ => ∀ e ∈ entriesOf db transactionID,
      e.amountMicrodollars ≠ -9223372036854775808
  | .voidPayoutBatch batchID _ => ∀ batch, db.batches.find? batchID = some batch →
      batch.status = .paid → ∀ p, payoutTransaction batchID db = some p →
        ∀ e ∈ entriesOf db p, e.amountMicrodollars ≠ -9223372036854775808
  | .confirmPayoutBatch batchID _ _ =>
    isInt8 ((exportedItems batchID db).map amountMicrodollars).sum = true

end LedgerCall

/-- On a database that balances, a call leaves every posted transaction balanced exactly when its
input satisfies `Balances`. -/
theorem posting_balances_iff {ids : Nat → String} {call : LedgerCall} {db db' : Db} {u : Unit}
    (filed : db.Filed) (balanced : db.balanced = true)
    (new : db.transactions.find? (ids 0) = none)
    (ok : Tx.exec schema (call.tx ids) db = .ok (u, db')) :
    (∀ t ∈ db'.transactions.rows, t.status = .posted → db'.balance t.id = 0) ↔
      call.Balances db := by
  have trigger : (∀ t ∈ db'.transactions.rows, t.status = .posted → db'.balance t.id = 0) ↔
      db'.balanced = true := by
    rw [balanced_iff]
    constructor
    · intro all id t found posted
      exact key_of_find? found ▸ all t (mem_of_find? found) posted
    · exact fun all t member posted => all t.id t (find?_of_mem member) posted
  rw [trigger]
  cases call with
  | postAcceptedJob posting =>
    obtain ⟨version, _, posted, rest⟩ := exec_bind_ok ok
    obtain ⟨-, rfl⟩ := exec_done_ok rest
    obtain ⟨_, es, -, recorded, -, zero⟩ := Ledger.recorded_postAcceptedJob posted
    rw [recorded.balanced_iff filed, and_iff_right balanced, zero]
    rfl
  | postVerificationOverhead posting =>
    obtain ⟨es, recorded, zero⟩ := Ledger.recorded_postVerificationOverhead ok
    rw [recorded.balanced_iff filed, and_iff_right balanced]
    exact iff_of_true zero trivial
  | promoteAvailableCredits now =>
    obtain ⟨n, _, promoted, rest⟩ := exec_bind_ok ok
    obtain ⟨-, rfl⟩ := exec_done_ok rest
    rw [Ledger.balanced_promoteAvailableCredits filed promoted]
    exact iff_of_true balanced trivial
  | reverseTransaction transactionID now =>
    obtain ⟨reversalID, _, reversed, rest⟩ := exec_bind_ok ok
    obtain ⟨-, rfl⟩ := exec_done_ok rest
    exact Ledger.balanced_reverseTransaction filed balanced new reversed
  | voidPayoutBatch batchID now => exact Ledger.balanced_voidPayoutBatch filed balanced new ok
  | confirmPayoutBatch batchID rows now =>
    exact Ledger.balanced_confirmPayoutBatch filed balanced ok

namespace Deployment

def underway : SqlTx Unit := do
  Store.createJob "j" "org" "ak" "m" 1000 0
  insertRow (.attempt
    ⟨"a", "j", "n1", 1, "nonce", 100, 200, .accepted, false, none, 0, some 0, none, none⟩)

def posting (overhead : Int) : LedgerCall :=
  .postAcceptedJob ⟨"j", "a", 10, 0, 3, 2, overhead⟩

end Deployment

theorem posting_balances_iff_plain : ∃ db db' : Db, db.Filed ∧ db.balanced = true ∧
    db.transactions.find? "x0" = none ∧
    Tx.exec schema ((posting 0).tx idle.ids) db = .ok ((), db') ∧
    ((∀ t ∈ db'.transactions.rows, t.status = .posted → db'.balance t.id = 0) ↔
      (posting 0).Balances db) := by
  have runs : ((Tx.exec schema underway start.db).toOption.any fun last =>
      last.2.entries.rows.isEmpty && last.2.balanced &&
      (last.2.transactions.find? "x0").isNone &&
      (Tx.exec schema ((posting 0).tx idle.ids) last.2).toOption.any
        fun _ => true) = true := by decide +kernel
  obtain ⟨⟨_, db⟩, -, checks⟩ := Deployment.ok_of_check runs
  simp only [Bool.and_eq_true, List.isEmpty_iff, Option.isNone_iff_eq_none] at checks
  obtain ⟨⟨⟨empty, balanced⟩, new⟩, posts⟩ := checks
  obtain ⟨⟨_, db'⟩, posted, -⟩ := Deployment.ok_of_check posts
  have filed : db.Filed := by constructor <;> simp [empty]
  exact ⟨db, db', filed, balanced, new, posted, posting_balances_iff filed balanced new posted⟩

/-- An acceptance with overhead is posted with entries that add up to twice the overhead, and the
balance trigger rejects it. -/
theorem overhead_unbalanced :
    ((Tx.exec schema (underway >>= fun _ =>
        (posting 7).tx idle.ids) start.db).toOption.map fun last =>
      ((last.2.transactions.find? "x0").map LedgerTransaction.status, last.2.balance "x0")) =
      some (some .posted, 14) ∧
    (Tx.run schema (underway >>= fun _ =>
      (posting 7).tx idle.ids) start.db).toOption.isSome = false := by
  decide +kernel

end Thirdshift
