import Thirdshift.Ledger.Reversals

/-!
# What a payout call has written

Payout batches, their items and the credit holds must agree, and releases and payouts must be on
record once each. A call under way has written rows of six tables over a database that others commit
to. `Wrote` gives these rows exactly; what others may commit meanwhile (`rely`) does not disturb it.
-/

namespace Thirdshift

open Foundation Foundation.ReadCommitted List Table Option Row Write

def BatchStatus.ofItems : BatchStatus → ItemStatus
  | .draft => .pending
  | .exported => .exported
  | .paid => .paid
  | .void => .void

def BatchStatus.ofHolds : BatchStatus → HoldState
  | .draft => .payoutPending
  | .exported => .payoutPending
  | .paid => .paid
  | .void => .reversed

namespace Payouts

open Ledger

def itemsOf (db : Db) (batchID : String) : List PayoutItem :=
  db.items.rows.filter fun x => x.payoutBatchID = batchID

def holdsOf (db : Db) (batchID : String) : List HostCreditHold :=
  db.holds.rows.filter fun h => h.payoutBatchID = some batchID

def itemSum (db : Db) (batchID : String) : Int :=
  ((itemsOf db batchID).map PayoutItem.amountMicrodollars).sum

def debits (db : Db) (transactionID : String) : Int :=
  entrySum ((entriesOf db transactionID).filter fun e => 0 < e.amountMicrodollars)

structure Batched (db : Db) : Prop where
  status : ∀ x ∈ db.items.rows, ∃ b ∈ db.batches.rows, b.id = x.payoutBatchID ∧
    x.status = b.status.ofItems
  backed : ∀ x ∈ db.items.rows, x.status ≠ .void → ∃ h ∈ db.holds.rows, h.id = x.creditHoldID ∧
    h.payoutBatchID = some x.payoutBatchID ∧ h.nodeID = x.hostNodeID ∧
    h.amountMicrodollars = x.amountMicrodollars
  free : ∀ h ∈ db.holds.rows, h.payoutBatchID = none → h.state = .pending ∨ h.state = .available
  taken : ∀ h ∈ db.holds.rows, ∀ id, h.payoutBatchID = some id → ∃ b ∈ db.batches.rows,
    b.id = id ∧ h.state = b.status.ofHolds ∧ (b.status ≠ .void → ∃ x ∈ db.items.rows,
      x.payoutBatchID = id ∧ x.creditHoldID = h.id)
  total : ∀ b ∈ db.batches.rows, b.totalMicrodollars = wrap64 (itemSum db b.id)
  positive : ∀ x ∈ db.items.rows, 0 < x.amountMicrodollars

structure Filed (db : Db) : Prop where
  posted : ∀ t ∈ db.transactions.rows, t.status = .posted
  belongs : ∀ e ∈ db.entries.rows, ∃ t ∈ db.transactions.rows, t.id = e.transactionID
  released : ∀ t ∈ db.transactions.rows, t.transactionType = .hostCreditRelease →
    ∃ h ∈ db.holds.rows, h.id = t.referenceID ∧ h.state ≠ .pending ∧
      ∃ at', t.postedAt = some at' ∧ h.availableAt ≤ at'
  releasedOnce : ∀ t ∈ db.transactions.rows, ∀ u ∈ db.transactions.rows,
    t.transactionType = .hostCreditRelease → u.transactionType = .hostCreditRelease →
    t.referenceID = u.referenceID → t = u
  paid : ∀ t ∈ db.transactions.rows, t.transactionType = .hostPayout → ∃ b ∈ db.batches.rows,
    b.id = t.referenceID ∧ (b.status = .paid ∨ b.status = .void) ∧
      debits db t.id = itemSum db b.id
  paidOnce : ∀ t ∈ db.transactions.rows, ∀ u ∈ db.transactions.rows,
    t.transactionType = .hostPayout → u.transactionType = .hostPayout →
    t.referenceID = u.referenceID → t = u

structure Sound (db : Db) : Prop where
  batched : Batched db
  filed : Filed db

/-- The others keep the books sound, leave the rows that are written alone, and with a batch that is
locked its items and holds. -/
def rely : Rely Db Row where
  allows ws db db' := (Sound db → Sound db') ∧
    (∀ w ∈ ws, schema.get db' w.row.key = schema.get db w.row.key) ∧
    ∀ b ∈ rowsOf asBatch ws, itemsOf db' b.id = itemsOf db b.id ∧
      holdsOf db' b.id = holdsOf db b.id
  refl _ _ := ⟨id, fun _ _ => rfl, fun _ _ => ⟨rfl, rfl⟩⟩
  trans := by
    rintro ws db₁ db₂ db₃ ⟨sound₁, rows₁, kept₁⟩ ⟨sound₂, rows₂, kept₂⟩
    exact ⟨sound₂ ∘ sound₁, fun w member => (rows₂ w member).trans (rows₁ w member),
      fun b member => ⟨(kept₂ b member).1.trans (kept₁ b member).1,
        (kept₂ b member).2.trans (kept₁ b member).2⟩⟩
  shrink := by
    rintro ws new db₁ db₂ ⟨sound, rows, kept⟩
    refine ⟨sound, fun w member => rows w (List.mem_append_left _ member), fun b member => ?_⟩
    exact kept b (by rw [rowsOf_append]; exact List.mem_append_left _ member)

/-! ### What a call has written -/

def postedAs (now : Time) (t : LedgerTransaction) : LedgerTransaction :=
  { t with status := .posted, postedAt := some now }

/-- What has been written by now, table by table, on top of `ws₀` over `db₀`. Transactions and
entries are new, and every entry belongs to one of the transactions. -/
structure Wrote (ws₀ : List (Write Row)) (db₀ : Db) (now : Time) (hs : List HostCreditHold)
    (xs : List PayoutItem) (bs : List PayoutBatch) (ts : List LedgerTransaction)
    (draft : Option LedgerTransaction) (as : List LedgerAccount) (es : List LedgerEntry)
    (ws : List (Write Row)) (db : Db) : Prop where
  holds : rowsOf asHold ws = hs
  items : rowsOf asItem ws = xs
  batches : rowsOf asBatch ws = bs
  transactions : rowsOf asTransaction ws =
    (ts.flatMap fun t => [t, postedAs now t]) ++ draft.toList
  accounts : rowsOf asAccount ws = as
  entries : rowsOf asEntry ws = es
  since : rely.allows ws₀ db₀ db
  start : ws₀ <+: ws
  drawn : ((ts ++ draft.toList).map LedgerTransaction.id).Nodup
  fresh : ∀ t ∈ ts ++ draft.toList, db.transactions.find? t.id = none
  entered : (es.map LedgerEntry.id).Nodup
  new : ∀ e ∈ es, db.entries.find? e.id = none
  belongs : ∀ e ∈ es, ∃ t ∈ ts ++ draft.toList, t.id = e.transactionID
  seated : ∀ a ∈ as, db.accounts.find? a.id = none ∨ db.accounts.find? a.id = some a
  consistent : ∀ a ∈ as, ∀ a' ∈ as, a.id = a'.id → a = a'

abbrev Leg := (AccountOwner × String × String) × Int

def Legs (as : List LedgerAccount) (es : List LedgerEntry) (legs : List Leg) : Prop :=
  List.Forall₂ (fun e leg => (∃ a ∈ as, a.id = e.accountID ∧
    (a.ownerType, a.ownerID, a.accountType) = leg.1) ∧ e.amountMicrodollars = leg.2) es legs

variable {as : List LedgerAccount} {es : List LedgerEntry} {legs : List Leg} {a : LedgerAccount}
  {e : LedgerEntry}

theorem Legs.account (on : Legs as es legs) (a : LedgerAccount) : Legs (as ++ [a]) es legs :=
  on.imp fun _ _ ⟨⟨q, member, facts⟩, amount⟩ => ⟨⟨q, mem_append_left _ member, facts⟩, amount⟩

theorem Legs.entry (on : Legs as es legs) (member : a ∈ as) (account : e.accountID = a.id) :
    Legs as (es ++ [e])
      (legs ++ [((a.ownerType, a.ownerID, a.accountType), e.amountMicrodollars)]) :=
  rel_append on (.cons ⟨⟨a, member, account.symm, rfl⟩, rfl⟩ .nil)

section

variable {ws₀ ws : List (Write Row)} {db₀ db db' seen : Db} {now : Time} {hs : List HostCreditHold}
  {xs : List PayoutItem} {bs : List PayoutBatch} {ts : List LedgerTransaction}
  {draft : Option LedgerTransaction}

theorem Wrote.stable (wrote : Wrote ws₀ db₀ now hs xs bs ts draft as es ws db)
    (allowed : rely.allows ws db db') : Wrote ws₀ db₀ now hs xs bs ts draft as es ws db' :=
  { wrote with
    since := by
      obtain ⟨tail, rfl⟩ := wrote.start
      exact rely.trans wrote.since (rely.shrink allowed)
    fresh := by
      intro t member
      rw [find?_transaction_of_same allowed.2.1 ?_]
      · exact wrote.fresh t member
      · rw [wrote.transactions]
        rcases mem_append.mp member with posted | open'
        · exact mem_append_left _ (mem_flatMap.mpr ⟨t, posted, mem_cons_self⟩)
        · exact mem_append_right _ open'
    new := by
      intro e member
      rw [find?_entry_of_same allowed.2.1 (wrote.entries.symm ▸ member)]
      exact wrote.new e member
    seated := by
      intro a member
      rw [find?_account_of_same allowed.2.1 (wrote.accounts.symm ▸ member)]
      exact wrote.seated a member }

theorem wrote_start (now : Time) (db : Db) (transactions : rowsOf asTransaction ws = [])
    (accounts : rowsOf asAccount ws = []) (entries : rowsOf asEntry ws = []) :
    Wrote ws db now (rowsOf asHold ws)
      (rowsOf asItem ws) (rowsOf asBatch ws) [] none [] [] ws db where
  holds := rfl
  items := rfl
  batches := rfl
  transactions := by simpa using transactions
  accounts := accounts
  entries := entries
  since := rely.refl ws db
  start := prefix_refl ws
  drawn := by simp
  fresh := by simp
  entered := by simp
  new := by simp
  belongs := by simp
  seated := by simp
  consistent := by simp

section

variable (wrote : Wrote ws₀ db₀ now hs xs bs ts draft as es ws db)
include wrote

theorem Wrote.append (more : List (Write Row)) (transactions : rowsOf asTransaction more = [])
    (accounts : rowsOf asAccount more = []) (entries : rowsOf asEntry more = []) :
    Wrote ws₀ db₀ now (hs ++ rowsOf asHold more) (xs ++ rowsOf asItem more)
      (bs ++ rowsOf asBatch more) ts draft as es (ws ++ more) db :=
  { wrote with
    holds := by rw [rowsOf_append, wrote.holds]
    items := by rw [rowsOf_append, wrote.items]
    batches := by rw [rowsOf_append, wrote.batches]
    transactions := by rw [rowsOf_append, wrote.transactions, transactions, append_nil]
    accounts := by rw [rowsOf_append, wrote.accounts, accounts, append_nil]
    entries := by rw [rowsOf_append, wrote.entries, entries, append_nil]
    start := wrote.start.trans (prefix_append ws more) }

theorem Wrote.changeHolds (rs : List HostCreditHold) (f : HostCreditHold → HostCreditHold) :
    Wrote ws₀ db₀ now (hs ++ rs.flatMap fun r => [r, f r]) xs bs ts draft as es
      (ws ++ rs.flatMap fun r => [update (.hold r), .update (.hold (f r))]) db := by
  have next := wrote.append (rs.flatMap fun r => [.update (.hold r), .update (.hold (f r))])
    (rowsOf_changed_other (fun _ => rfl) rs) (rowsOf_changed_other (fun _ => rfl) rs)
    (rowsOf_changed_other (fun _ => rfl) rs)
  simpa only [rowsOf_changed hold (fun _ => rfl : ∀ r, asHold (.hold r) = some r),
    rowsOf_changed_other (fun _ => rfl : ∀ r, asItem (.hold r) = none),
    rowsOf_changed_other (fun _ => rfl : ∀ r, asBatch (.hold r) = none), append_nil] using next

theorem Wrote.changeItems (rs : List PayoutItem) (f : PayoutItem → PayoutItem) :
    Wrote ws₀ db₀ now hs (xs ++ rs.flatMap fun r => [r, f r]) bs ts draft as es
      (ws ++ rs.flatMap fun r => [update (.item r), .update (.item (f r))]) db := by
  have next := wrote.append (rs.flatMap fun r => [.update (.item r), .update (.item (f r))])
    (rowsOf_changed_other (fun _ => rfl) rs) (rowsOf_changed_other (fun _ => rfl) rs)
    (rowsOf_changed_other (fun _ => rfl) rs)
  simpa only [rowsOf_changed item (fun _ => rfl : ∀ r, asItem (.item r) = some r),
    rowsOf_changed_other (fun _ => rfl : ∀ r, asHold (.item r) = none),
    rowsOf_changed_other (fun _ => rfl : ∀ r, asBatch (.item r) = none), append_nil] using next

theorem Wrote.changeBatches (rs : List PayoutBatch) (f : PayoutBatch → PayoutBatch) :
    Wrote ws₀ db₀ now hs xs (bs ++ rs.flatMap fun r => [r, f r]) ts draft as es
      (ws ++ rs.flatMap fun r => [update (.batch r), .update (.batch (f r))]) db := by
  have next := wrote.append (rs.flatMap fun r => [.update (.batch r), .update (.batch (f r))])
    (rowsOf_changed_other (fun _ => rfl) rs) (rowsOf_changed_other (fun _ => rfl) rs)
    (rowsOf_changed_other (fun _ => rfl) rs)
  simpa only [rowsOf_changed batch (fun _ => rfl : ∀ r, asBatch (.batch r) = some r),
    rowsOf_changed_other (fun _ => rfl : ∀ r, asHold (.batch r) = none),
    rowsOf_changed_other (fun _ => rfl : ∀ r, asItem (.batch r) = none), append_nil] using next

theorem Wrote.insertItem (x : PayoutItem) :
    Wrote ws₀ db₀ now hs (xs ++ [x]) bs ts draft as es (ws ++ [.insert (.item x)]) db := by
  have next := wrote.append [.insert (.item x)] rfl rfl rfl
  have noHold : rowsOf asHold [insert (.item x)] = [] := rfl
  have noBatch : rowsOf asBatch [insert (.item x)] = [] := rfl
  rwa [noHold, noBatch, append_nil, append_nil] at next

theorem Wrote.insertHold (h : HostCreditHold) :
    Wrote ws₀ db₀ now (hs ++ [h]) xs bs ts draft as es (ws ++ [.insert (.hold h)]) db := by
  have next := wrote.append [.insert (.hold h)] rfl rfl rfl
  have noItem : rowsOf asItem [insert (.hold h)] = [] := rfl
  have noBatch : rowsOf asBatch [insert (.hold h)] = [] := rfl
  rwa [noItem, noBatch, append_nil, append_nil] at next

theorem Wrote.find?_account (member : a ∈ as) :
    (schema.overlay db ws).accounts.find? a.id = some a := by
  rw [overlay_accounts, wrote.accounts]
  obtain ⟨q, inside, found⟩ := find?_putAll_mem (t := db.accounts) member
  rw [found, wrote.consistent q inside a member (key_of_find? found)]

theorem Wrote.writeAccount {w : Write Row} (row : w.row = .account a)
    (seen : (schema.overlay db ws).accounts.find? a.id = none ∨
      (schema.overlay db ws).accounts.find? a.id = some a) :
    Wrote ws₀ db₀ now hs xs bs ts draft (as ++ [a]) es (ws ++ [w]) db := by
  -- a row of this account that is written already is the row that is seen
  have same : ∀ q ∈ as, q.id = a.id → q = a := by
    intro q member key
    have found := wrote.find?_account member
    rw [key] at found
    rcases seen with none | some
    · rw [none] at found
      cases found
    · rw [some] at found
      exact (Option.some.inj found).symm
  -- what is seen is what is written, and otherwise what is committed
  have committed : db.accounts.find? a.id = none ∨ db.accounts.find? a.id = some a := by
    by_cases written : ∃ q ∈ as, q.id = a.id
    · obtain ⟨q, member, key⟩ := written
      exact same q member key ▸ wrote.seated q member
    · rw [overlay_accounts, wrote.accounts, find?_putAll_other fun q member key =>
        written ⟨q, member, key⟩] at seen
      exact seen
  exact { wrote with
    holds := (rowsOf_same (by rw [row]; rfl)).trans wrote.holds
    items := (rowsOf_same (by rw [row]; rfl)).trans wrote.items
    batches := (rowsOf_same (by rw [row]; rfl)).trans wrote.batches
    transactions := (rowsOf_same (by rw [row]; rfl)).trans wrote.transactions
    accounts := by rw [rowsOf_append, wrote.accounts]; simp [rowsOf, row, asAccount]
    entries := (rowsOf_same (by rw [row]; rfl)).trans wrote.entries
    start := wrote.start.trans (prefix_append ws _)
    seated := by
      intro q member
      rcases mem_append.mp member with old | this
      · exact wrote.seated q old
      · exact mem_singleton.mp this ▸ committed
    consistent := by
      intro q member q' member' key
      rcases mem_append.mp member with old | this <;>
        rcases mem_append.mp member' with old' | this'
      · exact wrote.consistent q old q' old' key
      · rw [mem_singleton.mp this'] at key ⊢
        exact same q old key
      · rw [mem_singleton.mp this] at key ⊢
        exact (same q' old' key.symm).symm
      · rw [mem_singleton.mp this, mem_singleton.mp this'] }

end

variable {t : LedgerTransaction}

theorem Wrote.insertTransaction (wrote : Wrote ws₀ db₀ now hs xs bs ts none as es ws db)
    (admitted : schema.applyWrites (schema.overlay db ws) [.insert (.transaction t)] = some seen) :
    Wrote ws₀ db₀ now hs xs bs ts (some t) as es (ws ++ [.insert (.transaction t)]) db := by
  have absent : db.transactions.find? t.id = none :=
    map_eq_none_iff.mp (schema.fresh_of_applyWrites admitted mem_cons_self)
  have view : (schema.overlay db ws).transactions.find? t.id = none :=
    map_eq_none_iff.mp (absent_of_insert admitted)
  have unused : ∀ u ∈ ts, u.id ≠ t.id := by
    intro u member
    rw [overlay_transactions, wrote.transactions] at view
    exact ne_of_find?_putAll view u
      (mem_append_left _ (mem_flatMap.mpr ⟨u, member, mem_cons_self⟩))
  exact { wrote with
    holds := (rowsOf_same rfl).trans wrote.holds
    items := (rowsOf_same rfl).trans wrote.items
    batches := (rowsOf_same rfl).trans wrote.batches
    transactions := by rw [rowsOf_append, wrote.transactions]; simp [rowsOf, asTransaction]
    accounts := (rowsOf_same rfl).trans wrote.accounts
    entries := (rowsOf_same rfl).trans wrote.entries
    start := wrote.start.trans (prefix_append ws _)
    drawn := by
      have before := wrote.drawn
      simp only [toList_none, append_nil] at before
      exact nodup_keys_concat before unused
    fresh := by
      intro u member
      rcases mem_append.mp member with old | this
      · exact wrote.fresh u (mem_append_left _ old)
      · rw [toList_some, mem_singleton] at this
        exact this ▸ absent
    belongs := by
      intro e member
      obtain ⟨u, old, same⟩ := wrote.belongs e member
      simp only [toList_none, append_nil] at old
      exact ⟨u, mem_append_left _ old, same⟩ }

section

variable (wrote : Wrote ws₀ db₀ now hs xs bs ts (some t) as es ws db)
include wrote

theorem Wrote.insertEntry (own : e.transactionID = t.id)
    (admitted : schema.applyWrites (schema.overlay db ws) [.insert (.entry e)] = some seen) :
    Wrote ws₀ db₀ now hs xs bs ts (some t) as (es ++ [e]) (ws ++ [.insert (.entry e)]) db := by
  have absent : db.entries.find? e.id = none :=
    map_eq_none_iff.mp (schema.fresh_of_applyWrites admitted mem_cons_self)
  -- the primary key is free in what the call sees, its own rows included
  have view := (Reversals.entry_admitted admitted).1
  rw [overlay_entries, wrote.entries] at view
  exact { wrote with
    holds := (rowsOf_same rfl).trans wrote.holds
    items := (rowsOf_same rfl).trans wrote.items
    batches := (rowsOf_same rfl).trans wrote.batches
    transactions := (rowsOf_same rfl).trans wrote.transactions
    accounts := (rowsOf_same rfl).trans wrote.accounts
    entries := by rw [rowsOf_append, wrote.entries]; simp [rowsOf, asEntry]
    start := wrote.start.trans (prefix_append ws _)
    entered := nodup_keys_concat wrote.entered (ne_of_find?_putAll view)
    new := by
      intro q member
      rcases mem_append.mp member with old | this
      · exact wrote.new q old
      · exact mem_singleton.mp this ▸ absent
    belongs := by
      intro q member
      rcases mem_append.mp member with old | this
      · exact wrote.belongs q old
      · rw [mem_singleton.mp this]
        exact ⟨t, mem_concat_self, own.symm⟩ }

theorem Wrote.markPosted : Wrote ws₀ db₀ now hs xs bs (ts ++ [t]) none as es (ws ++
      ((schema.overlay db ws).transactions.updated (fun u => u.id = t.id)
        (fun u => { u with status := .posted, postedAt := some now })).map
          fun u => .update (.transaction u)) db := by
  have view : (schema.overlay db ws).transactions.find? t.id = some t := by
    rw [overlay_transactions, wrote.transactions, putAll_append, toList_some,
      putAll_cons, putAll_nil, find?_put_self]
  rw [updated_key, view]
  have same : ts ++ [t] ++ (none : Option LedgerTransaction).toList = ts ++ (some t).toList := by
    simp
  exact { wrote with
    holds := (rowsOf_same rfl).trans wrote.holds
    items := (rowsOf_same rfl).trans wrote.items
    batches := (rowsOf_same rfl).trans wrote.batches
    transactions := by
      rw [rowsOf_append, wrote.transactions]
      simp [rowsOf, asTransaction, postedAs]
    accounts := (rowsOf_same rfl).trans wrote.accounts
    entries := (rowsOf_same rfl).trans wrote.entries
    start := wrote.start.trans (prefix_append ws _)
    drawn := by rw [same]; exact wrote.drawn
    fresh := by rw [same]; exact wrote.fresh
    belongs := by rw [same]; exact wrote.belongs }

end

end

end Payouts

end Thirdshift
