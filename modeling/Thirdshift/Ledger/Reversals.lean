import Thirdshift.Ledger.Interleaving
import Thirdshift.Ledger.Corrections

/-!
# Reversals among reversals

`ReverseTransaction` and `VoidPayoutBatch` look for a posted transaction and write its negation.
Nothing in the schema keeps a second call from doing so again. As long as no two of the calls under
way aim at one transaction, voids of one batch excepted, each transaction is reversed at most once
and exactly.
-/

namespace Thirdshift

open Foundation Foundation.ReadCommitted List Table Tx Row Write

variable {db : Db} {batchID reversalID : String} {txs : List LedgerTransaction}
  {draft r : LedgerTransaction} {i : Nat}

structure CorrectionCall where
  correction : Correction
  ids : Nat → String

namespace CorrectionCall

def program (call : CorrectionCall) : SqlTx Unit := call.correction.tx call.ids

def target (db : Db) (call : CorrectionCall) : Option String :=
  match call.correction with
  | .reverseTransaction transactionID _ => some transactionID
  | .voidPayoutBatch batchID _ =>
    if (db.batches.find? batchID).any (fun batch => batch.status = .paid) then
      Ledger.payoutTransaction batchID db
    else none

end CorrectionCall

namespace Db

def Original (db : Db) (transactionID : String) : Prop :=
  ∃ t, db.transactions.find? transactionID = some t ∧ t.status = .posted ∧
    t.reversesTransactionID = none

def accountSum (db : Db) (transactionID accountID : String) : Int :=
  entrySum ((Ledger.entriesOf db transactionID).filter fun e => e.accountID = accountID)

/-- Every original transaction has at most one posted reversal, which cancels it on each account. -/
def ReversedOnce (db : Db) : Prop :=
  ∀ id, db.Original id → ∀ r₁ ∈ db.transactions.rows, r₁.status = .posted →
    r₁.reversesTransactionID = some id →
    (∀ r₂ ∈ db.transactions.rows, r₂.status = .posted → r₂.reversesTransactionID = some id →
      r₂ = r₁) ∧
    ∀ accountID, db.accountSum id accountID + db.accountSum r₁.id accountID = 0

end Db

/-- Identifiers are drawn once. -/
structure DrawsNew (db : Db) (calls : List CorrectionCall) : Prop where
  fresh : ∀ call ∈ calls, db.transactions.find? (call.ids 0) = none
  distinct : ∀ (i j : Nat) (call call' : CorrectionCall), calls[i]? = some call →
    calls[j]? = some call' → call.ids 0 = call'.ids 0 → i = j

/-- No two calls aim at one original transaction, unless they void one batch; none aims at one that
is already reversed, or whose amounts have no negation in `int64`. -/
structure Apart (db : Db) (calls : List CorrectionCall) : Prop where
  once : ∀ (i j : Nat) (call call' : CorrectionCall), calls[i]? = some call →
    calls[j]? = some call' → i ≠ j → ∀ id, db.Original id → call.target db = some id →
    call'.target db = some id → ∃ batchID now now',
      call.correction = .voidPayoutBatch batchID now ∧
      call'.correction = .voidPayoutBatch batchID now'
  pristine : ∀ call ∈ calls, ∀ id, db.Original id → call.target db = some id →
    ∀ r ∈ db.transactions.rows, r.reversesTransactionID ≠ some id
  negatable : ∀ call ∈ calls, ∀ id, db.Original id → call.target db = some id →
    ∀ e ∈ Ledger.entriesOf db id,
      isInt8 e.amountMicrodollars = true ∧ e.amountMicrodollars ≠ -9223372036854775808

namespace Reversals

open Ledger

section

variable (db₀ : Db) (all : List CorrectionCall)

def Made (db : Db) (r : LedgerTransaction) : Prop :=
  ∃ (i : Nat) (call : CorrectionCall) (id : String), all[i]? = some call ∧ call.ids 0 = r.id ∧
    r.status = .posted ∧ r.reversesTransactionID = some id ∧ call.target db₀ = some id ∧
    (db.transactions.find? id).isSome = true ∧
    (entriesOf db r.id).map leg = (entriesOf db id).map reversed ∧
    ∀ batchID now, call.correction = .voidPayoutBatch batchID now →
      (db.batches.find? batchID).any (fun batch => batch.status = .void) = true

structure Sound (db : Db) : Prop where
  kept : ∀ id t, db₀.transactions.find? id = some t → db.transactions.find? id = some t
  belongs : ∀ e ∈ db.entries.rows, (db.transactions.find? e.transactionID).isSome = true
  entries : ∀ id, (db₀.transactions.find? id).isSome = true → entriesOf db id = entriesOf db₀ id
  made : ∀ r ∈ db.transactions.rows, db₀.transactions.find? r.id = none → Made db₀ all db r
  once : ∀ r₁ ∈ db.transactions.rows, ∀ r₂ ∈ db.transactions.rows,
    db₀.transactions.find? r₁.id = none → db₀.transactions.find? r₂.id = none → ∀ id,
    db₀.Original id → r₁.reversesTransactionID = some id → r₂.reversesTransactionID = some id →
    r₁ = r₂
  paid : ∀ id batch, db.batches.find? id = some batch → batch.status = .paid →
    (db₀.batches.find? id).any (fun batch => batch.status = .paid) = true
  payouts : ∀ id, payoutTransaction id db = payoutTransaction id db₀

/-- The others keep the committed database sound, leave the rows that are written alone, and every
transaction with its entries as it is. -/
def rely : Rely Db Row where
  allows ws db db' := (Sound db₀ all db → Sound db₀ all db') ∧
    (∀ w ∈ ws, schema.get db' w.row.key = schema.get db w.row.key) ∧
    ∀ id, (db.transactions.find? id).isSome = true →
      db'.transactions.find? id = db.transactions.find? id ∧ entriesOf db' id = entriesOf db id
  refl _ _ := ⟨id, fun _ _ => rfl, fun _ _ => ⟨rfl, rfl⟩⟩
  trans := by
    rintro ws db₁ db₂ db₃ ⟨sound₁, rows₁, kept₁⟩ ⟨sound₂, rows₂, kept₂⟩
    refine ⟨sound₂ ∘ sound₁, fun w member => (rows₂ w member).trans (rows₁ w member),
      fun id known => ?_⟩
    obtain ⟨same, entries⟩ := kept₁ id known
    obtain ⟨same', entries'⟩ := kept₂ id (same ▸ known)
    exact ⟨same'.trans same, entries'.trans entries⟩
  shrink := by
    rintro ws new db₁ db₂ ⟨sound, rows, kept⟩
    exact ⟨sound, fun w member => rows w (List.mem_append_left _ member), kept⟩

end

variable {db₀ : Db} {all : List CorrectionCall} {ws : List (Write Row)} {db' : Db}

/-! ### One reversal -/

/-- The writes reverse a transaction: its negated entries are inserted for a new transaction. -/
structure Reverses (reversalID id : String) (txs : List LedgerTransaction) (ws : List (Write Row))
    (db : Db) : Prop where
  transactions : rowsOf asTransaction ws = txs
  fresh : db.transactions.find? reversalID = none
  known : (db.transactions.find? id).isSome = true
  nodup : ((rowsOf asEntry ws).map LedgerEntry.id).Nodup
  new : ∀ e ∈ rowsOf asEntry ws, db.entries.find? e.id = none
  ofReversal : ∀ e ∈ rowsOf asEntry ws, e.transactionID = reversalID
  legs : (rowsOf asEntry ws).map leg = (entriesOf db id).map reversed

variable {id : String} {now : Time}

theorem Reverses.stable
    (reverses : Reverses reversalID id txs ws db) {x : LedgerTransaction} (member : x ∈ txs)
    (named : x.id = reversalID) (allowed : (rely db₀ all).allows ws db db') :
    Reverses reversalID id txs ws db' where
  transactions := reverses.transactions
  fresh := by
    rw [← named, find?_transaction_of_same allowed.2.1 (reverses.transactions ▸ member), named]
    exact reverses.fresh
  known := by
    rw [(allowed.2.2 id reverses.known).1]
    exact reverses.known
  nodup := reverses.nodup
  new e inserted := (find?_entry_of_same allowed.2.1 inserted).trans (reverses.new e inserted)
  ofReversal := reverses.ofReversal
  legs := by
    rw [(allowed.2.2 id reverses.known).2]
    exact reverses.legs

theorem Reverses.of_rows {txs' : List LedgerTransaction}
    {ws' : List (Write Row)} (reverses : Reverses reversalID id txs ws db)
    (transactions : rowsOf asTransaction ws' = txs')
    (entries : rowsOf asEntry ws' = rowsOf asEntry ws) :
    Reverses reversalID id txs' ws' db := by
  refine ⟨transactions, reverses.fresh, reverses.known, ?_, ?_, ?_, ?_⟩ <;> rw [entries]
  exacts [reverses.nodup, reverses.new, reverses.ofReversal, reverses.legs]

theorem rowsOf_entries {ρ : Type} {as : Row → Option ρ} (es : List LedgerEntry)
    (other : ∀ e, as (.entry e) = none) :
    rowsOf as (es.map fun e => insert (.entry e)) = [] := by
  apply rowsOf_eq_nil
  intro w member
  obtain ⟨e, -, rfl⟩ := mem_map.mp member
  exact other e

theorem rowsOf_asEntry (es : List LedgerEntry) :
    rowsOf asEntry (es.map fun e => insert (.entry e)) = es := by
  induction es with
  | nil => rfl
  | cons e es ih =>
    simp only [rowsOf, map_cons, filterMap_cons, row_insert, asEntry] at ih ⊢
    rw [ih]

theorem entry_admitted {e : LedgerEntry} {seen : Db}
    (admitted : schema.applyWrites (schema.overlay db ws) [.insert (.entry e)] = some seen) :
    (schema.overlay db ws).entries.find? e.id = none ∧
    ((schema.overlay db ws).transactions.find? e.transactionID).any (fun t => t.status ≠ .posted) =
      true := by
  simp only [Schema.applyWrites] at admitted
  split at admitted
  next ok =>
    have valid := valid_of_admits ok
    simp only [Db.valid, Bool.and_eq_true] at valid
    exact ⟨Option.map_eq_none_iff.mp (absent_of_admits ok), valid.2⟩
  · cases admitted

theorem guarded_insertReversals (original : List LedgerEntry)
    (ids : Nat → String) (nodup : ((rowsOf asEntry ws).map LedgerEntry.id).Nodup)
    (new : ∀ e ∈ rowsOf asEntry ws, db.entries.find? e.id = none) :
    (insertReversals reversalID ids original).Guarded schema (rely db₀ all) (fun ws' db' _ =>
      ∃ es, ws' = ws ++ es.map (fun e => .insert (.entry e)) ∧
        ((rowsOf asEntry ws').map LedgerEntry.id).Nodup ∧
        (∀ e ∈ rowsOf asEntry ws', db'.entries.find? e.id = none) ∧
        es.map leg = original.map reversed ∧ (∀ e ∈ es, e.transactionID = reversalID) ∧
        (rely db₀ all).allows ws db db' ∧ (es ≠ [] → ∃ mid, (rely db₀ all).allows ws db mid ∧
          ((schema.overlay mid ws).transactions.find? reversalID).any (fun t => t.status ≠ .posted) =
            true)) ws db := by
  induction original generalizing ids ws db with
  | nil =>
    intro later allowed
    refine ⟨[], by simp, nodup, fun e member => ?_, rfl, by simp, allowed, by simp⟩
    exact (find?_entry_of_same allowed.2.1 member).trans (new e member)
  | cons entry rest ih =>
    refine guarded_write fun later allowed seen admitted => ?_
    obtain ⟨absent, unposted⟩ := entry_admitted admitted
    generalize inserted : (⟨ids 0, reversalID, entry.accountID, wrap64 (-entry.amountMicrodollars),
      "reversal: " ++ entry.memo⟩ : LedgerEntry) = e
    have newLater : ∀ e ∈ rowsOf asEntry ws, later.entries.find? e.id = none :=
      fun e member => (find?_entry_of_same allowed.2.1 member).trans (new e member)
    -- the key is new among the committed entries and among those written before
    rw [overlay_entries] at absent
    have apart : ∀ e ∈ rowsOf asEntry ws, e.id ≠ ids 0 := ne_of_find?_putAll absent
    rw [find?_putAll_other apart] at absent
    have next : rowsOf asEntry (ws ++ [.insert (.entry e)]) = rowsOf asEntry ws ++ [e] :=
      rowsOf_append ..
    refine (ih _ ?_ ?_).mono ?_
    · rw [next]
      exact nodup_keys_concat nodup (inserted ▸ apart)
    · rw [next]
      intro e member
      rcases mem_append.mp member with old | now
      · exact newLater e old
      · rw [mem_singleton.mp now, ← inserted]
        exact absent
    · rintro ws' last u ⟨es, rfl, nodup', new', legs, ofReversal, allowed', -⟩
      refine ⟨e :: es, by simp, nodup', new', ?_, ?_,
        (rely db₀ all).trans allowed ((rely db₀ all).shrink allowed'), fun _ => ⟨later, allowed, unposted⟩⟩
      · simp [← inserted, legs, leg, reversed]
      · exact forall_mem_cons.mpr ⟨by rw [← inserted], ofReversal⟩

def postedAs (draft : LedgerTransaction) (now : Time) : LedgerTransaction :=
  { draft with status := .posted, postedAt := some now }

theorem Sound.posted (sound : Sound db₀ all db) (new : db₀.transactions.find? id = none) :
    (db.transactions.find? id).any (fun t => t.status ≠ .posted) = false := by
  cases found : db.transactions.find? id with
  | none => rfl
  | some t =>
    have key := key_of_find? found
    obtain ⟨_, _, _, -, -, posted, -⟩ := sound.made t (mem_of_find? found) (key.symm ▸ new)
    simp [posted]

theorem Reverses.post {posted : LedgerTransaction}
    (reverses : Reverses reversalID id [draft] ws db) :
    Reverses reversalID id [draft, posted] (ws ++ [.update (.transaction posted)]) db := by
  refine reverses.of_rows ?_ ((rowsOf_append ..).trans (append_nil _))
  rw [rowsOf_append, reverses.transactions]
  rfl

theorem guarded_reverseTransaction {ids : Nat → String}
    (drawn : db₀.transactions.find? (ids 0) = none) (sound : Sound db₀ all db)
    (transactions : rowsOf asTransaction ws = []) (entries : rowsOf asEntry ws = []) :
    (reverseTransaction ids id now).Guarded schema (rely db₀ all) (fun ws' db' _ =>
      ∃ draft new, ws' = ws ++ new ∧ (∀ w ∈ new, w.row.table ∈ [.transactions, .entries]) ∧
        draft.id = ids 0 ∧ draft.reversesTransactionID = some id ∧
        Reverses (ids 0) id [draft, postedAs draft now] ws' db' ∧
        (rely db₀ all).allows ws db db') ws db := by
  refine guarded_write fun db₁ allowed₁ seen₁ admitted₁ => ?_
  have sound₁ := allowed₁.1 sound
  have view₁ : (schema.overlay db₁ ws).transactions = db₁.transactions := by
    rw [overlay_transactions, transactions, putAll_nil]
  cases found : (db₁.transactions.find? id).filter (fun t => t.status = .posted) with
  | none =>
    -- no draft is inserted, and the first entry has no transaction to belong to
    simp only [view₁, found, append_nil]
    refine guarded_select fun db₂ allowed₂ => ?_
    have none : ((rowsOf asEntry ws).map LedgerEntry.id).Nodup := by simp [entries]
    refine (guarded_insertReversals _ _ none (by simp [entries])).bind ?_
    rintro u ws' db₃ ⟨es, rfl, -, -, legs, -, allowed₃, first⟩
    unfold require
    split
    next some =>
      exfalso
      have inserted : es ≠ [] := by
        rintro rfl
        exact some (map_eq_nil_iff.mp legs.symm)
      obtain ⟨mid, allowed, unposted⟩ := first inserted
      have soundMid := allowed.1 (allowed₂.1 sound₁)
      rw [overlay_transactions, transactions, putAll_nil, soundMid.posted drawn] at unposted
      cases unposted
    · trivial
  | some t =>
    obtain ⟨present, -⟩ := Option.filter_eq_some_iff.mp found
    have key : t.id = id := key_of_find? present
    generalize same : (⟨ids 0, .ledgerReversal, .draft, t.referenceType, t.referenceID, none,
      some t.id⟩ : LedgerTransaction) = draft
    have draftID : draft.id = ids 0 := by rw [← same]
    have draftOf : draft.reversesTransactionID = some id := by rw [← same, key]
    simp only [view₁, found, same] at admitted₁ ⊢
    have fresh : db₁.transactions.find? (ids 0) = none := by
      simp only [Schema.applyWrites] at admitted₁
      split at admitted₁
      next ok =>
        have absent : (schema.overlay db₁ ws).transactions.find? draft.id = none :=
          Option.map_eq_none_iff.mp (absent_of_admits ok)
        rwa [view₁, draftID] at absent
      · cases admitted₁
    -- the draft is written after what was there, the entries after the draft
    generalize drafted : ws ++ [Write.insert (transaction draft)] = ws₁
    have rows : rowsOf asTransaction ws₁ = [draft] := by
      rw [← drafted, rowsOf_append, transactions]
      rfl
    have noEntries : rowsOf asEntry ws₁ = [] := by
      rw [← drafted, rowsOf_append, entries]
      rfl
    refine guarded_select fun db₂ allowed₂ => ?_
    refine (guarded_insertReversals _ _ (by simp [noEntries]) (by simp [noEntries])).bind ?_
    rintro u _ db₃ ⟨es, rfl, nodup, new, legs, ofReversal, allowed₃, -⟩
    rw [overlay_entries, noEntries, putAll_nil] at legs
    have known₂ : (db₂.transactions.find? id).isSome = true := by
      rw [(allowed₂.2.2 id (by simp [present])).1, present]
      rfl
    have written : rowsOf asEntry (ws₁ ++ es.map fun e => Write.insert (.entry e)) = es := by
      rw [rowsOf_append, noEntries, rowsOf_asEntry, nil_append]
    have reverses : Reverses (ids 0) id [draft] (ws₁ ++ es.map fun e => Write.insert (.entry e))
        db₃ := by
      refine ⟨?_, ?_, ?_, nodup, new, by rwa [written], ?_⟩
      · rw [rowsOf_append, rows, rowsOf_entries es fun _ => rfl, append_nil]
      · have kept := find?_transaction_of_same ((rely db₀ all).trans allowed₂ allowed₃).2.1
          (rows.symm ▸ mem_cons_self)
        rw [draftID] at kept
        exact kept.trans fresh
      · rw [(allowed₃.2.2 id known₂).1]
        exact known₂
      · rw [written, legs, (allowed₃.2.2 id known₂).2]
        rfl
    have since := (rely db₀ all).trans allowed₁ ((rely db₀ all).shrink
      (drafted ▸ (rely db₀ all).trans allowed₂ allowed₃))
    unfold require
    split
    next nonempty =>
      refine guarded_write fun db₄ allowed₄ seen₄ admitted₄ => ?_
      rw [overlay_transactions, reverses.transactions, ← draftID, updated_key,
        putAll_cons, putAll_nil, find?_put_self, draftID]
      intro db₅ allowed₅
      have stable := reverses.stable mem_cons_self draftID
        ((rely db₀ all).trans allowed₄ ((rely db₀ all).shrink allowed₅))
      subst drafted
      refine ⟨draft, [Write.insert (.transaction draft)] ++
        (es.map fun e => Write.insert (.entry e)) ++ [Write.update (.transaction (postedAs draft now))],
        by simp [postedAs], ?_, draftID, draftOf, stable.post, ?_⟩
      · intro w member
        simp only [mem_append, mem_singleton, mem_map] at member
        rcases member with (rfl | ⟨e, -, rfl⟩) | rfl
        · exact mem_cons_self
        · exact mem_cons_of_mem _ mem_cons_self
        · exact mem_cons_self
      · exact (rely db₀ all).trans since ((rely db₀ all).shrink ((rely db₀ all).shrink
          ((rely db₀ all).trans allowed₄ ((rely db₀ all).shrink allowed₅))))
    · trivial

section

variable (row : Row) (inside : row.table ∈ [.transactions, .entries])
include row inside

theorem outside_asItem : row.asItem = none := by
  cases row <;> first | rfl | simp [table, key] at inside

theorem outside_asBatch : row.asBatch = none := by
  cases row <;> first | rfl | simp [table, key] at inside

end

/-! ### What a call has written -/

/-- What a call has written at any time between its statements, once it knows what it does to the
ledger. -/
structure Wrote (db₀ : Db) (call : CorrectionCall) (ws : List (Write Row)) (db : Db) : Prop where
  ledger : (rowsOf asTransaction ws = [] ∧ rowsOf asEntry ws = []) ∨
    ∃ draft id now, draft.id = call.ids 0 ∧ draft.reversesTransactionID = some id ∧
      call.target db₀ = some id ∧ Reverses (call.ids 0) id [draft, postedAs draft now] ws db ∧
      ∀ batchID now, call.correction = .voidPayoutBatch batchID now →
        (db.batches.find? batchID).any (fun batch => batch.status = .paid) = true
  items : ∀ x ∈ rowsOf asItem ws, ∃ old, db.items.find? x.id = some old ∧
    old.payoutBatchID = x.payoutBatchID ∧ old.ledgerTransactionID = x.ledgerTransactionID
  batches : ∀ x ∈ rowsOf asBatch ws, ∃ old, db.batches.find? x.id = some old ∧
    (x = old ∨ x.status = .void)
  locked : ∀ batchID now, call.correction = .voidPayoutBatch batchID now →
    ∃ x ∈ rowsOf asBatch ws, x.id = batchID

variable {call : CorrectionCall}

section

variable (wrote : Wrote db₀ call ws db)
include wrote

theorem Wrote.stable (allowed : (rely db₀ all).allows ws db db') : Wrote db₀ call ws db' where
  ledger := by
    rcases wrote.ledger with none | ⟨draft, id, now, named, reverses, aimed, written, paid⟩
    · exact .inl none
    · refine .inr ⟨draft, id, now, named, reverses, aimed,
        written.stable mem_cons_self named allowed, fun batchID now same => ?_⟩
      obtain ⟨x, member, rfl⟩ := wrote.locked batchID now same
      rw [find?_batch_of_same allowed.2.1 member]
      exact paid x.id now same
  items x member := by
    obtain ⟨old, found, same⟩ := wrote.items x member
    exact ⟨old, (find?_item_of_same allowed.2.1 member).trans found, same⟩
  batches x member := by
    obtain ⟨old, found, same⟩ := wrote.batches x member
    exact ⟨old, (find?_batch_of_same allowed.2.1 member).trans found, same⟩
  locked := wrote.locked

theorem Wrote.append {new : List (Write Row)}
    (transactions : rowsOf asTransaction new = []) (entries : rowsOf asEntry new = [])
    (items : ∀ x ∈ rowsOf asItem new, ∃ old, db.items.find? x.id = some old ∧
      old.payoutBatchID = x.payoutBatchID ∧ old.ledgerTransactionID = x.ledgerTransactionID)
    (batches : ∀ x ∈ rowsOf asBatch new, ∃ old, db.batches.find? x.id = some old ∧
      (x = old ∨ x.status = .void)) : Wrote db₀ call (ws ++ new) db where
  ledger := by
    rcases wrote.ledger with none | ⟨draft, id, now, named, reverses, aimed, written, paid⟩
    · exact .inl (by simpa [transactions, entries] using none)
    · refine .inr ⟨draft, id, now, named, reverses, aimed, written.of_rows ?_ ?_, paid⟩
      · rw [rowsOf_append, transactions, append_nil, written.transactions]
      · rw [rowsOf_append, entries, append_nil]
  items x member := by
    rw [rowsOf_append] at member
    exact (mem_append.mp member).elim (wrote.items x) (items x)
  batches x member := by
    rw [rowsOf_append] at member
    exact (mem_append.mp member).elim (wrote.batches x) (batches x)
  locked batchID now same := by
    obtain ⟨x, member, key⟩ := wrote.locked batchID now same
    refine ⟨x, ?_, key⟩
    rw [rowsOf_append]
    exact mem_append_left _ member

theorem guarded_updateHolds (p : HostCreditHold → Bool) (f : HostCreditHold → HostCreditHold) :
    (updateHolds p f).Guarded schema (rely db₀ all) (fun ws db _ => Wrote db₀ call ws db) ws db := by
  refine guarded_select fun later allowed => ?_
  refine guarded_updateEach (fun _ _ _ => Wrote.stable) (fun ws db id h wrote _ _ => ?_) _
    (wrote.stable allowed)
  exact wrote.append rfl rfl (by simp [rowsOf, asItem]) (by simp [rowsOf, asBatch])

theorem Wrote.item_of_view {x : PayoutItem}
    (found : (schema.overlay db ws).items.find? id = some x) :
    ∃ old, db.items.find? x.id = some old ∧ old.payoutBatchID = x.payoutBatchID ∧
      old.ledgerTransactionID = x.ledgerTransactionID := by
  rw [overlay_items] at found
  rcases mem_putAll (mem_of_find? found) with committed | own
  · exact ⟨x, find?_of_mem committed, rfl, rfl⟩
  · exact wrote.items x own

theorem guarded_voidItems (p : PayoutItem → Bool) :
    (updateItems p fun i => { i with status := .void }).Guarded schema (rely db₀ all)
      (fun ws db _ => Wrote db₀ call ws db) ws db := by
  refine guarded_select fun later allowed => ?_
  refine guarded_updateEach (fun _ _ _ => Wrote.stable) (fun ws db id x wrote found _ => ?_) _
    (wrote.stable allowed)
  refine wrote.append rfl rfl ?_ (by simp [rowsOf, asBatch])
  obtain ⟨old, committed, marks⟩ := wrote.item_of_view found
  intro y member
  simp only [rowsOf, filterMap_cons, row_update, asItem, filterMap_nil,
    mem_cons, not_mem_nil, or_false] at member
  rcases member with rfl | rfl <;> exact ⟨old, committed, marks⟩

def Voided (batchID : String) (ws : List (Write Row)) : Prop :=
  ∃ earlier x, ws = earlier ++ [.update (.batch x)] ∧ x.id = batchID ∧ x.status = .void

theorem guarded_voidBatchRow (voids : call.correction = .voidPayoutBatch batchID now) :
    (updateBatch batchID fun b => { b with status := .void }).Guarded schema (rely db₀ all)
      (fun ws db _ => Wrote db₀ call ws db ∧ Voided batchID ws) ws db := by
  refine guarded_write fun later allowed seen admitted => ?_
  have here := wrote.stable allowed
  obtain ⟨x, member, key⟩ := here.locked batchID now voids
  obtain ⟨b, own, found⟩ := find?_putAll_mem (t := later.batches) member
  rw [← overlay_batches, key] at found
  have row : (findBatch (schema.overlay later ws) batchID).filter (fun _ => true) = some b := by
    rw [findBatch, found]
    rfl
  simp only [row]
  have keyed : b.id = batchID := key_of_find? found
  obtain ⟨old, committed, same⟩ := here.batches b own
  have next : Wrote db₀ call
      (ws ++ [.update (.batch b), .update (.batch { b with status := .void })]) later := by
    refine here.append rfl rfl (by simp [rowsOf, asItem]) fun y inside => ?_
    simp only [rowsOf, filterMap_cons, row_update, asBatch, filterMap_nil,
      mem_cons, not_mem_nil, or_false] at inside
    rcases inside with rfl | rfl
    · exact ⟨old, committed, same⟩
    · exact ⟨old, committed, .inr rfl⟩
  exact fun last allowed => ⟨next.stable allowed, ws ++ [.update (.batch b)],
    { b with status := .void }, by simp, keyed, rfl⟩

end

/-! ### The calls -/

def Leaves (db₀ : Db) (all : List CorrectionCall) (i : Nat) (ws : List (Write Row)) (db : Db)
    (_ : Unit) : Prop :=
  ∃ call, all[i]? = some call ∧ Wrote db₀ call ws db ∧ (rowsOf asTransaction ws ≠ [] →
    ∀ batchID now, call.correction = .voidPayoutBatch batchID now → Voided batchID ws)

theorem wrote_locked {batch : PayoutBatch} (voids : call.correction = .voidPayoutBatch batchID now)
    (found : db.batches.find? batchID = some batch) :
    Wrote db₀ call [.update (.batch batch)] db := by
  have key : batch.id = batchID := key_of_find? found
  refine ⟨.inl ⟨rfl, rfl⟩, by simp [rowsOf, asItem], fun x member => ?_, fun b _ same => ?_⟩
  · have same : x = batch := by simpa [rowsOf, asBatch] using member
    exact ⟨batch, by rw [same, key]; exact found, .inl same⟩
  · rw [voids] at same
    cases same
    exact ⟨batch, by simp [rowsOf, asBatch], key⟩

theorem guarded_reversePayout {time : Time} {batch : PayoutBatch}
    (drawn : db₀.transactions.find? (call.ids 0) = none) (sound : Sound db₀ all db)
    (voids : call.correction = .voidPayoutBatch batchID now) (key : batch.id = batchID)
    (found : db.batches.find? batchID = some batch) (paid : batch.status = .paid) :
    (reversePayout call.ids batchID time).Guarded schema (rely db₀ all)
      (fun ws db _ => Wrote db₀ call ws db) [.update (.batch batch)] db := by
  have aimed : call.target db₀ = payoutTransaction batchID db₀ := by
    unfold CorrectionCall.target
    rw [voids]
    simp only [sound.paid batchID batch found paid, if_true]
  refine guarded_select fun db₁ allowed₁ => ?_
  have found₁ : db₁.batches.find? batchID = some batch := by
    have kept := find?_batch_of_same allowed₁.2.1 (x := batch) (by simp [rowsOf, asBatch])
    rw [key] at kept
    exact kept.trans found
  -- the payout on record is the one from the start, whatever was committed in between
  have view : payoutTransaction batchID (schema.overlay db₁ [.update (.batch batch)]) =
      call.target db₀ := by
    rw [aimed, ← (allowed₁.1 sound).payouts batchID]
    rfl
  rw [view]
  cases target : call.target db₀ with
  | none => exact fun later allowed => (wrote_locked voids found₁).stable allowed
  | some id =>
    refine (guarded_reverseTransaction drawn (allowed₁.1 sound) rfl rfl).bind ?_
    rintro _ ws db₂ ⟨draft, new, rfl, tables, named, reverses, written, allowed₂⟩
    intro later allowed₃
    have before := (wrote_locked voids found₁).stable ((rely db₀ all).trans allowed₂
      ((rely db₀ all).shrink allowed₃))
    -- a reversal writes to two tables only, so items and batches are as before it
    have others : ∀ {ρ : Type} (as : Row → Option ρ), (∀ row, row.table ∈ [.transactions, .entries] →
        as row = none) → rowsOf as ([.update (.batch batch)] ++ new) =
          rowsOf as [.update (.batch batch)] := by
      intro ρ as outside
      rw [rowsOf_append, rowsOf_eq_nil fun w member => outside _ (tables w member), append_nil]
    have sameItems := others asItem outside_asItem
    have sameBatches := others asBatch outside_asBatch
    refine ⟨.inr ⟨draft, id, time, named, reverses, target,
      written.stable mem_cons_self named allowed₃, fun b _ same => ?_⟩, ?_, ?_, ?_⟩
    · rw [voids] at same
      cases same
      obtain ⟨old, committed, -⟩ := before.batches batch (by simp [rowsOf, asBatch])
      have kept := find?_batch_of_same
        ((rely db₀ all).trans allowed₂ ((rely db₀ all).shrink allowed₃)).2.1
        (x := batch) (by simp [rowsOf, asBatch])
      rw [key] at kept
      rw [kept, found₁]
      simp [paid]
    · rw [sameItems]
      exact before.items
    · rw [sameBatches]
      exact before.batches
    · rw [sameBatches]
      exact before.locked

theorem guarded_voidPayoutBatch (served : all[i]? = some call)
    (drawn : db₀.transactions.find? (call.ids 0) = none) (sound : Sound db₀ all db)
    (voids : call.correction = .voidPayoutBatch batchID now) :
    (voidPayoutBatch call.ids batchID now).Guarded schema (rely db₀ all) (Leaves db₀ all i) [] db := by
  refine guarded_write fun db₁ allowed₁ seen admitted => ?_
  cases found : findBatch (schema.overlay db₁ []) batchID with
  | none => trivial
  | some batch =>
    have committed : db₁.batches.find? batchID = some batch := found
    have key : batch.id = batchID := key_of_find? committed
    have wrote : Wrote db₀ call [.update (.batch batch)] db₁ := wrote_locked voids committed
    have locks : ((findBatch (schema.overlay db₁ []) batchID).map fun r =>
        update (Row.batch r)).toList = [.update (.batch batch)] := by
      rw [found]
      rfl
    simp only [nil_append, locks]
    split
    next void =>
      exact fun later allowed => ⟨call, served, wrote.stable allowed, fun written => absurd rfl written⟩
    next live =>
      have undone : (undoBatch (voidPaid call.ids batchID now) batch).Guarded schema (rely db₀ all)
          (fun ws db _ => Wrote db₀ call ws db) [.update (.batch batch)] db₁ := by
        unfold undoBatch
        split
        next paid =>
          exact (guarded_reversePayout drawn (allowed₁.1 sound) voids key committed paid).bind
            fun _ _ _ wrote => guarded_updateHolds wrote _ _
        next => exact guarded_updateHolds wrote _ _
      refine undone.bind fun _ _ _ wrote => (guarded_voidItems wrote _).bind fun _ _ _ wrote =>
        (guarded_voidBatchRow wrote voids).mono ?_
      rintro ws db _ ⟨wrote, voided⟩
      refine ⟨call, served, wrote, fun _ b _ same => ?_⟩
      rw [voids] at same
      cases same
      exact voided

theorem guarded_program (draws : DrawsNew db₀ all) (served : all[i]? = some call)
    (sound : Sound db₀ all db) :
    call.program.Guarded schema (rely db₀ all) (Leaves db₀ all i) [] db := by
  have drawn := draws.fresh call (mem_of_getElem? served)
  unfold CorrectionCall.program
  cases correction : call.correction with
  | reverseTransaction id now =>
    refine (guarded_reverseTransaction drawn sound rfl rfl).bind ?_
    rintro _ ws db₁ ⟨draft, new, same, tables, named, reverses, written, -⟩ later allowed
    rw [nil_append] at same
    subst same
    have none : ∀ {ρ : Type} (as : Row → Option ρ), (∀ row, row.table ∈ [.transactions, .entries] →
        as row = none) → rowsOf as ws = [] :=
      fun _ outside => rowsOf_eq_nil fun w member => outside _ (tables w member)
    have noItems := none asItem outside_asItem
    have noBatches := none asBatch outside_asBatch
    refine ⟨call, served, ⟨.inr ⟨draft, id, now, named, reverses, ?_,
      written.stable mem_cons_self named allowed, ?_⟩, ?_, ?_, ?_⟩, ?_⟩
    · unfold CorrectionCall.target
      rw [correction]
    · intro b _ same
      rw [correction] at same
      cases same
    · simp [noItems]
    · simp [noBatches]
    · intro b _ same
      rw [correction] at same
      cases same
    · intro _ b _ same
      rw [correction] at same
      cases same
  | voidPayoutBatch batchID now => exact guarded_voidPayoutBatch served drawn sound correction

/-! ### Commits -/

theorem Wrote.batch_paid (wrote : Wrote db₀ call ws db) {batch : PayoutBatch}
    (found : (schema.overlay db ws).batches.find? id = some batch) (paid : batch.status = .paid) :
    db.batches.find? id = some batch := by
  have key : batch.id = id := key_of_find? found
  rw [overlay_batches] at found
  rcases mem_putAll (mem_of_find? found) with committed | own
  · exact key ▸ find?_of_mem committed
  · obtain ⟨old, before, rfl | void⟩ := wrote.batches batch own
    · exact key ▸ before
    · rw [paid] at void
      cases void

theorem Wrote.batch_void (wrote : Wrote db₀ call ws db)
    (void : (db.batches.find? id).any (fun batch => batch.status = .void) = true) :
    ((schema.overlay db ws).batches.find? id).any (fun batch => batch.status = .void) = true := by
  rw [overlay_batches]
  by_cases written : ∃ x ∈ rowsOf asBatch ws, x.id = id
  · obtain ⟨x, member, rfl⟩ := written
    obtain ⟨y, own, found⟩ := find?_putAll_mem (t := db.batches) member
    have key : y.id = x.id := key_of_find? found
    obtain ⟨old, before, same⟩ := wrote.batches y own
    rw [key] at before
    rw [before] at void
    rw [found]
    rcases same with rfl | now
    · exact void
    · simp [now]
  · rw [find?_putAll_other fun x member same => written ⟨x, member, same⟩]
    exact void

def mark (x : PayoutItem) : String × Option String := (x.payoutBatchID, x.ledgerTransactionID)

theorem payoutTransaction_congr (same : db'.items.rows.map mark = db.items.rows.map mark) :
    payoutTransaction id db' = payoutTransaction id db := by
  have marked : ∀ rows : List PayoutItem, (rows.filter fun x => x.payoutBatchID = id).findSome?
      PayoutItem.ledgerTransactionID =
        ((rows.map mark).filter fun m => m.1 = id).findSome? Prod.snd := by
    intro rows
    induction rows with
    | nil => rfl
    | cons x rows ih =>
      rw [filter_cons, map_cons, filter_cons]
      by_cases here : x.payoutBatchID = id
      · simp [mark, here, findSome?_cons, ih]
      · simp [mark, here, ih]
  rw [payoutTransaction, payoutTransaction, marked, marked, same]

theorem marks_putAll {t : Table PayoutItem.id} {xs : List PayoutItem}
    (present : ∀ x ∈ xs, ∃ old, t.find? x.id = some old ∧ mark old = mark x) :
    (t.putAll xs).rows.map mark = t.rows.map mark := by
  induction xs generalizing t with
  | nil => rfl
  | cons x xs ih =>
    obtain ⟨old, found, same⟩ := present x mem_cons_self
    have rows := rows_put_present found
    have first : (t.put x).rows.map mark = t.rows.map mark := by
      rw [rows, map_map]
      refine map_congr_left fun y member => ?_
      by_cases here : y.id = x.id
      · have equal : y = old := eq_of_key member (mem_of_find? found)
          (here.trans (key_of_find? found).symm)
        rw [Function.comp_apply, if_pos here, ← same, equal]
      · simp [here]
    rw [putAll_cons, ih, first]
    intro y member
    obtain ⟨before, there, marks⟩ := present y (mem_cons_of_mem _ member)
    rw [find?_put]
    by_cases here : x.id = y.id
    · rw [here, there] at found
      cases found
      exact ⟨x, by simp [here], same.symm.trans marks⟩
    · exact ⟨before, by simp [here, there], marks⟩

theorem Wrote.payouts (wrote : Wrote db₀ call ws db) (id : String) :
    payoutTransaction id (schema.overlay db ws) = payoutTransaction id db := by
  apply payoutTransaction_congr
  rw [overlay_items]
  apply marks_putAll
  intro x member
  obtain ⟨old, found, batch, payout⟩ := wrote.items x member
  exact ⟨old, found, by simp [mark, batch, payout]⟩

section

variable {id : String} {now : Time}

variable {other : String}

section

variable (written : Reverses reversalID id txs ws db)
include written

theorem Reverses.entries_overlay : (schema.overlay db ws).entries.rows =
      db.entries.rows ++ rowsOf asEntry ws := by
  rw [overlay_entries]
  exact rows_putAll_fresh written.nodup written.new

theorem Reverses.entriesOf_other (apart : other ≠ reversalID) :
    entriesOf (schema.overlay db ws) other = entriesOf db other := by
  have none : (rowsOf asEntry ws).filter (fun e => e.transactionID = other) = [] := by
    rw [filter_eq_nil_iff]
    intro e member same
    exact apart ((of_decide_eq_true same).symm.trans (written.ofReversal e member))
  rw [entriesOf, written.entries_overlay, filter_append, none, append_nil]
  rfl

theorem Reverses.entriesOf_reversal
    (belongs : ∀ e ∈ db.entries.rows, (db.transactions.find? e.transactionID).isSome = true) :
    entriesOf (schema.overlay db ws) reversalID = rowsOf asEntry ws := by
  have old : db.entries.rows.filter (fun e => e.transactionID = reversalID) = [] := by
    rw [filter_eq_nil_iff]
    intro e member same
    have known := belongs e member
    rw [of_decide_eq_true same, written.fresh] at known
    cases known
  have all : (rowsOf asEntry ws).filter (fun e => e.transactionID = reversalID) =
      rowsOf asEntry ws :=
    filter_eq_self.mpr fun e member => decide_eq_true (written.ofReversal e member)
  rw [entriesOf, written.entries_overlay, filter_append, old, all, nil_append]

end

section

variable (written : Reverses reversalID id [draft, postedAs draft now] ws db)
  (named : draft.id = reversalID)
include written named

theorem Reverses.find?_other (apart : other ≠ reversalID) :
    (schema.overlay db ws).transactions.find? other = db.transactions.find? other := by
  rw [overlay_transactions, written.transactions]
  refine find?_putAll_other fun t member => ?_
  have key : t.id = reversalID := by
    simp only [mem_cons, not_mem_nil, or_false] at member
    rcases member with rfl | rfl <;> exact named
  exact fun same => apart (same.symm.trans key)

theorem Reverses.find?_reversal :
    (schema.overlay db ws).transactions.find? reversalID = some (postedAs draft now) := by
  rw [overlay_transactions, written.transactions, putAll_cons, putAll_cons,
    putAll_nil, ← named]
  exact find?_put_self _ _

end

theorem Reverses.ne_reversal (written : Reverses reversalID id txs ws db)
    (known : (db.transactions.find? other).isSome = true) : other ≠ reversalID := by
  rintro rfl
  rw [written.fresh] at known
  cases known

section

variable (written : Reverses reversalID id [draft, postedAs draft now] ws db)
  (named : draft.id = reversalID)
include written named

theorem Reverses.known_overlay (known : (db.transactions.find? other).isSome = true) :
    ((schema.overlay db ws).transactions.find? other).isSome = true := by
  rw [written.find?_other named (written.ne_reversal known)]
  exact known

theorem Reverses.mem_overlay (member : r ∈ (schema.overlay db ws).transactions.rows) :
    (r.id = reversalID ∧ r = postedAs draft now) ∨
      (r.id ≠ reversalID ∧ r ∈ db.transactions.rows) := by
  have found := find?_of_mem member
  by_cases here : r.id = reversalID
  · rw [here, written.find?_reversal named] at found
    exact .inl ⟨here, (Option.some.inj found).symm⟩
  · rw [written.find?_other named here] at found
    exact .inr ⟨here, mem_of_find? found⟩

end

theorem Voided.overlay (voided : Voided batchID ws) :
    ((schema.overlay db ws).batches.find? batchID).any (fun batch => batch.status = .void) = true := by
  obtain ⟨earlier, x, rfl, rfl, void⟩ := voided
  have last : rowsOf asBatch [update (.batch x)] = [x] := rfl
  rw [overlay_batches, rowsOf_append, putAll_append, last, putAll_cons,
    putAll_nil, find?_put_self]
  simp [void]

theorem Sound.commit_other (sound : Sound db₀ all db) (wrote : Wrote db₀ call ws db)
    (transactions : rowsOf asTransaction ws = []) (entries : rowsOf asEntry ws = []) :
    Sound db₀ all (schema.overlay db ws) := by
  have sameTransactions : (schema.overlay db ws).transactions = db.transactions := by
    rw [overlay_transactions, transactions, putAll_nil]
  have sameEntries : (schema.overlay db ws).entries = db.entries := by
    rw [overlay_entries, entries, putAll_nil]
  have sameEntriesOf : ∀ id, entriesOf (schema.overlay db ws) id = entriesOf db id := by
    intro id
    rw [entriesOf, entriesOf, sameEntries]
  refine ⟨?_, ?_, ?_, ?_, ?_, ?_, ?_⟩
  · rw [sameTransactions]
    exact sound.kept
  · rw [sameTransactions, sameEntries]
    exact sound.belongs
  · intro id known
    rw [sameEntriesOf]
    exact sound.entries id known
  · intro r member new
    rw [sameTransactions] at member
    obtain ⟨i, by', id, served, drew, posted, reverses, aimed, known, legs, voided⟩ :=
      sound.made r member new
    refine ⟨i, by', id, served, drew, posted, reverses, aimed, sameTransactions ▸ known, ?_,
      fun batchID now same => wrote.batch_void (voided batchID now same)⟩
    rw [sameEntriesOf, sameEntriesOf]
    exact legs
  · rw [sameTransactions]
    exact sound.once
  · intro id batch found paid
    exact sound.paid id batch (wrote.batch_paid found paid) paid
  · exact fun id => (wrote.payouts id).trans (sound.payouts id)

section

variable (apart : Apart db₀ all) (served : all[i]? = some call) (sound : Sound db₀ all db)
include apart served sound

theorem Sound.unreversed (aimed : call.target db₀ = some id)
    (unmade : db.transactions.find? (call.ids 0) = none)
    (paid : ∀ batchID now, call.correction = .voidPayoutBatch batchID now →
      (db.batches.find? batchID).any (fun batch => batch.status = .paid) = true)
    (original : db₀.Original id) (member : r ∈ db.transactions.rows)
    (made : db₀.transactions.find? r.id = none) : r.reversesTransactionID ≠ some id := by
  intro reverses
  obtain ⟨j, other, id', served', drew, -, reverses', aimed', -, -, isVoid⟩ :=
    sound.made r member made
  rw [reverses] at reverses'
  cases reverses'
  have apartIndex : i ≠ j := by
    rintro rfl
    cases served.symm.trans served'
    rw [drew, find?_of_mem member] at unmade
    cases unmade
  obtain ⟨batchID, now₁, now₂, mine, others⟩ :=
    apart.once i j call other served served' apartIndex id original aimed aimed'
  -- the batch cannot be paid, as this call has seen, and void, as the other has left it
  have stillPaid := paid batchID now₁ mine
  have alreadyVoid := isVoid batchID now₂ others
  cases found : db.batches.find? batchID with
  | none =>
    rw [found] at stillPaid
    cases stillPaid
  | some batch =>
    rw [found] at stillPaid alreadyVoid
    simp only [Option.any_some, decide_eq_true_eq] at stillPaid alreadyVoid
    rw [stillPaid] at alreadyVoid
    cases alreadyVoid

theorem Sound.commit_reversal (wrote : Wrote db₀ call ws db) (named : draft.id = call.ids 0)
    (reverses : draft.reversesTransactionID = some id) (aimed : call.target db₀ = some id)
    (written : Reverses (call.ids 0) id [draft, postedAs draft now] ws db)
    (paid : ∀ batchID now, call.correction = .voidPayoutBatch batchID now →
      (db.batches.find? batchID).any (fun batch => batch.status = .paid) = true)
    (voided : ∀ batchID now, call.correction = .voidPayoutBatch batchID now → Voided batchID ws) :
    Sound db₀ all (schema.overlay db ws) := by
  have unreversed : ∀ r ∈ db.transactions.rows, db₀.transactions.find? r.id = none → ∀ id',
      db₀.Original id' → draft.reversesTransactionID = some id' →
      r.reversesTransactionID ≠ some id' := by
    intro r member made id' original draftReverses
    cases reverses.symm.trans draftReverses
    exact sound.unreversed apart served aimed written.fresh paid original member made
  refine ⟨?_, ?_, ?_, ?_, ?_, ?_, ?_⟩
  · intro other t found
    have committed := sound.kept other t found
    rw [written.find?_other named (written.ne_reversal (by simp [committed]))]
    exact committed
  · intro e member
    rw [written.entries_overlay] at member
    rcases mem_append.mp member with before | now
    · exact written.known_overlay named (sound.belongs e before)
    · rw [written.ofReversal e now, written.find?_reversal named]
      rfl
  · intro other known
    obtain ⟨t, found⟩ := Option.isSome_iff_exists.mp known
    rw [written.entriesOf_other (written.ne_reversal (by simp [sound.kept other t found]))]
    exact sound.entries other known
  · intro r member made
    rcases written.mem_overlay named member with ⟨-, rfl⟩ | ⟨other, before⟩
    · refine ⟨i, call, id, served, named.symm, rfl, reverses, aimed,
        written.known_overlay named written.known, ?_,
        fun batchID now' same => (voided batchID now' same).overlay⟩
      have own : (postedAs draft now).id = call.ids 0 := named
      rw [own, written.entriesOf_reversal sound.belongs,
        written.entriesOf_other (written.ne_reversal written.known)]
      exact written.legs
    · obtain ⟨j, by', id', served', drew, posted, reverses', aimed', known, legs, isVoid⟩ :=
        sound.made r before made
      refine ⟨j, by', id', served', drew, posted, reverses', aimed',
        written.known_overlay named known, ?_,
        fun batchID now same => wrote.batch_void (isVoid batchID now same)⟩
      rw [written.entriesOf_other other, written.entriesOf_other (written.ne_reversal known)]
      exact legs
  · -- two reversals of one transaction: both are the new one, or both are old
    intro r₁ member₁ r₂ member₂ made₁ made₂ id' original reverses₁ reverses₂
    rcases written.mem_overlay named member₁ with ⟨-, rfl⟩ | ⟨-, before₁⟩
    · rcases written.mem_overlay named member₂ with ⟨-, rfl⟩ | ⟨-, before₂⟩
      · rfl
      · exact absurd reverses₂ (unreversed r₂ before₂ made₂ id' original reverses₁)
    · rcases written.mem_overlay named member₂ with ⟨-, rfl⟩ | ⟨-, before₂⟩
      · exact absurd reverses₁ (unreversed r₁ before₁ made₁ id' original reverses₂)
      · exact sound.once r₁ before₁ r₂ before₂ made₁ made₂ id' original reverses₁ reverses₂
  · intro other batch found isPaid
    exact sound.paid other batch (wrote.batch_paid found isPaid) isPaid
  · exact fun other => (wrote.payouts other).trans (sound.payouts other)

end

theorem Leaves.sound (apart : Apart db₀ all) (sound : Sound db₀ all db)
    (leaves : Leaves db₀ all i ws db ()) : Sound db₀ all (schema.overlay db ws) := by
  obtain ⟨call, served, wrote, voided⟩ := leaves
  rcases wrote.ledger with ⟨transactions, entries⟩ |
    ⟨draft, id, now, named, reverses, aimed, written, paid⟩
  · exact sound.commit_other wrote transactions entries
  · exact sound.commit_reversal apart served wrote named reverses aimed written paid
      (voided (by simp [written.transactions]))

theorem Leaves.allowed {other : List (Write Row)} (leaves : Leaves db₀ all i ws db ())
    (sound : Sound db₀ all (schema.overlay db ws))
    (apart : ∀ w ∈ other, ∀ v ∈ ws, schema.key v.row ≠ schema.key w.row) :
    (rely db₀ all).allows other db (schema.overlay db ws) := by
  refine ⟨fun _ => sound, fun w member => schema.get_overlay_other (apart w member),
    fun id known => ?_⟩
  obtain ⟨call, -, wrote, -⟩ := leaves
  rcases wrote.ledger with ⟨transactions, entries⟩ | ⟨draft, _, _, named, -, -, written, -⟩
  · rw [overlay_transactions, transactions, putAll_nil, entriesOf, overlay_entries, entries,
      putAll_nil]
    exact ⟨rfl, rfl⟩
  · have different := written.ne_reversal known
    exact ⟨written.find?_other named different, written.entriesOf_other different⟩

end

/-! ### What soundness says of reversals -/

theorem sound_start (belongs : ∀ e ∈ db₀.entries.rows,
    (db₀.transactions.find? e.transactionID).isSome = true) : Sound db₀ all db₀ where
  kept _ _ found := found
  belongs := belongs
  entries _ _ := rfl
  made r member new := by
    rw [find?_of_mem member] at new
    cases new
  once r member _ _ new := by
    rw [find?_of_mem member] at new
    cases new
  paid id batch found paid := by simp [found, paid]
  payouts _ := rfl

theorem sum_legs (es : List LedgerEntry) (accountID : String) :
    entrySum (es.filter fun e => e.accountID = accountID) =
      (((es.map leg).filter fun l => l.1 = accountID).map Prod.snd).sum := by
  rw [entrySum, filter_map, map_map]
  rfl

theorem sum_cancels {es : List LedgerEntry} (accountID : String)
    (negatable : ∀ e ∈ es, isInt8 e.amountMicrodollars = true ∧
      e.amountMicrodollars ≠ -9223372036854775808) :
    entrySum (es.filter fun e => e.accountID = accountID) +
      (((es.map reversed).filter fun l => l.1 = accountID).map Prod.snd).sum = 0 := by
  induction es with
  | nil => rfl
  | cons e es ih =>
    have rest := ih fun q member => negatable q (mem_cons_of_mem _ member)
    obtain ⟨typed, least⟩ := negatable e mem_cons_self
    have negated := wrap64_neg typed least
    rw [entrySum] at rest ⊢
    by_cases here : e.accountID = accountID
    · simp only [filter_cons, map_cons, reversed, here, decide_true, if_true,
        sum_cons, negated] at rest ⊢
      omega
    · simp only [filter_cons, map_cons, reversed, here, decide_false, if_false,
        Bool.false_eq_true] at rest ⊢
      exact rest

theorem Sound.reversedOnce (sound : Sound db₀ all db) (apart : Apart db₀ all)
    (start : db₀.ReversedOnce) : db.ReversedOnce := by
  rintro id ⟨t, found, posted, notReversal⟩ r₁ member₁ posted₁ reverses₁
  -- every transaction made on the way is a reversal
  have original : db₀.Original id := by
    cases before : db₀.transactions.find? id with
    | none =>
      have key : t.id = id := key_of_find? found
      obtain ⟨_, _, _, -, -, -, reverses, -⟩ :=
        sound.made t (mem_of_find? found) (key.symm ▸ before)
      rw [notReversal] at reverses
      cases reverses
    | some t₀ =>
      cases (sound.kept id t₀ before).symm.trans found
      exact ⟨t, before, posted, notReversal⟩
  have early : ∀ r ∈ db.transactions.rows, db₀.transactions.find? r.id ≠ none →
      r ∈ db₀.transactions.rows := by
    intro r member some
    obtain ⟨r₀, before⟩ := Option.ne_none_iff_exists'.mp some
    cases (sound.kept r.id r₀ before).symm.trans (find?_of_mem member)
    exact mem_of_find? before
  have aims : ∀ r ∈ db.transactions.rows, db₀.transactions.find? r.id = none →
      r.reversesTransactionID = some id → ∃ call ∈ all, call.target db₀ = some id ∧
        (entriesOf db r.id).map leg = (entriesOf db id).map reversed := by
    intro r member new reverses
    obtain ⟨_, call, _, served, -, -, reverses', aimed, -, legs, -⟩ := sound.made r member new
    rw [reverses] at reverses'
    cases reverses'
    exact ⟨call, mem_of_getElem? served, aimed, legs⟩
  have sameEntries : entriesOf db id = entriesOf db₀ id := by
    obtain ⟨t₀, before, -⟩ := original
    exact sound.entries id (by simp [before])
  constructor
  · intro r₂ member₂ posted₂ reverses₂
    by_cases new₁ : db₀.transactions.find? r₁.id = none
    · by_cases new₂ : db₀.transactions.find? r₂.id = none
      · exact sound.once r₂ member₂ r₁ member₁ new₂ new₁ id original reverses₂ reverses₁
      · obtain ⟨call, served, aimed, -⟩ := aims r₁ member₁ new₁ reverses₁
        exact absurd reverses₂
          (apart.pristine call served id original aimed r₂ (early r₂ member₂ new₂))
    · by_cases new₂ : db₀.transactions.find? r₂.id = none
      · obtain ⟨call, served, aimed, -⟩ := aims r₂ member₂ new₂ reverses₂
        exact absurd reverses₁
          (apart.pristine call served id original aimed r₁ (early r₁ member₁ new₁))
      · exact (start id original r₁ (early r₁ member₁ new₁) posted₁ reverses₁).1 r₂
          (early r₂ member₂ new₂) posted₂ reverses₂
  · intro accountID
    by_cases new₁ : db₀.transactions.find? r₁.id = none
    · obtain ⟨call, served, aimed, legs⟩ := aims r₁ member₁ new₁ reverses₁
      rw [Db.accountSum, Db.accountSum, sum_legs (entriesOf db r₁.id), legs, sameEntries]
      exact sum_cancels accountID (apart.negatable call served id original aimed)
    · have before := (start id original r₁ (early r₁ member₁ new₁) posted₁ reverses₁).2 accountID
      rw [Db.accountSum, Db.accountSum, sameEntries,
        sound.entries r₁.id (Option.isSome_iff_ne_none.mpr new₁)]
      exact before

end Reversals

/-- However `ReverseTransaction` and `VoidPayoutBatch` calls interleave, as long as they are apart,
an original transaction is reversed at most once, and then its reversal cancels it. -/
theorem transactions_reversed_once {db : Db} {calls : List CorrectionCall}
    {c : Shared Db Row Key Index GoError} (unique : schema.Unique db)
    (belongs : ∀ e ∈ db.entries.rows, (db.transactions.find? e.transactionID).isSome = true)
    (start : db.ReversedOnce) (draws : DrawsNew db calls) (apart : Apart db calls)
    (serving : Serving schema CorrectionCall.program db calls c) : c.committed.ReversedOnce := by
  have sound := (serving.guarded (I := Reversals.Sound db calls) (R := Reversals.rely db calls)
    (Q := Reversals.Leaves db calls) unique (Reversals.sound_start belongs)
    (fun _ _ served _ sound => Reversals.guarded_program draws served sound)
    (fun _ _ _ sound _ leaves _ => leaves.sound apart sound)
    (fun _ _ _ _ _ leaves sound others => leaves.allowed sound others) (prefix_refl _)).1
  exact sound.reversedOnce apart start

namespace Deployment

def reversal (transactionID tag : String) : CorrectionCall :=
  ⟨.reverseTransaction transactionID 20, (drawing tag).ids⟩

/-- The credit of an accepted job, posted as `x0`, is released a day later by `p0`. -/
def released : SqlTx Unit := do
  accepted
  let _ ← Ledger.promoteAvailableCredits (drawing "p").ids (seconds 86401)
  pure ()

/-- The calls are begun after some work is committed, and take their steps in an order. -/
def serveAfter {Call : Type} (program : Call → SqlTx Unit) (work : SqlTx Unit) (calls : List Call)
    (order : List Nat) : Option (Db × Shared Db Row Key Index GoError) :=
  match Tx.exec schema work start.db with
  | .ok (_, db) => (advanceAll schema order
      ⟨db, calls.map fun call => some ⟨program call, [], []⟩⟩).map fun c => (db, c)
  | .error _ => none

theorem serveAfter_serving {Call : Type} {program : Call → SqlTx Unit} {work : SqlTx Unit}
    {calls : List Call} {order : List Nat} {c : Shared Db Row Key Index GoError}
    (served : serveAfter program work calls order = some (db, c)) :
    schema.Unique db ∧ Serving schema program db calls c := by
  unfold serveAfter at served
  split at served
  next u db' done =>
    obtain ⟨c', advanced, same⟩ := Option.map_eq_some_iff.mp served
    cases same
    exact ⟨Tx.unique_exec (unique_boot _ _) done, (Serving.begun calls).advanceAll advanced⟩
  · cases served

def recorded (db : Db) (transactionID : String) : Option (TransactionStatus × Option String) :=
  (db.transactions.find? transactionID).map fun t => (t.status, t.reversesTransactionID)

theorem reversedOnce_of_none (none : ∀ t ∈ db.transactions.rows, t.reversesTransactionID = none) :
    db.ReversedOnce := by
  intro id _ r member _ reverses
  rw [none r member] at reverses
  cases reverses

theorem drawsNew_pair {id id' tag tag' : String}
    (fresh : db.transactions.find? ((reversal id tag).ids 0) = none)
    (fresh' : db.transactions.find? ((reversal id' tag').ids 0) = none)
    (distinct : (reversal id tag).ids 0 ≠ (reversal id' tag').ids 0) :
    DrawsNew db [reversal id tag, reversal id' tag'] := by
  refine ⟨fun call member => ?_, fun i j call call' atI atJ same => ?_⟩
  · simp only [mem_cons, not_mem_nil, or_false] at member
    rcases member with rfl | rfl
    · exact fresh
    · exact fresh'
  · match i, j with
    | 0, 0 => rfl
    | 1, 1 => rfl
    | 0, 1 =>
      cases atI
      cases atJ
      exact absurd same distinct
    | 1, 0 =>
      cases atI
      cases atJ
      exact absurd same.symm distinct
    | i + 2, _ => cases atI
    | _, j + 2 => cases atJ

end Deployment

open Deployment in
/-- Two calls on one transaction, each of which finds it posted, both commit. -/
theorem transaction_reversed_twice : ∃ (db : Db) (c : Shared Db Row Key Index GoError),
    DrawsNew db [reversal "x0" "r", reversal "x0" "s"] ∧ db.ReversedOnce ∧
    Serving schema CorrectionCall.program db [reversal "x0" "r", reversal "x0" "s"] c ∧
    ¬ c.committed.ReversedOnce := by
  have runs : ((serveAfter CorrectionCall.program accepted [reversal "x0" "r", reversal "x0" "s"]
      [0, 1, 0, 1, 0, 1, 0, 1, 0, 1, 0, 1, 0, 1]).any fun (db, c) =>
      (db.transactions.find? "r0").isNone && (db.transactions.find? "s0").isNone &&
      db.transactions.rows.all (fun t => t.reversesTransactionID.isNone) &&
      recorded c.committed "x0" = some (.posted, none) &&
      recorded c.committed "r0" = some (.posted, some "x0") &&
      recorded c.committed "s0" = some (.posted, some "x0")) = true := by decide +kernel
  rw [Option.any_eq_true] at runs
  obtain ⟨⟨db, c⟩, served, checks⟩ := runs
  simp only [Bool.and_eq_true, Option.isNone_iff_eq_none, decide_eq_true_eq,
    all_eq_true] at checks
  obtain ⟨⟨⟨⟨⟨freshR, freshS⟩, none⟩, original⟩, first⟩, second⟩ := checks
  refine ⟨db, c, drawsNew_pair freshR freshS (by decide), reversedOnce_of_none none,
    (serveAfter_serving served).2, fun once => ?_⟩
  obtain ⟨x, foundX, isX⟩ := Option.map_eq_some_iff.mp original
  obtain ⟨r, foundR, isR⟩ := Option.map_eq_some_iff.mp first
  obtain ⟨s, foundS, isS⟩ := Option.map_eq_some_iff.mp second
  simp only [Prod.mk.injEq] at isX isR isS
  have same := (once "x0" ⟨x, foundX, isX.1, isX.2⟩ r (mem_of_find? foundR) isR.1 isR.2).1
    s (mem_of_find? foundS) isS.1 isS.2
  have keyR : r.id = "r0" := key_of_find? foundR
  have keyS : s.id = "s0" := key_of_find? foundS
  rw [same, keyR] at keyS
  exact absurd keyS (by decide)

open Deployment in
/-- The credit and its release are reversed by two calls at once. -/
theorem transactions_reversed_once_both :
    ∃ (db : Db) (c : Shared Db Row Key Index GoError), schema.Unique db ∧ db.ReversedOnce ∧
      DrawsNew db [reversal "x0" "r", reversal "p0" "s"] ∧
      Apart db [reversal "x0" "r", reversal "p0" "s"] ∧
      Serving schema CorrectionCall.program db [reversal "x0" "r", reversal "p0" "s"] c ∧
      recorded c.committed "r0" = some (.posted, some "x0") ∧
      recorded c.committed "s0" = some (.posted, some "p0") ∧ c.committed.ReversedOnce := by
  have runs : ((serveAfter CorrectionCall.program released [reversal "x0" "r", reversal "p0" "s"]
      [0, 1, 0, 1, 0, 1, 0, 1, 0, 1, 0, 1, 0]).any fun (db, c) =>
      (db.transactions.find? "r0").isNone && (db.transactions.find? "s0").isNone &&
      db.transactions.rows.all (fun t => t.reversesTransactionID.isNone) &&
      db.entries.rows.all (fun e => (db.transactions.find? e.transactionID).isSome) &&
      db.entries.rows.all (fun e => isInt8 e.amountMicrodollars &&
        e.amountMicrodollars ≠ -9223372036854775808) &&
      recorded c.committed "r0" = some (.posted, some "x0") &&
      recorded c.committed "s0" = some (.posted, some "p0")) = true := by decide +kernel
  rw [Option.any_eq_true] at runs
  obtain ⟨⟨db, c⟩, served, checks⟩ := runs
  simp only [Bool.and_eq_true, Option.isNone_iff_eq_none, decide_eq_true_eq,
    all_eq_true] at checks
  obtain ⟨⟨⟨⟨⟨⟨freshR, freshS⟩, none⟩, belongs⟩, negatable⟩, reversed⟩, reversed'⟩ := checks
  obtain ⟨unique, serving⟩ := serveAfter_serving served
  have start := reversedOnce_of_none none
  have draws : DrawsNew db [reversal "x0" "r", reversal "p0" "s"] :=
    drawsNew_pair freshR freshS (by decide)
  have apart : Apart db [reversal "x0" "r", reversal "p0" "s"] := by
    refine ⟨fun i j call call' atI atJ other id _ target target' => ?_,
      fun _ _ _ _ _ r member reverses => ?_, fun _ _ _ _ _ e member => ?_⟩
    · match i, j with
      | 0, 0 => exact absurd rfl other
      | 1, 1 => exact absurd rfl other
      | 0, 1 =>
        cases atI
        cases atJ
        exact absurd (Option.some.inj (target.trans target'.symm)) (by decide)
      | 1, 0 =>
        cases atI
        cases atJ
        exact absurd (Option.some.inj (target.trans target'.symm)) (by decide)
      | i + 2, _ => cases atI
      | _, j + 2 => cases atJ
    · rw [none r member] at reverses
      cases reverses
    · exact negatable e (mem_of_mem_filter member)
  exact ⟨db, c, unique, start, draws, apart, serving, reversed, reversed',
    transactions_reversed_once unique belongs start draws apart serving⟩

end Thirdshift
