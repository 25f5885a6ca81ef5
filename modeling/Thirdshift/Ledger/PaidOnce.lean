import Thirdshift.Ledger.PayoutCalls

/-!
# No credit is paid twice

Any number of operators release credits, make batches, export, confirm and void them, in any
interleaving under READ COMMITTED with the row locks that the statements take. In every committed
state the items of a batch are its holds, and every release and payout is on record once.
-/

namespace Thirdshift

open Foundation Foundation.ReadCommitted BatchStatus

variable {db : Db}

/-! ### Any number of operators -/

inductive PayoutOp
  | promoteAvailableCredits (now : Time)
  | createPayoutBatch (organizationID : String)
  | exportPayoutBatch (batchID : String) (now : Time)
  | confirmPayoutBatch (batchID : String) (rows : List ConfirmationRow) (now : Time)
  | voidPayoutBatch (batchID : String) (now : Time)

structure PayoutCall where
  op : PayoutOp
  ids : Nat → String

def PayoutCall.program (call : PayoutCall) : SqlTx Unit :=
  match call.op with
  | .promoteAvailableCredits now =>
    Ledger.promoteAvailableCredits call.ids now >>= fun _ => pure ()
  | .createPayoutBatch organizationID =>
    Ledger.createPayoutBatch call.ids organizationID >>= fun _ => pure ()
  | .exportPayoutBatch batchID now => Ledger.exportPayoutBatch batchID now >>= fun _ => pure ()
  | .confirmPayoutBatch batchID rows now => Ledger.confirmPayoutBatch call.ids batchID rows now
  | .voidPayoutBatch batchID now => Ledger.voidPayoutBatch call.ids batchID now

namespace Db

structure Unpaid (db : Db) : Prop where
  items : db.items.rows = []
  batches : db.batches.rows = []
  holds : ∀ h ∈ db.holds.rows, h.payoutBatchID = none ∧ (h.state = .pending ∨ h.state = .available)
  transactions : ∀ t ∈ db.transactions.rows, t.status = .posted ∧
    t.transactionType ≠ .hostCreditRelease ∧ t.transactionType ≠ .hostPayout
  entries : ∀ e ∈ db.entries.rows, ∃ t ∈ db.transactions.rows, t.id = e.transactionID

/-- No credit is paid twice. Totals are right as long as they fit into 64 bits. -/
structure PaidOnce (db : Db) : Prop where
  itemHold : ∀ x ∈ db.items.rows, x.status ≠ .void → ∃ h ∈ db.holds.rows, h.id = x.creditHoldID ∧
    h.payoutBatchID = some x.payoutBatchID ∧ (h.state = .payoutPending ∨ h.state = .paid) ∧
    h.nodeID = x.hostNodeID ∧ h.amountMicrodollars = x.amountMicrodollars
  holdItem : ∀ h ∈ db.holds.rows, ∀ batchID, h.payoutBatchID = some batchID →
    h.state = .payoutPending ∨ h.state = .paid → ∃ x ∈ db.items.rows, x.status ≠ .void ∧
      x.payoutBatchID = batchID ∧ x.creditHoldID = h.id
  oneItem : ∀ x ∈ db.items.rows, ∀ y ∈ db.items.rows, x.status ≠ .void → y.status ≠ .void →
    x.creditHoldID = y.creditHoldID → x = y
  total : ∀ b ∈ db.batches.rows, isInt8 (Payouts.itemSum db b.id) = true →
    b.totalMicrodollars = Payouts.itemSum db b.id
  release : ∀ t ∈ db.transactions.rows, t.transactionType = .hostCreditRelease →
    ∃ h ∈ db.holds.rows, h.id = t.referenceID ∧ ∃ at', t.postedAt = some at' ∧ h.availableAt ≤ at'
  oneRelease : ∀ t ∈ db.transactions.rows, ∀ u ∈ db.transactions.rows,
    t.transactionType = .hostCreditRelease → u.transactionType = .hostCreditRelease →
    t.referenceID = u.referenceID → t = u
  payout : ∀ t ∈ db.transactions.rows, t.transactionType = .hostPayout → ∃ b ∈ db.batches.rows,
    b.id = t.referenceID ∧ (isInt8 (Payouts.itemSum db b.id) = true →
      Payouts.debits db t.id = b.totalMicrodollars)
  onePayout : ∀ t ∈ db.transactions.rows, ∀ u ∈ db.transactions.rows,
    t.transactionType = .hostPayout → u.transactionType = .hostPayout →
    t.referenceID = u.referenceID → t = u

end Db

namespace Payouts

theorem guarded_program (call : PayoutCall) (sound : Sound db) :
    call.program.Guarded schema rely (fun ws db _ => Keeps ws db) [] db := by
  unfold PayoutCall.program
  split
  · exact (guarded_promote.mono fun _ _ _ both => both.1).map
  · exact (guarded_create.mono fun _ _ _ both => both.1).map
  · exact (guarded_export.mono fun _ _ _ both => both.1).map
  · exact guarded_confirm.mono fun _ _ _ both => both.1
  · exact guarded_void sound

theorem Keeps.allowed {ws other : List (Write Row)} (keeps : Keeps ws db)
    (sound : Sound db) (apart : ∀ w ∈ other, ∀ v ∈ ws, schema.key v.row ≠ schema.key w.row) :
    rely.allows other db (schema.overlay db ws) := by
  refine ⟨keeps.1, fun w member => schema.get_overlay_other (apart w member),
    fun b locked => keeps.2 b.id ?_ sound⟩
  -- two calls that both hold a batch would have a row in common
  intro r mine same
  obtain ⟨w, member, isB⟩ := mem_rowsOf.mp locked
  obtain ⟨v, member', isR⟩ := mem_rowsOf.mp mine
  refine apart w member v member' ?_
  have keyed : ∀ (row : Row) (b : PayoutBatch), row.asBatch = some b →
      schema.key row = ⟨.batches, b.id⟩ := by
    intro row b is
    cases row <;> simp_all [Row.asBatch, Row.key]
  rw [keyed _ _ isB, keyed _ _ isR, same]

theorem sound_start (unpaid : db.Unpaid) : Sound db where
  batched := by
    refine ⟨by simp [unpaid.items], by simp [unpaid.items],
      fun h member _ => (unpaid.holds h member).2, fun h member id batch => ?_,
      by simp [unpaid.batches], by simp [unpaid.items]⟩
    rw [(unpaid.holds h member).1] at batch
    cases batch
  filed := by
    refine ⟨fun t member => (unpaid.transactions t member).1, unpaid.entries,
      fun t member release => ?_, fun t member _ _ release => ?_, fun t member payout => ?_,
      fun t member _ _ payout => ?_⟩
    · exact absurd release (unpaid.transactions t member).2.1
    · exact absurd release (unpaid.transactions t member).2.1
    · exact absurd payout (unpaid.transactions t member).2.2
    · exact absurd payout (unpaid.transactions t member).2.2

theorem wrap64_of_isInt8 {n : Int} (fits : isInt8 n = true) : wrap64 n = n := by
  simp only [isInt8, Bool.and_eq_true, decide_eq_true_eq] at fits
  apply wrap64_eq <;> omega

theorem Sound.paidOnce (sound : Sound db) (unique : schema.Unique db) : db.PaidOnce where
  itemHold x member live := by
    obtain ⟨h, inside, key, batch, facts⟩ := sound.batched.backed x member live
    obtain ⟨b, there, key', status⟩ := sound.batched.status x member
    obtain ⟨b', there', key'', state, -⟩ := sound.batched.taken h inside _ batch
    have same : b' = b := Table.eq_of_key there' there (key''.trans key'.symm)
    refine ⟨h, inside, key, batch, ?_, facts⟩
    rw [state, same]
    rw [status] at live
    cases which : b.status <;> simp_all [ofHolds, ofItems]
  holdItem h member batchID batch reserved := by
    obtain ⟨b, there, key, state, item⟩ := sound.batched.taken h member batchID batch
    have live : b.status ≠ .void := by
      intro void
      rw [state, void] at reserved
      simp [ofHolds] at reserved
    obtain ⟨x, inside, ofBatch, ofHold⟩ := item live
    obtain ⟨b', there', key', status⟩ := sound.batched.status x inside
    have same : b' = b := Table.eq_of_key there' there (key'.trans (ofBatch.trans key.symm))
    refine ⟨x, inside, ?_, ofBatch, ofHold⟩
    rw [status, same]
    cases which : b.status <;> simp_all [ofItems]
  oneItem _ memberX _ memberY liveX liveY same := one_item unique memberX memberY liveX liveY same
  total b member fits := by
    rw [sound.batched.total b member, wrap64_of_isInt8 fits]
  release t member release := by
    obtain ⟨h, inside, same, -, posted⟩ := sound.filed.released t member release
    exact ⟨h, inside, same, posted⟩
  oneRelease := sound.filed.releasedOnce
  payout t member payout := by
    obtain ⟨b, inside, same, -, sum⟩ := sound.filed.paid t member payout
    refine ⟨b, inside, same, fun fits => ?_⟩
    rw [sum, sound.batched.total b inside, wrap64_of_isInt8 fits]
  onePayout := sound.filed.paidOnce

end Payouts

/-- However the calls interleave, no credit is paid twice. -/
theorem no_credit_paid_twice {db : Db} {calls : List PayoutCall}
    {c : Shared Db Row Key Index GoError} (unique : schema.Unique db) (unpaid : db.Unpaid)
    (serving : Serving schema PayoutCall.program db calls c) : c.committed.PaidOnce := by
  have sound := (serving.guarded (I := Payouts.Sound) (R := Payouts.rely)
    (Q := fun _ ws db _ => Payouts.Keeps ws db) unique (Payouts.sound_start unpaid)
    (fun _ call _ _ sound => Payouts.guarded_program call sound)
    (fun _ _ _ sound _ keeps _ => keeps.1 sound)
    (fun _ _ _ _ sound keeps _ apart => keeps.allowed sound apart) (List.prefix_refl _)).1
  exact sound.paidOnce (serving.reachable.isolated unique).unique

namespace Deployment

/-- The credit of a job is released by two operators at once, and then paid in the batch `b0`. -/
def payoutCalls : List PayoutCall :=
  [⟨.promoteAvailableCredits (seconds 86401), (drawing "p").ids⟩,
    ⟨.promoteAvailableCredits (seconds 86401), (drawing "q").ids⟩,
    ⟨.createPayoutBatch "", (drawing "b").ids⟩,
    ⟨.exportPayoutBatch "b0" (seconds 86402), idle.ids⟩,
    ⟨.confirmPayoutBatch "b0" [.paid "n1" 1] (seconds 86403), (drawing "c").ids⟩]

def payoutOrder : List Nat :=
  [0, 1] ++ List.replicate 9 0 ++ List.replicate 2 1 ++ List.replicate 7 2 ++
    List.replicate 6 3 ++ List.replicate 14 4

end Deployment

open Deployment in
/-- Both operators find the credit pending; it is released and paid once. -/
theorem no_credit_paid_twice_released : ∃ (db : Db) (c : Shared Db Row Key Index GoError),
    schema.Unique db ∧ db.Unpaid ∧ Serving schema PayoutCall.program db payoutCalls c ∧
    (c.committed.batches.find? "b0").any (fun b => b.status = .paid) = true ∧
    c.committed.PaidOnce := by
  have runs : ((serveAfter PayoutCall.program accepted payoutCalls payoutOrder).any fun (db, c) =>
      db.items.rows.isEmpty && db.batches.rows.isEmpty &&
      db.holds.rows.all (fun h => h.payoutBatchID = none && h.state = .pending) &&
      db.transactions.rows.all
        (fun t => t.status = .posted && t.transactionType = .jobAcceptance) &&
      db.entries.rows.all (fun e => db.transactions.rows.any fun t => t.id = e.transactionID) &&
      (c.committed.batches.find? "b0").any (fun b => b.status = .paid)) = true := by decide +kernel
  rw [Option.any_eq_true] at runs
  obtain ⟨⟨db, c⟩, served, checks⟩ := runs
  simp only [Bool.and_eq_true, List.isEmpty_iff, List.all_eq_true, List.any_eq_true,
    decide_eq_true_eq] at checks
  obtain ⟨⟨⟨⟨⟨items, batches⟩, holds⟩, transactions⟩, entries⟩, paid⟩ := checks
  obtain ⟨unique, serving⟩ := serveAfter_serving served
  have unpaid : db.Unpaid := by
    refine ⟨items, batches, fun h member => ⟨(holds h member).1, .inl (holds h member).2⟩,
      fun t member => ⟨(transactions t member).1, ?_⟩, entries⟩
    rw [(transactions t member).2]
    exact ⟨by decide, by decide⟩
  exact ⟨db, c, unique, unpaid, serving, paid, no_credit_paid_twice unique unpaid serving⟩

end Thirdshift
