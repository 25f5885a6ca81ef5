import Thirdshift.Ledger.PaidOnce

/-!
# The books agree with the credit holds

The postings earn a credit and hold it as pending; the payout calls release it, reserve it in a
batch and pay it. From an empty ledger, in every committed state of any interleaving, the pending
and available balances of a node are the sums of its holds in the states they stand for.
-/

namespace Thirdshift

open Foundation Foundation.ReadCommitted List Tx

namespace Payouts

open Ledger

variable {db : Db} {ids : Nat → String}

section

variable {ws₀ ws : List (Write Row)} {db₀ : Db} {now : Time} {hs : List HostCreditHold}
  {xs : List PayoutItem} {bs : List PayoutBatch} {t : LedgerTransaction}
  {ts : List LedgerTransaction} {as : List LedgerAccount} {es : List LedgerEntry} {legs : List Leg}
  {h : HostCreditHold}

section

variable (wrote : Wrote ws₀ db₀ now hs xs bs ts none as es ws db)
include wrote

theorem guarded_insertDraft
    (t : LedgerTransaction) : (insertDraft t).Guarded schema rely (fun ws' db' inserted =>
      inserted ≠ 0 → Wrote ws₀ db₀ now hs xs bs ts (some t) as es ws' db') ws db := by
  intro later allowed new seen ok admitted
  cases ok
  intro last allowed' inserted
  dsimp only at inserted admitted allowed' ⊢
  by_cases used : ((schema.overlay later ws).transactions.find? t.id).isSome = true
  · rw [if_pos used] at inserted
    exact absurd rfl inserted
  · rw [if_neg used] at admitted allowed' ⊢
    exact ((wrote.stable allowed).insertTransaction admitted).stable allowed'

theorem guarded_insertHold
    (h : HostCreditHold) : (insertRow (.hold h)).Guarded schema rely (fun ws' db' _ =>
      Wrote ws₀ db₀ now (hs ++ [h]) xs bs ts none as es ws' db' ∧ db'.holds.find? h.id = none)
      ws db := by
  intro later allowed new seen ok admitted
  cases ok
  intro last allowed'
  have absent : later.holds.find? h.id = none :=
    Option.map_eq_none_iff.mp (schema.fresh_of_applyWrites admitted mem_cons_self)
  have wrote' := (wrote.stable allowed).insertHold h
  refine ⟨wrote'.stable allowed', ?_⟩
  rw [find?_hold_of_same allowed'.2.1 (wrote'.holds.symm ▸ by simp)]
  exact absent

end

theorem legSum_append (nodeID : NodeID) (kind : String) (legs more : List Leg) :
    legSum nodeID kind (legs ++ more) = legSum nodeID kind legs + legSum nodeID kind more := by
  simp [legSum]

theorem guarded_insertOverhead {accountID entryID : String} {overhead : Int} (on : Legs as es legs)
    (wrote : Wrote ws₀ db₀ now hs xs bs ts (some t) as es ws db) :
    (insertOverhead accountID entryID t.id overhead).Guarded schema rely (fun ws' db' _ =>
      ∃ as' es' legs', as ⊆ as' ∧ Legs as' es' legs' ∧
        (∀ nodeID kind, legSum nodeID kind legs' = legSum nodeID kind legs) ∧
        Wrote ws₀ db₀ now hs xs bs ts (some t) as' es' ws' db') ws db := by
  unfold insertOverhead
  split
  · refine (guarded_ensureAccount wrote).bind ?_
    rintro account ws₁ db₁ ⟨_, rfl, wrote₁⟩
    refine (guarded_leg (on.account _) wrote₁ ⟨account, .platform, defaultPlatformLedgerOwnerID,
      accountPlatformVerification⟩ (by simp)).mono ?_
    rintro ws₂ db₂ _ ⟨es₂, on₂, wrote₂⟩
    refine ⟨_, es₂, _, subset_append_left _ _, on₂, fun nodeID kind => ?_, wrote₂⟩
    rw [legSum_append]
    simp [legSum, onAccount]
  · exact fun later allowed =>
      ⟨as, es, legs, List.Subset.refl _, on, fun _ _ => rfl, wrote.stable allowed⟩

section

variable (wrote : Wrote ws₀ db₀ now [h] [] [] [t] none as es ws db)
  (fresh : db.holds.find? h.id = none) (pending : h.state = .pending)

include wrote fresh

theorem Wrote.hold_rows : (schema.overlay db ws).holds.rows = db.holds.rows ++ [h] := by
  rw [overlay_holds, wrote.holds]
  exact Table.rows_putAll_fresh (by simp) (by simpa using fresh)

include pending

theorem keeps_posting (free : h.payoutBatchID = none)
    (type : t.transactionType ≠ .hostCreditRelease ∧ t.transactionType ≠ .hostPayout) :
    Keeps ws db := by
  have rows := wrote.hold_rows fresh
  have items : (schema.overlay db ws).items = db.items := by
    rw [overlay_items, wrote.items, Table.putAll_nil]
  have batches : (schema.overlay db ws).batches = db.batches := by
    rw [overlay_batches, wrote.batches, Table.putAll_nil]
  have posted : ∀ u ∈ [t].map (postedAs now), u.transactionType = t.transactionType := by
    intro u member
    rw [map_singleton, mem_singleton] at member
    rw [member]
    rfl
  refine ⟨fun sound => ⟨sound.batched.outside items batches ?_ ?_, ?_⟩, fun id _ _ => ⟨?_, ?_⟩⟩
  · intro c member _ _
    rw [rows]
    exact mem_append_left _ member
  · rw [rows]
    intro c member
    rcases mem_append.mp member with old | this
    · exact .inl old
    · exact .inr (mem_singleton.mp this ▸ ⟨free, .inl pending⟩)
  · refine sound.filed.extendUnpaid wrote.entries_rows wrote.fresh_posted wrote.belongs_posted
      wrote.transactions_rows posted_postedAs ?_ ?_ items batches ?_
    · intro c member
      rw [rows]
      exact ⟨c, mem_append_left _ member, rfl, rfl, id⟩
    · intro u member release
      exact absurd ((posted u member).symm.trans release) type.1
    · intro u member payout
      exact absurd ((posted u member).symm.trans payout) type.2
  · rw [itemsOf, items]
    rfl
  · rw [holdsOf, rows, filter_append]
    simp [free, holdsOf]

theorem settles_posting (on : Legs as es legs)
    (fits : wrap64 (-h.amountMicrodollars) = -h.amountMicrodollars)
    (credit : ∀ nodeID kind, legSum nodeID kind legs =
      if h.nodeID = nodeID ∧ kind = accountHostPendingCredit then -h.amountMicrodollars else 0) :
    Settles ws db := by
  have rows := wrote.hold_rows fresh
  refine settles_of wrote on ?_ ?_
  · intro books c member
    rw [rows] at member
    rcases mem_append.mp member with old | this
    · exact books.amounts c old
    · exact mem_singleton.mp this ▸ fits
  · intro _ _ _ nodeID kind _
    rw [rows, map_append, sum_append, map_singleton, sum_singleton, credit]
    by_cases own : h.nodeID = nodeID ∧ kind = accountHostPendingCredit
    · simp [counted, own, pending, countedStates]
    · rw [if_neg own]
      simp [counted, pending, countedStates, own]

end

theorem guarded_acceptedJob {posting : AcceptedJobPosting} :
    Upholds (postAcceptedJob ids posting) db := by
  refine guarded_select fun db₁ allowed₁ => ?_
  have start : Wrote [] db₁ posting.receivedAt [] [] [] [] none [] [] [] db₁ :=
    wrote_start _ _ rfl rfl rfl
  split
  · trivial
  next pricing _ =>
    refine (guarded_insertDraft start _).bind fun inserted ws₂ db₂ wrote₂ => ?_
    unfold require
    split
    next new =>
      rw [pure_eq, done_bind]
      refine (guarded_ensureAccount (wrote₂ new)).bind ?_
      rintro customer ws₃ db₃ ⟨_, rfl, wrote₃⟩
      refine (guarded_ensureAccount wrote₃).bind ?_
      rintro host ws₄ db₄ ⟨_, rfl, wrote₄⟩
      refine (guarded_ensureAccount wrote₄).bind ?_
      rintro margin ws₅ db₅ ⟨_, rfl, wrote₅⟩
      refine (guarded_leg .nil wrote₅
        ⟨customer, .customer, pricing.organizationID, accountCustomerUsage⟩ (by simp)).bind ?_
      rintro _ ws₆ db₆ ⟨es₆, on₆, wrote₆⟩
      refine (guarded_leg on₆ wrote₆ ⟨host, .host, pricing.nodeID, accountHostPendingCredit⟩
        (by simp)).bind ?_
      rintro _ ws₇ db₇ ⟨es₇, on₇, wrote₇⟩
      refine (guarded_insertOverhead on₇ wrote₇).bind ?_
      rintro _ ws₈ db₈ ⟨as₈, es₈, legs₈, more, on₈, sums, wrote₈⟩
      refine (guarded_leg on₈ wrote₈
        ⟨margin, .platform, defaultPlatformLedgerOwnerID, accountPlatformMargin⟩
          (more (by simp))).bind ?_
      rintro _ ws₉ db₉ ⟨es₉, on₉, wrote₉⟩
      refine (guarded_markPosted wrote₉).bind fun _ ws₁₀ db₁₀ wrote₁₀ => ?_
      refine (guarded_insertHold wrote₁₀ _).bind ?_
      rintro _ ws₁₁ db₁₁ ⟨wrote₁₁, fresh⟩ db₁₂ allowed
      have last := wrote₁₁.stable allowed
      -- of the entries only the host's is on a credit account, and it is minus the hold
      have absent := (find?_hold_of_same allowed.2.1 (wrote₁₁.holds.symm ▸ by simp)).trans fresh
      refine ⟨keeps_posting last absent rfl rfl (by simp), settles_posting last absent rfl on₉
        (wrap64_neg_charge _ _) fun nodeID kind => ?_⟩
      rw [legSum_append, sums, wrap64_neg_charge]
      simp [legSum, onAccount, eq_comm]
    · trivial

theorem guarded_verificationOverhead {posting : VerificationOverheadPosting} :
    Upholds (postVerificationOverhead ids posting) db := by
  refine guarded_select fun db₁ allowed₁ => ?_
  have start : Wrote [] db₁ posting.receivedAt [] [] [] [] none [] [] [] db₁ :=
    wrote_start _ _ rfl rfl rfl
  split
  · trivial
  next pricing _ =>
    refine (guarded_insertTransaction start _).bind fun _ ws₂ db₂ wrote₂ => ?_
    refine (guarded_ensureAccount wrote₂).bind ?_
    rintro verification ws₃ db₃ ⟨_, rfl, wrote₃⟩
    refine (guarded_ensureAccount wrote₃).bind ?_
    rintro host ws₄ db₄ ⟨_, rfl, wrote₄⟩
    refine (guarded_leg .nil wrote₄ ⟨verification, .platform, defaultPlatformLedgerOwnerID,
      accountPlatformVerification⟩ (by simp)).bind ?_
    rintro _ ws₅ db₅ ⟨es₅, on₅, wrote₅⟩
    refine (guarded_leg on₅ wrote₅ ⟨host, .host, pricing.nodeID, accountHostPendingCredit⟩
      (by simp)).bind ?_
    rintro _ ws₆ db₆ ⟨es₆, on₆, wrote₆⟩
    refine (guarded_markPosted wrote₆).bind fun _ ws₇ db₇ wrote₇ => ?_
    refine (guarded_insertHold wrote₇ _).mono ?_
    rintro ws₈ db₈ _ ⟨last, absent⟩
    refine ⟨keeps_posting last absent rfl rfl (by simp), settles_posting last absent rfl on₆
      (wrap64_neg_charge _ _) fun nodeID kind => ?_⟩
    rw [wrap64_neg_charge]
    simp [legSum, onAccount, eq_comm]

end

end Payouts

/-- `VoidPayoutBatch` as it is called for batches that are not paid. -/
def Ledger.voidUnpaidBatch (batchID : String) : SqlTx Unit :=
  voidBatch (Tx.fail (.other "payout batch is paid")) batchID

theorem Ledger.voidPayoutBatch_unpaid {batchID : String} {now : Time}
    (unpaid : ∀ b, db.batches.find? batchID = some b → b.status ≠ .paid) :
    Tx.exec schema (voidPayoutBatch ids batchID now) db =
      Tx.exec schema (voidUnpaidBatch batchID) db := by
  unfold voidPayoutBatch voidUnpaidBatch voidBatch
  rw [exec_bind, exec_bind]
  cases locked : Tx.exec schema (lockBatch batchID) db with
  | error e => rfl
  | ok result =>
    obtain ⟨found, mid⟩ := result
    have seen : found = db.batches.find? batchID := (exec_write_ok locked).1
    cases found with
    | none => rfl
    | some b =>
      have live := unpaid b seen.symm
      simp only [undoBatch, if_neg live]

inductive CreditOp
  | postAcceptedJob (posting : AcceptedJobPosting)
  | postVerificationOverhead (posting : VerificationOverheadPosting)
  | promoteAvailableCredits (now : Time)
  | createPayoutBatch (organizationID : String)
  | exportPayoutBatch (batchID : String) (now : Time)
  | confirmPayoutBatch (batchID : String) (rows : List ConfirmationRow) (now : Time)
  | voidUnpaidBatch (batchID : String)

structure CreditCall where
  op : CreditOp
  ids : Nat → String

def CreditCall.program (call : CreditCall) : SqlTx Unit :=
  match call.op with
  | .postAcceptedJob posting => Ledger.postAcceptedJob call.ids posting >>= fun _ => pure ()
  | .postVerificationOverhead posting => Ledger.postVerificationOverhead call.ids posting
  | .promoteAvailableCredits now =>
    Ledger.promoteAvailableCredits call.ids now >>= fun _ => pure ()
  | .createPayoutBatch organizationID =>
    Ledger.createPayoutBatch call.ids organizationID >>= fun _ => pure ()
  | .exportPayoutBatch batchID now => Ledger.exportPayoutBatch batchID now >>= fun _ => pure ()
  | .confirmPayoutBatch batchID rows now => Ledger.confirmPayoutBatch call.ids batchID rows now
  | .voidUnpaidBatch batchID => Ledger.voidUnpaidBatch batchID

structure Db.LedgerEmpty (db : Db) : Prop where
  accounts : db.accounts.rows = []
  transactions : db.transactions.rows = []
  entries : db.entries.rows = []
  holds : db.holds.rows = []
  batches : db.batches.rows = []
  items : db.items.rows = []

namespace Payouts

theorem guarded_creditCall (call : CreditCall) : Upholds call.program db := by
  unfold CreditCall.program
  split
  · exact guarded_acceptedJob.map
  · exact guarded_verificationOverhead
  · exact guarded_promote.map
  · exact guarded_create.map
  · exact guarded_export.map
  · exact guarded_confirm
  · exact guarded_voidBatch (fun _ _ keeps settles => ⟨keeps, settles⟩) fun _ _ _ _ _ _ => trivial

theorem books_start (empty : db.LedgerEmpty) : Sound db ∧ Books db := by
  have sound := sound_start ⟨empty.items, empty.batches, by simp [empty.holds],
    by simp [empty.transactions], by simp [empty.entries]⟩
  refine ⟨sound, fun nodeID kind _ => ?_, by simp [empty.entries], by simp [empty.holds]⟩
  simp [Db.postedBalance, Db.held, empty.entries, empty.holds, entrySum, holdSum]

end Payouts

/-- However the calls interleave, the books agree with the credit holds. -/
theorem books_agree_with_holds {db : Db} {calls : List CreditCall}
    {c : Shared Db Row Key Index GoError} (unique : schema.Unique db) (empty : db.LedgerEmpty)
    (serving : Serving schema CreditCall.program db calls c) (nodeID : NodeID) :
    -c.committed.postedBalance nodeID accountHostPendingCredit =
      c.committed.held nodeID (fun state => state = .pending) ∧
    -c.committed.postedBalance nodeID accountHostAvailableCredit =
      c.committed.held nodeID (fun state => state = .available ∨ state = .payoutPending) := by
  have books := (serving.guarded (I := fun db => Payouts.Sound db ∧ Payouts.Books db)
    (R := Payouts.rely) (Q := fun _ ws db _ => Payouts.Keeps ws db ∧ Payouts.Settles ws db) unique
    (Payouts.books_start empty) (fun _ call _ _ _ => Payouts.guarded_creditCall call)
    (fun _ _ _ inv unique both _ => ⟨both.1.1 inv.1, both.2 unique inv.1 inv.2⟩)
    (fun _ _ _ _ inv both _ apart => both.1.allowed inv.1 apart) (prefix_refl _)).1.2
  -- the states that count for an account are those that the statement names
  have pending := books.inStep nodeID accountHostPendingCredit (by simp [creditAccounts])
  have free := books.inStep nodeID accountHostAvailableCredit (by simp [creditAccounts])
  have states : countedStates accountHostPendingCredit = fun state => decide (state = .pending) :=
    by
    funext state
    cases state <;> rfl
  have states' : countedStates accountHostAvailableCredit =
      fun state => decide (state = .available ∨ state = .payoutPending) := by
    funext state
    cases state <;> rfl
  exact ⟨states ▸ pending, states' ▸ free⟩

namespace Deployment

/-- A credit is earned, released and reserved, and the batch is voided. A second posting for the
same attempt is rolled back. -/
def creditCalls : List CreditCall :=
  [⟨.postAcceptedJob ⟨"j", "a", 10, 0, 3, 2, 0⟩, idle.ids⟩,
    ⟨.postVerificationOverhead ⟨"j", "a", 10, 0, 2⟩, (drawing "v").ids⟩,
    ⟨.promoteAvailableCredits (seconds 86401), (drawing "p").ids⟩,
    ⟨.createPayoutBatch "", (drawing "b").ids⟩,
    ⟨.voidUnpaidBatch "b0", idle.ids⟩]

def creditOrder : List Nat :=
  List.replicate 11 0 ++ List.replicate 8 1 ++ [3] ++ List.replicate 10 2 ++ List.replicate 6 3 ++
    List.replicate 7 4

end Deployment

open Deployment in
/-- The credit is available again once its batch is void. -/
theorem books_agree_with_holds_voided : ∃ (db : Db) (c : Shared Db Row Key Index GoError),
    schema.Unique db ∧ db.LedgerEmpty ∧ Serving schema CreditCall.program db creditCalls c ∧
    (c.committed.batches.find? "b0").any (fun b => b.status = .void) = true ∧
    c.committed.held "n1" (fun state => state = .available ∨ state = .payoutPending) = 1 ∧
    -c.committed.postedBalance "n1" accountHostPendingCredit =
      c.committed.held "n1" (fun state => state = .pending) ∧
    -c.committed.postedBalance "n1" accountHostAvailableCredit =
      c.committed.held "n1" (fun state => state = .available ∨ state = .payoutPending) := by
  have runs : ((serveAfter CreditCall.program underway creditCalls creditOrder).any fun (db, c) =>
      db.accounts.rows.isEmpty && db.transactions.rows.isEmpty && db.entries.rows.isEmpty &&
      db.holds.rows.isEmpty && db.batches.rows.isEmpty && db.items.rows.isEmpty &&
      (c.committed.batches.find? "b0").any (fun b => b.status = .void) &&
      c.committed.held "n1" (fun state => state = .available ∨ state = .payoutPending) = 1) =
      true := by decide +kernel
  rw [Option.any_eq_true] at runs
  obtain ⟨⟨db, c⟩, served, checks⟩ := runs
  simp only [Bool.and_eq_true, List.isEmpty_iff, decide_eq_true_eq] at checks
  obtain ⟨⟨⟨⟨⟨⟨⟨accounts, transactions⟩, entries⟩, holds⟩, batches⟩, items⟩, void⟩, held⟩ := checks
  obtain ⟨unique, serving⟩ := serveAfter_serving served
  have empty : db.LedgerEmpty := ⟨accounts, transactions, entries, holds, batches, items⟩
  exact ⟨db, c, unique, empty, serving, void, held,
    books_agree_with_holds unique empty serving "n1"⟩

end Thirdshift
