import Mathlib.Algebra.BigOperators.Group.List.Basic
import Thirdshift.Ledger.Batches
import Thirdshift.Ledger.Corrections

/-!
# What payout calls do to the books

The posted balances of a node's two credit accounts are, negated, the sums of its holds. A call adds
the legs it has written to the balances and moves holds from state to state: where the two changes
cancel, the agreement is kept.
-/

namespace Thirdshift

open Foundation Foundation.ReadCommitted List Table

namespace Payouts

open Ledger

variable {ws₀ ws : List (Write Row)} {db₀ db : Db} {hs : List HostCreditHold}
  {xs : List PayoutItem} {bs : List PayoutBatch} {ts : List LedgerTransaction}
  {as : List LedgerAccount} {es : List LedgerEntry} {legs : List Leg} {nodeID : NodeID}
  {kind : String}

/-- The books agree with the holds. The accounts of the entries are known, and the amount of a hold
can be negated. -/
structure Books (db : Db) : Prop where
  inStep : db.InStep
  accounts : ∀ e ∈ db.entries.rows, (db.accounts.find? e.accountID).isSome = true
  amounts : ∀ h ∈ db.holds.rows, wrap64 (-h.amountMicrodollars) = -h.amountMicrodollars

def Settles (ws : List (Write Row)) (db : Db) : Prop :=
  schema.Unique db → Sound db → Books db → Books (schema.overlay db ws)

abbrev Upholds {α : Type} (p : SqlTx α) (db : Db) : Prop :=
  p.Guarded schema rely (fun ws db _ => Keeps ws db ∧ Settles ws db) [] db

def counted (nodeID : NodeID) (kind : String) (h : HostCreditHold) : Int :=
  if h.nodeID = nodeID && countedStates kind h.state then h.amountMicrodollars else 0

theorem held_eq (db : Db) (nodeID : NodeID) (kind : String) :
    db.held nodeID (countedStates kind) = (db.holds.rows.map (counted nodeID kind)).sum :=
  sum_filter_map _ _ _

def onAccount (nodeID : NodeID) (kind : String) (leg : Leg) : Int :=
  if leg.1 = (.host, nodeID, kind) then leg.2 else 0

def legSum (nodeID : NodeID) (kind : String) (legs : List Leg) : Int :=
  (legs.map (onAccount nodeID kind)).sum

section

variable {now : Time}

theorem Wrote.account_kept (wrote : Wrote ws₀ db₀ now hs xs bs ts none as es ws db) {id : String}
    {a : LedgerAccount} (found : db.accounts.find? id = some a) :
    (schema.overlay db ws).accounts.find? id = some a := by
  by_cases written : ∃ q ∈ as, q.id = id
  · obtain ⟨q, member, rfl⟩ := written
    rw [wrote.find?_account member]
    rcases wrote.seated q member with none | some
    · rw [none] at found
      cases found
    · rw [← some, found]
  · rw [overlay_accounts, wrote.accounts, find?_putAll_other fun q member key =>
      written ⟨q, member, key⟩]
    exact found

theorem Legs.account_of (on : Legs as es legs) {e : LedgerEntry} (member : e ∈ es) :
    ∃ a ∈ as, a.id = e.accountID := by
  induction on with
  | nil => cases member
  | @cons _ _ _ _ first _ ih =>
    rcases mem_cons.mp member with rfl | later
    · obtain ⟨⟨a, inside, account, -⟩, -⟩ := first
      exact ⟨a, inside, account⟩
    · exact ih later

theorem sum_legs {V : Db} (on : Legs as es legs)
    (seen : ∀ a ∈ as, V.accounts.find? a.id = some a) :
    (es.map fun e =>
        if V.hostAccount nodeID kind e.accountID then e.amountMicrodollars else 0).sum =
      legSum nodeID kind legs := by
  induction on with
  | nil => rfl
  | @cons e leg es legs first _ ih =>
    obtain ⟨⟨a, member, account, owner⟩, amount⟩ := first
    have same : V.hostAccount nodeID kind e.accountID = true ↔ leg.1 = (.host, nodeID, kind) := by
      rw [← account, Db.hostAccount, seen a member, ← owner]
      simp [LedgerAccount.isHost, and_assoc]
    simp only [map_cons, sum_cons, ih, same, legSum, onAccount, amount]

section

variable (wrote : Wrote ws₀ db₀ now hs xs bs ts none as es ws db)
include wrote

theorem Wrote.postedBalance
    (sound : Sound db) (books : Books db) (on : Legs as es legs) (nodeID : NodeID) (kind : String) :
    (schema.overlay db ws).postedBalance nodeID kind =
      db.postedBalance nodeID kind + legSum nodeID kind legs := by
  have filed : ∀ e ∈ es, ((schema.overlay db ws).transactions.find? e.transactionID).any
      (fun t => t.status = .posted) = true := by
    intro e member
    obtain ⟨t, inside, key⟩ := wrote.belongs_posted e member
    have there : t ∈ (schema.overlay db ws).transactions.rows := by
      rw [wrote.transactions_rows]
      exact mem_append_right _ inside
    rw [← key, find?_of_mem there]
    simp [posted_postedAs t inside]
  -- an entry on record keeps its transaction and its account, and so counts as before
  have old : ∀ e ∈ db.entries.rows, (if ((schema.overlay db ws).transactions.find?
        e.transactionID).any (fun t => t.status = .posted) &&
        (schema.overlay db ws).hostAccount nodeID kind e.accountID then
        e.amountMicrodollars else 0) =
      if (db.transactions.find? e.transactionID).any (fun t => t.status = .posted) &&
        db.hostAccount nodeID kind e.accountID then e.amountMicrodollars else 0 := by
    intro e member
    obtain ⟨t, inside, key⟩ := sound.filed.belongs e member
    have there : t ∈ (schema.overlay db ws).transactions.rows := by
      rw [wrote.transactions_rows]
      exact mem_append_left _ inside
    obtain ⟨a, found⟩ := Option.isSome_iff_exists.mp (books.accounts e member)
    rw [← key, find?_of_mem there, find?_of_mem inside, Db.hostAccount, Db.hostAccount,
      wrote.account_kept found, found]
  have new : es.map (fun e => if ((schema.overlay db ws).transactions.find?
        e.transactionID).any (fun t => t.status = .posted) &&
        (schema.overlay db ws).hostAccount nodeID kind e.accountID then
        e.amountMicrodollars else 0) =
      es.map fun e => if (schema.overlay db ws).hostAccount nodeID kind e.accountID then
        e.amountMicrodollars else 0 := by
    refine map_congr_left fun e member => ?_
    rw [filed e member, Bool.true_and]
  rw [Db.postedBalance, Db.postedBalance, entrySum, entrySum, sum_filter_map, sum_filter_map,
    wrote.entries_rows, map_append, sum_append, map_congr_left old, new,
    sum_legs on fun a member => wrote.find?_account member]

theorem settles_of (on : Legs as es legs)
    (amounts : Books db → ∀ h ∈ (schema.overlay db ws).holds.rows,
      wrap64 (-h.amountMicrodollars) = -h.amountMicrodollars)
    (moved : schema.Unique db → Sound db → Books db → ∀ nodeID, ∀ kind ∈ creditAccounts,
      ((schema.overlay db ws).holds.rows.map (counted nodeID kind)).sum + legSum nodeID kind legs =
        (db.holds.rows.map (counted nodeID kind)).sum) : Settles ws db := by
  intro unique sound books
  refine ⟨fun nodeID kind credit => ?_, fun e member => ?_, amounts books⟩
  · have before := books.inStep nodeID kind credit
    have change := moved unique sound books nodeID kind credit
    rw [held_eq] at before ⊢
    rw [wrote.postedBalance sound books on]
    omega
  · rw [wrote.entries_rows] at member
    rcases mem_append.mp member with old | new
    · obtain ⟨a, found⟩ := Option.isSome_iff_exists.mp (books.accounts e old)
      rw [wrote.account_kept found]
      rfl
    · obtain ⟨a, inside, account⟩ := on.account_of new
      rw [← account, wrote.find?_account inside]
      rfl

end

theorem settles_still {g : HostCreditHold → HostCreditHold}
    (wrote : Wrote ws₀ db₀ now hs xs bs ts none as [] ws db)
    (rows : (schema.overlay db ws).holds.rows = db.holds.rows.map g)
    (amount : ∀ h, (g h).amountMicrodollars = h.amountMicrodollars ∧ (g h).nodeID = h.nodeID)
    (still : Sound db → ∀ h ∈ db.holds.rows, ∀ kind,
      countedStates kind (g h).state = countedStates kind h.state) : Settles ws db := by
  refine settles_of wrote .nil ?_ ?_
  · intro books h' member
    rw [rows] at member
    obtain ⟨h, inside, rfl⟩ := mem_map.mp member
    rw [(amount h).1]
    exact books.amounts h inside
  · intro _ sound _ nodeID kind _
    rw [rows, map_map, legSum, map_nil, sum_nil, Int.add_zero]
    congr 1
    refine map_congr_left fun h member => ?_
    simp only [Function.comp_apply, counted, (amount h).1, (amount h).2, still sound h member]

end

/-! ### Releases -/

def releaseLegs (h : HostCreditHold) : List Leg :=
  [((.host, h.nodeID, accountHostPendingCredit), h.amountMicrodollars),
    ((.host, h.nodeID, accountHostAvailableCredit), wrap64 (-h.amountMicrodollars))]

theorem legSum_flatMap {α : Type} (nodeID : NodeID) (kind : String) (f : α → List Leg) (l : List α)
    : legSum nodeID kind (l.flatMap f) = (l.map fun x => legSum nodeID kind (f x)).sum := by
  induction l with
  | nil => rfl
  | cons x l ih =>
    rw [flatMap_cons, legSum, map_append, sum_append, map_cons, sum_cons,
      ← ih]
    rfl

theorem release_moves {h : HostCreditHold}
    (credit : kind ∈ creditAccounts) (pending : h.state = .pending)
    (fits : wrap64 (-h.amountMicrodollars) = -h.amountMicrodollars) :
    counted nodeID kind (available h) + legSum nodeID kind (releaseLegs h) =
      counted nodeID kind h := by
  have apart : accountHostPendingCredit ≠ accountHostAvailableCredit := by decide
  simp only [creditAccounts, mem_cons, not_mem_nil, or_false] at credit
  by_cases own : h.nodeID = nodeID <;> rcases credit with rfl | rfl <;>
    simp [counted, legSum, releaseLegs, onAccount, available, countedStates, pending, own, fits,
      apart, apart.symm]

variable {credits : List HostCreditHold} {b : PayoutBatch}

theorem chosen_perm (nodup : (credits.map HostCreditHold.id).Nodup)
    (known : ∀ h ∈ credits, db.holds.find? h.id = some h) :
    (db.holds.rows.filter fun h => h.id ∈ credits.map HostCreditHold.id).Perm credits := by
  refine (perm_ext_iff_of_nodup (db.holds.nodup.of_map.filter _) nodup.of_map).mpr fun h => ?_
  rw [mem_filter, decide_eq_true_eq]
  refine ⟨fun ⟨member, inside⟩ => credit_of_id known member inside, fun inside => ?_⟩
  exact ⟨mem_of_find? (known h inside), mem_map_of_mem inside⟩

theorem settles_release {now : Time}
    (wrote : Wrote ws₀ db₀ now (credits ++ credits.flatMap fun h => [h, available h]) [] [] ts none
      as es ws db) (on : Legs as es (credits.flatMap releaseLegs))
    (nodup : (credits.map HostCreditHold.id).Nodup)
    (known : ∀ h ∈ credits, db.holds.find? h.id = some h) (due : ∀ h ∈ credits, h.state = .pending) :
    Settles ws db := by
  have rows := wrote.holds_rows nodup known fun _ => rfl
  refine settles_of wrote on ?_ ?_
  · intro books h' member
    rw [rows] at member
    obtain ⟨h, inside, rfl⟩ := mem_map.mp member
    have fits := books.amounts h inside
    split <;> exact fits
  · -- hold by hold: what is released leaves one account and enters the other
    intro _ _ books nodeID kind credit
    rw [legSum_flatMap, ← ((chosen_perm nodup known).map _).sum_eq, sum_filter_map, rows,
      map_map, ← sum_map_add]
    congr 1
    refine map_congr_left fun h member => ?_
    by_cases chosen : h.id ∈ credits.map HostCreditHold.id
    · simp only [Function.comp_apply, if_pos chosen, decide_eq_true chosen]
      exact release_moves credit (due h (credit_of_id known member chosen)) (books.amounts h member)
    · simp only [Function.comp_apply, if_neg chosen, decide_eq_false chosen, Bool.false_eq_true,
        if_false, Int.add_zero]

/-! ### Payouts -/

def payLeg (x : PayoutItem) : Leg :=
  ((.host, x.hostNodeID, accountHostAvailableCredit), x.amountMicrodollars)

theorem items_perm (unique : schema.Unique db) (sound : Sound db)
    (found : db.batches.find? b.id = some b) (live : b.status ≠ .void) :
    ((itemsOf db b.id).map PayoutItem.creditHoldID).Perm
      ((holdsOf db b.id).map HostCreditHold.id) := by
  have liveItem : ∀ x ∈ itemsOf db b.id, x.status ≠ .void := by
    intro x member
    obtain ⟨inside, own⟩ := mem_filter.mp member
    rw [sound.batched.item_status found inside (of_decide_eq_true own)]
    cases status : b.status <;> simp_all [BatchStatus.ofItems]
  -- no hold is in two of the items, by the partial unique index on items
  have once : ((itemsOf db b.id).map PayoutItem.creditHoldID).Nodup := by
    refine (nodup_map_iff_inj_on (db.items.nodup.of_map.filter _)).mpr ?_
    intro x member y member' same
    exact one_item unique (mem_of_mem_filter member) (mem_of_mem_filter member')
      (liveItem x member) (liveItem y member') same
  refine (perm_ext_iff_of_nodup once
    (db.holds.nodup.sublist (filter_sublist.map _))).mpr fun id =>
      ⟨fun member => ?_, fun member => ?_⟩
  · obtain ⟨x, inside, rfl⟩ := mem_map.mp member
    obtain ⟨there, own⟩ := mem_filter.mp inside
    obtain ⟨h, holds, key, batch, -⟩ := sound.batched.backed x there (liveItem x inside)
    refine mem_map.mpr ⟨h, mem_filter.mpr ⟨holds, ?_⟩, key⟩
    rw [batch, of_decide_eq_true own]
    exact decide_eq_true rfl
  · obtain ⟨h, inside, rfl⟩ := mem_map.mp member
    obtain ⟨there, own⟩ := mem_filter.mp inside
    obtain ⟨r, batches, key, -, item⟩ := sound.batched.taken h there b.id (of_decide_eq_true own)
    have same : r = b := eq_of_key batches (mem_of_find? found) key
    obtain ⟨x, items, ofBatch, ofHold⟩ := item (same ▸ live)
    exact mem_map.mpr ⟨x, mem_filter.mpr ⟨items, decide_eq_true ofBatch⟩, ofHold⟩

theorem sum_payLegs (nodeID : NodeID) (kind : String) (unique : schema.Unique db) (sound : Sound db)
    (found : db.batches.find? b.id = some b) (exported : b.status = .exported) :
    legSum nodeID kind ((itemsOf db b.id).map payLeg) =
      ((holdsOf db b.id).map (counted nodeID kind)).sum := by
  have ofHold : ∀ h ∈ holdsOf db b.id, ((db.holds.find? h.id).map (counted nodeID kind)).getD 0 =
      counted nodeID kind h := by
    intro h member
    rw [find?_of_mem (mem_of_mem_filter member)]
    rfl
  -- both sums are over the identifiers of the holds, in some order
  have ofItem : ∀ x ∈ itemsOf db b.id, onAccount nodeID kind (payLeg x) =
      ((db.holds.find? x.creditHoldID).map (counted nodeID kind)).getD 0 := by
    intro x member
    obtain ⟨inside, own⟩ := mem_filter.mp member
    have status := sound.batched.item_status found inside (of_decide_eq_true own)
    obtain ⟨h, there, key, batch, node, amount⟩ := sound.batched.backed x inside
      (by simp [status, exported, BatchStatus.ofItems])
    have state := sound.batched.hold_state found there (by rw [batch, of_decide_eq_true own])
    rw [exported] at state
    rw [← key, find?_of_mem there]
    simp only [Option.map_some, Option.getD_some, counted, onAccount, payLeg, ← node, ← amount,
      state, BatchStatus.ofHolds, countedStates]
    simp [eq_comm (a := kind)]
  have perm := (items_perm unique sound found (by simp [exported])).map
    fun id => ((db.holds.find? id).map (counted nodeID kind)).getD 0
  rw [legSum, map_map]
  have sums := perm.sum_eq
  rw [map_map, map_map] at sums
  rw [show (itemsOf db b.id).map (onAccount nodeID kind ∘ payLeg) = _ from
    map_congr_left ofItem]
  refine sums.trans ?_
  congr 1
  exact map_congr_left ofHold

theorem settles_payout {now : Time} {turn : PayoutBatch → PayoutBatch} {k : PayoutItem → PayoutItem}
    {f : HostCreditHold → HostCreditHold} (wrote : Wrote ws₀ db₀ now hs xs bs ts none as es ws db)
    (turns : Sound db → Turns db (schema.overlay db ws) b .paid turn k f)
    (exported : b.status = .exported) (paid : ∀ h, f h = { h with state := .paid }) (cash : Int)
    (on : Legs as es legs) (is : Sound db → legs = (itemsOf db b.id).map payLeg ++
      [((.platform, defaultPlatformLedgerOwnerID, accountPlatformPayoutCash), cash)]) :
    Settles ws db := by
  intro unique sound books
  have rows := (turns sound).holds
  refine settles_of wrote on ?_ ?_ unique sound books
  · intro books h' member
    rw [rows] at member
    obtain ⟨h, inside, rfl⟩ := mem_map.mp member
    have fits := books.amounts h inside
    split
    · rw [paid]
      exact fits
    · exact fits
  · intro unique sound books nodeID kind _
    have found := (turns sound).found
    have last : onAccount nodeID kind
        ((.platform, defaultPlatformLedgerOwnerID, accountPlatformPayoutCash), cash) = 0 := by
      simp [onAccount]
    have items := sum_payLegs nodeID kind unique sound found exported
    rw [legSum] at items
    rw [is sound, legSum, map_append, sum_append, items, map_singleton, last,
      sum_singleton, Int.add_zero, holdsOf, sum_filter_map, rows, map_map,
      ← sum_map_add]
    congr 1
    refine map_congr_left fun h member => ?_
    -- a hold that is paid counts for nothing, and its item has taken it off the account
    by_cases own : h.payoutBatchID = some b.id
    · simp [own, paid, counted, countedStates]
    · simp [own]

end Payouts

end Thirdshift
