import Thirdshift.Ledger.Written

/-!
# What payout calls do to batches

A call either releases holds, takes holds into a new batch, or turns one batch with its items and
holds to another status. Each of the three, as the rows it has written, keeps batches, items, holds
and the releases and payouts on record in agreement.
-/

namespace Thirdshift

open Foundation Foundation.ReadCommitted List Table BatchStatus

namespace Payouts

open Ledger

variable {db V db₀ : Db} {ts : List LedgerTransaction} {as : List LedgerAccount}
  {es : List LedgerEntry} {t : LedgerTransaction} {ws₀ ws : List (Write Row)}
  {f : HostCreditHold → HostCreditHold} {ids : Nat → String} {h : HostCreditHold}
  {b r : PayoutBatch} {id : String}

/-- A call that commits keeps the books sound, and changes no batch that it has not locked. -/
def Keeps (ws : List (Write Row)) (db : Db) : Prop :=
  (Sound db → Sound (schema.overlay db ws)) ∧
    ∀ id, (∀ b ∈ rowsOf Row.asBatch ws, b.id ≠ id) →
      Sound db → itemsOf (schema.overlay db ws) id = itemsOf db id ∧
        holdsOf (schema.overlay db ws) id = holdsOf db id

theorem filter_map_fix {α : Type} {p : α → Bool} {k : α → α} {l : List α}
    (same : ∀ a ∈ l, p (k a) = p a ∧ (p a = true → k a = a)) : (l.map k).filter p = l.filter p := by
  induction l with
  | nil => rfl
  | cons a l ih =>
    obtain ⟨kept, fixed⟩ := same a mem_cons_self
    have rest := ih fun b member => same b (mem_cons_of_mem _ member)
    cases chosen : p a with
    | false => simp [kept, chosen, rest]
    | true => simp [fixed chosen, chosen, rest]

section

variable (entries : V.entries.rows = db.entries.rows ++ es)
  (fresh : ∀ t ∈ ts, db.transactions.find? t.id = none)
  (belongs : ∀ e ∈ es, ∃ t ∈ ts, t.id = e.transactionID)
include entries fresh belongs

theorem entriesOf_old (old : t ∈ db.transactions.rows) : entriesOf V t.id = entriesOf db t.id := by
  rw [entriesOf, entries, filter_append]
  have none : es.filter (fun e => e.transactionID = t.id) = [] := by
    rw [filter_eq_nil_iff]
    intro e member same
    obtain ⟨u, new, owner⟩ := belongs e member
    have absent := fresh u new
    rw [owner, of_decide_eq_true same, find?_of_mem old] at absent
    cases absent
  rw [none, append_nil]
  rfl

variable (transactions : V.transactions.rows = db.transactions.rows ++ ts)
  (posted : ∀ t ∈ ts, t.status = .posted)
  (holds : ∀ h ∈ db.holds.rows, ∃ h' ∈ V.holds.rows, h'.id = h.id ∧
    h'.availableAt = h.availableAt ∧ (h.state ≠ .pending → h'.state ≠ .pending))
  (released : ∀ t ∈ ts, t.transactionType = .hostCreditRelease →
    (∃ h ∈ V.holds.rows, h.id = t.referenceID ∧ h.state ≠ .pending ∧
      ∃ at', t.postedAt = some at' ∧ h.availableAt ≤ at') ∧
    (∀ u ∈ ts, u.transactionType = .hostCreditRelease → t.referenceID = u.referenceID → t = u) ∧
    ∀ u ∈ db.transactions.rows, u.transactionType = .hostCreditRelease →
      u.referenceID ≠ t.referenceID)
include transactions posted holds released

theorem Filed.extend (filed : Filed db)
    (batches : ∀ b ∈ db.batches.rows, b.status = .paid ∨ b.status = .void →
      ∃ b' ∈ V.batches.rows, b'.id = b.id ∧ (b'.status = .paid ∨ b'.status = .void))
    (sums : ∀ b ∈ db.batches.rows, itemSum V b.id = itemSum db b.id)
    (paid : ∀ t ∈ ts, t.transactionType = .hostPayout →
      (∃ b ∈ V.batches.rows, b.id = t.referenceID ∧ (b.status = .paid ∨ b.status = .void) ∧
        debits V t.id = itemSum V b.id) ∧
      (∀ u ∈ ts, u.transactionType = .hostPayout → t.referenceID = u.referenceID → t = u) ∧
      ∀ u ∈ db.transactions.rows, u.transactionType = .hostPayout →
        u.referenceID ≠ t.referenceID) : Filed V where
  posted t member := by
    rw [transactions] at member
    exact (mem_append.mp member).elim (filed.posted t) (posted t)
  belongs e member := by
    rw [entries] at member
    rw [transactions]
    rcases mem_append.mp member with old | new
    · obtain ⟨t, inside, same⟩ := filed.belongs e old
      exact ⟨t, mem_append_left _ inside, same⟩
    · obtain ⟨t, inside, same⟩ := belongs e new
      exact ⟨t, mem_append_right _ inside, same⟩
  released t member release := by
    rw [transactions] at member
    rcases mem_append.mp member with old | new
    · obtain ⟨h, inside, same, past, at', when', late⟩ := filed.released t old release
      obtain ⟨h', there, key, available, later⟩ := holds h inside
      exact ⟨h', there, key.trans same, later past, at', when', available ▸ late⟩
    · exact (released t new release).1
  releasedOnce t member u member' release release' same := by
    rw [transactions] at member member'
    rcases mem_append.mp member with old | new <;>
      rcases mem_append.mp member' with old' | new'
    · exact filed.releasedOnce t old u old' release release' same
    · exact absurd same ((released u new' release').2.2 t old release)
    · exact absurd same.symm ((released t new release).2.2 u old' release')
    · exact (released t new release).2.1 u new' release' same
  paid t member payout := by
    rw [transactions] at member
    rcases mem_append.mp member with old | new
    · obtain ⟨b, inside, same, done, sum⟩ := filed.paid t old payout
      obtain ⟨b', there, key, still⟩ := batches b inside done
      refine ⟨b', there, key.trans same, still, ?_⟩
      rw [debits, entriesOf_old entries fresh belongs old, key, sums b inside]
      exact sum
    · exact (paid t new payout).1
  paidOnce t member u member' payout payout' same := by
    rw [transactions] at member member'
    rcases mem_append.mp member with old | new <;>
      rcases mem_append.mp member' with old' | new'
    · exact filed.paidOnce t old u old' payout payout' same
    · exact absurd same ((paid u new' payout').2.2 t old payout)
    · exact absurd same.symm ((paid t new payout).2.2 u old' payout')
    · exact (paid t new payout).2.1 u new' payout' same

theorem Filed.extendUnpaid (filed : Filed db) (items : V.items = db.items)
    (batches : V.batches = db.batches)
    (unpaid : ∀ t ∈ ts, t.transactionType ≠ .hostPayout) : Filed V := by
  refine filed.extend entries fresh belongs transactions posted holds released ?_ ?_
    fun t member payout => absurd payout (unpaid t member)
  · intro b member done
    rw [batches]
    exact ⟨b, member, rfl, done⟩
  · intro b _
    rw [itemSum, itemsOf, items]
    rfl

end

section

variable {now : Time} {hs : List HostCreditHold} {xs : List PayoutItem} {bs : List PayoutBatch}

section

variable (wrote : Wrote ws₀ db₀ now hs xs bs ts none as es ws db)
include wrote

theorem Wrote.transactions_rows :
    (schema.overlay db ws).transactions.rows = db.transactions.rows ++ ts.map (postedAs now) := by
  have drawn := wrote.drawn
  have fresh := wrote.fresh
  simp only [Option.toList_none, append_nil] at drawn fresh
  rw [overlay_transactions, wrote.transactions, Option.toList_none, append_nil]
  exact rows_putAll_fresh_changed drawn fresh fun _ => rfl

theorem Wrote.entries_rows : (schema.overlay db ws).entries.rows = db.entries.rows ++ es := by
  rw [overlay_entries, wrote.entries]
  exact rows_putAll_fresh wrote.entered wrote.new

theorem Wrote.fresh_posted : ∀ t ∈ ts.map (postedAs now), db.transactions.find? t.id = none := by
  intro t member
  obtain ⟨u, inside, rfl⟩ := mem_map.mp member
  exact wrote.fresh u (mem_append_left _ inside)

theorem Wrote.belongs_posted : ∀ e ∈ es, ∃ t ∈ ts.map (postedAs now), t.id = e.transactionID := by
  intro e member
  obtain ⟨u, inside, same⟩ := wrote.belongs e member
  rw [Option.toList_none, append_nil] at inside
  exact ⟨postedAs now u, mem_map_of_mem inside, same⟩

end

theorem posted_postedAs : ∀ t ∈ ts.map (postedAs now), t.status = .posted := by
  intro t member
  obtain ⟨u, -, rfl⟩ := mem_map.mp member
  rfl

theorem Wrote.holds_rows {credits : List HostCreditHold}
    (wrote : Wrote ws₀ db₀ now (credits ++ credits.flatMap fun h => [h, f h]) xs bs ts none as es
      ws db)
    (nodup : (credits.map HostCreditHold.id).Nodup)
    (known : ∀ h ∈ credits, db.holds.find? h.id = some h) (keep : ∀ h, (f h).id = h.id) :
    (schema.overlay db ws).holds.rows =
      db.holds.rows.map fun h => if h.id ∈ credits.map HostCreditHold.id then f h else h := by
  rw [overlay_holds, wrote.holds, putAll_append, putAll_self known]
  exact rows_putAll_changed nodup known keep

end

/-! ### Releases -/

def available (h : HostCreditHold) : HostCreditHold := { h with state := .available }

def releases : (Nat → String) → List HostCreditHold → List LedgerTransaction
  | _, [] => []
  | ids, h :: rest =>
    ⟨ids 0, .hostCreditRelease, .draft, "host_credit_hold", h.id, none, none⟩ ::
      releases (fun n => ids (n + 5)) rest

theorem releases_refs (ids : Nat → String) (credits : List HostCreditHold) :
    (releases ids credits).map LedgerTransaction.referenceID = credits.map HostCreditHold.id := by
  induction credits generalizing ids with
  | nil => rfl
  | cons h rest ih => simp [releases, ih]

variable {credits : List HostCreditHold} {x : PayoutItem}

theorem releases_type (member : t ∈ releases ids credits) :
    t.transactionType = .hostCreditRelease := by
  induction credits generalizing ids with
  | nil => cases member
  | cons h rest ih =>
    rcases mem_cons.mp member with rfl | later
    · rfl
    · exact ih later

theorem Batched.alone (batched : Batched db) (member : h ∈ db.holds.rows)
    (state : h.state = .pending ∨ h.state = .available) : h.payoutBatchID = none := by
  cases batch : h.payoutBatchID with
  | none => rfl
  | some id =>
    obtain ⟨b, -, -, same, -⟩ := batched.taken h member id batch
    rw [same] at state
    cases status : b.status <;> rw [status] at state <;> simp [ofHolds] at state

theorem Batched.item_status (batched : Batched db)
    (found : db.batches.find? b.id = some b) (member : x ∈ db.items.rows)
    (ofBatch : x.payoutBatchID = b.id) : x.status = b.status.ofItems := by
  obtain ⟨r, there, key, status⟩ := batched.status x member
  have same : r = b := eq_of_key there (mem_of_find? found) (key.trans ofBatch)
  exact same ▸ status

theorem Batched.hold_state (batched : Batched db)
    (found : db.batches.find? b.id = some b) (member : h ∈ db.holds.rows)
    (ofBatch : h.payoutBatchID = some b.id) : h.state = b.status.ofHolds := by
  obtain ⟨r, there, key, state, -⟩ := batched.taken h member b.id ofBatch
  have same : r = b := eq_of_key there (mem_of_find? found) key
  exact same ▸ state

theorem one_item (unique : schema.Unique db) {y : PayoutItem} (memberX : x ∈ db.items.rows)
    (memberY : y ∈ db.items.rows) (liveX : x.status ≠ .void) (liveY : y.status ≠ .void)
    (same : x.creditHoldID = y.creditHoldID) : x = y := by
    have found : ∀ z ∈ db.items.rows, schema.get db ⟨.items, z.id⟩ = some (.item z) := by
      intro z member
      change (db.items.find? z.id).map Row.item = _
      rw [find?_of_mem member]
      rfl
    have indexed : ∀ z : PayoutItem, z.status ≠ .void →
        Index.oneCreditHold z.creditHoldID ∈ schema.index (.item z) := by
      intro z live
      change _ ∈ Row.index (.item z)
      simp [Row.index, live]
    have keys := unique (found x memberX) (found y memberY) (indexed x liveX)
      (same ▸ indexed y liveY)
    exact eq_of_key memberX memberY (congrArg Key.id keys)

theorem credit_of_id (known : ∀ h ∈ credits, db.holds.find? h.id = some h)
    (member : h ∈ db.holds.rows) (inside : h.id ∈ credits.map HostCreditHold.id) : h ∈ credits := by
  obtain ⟨c, chosen, same⟩ := mem_map.mp inside
  have equal : c = h := eq_of_key (mem_of_find? (known c chosen)) member same
  exact equal ▸ chosen

theorem Batched.outside (batched : Batched db) (items : V.items = db.items)
    (batches : V.batches = db.batches)
    (kept : ∀ h ∈ db.holds.rows, ∀ id, h.payoutBatchID = some id → h ∈ V.holds.rows)
    (others : ∀ h ∈ V.holds.rows, h ∈ db.holds.rows ∨
      h.payoutBatchID = none ∧ (h.state = .pending ∨ h.state = .available)) : Batched V where
  status := by
    rw [items, batches]
    exact batched.status
  backed x member live := by
    rw [items] at member
    obtain ⟨h, inside, key, batch, facts⟩ := batched.backed x member live
    exact ⟨h, kept h inside _ batch, key, batch, facts⟩
  free h member none := by
    rcases others h member with old | new
    · exact batched.free h old none
    · exact new.2
  taken h member id batch := by
    rw [items, batches]
    rcases others h member with old | new
    · exact batched.taken h old id batch
    · cases new.1.symm.trans batch
  total b member := by
    rw [batches] at member
    rw [itemSum, itemsOf, items]
    exact batched.total b member
  positive := by
    rw [items]
    exact batched.positive

theorem keeps_release {now : Time}
    (wrote : Wrote ws₀ db₀ now (credits ++ credits.flatMap fun h => [h, available h]) [] []
      (releases ids credits) none as es ws db) (nodup : (credits.map HostCreditHold.id).Nodup)
    (known : ∀ h ∈ credits, db.holds.find? h.id = some h)
    (due : ∀ h ∈ credits, h.state = .pending ∧ h.availableAt ≤ now) : Keeps ws db := by
  have rows := wrote.holds_rows nodup known fun _ => rfl
  have items : (schema.overlay db ws).items = db.items := by
    rw [overlay_items, wrote.items, putAll_nil]
  have batches : (schema.overlay db ws).batches = db.batches := by
    rw [overlay_batches, wrote.batches, putAll_nil]
  -- a hold that is released was pending, and so in no batch
  have alone : Sound db → ∀ h ∈ db.holds.rows, h.id ∈ credits.map HostCreditHold.id →
      h.payoutBatchID = none := fun sound h member inside =>
    sound.batched.alone member (.inl (due h (credit_of_id known member inside)).1)
  refine ⟨fun sound => ⟨sound.batched.outside items batches ?_ ?_, ?_⟩, fun id _ sound => ⟨?_, ?_⟩⟩
  · intro h member id batch
    rw [rows]
    refine mem_map.mpr ⟨h, member, if_neg fun chosen => ?_⟩
    cases (alone sound h member chosen).symm.trans batch
  · rw [rows]
    intro h' member
    obtain ⟨h, inside, rfl⟩ := mem_map.mp member
    split
    next chosen => exact .inr ⟨alone sound h inside chosen, .inr rfl⟩
    · exact .inl inside
  · refine sound.filed.extendUnpaid wrote.entries_rows wrote.fresh_posted wrote.belongs_posted
      wrote.transactions_rows posted_postedAs ?_ ?_ items batches ?_
    · intro h member
      rw [rows]
      refine ⟨_, mem_map_of_mem member, ?_⟩
      split
      · exact ⟨rfl, rfl, fun _ => by simp [available]⟩
      · exact ⟨rfl, rfl, id⟩
    · intro t member _
      obtain ⟨u, inside, rfl⟩ := mem_map.mp member
      have named : u.referenceID ∈ credits.map HostCreditHold.id := by
        rw [← releases_refs ids credits]
        exact mem_map_of_mem inside
      obtain ⟨h, chosen, same⟩ := mem_map.mp named
      have present := mem_of_find? (known h chosen)
      refine ⟨⟨available h, ?_, same, by simp [available], now, rfl, (due h chosen).2⟩, ?_, ?_⟩
      · rw [rows]
        refine mem_map.mpr ⟨h, present, ?_⟩
        rw [if_pos (mem_map_of_mem chosen)]
      · intro v member' _ equal
        obtain ⟨w, inside', rfl⟩ := mem_map.mp member'
        have refs : ((releases ids credits).map LedgerTransaction.referenceID).Nodup := by
          rw [releases_refs]
          exact nodup
        rw [inj_on_of_nodup_map refs inside inside' equal]
      · -- a hold that has been released before is no longer pending
        intro v old release equal
        obtain ⟨h', inside', key, past, -⟩ := sound.filed.released v old release
        have same' : h' = h := eq_of_key inside' present
          (key.trans (equal.trans same.symm))
        exact past (same' ▸ (due h chosen).1)
    · intro t member payout
      obtain ⟨u, inside, rfl⟩ := mem_map.mp member
      cases (releases_type inside).symm.trans payout
  · rw [itemsOf, items]
    rfl
  · rw [holdsOf, rows]
    refine filter_map_fix fun h member => ?_
    split
    next chosen =>
      have none := alone sound h member chosen
      simp [available, none]
    · exact ⟨rfl, fun _ => rfl⟩

/-! ### Reservations -/

def reserve (batchID : String) (h : HostCreditHold) : HostCreditHold :=
  { h with state := .payoutPending, payoutBatchID := some batchID }

def reservations (batchID : String) : (Nat → String) → List HostCreditHold → List PayoutItem
  | _, [] => []
  | ids, h :: rest =>
    ⟨ids 0, batchID, h.nodeID, h.id, h.amountMicrodollars, h.nodeID, .pending,
      defaultPayoutMemoPrefix ++ " " ++ batchID, none⟩ ::
      reservations batchID (fun n => ids (n + 1)) rest

theorem reservations_amounts (batchID : String) (ids : Nat → String) (credits : List HostCreditHold)
    : (reservations batchID ids credits).map PayoutItem.amountMicrodollars =
      credits.map HostCreditHold.amountMicrodollars := by
  induction credits generalizing ids with
  | nil => rfl
  | cons h rest ih => simp [reservations, ih]

theorem mem_reservations {batchID : String} (member : x ∈ reservations batchID ids credits) :
    x.payoutBatchID = batchID ∧ x.status = .pending ∧ ∃ h ∈ credits, x.creditHoldID = h.id ∧
      x.hostNodeID = h.nodeID ∧ x.amountMicrodollars = h.amountMicrodollars := by
  induction credits generalizing ids with
  | nil => cases member
  | cons h rest ih =>
    rcases mem_cons.mp member with rfl | later
    · exact ⟨rfl, rfl, h, mem_cons_self, rfl, rfl, rfl⟩
    · obtain ⟨batch, status, c, inside, facts⟩ := ih later
      exact ⟨batch, status, c, mem_cons_of_mem _ inside, facts⟩

theorem reservation_of_mem (batchID : String) (ids : Nat → String) (member : h ∈ credits) :
    ∃ x ∈ reservations batchID ids credits, x.creditHoldID = h.id := by
  induction credits generalizing ids with
  | nil => cases member
  | cons c rest ih =>
    rcases mem_cons.mp member with rfl | later
    · exact ⟨_, mem_cons_self, rfl⟩
    · obtain ⟨x, inside, same⟩ := ih _ later
      exact ⟨x, mem_cons_of_mem _ inside, same⟩

def totalled (credits : List HostCreditHold) (b : PayoutBatch) : PayoutBatch :=
  { b with totalMicrodollars := sum64 (credits.map HostCreditHold.amountMicrodollars) }

section

variable {credits : List HostCreditHold}

/-- What becomes of the database when available holds are taken into a new batch. -/
structure Takes (db V : Db) (b : PayoutBatch) (ids : Nat → String)
    (credits : List HostCreditHold) : Prop where
  draft : b.status = .draft
  fresh : db.batches.find? b.id = none
  known : ∀ h ∈ credits, db.holds.find? h.id = some h
  payable : ∀ h ∈ credits, h.state = .available ∧ 0 < h.amountMicrodollars
  holds : V.holds.rows = db.holds.rows.map fun h =>
    if h.id ∈ credits.map HostCreditHold.id then reserve b.id h else h
  items : V.items.rows = db.items.rows ++ reservations b.id ids credits
  batches : V.batches.rows = db.batches.rows ++ [totalled credits b]

section

variable (takes : Takes db V b ids credits)
include takes

theorem Takes.alone (batched : Batched db) (member : h ∈ db.holds.rows)
    (inside : h.id ∈ credits.map HostCreditHold.id) : h.payoutBatchID = none :=
  batched.alone member (.inr (takes.payable h (credit_of_id takes.known member inside)).1)

theorem Takes.other_batch (member : r ∈ db.batches.rows) : r.id ≠ b.id := by
  intro same
  have found := find?_of_mem member
  rw [same, takes.fresh] at found
  cases found

theorem Takes.itemsOf_other (other : id ≠ b.id) : itemsOf V id = itemsOf db id := by
  rw [itemsOf, takes.items, filter_append]
  have none : (reservations b.id ids credits).filter (fun x => x.payoutBatchID = id) = [] := by
    refine filter_eq_nil_iff.mpr fun x member same => ?_
    exact other ((of_decide_eq_true same).symm.trans (mem_reservations member).1)
  rw [none, append_nil]
  rfl

theorem Takes.itemsOf_batch (batched : Batched db) :
    itemsOf V b.id = reservations b.id ids credits := by
  have none : db.items.rows.filter (fun x => x.payoutBatchID = b.id) = [] := by
    refine filter_eq_nil_iff.mpr fun x member same => ?_
    obtain ⟨r, inside, key, -⟩ := batched.status x member
    exact takes.other_batch inside (key.trans (of_decide_eq_true same))
  have mine : (reservations b.id ids credits).filter (fun x => x.payoutBatchID = b.id) =
      reservations b.id ids credits :=
    filter_eq_self.mpr fun x member => decide_eq_true (mem_reservations member).1
  rw [itemsOf, takes.items, filter_append, none, mine, nil_append]

theorem Takes.batched (batched : Batched db) : Batched V where
  status x member := by
    rw [takes.items] at member
    rw [takes.batches]
    rcases mem_append.mp member with old | new
    · obtain ⟨r, inside, facts⟩ := batched.status x old
      exact ⟨r, mem_append_left _ inside, facts⟩
    · obtain ⟨batch, status, -⟩ := mem_reservations new
      refine ⟨_, mem_concat_self, batch.symm, ?_⟩
      simp [status, totalled, takes.draft, ofItems]
  backed x member live := by
    rw [takes.items] at member
    rw [takes.holds]
    rcases mem_append.mp member with old | new
    · obtain ⟨h, inside, key, batch, facts⟩ := batched.backed x old live
      refine ⟨h, mem_map.mpr ⟨h, inside, if_neg fun chosen => ?_⟩, key, batch, facts⟩
      cases (takes.alone batched inside chosen).symm.trans batch
    · obtain ⟨batch, -, h, inside, key, node, amount⟩ := mem_reservations new
      refine ⟨reserve b.id h, mem_map.mpr ⟨h, mem_of_find? (takes.known h inside),
        if_pos (mem_map_of_mem inside)⟩, key.symm, ?_, node.symm, amount.symm⟩
      rw [batch]
      rfl
  free h' member none := by
    rw [takes.holds] at member
    obtain ⟨h, inside, rfl⟩ := mem_map.mp member
    by_cases chosen : h.id ∈ credits.map HostCreditHold.id
    · rw [if_pos chosen] at none
      cases none
    · rw [if_neg chosen] at none ⊢
      exact batched.free h inside none
  taken h' member id batch := by
    rw [takes.holds] at member
    rw [takes.items, takes.batches]
    obtain ⟨h, inside, rfl⟩ := mem_map.mp member
    by_cases chosen : h.id ∈ credits.map HostCreditHold.id
    · rw [if_pos chosen] at batch ⊢
      cases batch
      refine ⟨_, mem_concat_self, rfl, ?_, fun _ => ?_⟩
      · simp [reserve, totalled, takes.draft, ofHolds]
      · obtain ⟨x, there, same⟩ :=
          reservation_of_mem b.id ids (credit_of_id takes.known inside chosen)
        exact ⟨x, mem_append_right _ there, (mem_reservations there).1, same⟩
    · rw [if_neg chosen] at batch ⊢
      obtain ⟨r, there, key, state, item⟩ := batched.taken h inside id batch
      refine ⟨r, mem_append_left _ there, key, state, fun live => ?_⟩
      obtain ⟨x, inItems, facts⟩ := item live
      exact ⟨x, mem_append_left _ inItems, facts⟩
  total r member := by
    rw [takes.batches] at member
    rcases mem_append.mp member with old | new
    · rw [itemSum, takes.itemsOf_other (takes.other_batch old)]
      exact batched.total r old
    · rw [mem_singleton.mp new]
      change _ = wrap64 (itemSum V b.id)
      rw [itemSum, takes.itemsOf_batch batched, reservations_amounts]
      exact sum64_eq _
  positive x member := by
    rw [takes.items] at member
    rcases mem_append.mp member with old | new
    · exact batched.positive x old
    · obtain ⟨-, -, h, inside, -, -, amount⟩ := mem_reservations new
      rw [amount]
      exact (takes.payable h inside).2

theorem Takes.filed (filed : Filed db)
    (transactions : V.transactions.rows = db.transactions.rows ++ [])
    (entries : V.entries.rows = db.entries.rows ++ []) : Filed V := by
  refine filed.extend entries (by simp) (by simp) transactions (by simp) ?_ (by simp) ?_ ?_ (by simp)
  · intro h member
    rw [takes.holds]
    refine ⟨_, mem_map_of_mem member, ?_⟩
    split
    · exact ⟨rfl, rfl, fun _ => by simp [reserve]⟩
    · exact ⟨rfl, rfl, id⟩
  · intro r member done
    rw [takes.batches]
    exact ⟨r, mem_append_left _ member, rfl, done⟩
  · intro r member
    rw [itemSum, takes.itemsOf_other (takes.other_batch member)]
    rfl

end

theorem keeps_reserve {now : Time}
    (wrote : Wrote ws₀ db₀ now (credits ++ credits.flatMap fun h => [h, reserve b.id h])
      (reservations b.id ids credits) ([b] ++ [b].flatMap fun r => [r, totalled credits r])
      [] none [] [] ws db) (takes : Takes db (schema.overlay db ws) b ids credits) :
    Keeps ws db := by
  refine ⟨fun sound => ⟨takes.batched sound.batched,
    takes.filed sound.filed wrote.transactions_rows wrote.entries_rows⟩,
    fun id unlocked sound => ?_⟩
  have other : id ≠ b.id := by
    rintro rfl
    exact unlocked b (by rw [wrote.batches]; simp) rfl
  refine ⟨takes.itemsOf_other other, ?_⟩
  rw [holdsOf, takes.holds]
  refine filter_map_fix fun h member => ?_
  split
  next chosen =>
    have none := takes.alone sound.batched member chosen
    simp [reserve, none, Ne.symm other]
  · exact ⟨rfl, fun _ => rfl⟩

theorem Wrote.takes {now : Time} (draft : b.status = .draft)
    (wrote : Wrote ws₀ db₀ now (credits ++ credits.flatMap fun h => [h, reserve b.id h])
      (reservations b.id ids credits) ([b] ++ [b].flatMap fun r => [r, totalled credits r])
      [] none [] [] ws db) (nodup : (credits.map HostCreditHold.id).Nodup)
    (known : ∀ h ∈ credits, db.holds.find? h.id = some h)
    (payable : ∀ h ∈ credits, h.state = .available ∧ 0 < h.amountMicrodollars)
    (fresh : db.batches.find? b.id = none)
    (drawn : ((reservations b.id ids credits).map PayoutItem.id).Nodup)
    (new : ∀ x ∈ reservations b.id ids credits, db.items.find? x.id = none) :
    Takes db (schema.overlay db ws) b ids credits where
  draft := draft
  fresh := fresh
  known := known
  payable := payable
  holds := wrote.holds_rows nodup known fun _ => rfl
  items := by
    rw [overlay_items, wrote.items]
    exact rows_putAll_fresh drawn new
  batches := by
    rw [overlay_batches, wrote.batches]
    -- the batch is written once more as it is before it gets its total
    have locked : (db.batches.put b).put b = db.batches.put b :=
      put_self (find?_put_self _ _)
    have single : ([b].map PayoutBatch.id).Nodup := by simp
    have rows := rows_putAll_fresh_changed (t := db.batches) (f := totalled credits) single
      (by simpa using fresh) fun _ => rfl
    rw [flatMap_singleton] at rows ⊢
    rw [singleton_append, putAll_cons, putAll_cons, locked, ← putAll_cons]
    exact rows

end

/-! ### A batch turns -/

section

variable {s : BatchStatus} {turn : PayoutBatch → PayoutBatch} {k : PayoutItem → PayoutItem}

/-- What becomes of a batch, its items and its holds when it goes to a status. -/
structure Turns (db V : Db) (b : PayoutBatch) (s : BatchStatus) (turn : PayoutBatch → PayoutBatch)
    (k : PayoutItem → PayoutItem) (f : HostCreditHold → HostCreditHold) : Prop where
  found : db.batches.find? b.id = some b
  live : b.status ≠ .void
  -- a paid batch has its payout on record, and that stays
  forward : b.status = .paid → s = .paid ∨ s = .void
  batches : V.batches.rows = db.batches.rows.map fun r => if r.id = b.id then turn r else r
  items : V.items.rows = db.items.rows.map fun x => if x.payoutBatchID = b.id then k x else x
  holds : V.holds.rows = db.holds.rows.map fun h => if h.payoutBatchID = some b.id then f h else h
  turned : ∀ r, (turn r).id = r.id ∧ (turn r).totalMicrodollars = r.totalMicrodollars ∧
    (turn r).status = s
  kept : ∀ x, (k x).payoutBatchID = x.payoutBatchID ∧ (k x).creditHoldID = x.creditHoldID ∧
    (k x).hostNodeID = x.hostNodeID ∧ (k x).amountMicrodollars = x.amountMicrodollars ∧
    (k x).status = s.ofItems
  moved : (∀ h, f h = { h with state := s.ofHolds }) ∨
    s = .void ∧ ∀ h, f h = { h with state := .available, payoutBatchID := none }

section

variable (turns : Turns db V b s turn k f)
include turns

theorem Turns.itemSum (id : String) : itemSum V id = itemSum db id := by
  rw [Payouts.itemSum, Payouts.itemSum, itemsOf, itemsOf, turns.items, filter_map,
    map_map]
  have same : ((fun x : PayoutItem => decide (x.payoutBatchID = id)) ∘
      fun x => if x.payoutBatchID = b.id then k x else x) =
      fun x => decide (x.payoutBatchID = id) := by
    funext x
    simp only [Function.comp_apply]
    split
    · rw [(turns.kept x).1]
    · rfl
  rw [same]
  congr 1
  refine map_congr_left fun x _ => ?_
  simp only [Function.comp_apply]
  split
  · exact (turns.kept x).2.2.2.1
  · rfl

theorem Turns.others (other : id ≠ b.id) :
    itemsOf V id = itemsOf db id ∧ holdsOf V id = holdsOf db id := by
  constructor
  · rw [itemsOf, turns.items]
    refine filter_map_fix fun x _ => ?_
    split
    next here =>
      rw [(turns.kept x).1, here]
      simp [Ne.symm other]
    · exact ⟨rfl, fun _ => rfl⟩
  · rw [holdsOf, turns.holds]
    refine filter_map_fix fun h _ => ?_
    split
    next here =>
      rcases turns.moved with goes | ⟨-, goes⟩
      · simp [goes, here, Ne.symm other]
      · simp [goes, here, Ne.symm other]
    · exact ⟨rfl, fun _ => rfl⟩

theorem Turns.batch (member : r ∈ db.batches.rows) : ∃ r' ∈ V.batches.rows, r'.id = r.id ∧
      r'.totalMicrodollars = r.totalMicrodollars ∧
      (r.id = b.id → r'.status = s) ∧ (r.id ≠ b.id → r' = r) := by
  refine ⟨_, turns.batches ▸ mem_map_of_mem member, ?_⟩
  by_cases here : r.id = b.id
  · rw [if_pos here]
    exact ⟨(turns.turned r).1, (turns.turned r).2.1, fun _ => (turns.turned r).2.2, absurd here⟩
  · rw [if_neg here]
    exact ⟨rfl, rfl, fun same => absurd same here, fun _ => rfl⟩

theorem Turns.batched (batched : Batched db) : Batched V where
  status x' member := by
    rw [turns.items] at member
    obtain ⟨x, inside, rfl⟩ := mem_map.mp member
    obtain ⟨r, there, key, status⟩ := batched.status x inside
    obtain ⟨r', there', key', -, mine, theirs⟩ := turns.batch there
    refine ⟨r', there', ?_⟩
    by_cases here : x.payoutBatchID = b.id
    · rw [if_pos here, (turns.kept x).1, (turns.kept x).2.2.2.2, mine (key.trans here)]
      exact ⟨key'.trans key, rfl⟩
    · rw [if_neg here, theirs fun same => here (key.symm.trans same)]
      exact ⟨key, status⟩
  backed x' member live := by
    rw [turns.items] at member
    obtain ⟨x, inside, rfl⟩ := mem_map.mp member
    rw [turns.holds]
    by_cases here : x.payoutBatchID = b.id
    · rw [if_pos here] at live ⊢
      obtain ⟨batch, hold, node, amount, status⟩ := turns.kept x
      have before : x.status ≠ .void := by
        obtain ⟨r, there, key, status⟩ := batched.status x inside
        have same : r = b := eq_of_key there (mem_of_find? turns.found) (key.trans here)
        rw [status, same]
        have live := turns.live
        cases old : b.status <;> simp_all [ofItems]
      obtain ⟨h, there, key, taken, node', amount'⟩ := batched.backed x inside before
      refine ⟨f h, mem_map.mpr ⟨h, there, if_pos (taken.trans (congrArg some here))⟩, ?_⟩
      rcases turns.moved with goes | ⟨void, -⟩
      · rw [goes, batch, hold, node, amount]
        exact ⟨key, taken, node', amount'⟩
      · rw [status, void] at live
        exact absurd rfl live
    · rw [if_neg here] at live ⊢
      obtain ⟨h, there, key, taken, facts⟩ := batched.backed x inside live
      refine ⟨h, mem_map.mpr ⟨h, there, if_neg fun same => ?_⟩, key, taken, facts⟩
      exact here (Option.some.inj (taken.symm.trans same))
  free h' member none := by
    rw [turns.holds] at member
    obtain ⟨h, inside, rfl⟩ := mem_map.mp member
    by_cases here : h.payoutBatchID = some b.id
    · rw [if_pos here] at none ⊢
      rcases turns.moved with goes | ⟨-, goes⟩
      · rw [goes] at none
        cases here.symm.trans none
      · rw [goes]
        exact .inr rfl
    · rw [if_neg here] at none ⊢
      exact batched.free h inside none
  taken h' member id batch := by
    rw [turns.holds] at member
    obtain ⟨h, inside, rfl⟩ := mem_map.mp member
    by_cases here : h.payoutBatchID = some b.id
    · rw [if_pos here] at batch ⊢
      rcases turns.moved with goes | ⟨-, goes⟩
      · rw [goes] at batch ⊢
        cases here.symm.trans batch
        obtain ⟨r, there, key, -, item⟩ := batched.taken h inside b.id here
        obtain ⟨r', there', key', -, mine, -⟩ := turns.batch there
        refine ⟨r', there', key'.trans key, by rw [mine key], fun _ => ?_⟩
        have same : r = b := eq_of_key there (mem_of_find? turns.found) key
        obtain ⟨x, inItems, ofBatch, ofHold⟩ := item (same ▸ turns.live)
        refine ⟨k x, turns.items ▸ mem_map.mpr ⟨x, inItems, if_pos ofBatch⟩, ?_⟩
        rw [(turns.kept x).1, (turns.kept x).2.1]
        exact ⟨ofBatch, ofHold⟩
      · rw [goes] at batch
        cases batch
    · rw [if_neg here] at batch ⊢
      obtain ⟨r, there, key, state, item⟩ := batched.taken h inside id batch
      have other : r.id ≠ b.id := fun same => here (batch.trans
        (congrArg some (key.symm.trans same)))
      obtain ⟨r', there', -, -, -, theirs⟩ := turns.batch there
      rw [theirs other] at there'
      refine ⟨r, there', key, state, fun live => ?_⟩
      obtain ⟨x, inItems, ofBatch, ofHold⟩ := item live
      refine ⟨x, turns.items ▸ mem_map.mpr ⟨x, inItems, if_neg fun same => ?_⟩, ofBatch,
        ofHold⟩
      exact other (key.trans (ofBatch.symm.trans same))
  total r' member := by
    rw [turns.itemSum]
    rw [turns.batches] at member
    obtain ⟨r, inside, rfl⟩ := mem_map.mp member
    split
    · rw [(turns.turned r).1, (turns.turned r).2.1]
      exact batched.total r inside
    · exact batched.total r inside
  positive x' member := by
    rw [turns.items] at member
    obtain ⟨x, inside, rfl⟩ := mem_map.mp member
    split
    · rw [(turns.kept x).2.2.2.1]
      exact batched.positive x inside
    · exact batched.positive x inside

theorem Turns.filed (sound : Sound db)
    (transactions : V.transactions.rows = db.transactions.rows ++ ts)
    (entries : V.entries.rows = db.entries.rows ++ es)
    (fresh : ∀ t ∈ ts, db.transactions.find? t.id = none) (posted : ∀ t ∈ ts, t.status = .posted)
    (belongs : ∀ e ∈ es, ∃ t ∈ ts, t.id = e.transactionID)
    (noRelease : ∀ t ∈ ts, t.transactionType ≠ .hostCreditRelease)
    (payout : ∀ t ∈ ts, t.transactionType = .hostPayout → t.referenceID = b.id ∧ ts = [t] ∧
      b.status = .exported ∧ s = .paid ∧ debits V t.id = Payouts.itemSum db b.id) : Filed V := by
  refine sound.filed.extend entries fresh belongs transactions posted ?_
    (fun t member release => absurd release (noRelease t member)) ?_ ?_ ?_
  · intro h member
    rw [turns.holds]
    refine ⟨_, mem_map_of_mem member, ?_⟩
    split
    · rcases turns.moved with goes | ⟨-, goes⟩
      · rw [goes]
        exact ⟨rfl, rfl, fun _ => by cases s <;> simp [ofHolds]⟩
      · rw [goes]
        exact ⟨rfl, rfl, fun _ => by simp⟩
    · exact ⟨rfl, rfl, id⟩
  · intro r member done
    obtain ⟨r', there, key, -, mine, theirs⟩ := turns.batch member
    refine ⟨r', there, key, ?_⟩
    by_cases here : r.id = b.id
    · have same : r = b := eq_of_key member (mem_of_find? turns.found) here
      rw [mine here]
      exact turns.forward ((same ▸ done).resolve_right turns.live)
    · rw [theirs here]
      exact done
  · exact fun r _ => turns.itemSum r.id
  · intro t member isPayout
    obtain ⟨ref, single, exported, paid, sum⟩ := payout t member isPayout
    have inside := mem_of_find? turns.found
    obtain ⟨r', there, key, -, mine, -⟩ := turns.batch inside
    refine ⟨⟨r', there, key.trans ref.symm, .inl ((mine rfl).trans paid), ?_⟩, ?_, ?_⟩
    · rw [key, turns.itemSum]
      exact sum
    · intro u member' _ _
      rw [single, mem_singleton] at member'
      exact member'.symm
    · -- a batch with a payout on record is paid or void, and this one is exported
      intro u old isPayout' same
      obtain ⟨r, there', key', done, -⟩ := sound.filed.paid u old isPayout'
      have equal : r = b := eq_of_key there' inside (key'.trans (same.trans ref))
      rw [equal, exported] at done
      simp at done

end

end

end Payouts

end Thirdshift
