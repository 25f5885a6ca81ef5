import Thirdshift.Ledger.CreditBooks

/-!
# Payout calls under interleaving

Statement by statement, what each call of the payout side has written, whatever is committed between
its statements. A batch that is locked keeps its items and holds, and a hold that is locked keeps
its state, so what a call has read is still so when it commits.
-/

namespace Thirdshift

open Foundation Foundation.ReadCommitted List Table Tx Row PayoutItem BatchStatus

namespace Payouts

open Ledger

variable {ws : List (Write Row)} {db : Db} {xs : List PayoutItem} {b : PayoutBatch}
  {t : LedgerTransaction} {legs : List Leg} {ids : Nat → String} {batchID id memo : String}
  {amount : Int} {f : HostCreditHold → HostCreditHold} {h : HostCreditHold}

variable {ws₀ : List (Write Row)} {db₀ : Db} {now : Time} {hs credits done : List HostCreditHold}
  {bs : List PayoutBatch}
  {ts : List LedgerTransaction} {draft : Option LedgerTransaction} {as : List LedgerAccount}
  {es : List LedgerEntry}

theorem left_of_both {p q : Prop} [Decidable p] [Decidable q]
    (both : (decide p && decide q) = true) : p := (by simpa using both : p ∧ q).1

theorem filter_of_imp {α : Type} {p q : α → Bool} (of : ∀ x, p x = true → q x = true) (l : List α) :
    (l.filter q).filter p = l.filter p := by
  rw [filter_filter]
  refine filter_congr fun x _ => ?_
  cases chosen : p x with
  | false => rfl
  | true => exact of x chosen

theorem ne_of_split {α : Type} {key : α → String} {l done rest : List α} {x : α}
    (nodup : (l.map key).Nodup) (split : l = done ++ x :: rest) : ∀ d ∈ done, key d ≠ key x := by
  intro d member
  rw [split, map_append, nodup_append] at nodup
  exact nodup.2.2 (key d) (mem_map_of_mem member) (key x) (by simp)

/-! ### Statements -/

section

theorem guarded_require {c : Prop} [Decidable c] {e : GoError}
    (wrote : Wrote ws₀ db₀ now hs xs bs ts draft as es ws db) : (require c e).Guarded schema rely
      (fun ws' db' _ => c ∧ Wrote ws₀ db₀ now hs xs bs ts draft as es ws' db') ws db := by
  unfold require
  split
  next holds => exact fun later allowed => ⟨holds, wrote.stable allowed⟩
  · trivial

theorem guarded_insertTransaction (wrote : Wrote ws₀ db₀ now hs xs bs ts none as es ws db)
    (t : LedgerTransaction) : (insertRow (.transaction t)).Guarded schema rely
      (fun ws' db' _ => Wrote ws₀ db₀ now hs xs bs ts (some t) as es ws' db') ws db := by
  intro later allowed new seen ok admitted
  cases ok
  exact fun last allowed' => ((wrote.stable allowed).insertTransaction admitted).stable allowed'

theorem guarded_ensureAccount (wrote : Wrote ws₀ db₀ now hs xs bs ts draft as es ws db)
    {ownerType : AccountOwner} {ownerID accountType : String} :
    (ensureAccount id ownerType ownerID accountType).Guarded schema rely
      (fun ws' db' account => ∃ a, a = ⟨account, ownerType, ownerID, accountType⟩ ∧
      Wrote ws₀ db₀ now hs xs bs ts draft (as ++ [a]) es ws' db') ws db := by
  intro later allowed new seen ok admitted
  cases ok
  intro last allowed'
  have here := wrote.stable allowed
  cases found : findAccount (schema.overlay later ws) ownerType ownerID accountType with
  | some a =>
    simp only [found] at admitted allowed' ⊢
    have member := mem_of_find?_eq_some found
    have owned := find?_some found
    simp only [decide_eq_true_eq] at owned
    refine ⟨a, ?_, (here.writeAccount rfl (.inr (find?_of_mem member))).stable allowed'⟩
    obtain ⟨rfl, rfl, rfl⟩ := owned
    rfl
  | none =>
    simp only [found] at admitted allowed' ⊢
    have unseen := Option.map_eq_none_iff.mp (absent_of_insert admitted)
    exact ⟨_, rfl, (here.writeAccount rfl (.inl unseen)).stable allowed'⟩

theorem guarded_insertEntry (wrote : Wrote ws₀ db₀ now hs xs bs ts (some t) as es ws db)
    {accountID : String} : (insertEntry id t.id accountID amount memo).Guarded schema rely
      (fun ws' db' _ => Wrote ws₀ db₀ now hs xs bs ts (some t)
        as (es ++ [⟨id, t.id, accountID, amount, memo⟩]) ws' db') ws db := by
  intro later allowed new seen ok admitted
  cases ok
  exact fun last allowed' => ((wrote.stable allowed).insertEntry rfl admitted).stable allowed'

theorem guarded_leg (on : Legs as es legs)
    (wrote : Wrote ws₀ db₀ now hs xs bs ts (some t) as es ws db) (a : LedgerAccount)
    (member : a ∈ as) : (insertEntry id t.id a.id amount memo).Guarded schema rely
      (fun ws' db' _ => ∃ es',
        Legs as es' (legs ++ [((a.ownerType, a.ownerID, a.accountType), amount)]) ∧
        Wrote ws₀ db₀ now hs xs bs ts (some t) as es' ws' db') ws db :=
  (guarded_insertEntry wrote).mono fun _ _ _ last => ⟨_, on.entry member rfl, last⟩

theorem guarded_markPosted (wrote : Wrote ws₀ db₀ now hs xs bs ts (some t) as es ws db) :
    (markPosted t.id now).Guarded schema rely
      (fun ws' db' _ => Wrote ws₀ db₀ now hs xs bs (ts ++ [t]) none as es ws' db') ws db := by
  intro later allowed new seen ok admitted
  cases ok
  exact fun last allowed' => ((wrote.stable allowed).markPosted).stable allowed'

/-! ### Rows of a batch that is locked -/

section

variable (lock : b ∈ rowsOf asBatch ws₀)

include lock

variable {p : PayoutItem → Bool}

section

variable (wrote : Wrote ws₀ db₀ now hs xs bs ts draft as es ws db)
include wrote

theorem Wrote.items_since (of : ∀ x, p x = true → x.payoutBatchID = b.id) :
    db.items.rows.filter p = db₀.items.rows.filter p := by
  have part := filter_of_imp fun x chosen => decide_eq_true (of x chosen)
  rw [← part db.items.rows, ← part db₀.items.rows]
  exact congrArg (List.filter p) (wrote.since.2.2 b lock).1

theorem Wrote.holds_since
    {p : HostCreditHold → Bool} (of : ∀ h, p h = true → h.payoutBatchID = some b.id) :
    db.holds.rows.filter p = db₀.holds.rows.filter p := by
  have part := filter_of_imp fun h chosen => decide_eq_true (of h chosen)
  rw [← part db.holds.rows, ← part db₀.holds.rows]
  exact congrArg (List.filter p) (wrote.since.2.2 b lock).2

end

theorem guarded_updateItems (wrote : Wrote ws₀ db₀ now hs [] bs ts draft as es ws db)
    {f : PayoutItem → PayoutItem} (of : ∀ x, p x = true → x.payoutBatchID = b.id)
    (keep : ∀ x, (f x).id = x.id) :
    (updateItems p f).Guarded schema rely (fun ws' db' _ => Wrote ws₀ db₀ now hs
      ((db₀.items.rows.filter p).flatMap fun x => [x, f x]) bs ts draft as es ws' db') ws db := by
  refine guarded_select fun db₁ allowed₁ => ?_
  have wrote₁ := wrote.stable allowed₁
  have view : ∀ db', rely.allows ws db₁ db' → (schema.overlay db' ws).items = db'.items := by
    intro db' allowed
    rw [overlay_items, (wrote₁.stable allowed).items, putAll_nil]
  rw [view db₁ (rely.refl _ _), wrote₁.items_since lock of]
  refine (guarded_updateEach_current
    findItem_put_other keep _
    (db₀.items.nodup.sublist (filter_sublist.map _))
    (fun x member => (mem_filter.mp member).2) ?_).mono ?_
  · intro db' allowed x member
    rw [findItem, view db' allowed]
    rw [← (wrote₁.stable allowed).items_since lock of] at member
    exact find?_of_mem (mem_of_mem_filter member)
  · rintro ws' db' u ⟨rfl, since⟩
    exact (wrote₁.stable since).changeItems _ f

theorem guarded_updateHolds (wrote : Wrote ws₀ db₀ now [] xs bs ts draft as es ws db)
    {p : HostCreditHold → Bool}
    (of : ∀ h, p h = true → h.payoutBatchID = some b.id) (keep : ∀ h, (f h).id = h.id) :
    (updateHolds p f).Guarded schema rely (fun ws' db' _ => Wrote ws₀ db₀ now
      ((db₀.holds.rows.filter p).flatMap fun h => [h, f h]) xs bs ts draft as es ws' db') ws db :=
        by
  refine guarded_select fun db₁ allowed₁ => ?_
  have wrote₁ := wrote.stable allowed₁
  have view : ∀ db', rely.allows ws db₁ db' → (schema.overlay db' ws).holds = db'.holds := by
    intro db' allowed
    rw [overlay_holds, (wrote₁.stable allowed).holds, putAll_nil]
  rw [view db₁ (rely.refl _ _), wrote₁.holds_since lock of]
  refine (guarded_updateEach_current
    findHold_put_other keep _
    (db₀.holds.nodup.sublist (filter_sublist.map _))
    (fun h member => (mem_filter.mp member).2) ?_).mono ?_
  · intro db' allowed h member
    rw [findHold, view db' allowed]
    rw [← (wrote₁.stable allowed).holds_since lock of] at member
    exact find?_of_mem (mem_of_mem_filter member)
  · rintro ws' db' u ⟨rfl, since⟩
    exact (wrote₁.stable since).changeHolds _ f

theorem guarded_exportedItems (wrote : Wrote ws₀ db₀ now hs [] bs ts draft as es ws db) :
    (Tx.select (exportedItems b.id)).Guarded schema rely (fun ws' db' items =>
      items = exportedItems b.id db₀ ∧ Wrote ws₀ db₀ now hs [] bs ts draft as es ws' db') ws db :=
        by
  intro db₁ allowed₁ new seen ok admitted
  cases ok
  rw [append_nil]
  intro db₂ allowed₂
  have wrote₁ := wrote.stable allowed₁
  refine ⟨?_, wrote₁.stable allowed₂⟩
  rw [exportedItems, overlay_items, wrote₁.items, putAll_nil]
  exact wrote₁.items_since lock fun x chosen => by simp_all

end

theorem guarded_updateBatch {f : PayoutBatch → PayoutBatch}
    (wrote : Wrote ws₀ db₀ now hs xs [b] ts draft as es ws db) (keep : ∀ r, (f r).id = r.id) :
    (updateBatch b.id f).Guarded schema rely (fun ws' db' _ => Wrote ws₀ db₀ now hs xs
      ([b] ++ [b].flatMap fun r => [r, f r]) ts draft as es ws' db' ∧
        rely.allows ws db db') ws db := by
  refine (guarded_updateEach_current findBatch_put_other keep [b]
    (by simp) (by simp) ?_).mono ?_
  · intro db' allowed r member
    rw [mem_singleton.mp member, findBatch, overlay_batches, (wrote.stable allowed).batches,
      putAll_cons, putAll_nil, find?_put_self]
  · rintro ws' db' u ⟨rfl, since⟩
    exact ⟨(wrote.stable since).changeBatches [b] f, since⟩

theorem Wrote.hold_found {credits : List HostCreditHold}
    (wrote : Wrote ws₀ db₀ now hs xs bs ts draft as es ws db)
    (locked : ∀ h ∈ credits, h ∈ rowsOf asHold ws₀)
    (known : ∀ h ∈ credits, db₀.holds.find? h.id = some h) :
    ∀ h ∈ credits, db.holds.find? h.id = some h := by
  intro h member
  rw [find?_hold_of_same wrote.since.2.1 (locked h member)]
  exact known h member

theorem guarded_updateHold {credits done : List HostCreditHold} (keep : ∀ h, (f h).id = h.id)
    (wrote : Wrote ws₀ db₀ now (credits ++ done.flatMap fun h => [h, f h]) xs bs ts draft as es
      ws db) (locked : ∀ h ∈ credits, h ∈ rowsOf asHold ws₀)
    (known : ∀ h ∈ credits, db₀.holds.find? h.id = some h) (member : h ∈ credits)
    (apart : ∀ d ∈ done, d.id ≠ h.id) :
    (updateHold h.id f).Guarded schema rely (fun ws' db' _ => Wrote ws₀ db₀ now
      (credits ++ (done ++ [h]).flatMap fun h => [h, f h]) xs bs ts draft as es ws' db' ∧
        rely.allows ws db db') ws db := by
  refine (guarded_updateEach_current findHold_put_other keep [h]
    (by simp) (by simp) ?_).mono ?_
  · intro db' allowed r single
    have wrote' := wrote.stable allowed
    have still := wrote'.hold_found locked known
    rw [mem_singleton.mp single, findHold, overlay_holds, wrote'.holds, putAll_append,
      putAll_self still, find?_putAll_other, still h member]
    intro q written
    obtain ⟨d, inside, either⟩ := mem_flatMap.mp written
    simp only [mem_cons, not_mem_nil, or_false] at either
    rcases either with rfl | rfl
    · exact apart q inside
    · rw [keep]
      exact apart d inside
  · rintro ws' db' u ⟨rfl, since⟩
    have next := (wrote.stable since).changeHolds [h] f
    rw [append_assoc, ← flatMap_append] at next
    exact ⟨next, since⟩

theorem guarded_selectHolds {p : Db → HostCreditHold → Bool} {P : HostCreditHold → Prop}
    (good : ∀ db h, p db h = true → P h) (none : rowsOf asHold ws = []) :
    (selectHoldsForUpdate p).Guarded schema rely (fun ws' db' credits =>
      ws' = ws ++ (credits.map fun h => Write.update (.hold h)) ∧
        (credits.map HostCreditHold.id).Nodup ∧
        (∀ h ∈ credits, P h ∧ db'.holds.find? h.id = some h) ∧ rely.allows ws db db') ws db := by
  refine guarded_select fun db₁ allowed₁ => ?_
  have nodup : (((schema.overlay db₁ ws).holds.rows.filter (p (schema.overlay db₁ ws))).map
      HostCreditHold.id).Nodup :=
    (schema.overlay db₁ ws).holds.nodup.sublist (filter_sublist.map _)
  refine (guarded_lockHolds (R := rely) good (fun _ _ _ allowed => allowed.2.1) _ nodup
    (by simp [none])).mono ?_
  rintro ws' db' credits ⟨rfl, part, known, since⟩
  exact ⟨rfl, nodup.sublist part, known, rely.trans allowed₁ since⟩

end

theorem wrote_locks (ws : List (Write Row)) (credits : List HostCreditHold) (now : Time) (db : Db)
    (holds : rowsOf asHold ws = []) (transactions : rowsOf asTransaction ws = [])
    (accounts : rowsOf asAccount ws = []) (entries : rowsOf asEntry ws = []) :
    Wrote (ws ++ credits.map fun h => .update (.hold h)) db now credits (rowsOf asItem ws)
      (rowsOf asBatch ws) [] none [] [] (ws ++ credits.map fun h => .update (.hold h)) db := by
  have others : ∀ {γ : Type} (as : Row → Option γ), (∀ h, as (.hold h) = none) →
      rowsOf as (ws ++ credits.map fun h => Write.update (.hold h)) = rowsOf as ws := by
    intro γ as none
    rw [rowsOf_append, rowsOf_locked_other none credits, append_nil]
  have start := wrote_start now db ((others asTransaction fun _ => rfl).trans transactions)
    ((others asAccount fun _ => rfl).trans accounts)
    ((others asEntry fun _ => rfl).trans entries)
  have locks : rowsOf asHold (credits.map fun h => Write.update (.hold h)) = credits := by
    apply rowsOf_locked
    exact fun _ => rfl
  rwa [others asItem fun _ => rfl, others asBatch fun _ => rfl, rowsOf_append, holds,
    nil_append, locks] at start

/-! ### The release of credits -/

section

variable (locked : ∀ h ∈ credits, h ∈ rowsOf asHold ws₀)
  (known : ∀ h ∈ credits, db₀.holds.find? h.id = some h)

include locked known

theorem guarded_releaseCredit (member : h ∈ credits)
    (apart : ∀ d ∈ done, d.id ≠ h.id) (on : Legs as es legs)
    (wrote : Wrote ws₀ db₀ now (credits ++ done.flatMap fun h => [h, available h]) [] [] ts none as
      es ws db) : (releaseCredit ids now h).Guarded schema rely (fun ws' db' _ => ∃ as' es',
      Legs as' es' (legs ++ releaseLegs h) ∧
      Wrote ws₀ db₀ now (credits ++ (done ++ [h]).flatMap fun h => [h, available h]) [] []
        (ts ++ [⟨ids 0, .hostCreditRelease, .draft, "host_credit_hold", h.id, none, none⟩]) none as'
        es' ws' db') ws db := by
  refine (guarded_insertTransaction wrote _).bind fun _ ws₁ db₁ wrote₁ => ?_
  refine (guarded_ensureAccount wrote₁).bind ?_
  rintro pending ws₂ db₂ ⟨_, rfl, wrote₂⟩
  refine (guarded_ensureAccount wrote₂).bind ?_
  rintro free ws₃ db₃ ⟨_, rfl, wrote₃⟩
  refine (guarded_leg ((on.account _).account _) wrote₃
    ⟨pending, .host, h.nodeID, accountHostPendingCredit⟩ (by simp)).bind ?_
  rintro _ ws₄ db₄ ⟨es₄, on₄, wrote₄⟩
  refine (guarded_leg on₄ wrote₄ ⟨free, .host, h.nodeID, accountHostAvailableCredit⟩
    (by simp)).bind ?_
  rintro _ ws₅ db₅ ⟨es₅, on₅, wrote₅⟩
  refine (guarded_markPosted wrote₅).bind fun _ ws₆ db₆ wrote₆ => ?_
  rw [append_assoc legs] at on₅
  exact (guarded_updateHold (f := available) (fun _ => rfl) wrote₆ locked known member apart).mono
    fun _ _ _ last => ⟨_, es₅, on₅, last.1⟩

theorem guarded_releaseCredits (rest : List HostCreditHold)
    (split : credits = done ++ rest) (nodup : (credits.map HostCreditHold.id).Nodup)
    (on : Legs as es legs)
    (wrote : Wrote ws₀ db₀ now (credits ++ done.flatMap fun h => [h, available h]) [] [] ts none as
      es ws db) : (releaseCredits now ids rest).Guarded schema rely (fun ws' db' _ => ∃ as' es',
      Legs as' es' (legs ++ rest.flatMap releaseLegs) ∧
      Wrote ws₀ db₀ now (credits ++ credits.flatMap fun h => [h, available h]) [] []
        (ts ++ releases ids rest) none as' es' ws' db') ws db := by
  induction rest generalizing ids done ts as es legs ws db with
  | nil =>
    intro later allowed
    refine ⟨as, es, by simpa using on, ?_⟩
    rw [append_nil] at split
    rw [releases, append_nil]
    exact split ▸ wrote.stable allowed
  | cons h rest ih =>
    refine (guarded_releaseCredit locked known (by simp [split]) (ne_of_split nodup split) on
      wrote).bind ?_
    rintro _ ws₁ db₁ ⟨as₁, es₁, on₁, wrote₁⟩
    refine (ih (by simp [split]) on₁ wrote₁).mono ?_
    rintro ws₂ db₂ _ ⟨as₂, es₂, on₂, wrote₂⟩
    refine ⟨as₂, es₂, ?_, ?_⟩
    · rwa [append_assoc, ← flatMap_cons] at on₂
    · rwa [append_assoc, singleton_append] at wrote₂

end

theorem guarded_promote : Upholds (promoteAvailableCredits ids now) db := by
  have due : ∀ (db : Db) (h : HostCreditHold), releasable now db h = true →
      h.state = .pending ∧ h.availableAt ≤ now := by
    intro db h chosen
    simpa [releasable] using chosen
  -- what is locked qualifies when it is locked, not when it was first read
  refine (guarded_selectHolds due rfl).bind ?_
  rintro credits ws₁ db₁ ⟨rfl, nodup, known, -⟩
  have start := wrote_locks [] credits now db₁ rfl rfl rfl rfl
  have locked : ∀ h ∈ credits, h ∈ rowsOf asHold _ := fun h member => start.holds.symm ▸ member
  refine (guarded_releaseCredits locked (fun h member => (known h member).2) credits
    (nil_append credits).symm nodup .nil (by simpa using start)).bind ?_
  rintro _ ws₂ db₂ ⟨as, es, on, wrote⟩ db₃ allowed
  have last := wrote.stable allowed
  have known' := last.hold_found locked fun h member => (known h member).2
  exact ⟨keeps_release (by simpa using last) nodup known' fun h member => (known h member).1,
    settles_release last on nodup known' fun h member => (known h member).1.1⟩

/-! ### The making of a batch -/

section

theorem items_absent {db' : Db} (rows : rowsOf asItem ws = xs) (allowed : rely.allows ws db db')
    (absent : ∀ x ∈ xs, db.items.find? x.id = none) : ∀ x ∈ xs, db'.items.find? x.id = none := by
  intro x member
  rw [find?_item_of_same allowed.2.1 (rows.symm ▸ member)]
  exact absent x member

variable (locked : ∀ h ∈ credits, h ∈ rowsOf asHold ws₀)
  (known : ∀ h ∈ credits, db₀.holds.find? h.id = some h)

include locked known

theorem guarded_reserveCredits (rest : List HostCreditHold)
    (split : credits = done ++ rest) (nodup : (credits.map HostCreditHold.id).Nodup)
    (wrote : Wrote ws₀ db₀ now (credits ++ done.flatMap fun h => [h, reserve b.id h]) xs [b] [] none
      [] [] ws db) (drawn : (xs.map PayoutItem.id).Nodup)
    (new : ∀ x ∈ xs, db.items.find? x.id = none) :
    (reserveCredits b.id ids rest).Guarded schema rely (fun ws' db' _ =>
      Wrote ws₀ db₀ now (credits ++ credits.flatMap fun h => [h, reserve b.id h])
        (xs ++ reservations b.id ids rest) [b] [] none [] [] ws' db' ∧
      ((xs ++ reservations b.id ids rest).map PayoutItem.id).Nodup ∧
      ∀ x ∈ xs ++ reservations b.id ids rest, db'.items.find? x.id = none) ws db := by
  induction rest generalizing ids done xs ws db with
  | nil =>
    intro later allowed
    rw [append_nil] at split
    rw [reservations, append_nil]
    exact ⟨split ▸ wrote.stable allowed, drawn, items_absent wrote.items allowed new⟩
  | cons h rest ih =>
    refine guarded_write fun db₁ allowed₁ seen₁ admitted₁ => ?_
    generalize made : (⟨ids 0, b.id, h.nodeID, h.id, h.amountMicrodollars, h.nodeID, .pending,
      defaultPayoutMemoPrefix ++ " " ++ b.id, none⟩ : PayoutItem) = x at admitted₁ ⊢
    -- a new item: its key is free in the committed table and among the items drawn so far
    have absent : db₁.items.find? x.id = none :=
      Option.map_eq_none_iff.mp (schema.fresh_of_applyWrites admitted₁ mem_cons_self)
    have view : (schema.overlay db₁ ws).items.find? x.id = none :=
      Option.map_eq_none_iff.mp (absent_of_insert admitted₁)
    rw [overlay_items, wrote.items] at view
    have wrote₁ := (wrote.stable allowed₁).insertItem x
    have drawn₁ : ((xs ++ [x]).map PayoutItem.id).Nodup :=
      nodup_keys_concat drawn (ne_of_find?_putAll view)
    have new₁ : ∀ q ∈ xs ++ [x], db₁.items.find? q.id = none := by
      intro q member
      rcases mem_append.mp member with old | this
      · exact items_absent wrote.items allowed₁ new q old
      · exact mem_singleton.mp this ▸ absent
    refine (guarded_updateHold (f := reserve b.id) (fun _ => rfl) wrote₁ locked known
      (by simp [split]) (ne_of_split nodup split)).bind ?_
    rintro _ ws₂ db₂ ⟨wrote₂, since⟩
    refine (ih (by simp [split]) wrote₂ drawn₁ (items_absent wrote₁.items since new₁)).mono ?_
    rintro ws₃ db₃ _ facts
    rw [append_assoc, singleton_append, ← made] at facts
    exact facts

end

theorem guarded_create {organizationID : String} :
    Upholds (createPayoutBatch ids organizationID) db := by
  have chosen : ∀ (db : Db) (h : HostCreditHold), payable organizationID db h = true →
      h.state = .available ∧ 0 < h.amountMicrodollars := by
    intro db h qualifies
    simp only [payable, Bool.and_eq_true, decide_eq_true_eq] at qualifies
    exact qualifies.1
  refine guarded_write fun db₁ allowed₁ seen₁ admitted₁ => ?_
  generalize made : (⟨ids 0, if organizationID = "" then none else some organizationID, .draft, 0,
    none, none⟩ : PayoutBatch) = b at admitted₁ ⊢
  have draft : b.status = .draft := by rw [← made]
  have named : b.id = ids 0 := by rw [← made]
  -- the row of the new batch is held from here on, so its identifier stays unused by others
  have fresh₁ : db₁.batches.find? b.id = none :=
    Option.map_eq_none_iff.mp (schema.fresh_of_applyWrites admitted₁ mem_cons_self)
  rw [nil_append]
  refine (guarded_selectHolds chosen rfl).bind ?_
  rintro credits ws₂ db₂ ⟨rfl, nodup, known, since₂⟩
  have start : Wrote _ db₂ 0 credits [] [b] [] none [] [] _ db₂ :=
    wrote_locks [.insert (.batch b)] credits 0 db₂ rfl rfl rfl rfl
  have fresh₂ : db₂.batches.find? b.id = none := by
    rw [find?_batch_of_same since₂.2.1 (by simp [rowsOf, asBatch])]
    exact fresh₁
  have locked : ∀ h ∈ credits, h ∈ rowsOf asHold _ := fun h member => start.holds.symm ▸ member
  rw [← named]
  refine (guarded_reserveCredits locked (fun h member => (known h member).2) credits
    (nil_append credits).symm nodup (by simpa using start) (by simp)
    fun x (none : x ∈ []) => absurd none not_mem_nil).bind ?_
  rintro _ ws₃ db₃ ⟨wrote₃, drawn, new₃⟩
  rw [nil_append] at wrote₃ drawn new₃
  unfold require
  split
  · rw [pure_eq, done_bind]
    refine Tx.Guarded.bind (guarded_updateBatch (f := totalled credits) wrote₃ fun _ => rfl) ?_
    rintro _ ws₄ db₄ ⟨wrote₄, since₄⟩ db₅ allowed₅
    have last := wrote₄.stable allowed₅
    have known' := last.hold_found locked fun h member => (known h member).2
    have fresh₅ : db₅.batches.find? b.id = none := by
      rw [find?_batch_of_same last.since.2.1 (start.batches.symm ▸ mem_cons_self)]
      exact fresh₂
    have takes := last.takes draft nodup known' (fun h member => (known h member).1) fresh₅ drawn
      (items_absent last.items allowed₅ (items_absent wrote₃.items since₄ new₃))
    refine ⟨keeps_reserve last takes, settles_still last takes.holds (fun h => ?_)
      fun _ h member kind => ?_⟩
    · split <;> exact ⟨rfl, rfl⟩
    · split
      next chosen =>
        rw [(known h (credit_of_id known' member chosen)).1.1]
        rfl
      · rfl
  · trivial

/-! ### Calls on a batch -/

theorem guarded_lockBatch :
    (lockBatch batchID).Guarded schema rely (fun ws db' found => rely.allows [] db db' ∧
      ∀ b, found = some b →
        b.id = batchID ∧ ws = [.update (.batch b)] ∧ db'.batches.find? b.id = some b) [] db := by
  intro db₁ allowed₁ new seen ok admitted
  cases ok
  refine fun db₂ allowed₂ => ⟨rely.trans allowed₁ (rely.shrink allowed₂), fun b found => ?_⟩
  have committed : db₁.batches.find? batchID = some b := found
  have key : b.id = batchID := key_of_find? committed
  rw [schema.overlay_nil] at allowed₂ ⊢
  simp only [findBatch, committed, Option.map_some, Option.toList_some, nil_append]
    at allowed₂ ⊢
  refine ⟨key, trivial, ?_⟩
  rw [find?_batch_of_same allowed₂.2.1 (by simp [rowsOf, asBatch]), key]
  exact committed

theorem wrote_lock (b : PayoutBatch) (db : Db) (now : Time) :
    Wrote [.update (.batch b)] db now [] [] [b] [] none [] [] [.update (.batch b)] db :=
  wrote_start now db rfl rfl rfl

section

theorem pending_own (b : PayoutBatch) (h : HostCreditHold)
    (chosen : (decide (h.payoutBatchID = some b.id) && decide (h.state = .payoutPending)) = true) :
    h.payoutBatchID = some b.id := left_of_both chosen

theorem lock_mem (b : PayoutBatch) : b ∈ rowsOf asBatch [Write.update (.batch b)] := by
  simp [rowsOf, asBatch]

theorem Wrote.batch_found (wrote : Wrote [.update (.batch b)] db₀ now hs xs bs ts draft as es ws db)
    (found : db₀.batches.find? b.id = some b) : db.batches.find? b.id = some b := by
  rw [find?_batch_of_same wrote.since.2.1 (lock_mem b)]
  exact found

theorem keeps_lock (wrote : Wrote [.update (.batch b)] db₀ now [] [] [b] [] none [] []
      [.update (.batch b)] db) (found : db₀.batches.find? b.id = some b) :
    Keeps [.update (.batch b)] db ∧ Settles [.update (.batch b)] db := by
  have same : schema.overlay db [.update (.batch b)] = db := by
    change { db with batches := db.batches.put b } = db
    rw [put_self (wrote.batch_found found)]
  refine ⟨⟨fun sound => ?_, fun id _ _ => ?_⟩, fun _ _ books => ?_⟩
  · rw [same]
    exact sound
  · rw [same]
    exact ⟨rfl, rfl⟩
  · rw [same]
    exact books

variable {s : BatchStatus} {turn : PayoutBatch → PayoutBatch}

theorem Wrote.batches_rows (wrote : Wrote [.update (.batch b)] db₀ now hs xs
      ([b] ++ [b].flatMap fun r => [r, turn r]) ts none as es ws db)
    (found : db.batches.find? b.id = some b) (keep : ∀ r, (turn r).id = r.id) :
    (schema.overlay db ws).batches.rows =
      db.batches.rows.map fun r => if r.id = b.id then turn r else r := by
  have known : ∀ r ∈ [b], db.batches.find? r.id = some r := by simpa using found
  rw [overlay_batches, wrote.batches, putAll_append, putAll_self known,
    rows_putAll_changed (by simp) known keep]
  simp

variable {k : PayoutItem → PayoutItem}

theorem Wrote.items_rows {p : PayoutItem → Bool} (wrote : Wrote [.update (.batch b)] db₀ now hs
      ((db₀.items.rows.filter p).flatMap fun x => [x, k x]) bs ts none as es ws db)
    (of : ∀ x, p x = true → x.payoutBatchID = b.id) (keep : ∀ x, (k x).id = x.id)
    (all : ∀ x ∈ db.items.rows, x.payoutBatchID = b.id → p x = true) :
    (schema.overlay db ws).items.rows =
      db.items.rows.map fun x => if x.payoutBatchID = b.id then k x else x := by
  rw [overlay_items, wrote.items, ← wrote.items_since (lock_mem b) of,
    rows_putAll_where _ _ keep]
  refine map_congr_left fun x member => ?_
  have iff : p x = true ↔ x.payoutBatchID = b.id := ⟨of x, all x member⟩
  simp only [Table.updateWhere, iff]

theorem Wrote.batch_holds_rows {p : HostCreditHold → Bool}
    (wrote : Wrote [.update (.batch b)] db₀ now
      ((db₀.holds.rows.filter p).flatMap fun h => [h, f h]) xs bs ts none as es ws db)
    (of : ∀ h, p h = true → h.payoutBatchID = some b.id) (keep : ∀ h, (f h).id = h.id)
    (all : ∀ h ∈ db.holds.rows, h.payoutBatchID = some b.id → p h = true) :
    (schema.overlay db ws).holds.rows =
      db.holds.rows.map fun h => if h.payoutBatchID = some b.id then f h else h := by
  rw [overlay_holds, wrote.holds, ← wrote.holds_since (lock_mem b) of,
    rows_putAll_where _ _ keep]
  refine map_congr_left fun h member => ?_
  have iff : p h = true ↔ h.payoutBatchID = some b.id := ⟨of h, all h member⟩
  simp only [Table.updateWhere, iff]

theorem keeps_of_turns (wrote : Wrote [.update (.batch b)] db₀ now hs xs bs ts none as es ws db)
    (own : b ∈ bs) (turns : Sound db → Turns db (schema.overlay db ws) b s turn k f)
    (noRelease : ∀ t ∈ ts, t.transactionType ≠ .hostCreditRelease)
    (payout : Sound db → ∀ t ∈ ts, t.transactionType = .hostPayout → t.referenceID = b.id ∧
      ts = [t] ∧ b.status = .exported ∧ s = .paid ∧
      debits (schema.overlay db ws) t.id = itemSum db b.id) : Keeps ws db := by
  refine ⟨fun sound => ⟨(turns sound).batched sound.batched, ?_⟩, fun id unlocked sound => ?_⟩
  · refine (turns sound).filed sound wrote.transactions_rows wrote.entries_rows wrote.fresh_posted
      posted_postedAs wrote.belongs_posted ?_ ?_
    · intro t member
      obtain ⟨u, inside, rfl⟩ := mem_map.mp member
      exact noRelease u inside
    · intro t member isPayout
      obtain ⟨u, inside, rfl⟩ := mem_map.mp member
      obtain ⟨ref, single, facts⟩ := payout sound u inside isPayout
      refine ⟨ref, ?_, facts⟩
      rw [single, map_singleton]
  · refine (turns sound).others ?_
    rintro rfl
    exact unlocked b (wrote.batches.symm ▸ own) rfl

end

/-! ### Export -/

def exportItem (x : PayoutItem) : PayoutItem := { x with status := .exported }

def exported (now : Time) (b : PayoutBatch) : PayoutBatch :=
  { b with status := .exported, exportedAt := some now }

theorem guarded_export : Upholds (exportPayoutBatch batchID now) db := by
  refine guarded_lockBatch.bind ?_
  rintro (_ | b) ws₁ db₁ ⟨-, found⟩
  · trivial
  obtain ⟨rfl, rfl, found₁⟩ := found b rfl
  have start := wrote_lock b db₁ now
  refine guarded_select fun db₂ allowed₂ => ?_
  have wrote₂ := start.stable allowed₂
  unfold markExported
  split
  next draft =>
    have own : ∀ x : PayoutItem, (decide (x.payoutBatchID = b.id) && decide (x.status = .pending)) =
        true → x.payoutBatchID = b.id := fun _ => left_of_both
    refine Tx.Guarded.bind (Q := fun ws db _ => ∀ db', rely.allows ws db db' →
      Keeps ws db' ∧ Settles ws db') ?_ fun _ _ _ last => last
    refine (guarded_updateItems (f := exportItem) (lock_mem b) wrote₂ own fun _ => rfl).bind
      fun _ ws₃ db₃ wrote₃ => ?_
    refine (guarded_updateBatch (f := exported now) wrote₃ fun _ => rfl).mono ?_
    rintro ws₄ db₄ _ ⟨wrote₄, -⟩ db' allowed
    have last := wrote₄.stable allowed
    have found := last.batch_found found₁
    have turns : Sound db' → Turns db' (schema.overlay db' ws₄) b .exported (exported now)
        exportItem fun h => { h with state := .payoutPending } := ?_
    · refine ⟨keeps_of_turns last (by simp) turns (by simp) (by simp),
        settles_still (g := id) last ?_ (fun _ => ⟨rfl, rfl⟩) fun _ _ _ _ => rfl⟩
      rw [overlay_holds, last.holds, putAll_nil, map_id]
    intro sound
    refine ⟨found, by simp [draft], by simp [draft], last.batches_rows found fun _ => rfl,
      last.items_rows own (fun _ => rfl) fun x member mine => ?_, ?_,
      fun r => ⟨rfl, rfl, rfl⟩, fun x => ⟨rfl, rfl, rfl, rfl, rfl⟩, .inl fun _ => rfl⟩
    · have status := sound.batched.item_status found member mine
      simp [mine, status, draft, ofItems]
    · -- the holds of the batch stay as they are
      rw [overlay_holds, last.holds, putAll_nil]
      conv_lhs => rw [← map_id db'.holds.rows]
      refine map_congr_left fun h member => ?_
      by_cases own : h.payoutBatchID = some b.id
      · have state := sound.batched.hold_state found member own
        rw [draft] at state
        rw [if_pos own]
        cases h
        simp_all [ofHolds]
      · rw [if_neg own]
        rfl
  next other =>
    -- a batch that is exported already is returned as it is
    intro later allowed
    exact keeps_lock (wrote₂.stable allowed) found₁

/-! ### Confirmation -/

def settle (transactionID : String) (x : PayoutItem) : PayoutItem :=
  { x with status := .paid, ledgerTransactionID := some transactionID }

def payHold (h : HostCreditHold) : HostCreditHold := { h with state := .paid }

def payout (now : Time) (b : PayoutBatch) : PayoutBatch :=
  { b with status := .paid, paidAt := some now }

section

theorem guarded_settleItem {done : List PayoutItem} {x : PayoutItem}
    (wrote : Wrote [.update (.batch b)] db₀ now [] (done.flatMap fun x => [x, settle t.id x]) [b] []
      (some t) as es ws db) (member : x ∈ exportedItems b.id db₀)
    (apart : ∀ d ∈ done, d.id ≠ x.id) :
    (updateItem x.id (settle t.id)).Guarded schema rely (fun ws' db' _ =>
      Wrote [.update (.batch b)] db₀ now [] ((done ++ [x]).flatMap fun x => [x, settle t.id x]) [b]
        [] (some t) as es ws' db') ws db := by
  refine (guarded_updateEach_current (f := settle t.id) findItem_put_other
    (fun _ => rfl) [x] (by simp) (by simp) ?_).mono ?_
  · intro db' allowed r single
    have wrote' := wrote.stable allowed
    have still : x ∈ exportedItems b.id db' := by
      rw [exportedItems, wrote'.items_since (lock_mem b) fun x chosen => by simp_all]
      exact member
    rw [mem_singleton.mp single, findItem, overlay_items, wrote'.items,
      find?_putAll_other, find?_of_mem (mem_of_mem_filter still)]
    intro q written
    obtain ⟨d, inside, either⟩ := mem_flatMap.mp written
    simp only [mem_cons, not_mem_nil, or_false] at either
    rcases either with rfl | rfl
    · exact apart q inside
    · exact apart d inside
  · rintro ws' db' u ⟨rfl, since⟩
    have next := (wrote.stable since).changeItems [x] (settle t.id)
    rwa [← flatMap_append] at next

theorem guarded_payItems (rest : List PayoutItem) {done : List PayoutItem}
    (split : exportedItems b.id db₀ = done ++ rest) (on : Legs as es legs)
    (wrote : Wrote [.update (.batch b)] db₀ now [] (done.flatMap fun x => [x, settle t.id x]) [b] []
      (some t) as es ws db) :
    (payItems t.id ids rest).Guarded schema rely (fun ws' db' _ => ∃ as' es',
      es'.map LedgerEntry.amountMicrodollars = rest.map amountMicrodollars ∧
      (∀ e ∈ es', e.transactionID = t.id) ∧ Legs as' (es ++ es') (legs ++ rest.map payLeg) ∧
      Wrote [.update (.batch b)] db₀ now []
        ((exportedItems b.id db₀).flatMap fun x => [x, settle t.id x]) [b] [] (some t) as'
        (es ++ es') ws' db') ws db := by
  induction rest generalizing ids done as es legs ws db with
  | nil =>
    intro later allowed
    refine ⟨as, [], rfl, by simp, by simpa using on, ?_⟩
    rw [split, append_nil, append_nil]
    exact wrote.stable allowed
  | cons x rest ih =>
    have nodup : ((exportedItems b.id db₀).map PayoutItem.id).Nodup :=
      db₀.items.nodup.sublist (filter_sublist.map _)
    refine (guarded_ensureAccount wrote).bind ?_
    rintro account ws₁ db₁ ⟨_, rfl, wrote₁⟩
    refine (guarded_insertEntry wrote₁).bind fun _ ws₂ db₂ wrote₂ => ?_
    refine (guarded_settleItem wrote₂ (by simp [split]) (ne_of_split nodup split)).bind
      fun _ ws₃ db₃ wrote₃ => ?_
    have on₁ := (on.account ⟨account, .host, x.hostNodeID, accountHostAvailableCredit⟩).entry
      (a := ⟨account, .host, x.hostNodeID, accountHostAvailableCredit⟩)
      (e := ⟨ids 1, t.id, account, x.amountMicrodollars, "host payout consumed available credit"⟩)
      (by simp) rfl
    refine (ih (by simp [split]) on₁ wrote₃).mono ?_
    rintro ws₄ db₄ _ ⟨as', es', amounts, own, on₄, wrote₄⟩
    rw [append_assoc, singleton_append] at wrote₄ on₄
    rw [append_assoc, singleton_append] at on₄
    refine ⟨as', _, ?_, ?_, on₄, wrote₄⟩
    · simp [amounts]
    · intro e member
      rcases mem_cons.mp member with rfl | later
      · rfl
      · exact own e later

theorem debits_payout {V : Db} {es' : List LedgerEntry} {cash : LedgerEntry}
    (filed : Filed db) (entries : V.entries.rows = db.entries.rows ++ (es' ++ [cash]))
    (fresh : db.transactions.find? t.id = none)
    (amounts : es'.map LedgerEntry.amountMicrodollars = xs.map amountMicrodollars)
    (own : ∀ e ∈ es' ++ [cash], e.transactionID = t.id)
    (positive : ∀ x ∈ xs, 0 < x.amountMicrodollars) (credit : cash.amountMicrodollars ≤ 0) :
    debits V t.id = (xs.map amountMicrodollars).sum := by
  have before : db.entries.rows.filter (fun e => e.transactionID = t.id) = [] := by
    refine filter_eq_nil_iff.mpr fun e member same => ?_
    obtain ⟨u, inside, key⟩ := filed.belongs e member
    have found := find?_of_mem inside
    rw [key, of_decide_eq_true same, fresh] at found
    cases found
  have mine : (es' ++ [cash]).filter (fun e => e.transactionID = t.id) = es' ++ [cash] :=
    filter_eq_self.mpr fun e member => decide_eq_true (own e member)
  have debit : es'.filter (fun e => 0 < e.amountMicrodollars) = es' := by
    refine filter_eq_self.mpr fun e member => decide_eq_true ?_
    have amount : e.amountMicrodollars ∈ xs.map amountMicrodollars :=
      amounts ▸ mem_map_of_mem member
    obtain ⟨x, inside, same⟩ := mem_map.mp amount
    exact same ▸ positive x inside
  have none : [cash].filter (fun e => 0 < e.amountMicrodollars) = [] := by
    simpa using credit
  rw [debits, entriesOf, entries, filter_append, before, nil_append, mine,
    filter_append, debit, none, append_nil, entrySum, amounts]

end

theorem credit_of_total {amounts : List Int} (positive : 0 < sum64 amounts) :
    wrap64 (-sum64 amounts) ≤ 0 := by
  rw [sum64_eq] at positive ⊢
  unfold wrap64 at positive ⊢
  omega

theorem guarded_confirm {rows : List ConfirmationRow} :
    Upholds (confirmPayoutBatch ids batchID rows now) db := by
  unfold confirmPayoutBatch
  refine Tx.Guarded.bind (Q := fun ws _ _ => ws = []) ?_ ?_
  · unfold require
    split
    · exact fun _ _ => rfl
    · trivial
  rintro _ ws db rfl
  refine guarded_lockBatch.bind ?_
  rintro (_ | b) ws₁ db₁ ⟨-, found⟩
  · trivial
  obtain ⟨rfl, rfl, found₁⟩ := found b rfl
  refine (guarded_require (wrote_lock b db₁ now)).bind ?_
  rintro _ ws₂ db₂ ⟨status, wrote₂⟩
  refine (guarded_exportedItems (lock_mem b) wrote₂).bind ?_
  rintro expected ws₃ db₃ ⟨-, wrote₃⟩
  -- the items are read again before they are paid; the batch is locked, so they are the same
  refine (guarded_require wrote₃).bind ?_
  rintro _ ws₄ db₄ ⟨-, wrote₄⟩
  refine (guarded_insertTransaction wrote₄ _).bind fun _ ws₅ db₅ wrote₅ => ?_
  refine (guarded_exportedItems (lock_mem b) wrote₅).bind ?_
  rintro _ ws₆ db₆ ⟨rfl, wrote₆⟩
  refine (guarded_payItems _ (nil_append _).symm .nil wrote₆).bind ?_
  rintro _ ws₇ db₇ ⟨as, es, amounts, own, on, wrote₇⟩
  refine (guarded_require wrote₇).bind ?_
  rintro _ ws₈ db₈ ⟨total, wrote₈⟩
  refine (guarded_ensureAccount wrote₈).bind ?_
  rintro cash ws₉ db₉ ⟨_, rfl, wrote₉⟩
  refine (guarded_insertEntry wrote₉).bind fun _ ws₁₀ db₁₀ wrote₁₀ => ?_
  refine (guarded_markPosted wrote₁₀).bind fun _ ws₁₁ db₁₁ wrote₁₁ => ?_
  refine (guarded_updateHolds (f := payHold) (lock_mem b) wrote₁₁ (pending_own b) fun _ => rfl).bind
    fun _ ws₁₂ db₁₂ wrote₁₂ => ?_
  refine (guarded_updateBatch (f := payout now) wrote₁₂ fun _ => rfl).mono ?_
  rintro ws₁₃ db₁₃ _ ⟨last, -⟩
  have found := last.batch_found found₁
  have inBatch : ∀ x : PayoutItem, (decide (x.payoutBatchID = b.id) &&
      decide (x.status = .exported)) = true → x.payoutBatchID = b.id := fun _ => left_of_both
  have turns : Sound db₁₃ → Turns db₁₃ (schema.overlay db₁₃ ws₁₃) b .paid (payout now)
      (settle (ids 0)) payHold := ?_
  · -- in an exported batch every item is exported, so none is left out of the payout
    have all : Sound db₁₃ → exportedItems b.id db₁ = itemsOf db₁₃ b.id := by
      intro sound
      rw [exportedItems, ← last.items_since (lock_mem b) inBatch, itemsOf]
      refine filter_congr fun x member => ?_
      by_cases own : x.payoutBatchID = b.id
      · have state := sound.batched.item_status found member own
        simp [own, state, status, ofItems]
      · simp [own]
    refine ⟨keeps_of_turns last (by simp) turns (by simp) fun sound t single _ => ?_, ?_⟩
    · rw [nil_append, mem_singleton] at single
      subst single
      refine ⟨rfl, by simp, status, rfl, ?_⟩
      rw [itemSum, ← all sound]
      refine debits_payout sound.filed last.entries_rows (last.fresh _ (by simp)) amounts ?_ ?_
        (credit_of_total total)
      · intro e member
        rcases mem_append.mp member with item | this
        · exact own e item
        · rw [mem_singleton.mp this]
      · rw [all sound]
        exact fun x member => sound.batched.positive x (mem_of_mem_filter member)
    · have booked := (on.account ⟨cash, .platform, defaultPlatformLedgerOwnerID,
        accountPlatformPayoutCash⟩).entry (a := ⟨cash, .platform, defaultPlatformLedgerOwnerID,
        accountPlatformPayoutCash⟩) (e := ⟨ids 2, ids 0, cash, wrap64 (-sum64 ((exportedItems b.id
        db₁).map amountMicrodollars)), "manual payout cash out"⟩) (by simp) rfl
      refine settles_payout last turns status (fun _ => rfl) (wrap64 (-sum64 ((exportedItems b.id
        db₁).map amountMicrodollars))) booked fun sound => ?_
      rw [← all sound]
      rfl
  · intro sound
    refine ⟨found, by simp [status], by simp [status], last.batches_rows found fun _ => rfl,
      last.items_rows inBatch (fun _ => rfl) fun x member own => ?_,
      last.batch_holds_rows (pending_own b) (fun _ => rfl) fun h member own => ?_,
      fun r => ⟨rfl, rfl, rfl⟩, fun x => ⟨rfl, rfl, rfl, rfl, rfl⟩, .inl fun _ => rfl⟩
    · have state := sound.batched.item_status found member own
      simp [own, state, status, ofItems]
    · have state := sound.batched.hold_state found member own
      simp [own, state, status, ofHolds]

/-! ### Voids -/

def voidItem (x : PayoutItem) : PayoutItem := { x with status := .void }

def voided (b : PayoutBatch) : PayoutBatch := { b with status := .void }

def reversed (h : HostCreditHold) : HostCreditHold := { h with state := .reversed }

def freed (h : HostCreditHold) : HostCreditHold :=
  { h with state := .available, payoutBatchID := none }

section

theorem guarded_voidRest {p : HostCreditHold → Bool}
    (found₀ : db₀.batches.find? b.id = some b) (live : b.status ≠ .void)
    (mine : ∀ h, p h = true → h.payoutBatchID = some b.id) (keep : ∀ h, (f h).id = h.id)
    (all : ∀ db, Sound db → db.batches.find? b.id = some b → ∀ h ∈ db.holds.rows,
      h.payoutBatchID = some b.id → p h = true)
    (moved : (∀ h, f h = reversed h) ∨ ∀ h, f h = freed h)
    (reversals : ∀ t ∈ ts, t.transactionType = .ledgerReversal)
    (wrote : Wrote [.update (.batch b)] db₀ now
      ((db₀.holds.rows.filter p).flatMap fun h => [h, f h]) [] [b] ts none as es ws db) :
    (do updateItems (fun x => x.payoutBatchID = b.id && x.status ≠ .void) voidItem
        updateBatch b.id voided : SqlTx Unit).Guarded schema rely (fun ws db _ => Keeps ws db ∧
      (es = [] → b.status ≠ .paid → (∀ h, f h = freed h) → Settles ws db)) ws db := by
  have inBatch : ∀ x : PayoutItem, (decide (x.payoutBatchID = b.id) &&
      decide (x.status ≠ .void)) = true → x.payoutBatchID = b.id := fun _ => left_of_both
  refine (guarded_updateItems (f := voidItem) (lock_mem b) wrote inBatch fun _ => rfl).bind
    fun _ ws₁ db₁ wrote₁ => ?_
  refine (guarded_updateBatch (f := voided) wrote₁ fun _ => rfl).mono ?_
  rintro ws₂ db₂ _ ⟨last, -⟩
  have found := last.batch_found found₀
  have turns : Sound db₂ → Turns db₂ (schema.overlay db₂ ws₂) b .void voided voidItem f := by
    intro sound
    refine ⟨found, live, fun _ => .inr rfl, last.batches_rows found fun _ => rfl,
      last.items_rows inBatch (fun _ => rfl) fun x member own => ?_,
      last.batch_holds_rows mine keep (all db₂ sound found), fun r => ⟨rfl, rfl, rfl⟩,
      fun x => ⟨rfl, rfl, rfl, rfl, rfl⟩, ?_⟩
    · have state := sound.batched.item_status found member own
      cases status : b.status <;> simp_all [ofItems]
    · rcases moved with goes | goes
      · exact .inl goes
      · exact .inr ⟨rfl, goes⟩
  refine ⟨keeps_of_turns last (by simp) turns ?_ ?_, ?_⟩
  · intro t member
    rw [reversals t member]
    decide
  · intro _ t member payout
    rw [reversals t member] at payout
    cases payout
  · -- available and reserved holds count for the same account
    rintro rfl unpaid goes unique sound books
    refine settles_still last (turns sound).holds (fun h => ?_) (fun sound h member kind => ?_)
      unique sound books
    · split
      · rw [goes]
        exact ⟨rfl, rfl⟩
      · exact ⟨rfl, rfl⟩
    · split
      next own =>
        have state := sound.batched.hold_state found member own
        rw [goes]
        cases status : b.status <;> simp_all [ofHolds, freed, countedStates]
      · rfl

theorem guarded_insertReversals (original : List LedgerEntry)
    (wrote : Wrote [.update (.batch b)] db₀ now [] [] [b] ts (some t) as es ws db) :
    (insertReversals t.id ids original).Guarded schema rely (fun ws' db' _ => ∃ es',
      Wrote [.update (.batch b)] db₀ now [] [] [b] ts (some t) as es' ws' db') ws db := by
  induction original generalizing ids es ws db with
  | nil => exact fun later allowed => ⟨es, wrote.stable allowed⟩
  | cons e rest ih => exact (guarded_insertEntry wrote).bind fun _ _ _ wrote₁ => ih wrote₁

section

variable (sound : Sound db₀)
  (wrote : Wrote [.update (.batch b)] db₀ now [] [] [b] [] none [] [] ws db)
include sound wrote

theorem guarded_reverse :
    (reverseTransaction ids id now).Guarded schema rely (fun ws' db' _ => ∃ ts es,
      (∀ t ∈ ts, t.transactionType = .ledgerReversal) ∧
      Wrote [.update (.batch b)] db₀ now [] [] [b] ts none [] es ws' db') ws db := by
  refine guarded_write fun db₁ allowed₁ seen₁ admitted₁ => ?_
  have wrote₁ := wrote.stable allowed₁
  cases posted : ((schema.overlay db₁ ws).transactions.find? id).filter
    (fun t => t.status = .posted) with
  | none =>
    -- nothing is inserted, so that the first entry has no transaction to belong to
    simp only [append_nil]
    refine guarded_select fun db₂ allowed₂ => ?_
    have wrote₂ := wrote₁.stable allowed₂
    generalize (schema.overlay db₂ ws).entries.rows.filter (fun e => e.transactionID = id) = entries
    cases entries with
    | nil =>
      rw [insertReversals, pure_eq, done_bind]
      unfold require
      rw [if_neg (by simp)]
      trivial
    | cons e rest =>
      refine guarded_write fun db₃ allowed₃ seen₃ admitted₃ => ?_
      exfalso
      have wrote₃ := wrote₂.stable allowed₃
      have unposted := (Reversals.entry_admitted admitted₃).2
      rw [overlay_transactions, wrote₃.transactions] at unposted
      obtain ⟨t, found, status⟩ := (Option.any_eq_true _ _).mp unposted
      have all := (wrote₃.since.1 sound).filed.posted t (mem_of_find? found)
      simp [all] at status
  | some t =>
    simp only [posted] at admitted₁ ⊢
    refine guarded_select fun db₂ allowed₂ => ?_
    have draft := (wrote₁.insertTransaction admitted₁).stable allowed₂
    refine (guarded_insertReversals _ draft).bind ?_
    rintro _ ws₃ db₃ ⟨es, wrote₃⟩
    refine (guarded_require wrote₃).bind ?_
    rintro _ ws₄ db₄ ⟨-, wrote₄⟩
    refine (guarded_markPosted wrote₄).bind fun _ ws₅ db₅ wrote₅ => ?_
    exact fun later allowed => ⟨_, es, by simp, wrote₅.stable allowed⟩

theorem guarded_reversePayout :
    (reversePayout ids b.id now).Guarded schema rely (fun ws' db' _ => ∃ ts es,
      (∀ t ∈ ts, t.transactionType = .ledgerReversal) ∧
      Wrote [.update (.batch b)] db₀ now [] [] [b] ts none [] es ws' db') ws db := by
  refine guarded_select fun db₁ allowed₁ => ?_
  have wrote₁ := wrote.stable allowed₁
  split
  · exact (guarded_reverse sound wrote₁).bind fun _ _ _ ⟨ts, es, reversals, last⟩ later allowed =>
      ⟨ts, es, reversals, last.stable allowed⟩
  · exact fun later allowed => ⟨[], [], by simp, wrote₁.stable allowed⟩

end

theorem guarded_voidBatch {onPaid : SqlTx Unit}
    {Q : List (Write Row) → Db → Prop} (kept : ∀ ws db, Keeps ws db → Settles ws db → Q ws db)
    (paid : ∀ b db, b.id = batchID → rely.allows [] db₀ db → db.batches.find? b.id = some b →
      b.status = .paid → (do
        onPaid
        updateItems (fun x => x.payoutBatchID = batchID && x.status ≠ .void) voidItem
        updateBatch batchID voided : SqlTx Unit).Guarded schema rely (fun ws db _ => Q ws db)
        [.update (.batch b)] db) :
    (voidBatch onPaid batchID).Guarded schema rely (fun ws db _ => Q ws db) [] db₀ := by
  refine guarded_lockBatch.bind ?_
  rintro (_ | b) ws₁ db₁ ⟨since, found⟩
  · trivial
  obtain ⟨rfl, rfl, found₁⟩ := found b rfl
  have start := wrote_lock b db₁ 0
  dsimp only
  split
  · intro later allowed
    obtain ⟨keeps, settles⟩ := keeps_lock (start.stable allowed) found₁
    exact kept _ _ keeps settles
  next live =>
    unfold undoBatch
    split
    next isPaid => exact paid b db₁ rfl since found₁ isPaid
    next unpaid =>
      refine (guarded_updateHolds (f := freed) (lock_mem b) start (pending_own b) fun _ => rfl).bind
        fun _ ws₂ db₂ wrote₂ => ?_
      refine (guarded_voidRest (f := freed) found₁ live (pending_own b) (fun _ => rfl)
        (fun db' sound' found' h member own => ?_) (.inr fun _ => rfl) (by simp) wrote₂).mono
        fun ws db _ ⟨keeps, settles⟩ => kept ws db keeps (settles rfl unpaid fun _ => rfl)
      have state := sound'.batched.hold_state found' member own
      cases status : b.status <;> simp_all [ofHolds]

theorem guarded_void (sound : Sound db) :
    (voidPayoutBatch ids batchID now).Guarded schema rely (fun ws db _ => Keeps ws db) [] db := by
  refine guarded_voidBatch (fun _ _ keeps _ => keeps) ?_
  rintro b db₁ rfl since found₁ isPaid
  have start := wrote_lock b db₁ now
  -- the holds of a paid batch are reversed, whatever their state
  have mine : ∀ h : HostCreditHold, decide (h.payoutBatchID = some b.id) = true →
      h.payoutBatchID = some b.id := fun _ chosen => of_decide_eq_true chosen
  refine Tx.Guarded.bind (Q := fun ws' db' _ => ∃ ts es,
    (∀ t ∈ ts, t.transactionType = .ledgerReversal) ∧ Wrote [.update (.batch b)] db₁ now
      ((db₁.holds.rows.filter fun h => h.payoutBatchID = some b.id).flatMap
        fun h => [h, reversed h]) [] [b] ts none [] es ws' db') ?_ ?_
  · refine (guarded_reversePayout (since.1 sound) start).bind ?_
    rintro _ ws₂ db₂ ⟨ts, es, reversals, wrote₂⟩
    exact (guarded_updateHolds (f := reversed) (lock_mem b) wrote₂ mine fun _ => rfl).mono
      fun _ _ _ last => ⟨ts, es, reversals, last⟩
  · rintro _ ws₂ db₂ ⟨ts, es, reversals, wrote₂⟩
    exact (guarded_voidRest (f := reversed) found₁ (by simp [isPaid]) mine (fun _ => rfl)
      (fun _ _ _ h _ own => decide_eq_true own) (.inl fun _ => rfl) reversals wrote₂).mono
      fun _ _ _ facts => facts.1

end

end Payouts

end Thirdshift
