import Thirdshift.Foundation.RelyGuarantee
import Thirdshift.Ledger.Balance

/-!
# Tables under the writes of a transaction

What a transaction has written lies over the committed database. Table by table, that is a list of
rows put over the committed ones.
-/

namespace Thirdshift

open Foundation List Table Option Row Write

namespace Row

variable {ρ κ γ : Type}

def asTransaction : Row → Option LedgerTransaction
  | .transaction r => some r
  | _ => none

def asEntry : Row → Option LedgerEntry
  | .entry r => some r
  | _ => none

def asAccount : Row → Option LedgerAccount
  | .account r => some r
  | _ => none

def asHold : Row → Option HostCreditHold
  | .hold r => some r
  | _ => none

def asItem : Row → Option PayoutItem
  | .item r => some r
  | _ => none

def asBatch : Row → Option PayoutBatch
  | .batch r => some r
  | _ => none

end Row

def rowsOf {ρ : Type} (as : Row → Option ρ) (ws : List (Write Row)) : List ρ :=
  ws.filterMap fun w => as w.row

section

variable {as : Row → Option ρ}

@[simp] theorem rowsOf_nil : rowsOf as [] = [] := rfl

@[simp] theorem rowsOf_append (ws new : List (Write Row)) :
    rowsOf as (ws ++ new) = rowsOf as ws ++ rowsOf as new := filterMap_append

variable {ws : List (Write Row)}

theorem rowsOf_same {w : Write Row} (other : as w.row = none) :
    rowsOf as (ws ++ [w]) = rowsOf as ws := by
  simp [rowsOf, other]

theorem mem_rowsOf {r : ρ} : r ∈ rowsOf as ws ↔ ∃ w ∈ ws, as w.row = some r := mem_filterMap

theorem rowsOf_eq_nil (none : ∀ w ∈ ws, as w.row = none) :
    rowsOf as ws = [] := filterMap_eq_nil_iff.mpr none

variable [DecidableEq κ] {key : ρ → κ} {table : Db → Table key}

theorem overlay_table (put : ∀ db row, table (Db.put db row) =
      match as row with
      | some r => (table db).put r
      | none => table db) (db : Db) (ws : List (Write Row)) :
    table (schema.overlay db ws) = (table db).putAll (rowsOf as ws) := by
  induction ws generalizing db with
  | nil => rfl
  | cons w ws ih =>
    have first : schema.overlay db (w :: ws) = schema.overlay (Db.put db w.row) ws := rfl
    rw [first, ih, put]
    cases found : as w.row <;> simp [rowsOf, found]

end

section

variable (db : Db) (ws : List (Write Row))

theorem overlay_transactions : (schema.overlay db ws).transactions =
    db.transactions.putAll (rowsOf asTransaction ws) :=
  overlay_table (fun _ row => by cases row <;> rfl) db ws

theorem overlay_entries : (schema.overlay db ws).entries =
    db.entries.putAll (rowsOf asEntry ws) :=
  overlay_table (fun _ row => by cases row <;> rfl) db ws

theorem overlay_accounts : (schema.overlay db ws).accounts =
    db.accounts.putAll (rowsOf asAccount ws) :=
  overlay_table (fun _ row => by cases row <;> rfl) db ws

theorem overlay_holds : (schema.overlay db ws).holds = db.holds.putAll (rowsOf asHold ws) :=
  overlay_table (fun _ row => by cases row <;> rfl) db ws

theorem overlay_items : (schema.overlay db ws).items = db.items.putAll (rowsOf asItem ws) :=
  overlay_table (fun _ row => by cases row <;> rfl) db ws

theorem overlay_batches : (schema.overlay db ws).batches =
    db.batches.putAll (rowsOf asBatch ws) :=
  overlay_table (fun _ row => by cases row <;> rfl) db ws

end

/-! ### Rows that are locked or changed -/

theorem rowsOf_changed {as : Row → Option ρ} (row : ρ → Row) {f : ρ → ρ}
    (is : ∀ r, as (row r) = some r) (rs : List ρ) :
    rowsOf as (rs.flatMap fun r => [update (row r), .update (row (f r))]) =
      rs.flatMap fun r => [r, f r] := by
  induction rs with
  | nil => rfl
  | cons r rs ih =>
    rw [flatMap_cons, flatMap_cons, rowsOf_append, ih]
    simp [rowsOf, is]

theorem rowsOf_changed_other {as : Row → Option γ} {row : ρ → Row} {f : ρ → ρ}
    (other : ∀ r, as (row r) = none) (rs : List ρ) :
    rowsOf as (rs.flatMap fun r => [update (row r), .update (row (f r))]) = [] := by
  apply rowsOf_eq_nil
  intro w member
  obtain ⟨r, -, either⟩ := mem_flatMap.mp member
  simp only [mem_cons, not_mem_nil, or_false] at either
  rcases either with rfl | rfl <;> exact other _

theorem rowsOf_locked {as : Row → Option ρ} {row : ρ → Row}
    (is : ∀ r, as (row r) = some r) (rs : List ρ) :
    rowsOf as (rs.map fun r => update (row r)) = rs := by
  induction rs with
  | nil => rfl
  | cons r rs ih =>
    simp only [rowsOf, map_cons, filterMap_cons, row_update, is] at ih ⊢
    rw [ih]

theorem rowsOf_locked_other {as : Row → Option γ} {row : ρ → Row}
    (other : ∀ r, as (row r) = none) (rs : List ρ) :
    rowsOf as (rs.map fun r => update (row r)) = [] := by
  apply rowsOf_eq_nil
  intro w member
  obtain ⟨r, -, rfl⟩ := mem_map.mp member
  exact other r

/-! ### Rows that are written and stay as they are underneath -/

section

variable {ws : List (Write Row)} {db db' : Db}
  (same : ∀ w ∈ ws, schema.get db' w.row.key = schema.get db w.row.key)

include same

theorem find?_of_same [DecidableEq κ] {key : ρ → κ} {table : Db → Table key}
    {as : Row → Option ρ} {row : ρ → Row} (injective : Function.Injective row)
    (is : ∀ w r, as w = some r → w = row r)
    (get : ∀ db r, schema.get db (row r).key = ((table db).find? (key r)).map row) {r : ρ}
    (member : r ∈ rowsOf as ws) : (table db').find? (key r) = (table db).find? (key r) := by
  obtain ⟨w, written, found⟩ := mem_rowsOf.mp member
  have kept := same w written
  rw [is w.row r found, get, get] at kept
  exact map_injective injective kept

theorem find?_transaction_of_same {t : LedgerTransaction}
    (member : t ∈ rowsOf asTransaction ws) :
    db'.transactions.find? t.id = db.transactions.find? t.id :=
  find?_of_same same (fun _ _ => transaction.inj)
    (fun w _ is => by cases w <;> simp_all [asTransaction]) (fun _ _ => rfl) member

theorem find?_entry_of_same {e : LedgerEntry} (member : e ∈ rowsOf asEntry ws) :
    db'.entries.find? e.id = db.entries.find? e.id :=
  find?_of_same same (fun _ _ => entry.inj)
    (fun w _ is => by cases w <;> simp_all [asEntry]) (fun _ _ => rfl) member

theorem find?_account_of_same {a : LedgerAccount} (member : a ∈ rowsOf asAccount ws) :
    db'.accounts.find? a.id = db.accounts.find? a.id :=
  find?_of_same same (fun _ _ => account.inj)
    (fun w _ is => by cases w <;> simp_all [asAccount]) (fun _ _ => rfl) member

theorem find?_hold_of_same {h : HostCreditHold} (member : h ∈ rowsOf asHold ws) :
    db'.holds.find? h.id = db.holds.find? h.id :=
  find?_of_same same (fun _ _ => hold.inj)
    (fun w _ is => by cases w <;> simp_all [asHold]) (fun _ _ => rfl) member

theorem find?_item_of_same {x : PayoutItem} (member : x ∈ rowsOf asItem ws) :
    db'.items.find? x.id = db.items.find? x.id :=
  find?_of_same same (fun _ _ => item.inj)
    (fun w _ is => by cases w <;> simp_all [asItem]) (fun _ _ => rfl) member

theorem find?_batch_of_same {x : PayoutBatch} (member : x ∈ rowsOf asBatch ws) :
    db'.batches.find? x.id = db.batches.find? x.id :=
  find?_of_same same (fun _ _ => batch.inj)
    (fun w _ is => by cases w <;> simp_all [asBatch]) (fun _ _ => rfl) member

end

namespace Ledger

variable {find : Db → String → Option ρ} {row : ρ → Row} {p : ρ → Bool} {f : ρ → ρ}
  {R : Rely Db Row} {A : List (Write Row) → Db → Prop}

variable {ws : List (Write Row)}

theorem guarded_updateEach (stable : ∀ ws db db', A ws db → R.allows ws db db' → A ws db')
    (keeps : ∀ ws db id r, A ws db → find (schema.overlay db ws) id = some r → p r = true →
      A (ws ++ [.update (row r), .update (row (f r))]) db)
    (chosen : List String) {db : Db} (holds : A ws db) :
    (updateEach find row p f chosen).Guarded schema R (fun ws db _ => A ws db) ws db := by
  induction chosen generalizing ws db with
  | nil => exact fun later allowed => stable ws db later holds allowed
  | cons id rest ih =>
    refine Tx.guarded_write fun later allowed seen admitted => ih ?_
    have here := stable ws db later holds allowed
    cases found : (find (schema.overlay later ws) id).filter p with
    | none => simpa using here
    | some r =>
      obtain ⟨present, qualifies⟩ := filter_eq_some_iff.mp found
      exact keeps ws later id r here present qualifies

theorem findHold_put_other (db : Db) (h : HostCreditHold) (id : String) (other : h.id ≠ id) :
    findHold (db.put (.hold h)) id = findHold db id := by
  simp [findHold, Db.put, find?_put, other]

theorem findItem_put_other (db : Db) (x : PayoutItem) (id : String) (other : x.id ≠ id) :
    findItem (db.put (.item x)) id = findItem db id := by
  simp [findItem, Db.put, find?_put, other]

theorem findBatch_put_other (db : Db) (b : PayoutBatch) (id : String) (other : b.id ≠ id) :
    findBatch (db.put (.batch b)) id = findBatch db id := by
  simp [findBatch, Db.put, find?_put, other]

theorem guarded_updateEach_current {key : ρ → String}
    (apart : ∀ (db : Db) (q : ρ) (k : String), key q ≠ k → find (db.put (row q)) k = find db k)
    (keep : ∀ r, key (f r) = key r) (todo : List ρ) {db : Db}
    (nodup : (todo.map key).Nodup) (qualify : ∀ r ∈ todo, p r = true)
    (current : ∀ db', R.allows ws db db' → ∀ r ∈ todo,
      find (schema.overlay db' ws) (key r) = some r) :
    (updateEach find row p f (todo.map key)).Guarded schema R (fun ws' db' _ =>
      ws' = ws ++ (todo.flatMap fun r => [update (row r), .update (row (f r))]) ∧
        R.allows ws db db') ws db := by
  induction todo generalizing ws db with
  | nil => exact fun later allowed => ⟨by simp, allowed⟩
  | cons r todo ih =>
    rw [map_cons, nodup_cons] at nodup
    refine Tx.guarded_write fun later allowed seen admitted => ?_
    have here : (find (schema.overlay later ws) (key r)).filter p = some r := by
      rw [current later allowed r mem_cons_self, filter_some,
        if_pos (qualify r mem_cons_self)]
    simp only [here]
    refine (ih nodup.2 (fun q member => qualify q (mem_cons_of_mem _ member)) ?_).mono ?_
    · intro db' next q member
      have other : key r ≠ key q := fun same => nodup.1 (same ▸ mem_map_of_mem member)
      have seen : find (schema.overlay db' ws) (key q) = some q :=
        current db' (R.trans allowed (R.shrink next)) q (mem_cons_of_mem _ member)
      rw [schema.overlay_append]
      change find (((schema.overlay db' ws).put (row r)).put (row (f r))) (key q) = some q
      rw [apart _ _ _ (by rwa [keep]), apart _ _ _ other, seen]
    · rintro ws' db' u ⟨rfl, since⟩
      exact ⟨by simp, R.trans allowed (R.shrink since)⟩

theorem guarded_lockHolds {p : Db → HostCreditHold → Bool} {P : HostCreditHold → Prop}
    (good : ∀ db h, p db h = true → P h) (same : ∀ ws db db', R.allows ws db db' → ∀ w ∈ ws,
      schema.get db' w.row.key = schema.get db w.row.key) (chosen : List String) {db : Db} (nodup : chosen.Nodup)
    (unwritten : ∀ id ∈ chosen, ∀ q ∈ rowsOf asHold ws, q.id ≠ id) :
    (lockEach findHold .hold p chosen).Guarded schema R (fun ws' db' locked =>
      ws' = ws ++ (locked.map fun h => update (.hold h)) ∧
        (locked.map HostCreditHold.id).Sublist chosen ∧
        (∀ h ∈ locked, P h ∧ db'.holds.find? h.id = some h) ∧ R.allows ws db db') ws db := by
  have lockedRows : ∀ locked, rowsOf asHold (locked.map fun h => update (.hold h)) =
      locked := rowsOf_locked fun _ => rfl
  induction chosen generalizing ws db with
  | nil => exact fun later allowed => ⟨by simp, by simp, by simp, allowed⟩
  | cons id rest ih =>
    rw [nodup_cons] at nodup
    refine Tx.guarded_write fun db₁ allowed₁ seen admitted => ?_
    cases found : (findHold (schema.overlay db₁ ws) id).filter (p (schema.overlay db₁ ws)) with
    | none =>
      simp only [found, map_none, toList_none, append_nil]
      have others := @ih ws db₁ nodup.2
        fun k member => unwritten k (mem_cons_of_mem _ member)
      refine others.bind ?_
      rintro locked ws' db₂ ⟨rfl, part, known, since⟩ db₃ allowed₃
      refine ⟨by simp, by simpa using part.cons id, fun h member => ?_,
        R.trans allowed₁ (R.trans since (R.shrink allowed₃))⟩
      rw [nil_append] at member
      refine ⟨(known h member).1, ?_⟩
      have written : h ∈ rowsOf asHold (ws ++ locked.map fun h => update (.hold h)) := by
        rw [rowsOf_append, lockedRows]
        exact mem_append_right _ member
      rw [find?_hold_of_same (same _ _ _ allowed₃) written]
      exact (known h member).2
    | some r =>
      -- the row is not among those written, so it is the committed one that is locked
      obtain ⟨read, qualifies⟩ := filter_eq_some_iff.mp found
      have key : r.id = id := key_of_find? read
      have committed : db₁.holds.find? r.id = some r := by
        rw [findHold, overlay_holds,
          find?_putAll_other (unwritten id mem_cons_self)] at read
        rw [key]
        exact read
      simp only [found, map_some, toList_some]
      have others := @ih (ws ++ [update (.hold r)]) db₁ nodup.2 (by
        intro k member q written
        rw [rowsOf_append] at written
        rcases mem_append.mp written with old | new
        · exact unwritten k (mem_cons_of_mem _ member) q old
        · have this : q = r := by simpa [rowsOf, asHold] using new
          rw [this, key]
          rintro rfl
          exact nodup.1 member)
      refine others.bind ?_
      rintro locked ws' db₂ ⟨rfl, part, known, since⟩ db₃ allowed₃
      have all : ∀ h ∈ r :: locked, P h ∧ db₂.holds.find? h.id = some h := by
        intro h member
        rcases mem_cons.mp member with rfl | later
        · refine ⟨good _ h qualifies, ?_⟩
          rw [find?_hold_of_same (same _ _ _ since) (by simp [rowsOf, asHold])]
          exact committed
        · exact known h later
      refine ⟨by simp, ?_, fun h member => ⟨(all h member).1, ?_⟩,
        R.trans allowed₁ (R.trans (R.shrink since) (R.shrink (R.shrink allowed₃)))⟩
      · rw [singleton_append, map_cons, key]
        exact part.cons_cons id
      · rw [find?_hold_of_same (same _ _ _ allowed₃) ?_]
        · exact (all h member).2
        · rw [rowsOf_append, rowsOf_append, lockedRows]
          rcases mem_cons.mp member with rfl | later
          · simp [rowsOf, asHold]
          · exact mem_append_right _ later

end Ledger

end Thirdshift
