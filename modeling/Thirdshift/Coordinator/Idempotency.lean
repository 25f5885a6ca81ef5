import Thirdshift.Coordinator.Runs

/-!
# Idempotency records

The record of a key is found through its unique index. On a conflict `StoreIdempotencyResponse`
replaces the response and keeps the request hash and the expiry of the row that is there, so what
is found afterwards is what was stored exactly when the old row agrees on both.
-/

namespace Thirdshift

open Foundation List Table Deployment Store Tx

namespace IdempotencyRow

def SameKey (a b : IdempotencyRow) : Prop :=
  a.apiKeyID = b.apiKeyID ∧ a.endpoint = b.endpoint ∧ a.idempotencyKey = b.idempotencyKey
  deriving Decidable

def content (r : IdempotencyRow) : String × Nat × JobID × OpenAIResponse :=
  (r.requestHash, r.responseStatus, r.jobID, r.response)

end IdempotencyRow

def Db.Holds (db : Db) (key r : IdempotencyRow) : Prop :=
  r ∈ db.idempotency.rows ∧ ∀ q ∈ db.idempotency.rows, q.SameKey key ↔ q = r

variable {db db' : Db} {key r row : IdempotencyRow} {u : Unit}

theorem unique_idempotency (unique : schema.Unique db) {a b : IdempotencyRow}
    (ha : a ∈ db.idempotency.rows) (hb : b ∈ db.idempotency.rows) (same : a.SameKey b) : a = b := by
  obtain ⟨apiKey, endpoint, key⟩ := same
  have inB : Index.idempotencyKey a.apiKeyID a.endpoint a.idempotencyKey ∈
      schema.index (.idempotency b) := mem_singleton.mpr (by rw [apiKey, endpoint, key])
  refine Row.idempotency.inj (unique.row_eq (k := ⟨.idempotency, a.id⟩)
    (l := ⟨.idempotency, b.id⟩) _ ?_ ?_ mem_cons_self inB)
  · exact congrArg (Option.map Row.idempotency) (find?_of_mem ha)
  · exact congrArg (Option.map Row.idempotency) (find?_of_mem hb)

theorem idempotencyRecord_of_holds (holds : db.Holds key r) (now : Time) :
    idempotencyRecord db key.apiKeyID key.endpoint key.idempotencyKey now =
      if now < r.expiresAt then some r else none := by
  obtain ⟨member, only⟩ := holds
  have mine := (only r member).mpr rfl
  unfold idempotencyRecord
  split
  next current =>
    cases found : db.idempotency.rows.find? _ with
    | none =>
      have missed := find?_eq_none.mp found r member
      exact absurd (decide_eq_true ⟨mine.1, mine.2.1, mine.2.2, current⟩) missed
    | some q =>
      have matched := find?_some found
      simp only [decide_eq_true_eq] at matched
      obtain ⟨apiKey, endpoint, idem, -⟩ := matched
      rw [(only q (mem_of_find?_eq_some found)).mp ⟨apiKey, endpoint, idem⟩]
  next expired =>
    rw [find?_eq_none]
    intro q inside matched
    obtain ⟨apiKey, endpoint, idem, current⟩ := of_decide_eq_true matched
    rw [(only q inside).mp ⟨apiKey, endpoint, idem⟩] at current
    exact expired current

/-! ### Storing a response -/

def Db.storedRow (db : Db) (row : IdempotencyRow) : IdempotencyRow :=
  match db.idempotency.rows.find? fun r => r.SameKey row with
  | some old => { old with
      responseStatus := row.responseStatus, response := row.response, jobID := row.jobID }
  | none => row

theorem storedRow_sameKey (db : Db) (row : IdempotencyRow) : (db.storedRow row).SameKey row := by
  unfold Db.storedRow
  split
  next old found =>
    have same : old.SameKey row := by simpa using find?_some found
    exact same
  · exact ⟨rfl, rfl, rfl⟩

theorem idempotency_after_store
    (stored : exec schema (storeIdempotencyResponse row) db = .ok (u, db')) :
    db'.idempotency = db.idempotency.put (db.storedRow row) ∧
      ∀ q ∈ db.idempotency.rows, ¬q.SameKey row → q.id ≠ (db.storedRow row).id := by
  obtain ⟨-, applied, after⟩ := exec_write_ok stored
  cases found : db.idempotency.rows.find? fun r => r.SameKey row with
  | some old =>
    have raw : (db.idempotency.rows.find? fun r => r.apiKeyID = row.apiKeyID ∧
        r.endpoint = row.endpoint ∧ r.idempotencyKey = row.idempotencyKey) = some old := found
    have same : old.SameKey row := by simpa using find?_some found
    simp only [raw] at after
    refine ⟨by rw [after]; simp [Db.storedRow, found]; rfl, fun q member other clash => ?_⟩
    simp only [Db.storedRow, found] at clash
    have equal := eq_of_key member (mem_of_find?_eq_some found) clash
    exact other (equal ▸ same)
  | none =>
    have raw : (db.idempotency.rows.find? fun r => r.apiKeyID = row.apiKeyID ∧
        r.endpoint = row.endpoint ∧ r.idempotencyKey = row.idempotencyKey) = none := found
    simp only [raw] at after applied
    refine ⟨by rw [after]; simp [Db.storedRow, found]; rfl, fun q member _ clash => ?_⟩
    simp only [Schema.applyWrites] at applied
    split at applied
    next admitted =>
      have absent : db.idempotency.find? row.id = none :=
        Option.map_eq_none_iff.mp (absent_of_admits admitted)
      simp only [Db.storedRow, found] at clash
      rw [← clash, find?_of_mem member] at absent
      cases absent
    · cases applied

theorem holds_of_store (unique : schema.Unique db)
    (stored : exec schema (storeIdempotencyResponse row) db = .ok (u, db')) :
    db'.Holds row (db.storedRow row) := by
  have member : db.storedRow row ∈ db'.idempotency.rows := by
    rw [(idempotency_after_store stored).1, mem_put]
    exact .inl rfl
  refine ⟨member, fun q inside => ⟨fun same => ?_, fun same => same ▸ storedRow_sameKey db row⟩⟩
  obtain ⟨apiKey, endpoint, key⟩ := storedRow_sameKey db row
  exact unique_idempotency (unique_exec unique stored) inside member
    ⟨same.1.trans apiKey.symm, same.2.1.trans endpoint.symm, same.2.2.trans key.symm⟩

theorem Db.Holds.store_other (holds : db.Holds key r) (other : ¬row.SameKey key)
    (stored : exec schema (storeIdempotencyResponse row) db = .ok (u, db')) :
    db'.Holds key r := by
  obtain ⟨after, apart⟩ := idempotency_after_store stored
  obtain ⟨apiKey, endpoint, idem⟩ := storedRow_sameKey db row
  have mine := (holds.2 r holds.1).mpr rfl
  have foreign : ¬r.SameKey row := fun same =>
    other ⟨same.1.symm.trans mine.1, same.2.1.symm.trans mine.2.1, same.2.2.symm.trans mine.2.2⟩
  constructor
  · rw [after, mem_put]
    exact .inr ⟨holds.1, apart r holds.1 foreign⟩
  · intro q inside
    rw [after, mem_put] at inside
    rcases inside with rfl | ⟨old, -⟩
    · refine ⟨fun same => absurd ?_ other, fun same => absurd ?_ foreign⟩
      · exact ⟨apiKey.symm.trans same.1, endpoint.symm.trans same.2.1, idem.symm.trans same.2.2⟩
      · exact same ▸ ⟨apiKey, endpoint, idem⟩
    · exact holds.2 q old

def StoreCall.storesUnder (key : IdempotencyRow) : StoreCall → Prop
  | .storeIdempotencyResponse apiKeyID endpoint idempotencyKey .. =>
    apiKeyID = key.apiKeyID ∧ endpoint = key.endpoint ∧ idempotencyKey = key.idempotencyKey
  | _ => False

/-- Any number of database calls, none of which stores a response under the key. -/
inductive Undisturbed (key : IdempotencyRow) : Db → Db → Prop
  | refl (db : Db) : Undisturbed key db db
  | call {db mid last : Db} {input : Input} {call : StoreCall} {r : call.Result}
      (earlier : Undisturbed key db mid) (other : ¬call.storesUnder key)
      (ran : exec schema (call.tx input) mid = .ok (r, last)) : Undisturbed key db last

theorem Db.Holds.undisturbed (holds : db.Holds key r) (later : Undisturbed key db db') :
    db'.Holds key r := by
  induction later with
  | refl => exact holds
  | @call mid last input call v earlier other ran ih =>
    cases call with
    | storeIdempotencyResponse apiKeyID endpoint idempotencyKey requestHash jobID response =>
      exact Db.Holds.store_other ih (fun same : IdempotencyRow.SameKey ⟨_, apiKeyID, endpoint,
        idempotencyKey, requestHash, _, response, jobID, _⟩ key => other same) ran
    | _ =>
      have same : last.idempotency = mid.idempotency :=
        (StoreCall.writesTo_tables input _).idempotency (by simp [StoreCall.tables, Ledger.tables]) ran
      rw [Db.Holds, same]
      exact ih

/-- A stored response is found again, until it expires and not after, exactly when the row that was
under its key, if any, has the same request hash and the same expiry. -/
theorem stored_response_found_iff {db db' db'' : Db} {row : IdempotencyRow} {u : Unit}
    (unique : schema.Unique db)
    (stored : exec schema (storeIdempotencyResponse row) db = .ok (u, db'))
    (later : Undisturbed row db' db'') :
    (∀ now, (idempotencyRecord db'' row.apiKeyID row.endpoint row.idempotencyKey now).map
        IdempotencyRow.content = if now < row.expiresAt then some row.content else none) ↔
      ∀ old ∈ db.idempotency.rows, old.SameKey row →
        old.requestHash = row.requestHash ∧ old.expiresAt = row.expiresAt := by
  have holds := (holds_of_store unique stored).undisturbed later
  simp only [idempotencyRecord_of_holds holds]
  -- the old row survives in the hash and the expiry of what is stored
  have kept : (∀ old ∈ db.idempotency.rows, old.SameKey row →
      old.requestHash = row.requestHash ∧ old.expiresAt = row.expiresAt) ↔
      (db.storedRow row).requestHash = row.requestHash ∧
        (db.storedRow row).expiresAt = row.expiresAt := by
    unfold Db.storedRow
    split
    next old found =>
      have member := mem_of_find?_eq_some found
      have same : old.SameKey row := by simpa using find?_some found
      refine ⟨fun all => all old member same, fun agrees q inside sameKey => ?_⟩
      have equal : q = old := unique_idempotency unique inside member
        ⟨sameKey.1.trans same.1.symm, sameKey.2.1.trans same.2.1.symm,
          sameKey.2.2.trans same.2.2.symm⟩
      exact equal ▸ agrees
    next none =>
      refine ⟨fun _ => ⟨rfl, rfl⟩, fun _ q inside sameKey => ?_⟩
      exact absurd (decide_eq_true sameKey) (find?_eq_none.mp none q inside)
  have written : (db.storedRow row).responseStatus = row.responseStatus ∧
      (db.storedRow row).jobID = row.jobID ∧ (db.storedRow row).response = row.response := by
    unfold Db.storedRow
    split <;> exact ⟨rfl, rfl, rfl⟩
  rw [kept]
  constructor
  · intro lookup
    have expiry : (db.storedRow row).expiresAt = row.expiresAt := by
      -- look the key up at the earlier of the two expiries
      rcases Int.lt_trichotomy (db.storedRow row).expiresAt row.expiresAt with early | same | late
      · have missed := lookup (db.storedRow row).expiresAt
        simp [early] at missed
      · exact same
      · have found := lookup row.expiresAt
        simp [late] at found
    have before := lookup (row.expiresAt - 1)
    have current : row.expiresAt - 1 < row.expiresAt := Int.sub_one_lt_of_le (Int.le_refl _)
    rw [expiry] at before
    simp only [current, ↓reduceIte, Option.map_some, Option.some.injEq, IdempotencyRow.content,
      Prod.mk.injEq] at before
    exact ⟨before.1, expiry⟩
  · rintro ⟨hash, expiry⟩ now
    rw [expiry]
    split
    · simp [IdempotencyRow.content, hash, written]
    · rfl

namespace Deployment

def record (id hash jobID : String) (expiresAt : Time) : IdempotencyRow :=
  ⟨id, "ak", "/v1/chat/completions", "k", hash, 200,
    completionResponse id (payload jobID "a") "public" 1, jobID, expiresAt⟩

/-- Two jobs exist, and `rows` are stored one after the other. -/
def storing (rows : List IdempotencyRow) : SqlTx Unit := do
  createJob "j1" "org" "ak" "m" 1000 0
  createJob "j2" "org" "ak" "m" 1000 0
  rows.forM storeIdempotencyResponse

end Deployment

/-- The response of a second job takes the place of the first one under the same key. -/
theorem stored_response_found_iff_again : ∃ db db' : Db, schema.Unique db ∧
    db.idempotency.rows.map IdempotencyRow.jobID = ["j1"] ∧
    exec schema (storeIdempotencyResponse (record "s" "h" "j2" 100)) db = .ok ((), db') ∧
    ∀ now, (idempotencyRecord db' "ak" "/v1/chat/completions" "k" now).map IdempotencyRow.content =
      if now < 100 then some (record "s" "h" "j2" 100).content else none := by
  have runs : ((exec schema (storing [record "r" "h" "j1" 100]) start.db).toOption.any fun mid =>
      decide (mid.2.idempotency.rows.map IdempotencyRow.jobID = ["j1"]) &&
      mid.2.idempotency.rows.all (fun old => old.requestHash = "h" ∧ old.expiresAt = 100) &&
      (exec schema (storeIdempotencyResponse (record "s" "h" "j2" 100)) mid.2).toOption.any
        fun _ => true) = true := by decide +kernel
  obtain ⟨⟨_, mid⟩, first, checks⟩ := Deployment.ok_of_check runs
  obtain ⟨⟨one, agree⟩, stores⟩ := (Bool.and_eq_true_iff.mp checks).imp_left Bool.and_eq_true_iff.mp
  obtain ⟨⟨_, last⟩, stored, -⟩ := Deployment.ok_of_check stores
  have unique : schema.Unique mid := unique_exec (unique_boot _ _) first
  refine ⟨mid, last, unique, of_decide_eq_true one, stored, ?_⟩
  refine (stored_response_found_iff unique stored (.refl last)).mpr fun old inside _ => ?_
  exact of_decide_eq_true (all_eq_true.mp agree old inside)

/-- A response that is stored under a key whose record has expired is not found. -/
theorem stored_response_lost :
    ((exec schema (storing [record "r" "h" "j1" 100,
        record "s" "h" "j2" 300]) start.db).toOption.map fun last =>
      (idempotencyRecord last.2 "ak" "/v1/chat/completions" "k" 200).map
        IdempotencyRow.jobID) = some none := by
  decide +kernel

end Thirdshift
