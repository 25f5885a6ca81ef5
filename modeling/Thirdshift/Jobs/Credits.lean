import Thirdshift.Jobs.Effects

/-!
# Reputation and credits

Which node a database call speaks of. A call that names an attempt changes the reputation, and
records credit, of the node the attempt is leased to and of no other.
-/

namespace Thirdshift

open Foundation List Table Tx Option Ledger Store

variable {nodeID : NodeID} {db : Db} {entryID : String} {ids : Nat → String}

def LeasedTo (nodeID : NodeID) (attemptID : AttemptID) (db : Db) : Prop :=
  ∀ a, db.attempts.find? attemptID = some a → a.nodeID = nodeID

/-- A row that leaves the attempt with the node and says nothing about another node. -/
def Row.About (nodeID : NodeID) (attemptID : AttemptID) : Row → Prop
  | .attempt r => r.id = attemptID → r.nodeID = nodeID
  | .reputation r => r.nodeID = nodeID
  | .hold h => h.nodeID = nodeID
  | _ => True

def Row.ReputationOf (nodeID : NodeID) (row : Row) : Prop :=
  ∃ r : NodeReputation, row = .reputation r ∧ r.nodeID = nodeID

namespace Store

theorem reputationOf_ensureReputation (nodeID : NodeID) :
    (ensureReputation nodeID).Writes (Row.ReputationOf nodeID) := by
  apply writes_write
  intro db w written
  split at written
  · cases written
  · rw [mem_singleton] at written
    exact ⟨newReputation nodeID, written ▸ rfl, rfl⟩

theorem reputationOf_updateReputationTx (nodeID : NodeID)
    (f : NodeReputation → NodeReputation) :
    (updateReputationTx nodeID f).Writes (Row.ReputationOf nodeID) := by
  have locked : (selectForUpdate (fun db => db.reputation.find? nodeID) .reputation).Writes
      (Row.ReputationOf nodeID) := by
    apply writes_write
    intro db w written
    obtain ⟨r, found, rfl⟩ := map_eq_some_iff.mp (mem_toList.mp written)
    exact ⟨r, rfl, key_of_find? found⟩
  refine (reputationOf_ensureReputation nodeID).bind fun _ => locked.bind fun found => ?_
  cases found with
  | none => trivial
  | some old =>
    refine Tx.Writes.bind (writes_write fun db w written => ?_) fun _ => trivial
    obtain ⟨r, updated, rfl⟩ := mem_map.mp written
    obtain ⟨_, -, rfl⟩ := mem_map.mp updated
    exact ⟨_, rfl, rfl⟩

end Store

theorem OperatorStore.reputationOf_quarantineReputation (nodeID : NodeID) (now : Time) :
    (quarantineReputation nodeID now).Writes (Row.ReputationOf nodeID) := by
  apply writes_write
  intro db w written
  split at written
  next r found =>
    rw [mem_singleton] at written
    subst written
    have key : r.nodeID = nodeID := key_of_find? found
    exact ⟨{ r with quarantinedAt := some (r.quarantinedAt.getD now) }, rfl, key⟩
  · rw [mem_singleton] at written
    subst written
    exact ⟨{ newReputation nodeID with quarantinedAt := some now }, rfl, rfl⟩

section

variable {attemptID : AttemptID} {α : Type}

theorem leasedTo_put (db : Db) (row : Row) (leased : LeasedTo nodeID attemptID db)
    (about : row.About nodeID attemptID) : LeasedTo nodeID attemptID (schema.put db row) := by
  cases row with
  | attempt r =>
    intro a found
    change (db.attempts.put r).find? attemptID = some a at found
    rw [find?_put] at found
    split at found
    next same =>
      cases found
      exact about same
    · exact leased a found
  | _ => exact leased

/-- As long as the attempt is leased to the node, every row written is about them. -/
abbrev WritesAbout {α : Type} (nodeID : NodeID) (attemptID : AttemptID) (t : SqlTx α) : Prop :=
  t.WritesUnder (LeasedTo nodeID attemptID) (Row.About nodeID attemptID)

theorem about_of_tables {tables : List TableName} {t : SqlTx α} (writes : WritesTo tables t)
    (apart : ∀ table ∈ tables, table ≠ .attempts ∧ table ≠ .reputation ∧ table ≠ .holds) :
    WritesAbout nodeID attemptID t := by
  refine Tx.Writes.under writes fun row member => ?_
  have other := apart row.table member
  cases row with
  | attempt r => exact absurd rfl other.1
  | reputation r => exact absurd rfl other.2.1
  | hold r => exact absurd rfl other.2.2
  | _ => trivial

theorem about_updateAttempts {p : Attempt → Bool} {f : Attempt → Attempt}
    (id : ∀ a, (f a).id = a.id) (node : ∀ a, (f a).nodeID = a.nodeID) :
    WritesAbout nodeID attemptID (updateAttempts p f) := by
  apply writesUnder_write
  intro db leased w written
  obtain ⟨r, updated, rfl⟩ := mem_map.mp written
  obtain ⟨a, member, rfl⟩ := mem_map.mp updated
  intro same
  rw [node]
  have found := find?_of_mem (mem_filter.mp member).1
  rw [show a.id = attemptID from (id a).symm.trans same] at found
  exact leased a found

theorem about_insertHold {hold : HostCreditHold} (same : hold.nodeID = nodeID) :
    WritesAbout nodeID attemptID (insertRow (.hold hold)) := by
  apply writesUnder_write
  intro db _ w written
  rw [mem_singleton] at written
  exact written ▸ same

namespace Store

theorem about_updateReputationTx (f : NodeReputation → NodeReputation) :
    WritesAbout nodeID attemptID (updateReputationTx nodeID f) := by
  refine Tx.Writes.under (reputationOf_updateReputationTx nodeID f) fun row reputation => ?_
  obtain ⟨r, rfl, same⟩ := reputation
  exact same

def loaded : Option Attempt → SqlTx NodeID
  | none => Tx.fail (.other "load attempt node for reputation: no rows in result set")
  | some attempt => pure attempt.nodeID

theorem about_nodeIDForAttemptTx {f : NodeID → SqlTx α}
    (rest : WritesAbout nodeID attemptID (f nodeID)) :
    WritesAbout nodeID attemptID (nodeIDForAttemptTx attemptID >>= f) := by
  have assoc : (nodeIDForAttemptTx attemptID >>= f) =
      Tx.select (fun db => db.attempts.find? attemptID) >>= fun found => loaded found >>= f := rfl
  rw [assoc]
  refine writesUnder_select fun db leased => ?_
  cases found : db.attempts.find? attemptID with
  | none => trivial
  | some a =>
    change (f a.nodeID).WritesUnder _ _
    rw [leased a found]
    exact rest

end Store

theorem node_of_pricing {jobID : JobID} {t : Time} {pricing : Pricing}
    (leased : LeasedTo nodeID attemptID db)
    (priced : db.pricing jobID attemptID t = some pricing) : pricing.nodeID = nodeID := by
  unfold Db.pricing at priced
  split at priced
  next j a _ found =>
    split at priced
    · obtain ⟨price, -, rfl⟩ := map_eq_some_iff.mp priced
      exact leased a found
    · cases priced
  · cases priced

namespace Ledger

variable {accountID txID : String}

theorem about_account {ownerType : AccountOwner} {ownerID accountType : String} :
    WritesAbout nodeID attemptID (ensureAccount accountID ownerType ownerID accountType) := by
  apply writesUnder_write
  intro db _ w written
  split at written <;>
    (rw [mem_singleton] at written
     exact written ▸ trivial)

theorem about_entry {amount : Int} {memo : String} :
    WritesAbout nodeID attemptID (insertEntry entryID txID accountID amount memo) :=
  about_of_tables (show WritesTo [.entries] _ from writesTo_insertRow mem_cons_self)
    (by decide)

theorem about_markPosted {t : Time} : WritesAbout nodeID attemptID (markPosted txID t) :=
  about_of_tables (show WritesTo [.transactions] _ from writesTo_updateTransactions (by decide))
    (by decide)

theorem about_require {c : Prop} [Decidable c] {e : GoError} :
    WritesAbout nodeID attemptID (require c e) :=
  about_of_tables (show WritesTo [] _ from writesTo_require) (by decide)

theorem about_overhead {overhead : Int} :
    WritesAbout nodeID attemptID (insertOverhead accountID entryID txID overhead) := by
  unfold insertOverhead
  split
  · exact about_account.bind fun _ => about_entry
  · trivial

theorem about_postAcceptedJob {posting : AcceptedJobPosting}
    (same : posting.attemptID = attemptID) :
    WritesAbout nodeID attemptID (postAcceptedJob ids posting) := by
  subst same
  refine writesUnder_select fun db leased => ?_
  cases priced : db.pricing posting.jobID posting.attemptID posting.receivedAt with
  | none => trivial
  | some pricing =>
    have drafted {tx : LedgerTransaction} : WritesAbout nodeID posting.attemptID (insertDraft tx) :=
      about_of_tables (show WritesTo [.transactions] _ from writesTo_insertDraft tx (by decide))
        (by decide)
    exact drafted.bind fun _ => about_require.bind fun _ => about_account.bind fun _ =>
      about_account.bind fun _ => about_account.bind fun _ => about_entry.bind fun _ =>
      about_entry.bind fun _ => about_overhead.bind fun _ => about_entry.bind fun _ =>
      about_markPosted.bind fun _ =>
      (about_insertHold (node_of_pricing leased priced)).bind fun _ => trivial

theorem about_postVerificationOverhead
    {posting : VerificationOverheadPosting} (same : posting.attemptID = attemptID) :
    WritesAbout nodeID attemptID (postVerificationOverhead ids posting) := by
  subst same
  refine writesUnder_select fun db leased => ?_
  cases priced : db.pricing posting.jobID posting.attemptID posting.receivedAt with
  | none => trivial
  | some pricing =>
    have inserted {tx : LedgerTransaction} :
        WritesAbout nodeID posting.attemptID (insertRow (.transaction tx)) :=
      about_of_tables (show WritesTo [.transactions] _ from
        writesTo_insertRow mem_cons_self) (by decide)
    exact inserted.bind fun _ => about_account.bind fun _ => about_account.bind fun _ =>
      about_entry.bind fun _ => about_entry.bind fun _ => about_markPosted.bind fun _ =>
      about_insertHold (node_of_pricing leased priced)

end Ledger

namespace Store

variable {jobID : JobID} {code : String} {transient : Bool} {now : Time}

theorem about_updateJobs {p : Job → Bool} {f : Job → Job} :
    WritesAbout nodeID attemptID (updateJobs p f) :=
  about_of_tables (show WritesTo [.jobs] _ from writesTo_updateJobs (by decide)) (by decide)

theorem about_updateAcceptedReputationTx :
    WritesAbout nodeID attemptID (updateAcceptedReputationTx attemptID) :=
  about_nodeIDForAttemptTx (about_updateReputationTx _)

theorem about_updateFailureReputationTx :
    WritesAbout nodeID attemptID (updateFailureReputationTx attemptID code) :=
  about_nodeIDForAttemptTx (about_updateReputationTx _)

theorem about_lockAttempt : WritesAbout nodeID attemptID (lockAttempt jobID attemptID) := by
  apply writesUnder_write
  intro db leased w written
  obtain ⟨a, found, rfl⟩ := map_eq_some_iff.mp (mem_toList.mp written)
  exact fun _ => leased a (filter_eq_some_iff.mp found).1

theorem about_completeJob {payload : JobCompletedPayload}
    {receivedAt : Time} {creditHold : Duration} {status : String} {response : OpenAIResponse}
    (same : payload.attemptID = attemptID) :
    WritesAbout nodeID attemptID (completeJob ids payload receivedAt creditHold status response) := by
  subst same
  refine writesUnder_select fun db _ => about_lockAttempt.bind fun found => ?_
  cases found with
  | none => trivial
  | some attempt =>
    refine about_require.bind fun _ => about_require.bind fun _ => ?_
    cases attempt.acceptedAt with
    | none => trivial
    | some acceptedAt =>
      have inserted {r : JobResult} : WritesAbout nodeID payload.attemptID (insertRow (.result r)) :=
        about_of_tables (show WritesTo [.results] _ from
          writesTo_insertRow mem_cons_self) (by decide)
      have priced {p : JobResult → Bool} {f : JobResult → JobResult} :
          WritesAbout nodeID payload.attemptID (updateResults p f) :=
        about_of_tables (show WritesTo [.results] _ from writesTo_updateResults (by decide))
          (by decide)
      refine about_require.bind fun _ => about_require.bind fun _ =>
        inserted.bind fun _ => Tx.WritesUnder.bind (about_postAcceptedJob rfl) fun _ =>
        priced.bind fun _ => ?_
      exact Tx.WritesUnder.bind (about_updateAttempts (fun _ => rfl) fun _ => rfl) fun _ =>
        about_updateJobs.bind fun _ => about_updateAcceptedReputationTx

theorem about_failAttempt :
    WritesAbout nodeID attemptID (failAttempt jobID attemptID code transient now) := by
  refine Tx.WritesUnder.bind (about_updateAttempts (fun _ => rfl) fun _ => rfl) fun _ => ?_
  exact about_updateFailureReputationTx.bind fun _ => about_updateJobs.bind fun _ => trivial

theorem about_failJob :
    WritesAbout nodeID attemptID (failJob jobID attemptID code transient now) := by
  refine Tx.WritesUnder.bind ?_ fun _ => about_updateJobs.bind fun _ => trivial
  unfold failNamedAttempt
  split
  · trivial
  · exact Tx.WritesUnder.bind (about_updateAttempts (fun _ => rfl) fun _ => rfl) fun _ =>
      about_updateFailureReputationTx

end Store

end

def Row.Credits (nodeID : NodeID) : Row → Prop
  | .reputation r => r.nodeID = nodeID
  | .hold h => h.nodeID = nodeID
  | _ => True

theorem Row.About.credits {attemptID : AttemptID} {row : Row}
    (about : row.About nodeID attemptID) : row.Credits nodeID := by
  cases row with
  | reputation r => exact about
  | hold h => exact about
  | _ => trivial

/-- The reputation of every other node stays, and every new hold is the node's. -/
structure CreditsOnly (nodeID : NodeID) (db db' : Db) : Prop where
  reputation : ∀ other, other ≠ nodeID → db'.reputation.find? other = db.reputation.find? other
  holds : ∀ hold ∈ db'.holds.rows, hold ∈ db.holds.rows ∨ hold.nodeID = nodeID

theorem creditsOnly_overlay {ws : List (Write Row)}
    (credits : ∀ w ∈ ws, w.row.Credits nodeID) : CreditsOnly nodeID db (schema.overlay db ws) := by
  induction ws generalizing db with
  | nil => exact ⟨fun _ _ => rfl, fun _ member => .inl member⟩
  | cons w ws ih =>
    have rest : CreditsOnly nodeID (schema.put db w.row)
        (schema.overlay (schema.put db w.row) ws) :=
      ih fun v member => credits v (mem_cons_of_mem _ member)
    obtain ⟨reputation, holds⟩ := rest
    have now := credits w mem_cons_self
    constructor
    · intro other apart
      refine (reputation other apart).trans ?_
      generalize w.row = row at now
      cases row with
      | reputation r =>
        change (db.reputation.put r).find? other = _
        rw [find?_put, if_neg fun same => apart (same.symm.trans now)]
      | _ => rfl
    · intro hold member
      refine (holds hold member).elim (fun earlier => ?_) .inr
      generalize w.row = row at now earlier
      cases row with
      | hold h =>
        change hold ∈ (db.holds.put h).rows at earlier
        rcases mem_put.mp earlier with rfl | ⟨old, -⟩
        · exact .inr now
        · exact .inl old
      | _ => exact .inl earlier

namespace StoreCall

def nodeOf : StoreCall → Option NodeID
  | .recordDuplicateOutcome outcome => some outcome.nodeID
  | .quarantineNode nodeID => some nodeID
  | _ => none

/-- The attempt a call names is leased to the node, and the node it names is that node. -/
structure SpeaksOf (nodeID : NodeID) (db : Db) (call : StoreCall) : Prop where
  attempt : ∀ jobID attemptID, call.attemptOf = some (jobID, attemptID) →
    LeasedTo nodeID attemptID db
  node : ∀ other, call.nodeOf = some other → other = nodeID

theorem credits_of_tables {tables : List TableName} {α : Type} {t : SqlTx α}
    (writes : WritesTo tables t) (plain : .reputation ∉ tables ∧ .holds ∉ tables) :
    t.Writes (Row.Credits nodeID) := by
  refine Tx.Writes.mono writes fun row member => ?_
  cases row with
  | reputation r => exact absurd member plain.1
  | hold h => exact absurd member plain.2
  | _ => trivial

theorem credits_of_reputation {α : Type} {t : SqlTx α}
    (writes : t.Writes (Row.ReputationOf nodeID)) : t.Writes (Row.Credits nodeID) := by
  refine Tx.Writes.mono writes fun row reputation => ?_
  obtain ⟨r, rfl, same⟩ := reputation
  exact same

theorem creditsOnly {input : Input} {call : StoreCall} {r : call.Result} {db' : Db}
    (speaks : call.SpeaksOf nodeID db) (ok : Tx.exec schema (call.tx input) db = .ok (r, db')) :
    CreditsOnly nodeID db db' := by
  suffices laid : ∃ ws, db' = schema.overlay db ws ∧ ∀ w ∈ ws, w.row.Credits nodeID by
    obtain ⟨ws, rfl, credits⟩ := laid
    exact creditsOnly_overlay credits
  have of_about {jobID : JobID} {attemptID : AttemptID}
      (names : call.attemptOf = some (jobID, attemptID))
      (about : WritesAbout nodeID attemptID (call.tx input)) :
      ∃ ws, db' = schema.overlay db ws ∧ ∀ w ∈ ws, w.row.Credits nodeID := by
    obtain ⟨ws, after, all⟩ := about.exec leasedTo_put (speaks.attempt _ _ names) ok
    exact ⟨ws, after, fun w member => (all w member).credits⟩
  have of_writes (writes : (call.tx input).Writes (Row.Credits nodeID)) :
      ∃ ws, db' = schema.overlay db ws ∧ ∀ w ∈ ws, w.row.Credits nodeID :=
    Tx.WritesUnder.exec (C := fun _ => True) (Tx.Writes.under writes fun _ => id)
      (fun _ _ _ _ => trivial) trivial ok
  -- calls that name an attempt write about the node it is leased to, the others about no node or
  -- the one they name
  cases call with
  | completeJob payload receivedAt creditHold status cls attempts =>
    exact of_about rfl ((about_completeJob rfl).bind fun _ => trivial)
  | failAttempt jobID attemptID code transient occurredAt =>
    exact of_about rfl about_failAttempt
  | failJob jobID attemptID code transient occurredAt =>
    exact of_about rfl about_failJob
  | markVerificationAttemptCompleted jobID attemptID occurredAt =>
    exact of_about rfl (Tx.WritesUnder.bind
      (about_updateAttempts (fun _ => rfl) fun _ => rfl) fun _ =>
        about_updateAcceptedReputationTx)
  | markVerificationAttemptFailed jobID attemptID code occurredAt =>
    exact of_about rfl (Tx.WritesUnder.bind
      (about_updateAttempts (fun _ => rfl) fun _ => rfl) fun _ =>
        about_updateFailureReputationTx)
  | postVerificationOverhead payload creditHold receivedAt =>
    exact of_about rfl (about_postVerificationOverhead rfl)
  | recordDuplicateOutcome outcome =>
    cases speaks.node _ rfl
    exact of_writes (Tx.Writes.bind (credits_of_tables (show WritesTo [.events] _ from
      writesTo_insertRow mem_cons_self) (by decide)) fun _ =>
        credits_of_reputation (reputationOf_updateReputationTx _ _))
  | quarantineNode other =>
    cases speaks.node _ rfl
    exact of_writes (Tx.Writes.bind (credits_of_tables (show WritesTo [.nodes] _ from
      writesTo_updateNodes (by decide)) (by decide)) fun _ =>
        credits_of_reputation (OperatorStore.reputationOf_quarantineReputation _ _))
  | _ => exact of_writes (credits_of_tables (writesTo_tables input _) (by simp [tables]))

end StoreCall

end Thirdshift
