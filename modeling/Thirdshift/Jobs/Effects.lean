import Thirdshift.Jobs.Machine

/-!
# Effects of the database calls

What each database call can do, said once: the tables it writes, what becomes of each job and
attempt row, which rows it adds, and what it has checked when it commits. Every invariant of the
coordinator is derived from these.
-/

namespace Thirdshift

open Foundation List Table Tx Store Option Row

variable {e : GoError} {input : Input} {a : Attempt} {ids : Nat → String} {receivedAt : Time}
  {creditHold : Duration} {response : OpenAIResponse} {p : Attempt → Bool} {f : Attempt → Attempt}
  {db db' : Db}

/-! ### Tables written -/

namespace Store

theorem writesTo_ensureReputation (nodeID : NodeID) :
    WritesTo [.reputation] (ensureReputation nodeID) := by
  apply writes_write
  intro db w written
  split at written
  · cases written
  · rw [mem_singleton] at written
    exact written ▸ mem_cons_self

theorem writesTo_updateReputationTx (nodeID : NodeID) (f : NodeReputation → NodeReputation) :
    WritesTo [.reputation] (updateReputationTx nodeID f) := by
  have reputation : TableName.reputation ∈ [TableName.reputation] := by decide
  refine (writesTo_ensureReputation nodeID).bind fun _ =>
    (writesTo_selectForUpdate fun _ => reputation).bind fun found => ?_
  cases found with
  | none => exact writesTo_fail
  | some locked => exact (writesTo_updateReputation reputation).bind fun _ => writesTo_pure

theorem writesTo_nodeIDForAttemptTx (attemptID : AttemptID) :
    WritesTo [] (nodeIDForAttemptTx attemptID) := by
  refine writesTo_select.bind fun found => ?_
  cases found with
  | none => exact writesTo_fail
  | some attempt => exact writesTo_pure

theorem writesTo_updateAcceptedReputationTx (attemptID : AttemptID) :
    WritesTo [.reputation] (updateAcceptedReputationTx attemptID) :=
  ((writesTo_nodeIDForAttemptTx attemptID).mono (by simp)).bind fun _ =>
    writesTo_updateReputationTx _ _

theorem writesTo_updateFailureReputationTx (attemptID : AttemptID) (code : String) :
    WritesTo [.reputation] (updateFailureReputationTx attemptID code) :=
  ((writesTo_nodeIDForAttemptTx attemptID).mono (by simp)).bind fun _ =>
    writesTo_updateReputationTx _ _

theorem writesTo_conclusion (payload : JobCompletedPayload) (receivedAt : Time) :
    WritesTo [.attempts, .jobs, .reputation] (do
      let _ ← updateAttempts (fun a => a.id = payload.attemptID ∧ a.jobID = payload.jobID)
        (fun a => { a with status := .succeeded, finishedAt := some receivedAt })
      let _ ← updateJobs (fun j => j.id = payload.jobID)
        (fun j => { j with
          state := .succeeded, updatedAt := receivedAt, completedAt := some receivedAt })
      updateAcceptedReputationTx payload.attemptID) :=
  (writesTo_updateAttempts (by decide)).bind fun _ => (writesTo_updateJobs (by decide)).bind fun _ =>
    (writesTo_updateAcceptedReputationTx _).mono (by decide)

end Store

theorem OperatorStore.writesTo_quarantineReputation (nodeID : NodeID) (now : Time) :
    WritesTo [.reputation] (quarantineReputation nodeID now) := by
  apply writes_write
  intro db w written
  split at written <;>
    (rw [mem_singleton] at written
     exact written ▸ mem_cons_self)

/-- Only these tables are written, and the accounts that exist stay as they are. -/
def PostsTo {α : Type} (tables : List TableName) (t : SqlTx α) : Prop :=
  WritesTo tables t ∧ t.Preserves schema fun k => k.table = .accounts

section

variable {α β : Type} {tables : List TableName} {t : SqlTx α}

theorem PostsTo.bind {f : α → SqlTx β} (first : PostsTo tables t)
    (rest : ∀ a, PostsTo tables (f a)) : PostsTo tables (t >>= f) :=
  ⟨first.1.bind fun a => (rest a).1, first.2.bind fun a => (rest a).2⟩

theorem WritesTo.posts {others : List TableName} (writes : WritesTo others t)
    (among : others ⊆ tables) (untouched : .accounts ∉ others) : PostsTo tables t :=
  ⟨writes.mono among, Tx.Writes.preserves writes fun _ member same => untouched (same ▸ member)⟩

theorem postsTo_select {q : Db → α} : PostsTo tables (Tx.select q) :=
  (writesTo_select : WritesTo [] _).posts (by simp) (by simp)

theorem postsTo_require {c : Prop} [Decidable c] : PostsTo tables (require c e) :=
  (writesTo_require : WritesTo [] _).posts (by simp) (by simp)

theorem postsTo_insertRow {row : Row} (member : row.table ∈ tables) (other : row.table ≠ .accounts) :
    PostsTo tables (insertRow row) :=
  (writesTo_insertRow mem_cons_self : WritesTo [row.table] _).posts (by simpa using member)
    (by simpa using other.symm)

end

namespace Ledger

def tables : List TableName := [.transactions, .accounts, .entries, .holds]

theorem postsTo_ensureAccount (accountID : String) (ownerType : AccountOwner)
    (ownerID accountType : String) :
    PostsTo tables (ensureAccount accountID ownerType ownerID accountType) := by
  constructor
  · apply writes_write
    intro db w written
    have member : TableName.accounts ∈ tables := by decide
    split at written <;>
      (rw [mem_singleton] at written
       exact written ▸ member)
  · intro db
    refine ⟨fun new seen ok admitted w member _ old found => ?_, trivial⟩
    cases ok
    cases known : findAccount db ownerType ownerID accountType with
    | some account =>
      simp only [known, mem_singleton] at member
      subst member
      have present : db.accounts.find? account.id = some account :=
        find?_of_mem (mem_of_find?_eq_some known)
      change (db.accounts.find? account.id).map Row.account = some old at found
      rw [present] at found
      exact Option.some.inj found
    | none =>
      -- an account that is inserted was not there
      simp only [known, mem_singleton, Schema.applyWrites] at member admitted
      split at admitted
      next admits =>
        subst member
        change db.get (account ⟨accountID, ownerType, ownerID, accountType⟩).key = some old
          at found
        rw [absent_of_admits admits] at found
        cases found
      · cases admitted

theorem writesTo_insertDraft {tables : List TableName} (tx : LedgerTransaction)
    (member : .transactions ∈ tables) : WritesTo tables (insertDraft tx) := by
  apply writes_write
  intro db w written
  split at written
  · cases written
  · rw [mem_singleton] at written
    exact written ▸ member

theorem postsTo_entry {e : LedgerEntry} : PostsTo tables (insertRow (.entry e)) :=
  postsTo_insertRow (by simp [tables, table, key]) (by nofun)

theorem postsTo_hold {h : HostCreditHold} : PostsTo tables (insertRow (.hold h)) :=
  postsTo_insertRow (by simp [tables, table, key]) (by nofun)

theorem postsTo_markPosted {txID : String} {at' : Time} :
    PostsTo tables (markPosted txID at') :=
  (writesTo_updateTransactions mem_cons_self : WritesTo [.transactions] _).posts (by decide)
    (by decide)

theorem postsTo_insertOverhead (accountID entryID txID : String) (overhead : Int) :
    PostsTo tables (insertOverhead accountID entryID txID overhead) := by
  unfold insertOverhead
  split
  · exact (postsTo_ensureAccount _ _ _ _).bind fun _ => postsTo_entry
  · exact ⟨trivial, trivial⟩

theorem postsTo_postAcceptedJob (ids : Nat → String) (posting : AcceptedJobPosting) :
    PostsTo tables (postAcceptedJob ids posting) := by
  refine postsTo_select.bind fun found => ?_
  cases found with
  | none => exact ⟨trivial, trivial⟩
  | some pricing =>
    exact ((writesTo_insertDraft _ mem_cons_self : WritesTo [.transactions] _).posts
        (by decide) (by decide)).bind fun _ => postsTo_require.bind fun _ =>
      (postsTo_ensureAccount _ _ _ _).bind fun _ => (postsTo_ensureAccount _ _ _ _).bind fun _ =>
      (postsTo_ensureAccount _ _ _ _).bind fun _ => postsTo_entry.bind fun _ =>
      postsTo_entry.bind fun _ => (postsTo_insertOverhead _ _ _ _).bind fun _ =>
      postsTo_entry.bind fun _ => postsTo_markPosted.bind fun _ =>
      postsTo_hold.bind fun _ => ⟨trivial, trivial⟩

theorem postsTo_postVerificationOverhead (ids : Nat → String)
    (posting : VerificationOverheadPosting) :
    PostsTo tables (postVerificationOverhead ids posting) := by
  refine postsTo_select.bind fun found => ?_
  cases found with
  | none => exact ⟨trivial, trivial⟩
  | some pricing =>
    exact (postsTo_insertRow (by simp [tables, table, key]) (by nofun)).bind fun _ =>
      (postsTo_ensureAccount _ _ _ _).bind fun _ => (postsTo_ensureAccount _ _ _ _).bind fun _ =>
      postsTo_entry.bind fun _ => postsTo_entry.bind fun _ => postsTo_markPosted.bind fun _ =>
      postsTo_hold

end Ledger

namespace StoreCall

def tables : StoreCall → List TableName
  | .createJob .. => [.jobs]
  | .createAttempt .. => [.attempts, .jobs]
  | .createVerificationAttempt .. => [.attempts]
  | .markAccepted .. => [.attempts, .jobs]
  | .markStarted .. => [.attempts, .jobs]
  | .completeJob .. => [.attempts, .results, .jobs, .reputation] ++ Ledger.tables
  | .failAttempt .. => [.attempts, .reputation, .jobs]
  | .failJob .. => [.attempts, .reputation, .jobs]
  | .markVerificationAttemptCompleted .. => [.attempts, .reputation]
  | .markVerificationAttemptFailed .. => [.attempts, .reputation]
  | .postVerificationOverhead .. => Ledger.tables
  | .recordMeteringIssues .. => [.events]
  | .recordDuplicateOutcome .. => [.events, .reputation]
  | .expireLeases _ => [.attempts]
  | .cancelJob .. => [.jobs]
  | .storeIdempotencyResponse .. => [.idempotency]
  | .openSession _ => [.sessions]
  | .recordHeartbeat .. => [.heartbeats, .nodes, .sessions]
  | .recordStateChanged .. => [.nodes]
  | .closeSession .. => [.nodes, .sessions]
  | .markStale _ => [.sessions, .nodes]
  | .operatorCancelJob _ => [.attempts, .jobs]
  | .operatorRetryJob _ => [.jobs]
  | .drainNode _ => [.nodes, .sessions]
  | .pauseNode _ => [.nodes]
  | .quarantineNode _ => [.nodes, .reputation]
  | _ => []

def completion : StoreCall → Option (JobID × AttemptID)
  | .completeJob payload .. => some (payload.jobID, payload.attemptID)
  | _ => none

theorem postsTo_completeJob (ids : Nat → String) (payload : JobCompletedPayload)
    (receivedAt : Time) (creditHold : Duration) (status : String) (response : OpenAIResponse) :
    PostsTo ([.attempts, .results, .jobs, .reputation] ++ Ledger.tables)
      (Store.completeJob ids payload receivedAt creditHold status response) := by
  refine postsTo_select.bind fun other =>
    ((writesTo_selectForUpdate fun _ => mem_cons_self :
      WritesTo [.attempts] _).posts (by decide) (by decide)).bind fun found => ?_
  cases found with
  | none => exact ⟨trivial, trivial⟩
  | some attempt =>
    refine postsTo_require.bind fun _ => postsTo_require.bind fun _ => ?_
    cases attempt.acceptedAt with
    | none => exact ⟨trivial, trivial⟩
    | some acceptedAt =>
      obtain ⟨writes, preserves⟩ := Ledger.postsTo_postAcceptedJob (fun n => ids (n + 1))
        ⟨payload.jobID, payload.attemptID, receivedAt, creditHold, payload.usage.promptTokens,
          payload.usage.completionTokens, 0⟩
      exact postsTo_require.bind fun _ => postsTo_require.bind fun _ =>
        (postsTo_insertRow (by simp [table, key]) (by nofun)).bind fun _ =>
        PostsTo.bind ⟨writes.mono (subset_append_right _ _), preserves⟩ fun _ =>
        ((writesTo_updateResults (by decide)).bind fun _ =>
          (writesTo_conclusion payload receivedAt).mono (by decide) :
          WritesTo [.attempts, .results, .jobs, .reputation] _).posts (by decide) (by decide)

theorem writesTo_failNamedAttempt (jobID : JobID) (attemptID : AttemptID) (code : String)
    (transient : Bool) (now : Time) : WritesTo [.attempts, .reputation]
      (Store.failNamedAttempt jobID attemptID code transient now) := by
  unfold Store.failNamedAttempt
  split
  · exact writesTo_pure
  · exact (writesTo_updateAttempts (by decide)).bind fun _ =>
      (writesTo_updateFailureReputationTx _ _).mono (by decide)

theorem writesTo_markStale (cutoff now : Time) :
    WritesTo [.sessions, .nodes] (SessionStore.markStale cutoff now) := by
  apply writes_write
  intro db w written
  rcases mem_append.mp written with session | node
  · obtain ⟨s, -, rfl⟩ := mem_map.mp session
    exact mem_cons_self
  · obtain ⟨n, -, rfl⟩ := mem_map.mp node
    simp [Write.row, table, key]

theorem writesTo_storeIdempotencyResponse (row : IdempotencyRow) :
    WritesTo [.idempotency] (Store.storeIdempotencyResponse row) := by
  apply writes_write
  intro db w written
  split at written <;>
    (rw [mem_singleton] at written
     exact written ▸ mem_cons_self)

theorem writesTo_expireLeases (now : Time) : WritesTo [.attempts] (Store.expireLeases now) :=
  writesTo_updateAttempts (by decide)

theorem writesTo_selectOne {α : Type} {q : Db → Option α} {missing : GoError} :
    WritesTo [] (selectOne q missing) := by
  refine writesTo_select.bind fun found => ?_
  cases found with
  | none => exact writesTo_fail
  | some a => exact writesTo_pure

theorem writesTo_tables (input : Input) (call : StoreCall) :
    WritesTo call.tables (call.tx input) := by
  cases call with
  | createJob => exact (writesTo_insertRow (by simp [tables, table, key])).bind fun _ => writesTo_pure
  | modelInfo | dataClass | modelHash | publicKeyForNode => exact writesTo_selectOne
  | eligibleNodes | nextAttemptNumber | attemptCount | runtimeHashes | idempotencyRecord =>
    exact writesTo_select
  | createAttempt =>
    exact ((writesTo_insertRow (by simp [tables, table, key])).bind fun _ =>
      (writesTo_updateJobs (by simp [tables])).bind fun _ => writesTo_pure).bind fun _ => writesTo_pure
  | createVerificationAttempt =>
    exact (writesTo_insertRow (by simp [tables, table, key])).bind fun _ => writesTo_pure
  | markAccepted | markStarted =>
    exact (writesTo_updateAttempts (by simp [tables])).bind fun _ => writesTo_require.bind fun _ =>
      (writesTo_updateJobs (by simp [tables])).bind fun _ => writesTo_pure
  | completeJob => exact (postsTo_completeJob _ _ _ _ _ _).1.bind fun _ => writesTo_pure
  | failAttempt =>
    exact (writesTo_updateAttempts (by simp [tables])).bind fun _ =>
      ((writesTo_updateFailureReputationTx _ _).mono (by simp [tables])).bind fun _ =>
      (writesTo_updateJobs (by simp [tables])).bind fun _ => writesTo_pure
  | failJob =>
    exact ((writesTo_failNamedAttempt _ _ _ _ _).mono (by simp [tables])).bind fun _ =>
      (writesTo_updateJobs (by simp [tables])).bind fun _ => writesTo_pure
  | markVerificationAttemptCompleted =>
    exact (writesTo_updateAttempts (by simp [tables])).bind fun _ =>
      (writesTo_updateAcceptedReputationTx _).mono (by simp [tables])
  | markVerificationAttemptFailed =>
    exact (writesTo_updateAttempts (by simp [tables])).bind fun _ =>
      (writesTo_updateFailureReputationTx _ _).mono (by simp [tables])
  | postVerificationOverhead => exact (Ledger.postsTo_postVerificationOverhead _ _).1
  | recordMeteringIssues => exact writesTo_insertRow (by simp [tables, table, key])
  | recordDuplicateOutcome =>
    exact (writesTo_insertRow (by simp [tables, table, key])).bind fun _ =>
      (writesTo_updateReputationTx _ _).mono (by simp [tables])
  | expireLeases => exact writesTo_expireLeases _
  | cancelJob => exact (writesTo_updateJobs (by simp [tables])).bind fun _ => writesTo_require
  | getJob =>
    refine writesTo_select.bind fun found => ?_
    cases found with
    | error e => exact writesTo_fail
    | ok status => exact writesTo_pure
  | storeIdempotencyResponse => exact writesTo_storeIdempotencyResponse _
  | openSession => exact (writesTo_insertRow (by simp [tables, table, key])).bind fun _ => writesTo_pure
  | recordHeartbeat =>
    exact writesTo_require.bind fun _ => writesTo_require.bind fun _ =>
      (writesTo_insertRow (by simp [tables, table, key])).bind fun _ =>
      (writesTo_updateNodes (by simp [tables])).bind fun _ =>
      (writesTo_updateSessions (by simp [tables])).bind fun _ => writesTo_pure
  | recordSafetyEvent => exact writesTo_require
  | recordStateChanged | pauseNode =>
    exact (writesTo_updateNodes (by simp [tables])).bind fun _ => writesTo_pure
  | closeSession =>
    exact (writesTo_updateNodes (by simp [tables])).bind fun _ =>
      (writesTo_updateSessions (by simp [tables])).bind fun _ => writesTo_pure
  | markStale => exact writesTo_markStale _ _
  | operatorCancelJob =>
    exact (writesTo_updateAttempts (by simp [tables])).bind fun _ =>
      (writesTo_updateJobs (by simp [tables])).bind fun _ => writesTo_pure
  | operatorRetryJob => exact (writesTo_updateJobs (by simp [tables])).bind fun _ => writesTo_pure
  | drainNode =>
    exact (writesTo_updateNodes (by simp [tables])).bind fun _ => writesTo_select.bind fun _ =>
      (writesTo_updateSessions (by simp [tables])).bind fun _ => writesTo_pure
  | quarantineNode =>
    exact (writesTo_updateNodes (by simp [tables])).bind fun _ =>
      (OperatorStore.writesTo_quarantineReputation _ _).mono (by simp [tables])

/-! ### Jobs and attempts -/

def onJob (input : Input) : StoreCall → Job → Job
  | .createAttempt jobID .. => Table.updateWhere (fun j => j.id = jobID)
      (fun j => { j with state := .leased, updatedAt := input.dbNow })
  | .markAccepted jobID _ | .markStarted jobID _ =>
    Table.updateWhere (fun j => j.id = jobID ∧ j.state ≠ .succeeded)
      (fun j => { j with state := .running, updatedAt := input.now })
  | .completeJob payload receivedAt .. => Table.updateWhere (fun j => j.id = payload.jobID)
      (fun j => { j with
        state := .succeeded, updatedAt := receivedAt, completedAt := some receivedAt })
  | .failAttempt jobID _ _ _ occurredAt =>
    Table.updateWhere (fun j => j.id = jobID ∧ (j.state = .leased ∨ j.state = .running))
      (fun j => { j with state := .queued, updatedAt := occurredAt })
  | .failJob jobID _ _ _ occurredAt => Table.updateWhere (fun j => j.id = jobID)
      (fun j => { j with state := .failed, updatedAt := occurredAt, completedAt := some occurredAt })
  | .cancelJob orgID jobID =>
    Table.updateWhere
      (fun j => j.id = jobID ∧ j.organizationID = orgID ∧ (j.state = .queued ∨ j.state = .leased))
      (fun j => { j with state := .cancelled, updatedAt := input.now, completedAt := some input.now })
  | .operatorCancelJob jobID => Table.updateWhere (fun j => j.id = jobID ∧ j.state ≠ .succeeded)
      (fun j => { j with state := .cancelled, updatedAt := input.now, completedAt := some input.now })
  | .operatorRetryJob jobID =>
    Table.updateWhere (fun j => j.id = jobID ∧ (j.state = .failed ∨ j.state = .cancelled))
      (fun j => { j with state := .queued, completedAt := none, updatedAt := input.now })
  | _ => id

def onAttempt (input : Input) : StoreCall → Attempt → Attempt
  | .markAccepted jobID attemptID => Table.updateWhere
      (fun a => a.id = attemptID ∧ a.jobID = jobID ∧ a.status = .offered ∧
        input.now ≤ a.leaseExpiresAt ∧ input.now ≤ a.createdAt + seconds 2)
      (fun a => { a with status := .accepted, acceptedAt := some input.now })
  | .markStarted jobID attemptID => Table.updateWhere
      (fun a => a.id = attemptID ∧ a.jobID = jobID ∧ a.status.taken)
      (fun a => { a with status := .running, startedAt := some input.now })
  | .completeJob payload receivedAt .. => Table.updateWhere
      (fun a => a.id = payload.attemptID ∧ a.jobID = payload.jobID)
      (fun a => { a with status := .succeeded, finishedAt := some receivedAt })
  | .failAttempt jobID attemptID code transient occurredAt => Table.updateWhere
      (fun a => a.id = attemptID ∧ a.jobID = jobID ∧ a.status.live)
      (fun a => Store.Attempt.fail a code transient occurredAt)
  | .failJob jobID attemptID code transient occurredAt => Table.updateWhere
      (fun a => attemptID ≠ "" ∧ a.id = attemptID ∧ a.jobID = jobID)
      (fun a => Store.Attempt.fail a code transient occurredAt)
  | .markVerificationAttemptCompleted jobID attemptID occurredAt => Table.updateWhere
      (fun a => a.id = attemptID ∧ a.jobID = jobID ∧ a.status.taken)
      (fun a => { a with status := .verified, finishedAt := some occurredAt })
  | .markVerificationAttemptFailed jobID attemptID code occurredAt => Table.updateWhere
      (fun a => a.id = attemptID ∧ a.jobID = jobID ∧ a.status.live)
      (fun a => Store.Attempt.fail a code true occurredAt)
  | .expireLeases now => Table.updateWhere
      (fun a => a.status = .offered ∧ a.leaseExpiresAt ≤ now)
      (fun a => { a with
        status := .expired, transientFailure := true, errorCode := some codeJobTimeout,
        finishedAt := some now })
  | .operatorCancelJob jobID => Table.updateWhere (fun a => a.jobID = jobID ∧ a.status.live)
      (fun a => { a with status := .cancelled, finishedAt := some (a.finishedAt.getD input.now) })
  | _ => id

def jobOf : StoreCall → Option JobID
  | .createAttempt jobID .. => some jobID
  | .markAccepted jobID _ => some jobID
  | .markStarted jobID _ => some jobID
  | .completeJob payload .. => some payload.jobID
  | .failAttempt jobID .. => some jobID
  | .failJob jobID .. => some jobID
  | .cancelJob _ jobID => some jobID
  | .operatorCancelJob jobID => some jobID
  | .operatorRetryJob jobID => some jobID
  | _ => none

def attemptOf : StoreCall → Option (JobID × AttemptID)
  | .markAccepted jobID attemptID => some (jobID, attemptID)
  | .markStarted jobID attemptID => some (jobID, attemptID)
  | .completeJob payload .. => some (payload.jobID, payload.attemptID)
  | .failAttempt jobID attemptID .. => some (jobID, attemptID)
  | .failJob jobID attemptID .. => some (jobID, attemptID)
  | .markVerificationAttemptCompleted jobID attemptID _ => some (jobID, attemptID)
  | .markVerificationAttemptFailed jobID attemptID .. => some (jobID, attemptID)
  | .postVerificationOverhead payload .. => some (payload.jobID, payload.attemptID)
  | _ => none

theorem onJob_of_other {call : StoreCall} {j : Job}
    (other : call.jobOf ≠ some j.id) : call.onJob input j = j := by
  cases call <;> simp only [jobOf, ne_eq, Option.some.injEq] at other <;>
    simp only [onJob, Table.updateWhere, id] <;>
    simp [Ne.symm other]

theorem onAttempt_of_other {call : StoreCall} (other : call.attemptOf ≠ some (a.jobID, a.id))
    (current : ∀ at', call = .expireLeases at' → ¬(a.status = .offered ∧ a.leaseExpiresAt ≤ at'))
    (kept : call ≠ .operatorCancelJob a.jobID) : call.onAttempt input a = a := by
  cases call
  case expireLeases at' => exact if_neg (by simpa using current at' rfl)
  case operatorCancelJob jobID =>
    refine if_neg fun holds => kept ?_
    rw [(of_decide_eq_true holds).1]
  all_goals
    simp only [attemptOf, ne_eq, Option.some.injEq, Prod.mk.injEq, not_and] at other
    first
      | rfl
      | (refine if_neg fun holds => ?_
         simp only [decide_eq_true_eq] at holds
         simp_all)

def newJob (input : Input) : StoreCall → Option Job
  | .createJob orgID apiKeyID modelID deadlineAt => some
      ⟨input.ids 0, orgID, apiKeyID, modelID, .queued, deadlineAt, input.dbNow, input.dbNow, none⟩
  | _ => none

def newAttempt (input : Input) : StoreCall → Option Attempt
  | .createAttempt jobID nodeID number leaseExpiresAt deadlineAt
  | .createVerificationAttempt jobID nodeID number leaseExpiresAt deadlineAt => some
      (Store.newAttempt (input.ids 0) (input.ids 1) jobID nodeID number leaseExpiresAt deadlineAt
        input.dbNow)
  | _ => none

theorem maps_failNamedAttempt (jobID : JobID) (attemptID : AttemptID) (code : String)
    (transient : Bool) (occurredAt : Time) : Tx.Maps schema Db.attempts
      (Table.updateWhere (fun a => attemptID ≠ "" ∧ a.id = attemptID ∧ a.jobID = jobID)
        (fun a => Store.Attempt.fail a code transient occurredAt))
      (Store.failNamedAttempt jobID attemptID code transient occurredAt) := by
  unfold Store.failNamedAttempt
  by_cases unnamed : attemptID = ""
  · have nothing : (Table.updateWhere (fun a : Attempt => attemptID ≠ "" ∧ a.id = attemptID ∧
        a.jobID = jobID) (fun a => Store.Attempt.fail a code transient occurredAt)) = id := by
      funext a
      simp [Table.updateWhere, unnamed]
    rw [if_pos unnamed, nothing]
    exact maps_done
  · rw [if_neg unnamed]
    simp only [ne_eq, unnamed, not_false_eq_true, true_and]
    exact Tx.Maps.before (maps_updateAttempts fun _ _ => rfl) fun _ =>
      (writesTo_updateFailureReputationTx _ _).maps_attempts (by decide)

theorem maps_expireLeases (now : Time) : Tx.Maps schema Db.attempts
      (Table.updateWhere (fun a => a.status = .offered ∧ a.leaseExpiresAt ≤ now) (fun a => { a with
          status := .expired, transientFailure := true, errorCode := some codeJobTimeout,
          finishedAt := some now })) (Store.expireLeases now) := by
  intro db db' expired ok
  obtain ⟨-, -, after⟩ := exec_write_ok ok
  rw [after, overlay_attempts]
  exact find?_putAll_updated db.attempts _ _ (fun _ _ => rfl)

theorem maps_completeJob {ρ κ : Type} [DecidableEq κ] {key : ρ → κ}
    {table : Db → Table key} {f : ρ → ρ} {payload : JobCompletedPayload} {status : String}
    (rest : ∀ attempt : Attempt, Tx.Maps schema table f (Store.recordAccepted ids payload receivedAt
      creditHold status response attempt)) : Tx.Maps schema table f
      (Store.completeJob ids payload receivedAt creditHold status response) := by
  have locked : Tx.Maps schema table id (Store.lockAttempt payload.jobID payload.attemptID) :=
    maps_id_of_frame fun ok => by rw [(lockAttempt_ok ok).2]
  refine maps_select.after fun other => locked.after fun found => ?_
  cases found with
  | none => exact maps_fail
  | some attempt =>
    refine maps_require.after fun _ => maps_require.after fun _ => ?_
    cases attempt.acceptedAt with
    | none => exact maps_fail
    | some acceptedAt => exact maps_require.after fun _ => maps_require.after fun _ => rest attempt

theorem attempts_updateJobs {p : Job → Bool} {f : Job → Job} :
    Tx.Maps schema Db.attempts id (updateJobs p f) :=
  (writesTo_updateJobs mem_cons_self : WritesTo [.jobs] _).maps_attempts (by decide)

theorem jobs_updateAttempts : Tx.Maps schema Db.jobs id (updateAttempts p f) :=
  (writesTo_updateAttempts mem_cons_self : WritesTo [.attempts] _).maps_jobs (by decide)

theorem maps_onJob (input : Input) (call : StoreCall) (noNew : call.newJob input = none) :
    Tx.Maps schema Db.jobs (call.onJob input) (call.tx input) := by
  by_cases untouched : .jobs ∉ call.tables
  · have nothing : call.onJob input = id := by
      cases call <;> first | rfl | exact absurd (by simp [tables]) untouched
    rw [nothing]
    exact (writesTo_tables input call).maps_jobs untouched
  cases call with
  | createAttempt =>
    refine Tx.Maps.before (Tx.Maps.after ?_ fun _ =>
      Tx.Maps.before (maps_updateJobs fun _ _ => rfl) fun _ => maps_done) fun _ => maps_done
    exact (writesTo_insertRow mem_cons_self : WritesTo [.attempts] _).maps_jobs (by decide)
  | markAccepted | markStarted =>
    exact jobs_updateAttempts.after fun _ => maps_require.after fun _ =>
      Tx.Maps.before (maps_updateJobs fun _ _ => rfl) fun _ => maps_done
  | completeJob =>
    refine Tx.Maps.before (maps_completeJob fun attempt => ?_) fun _ => maps_done
    refine Tx.Maps.after ?_ fun _ => Tx.Maps.after ?_ fun _ => Tx.Maps.after ?_ fun _ =>
      jobs_updateAttempts.after fun _ => Tx.Maps.before (maps_updateJobs fun _ _ => rfl) fun _ => ?_
    · exact (writesTo_insertRow mem_cons_self : WritesTo [.results] _).maps_jobs (by decide)
    · exact (Ledger.postsTo_postAcceptedJob _ _).1.maps_jobs (by decide)
    · exact (writesTo_updateResults (by decide) : WritesTo [.results] _).maps_jobs (by decide)
    · exact (writesTo_updateAcceptedReputationTx _).maps_jobs (by decide)
  | failAttempt =>
    refine jobs_updateAttempts.after fun _ => Tx.Maps.after ?_ fun _ =>
      Tx.Maps.before (maps_updateJobs fun _ _ => rfl) fun _ => maps_done
    exact (writesTo_updateFailureReputationTx _ _).maps_jobs (by decide)
  | failJob =>
    refine Tx.Maps.after ?_ fun _ =>
      Tx.Maps.before (maps_updateJobs fun _ _ => rfl) fun _ => maps_done
    exact (writesTo_failNamedAttempt _ _ _ _ _).maps_jobs (by decide)
  | cancelJob => exact Tx.Maps.before (maps_updateJobs fun _ _ => rfl) fun _ => maps_require
  | operatorCancelJob =>
    exact jobs_updateAttempts.after fun _ =>
      Tx.Maps.before (maps_updateJobs fun _ _ => rfl) fun _ => maps_done
  | operatorRetryJob => exact Tx.Maps.before (maps_updateJobs fun _ _ => rfl) fun _ => maps_done
  | createJob => cases noNew
  | _ => exact absurd (by simp [tables, Ledger.tables]) untouched

theorem maps_onAttempt (input : Input) (call : StoreCall)
    (noNew : call.newAttempt input = none) :
    Tx.Maps schema Db.attempts (call.onAttempt input) (call.tx input) := by
  by_cases untouched : .attempts ∉ call.tables
  · have nothing : call.onAttempt input = id := by
      cases call <;> first | rfl | exact absurd (by simp [tables]) untouched
    rw [nothing]
    exact (writesTo_tables input call).maps_attempts untouched
  cases call with
  | createAttempt | createVerificationAttempt => cases noNew
  | markAccepted | markStarted =>
    exact Tx.Maps.before (maps_updateAttempts fun _ _ => rfl) fun _ =>
      maps_require.after fun _ => attempts_updateJobs.after fun _ => maps_done
  | completeJob =>
    refine Tx.Maps.before (maps_completeJob fun attempt => ?_) fun _ => maps_done
    refine Tx.Maps.after ?_ fun _ => Tx.Maps.after ?_ fun _ => Tx.Maps.after ?_ fun _ =>
      Tx.Maps.before (maps_updateAttempts fun _ _ => rfl) fun _ => attempts_updateJobs.after fun _ => ?_
    · exact (writesTo_insertRow mem_cons_self : WritesTo [.results] _).maps_attempts (by decide)
    · exact (Ledger.postsTo_postAcceptedJob _ _).1.maps_attempts (by decide)
    · exact (writesTo_updateResults (by decide) : WritesTo [.results] _).maps_attempts (by decide)
    · exact (writesTo_updateAcceptedReputationTx _).maps_attempts (by decide)
  | failAttempt =>
    refine Tx.Maps.before (maps_updateAttempts fun _ _ => rfl) fun _ => Tx.Maps.after ?_ fun _ =>
      attempts_updateJobs.after fun _ => maps_done
    exact (writesTo_updateFailureReputationTx _ _).maps_attempts (by decide)
  | failJob =>
    exact Tx.Maps.before (maps_failNamedAttempt _ _ _ _ _) fun _ =>
      attempts_updateJobs.after fun _ => maps_done
  | markVerificationAttemptCompleted =>
    exact Tx.Maps.before (maps_updateAttempts fun _ _ => rfl) fun _ =>
      (writesTo_updateAcceptedReputationTx _).maps_attempts (by decide)
  | markVerificationAttemptFailed =>
    exact Tx.Maps.before (maps_updateAttempts fun _ _ => rfl) fun _ =>
      (writesTo_updateFailureReputationTx _ _).maps_attempts (by decide)
  | expireLeases now => exact maps_expireLeases now
  | operatorCancelJob =>
    exact Tx.Maps.before (maps_updateAttempts fun _ _ => rfl) fun _ =>
      attempts_updateJobs.after fun _ => maps_done
  | _ => exact absurd (by simp [tables, Ledger.tables]) untouched

end StoreCall

/-- The columns of an attempt that no call writes after it is created. -/
structure Attempt.SameLease (a b : Attempt) : Prop where
  id : a.id = b.id
  jobID : a.jobID = b.jobID
  nodeID : a.nodeID = b.nodeID
  leaseExpiresAt : a.leaseExpiresAt = b.leaseExpiresAt
  deadlineAt : a.deadlineAt = b.deadlineAt
  createdAt : a.createdAt = b.createdAt

namespace StoreCall

variable {u : Unit} {payload : JobCompletedPayload} {status : String}

theorem sameLease_updateWhere (same : ∀ a, Attempt.SameLease (f a) a)
    (a : Attempt) : Attempt.SameLease (Table.updateWhere p f a) a := by
  unfold Table.updateWhere
  split
  · exact same a
  · constructor <;> rfl

theorem sameLease_onAttempt (input : Input) (call : StoreCall) (a : Attempt) :
    Attempt.SameLease (call.onAttempt input a) a := by
  cases call <;> first
    | exact ⟨rfl, rfl, rfl, rfl, rfl, rfl⟩
    | (simp only [onAttempt]
       refine sameLease_updateWhere (fun b => ?_) a
       constructor <;> rfl)

section

variable {call : StoreCall} {r : call.Result}

theorem jobs_after (ok : Tx.exec schema (call.tx input) db = .ok (r, db')) (id : JobID) :
    db'.jobs.find? id = ((db.jobs.find? id).map (call.onJob input)).or
      ((call.newJob input).filter fun j => j.id = id) := by
  cases new : call.newJob input with
  | none => simp [maps_onJob input call new _ _ _ ok id]
  | some j =>
    cases call with
    | createJob orgID apiKeyID modelID deadlineAt =>
      obtain ⟨_, mid, inserted, done⟩ := exec_bind_ok ok
      obtain ⟨fresh, rfl⟩ := insertJob_ok inserted
      obtain ⟨-, rfl⟩ := exec_done_ok done
      cases new
      simpa [onJob] using find?_put_fresh fresh id
    | _ => cases new

theorem createJob_result {orgID apiKeyID : String} {modelID : ModelID} {deadlineAt : Time}
    {id : JobID} (ok : Tx.exec schema ((createJob orgID apiKeyID modelID deadlineAt).tx input) db =
      .ok (id, db')) : db.jobs.find? id = none ∧ ∃ j, db'.jobs.find? id = some j := by
  have added := jobs_after ok id
  obtain ⟨_, mid, inserted, done⟩ := exec_bind_ok ok
  obtain ⟨rfl, -⟩ := exec_done_ok done
  have fresh : db.jobs.find? (input.ids 0) = none := (insertJob_ok inserted).1
  refine ⟨fresh, isSome_iff_exists.mp ?_⟩
  rw [added, fresh]
  simp [newJob]

section

variable (ok : Tx.exec schema (call.tx input) db = .ok (r, db'))
include ok

section

variable (new : call.newAttempt input = some a)
include new

theorem insert_newAttempt :
    db.attempts.find? a.id = none ∧ db.hasJob a.jobID = true ∧ db.hasNode a.nodeID = true ∧
      db'.attempts = db.attempts.put a := by
  cases call with
  | createAttempt jobID nodeID number leaseExpiresAt deadlineAt =>
    obtain ⟨_, mid, created, done⟩ := exec_bind_ok ok
    obtain ⟨_, mid', inserted, leased⟩ := exec_bind_ok created
    obtain ⟨n, _, updated, done'⟩ := exec_bind_ok leased
    obtain ⟨-, rfl⟩ := exec_done_ok done
    obtain ⟨-, rfl⟩ := exec_done_ok done'
    cases new
    obtain ⟨fresh, job, node, rfl⟩ := insertAttempt_ok inserted
    obtain ⟨-, rfl⟩ := updateJobs_ok updated
    exact ⟨fresh, job, node, rfl⟩
  | createVerificationAttempt jobID nodeID number leaseExpiresAt deadlineAt =>
    obtain ⟨_, mid, inserted, done⟩ := exec_bind_ok ok
    obtain ⟨-, rfl⟩ := exec_done_ok done
    cases new
    obtain ⟨fresh, job, node, rfl⟩ := insertAttempt_ok inserted
    exact ⟨fresh, job, node, rfl⟩
  | _ => cases new

theorem fresh_newAttempt : db.attempts.find? a.id = none :=
  (insert_newAttempt ok new).1

theorem hasJob_of_newAttempt : db.hasJob a.jobID = true :=
  (insert_newAttempt ok new).2.1

end

theorem attempts_after (id : AttemptID) :
    db'.attempts.find? id = ((db.attempts.find? id).map (call.onAttempt input)).or
      ((call.newAttempt input).filter fun a => a.id = id) := by
  cases new : call.newAttempt input with
  | none => simp [maps_onAttempt input call new _ _ _ ok id]
  | some a =>
    obtain ⟨fresh, -, -, after⟩ := insert_newAttempt ok new
    have kept : call.onAttempt input = fun a => a := by cases call <;> first | rfl | cases new
    rw [after, find?_put_fresh fresh id, kept, Option.map_id']

end

end

/-! ### What a call has checked when it commits -/

theorem affected_ok {α : Type} {rest : SqlTx α} {a : α}
    (ok : Tx.exec schema (do
      let affected ← updateAttempts p f
      require (affected ≠ 0) e
      rest) db = .ok (a, db')) : ∃ attempt ∈ db.attempts.rows, p attempt = true := by
  obtain ⟨n, mid, updated, continued⟩ := exec_bind_ok ok
  obtain ⟨_, _, checked, -⟩ := exec_bind_ok continued
  have some := (require_ok checked).1
  rw [(updateAttempts_ok updated).1] at some
  obtain ⟨attempt, member⟩ := exists_mem_of_length_pos (Nat.pos_of_ne_zero some)
  exact ⟨attempt, mem_filter.mp member⟩

theorem expireLeases_result {at' : Time} {expired : List ExpiredAttempt}
    (ok : Tx.exec schema ((StoreCall.expireLeases at').tx input) db = .ok (expired, db'))
    {attempt : ExpiredAttempt} (member : attempt ∈ expired) :
    ∃ a ∈ db.attempts.rows, (a.status = .offered ∧ a.leaseExpiresAt ≤ at') ∧
      attempt = ⟨a.jobID, a.id, a.nodeID⟩ := by
  obtain ⟨result, -, -⟩ := exec_write_ok ok
  rw [result] at member
  obtain ⟨a, lapsed, rfl⟩ := mem_map.mp member
  obtain ⟨row, holds⟩ := mem_filter.mp lapsed
  exact ⟨a, row, of_decide_eq_true holds, rfl⟩

theorem markAccepted_checked {jobID : JobID} {attemptID : AttemptID}
    (ok : Tx.exec schema ((markAccepted jobID attemptID).tx input) db = .ok (u, db')) :
    ∃ a, db.attempts.find? attemptID = some a ∧ a.jobID = jobID ∧ a.status = .offered ∧
      input.now ≤ a.leaseExpiresAt ∧ input.now ≤ a.createdAt + seconds 2 := by
  obtain ⟨a, member, matched⟩ := affected_ok ok
  obtain ⟨rfl, rest⟩ := of_decide_eq_true matched
  exact ⟨a, find?_of_mem member, rest⟩

theorem markStarted_checked {jobID : JobID} {attemptID : AttemptID}
    (ok : Tx.exec schema ((markStarted jobID attemptID).tx input) db = .ok (u, db')) :
    ∃ a, db.attempts.find? attemptID = some a ∧ a.jobID = jobID ∧ a.status.taken = true := by
  obtain ⟨a, member, matched⟩ := affected_ok ok
  obtain ⟨rfl, rest⟩ := of_decide_eq_true matched
  exact ⟨a, find?_of_mem member, rest⟩

/-- What `CompleteJob` requires of the attempt it completes. -/
structure Completable (db : Db) (payload : JobCompletedPayload) (receivedAt : Time)
    (attempt : Attempt) : Prop where
  found : db.attempts.find? payload.attemptID = some attempt
  ofJob : attempt.jobID = payload.jobID
  taken : attempt.status.taken = true
  inLease : ∃ acceptedAt, attempt.acceptedAt = some acceptedAt ∧ acceptedAt ≤ attempt.leaseExpiresAt
  inTime : receivedAt ≤ attempt.deadlineAt
  first : ∀ other ∈ db.attempts.rows, other.jobID = payload.jobID → other.status ≠ .succeeded

theorem completeJob_ok
    (ok : Tx.exec schema (Store.completeJob ids payload receivedAt creditHold status response) db =
      .ok (u, db')) : ∃ attempt, Completable db payload receivedAt attempt ∧
      Tx.exec schema (Store.recordAccepted ids payload receivedAt creditHold status response
        attempt) db = .ok (u, db') := by
  obtain ⟨another, _, read, afterRead⟩ := exec_bind_ok ok
  obtain ⟨rfl, rfl⟩ := exec_select_ok read
  obtain ⟨found, _, locked, afterLock⟩ := exec_bind_ok afterRead
  obtain ⟨same, rfl⟩ := lockAttempt_ok locked
  cases found with
  | none => cases afterLock
  | some attempt =>
    obtain ⟨present, ofJob⟩ := filter_eq_some_iff.mp same.symm
    obtain ⟨_, _, notDone, afterAlone⟩ := exec_bind_ok afterLock
    obtain ⟨alone, rfl⟩ := require_ok notDone
    obtain ⟨_, _, fromTaken, afterTaken⟩ := exec_bind_ok afterAlone
    obtain ⟨taken, rfl⟩ := require_ok fromTaken
    cases accepted : attempt.acceptedAt with
    | none =>
      rw [accepted] at afterTaken
      cases afterTaken
    | some acceptedAt =>
      rw [accepted] at afterTaken
      obtain ⟨_, _, leased, afterLease⟩ := exec_bind_ok afterTaken
      obtain ⟨inLease, rfl⟩ := require_ok leased
      obtain ⟨_, _, timely, recorded⟩ := exec_bind_ok afterLease
      obtain ⟨inTime, rfl⟩ := require_ok timely
      refine ⟨attempt, ⟨present, of_decide_eq_true ofJob, taken, ⟨acceptedAt, accepted, inLease⟩,
        inTime, ?_⟩, recorded⟩
      intro other member sameJob succeeded
      -- the locked attempt itself is covered by the second half of the check
      by_cases itself : other.id = payload.attemptID
      · have eq : other = attempt := by
          have found := find?_of_mem member
          rw [itself, present] at found
          exact (Option.some.inj found).symm
        exact alone (.inr (eq ▸ succeeded))
      · refine alone (.inl (any_eq_true.mpr ⟨other, member, ?_⟩))
        exact decide_eq_true ⟨sameJob, itself, succeeded⟩

section

variable {cls : String} {attempts : Nat} {r : OpenAIResponse}
  (ok : Tx.exec schema ((completeJob payload receivedAt creditHold status cls attempts).tx input) db =
    .ok (r, db'))
include ok

theorem completeJob_checked : ∃ attempt, Completable db payload receivedAt attempt := by
  obtain ⟨_, _, completed, -⟩ := exec_bind_ok ok
  obtain ⟨attempt, completable, -⟩ := completeJob_ok completed
  exact ⟨attempt, completable⟩

theorem job_of_completeJob : ∃ j, db.jobs.find? payload.jobID = some j := by
  obtain ⟨_, _, completed, -⟩ := exec_bind_ok ok
  obtain ⟨attempt, -, recorded⟩ := completeJob_ok completed
  obtain ⟨_, _, inserted, -⟩ := exec_bind_ok recorded
  have valid := valid_of_admits (insertRow_ok inserted).1
  simp only [Db.valid, Bool.and_eq_true] at valid
  exact isSome_iff_exists.mp valid.1.1

end

end StoreCall

end Thirdshift
