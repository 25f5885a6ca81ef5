import Thirdshift.Reputation.Rates

/-!
# Counted attempts

Five calls of the store count an attempt for its node, each whether or not its own update of the
attempt matched a row, and the sweep that expires offers counts nothing. A node's counters agree
with its attempts as long as every counted attempt is one that the same call concludes and no offer
expires.
-/

namespace Thirdshift

open Foundation List Table Tx StoreCall AttemptStatus Option Deployment Store

variable {db db' : Db} {n : Nat} {f : Attempt → Attempt} {nodeID : NodeID} {input : Input}
  {o : AttemptOutcome}

/-! ### What a call counts -/

/-- The attempt that a call counts when it commits, and as what. -/
def StoreCall.counts : StoreCall → Option (AttemptID × AttemptOutcome)
  | .completeJob payload .. => some (payload.attemptID, ⟨true, ""⟩)
  | .failAttempt _ attemptID code .. => some (attemptID, ⟨false, code⟩)
  | .failJob _ attemptID code .. =>
    if attemptID = "" then none else some (attemptID, ⟨false, code⟩)
  | .markVerificationAttemptCompleted _ attemptID _ => some (attemptID, ⟨true, ""⟩)
  | .markVerificationAttemptFailed _ attemptID code _ => some (attemptID, ⟨false, code⟩)
  | _ => none

def NodeReputation.counters (r : NodeReputation) : Int × Int × Int :=
  (r.attemptTotal, r.attemptFailed, r.hashMismatchCount)

theorem standing_of_frame {α : Type} {tables : List TableName} {t : SqlTx α} {a : α}
    (writes : WritesTo tables t) (untouched : .reputation ∉ tables)
    (ok : Tx.exec schema t db = .ok (a, db')) : db'.standing = db.standing := by
  unfold Db.standing
  rw [writes.reputation untouched ok]

section

variable {u : Unit} {attemptID : AttemptID} {accepted : Bool} {code : String}

theorem standing_updateJobs {p : Job → Bool} {f : Job → Job}
    (ok : Tx.exec schema (updateJobs p f) db = .ok (n, db')) : db'.standing = db.standing :=
  standing_of_frame (writesTo_updateJobs mem_cons_self : WritesTo [.jobs] _) (by decide) ok

theorem standing_updateAttempts {p : Attempt → Bool}
    (ok : Tx.exec schema (updateAttempts p f) db = .ok (n, db')) : db'.standing = db.standing :=
  standing_of_frame (writesTo_updateAttempts mem_cons_self : WritesTo [.attempts] _) (by decide) ok

theorem countAttempt_ok
    (ok : Tx.exec schema (nodeIDForAttemptTx attemptID >>= fun nodeID =>
      updateAttemptReputationTx nodeID accepted code) db = .ok (u, db')) :
    db'.attempts = db.attempts ∧ ∃ a, db.attempts.find? attemptID = some a ∧
      ∀ n, db'.standing n =
        if n = a.nodeID then (db.standing n).afterAttempt accepted code else db.standing n := by
  obtain ⟨nodeID, _, loaded, counted⟩ := exec_bind_ok ok
  obtain ⟨found, here, read, known⟩ := exec_bind_ok loaded
  obtain ⟨rfl, rfl⟩ := exec_select_ok read
  cases there : here.attempts.find? attemptID with
  | none =>
    rw [there] at known
    cases known
  | some a =>
    rw [there] at known
    obtain ⟨rfl, rfl⟩ := exec_done_ok known
    refine ⟨(writesTo_updateReputationTx _ _).attempts (by decide) counted, a, rfl, ?_⟩
    intro n
    rw [standing_updateAttemptReputationTx counted n]
    split
    next same => rw [same]
    · rfl

theorem counters_quarantineReputation {now : Time}
    (ok : Tx.exec schema (OperatorStore.quarantineReputation nodeID now) db = .ok (u, db'))
    (n : NodeID) : (db'.standing n).counters = (db.standing n).counters := by
  obtain ⟨-, -, after⟩ := exec_write_ok ok
  cases found : db.reputation.find? nodeID with
  | some r =>
    rw [found] at after
    subst after
    change (((db.reputation.put _).find? n).getD _).counters = _
    rw [find?_put]
    split
    next same =>
      have key : r.nodeID = nodeID := key_of_find? found
      rw [Db.standing, ← same]
      change _ = ((db.reputation.find? r.nodeID).getD _).counters
      rw [key, found]
      rfl
    · rfl
  | none =>
    rw [found] at after
    subst after
    change (((db.reputation.put _).find? n).getD _).counters = _
    rw [find?_put]
    split
    next same =>
      rw [Db.standing, ← same]
      change _ = ((db.reputation.find? nodeID).getD _).counters
      rw [found]
      rfl
    · rfl

end

namespace StoreCall

section

variable {call : StoreCall} {r : call.Result}

section

variable (ok : Tx.exec schema (call.tx input) db = .ok (r, db'))
include ok

theorem standing_of_counts {attemptID : AttemptID}
    (counts : call.counts = some (attemptID, o)) :
    ∃ a, db.attempts.find? attemptID = some a ∧ ∀ n, db'.standing n =
      if n = a.nodeID then (db.standing n).afterAttempt o.accepted o.code else db.standing n := by
  -- the row that was read is the one found before, as far as its node goes
  have conclude : ∀ {mid counted : Db} {u : Unit}, mid.standing = db.standing →
      Tx.exec schema (nodeIDForAttemptTx attemptID >>= fun nodeID =>
        updateAttemptReputationTx nodeID o.accepted o.code) mid = .ok (u, counted) →
      db'.attempts = counted.attempts → db'.standing = counted.standing →
      call.newAttempt input = none → ∃ a, db.attempts.find? attemptID = some a ∧
        ∀ n, db'.standing n =
          if n = a.nodeID then (db.standing n).afterAttempt o.accepted o.code else db.standing n := by
    intro mid counted u before counting attempts after old
    obtain ⟨same, a', found, standing⟩ := countAttempt_ok counting
    have origin := attempts_after ok attemptID
    rw [attempts, same, found, old, filter_none, or_none] at origin
    obtain ⟨a, there, rfl⟩ := map_eq_some_iff.mp origin.symm
    refine ⟨a, there, fun n => ?_⟩
    rw [after, standing, (sameLease_onAttempt input call a).nodeID, before]
  cases call with
  | completeJob payload =>
    cases counts
    obtain ⟨_, _, completed, done⟩ := exec_bind_ok ok
    obtain ⟨-, rfl⟩ := exec_done_ok done
    obtain ⟨attempt, -, recorded⟩ := completeJob_ok completed
    obtain ⟨_, db₁, inserted, rest⟩ := exec_bind_ok recorded
    obtain ⟨_, db₂, posted, rest⟩ := exec_bind_ok rest
    obtain ⟨_, db₃, priced, rest⟩ := exec_bind_ok rest
    obtain ⟨_, db₄, succeeded, rest⟩ := exec_bind_ok rest
    obtain ⟨_, db₅, finished, counting⟩ := exec_bind_ok rest
    refine conclude ?_ counting rfl rfl rfl
    calc db₅.standing = db₄.standing :=
          standing_updateJobs finished
      _ = db₃.standing :=
          standing_updateAttempts succeeded
      _ = db₂.standing :=
          standing_of_frame (writesTo_updateResults (mem_singleton.mpr rfl)) (by decide) priced
      _ = db₁.standing :=
          standing_of_frame (Ledger.postsTo_postAcceptedJob _ _).1 (by decide) posted
      _ = db.standing :=
          standing_of_frame (writesTo_insertRow (mem_singleton.mpr rfl))
            (by simp [Row.table, Row.key]) inserted
  | failAttempt jobID attempt =>
    cases counts
    obtain ⟨_, _, failed, rest⟩ := exec_bind_ok ok
    obtain ⟨_, _, counting, rest⟩ := exec_bind_ok rest
    obtain ⟨_, _, queued, done⟩ := exec_bind_ok rest
    obtain ⟨-, rfl⟩ := exec_done_ok done
    exact conclude
      (standing_updateAttempts failed) counting
      ((writesTo_updateJobs (mem_singleton.mpr rfl)).attempts (by decide) queued)
        (standing_updateJobs queued) rfl
  | failJob jobID attempt =>
    rw [StoreCall.counts] at counts
    split at counts
    · cases counts
    next named =>
      cases counts
      obtain ⟨_, _, failing, rest⟩ := exec_bind_ok ok
      obtain ⟨_, _, failed, done⟩ := exec_bind_ok rest
      obtain ⟨-, rfl⟩ := exec_done_ok done
      rw [failNamedAttempt, if_neg named] at failing
      obtain ⟨_, _, updated, counting⟩ := exec_bind_ok failing
      exact conclude
        (standing_updateAttempts updated) counting
        ((writesTo_updateJobs (mem_singleton.mpr rfl)).attempts (by decide) failed)
        (standing_updateJobs failed) rfl
  | markVerificationAttemptCompleted | markVerificationAttemptFailed =>
    cases counts
    obtain ⟨_, _, updated, counting⟩ := exec_bind_ok ok
    exact conclude (standing_updateAttempts updated) counting rfl rfl rfl
  | _ => cases counts

theorem counters_of_uncounted (uncounted : call.counts = none) (n : NodeID) :
    (db'.standing n).counters = (db.standing n).counters := by
  by_cases untouched : .reputation ∉ call.tables
  · rw [standing_of_frame (writesTo_tables input call) untouched ok]
  cases call with
  | failJob jobID attempt =>
    have unnamed : attempt = "" := by
      by_contra named
      rw [StoreCall.counts, if_neg named] at uncounted
      cases uncounted
    obtain ⟨_, _, failing, rest⟩ := exec_bind_ok ok
    obtain ⟨_, _, failed, done⟩ := exec_bind_ok rest
    obtain ⟨-, rfl⟩ := exec_done_ok done
    rw [failNamedAttempt, if_pos unnamed] at failing
    obtain ⟨-, rfl⟩ := exec_done_ok failing
    rw [standing_updateJobs failed]
  | recordDuplicateOutcome outcome =>
    obtain ⟨_, mid, inserted, updated⟩ := exec_bind_ok ok
    have before : mid.standing = db.standing :=
      standing_of_frame (writesTo_insertRow (mem_singleton.mpr rfl))
        (by simp [Row.table, Row.key]) inserted
    have after := standing_updateReputationTx updated n
    rw [before] at after
    by_cases same : n = outcome.nodeID
    · rw [after.trans (if_pos same), same]
      rfl
    · rw [after.trans (if_neg same)]
  | quarantineNode nodeID =>
    obtain ⟨_, mid, marked, quarantined⟩ := exec_bind_ok ok
    have before : mid.standing = db.standing :=
      standing_of_frame (writesTo_updateNodes (mem_singleton.mpr rfl)) (by decide) marked
    rw [counters_quarantineReputation quarantined n, before]
  | completeJob | failAttempt | markVerificationAttemptCompleted | markVerificationAttemptFailed =>
    cases uncounted
  | _ => exact absurd (by simp [tables, Ledger.tables]) untouched

end

end

end StoreCall

/-! ### Concluded attempts -/

def AttemptStatus.concluded : AttemptStatus → Bool
  | .succeeded | .verified | .failed | .expired => true
  | _ => false

def AttemptStatus.lost : AttemptStatus → Bool
  | .failed | .expired => true
  | _ => false

variable {status : AttemptStatus}

theorem AttemptStatus.lost_of_unconcluded (unconcluded : status.concluded = false) :
    status.lost = false := by
  cases status <;> first | rfl | cases unconcluded

theorem AttemptStatus.unconcluded_of_live (live : status.live = true) :
    status.concluded = false := by
  cases status <;> first | rfl | cases live

theorem AttemptStatus.unconcluded_of_taken (taken : status.taken = true) :
    status.concluded = false := by
  cases status <;> first | rfl | cases taken

def Db.attemptsOf (db : Db) (p : AttemptStatus → Bool) (nodeID : NodeID) : Nat :=
  db.attempts.rows.countP fun a => decide (a.nodeID = nodeID) && p a.status

/-- The attempt, if there is one of this name, is one of the job with a status of the kind. -/
def Db.names (db : Db) (jobID : JobID) (attemptID : AttemptID) (p : AttemptStatus → Bool) : Bool :=
  (db.attempts.find? attemptID).all fun a => decide (a.jobID = jobID) && p a.status

/-- A call that counts an attempt concludes it, and a sweep finds nothing to expire. -/
def StoreCall.CountsOnce (db : Db) : StoreCall → Prop
  | .failAttempt jobID attemptID .. => db.names jobID attemptID AttemptStatus.live = true
  | .failJob jobID attemptID .. =>
    attemptID ≠ "" → db.names jobID attemptID (fun status => !status.concluded) = true
  | .markVerificationAttemptCompleted jobID attemptID _ => db.names jobID attemptID AttemptStatus.taken = true
  | .markVerificationAttemptFailed jobID attemptID .. => db.names jobID attemptID AttemptStatus.live = true
  | .expireLeases at' => ∀ a ∈ db.attempts.rows, ¬(a.status = .offered ∧ a.leaseExpiresAt ≤ at')
  | _ => True

instance (db : Db) (call : StoreCall) : Decidable (call.CountsOnce db) := by
  cases call <;> unfold StoreCall.CountsOnce <;> infer_instance

def CountsOnce (_past : Trace) (event : Ev) : Prop :=
  ∀ call ∈ event.commits, call.CountsOnce event.before.db

instance (past : Trace) (event : Ev) : Decidable (CountsOnce past event) :=
  inferInstanceAs (Decidable (∀ call ∈ event.commits, _))

namespace StoreCall

section

variable {call : StoreCall} {r : call.Result}

variable {a : Attempt}

theorem names_ok {jobID : JobID} {attemptID : AttemptID} {p : AttemptStatus → Bool}
    (names : db.names jobID attemptID p = true) (found : db.attempts.find? attemptID = some a) :
    a.id = attemptID ∧ a.jobID = jobID ∧ p a.status := by
  rw [Db.names, found, all_some, Bool.and_eq_true, decide_eq_true_eq] at names
  exact ⟨key_of_find? found, names⟩

theorem concludes_of_counts {attemptID : AttemptID}
    (ok : Tx.exec schema (call.tx input) db = .ok (r, db')) (once : call.CountsOnce db)
    (counts : call.counts = some (attemptID, o)) (found : db.attempts.find? attemptID = some a) :
    a.status.concluded = false ∧ (call.onAttempt input a).status.concluded = true ∧
      (call.onAttempt input a).status.lost = !o.accepted := by
  cases call with
  | completeJob payload =>
    cases counts
    obtain ⟨b, checked⟩ := completeJob_checked ok
    cases found.symm.trans checked.found
    have key : a.id = payload.attemptID := key_of_find? found
    refine ⟨unconcluded_of_taken checked.taken, ?_⟩
    simp [onAttempt, Table.updateWhere, key, checked.ofJob, AttemptStatus.concluded,
      AttemptStatus.lost]
  | failAttempt jobID attempt | markVerificationAttemptFailed jobID attempt =>
    cases counts
    obtain ⟨key, ofJob, live⟩ := names_ok once found
    refine ⟨unconcluded_of_live live, ?_⟩
    simp [onAttempt, Table.updateWhere, key, ofJob, live, Store.Attempt.fail,
      AttemptStatus.concluded, AttemptStatus.lost]
  | failJob jobID attempt =>
    rw [StoreCall.counts] at counts
    split at counts
    · cases counts
    next named =>
      cases counts
      obtain ⟨key, ofJob, open'⟩ := names_ok (once named) found
      refine ⟨by simpa using open', ?_⟩
      simp [onAttempt, Table.updateWhere, key, ofJob, named, Store.Attempt.fail,
        AttemptStatus.concluded, AttemptStatus.lost]
  | markVerificationAttemptCompleted jobID attempt =>
    cases counts
    obtain ⟨key, ofJob, running⟩ := names_ok once found
    refine ⟨unconcluded_of_taken running, ?_⟩
    simp [onAttempt, Table.updateWhere, key, ofJob, running, AttemptStatus.concluded,
      AttemptStatus.lost]
  | _ => cases counts

theorem unconcluded_updateWhere {p : Attempt → Bool}
    (open' : p a = true → a.status.concluded = false ∧ (f a).status.concluded = false) :
    (Table.updateWhere p f a).status = a.status ∨
      a.status.concluded = false ∧ (Table.updateWhere p f a).status.concluded = false := by
  unfold Table.updateWhere
  split
  next matched => exact .inr (open' matched)
  · exact .inl rfl

theorem unconcluded_of_other (member : a ∈ db.attempts.rows) (once : call.CountsOnce db)
    (other : ∀ o, call.counts ≠ some (a.id, o)) : (call.onAttempt input a).status = a.status ∨
      a.status.concluded = false ∧ (call.onAttempt input a).status.concluded = false := by
  cases call with
  | markAccepted =>
    refine unconcluded_updateWhere fun matched => ?_
    obtain ⟨-, -, offered, -⟩ := of_decide_eq_true matched
    exact ⟨by rw [offered]; rfl, rfl⟩
  | markStarted =>
    refine unconcluded_updateWhere fun matched => ?_
    obtain ⟨-, -, taken⟩ := of_decide_eq_true matched
    exact ⟨unconcluded_of_taken taken, rfl⟩
  | operatorCancelJob =>
    refine unconcluded_updateWhere fun matched => ?_
    exact ⟨unconcluded_of_live (of_decide_eq_true matched).2, rfl⟩
  | expireLeases at' =>
    exact unconcluded_updateWhere fun lapsed => absurd (of_decide_eq_true lapsed) (once a member)
  | failJob jobID attempt code =>
    refine unconcluded_updateWhere fun matched => ?_
    obtain ⟨named, same, -⟩ := of_decide_eq_true matched
    refine absurd ?_ (other ⟨false, code⟩)
    rw [StoreCall.counts, if_neg named, same]
  | completeJob | failAttempt | markVerificationAttemptCompleted | markVerificationAttemptFailed =>
    refine unconcluded_updateWhere fun matched => ?_
    have same := (of_decide_eq_true matched).1
    exact absurd (by rw [same]; rfl) (other _)
  | _ => exact .inl rfl

variable {p : AttemptStatus → Bool}

theorem attemptsOf_after (fresh : p .offered = false)
    (ok : Tx.exec schema (call.tx input) db = .ok (r, db')) :
    db'.attemptsOf p nodeID = db.attempts.rows.countP fun a =>
      decide (a.nodeID = nodeID) && p (call.onAttempt input a).status := by
  have perm := rows_perm (fun a => (sameLease_onAttempt input call a).id)
    (fun a new => fresh_newAttempt ok new) (attempts_after ok)
  have added : (call.newAttempt input).toList.countP
      (fun a => decide (a.nodeID = nodeID) && p a.status) = 0 := by
    rw [countP_eq_zero]
    intro a new
    rw [mem_toList] at new
    cases call with
    | createAttempt | createVerificationAttempt =>
      cases new
      simp [Store.newAttempt, fresh]
    | _ => cases new
  rw [Db.attemptsOf, perm.countP_eq, countP_append, added, countP_map]
  refine countP_congr fun a _ => ?_
  rw [Function.comp, (sameLease_onAttempt input call a).nodeID]

end

end StoreCall

structure Tallied (db : Db) (nodeID : NodeID) : Prop where
  total : (db.standing nodeID).attemptTotal = db.attemptsOf AttemptStatus.concluded nodeID
  failed : (db.standing nodeID).attemptFailed = db.attemptsOf AttemptStatus.lost nodeID

theorem Tallied.call {call : StoreCall} {r : call.Result}
    (ok : Tx.exec schema (call.tx input) db = .ok (r, db'))
    (once : call.CountsOnce db) (before : Tallied db nodeID) : Tallied db' nodeID := by
  have kept : ∀ p : AttemptStatus → Bool, (∀ status, status.concluded = false → p status = false) →
      ∀ a ∈ db.attempts.rows, (∀ o, call.counts ≠ some (a.id, o)) →
        p (call.onAttempt input a).status = p a.status := by
    intro p vanishes a member other
    rcases unconcluded_of_other member once other with same | ⟨was, is⟩
    · rw [same]
    · rw [vanishes _ was, vanishes _ is]
  have vanishes : ∀ status : AttemptStatus, status.concluded = false → status.concluded = false :=
    fun _ unconcluded => unconcluded
  cases counts : call.counts with
  | none =>
    have counters := counters_of_uncounted ok counts nodeID
    have same : ∀ p : AttemptStatus → Bool,
        (∀ status, status.concluded = false → p status = false) → db'.attemptsOf p nodeID =
          db.attemptsOf p nodeID := by
      intro p vanishes
      rw [attemptsOf_after (vanishes _ rfl) ok]
      refine countP_congr fun a member => ?_
      rw [kept p vanishes a member (fun o named => by rw [counts] at named; cases named)]
    simp only [NodeReputation.counters, Prod.mk.injEq] at counters
    constructor
    · rw [counters.1, before.total, same _ vanishes]
    · rw [counters.2.1, before.failed, same _ fun _ => lost_of_unconcluded]
  | some counted =>
    obtain ⟨attemptID, o⟩ := counted
    obtain ⟨a, found, standing⟩ := standing_of_counts ok counts
    obtain ⟨unconcluded, concluded, lost⟩ := concludes_of_counts ok once counts found
    have key : a.id = attemptID := key_of_find? found
    -- the count changes by what the counted attempt has become
    have changed : ∀ p : AttemptStatus → Bool,
        (∀ status, status.concluded = false → p status = false) → db'.attemptsOf p nodeID =
          db.attemptsOf p nodeID +
            (decide (a.nodeID = nodeID) && p (call.onAttempt input a).status).toNat := by
      intro p vanishes
      have judged := countP_rows (mem_of_find? (key ▸ found))
        (p := fun b => decide (b.nodeID = nodeID) && p b.status)
        (q := fun b => decide (b.nodeID = nodeID) && p (call.onAttempt input b).status)
        (fun b member other => by
          rw [kept p vanishes b member fun o' named => by
            rw [counts] at named
            cases named
            exact other key.symm])
      rw [vanishes _ unconcluded, Bool.and_false] at judged
      rw [attemptsOf_after (vanishes _ rfl) ok, Db.attemptsOf]
      exact judged
    have total := changed _ vanishes
    have failed := changed _ fun _ => lost_of_unconcluded
    rw [concluded] at total
    rw [lost] at failed
    by_cases own : nodeID = a.nodeID
    · have after := (standing nodeID).trans (if_pos own)
      rw [decide_eq_true own.symm] at total failed
      constructor
      · rw [after, total]
        simp [NodeReputation.afterAttempt, before.total]
      · rw [after, failed]
        cases accepted : o.accepted <;> simp [NodeReputation.afterAttempt, before.failed]
    · have after := (standing nodeID).trans (if_neg own)
      rw [decide_eq_false (Ne.symm own)] at total failed
      constructor
      · rw [after, total, before.total]
        rfl
      · rw [after, failed, before.failed]
        rfl

/-- Every attempt is counted once for its node, in every run in which an attempt is only counted by
the call that concludes it and no offer expires. -/
theorem attempts_counted_once {settings : Settings} {catalog : Catalog} {nodes : Table Node.id}
    {ls : Trace} {c : Config steps State}
    (run : (coordinator settings).Run (.boot (boot catalog nodes)) ls c)
    (once : Along CountsOnce ls) (nodeID : NodeID) :
    (c.state.db.standing nodeID).attemptTotal = c.state.db.attemptsOf AttemptStatus.concluded nodeID ∧
    (c.state.db.standing nodeID).attemptFailed = c.state.db.attemptsOf AttemptStatus.lost nodeID := by
  suffices tallied : Tallied c.state.db nodeID from ⟨tallied.total, tallied.failed⟩
  refine run.along_invariant (I := fun _ s => Tallied s.db nodeID) once ?_ ?_ ?_
  · exact ⟨rfl, rfl⟩
  · exact fun past mid entry _ tallied => tallied
  · intro past event mid next _ step here tallied
    cases commits : Ev.commits event with
    | none =>
      have same := db_of_uncommitted step.exec commits
      constructor
      · rw [same]
        exact tallied.total
      · rw [same]
        exact tallied.failed
    | some call =>
      obtain ⟨r, ok⟩ := exec_of_committed step.exec commits
      exact tallied.call ok (here call commits)

namespace Deployment

def countedOnce : List (Choice Input Entry) :=
  connect 0 "n1" ++ request 1 "j" "a" ++ accept 0 "j0" "a0" ++
  complete 0 (payload "j0" "a0") "c" ++ advance 0 4 ++ request 2 "k" "b" ++ accept 0 "k0" "b0" ++
  [.act 0 (reading (.job (.failed ⟨"k0", "b0", "job_failed", "", false, 0⟩)))] ++ advance 0 4

/-- The only node reports a failure that may be retried: the attempt is failed, and since no other
node is there the job is failed with it. -/
def countedTwice : List (Choice Input Entry) :=
  connect 0 "n1" ++ request 1 "j" "a" ++ accept 0 "j0" "a0" ++
  [.act 0 (reading (.job (.failed ⟨"j0", "a0", "job_failed", "", true, 0⟩)))] ++ advance 0 11

end Deployment

theorem attempts_counted_once_each : ∃ ls c,
    (coordinator settings).Run (.boot start) ls c ∧ Along CountsOnce ls ∧
    c.state.db.attemptsOf AttemptStatus.concluded "n1" = 2 ∧ c.state.db.attemptsOf AttemptStatus.lost "n1" = 1 ∧
    (c.state.db.standing "n1").attemptTotal = 2 ∧ (c.state.db.standing "n1").attemptFailed = 1 := by
  obtain ⟨ls, c, run, once, concluded, lost⟩ := run_of_check
    (p := fun ls c => Along CountsOnce ls ∧ c.state.db.attemptsOf AttemptStatus.concluded "n1" = 2 ∧
      c.state.db.attemptsOf AttemptStatus.lost "n1" = 1) countedOnce (by decide +kernel)
  obtain ⟨total, failed⟩ := attempts_counted_once run once "n1"
  rw [concluded] at total
  rw [lost] at failed
  exact ⟨ls, c, run, once, concluded, lost, total, failed⟩

/-- One failed attempt, counted by `FailAttempt` and again by `FailJob`. -/
theorem attempt_counted_twice : ∃ ls c,
    (coordinator settings).Run (.boot start) ls c ∧
    c.state.db.attemptsOf AttemptStatus.concluded "n1" = 1 ∧ c.state.db.attemptsOf AttemptStatus.lost "n1" = 1 ∧
    (c.state.db.standing "n1").attemptTotal = 2 ∧ (c.state.db.standing "n1").attemptFailed = 2 :=
  run_of_check countedTwice (by decide +kernel)

end Thirdshift
