import Thirdshift.Coordinator.Provenance
import Thirdshift.Ledger.Balance

/-!
# Credit for verification

A completed job may be given to a second node, whose completion is compared with the first. The
handler posts the credit for it when the completion was not refused. Whether the texts agreed, the
attempt's row took the outcome and the result came in time is not asked.
-/

namespace Thirdshift

open Foundation Table StoreCall List Tx Option Deployment Ev

variable {db : Db} {input : Input} {a : Attempt} {event : Ev} {h : HostCreditHold}
  {dup : DuplicateRun} {s : State}

/-! ### The posting -/

theorem Ledger.postVerificationOverhead_ok {ids : Nat → String}
    {posting : VerificationOverheadPosting} {db' : Db} {u : Unit}
    (ok : Tx.exec schema (postVerificationOverhead ids posting) db = .ok (u, db')) :
    ∃ (pricing : Pricing) (hold : HostCreditHold),
      db.pricing posting.jobID posting.attemptID posting.receivedAt = some pricing ∧
      hold.nodeID = pricing.nodeID ∧ hold.attemptID = posting.attemptID ∧
      hold.ledgerTransactionID = ids 0 ∧ db'.holds = db.holds.put hold ∧
      ∀ id, id ≠ ids 0 → db'.transactions.find? id = db.transactions.find? id := by
  obtain ⟨_, recorded, -⟩ := recorded_postVerificationOverhead ok
  obtain ⟨found, start, read, rest₀⟩ := exec_bind_ok ok
  obtain ⟨priced, same⟩ := exec_select_ok read
  rw [same] at rest₀
  cases found with
  | none => cases rest₀
  | some pricing =>
    obtain ⟨_, _, drafted, rest₁⟩ := exec_bind_ok rest₀
    obtain ⟨-, rfl⟩ := insertTransaction_ok drafted
    obtain ⟨verification, mid₁, ran₁, rest₂⟩ := exec_bind_ok rest₁
    obtain ⟨host, mid₂, ran₂, rest₃⟩ := exec_bind_ok rest₂
    obtain ⟨_, mid₃, overhead, rest₄⟩ := exec_bind_ok rest₃
    obtain ⟨_, mid₄, credited, rest₅⟩ := exec_bind_ok rest₄
    obtain ⟨_, mid₅, posted, held⟩ := exec_bind_ok rest₅
    have marks : WritesTo [.transactions] (markPosted (ids 0) posting.receivedAt) :=
      writesTo_updateTransactions mem_cons_self
    have enters : ∀ (id tx account : String) (amount : Int) (memo : String),
        WritesTo [.entries] (insertEntry id tx account amount memo) :=
      fun _ _ _ _ _ => writesTo_insertRow mem_cons_self
    -- nothing before the last statement touches a hold
    have holds : mid₅.holds = db.holds := by
      rw [marks.holds (by simp) posted, (enters _ _ _ _ _).holds (by simp) credited,
        (enters _ _ _ _ _).holds (by simp) overhead, writesTo_account.holds (by simp) ran₂,
        writesTo_account.holds (by simp) ran₁]
      rfl
    have after := (insertRow_ok held).2
    exact ⟨pricing, _, priced.symm, rfl, rfl, rfl, by rw [after, ← holds]; rfl, recorded.others⟩

theorem Db.pricing_attempt {jobID : JobID} {attemptID : AttemptID} {t : Time}
    {pricing : Pricing} (priced : db.pricing jobID attemptID t = some pricing) :
    ∃ a, db.attempts.find? attemptID = some a ∧ a.jobID = jobID ∧ pricing.nodeID = a.nodeID := by
  unfold Db.pricing at priced
  split at priced
  next j a foundJob foundAttempt =>
    split at priced
    next ofJob =>
      obtain ⟨price, -, rfl⟩ := map_eq_some_iff.mp priced
      exact ⟨a, foundAttempt, ofJob.trans (key_of_find? foundJob), rfl⟩
    · cases priced
  · cases priced

/-! ### Attempts that were accepted -/

def Attempt.InTime (a : Attempt) : Prop :=
  ∃ at', a.acceptedAt = some at' ∧ at' ≤ a.leaseExpiresAt ∧ at' ≤ a.createdAt + seconds 2

def Attempt.working (a : Attempt) : Bool := a.status.taken || a.status = .verified

def WorkedInTime (db : Db) : Prop :=
  ∀ id a, db.attempts.find? id = some a → a.working = true → a.InTime

theorem StoreCall.onAttempt_inTime {call : StoreCall}
    (before : a.working = true → a.InTime) (working : (call.onAttempt input a).working = true) :
    (call.onAttempt input a).InTime := by
  cases call
  case markAccepted jobID attemptID =>
    simp only [onAttempt, Table.updateWhere] at working ⊢
    split at working
    next matched =>
      simp only [matched, if_true]
      simp only [decide_eq_true_eq] at matched
      exact ⟨input.now, rfl, matched.2.2.2.1, matched.2.2.2.2⟩
    next other =>
      simp only [other, if_false, Bool.false_eq_true]
      exact before working
  case markStarted | markVerificationAttemptCompleted =>
    simp only [onAttempt, Table.updateWhere] at working ⊢
    split
    next matched =>
      simp only [decide_eq_true_eq] at matched
      exact before (by simp [Attempt.working, matched.2.2])
    next other =>
      simp only [other, if_false, Bool.false_eq_true] at working
      exact before working
  all_goals
    simp only [onAttempt, Table.updateWhere, id] at working ⊢
    first
      | exact before working
      | (split
         · simp_all [Attempt.working, AttemptStatus.taken, Store.Attempt.fail]
         next other =>
           simp only [other, if_false, Bool.false_eq_true] at working
           exact before working)

theorem WorkedInTime.step {settings : Settings} (valid : event.Valid settings)
    (inTime : WorkedInTime event.before.db) : WorkedInTime event.after.db := by
  refine attempts_invariant valid (fun call a was => StoreCall.onAttempt_inTime was) ?_ inTime
  intro call a added working
  cases call <;> cases added <;> cases working

/-! ### The ledger -/

section

variable {settings : Settings}

theorem Ev.holds_kept (valid : event.Valid settings)
    (member : h ∈ event.before.db.holds.rows) : h ∈ event.after.db.holds.rows := by
  cases commits : event.commits with
  | none =>
    rw [db_of_uncommitted valid commits]
    exact member
  | some call =>
    obtain ⟨ws, after, posts, fresh, kept⟩ := writes valid commits
    rw [after]
    exact holds_commit fresh kept posts.plain_or_posting member

theorem Ev.credits_after (valid : event.Valid settings) {t : LedgerTransaction}
    (member : t ∈ event.after.db.transactions.rows) (credit : t.transactionType = .verificationCost) :
    t ∈ event.before.db.transactions.rows ∨ ∃ payload creditHold receivedAt,
      event.commits = some (.postVerificationOverhead payload creditHold receivedAt) ∧
      ∃ h ∈ event.after.db.holds.rows, h.ledgerTransactionID = t.id ∧
        h.attemptID = payload.attemptID ∧
        event.before.db.Leases h.nodeID payload.jobID payload.attemptID := by
  cases commits : event.commits with
  | none =>
    rw [db_of_uncommitted valid commits] at member
    exact .inl member
  | some call =>
    obtain ⟨v, ran⟩ := exec_of_committed valid commits
    cases call
    case completeJob =>
      obtain ⟨ws, after, posts, fresh, kept⟩ := writes valid commits
      rw [after] at member
      refine .inl ((transactions_completion fresh kept posts member).resolve_left fun charges => ?_)
      rw [credit] at charges
      cases charges
    case postVerificationOverhead payload creditHold receivedAt =>
      obtain ⟨pricing, hold, priced, holder, attempt, ofTransaction, holds, others⟩ :=
        Ledger.postVerificationOverhead_ok ran
      obtain ⟨a, found, ofJob, leased⟩ := Db.pricing_attempt priced
      by_cases new : t.id = hold.ledgerTransactionID
      · refine .inr ⟨payload, creditHold, receivedAt, rfl, hold, ?_, new.symm, attempt,
          a, found, ofJob, (holder.trans leased).symm⟩
        rw [holds]
        exact mem_put.mpr (.inl rfl)
      · have old := others t.id (fun same => new (same.trans ofTransaction.symm))
        rw [mem_rows_iff] at member ⊢
        exact .inl (old ▸ member)
    all_goals
      have same := (writesTo_tables event.input _).transactions
        (by simp [StoreCall.tables]) ran
      rw [same] at member
      exact .inl member

end

/-! ### The runs of duplicates -/

/-- The attempt was created to verify a completion of the run's job, with the run's text. -/
def DuplicateRun.Started (dup : DuplicateRun) (ls : Trace) (attemptID : AttemptID) : Prop :=
  Happened (fun event : Ev => verifying event.op event.resp = some (dup.jobID, attemptID)) ls ∧
  Happened (fun event : Ev =>
    completedText event.op event.resp = some (dup.jobID, dup.expectedContent)) ls

def takenRun : (op : Op) → op.Resp → Option (AttemptID × DuplicateRun)
  | .mem (.removeDuplicateRun attemptID), some dup => some (attemptID, dup)
  | _, _ => none

section

variable {settings : Settings}

variable {attemptID : AttemptID}

theorem MemCall.duplicates_run {weights : SchedulerWeights} {m : Memory} {call : MemCall}
    (found : (call.run weights m).1.duplicates attemptID = some dup) :
    m.duplicates attemptID = some dup ∨ call = .setDuplicateRun attemptID dup := by
  cases call
  case setDuplicateRun other run =>
    simp only [MemCall.run, Function.update_apply] at found
    split at found
    next same =>
      cases found
      exact .inr (by rw [same])
    · exact .inl found
  case removeDuplicateRun other =>
    simp only [MemCall.run, Function.update_apply] at found
    split at found
    · cases found
    · exact .inl found
  all_goals
    simp only [MemCall.run] at found
    first
      | exact .inl found
      | (repeat' split at found
         all_goals exact .inl found)

theorem Ev.duplicates_after (valid : event.Valid settings)
    (found : event.after.mem.duplicates attemptID = some dup) :
    event.before.mem.duplicates attemptID = some dup ∨
      event.op = .mem (.setDuplicateRun attemptID dup) := by
  rw [mem_after valid] at found
  cases called : event.op with
  | mem call =>
    rw [called] at found
    exact (MemCall.duplicates_run found).imp_right fun same => by rw [same]
  | await channel =>
    rw [called, Op.onMemory] at found
    split at found <;> exact .inl found
  | _ =>
    rw [called] at found
    exact .inl found

section

variable {op : Op} {r : op.Resp} {s' : State} (exec : step settings op input s = some (s', r))
include exec

theorem takenRun_step {taken : AttemptID × DuplicateRun}
    (takes : takenRun op r = some taken) : s.mem.duplicates taken.1 = some taken.2 := by
  cases op with
  | mem call =>
    cases call with
    | removeDuplicateRun attemptID =>
      cases exec
      cases found : s.mem.duplicates attemptID with
      | none => simp [takenRun, found] at takes
      | some dup =>
        simp only [takenRun, found, Option.some.injEq] at takes
        rw [← takes]
        exact found
    | _ => cases takes
  | _ => cases takes

theorem verifying_step {jobID : JobID} (creates : verifying op r = some (jobID, attemptID)) :
    ∃ a, s'.db.attempts.find? attemptID = some a ∧ a.jobID = jobID := by
  cases op with
  | store ctx call =>
    cases call with
    | createVerificationAttempt jobID nodeID number leaseExpiresAt deadlineAt =>
      cases r with
      | error e => cases creates
      | ok id =>
        cases creates
        have ran := exec_of_ok exec
        have added := attempts_after ran attemptID
        have fresh : s.db.attempts.find? (input.ids 0) = none := fresh_newAttempt ran rfl
        obtain ⟨_, _, -, done⟩ := exec_bind_ok ran
        obtain ⟨rfl, -⟩ := exec_done_ok done
        rw [fresh, map_none, none_or] at added
        refine ⟨_, added.trans (filter_eq_some_iff.mpr ⟨rfl, ?_⟩), rfl⟩
        exact decide_eq_true rfl
    | _ => cases creates
  | _ => cases creates

end

end

/-! ### Earned credit -/

/-- The credit of a hold is earned: the attempt was created to verify a completion of its job, its
node accepted it in time and sent a result that was verified, arrived by the deadline and has the text
of the completion, and the attempt is verified. -/
structure Earned (settings : Settings) (ls : Trace) (db : Db) (h : HostCreditHold) (a : Attempt) :
    Prop where
  attempt : db.attempts.find? h.attemptID = some a
  holder : h.nodeID = a.nodeID
  status : a.status = .verified
  inTime : a.InTime
  duplicate : Happened (fun event : Ev => verifying event.op event.resp = some (a.jobID, a.id)) ls
  result : ∃ thread payload creditHold receivedAt,
    Happened (fun event : Ev => event.thread = thread ∧
      event.commits = some (.postVerificationOverhead payload creditHold receivedAt)) ls ∧
    payload.jobID = a.jobID ∧ payload.attemptID = a.id ∧
    Verified settings (localTrace thread ls) a.nodeID payload ∧ receivedAt ≤ a.deadlineAt ∧
    ∃ message ∈ payload.message, Happened (fun event : Ev =>
      completedText event.op event.resp = some (a.jobID, message.content)) ls

def HostCreditHold.ForVerification (db : Db) (h : HostCreditHold) : Prop :=
  ∃ t ∈ db.transactions.rows, t.transactionType = .verificationCost ∧ h.ledgerTransactionID = t.id
  deriving Decidable

/-- A verification attempt is marked as completed while it is worked on and by its deadline, credit is
posted for the sender's own attempt and for the text that was expected, and an attempt that is
verified is not failed. -/
def SoundVerification (past : Trace) (event : Ev) : Prop :=
  match event.op with
  | .store _ (.markVerificationAttemptCompleted jobID attemptID occurredAt) =>
    ∃ a ∈ event.before.db.attempts.find? attemptID,
      a.jobID = jobID ∧ a.status.taken = true ∧ occurredAt ≤ a.deadlineAt
  | .store _ (.postVerificationOverhead payload ..) =>
    (∀ nodeID ∈ sessionNode past event.thread,
      event.before.db.Leases nodeID payload.jobID payload.attemptID) ∧
    ∀ obs ∈ localTrace event.thread past, ∀ taken ∈ takenRun obs.op obs.resp,
      taken.1 = payload.attemptID → taken.2.agrees payload = true
  | .store _ (.failJob _ attemptID ..) =>
    ∀ a ∈ event.before.db.attempts.find? attemptID, a.status ≠ .verified
  | _ => True

instance (past : Trace) (event : Ev) : Decidable (SoundVerification past event) := by
  unfold SoundVerification
  split <;> infer_instance

structure Verifications (settings : Settings) (ls : Trace) (s : State) : Prop where
  created : ∀ jobID attemptID,
    Happened (fun event : Ev => verifying event.op event.resp = some (jobID, attemptID)) ls →
    ∃ a, s.db.attempts.find? attemptID = some a ∧ a.jobID = jobID
  remembered : ∀ attemptID dup, s.mem.duplicates attemptID = some dup → dup.Started ls attemptID
  taken : ∀ attemptID dup,
    Happened (fun event : Ev => takenRun event.op event.resp = some (attemptID, dup)) ls →
    dup.Started ls attemptID
  marked : ∀ jobID attemptID occurredAt,
    Happened (fun event : Ev =>
      event.commits = some (.markVerificationAttemptCompleted jobID attemptID occurredAt)) ls →
    ∃ a, s.db.attempts.find? attemptID = some a ∧ a.jobID = jobID ∧ a.status = .verified ∧
      occurredAt ≤ a.deadlineAt
  inTime : WorkedInTime s.db
  credited : ∀ t ∈ s.db.transactions.rows, t.transactionType = .verificationCost →
    ∃ h ∈ s.db.holds.rows, h.ledgerTransactionID = t.id ∧ ∃ a, Earned settings ls s.db h a

section

variable {settings : Settings} {past : Trace}

theorem DuplicateRun.Started.snoc {attemptID : AttemptID}
    (started : dup.Started past attemptID) (l : Label steps State Input Entry) :
    dup.Started (past ++ [l]) attemptID :=
  ⟨started.1.append [l], started.2.append [l]⟩

section

variable (valid : event.Valid settings) (sound : SoundVerification past event)
include valid sound

theorem verified_kept {id : AttemptID} (found : event.before.db.attempts.find? id = some a)
    (verified : a.status = .verified) : (event.onAttempt a).status = .verified := by
  cases commits : event.commits with
  | none => simpa [Ev.onAttempt, commits] using verified
  | some call =>
    obtain ⟨ctx, called⟩ := committed_eq_some commits
    simp only [Ev.onAttempt, commits]
    cases call
    case completeJob payload receivedAt creditHold status cls attempts =>
      obtain ⟨v, ran⟩ := exec_of_committed valid commits
      obtain ⟨a', checked⟩ := completeJob_checked ran
      have other : a.id ≠ payload.attemptID := by
        rintro same
        have here : event.before.db.attempts.find? payload.attemptID = some a := by
          rw [← same, key_of_find? found]
          exact found
        cases checked.found.symm.trans here
        have taken := checked.taken
        simp [verified, AttemptStatus.taken] at taken
      simpa [StoreCall.onAttempt, Table.updateWhere, other] using verified
    case failJob jobID attemptID code transient occurredAt =>
      rw [SoundVerification, called] at sound
      have other : a.id ≠ attemptID := by
        rintro same
        refine sound a ?_ verified
        rw [← same, key_of_find? found]
        exact found
      simpa [StoreCall.onAttempt, Table.updateWhere, other] using verified
    all_goals
      simp [StoreCall.onAttempt, Table.updateWhere, verified, AttemptStatus.taken,
        AttemptStatus.live]

theorem Earned.step (inTime : WorkedInTime event.after.db)
    (earned : Earned settings past event.before.db h a) :
    Earned settings (past ++ [.act event]) event.after.db h (event.onAttempt a) := by
  have kept := attempt_kept valid earned.attempt
  have status := verified_kept valid sound earned.attempt earned.status
  have same := event.sameLease a
  obtain ⟨thread, payload, creditHold, receivedAt, posted, ofJob, ofAttempt, verified, arrived,
    message, sent, text⟩ := earned.result
  refine ⟨kept, earned.holder.trans same.nodeID.symm, status,
    inTime _ _ kept (by simp [Attempt.working, status]), ?_, thread, payload, creditHold, receivedAt,
    posted.append [.act event], ofJob.trans same.jobID.symm, ofAttempt.trans same.id.symm, ?_, ?_,
    message, sent, ?_⟩
  · rw [same.jobID, same.id]
    exact earned.duplicate.append [.act event]
  · rw [same.nodeID]
    exact verified.mono (localTrace_of_append thread past _)
  · rw [same.deadlineAt]
    exact arrived
  · rw [same.jobID]
    exact text.append [.act event]

theorem marked_of_step {jobID : JobID} {attemptID : AttemptID} {occurredAt : Time}
    (commits : event.commits = some (.markVerificationAttemptCompleted jobID attemptID occurredAt)) :
    ∃ a, event.after.db.attempts.find? attemptID = some a ∧ a.jobID = jobID ∧
      a.status = .verified ∧ occurredAt ≤ a.deadlineAt := by
  obtain ⟨ctx, called⟩ := committed_eq_some commits
  rw [SoundVerification, called] at sound
  obtain ⟨a, found, ofJob, taken, inTime⟩ := sound
  have same := event.sameLease a
  refine ⟨_, attempt_kept valid found, same.jobID.trans ofJob, ?_, same.deadlineAt ▸ inTime⟩
  have named : a.id = attemptID := key_of_find? found
  simp [Ev.onAttempt, commits, StoreCall.onAttempt, Table.updateWhere, named, ofJob, taken]

end

variable {mid next : Config steps State}

section

variable (run : Ran settings s past mid) (acts : Acts settings mid event next)
  (inv : Verifications settings past event.before) (sound : SoundVerification past event)
include run acts inv sound

theorem Verifications.earned
    {payload : JobCompletedPayload} {creditHold : Duration} {receivedAt : Time}
    (commits : event.commits = some (.postVerificationOverhead payload creditHold receivedAt))
    (ofAttempt : h.attemptID = payload.attemptID)
    (leased : event.before.db.Leases h.nodeID payload.jobID payload.attemptID) :
    ∃ a, Earned settings (past ++ [.act event]) event.after.db h a := by
  obtain ⟨ctx, called⟩ := committed_eq_some commits
  obtain ⟨entry, started, allowed⟩ := disciplined run acts
  rw [called] at allowed
  obtain ⟨-, nodeID, frames, dup, rfl, verified, took, marks⟩ := allowed
  rw [SoundVerification, called] at sound
  obtain ⟨a, found, ofJob, holder⟩ := leased
  obtain ⟨a', found', -, sender⟩ := sound.1 nodeID (sessionNode_eq_some.mpr ⟨frames, started⟩)
  cases found'.symm.trans found
  have agrees : dup.agrees payload = true := sound.2 _ took (payload.attemptID, dup) rfl rfl
  -- the run of the duplicate was started for this attempt, so its job is the attempt's
  obtain ⟨verifies, text⟩ := inv.taken payload.attemptID dup (happened_of_seen takenRun took)
  obtain ⟨a₁, found₁, ofRun⟩ := inv.created _ _ verifies
  cases found₁.symm.trans found
  obtain ⟨ctx', marked⟩ := marks agrees
  obtain ⟨a₂, found₂, -, status, arrived⟩ := inv.marked payload.jobID payload.attemptID receivedAt
    (happened_of_seen committed marked)
  cases found₂.symm.trans found
  have named : a.id = payload.attemptID := key_of_find? found
  obtain ⟨message, sent, same⟩ : ∃ message ∈ payload.message, message.content = dup.expectedContent := by
    rw [DuplicateRun.agrees, Option.any_eq_true] at agrees
    obtain ⟨message, sent, same⟩ := agrees
    exact ⟨message, sent, of_decide_eq_true same⟩
  have unchanged : event.onAttempt a = a := by simp [Ev.onAttempt, commits, StoreCall.onAttempt]
  have valid : event.Valid settings := acts.exec
  refine ⟨a, ?_, holder.symm, status, inv.inTime _ _ found (by simp [Attempt.working, status]), ?_,
    event.thread, payload, creditHold, receivedAt, ?_, ofJob.symm, named.symm, ?_, arrived, message,
    sent, ?_⟩
  · rw [ofAttempt, attempt_kept valid found, unchanged]
  · rw [ofRun, named]
    exact verifies.append [.act event]
  · exact happened_snoc_act.mpr (.inr ⟨rfl, commits⟩)
  · rw [sender]
    exact verified.mono (localTrace_of_append event.thread past _)
  · rw [ofRun, same]
    exact text.append [.act event]

theorem Verifications.step : Verifications settings (past ++ [.act event]) event.after := by
  have valid : event.Valid settings := acts.exec
  have inTime := inv.inTime.step valid
  refine ⟨?_, ?_, ?_, ?_, inTime, ?_⟩
  · intro jobID attemptID created
    rcases happened_snoc_act.mp created with before | now
    · obtain ⟨a, found, ofJob⟩ := inv.created jobID attemptID before
      exact ⟨_, attempt_kept valid found, (event.sameLease a).jobID.trans ofJob⟩
    · exact verifying_step valid now
  · intro attemptID dup found
    rcases duplicates_after valid found with before | called
    · exact (inv.remembered attemptID dup before).snoc (.act event)
    · -- a run is remembered by the thread that has created its attempt from a completion
      obtain ⟨entry, -, allowed⟩ := disciplined run acts
      rw [called] at allowed
      obtain ⟨⟨_, creation, verifies⟩, _, completion, text⟩ := allowed
      have started : dup.Started past attemptID :=
        ⟨verifies ▸ happened_of_seen verifying creation,
          text ▸ happened_of_seen completedText completion⟩
      exact started.snoc (.act event)
  · intro attemptID dup took
    rcases happened_snoc_act.mp took with before | now
    · exact (inv.taken attemptID dup before).snoc (.act event)
    · exact (inv.remembered attemptID dup (takenRun_step valid now)).snoc (.act event)
  · intro jobID attemptID occurredAt marked
    rcases happened_snoc_act.mp marked with before | now
    · obtain ⟨a, found, ofJob, status, arrived⟩ := inv.marked jobID attemptID occurredAt before
      have same := event.sameLease a
      exact ⟨_, attempt_kept valid found, same.jobID.trans ofJob,
        verified_kept valid sound found status, same.deadlineAt ▸ arrived⟩
    · exact marked_of_step valid sound now
  · -- a credit that is new was posted by this event
    intro t member credit
    rcases credits_after valid member credit with before | ⟨payload, creditHold, receivedAt,
      commits, h, held, ofTransaction, ofAttempt, leased⟩
    · obtain ⟨h, held, ofTransaction, a, earned⟩ := inv.credited t before credit
      exact ⟨h, holds_kept valid held, ofTransaction, _, earned.step valid sound inTime⟩
    · exact ⟨h, held, ofTransaction, inv.earned run acts sound commits ofAttempt leased⟩

end

theorem Verifications.spawn (inv : Verifications settings past s) (entry : Entry) :
    Verifications settings (past ++ [.spawn entry]) s := by
  refine ⟨?_, ?_, ?_, ?_, inv.inTime, ?_⟩
  · exact fun jobID attemptID created =>
      inv.created jobID attemptID (happened_snoc_spawn.mp created)
  · exact fun attemptID dup found => (inv.remembered attemptID dup found).snoc (.spawn entry)
  · exact fun attemptID dup took =>
      (inv.taken attemptID dup (happened_snoc_spawn.mp took)).snoc (.spawn entry)
  · exact fun jobID attemptID occurredAt marked =>
      inv.marked jobID attemptID occurredAt (happened_snoc_spawn.mp marked)
  · intro t member credit
    obtain ⟨h, held, ofTransaction, a, earned⟩ := inv.credited t member credit
    exact ⟨h, held, ofTransaction, a, { earned with
      duplicate := happened_snoc_spawn.mpr earned.duplicate
      result := by simpa only [happened_snoc_spawn, localTrace_snoc_spawn] using earned.result }⟩

end

theorem verifications_of_run {settings : Settings} {catalog : Catalog} {nodes : Table Node.id}
    {ls : Trace} {c : Config steps State} (run : Ran settings (boot catalog nodes) ls c)
    (sound : Along SoundVerification ls) : Verifications settings ls c.state := by
  refine run.along_invariant (I := Verifications settings) sound ?_ ?_ ?_
  · constructor <;> simp [boot, Config.boot, WorkedInTime, Memory.init]
  · exact fun past mid entry _ inv => inv.spawn entry
  · exact fun past event mid next reached step here inv => inv.step reached step here

/-- In a run in which verification is sound, credit for verification is earned, and an attempt is
credited once. -/
theorem verification_credit_earned {settings : Settings} {catalog : Catalog} {nodes : Table Node.id}
    {ls : Trace} {c : Config steps State}
    (run : (coordinator settings).Run (.boot (boot catalog nodes)) ls c)
    (sound : Along SoundVerification ls) :
    (∀ t ∈ c.state.db.transactions.rows, t.transactionType = .verificationCost →
      ∃ h ∈ c.state.db.holds.rows, h.ledgerTransactionID = t.id) ∧
    (∀ h ∈ c.state.db.holds.rows, h.ForVerification c.state.db →
      ∃ a, Earned settings ls c.state.db h a) ∧
    ∀ h ∈ c.state.db.holds.rows, ∀ h' ∈ c.state.db.holds.rows, h.attemptID = h'.attemptID → h = h' := by
  have credited := (verifications_of_run run sound).credited
  have books := books_of_run run
  refine ⟨?_, ?_, ?_⟩
  · intro t member credit
    obtain ⟨h, held, ofTransaction, -⟩ := credited t member credit
    exact ⟨h, held, ofTransaction⟩
  · rintro h held ⟨t, member, credit, ofTransaction⟩
    obtain ⟨h', held', ofTransaction', earned⟩ := credited t member credit
    have same := books.charged.oneHold h held h' held' (ofTransaction.trans ofTransaction'.symm)
    exact same ▸ earned
  · intro h held h' held' sameAttempt
    have entry : Index.holdAttempt h.attemptID ∈ schema.index (.hold h) :=
      mem_cons_self
    have entry' : Index.holdAttempt h.attemptID ∈ schema.index (.hold h') :=
      mem_singleton.mpr (sameAttempt ▸ rfl)
    have same := books.unique (mem_holds.mp held) (mem_holds.mp held') entry entry'
    exact eq_of_key held held' (congrArg Key.id same)

namespace Deployment

def sampled : State := boot { catalog with limits :=
  [⟨"m", 4096, 1024, 262144, ⟨true, false, false, false⟩, 10000⟩] }
  ((Table.empty.put (node "n1")).put (node "n2"))

/-- The first node completes a request with the text `hello`, the second verifies it with a text. -/
def verifiedWith (text : String) : List (Choice Input Entry) :=
  connect 0 "n1" ++ request 1 "j" "a" ++ accept 0 "j0" "a0" ++ connect 2 "n2" ++
  complete 0 (payload "j0" "a0") "c" ++ advance 0 5 ++ [.act 0 (drawing "v")] ++ advance 0 3 ++
  accept 2 "j0" "v0" ++
  [.act 2 (reading (.job (.completed
    { payload "j0" "v0" with message := some ⟨"assistant", text⟩ })))] ++
  advance 2 9 ++ [.act 2 (drawing "w")]

end Deployment

theorem verification_credit_earned_agreeing : ∃ ls c,
    (coordinator settings).Run (.boot sampled) ls c ∧
    Along SoundVerification ls ∧ ∃ h ∈ c.state.db.holds.rows, h.ForVerification c.state.db ∧
      ∃ a, Earned settings ls c.state.db h a := by
  obtain ⟨ls, c, run, sound, h, held, credit⟩ := run_from
    (p := fun ls c => Along SoundVerification ls ∧
      ∃ h ∈ c.state.db.holds.rows, h.ForVerification c.state.db)
    sampled (verifiedWith "hello") (by decide +kernel)
  obtain ⟨-, earned, -⟩ := verification_credit_earned run sound
  exact ⟨ls, c, run, sound, h, held, credit, earned h held credit⟩

/-- The second node sends another text. Its attempt is failed, and it is credited. -/
theorem disagreeing_verification_credited : ∃ ls c,
    (coordinator settings).Run (.boot sampled) ls c ∧
    ∃ h ∈ c.state.db.holds.rows, h.ForVerification c.state.db ∧
      ∀ a, ¬Earned settings ls c.state.db h a := by
  obtain ⟨ls, c, run, h, held, credit, failed⟩ := run_from
    (p := fun _ c => ∃ h ∈ c.state.db.holds.rows, h.ForVerification c.state.db ∧
      ∀ a ∈ c.state.db.attempts.find? h.attemptID, a.status = .failed)
    sampled (verifiedWith "other") (by decide +kernel)
  refine ⟨ls, c, run, h, held, credit, fun a earned => ?_⟩
  have status := failed a earned.attempt
  rw [earned.status] at status
  cases status

end Thirdshift
