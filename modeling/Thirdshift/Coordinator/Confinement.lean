import Thirdshift.Coordinator.Conduct
import Thirdshift.Coordinator.Runs
import Thirdshift.Jobs.Credits

/-!
# Confinement of node messages

The handlers of job messages look attempts up by the identifiers in the message and never ask whose
lease it is. A session is confined to the leases of its node as far as its messages name them, its
sweeps find only them overdue, and the offers it makes for others get out.
-/

namespace Thirdshift

open Foundation List Table Option Deployment StoreCall

variable {past : Trace} {nodeID : NodeID} {seen : Seen}

def sessionNode (past : Trace) (thread : Nat) : Option NodeID :=
  match (entries past)[thread]? with
  | some (.session nodeID _) => some nodeID
  | _ => none

theorem sessionNode_eq_some {thread : Nat} : sessionNode past thread = some nodeID ↔
      ∃ frames, (entries past)[thread]? = some (.session nodeID frames) := by
  unfold sessionNode
  split
  next other frames started =>
    rw [started]
    simp
  next other =>
    simp only [reduceCtorEq, false_iff, not_exists]
    exact fun frames started => other nodeID frames started

namespace Db

def Leases (db : Db) (nodeID : NodeID) (jobID : JobID) (attemptID : AttemptID) : Prop :=
  ∃ a ∈ db.attempts.find? attemptID, a.jobID = jobID ∧ a.nodeID = nodeID

def Serves (db : Db) (nodeID : NodeID) (jobID : JobID) : Prop :=
  ∃ attemptID, db.Leases nodeID jobID attemptID

instance (db : Db) (nodeID : NodeID) (jobID : JobID) (attemptID : AttemptID) :
    Decidable (db.Leases nodeID jobID attemptID) :=
  decidable_of_iff ((db.attempts.find? attemptID).any
    fun a => a.jobID = jobID ∧ a.nodeID = nodeID) (by simp [Leases, Option.any_eq_true])

end Db

def Op.takes (input : Input) : Op → Option JobMessage
  | .recv _ => match input.frame with
    | some (.job message) => some message
    | _ => none
  | _ => none

def Op.sweeps : Op → Option Time
  | .store _ (.expireLeases at') => some at'
  | _ => none

def Op.offers : Op → Bool
  | .send .. => true
  | _ => false

/-- What the session of a node has to do with the leases of others: none of its messages names one,
none of its sweeps finds one overdue, and none of its offers fails. -/
structure KeepsToLeases (nodeID : NodeID) (event : Ev) : Prop where
  messages : ∀ message ∈ event.op.takes event.input,
    event.before.db.Leases nodeID message.jobID message.attemptID
  sweeps : ∀ at' ∈ event.op.sweeps, ∀ a ∈ event.before.db.attempts.rows,
    a.status = .offered ∧ a.leaseExpiresAt ≤ at' → a.nodeID = nodeID
  offers : event.op.offers = true → event.input.sendFails = false

instance (nodeID : NodeID) (event : Ev) : Decidable (KeepsToLeases nodeID event) :=
  decidable_of_iff (_ ∧ _ ∧ _) ⟨fun ⟨m, s, o⟩ => ⟨m, s, o⟩, fun ⟨m, s, o⟩ => ⟨m, s, o⟩⟩

/-- The condition on an event of a session that is still attached. -/
def OnOwnLeases (past : Trace) (event : Ev) : Prop :=
  ∀ nodeID ∈ sessionNode past event.thread, Undetached (localTrace event.thread past) →
    KeepsToLeases nodeID event
  deriving Decidable

/-- The job whose waiter a thread tells: it takes the channel out, or fills the one it took. -/
def notified (past : Seen) : Op → Option JobID
  | .mem (.takePending jobID _) => some jobID
  | .put .. => past.getLast?.bind fun obs =>
    match obs.op with
    | .mem (.takePending jobID _) => some jobID
    | _ => none
  | _ => none

structure Confined (nodeID : NodeID) (past : Trace) (event : Ev) : Prop where
  attempts : ∀ id a a', event.before.db.attempts.find? id = some a →
    event.after.db.attempts.find? id = some a' → a'.status ≠ a.status → a.nodeID = nodeID
  jobs : ∀ id, event.after.db.jobs.find? id ≠ event.before.db.jobs.find? id →
    event.before.db.Serves nodeID id
  waiters : ∀ id ∈ notified (localTrace event.thread past) event.op,
    event.before.db.Serves nodeID id
  credits : CreditsOnly nodeID event.before.db event.after.db

/-! ### What a session has been named -/

section

variable {settings : Settings} {entry : Entry} {call : StoreCall}

theorem mine_of_attemptOf (allowed : call.Disciplined settings entry seen) {jobID : JobID}
    {attemptID : AttemptID} (names : call.attemptOf = some (jobID, attemptID)) :
    Mine entry seen jobID attemptID ∨ SendFailed seen := by
  cases call <;> cases names
  case completeJob => exact .inl allowed.2
  case failAttempt => exact allowed
  case markVerificationAttemptFailed => exact allowed
  case postVerificationOverhead => exact .inl allowed.1
  all_goals exact .inl allowed

theorem NoSession.myJob (none : NoSession entry) (jobID : JobID) : MyJob entry seen jobID :=
  fun nodeID frames session => absurd session (none nodeID frames)

theorem myJob_of_jobOf (allowed : call.Disciplined settings entry seen) {jobID : JobID}
    (names : call.jobOf = some jobID) : MyJob entry seen jobID ∨ SendFailed seen := by
  cases call <;> cases names
  case createAttempt => exact .inl allowed.2
  case completeJob => exact .inl allowed.2.job
  case failAttempt => exact allowed.imp Mine.job id
  case cancelJob => exact .inl (NoSession.myJob allowed _)
  case operatorCancelJob => exact .inl (NoSession.myJob allowed _)
  case operatorRetryJob => exact .inl (NoSession.myJob allowed _)
  all_goals exact .inl (Mine.job allowed)

end

section

variable {settings : Settings} {event : Ev} {jobID : JobID} {attemptID : AttemptID}

theorem Ev.sameLease (event : Ev) (a : Attempt) : (event.onAttempt a).SameLease a := by
  unfold Ev.onAttempt
  cases event.commits with
  | none => exact ⟨rfl, rfl, rfl, rfl, rfl, rfl⟩
  | some call => exact sameLease_onAttempt _ call a

theorem leases_after (valid : event.Valid settings)
    (leases : event.before.db.Leases nodeID jobID attemptID) :
    event.after.db.Leases nodeID jobID attemptID := by
  obtain ⟨a, found, ofJob, leased⟩ := leases
  have same := event.sameLease a
  exact ⟨_, Ev.attempt_kept valid found, same.jobID.trans ofJob, same.nodeID.trans leased⟩

structure OwnOnly (seen : Seen) (nodeID : NodeID) (db : Db) : Prop where
  named : ∀ jobID attemptID, Named seen nodeID jobID attemptID → db.Leases nodeID jobID attemptID
  sent : ¬SendFailed seen

def OwnSessions (ls : Trace) (s : State) : Prop :=
  ∀ thread nodeID, sessionNode ls thread = some nodeID → Undetached (localTrace thread ls) →
    OwnOnly (localTrace thread ls) nodeID s.db

variable {after before : State} {input : Input} {op : Op}

section

variable {r : op.Resp} (valid : step settings op input before = some (after, r))
include valid

theorem takes_of_seen {message : JobMessage}
    (seen : (⟨op, r⟩ : Obs steps) = ⟨.recv nodeID, some (.job message)⟩) :
    op.takes input = some message := by
  cases seen
  have frame : input.frame = some (.job message) := (Prod.mk.inj (Option.some.inj valid)).2
  simp [Op.takes, frame]

theorem overdue_of_seen {ctx : Ctx} {at' : Time}
    {expired : List ExpiredAttempt} {attempt : ExpiredAttempt}
    (seen : (⟨op, r⟩ : Obs steps) = ⟨.store ctx (.expireLeases at'), .ok expired⟩)
    (member : attempt ∈ expired) : op.sweeps = some at' ∧ ∃ a ∈ before.db.attempts.rows,
      (a.status = .offered ∧ a.leaseExpiresAt ≤ at') ∧ attempt = ⟨a.jobID, a.id, a.nodeID⟩ := by
  cases seen
  exact ⟨rfl, expireLeases_result (exec_of_ok valid) member⟩

theorem fails_of_seen {sessionID : SessionID} {offer : JobOfferPayload} {e : GoError}
    (seen : (⟨op, r⟩ : Obs steps) = ⟨.send sessionID offer, .error e⟩) :
    op.offers = true ∧ input.sendFails = true := by
  cases seen
  have sent := (Prod.mk.inj (Option.some.inj valid)).2
  refine ⟨rfl, ?_⟩
  cases fails : input.sendFails with
  | true => rfl
  | false =>
    simp only [fails] at sent
    cases sent

end

theorem leases_of_named (valid : event.Valid settings) (keeps : KeepsToLeases nodeID event)
    (named : Named [⟨event.op, event.resp⟩] nodeID jobID attemptID) :
    event.before.db.Leases nodeID jobID attemptID := by
  rcases named with ⟨message, received, rfl, rfl⟩ | ⟨ctx, at', expired, swept, attempt, member, rfl, rfl⟩
  · have takes := takes_of_seen valid (mem_singleton.mp received).symm
    exact keeps.messages message takes
  · obtain ⟨sweeps, a, row, lapsed, rfl⟩ :=
      overdue_of_seen valid (mem_singleton.mp swept).symm member
    exact ⟨a, find?_of_mem row, rfl, keeps.sweeps at' sweeps a row lapsed⟩

theorem Named.snoc {past : Seen} {obs : Obs steps}
    (named : Named (past ++ [obs]) nodeID jobID attemptID) :
    Named past nodeID jobID attemptID ∨ Named [obs] nodeID jobID attemptID := by
  rcases named with ⟨message, received, names⟩ | ⟨ctx, at', expired, swept, names⟩
  · exact (mem_append.mp received).imp (fun r => .inl ⟨message, r, names⟩)
      (fun r => .inl ⟨message, r, names⟩)
  · exact (mem_append.mp swept).imp (fun r => .inr ⟨ctx, at', expired, r, names⟩)
      (fun r => .inr ⟨ctx, at', expired, r, names⟩)

theorem OwnOnly.snoc {past : Seen} (valid : event.Valid settings)
    (keeps : KeepsToLeases nodeID event) (before : OwnOnly past nodeID event.before.db) :
    OwnOnly (past ++ [⟨event.op, event.resp⟩]) nodeID event.after.db := by
  constructor
  · intro jobID attemptID named
    exact leases_after valid (named.snoc.elim (before.named _ _) (leases_of_named valid keeps))
  · rintro ⟨sessionID, offer, e, member⟩
    rcases mem_append.mp member with earlier | now
    · exact before.sent ⟨sessionID, offer, e, earlier⟩
    · obtain ⟨offers, fails⟩ := fails_of_seen valid (mem_singleton.mp now).symm
      rw [keeps.offers offers] at fails
      cases fails

theorem OwnSessions.step (valid : event.Valid settings)
    (here : OnOwnLeases past event) (before : OwnSessions past event.before) :
    OwnSessions (past ++ [.act event]) event.after := by
  intro thread nodeID session attached
  have session' : sessionNode past thread = some nodeID := by
    simpa [sessionNode] using session
  by_cases mine : event.thread = thread
  · subst mine
    simp only [localTrace_snoc_act, ↓reduceIte] at attached ⊢
    have attached' := attached.before (prefix_append _ _)
    exact (before _ _ session' attached').snoc valid (here nodeID session' attached')
  · simp only [localTrace_snoc_act, mine, ↓reduceIte, append_nil] at attached ⊢
    obtain ⟨named, sent⟩ := before thread nodeID session' attached
    exact ⟨fun _ _ name => leases_after valid (named _ _ name), sent⟩

theorem ownSessions_of_run {s : State} {ls : Trace} {c : Config steps State}
    (run : Ran settings s ls c) (own : Along OnOwnLeases ls) : OwnSessions ls c.state := by
  refine run.along_invariant (I := OwnSessions) own ?_ ?_ ?_
  · intro thread nodeID session
    simp [sessionNode, entries] at session
  · intro past mid entry before ih thread nodeID session attached
    rw [localTrace_snoc_spawn] at attached ⊢
    rcases Nat.lt_or_ge thread (entries past).length with started | unstarted
    · refine ih thread nodeID ?_ attached
      simpa [sessionNode, getElem?_append_left started] using session
    · rw [before.localTrace_unstarted unstarted]
      exact ⟨by simp [Named], by simp [SendFailed]⟩
  · exact fun past event mid next _ step here ih => ih.step step.exec here

/-! ### Confinement -/

variable {frames : Nat} {db : Db} {call : StoreCall}

section

variable (own : OwnOnly seen nodeID db)
include own

theorem OwnOnly.serves (attached : Undetached seen)
    (mine : MyJob (.session nodeID frames) seen jobID) : db.Serves nodeID jobID := by
  obtain ⟨attemptID, named⟩ := mine nodeID frames rfl attached
  exact ⟨attemptID, own.named jobID attemptID named⟩

variable (attached : Undetached seen)
  (allowed : call.Disciplined settings (.session nodeID frames) seen)
include attached allowed

theorem OwnOnly.leasedTo (names : call.attemptOf = some (jobID, attemptID)) :
    LeasedTo nodeID attemptID db := by
  intro a found
  rcases mine_of_attemptOf allowed names with mine | unsent
  · obtain ⟨b, found', -, leased⟩ := own.named _ _ (mine nodeID frames rfl attached)
    cases found.symm.trans found'
    exact leased
  · exact absurd unsent own.sent

theorem node_of_changed {a : Attempt} (found : db.attempts.find? a.id = some a)
    (sweeps : ∀ at', call = .expireLeases at' →
      (a.status = .offered ∧ a.leaseExpiresAt ≤ at') → a.nodeID = nodeID)
    (changed : call.onAttempt input a ≠ a) : a.nodeID = nodeID := by
  by_contra foreign
  refine changed (onAttempt_of_other ?_ ?_ ?_)
  · exact fun names => foreign (own.leasedTo attached allowed names a found)
  · exact fun at' sweep lapsed => foreign (sweeps at' sweep lapsed)
  · rintro rfl
    exact allowed nodeID frames rfl

theorem serves_of_changed {j : Job} (changed : call.onJob input j ≠ j) :
    db.Serves nodeID j.id := by
  by_contra foreign
  refine changed (onJob_of_other fun names => ?_)
  rcases myJob_of_jobOf allowed names with mine | unsent
  · exact foreign (own.serves attached mine)
  · exact own.sent unsent

theorem speaksOf_session : call.SpeaksOf nodeID db := by
  refine ⟨fun jobID attemptID names => own.leasedTo attached allowed names, fun other names => ?_⟩
  cases call <;> cases names
  case recordDuplicateOutcome => exact allowed nodeID frames rfl
  case quarantineNode => exact absurd rfl (allowed nodeID frames)

end

theorem confined_step (valid : event.Valid settings)
    (allowed : Disciplined settings (.session nodeID frames) (localTrace event.thread past) event.op)
    (attached : Undetached (localTrace event.thread past)) (keeps : KeepsToLeases nodeID event)
    (own : OwnOnly (localTrace event.thread past) nodeID event.before.db) :
    Confined nodeID past event := by
  have allowedCall {call : StoreCall} (commits : event.commits = some call) :
      (∃ ctx, event.op = .store ctx call) ∧
        call.Disciplined settings (.session nodeID frames) (localTrace event.thread past) := by
    obtain ⟨ctx, called⟩ := committed_eq_some commits
    rw [called] at allowed
    exact ⟨⟨ctx, called⟩, allowed⟩
  refine ⟨fun id a a' found found' changed => ?_, fun id changed => ?_, fun id told => ?_, ?_⟩
  · rw [Ev.attempt_kept valid found, Option.some.injEq] at found'
    subst found'
    cases commits : event.commits with
    | none => simp [Ev.onAttempt, commits] at changed
    | some call =>
      obtain ⟨⟨ctx, called⟩, allowed⟩ := allowedCall commits
      simp only [Ev.onAttempt, commits] at changed
      refine node_of_changed own attached allowed (key_of_find? found ▸ found) ?_
        fun same => changed (congrArg Attempt.status same)
      rintro at' rfl lapsed
      exact keeps.sweeps at' (by rw [called]; rfl) a (mem_of_find? found) lapsed
  · rw [Ev.jobs_after valid] at changed
    cases commits : event.commits with
    | none => simp [Ev.onJob, Ev.newJob, commits] at changed
    | some call =>
      obtain ⟨-, allowed⟩ := allowedCall commits
      cases found : event.before.db.jobs.find? id with
      | some j =>
        simp only [found, Ev.onJob, commits, map_some, some_or] at changed
        rw [← key_of_find? found]
        exact serves_of_changed own attached allowed fun same => changed (congrArg some same)
      | none =>
        -- only `CreateJob` adds a job, and no session calls it
        simp only [found, Ev.newJob, commits, map_none, none_or, bind_some,
          ne_eq] at changed
        cases call with
        | createJob => exact absurd rfl (allowed.1 nodeID frames)
        | _ => exact absurd rfl changed
  · cases called : event.op with
    | mem call =>
      cases call with
      | takePending jobID result =>
        rw [called] at allowed told
        cases told
        exact own.serves attached allowed.2
      | _ =>
        rw [called] at told
        cases told
    | put channel result =>
      rw [called] at allowed told
      obtain ⟨jobID, mine, last⟩ := allowed
      simp only [notified, last, bind_some, mem_def, Option.some.injEq] at told
      exact told ▸ own.serves attached mine
    | _ =>
      rw [called] at told
      cases told
  · cases commits : event.commits with
    | none =>
      rw [db_of_uncommitted valid commits]
      exact ⟨fun _ _ => rfl, fun _ member => .inl member⟩
    | some call =>
      obtain ⟨-, allowed⟩ := allowedCall commits
      obtain ⟨v, ran⟩ := exec_of_committed valid commits
      exact creditsOnly (speaksOf_session own attached allowed) ran

end

/-- In every run whose sessions keep to the leases of their nodes, every event of a session that is
still attached is confined to the leases of its node. -/
theorem messages_confined {settings : Settings} {s : State} {ls : Trace} {c : Config steps State}
    (run : (coordinator settings).Run (.boot s) ls c) (own : Along OnOwnLeases ls) :
    Along (fun past event => ∀ nodeID ∈ sessionNode past event.thread,
      Undetached (localTrace event.thread past) → Confined nodeID past event) ls := by
  intro past event rest cut nodeID session attached
  obtain ⟨mid, next, before, step, -⟩ := run.split cut
  have ownBefore : Along OnOwnLeases past :=
    fun earlier e later same => own earlier e (later ++ .act event :: rest) (by simp [cut, same])
  obtain ⟨frames, started⟩ := sessionNode_eq_some.mp session
  obtain ⟨entry, started', allowed⟩ := disciplined before step
  cases started.symm.trans started'
  have start : event.before = mid.state := step.start
  refine confined_step step.exec allowed attached (own past event rest cut nodeID session attached) ?_
  rw [start]
  exact ownSessions_of_run before ownBefore event.thread nodeID session attached

namespace Deployment

def served : List (Choice Input Entry) :=
  connect 0 "n1" ++ request 1 "j" "a" ++ accept 0 "j0" "a0" ++
  complete 0 (payload "j0" "a0") "c" ++ advance 0 4

def acceptedByAnother : List (Choice Input Entry) :=
  connect 0 "n1" ++ request 1 "j" "a" ++ connect 2 "n2" ++ accept 2 "j0" "a0"

end Deployment

theorem messages_confined_served : ∃ ls c,
    (coordinator settings).Run (.boot start) ls c ∧
    (Along OnOwnLeases ls ∧ Completed ls "j0" "a0") ∧
    Along (fun past event => ∀ nodeID ∈ sessionNode past event.thread,
      Undetached (localTrace event.thread past) → Confined nodeID past event) ls := by
  obtain ⟨ls, c, run, own, completed⟩ := run_of_check
    (p := fun ls _ => Along OnOwnLeases ls ∧ Completed ls "j0" "a0")
    Deployment.served (by decide +kernel)
  exact ⟨ls, c, run, ⟨own, completed⟩, messages_confined run own⟩

/-- The session of `n2` changes the status of an attempt that is leased to `n1`. -/
theorem accepted_by_another : ∃ ls c,
    (coordinator settings).Run (.boot start) ls c ∧
    Happened (fun event => sessionNode ls event.thread = some "n2" ∧
      Undetached (localTrace event.thread ls) ∧
      (event.before.db.attempts.find? "a0").map (fun a => (a.nodeID, a.status)) =
        some ("n1", .offered) ∧
      event.after.db.attemptStatus "a0" = some .accepted) ls :=
  run_of_check acceptedByAnother (by decide +kernel)

end Thirdshift
