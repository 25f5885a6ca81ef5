import Thirdshift.Coordinator.Charges
import Thirdshift.Coordinator.Waiters

/-!
# Answers and bills

A request that is answered with a completion has been charged, once. One that is answered with an
error is not charged as long as no job is completed that nobody waits for, and nobody is turned away
whose job has been completed: between the steps of a handler another one can come in.
-/

namespace Thirdshift

open Foundation

variable {op : Op} {s : State} {past ls : Trace} {event : Ev}

def Op.completing : Op → Option JobID
  | .store _ (.completeJob payload ..) => some payload.jobID
  | _ => none

def Op.abandons : Op → Option JobID
  | .mem (.abandonWait jobID) => some jobID
  | _ => none

def Op.reportsFailure : Op → Option JobID
  | .mem (.takePending jobID result) => if result.error.code = "" then none else some jobID
  | _ => none

/-- `CompleteJob` is called only for a job that a request waits for, and a request stops waiting or
is told of a failure only while its job has no accepted result. -/
structure HeldTogether (_past : Trace) (event : Ev) : Prop where
  completes : ∀ jobID ∈ event.op.completing, (event.before.mem.pending jobID).isSome = true
  abandons : ∀ jobID ∈ event.op.abandons, ¬Accepted event.before.db jobID
  reports : ∀ jobID ∈ event.op.reportsFailure, (event.before.mem.pending jobID).isSome = true →
    ¬Accepted event.before.db jobID

instance (past : Trace) (event : Ev) : Decidable (HeldTogether past event) :=
  decidable_of_iff ((∀ jobID ∈ event.op.completing, (event.before.mem.pending jobID).isSome = true) ∧
    (∀ jobID ∈ event.op.abandons, ¬Accepted event.before.db jobID) ∧
    ∀ jobID ∈ event.op.reportsFailure, (event.before.mem.pending jobID).isSome = true →
      ¬Accepted event.before.db jobID)
    ⟨fun ⟨a, b, c⟩ => ⟨a, b, c⟩, fun ⟨a, b, c⟩ => ⟨a, b, c⟩⟩

/-- The request for the job has stopped waiting, or has been told of a failure. -/
def TurnedAway (ls : Trace) (jobID : JobID) : Prop :=
  Happened (fun event => Op.abandons event.op = some jobID) ls ∨
    ∃ result channel, Taken ls jobID result channel ∧ result.error.code ≠ ""

structure Dismissed (ls : Trace) (s : State) (jobID : JobID) : Prop where
  registered : ∃ channel, Registered ls jobID channel
  gone : s.mem.pending jobID = none
  unaccepted : ¬Accepted s.db jobID

variable {jobID : JobID} {catalog : Catalog} {nodes : Table Node.id} {settings : Settings}
  {mid : Config steps State}

theorem abandons_eq (abandons : op.abandons = some jobID) : op = .mem (.abandonWait jobID) := by
  unfold Op.abandons at abandons
  split at abandons
  · rw [Option.some.inj abandons]
  · cases abandons

theorem completing_of_completes {r : op.Resp} {attemptID : AttemptID}
    (completes : (committed op r).bind StoreCall.completion = some (jobID, attemptID)) :
    op.completing = some jobID := by
  obtain ⟨call, commits, completion⟩ := Option.bind_eq_some_iff.mp completes
  obtain ⟨ctx, rfl⟩ := committed_eq_some commits
  cases call with
  | completeJob =>
    cases completion
    rfl
  | _ => cases completion

section

variable {settings : Settings} {mid next : Config steps State}

variable {jobID : JobID}

theorem unaccepted_after (valid : event.Valid settings)
    (unaccepted : ¬Accepted event.before.db jobID) (other : event.op.completing ≠ some jobID) :
    ¬Accepted event.after.db jobID := by
  rw [Ev.accepted_after valid]
  rintro (before | ⟨attemptID, completes⟩)
  · exact unaccepted before
  · exact other (completing_of_completes completes)

section

variable (run : Ran settings s past mid)
  (acts : Acts settings mid event next) (waiting : Waiting past event.before)
  (held : HeldTogether past event)
include run acts waiting held

theorem dismissed_of_turnedAway (turns : event.op.abandons = some jobID ∨ ∃ result channel,
      taken event.op event.resp = some (jobID, result, channel) ∧ result.error.code ≠ "") :
    Dismissed (past ++ [.act event]) event.after jobID := by
  have valid : Ev.Valid settings event := acts.exec
  rcases turns with abandons | ⟨result, channel, takes, failed⟩
  · have op := abandons_eq abandons
    obtain ⟨entry, -, allowed⟩ := disciplined run acts
    rw [op] at allowed
    obtain ⟨channel, waited⟩ := allowed
    have earlier := happened_of_seen Thirdshift.registered waited
    refine ⟨⟨channel, happened_snoc_act.mpr (.inl earlier)⟩, ?_,
      unaccepted_after valid (held.abandons jobID abandons) ?_⟩
    · rw [pending_of_step acts.exec, op]
      simp [Op.onPending]
    · simp [op, Op.completing]
  · obtain ⟨op, pending⟩ := pending_of_taken acts.exec takes
    have reports : event.op.reportsFailure = some jobID := by simp [op, Op.reportsFailure, failed]
    refine ⟨⟨channel, happened_snoc_act.mpr (.inl (waiting.registered jobID channel pending))⟩, ?_,
      unaccepted_after valid (held.reports jobID reports (by simp [pending])) ?_⟩
    · rw [pending_of_step acts.exec, op]
      simp [Op.onPending]
    · simp [op, Op.completing]

theorem Dismissed.step (dismissed : Dismissed past event.before jobID) :
    Dismissed (past ++ [.act event]) event.after jobID := by
  obtain ⟨⟨channel, registered⟩, gone, unaccepted⟩ := dismissed
  refine ⟨⟨channel, happened_snoc_act.mpr (.inl registered)⟩, ?_, unaccepted_after acts.exec unaccepted ?_⟩
  · rw [Option.eq_none_iff_forall_ne_some]
    intro other pending
    rcases registered_of_pending acts.exec pending with before | again
    · rw [gone] at before
      cases before
    · have created := waiting.created _ jobID (justCreated_of_registered run acts again)
      exact created.2.1 channel registered
  · intro completing
    have waits := held.completes jobID completing
    rw [gone] at waits
    cases waits

end

end

theorem dismissed_of_run {c : Config steps State} (run : Ran settings (boot catalog nodes) ls c)
    (held : Along HeldTogether ls) (turned : TurnedAway ls jobID) : Dismissed ls c.state jobID := by
  refine run.along_invariant (I := fun ls s => TurnedAway ls jobID → Dismissed ls s jobID) held
    ?_ ?_ ?_ turned
  · simp [TurnedAway, Taken]
  · intro past mid entry _ ih turned
    obtain ⟨⟨channel, registered⟩, gone, unaccepted⟩ := ih (by simpa [TurnedAway, Taken] using turned)
    exact ⟨⟨channel, happened_snoc_spawn.mpr registered⟩, gone, unaccepted⟩
  · intro past event mid next before step held ih turned
    have waiting : Waiting past event.before := step.start ▸ waiting_of_run before
    by_cases earlier : TurnedAway past jobID
    · exact (ih earlier).step before step waiting held
    · refine dismissed_of_turnedAway before step waiting held ?_
      rcases turned with abandoned | ⟨result, channel, taken, failed⟩
      · rcases happened_snoc_act.mp abandoned with old | new
        · exact absurd (.inl old) earlier
        · exact .inl new
      · rcases happened_snoc_act.mp taken with old | new
        · exact absurd (.inr ⟨result, channel, old, failed⟩) earlier
        · exact .inr ⟨result, channel, new, failed⟩

/-! ### Answers -/

def Answer.isError : Answer → Bool
  | .error _ => true
  | _ => false

/-- The job a chat request is answered about, and whether the answer is an error. -/
def Ev.chatAnswer (started : List Entry) (event : Ev) : Option (JobID × Bool) :=
  match started[event.thread]?, event.op with
  | some (.chat _), .answer (some jobID) a => some (jobID, a.isError)
  | _, _ => none

def Served (ls : Trace) (jobID : JobID) : Prop :=
  Happened (fun event => Ev.chatAnswer (entries ls) event = some (jobID, false)) ls
  deriving Decidable

def Refused (ls : Trace) (jobID : JobID) : Prop :=
  Happened (fun event => Ev.chatAnswer (entries ls) event = some (jobID, true)) ls
  deriving Decidable

theorem ends_of_chatAnswer {c : Config steps State}
    (run : Ran settings s ls c) (member : event ∈ events ls)
    {failed : Bool} (answers : event.chatAnswer (entries ls) = some (jobID, failed)) :
    ∃ past rest mid a, ls = past ++ rest ∧ Ran settings s past mid ∧
      a.isError = failed ∧ Ends (localTrace event.thread past) jobID a := by
  obtain ⟨past, rest, mid, next, cut, before, step⟩ := run.around member
  obtain ⟨entry, started, allowed⟩ := disciplined before step
  have startedIn : (entries ls)[event.thread]? = some entry := cut ▸ entry_kept started _
  unfold Ev.chatAnswer at answers
  rw [startedIn] at answers
  split at answers
  next _ _ call job a chat answer =>
    cases answers
    rw [answer] at allowed
    exact ⟨past, _, mid, a, cut, before, rfl,
      (allowed call (Option.some.inj chat)).1 _ rfl⟩
  · cases answers

section

variable {i : Nat} {a : Answer} (before : Ran settings (boot catalog nodes) past mid)
  (ends : Ends (localTrace i past) jobID a)
include before ends

theorem completed_of_completion (ok : a.isError = false) :
    ∃ attemptID, Completed past jobID attemptID := by
  have waiting := waiting_of_run before
  cases ends with
  | unscheduled | abandoned | reported => cases ok
  | completed waited received ok _ => exact waiting.completed _ _ _ (waiting.told waited received) ok

theorem turnedAway_of_error (failed : a.isError = true) : TurnedAway past jobID := by
  have waiting := waiting_of_run before
  have gaveUp : Abandoned (localTrace i past) jobID → TurnedAway past jobID := by
    rintro ⟨r, seen⟩
    have happened := happened_of_seen (fun (op : Op) (_ : op.Resp) => op.abandons) seen
    exact .inl happened
  cases ends with
  | unscheduled abandoned _ => exact gaveUp abandoned
  | abandoned abandoned _ => exact gaveUp abandoned
  | reported waited received code => exact .inr ⟨_, _, waiting.told waited received, code⟩
  | completed _ _ _ fresh =>
    cases a with
    | error e => exact absurd rfl (fresh e)
    | _ => cases failed

end

/-- The answer to the developer agrees with the bill, in every run in which no job is completed
that nobody waits for and nobody is turned away whose job has been completed. -/
theorem answers_agree_with_bills {settings : Settings} {catalog : Catalog} {nodes : Table Node.id}
    {ls : Trace} {c : Config steps State}
    (run : (coordinator settings).Run (.boot (boot catalog nodes)) ls c)
    (held : Along HeldTogether ls) (jobID : JobID) :
    (Served ls jobID → ∃! t, t ∈ c.state.db.transactions.rows ∧ t.Charges jobID) ∧
      (Refused ls jobID → ¬Charging c.state.db jobID) := by
  have books := books_of_run run
  constructor
  · rintro ⟨event, member, answers⟩
    obtain ⟨past, rest, mid, a, rfl, before, ok, ends⟩ := ends_of_chatAnswer run member answers
    obtain ⟨attemptID, completed⟩ := completed_of_completion before ends ok
    have accepted := (accepted_iff_completed run).mpr ⟨attemptID, completed.append rest⟩
    obtain ⟨t, inLedger, charges⟩ := books.charging_iff.mpr accepted
    refine ⟨t, ⟨inLedger, charges⟩, fun other ⟨inLedger', charges'⟩ => ?_⟩
    exact (oneCharge_of_charged books.unique books.charged jobID).transaction other inLedger' t
      inLedger charges' charges
  · rintro ⟨event, member, answers⟩
    obtain ⟨past, rest, mid, a, rfl, before, failed, ends⟩ := ends_of_chatAnswer run member answers
    have turned : TurnedAway (past ++ rest) jobID := by
      rcases turnedAway_of_error before ends failed with abandoned | ⟨result, channel, taken, code⟩
      · exact .inl (abandoned.append rest)
      · exact .inr ⟨result, channel, taken.append rest, code⟩
    rw [books.charging_iff]
    exact (dismissed_of_run run held turned).unaccepted

namespace Deployment

def refusedAndServed : List (Choice Input Entry) :=
  [.spawn (.chat call)] ++ advance 0 2 ++ [.act 0 (drawing "k")] ++ advance 0 11 ++
  connect 1 "n1" ++ request 2 "j" "a" ++ accept 1 "j0" "a0" ++
  complete 1 (payload "j0" "a0") "c" ++ advance 1 4 ++
  [.act 2 { idle with resultReady := true }] ++ advance 2 1

/-- The request times out after its job has been completed and before it is told so. -/
def timedOutAfterCompletion : List (Choice Input Entry) :=
  connect 0 "n1" ++ request 1 "j" "a" ++ accept 0 "j0" "a0" ++
  complete 0 (payload "j0" "a0") "c" ++ advance 1 5

end Deployment

theorem answers_agree_with_bills_refusedAndServed : ∃ ls c,
    (coordinator Deployment.settings).Run (.boot Deployment.start) ls c ∧
    (Along HeldTogether ls ∧ Served ls "j0" ∧ Refused ls "k0") ∧
    (∃! t, t ∈ c.state.db.transactions.rows ∧ t.Charges "j0") ∧ ¬Charging c.state.db "k0" := by
  obtain ⟨ls, c, run, held, served, refused⟩ := Deployment.run_of_check
    (p := fun ls _ => Along HeldTogether ls ∧ Served ls "j0" ∧ Refused ls "k0")
    Deployment.refusedAndServed (by decide +kernel)
  exact ⟨ls, c, run, ⟨held, served, refused⟩, (answers_agree_with_bills run held "j0").1 served,
    (answers_agree_with_bills run held "k0").2 refused⟩

theorem refused_and_charged : ∃ ls c,
    (coordinator Deployment.settings).Run (.boot Deployment.start) ls c ∧
    Refused ls "j0" ∧ Charging c.state.db "j0" :=
  Deployment.run_of_check Deployment.timedOutAfterCompletion (by decide +kernel)

end Thirdshift
