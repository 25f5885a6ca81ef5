import Thirdshift.Coordinator.Billing
import Thirdshift.Coordinator.Finality

/-!
# Jobs that outlive their requests

When a request is answered, its job has been concluded by its handler, the handler of a message, the
sweep of expired leases or a retry that failed, with `FailJob` or `CompleteJob` before the request
hears of it. A request that fails to schedule for another reason than capacity gives up without that
write, and a call for an attempt can take up a job that was concluded.
-/

namespace Thirdshift

open Foundation Deployment

def Db.Concluded (db : Db) (jobID : JobID) : Prop :=
  ∃ j ∈ db.jobs.find? jobID, j.state.terminal = true
  deriving Decidable

def Op.failing : Op → Option JobID
  | .store _ (.failJob jobID ..) => some jobID
  | _ => none

/-- The job that a call takes up: it leases the job, starts work on it or queues it again. -/
def Op.takesUp : Op → Option JobID
  | .store _ (.createAttempt jobID ..) => some jobID
  | .store _ (.markAccepted jobID _) => some jobID
  | .store _ (.markStarted jobID _) => some jobID
  | .store _ (.operatorRetryJob jobID) => some jobID
  | _ => none

def Op.answered : Op → Option JobID
  | .answer jobID _ => jobID
  | _ => none

/-- `FailJob` goes through for a job that exists, no call takes up a job that is concluded, and a
request that gives up has seen no database call, look-up or offer fail. -/
structure Concluding (past : Trace) (event : Ev) : Prop where
  fails : ∀ jobID ∈ event.op.failing,
    event.commits.isSome = true ∧ (event.before.db.jobs.find? jobID).isSome = true
  spares : ∀ jobID ∈ event.op.takesUp, ¬event.before.db.Concluded jobID
  givesUp : ∀ jobID ∈ event.op.answered,
    (∃ obs ∈ localTrace event.thread past, Op.abandons obs.op = some jobID) →
    ∀ obs ∈ localTrace event.thread past, faulty obs.op obs.resp = false

instance (past : Trace) (event : Ev) : Decidable (Concluding past event) :=
  decidable_of_iff (_ ∧ _ ∧ _) ⟨fun ⟨a, b, c⟩ => ⟨a, b, c⟩, fun ⟨a, b, c⟩ => ⟨a, b, c⟩⟩

/-- A request is answered about its job once the job is concluded. -/
def AnswersConcluded (past : Trace) (event : Ev) : Prop :=
  ∀ answered ∈ event.chatAnswer (entries past), event.after.db.Concluded answered.1
  deriving Decidable

/-! ### Concluded jobs stay so -/

section

variable {settings : Settings} {past : Trace} {event : Ev} {jobID : JobID}

theorem StoreCall.onJob_terminal (ctx : Ctx) {input : Input} {call : StoreCall} {j : Job}
    (done : j.state.terminal = true) (spared : (Op.store ctx call).takesUp ≠ some j.id) :
    (call.onJob input j).state.terminal = true := by
  cases call
  case failAttempt =>
    simp only [onJob, Table.updateWhere]
    split
    next matched =>
      simp only [decide_eq_true_eq] at matched
      rcases matched.2 with leased | running <;> simp_all [JobState.terminal]
    · exact done
  all_goals
    simp only [onJob, Table.updateWhere, id]
    first
      | exact done
      | (split
         · simp_all [Op.takesUp, JobState.terminal]
         · exact done)

section

variable (valid : event.Valid settings)
include valid

theorem Ev.concluded_kept (concluding : Concluding past event)
    (concluded : event.before.db.Concluded jobID) : event.after.db.Concluded jobID := by
  obtain ⟨j, found, done⟩ := concluded
  refine ⟨_, Ev.job_kept valid found, ?_⟩
  cases commits : event.commits with
  | none => simpa [Ev.onJob, commits] using done
  | some call =>
    obtain ⟨ctx, called⟩ := committed_eq_some commits
    simp only [Ev.onJob, commits]
    refine StoreCall.onJob_terminal ctx done fun takesUp => ?_
    rw [← called, Table.key_of_find? found] at takesUp
    exact concluding.spares jobID takesUp ⟨j, found, done⟩

theorem concluded_of_failing (concluding : Concluding past event)
    (fails : event.op.failing = some jobID) : event.after.db.Concluded jobID := by
  obtain ⟨goesThrough, exists'⟩ := concluding.fails jobID fails
  obtain ⟨call, commits⟩ := Option.isSome_iff_exists.mp goesThrough
  obtain ⟨j, found⟩ := Option.isSome_iff_exists.mp exists'
  obtain ⟨ctx, called⟩ := committed_eq_some commits
  rw [called] at fails
  have named : j.id = jobID := Table.key_of_find? found
  refine ⟨_, Ev.job_kept valid found, ?_⟩
  cases call with
  | failJob =>
    cases fails
    simp [Ev.onJob, commits, StoreCall.onJob, Table.updateWhere, named, JobState.terminal]
  | _ => cases fails

theorem concluded_of_completes {attemptID : AttemptID}
    (completes : event.completes = some (jobID, attemptID)) : event.after.db.Concluded jobID := by
  obtain ⟨j, found, succeeded⟩ := (settled_of_completes valid completes).job
  exact ⟨j, found, by rw [succeeded]; rfl⟩

end

end

/-- `FailJob` has been called for the job, or `CompleteJob` has committed. -/
def WrittenOff (ls : Trace) (jobID : JobID) : Prop :=
  Happened (fun event : Ev => event.op.failing = some jobID) ls ∨
    ∃ attemptID, Completed ls jobID attemptID

section

variable {settings : Settings} {catalog : Catalog} {nodes : Table Node.id} {ls : Trace}
  {c : Config steps State}

variable {jobID : JobID}

theorem concluded_of_writtenOff (run : Ran settings (boot catalog nodes) ls c)
    (concluding : Along Concluding ls) (written : WrittenOff ls jobID) :
    c.state.db.Concluded jobID := by
  refine run.along_invariant (I := fun ls s => WrittenOff ls jobID → s.db.Concluded jobID) concluding
    ?_ ?_ ?_ written
  · simp [WrittenOff, Completed]
  · intro past mid entry _ ih written
    exact ih (by simpa [WrittenOff, Completed] using written)
  · intro past event mid next _ step here ih written
    have valid : Ev.Valid settings event := step.exec
    by_cases earlier : WrittenOff past jobID
    · exact Ev.concluded_kept valid here (ih earlier)
    · rcases written with failed | ⟨attemptID, completed⟩
      · rcases happened_snoc_act.mp failed with old | now
        · exact absurd (.inl old) earlier
        · exact concluded_of_failing valid here now
      · rcases happened_snoc_act.mp completed with old | now
        · exact absurd (.inr ⟨attemptID, old⟩) earlier
        · exact concluded_of_completes valid now

theorem failing_of_called {past : Trace} {thread : Nat}
    (called : CalledFailJob (localTrace thread past) jobID) : WrittenOff past jobID := by
  obtain ⟨ctx, attemptID, code, transient, at', r, seen⟩ := called
  exact .inl (happened_of_seen (fun (op : Op) (_ : op.Resp) => op.failing) seen)

theorem writtenOff_of_taken (run : Ran settings (boot catalog nodes) ls c)
    {result : Result} {channel : Nat} (told : Taken ls jobID result channel) :
    WrittenOff ls jobID := by
  have older : ∀ {past : Trace} {l}, WrittenOff past jobID → WrittenOff (past ++ [l]) jobID := by
    rintro past l (failed | ⟨attemptID, completed⟩)
    · exact .inl (failed.append [l])
    · exact .inr ⟨attemptID, Happened.append completed [l]⟩
  refine run.invariant (I := fun ls _ => Taken ls jobID result channel → WrittenOff ls jobID)
    ?_ ?_ ?_ told
  · simp [Taken]
  · exact fun past mid entry _ ih told => older (ih (happened_snoc_spawn.mp told))
  · intro past event mid next before step ih told
    rcases happened_snoc_act.mp told with old | now
    · exact older (ih old)
    · obtain ⟨entry, -, allowed⟩ := disciplined before step
      rw [(pending_of_taken step.exec now).1] at allowed
      rcases allowed.1 with ⟨ok, -⟩ | ⟨-, called⟩
      · obtain ⟨attemptID, completed⟩ := completed_of_taken before step now ok
        exact older (.inr ⟨attemptID, completed⟩)
      · exact older (failing_of_called called)

/-- In a run in which `FailJob` goes through, concluded jobs are left alone and requests do not give
up over a fault, no job outlives its request. -/
theorem no_job_outlives_its_request
    (run : (coordinator settings).Run (.boot (boot catalog nodes)) ls c)
    (concluding : Along Concluding ls) : Along AnswersConcluded ls := by
  intro past event rest cut answered about
  obtain ⟨mid, next, before, step, -⟩ := run.split cut
  have here := concluding past event rest cut
  have sofar : Along Concluding past := (cut ▸ concluding).left
  have valid : Ev.Valid settings event := step.exec
  obtain ⟨jobID, failed⟩ := answered
  refine Ev.concluded_kept valid here ?_
  rw [step.start]
  refine concluded_of_writtenOff before sofar ?_
  obtain ⟨entry, started, allowed⟩ := disciplined before step
  unfold Ev.chatAnswer at about
  rw [started] at about
  split at about
  next _ _ call job a chat answer =>
    cases about
    rw [answer] at allowed
    have waiting := waiting_of_run before
    -- the four ways in which a request ends
    cases (allowed call (Option.some.inj chat)).1 _ rfl with
    | unscheduled abandoned faulted =>
      obtain ⟨r, gaveUp⟩ := abandoned
      obtain ⟨obs, seen, fault⟩ := faulted
      have clean := here.givesUp jobID (by rw [answer]; rfl) ⟨_, gaveUp, rfl⟩ obs seen
      rw [fault] at clean
      cases clean
    | abandoned _ called => exact failing_of_called called
    | reported waited received _ => exact writtenOff_of_taken before (waiting.told waited received)
    | completed waited received _ _ =>
      exact writtenOff_of_taken before (waiting.told waited received)
  · cases about

end

theorem no_job_outlives_its_request_refusedAndServed : ∃ ls c,
    (coordinator settings).Run (.boot start) ls c ∧
    (Along Concluding ls ∧ Served ls "j0" ∧ Refused ls "k0") ∧ Along AnswersConcluded ls := by
  obtain ⟨ls, c, run, concluding, answered⟩ := run_of_check
    (p := fun ls _ => Along Concluding ls ∧ Served ls "j0" ∧ Refused ls "k0")
    refusedAndServed (by decide +kernel)
  exact ⟨ls, c, run, ⟨concluding, answered⟩, no_job_outlives_its_request run concluding⟩

/-- The offer of a request cannot be sent: the request is answered with an error and its job goes on
waiting for a node. -/
def Deployment.offerLost : List (Choice Input Entry) :=
  connect 0 "n1" ++ [.spawn (.chat call)] ++ advance 1 2 ++ [.act 1 (drawing "j")] ++ advance 1 8 ++
  [.act 1 (drawing "a")] ++ advance 1 1 ++ [.act 1 { idle with sendFails := true }] ++ advance 1 4

theorem job_outlives_its_request : ∃ ls c,
    (coordinator settings).Run (.boot start) ls c ∧
    Refused ls "j0" ∧ c.state.db.jobState "j0" = some .queued ∧ ¬Along AnswersConcluded ls :=
  run_of_check offerLost (by decide +kernel)

end Thirdshift
