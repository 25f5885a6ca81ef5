import Thirdshift.Coordinator.Runs

/-!
# Finality

Which states of a job no later event takes away. `FailJob` and `CreateAttempt` write the state of a
job without looking at it, so a success is final exactly as long as neither is called for a job that
has succeeded; every other writer guards its update.
-/

namespace Thirdshift

open Foundation StoreCall Deployment Table

def StoreCall.overwrites : StoreCall → Option JobID
  | .failJob jobID .. => some jobID
  | .createAttempt jobID .. => some jobID
  | _ => none

def Op.overwrites : Op → Option JobID
  | .store _ call => call.overwrites
  | _ => none

/-- Neither `FailJob` nor `CreateAttempt` is called for a job that has succeeded. -/
def SparesSucceeded (_past : Trace) (event : Ev) : Prop :=
  ∀ jobID ∈ event.op.overwrites, event.before.db.jobState jobID ≠ some .succeeded
  deriving Decidable

namespace StoreCall

theorem onJob_succeeded {input : Input} {call : StoreCall} {j : Job} (done : j.state = .succeeded)
    (spared : call.overwrites ≠ some j.id) : (call.onJob input j).state = .succeeded := by
  cases call <;> simp only [onJob, updateWhere, id] <;> first
    | exact done
    | (split <;> simp_all [overwrites])

theorem onAttempt_succeeded {input : Input} {call : StoreCall} {a : Attempt}
    (done : a.status = .succeeded) (spared : call.overwrites ≠ some a.jobID) :
    (call.onAttempt input a).status = .succeeded := by
  cases call <;> simp only [onAttempt, updateWhere, id] <;> first
    | exact done
    | (split <;> simp_all [overwrites, AttemptStatus.taken, AttemptStatus.live])

end StoreCall

structure Settled (db : Db) (jobID : JobID) (attemptID : AttemptID) : Prop where
  job : ∃ j, db.jobs.find? jobID = some j ∧ j.state = .succeeded
  attempt : ∃ a, db.attempts.find? attemptID = some a ∧ a.status = .succeeded ∧ a.jobID = jobID

section

variable {settings : Settings} {event : Ev} {jobID : JobID} {attemptID : AttemptID}

theorem settled_of_completes (valid : event.Valid settings)
    (completes : event.completes = some (jobID, attemptID)) :
    Settled event.after.db jobID attemptID := by
  obtain ⟨call, commits, completion⟩ := Option.bind_eq_some_iff.mp completes
  obtain ⟨v, ran⟩ := exec_of_committed valid commits
  cases call with
  | completeJob payload receivedAt creditHold status cls attempts =>
    cases completion
    obtain ⟨a, checked⟩ := completeJob_checked ran
    obtain ⟨j, found⟩ := job_of_completeJob ran
    have sameJob : j.id = payload.jobID := key_of_find? found
    have sameAttempt : a.id = payload.attemptID := key_of_find? checked.found
    constructor
    · refine ⟨_, Ev.job_kept valid found, ?_⟩
      simp [Ev.onJob, commits, StoreCall.onJob, updateWhere, sameJob]
    · refine ⟨_, Ev.attempt_kept valid checked.found, ?_⟩
      simp [Ev.onAttempt, commits, StoreCall.onAttempt, updateWhere, sameAttempt,
        checked.ofJob]
  | _ => cases completion

theorem settled_step (valid : event.Valid settings) (spared : SparesSucceeded [] event)
    (before : Settled event.before.db jobID attemptID) : Settled event.after.db jobID attemptID := by
  obtain ⟨⟨j, foundJob, succeeded⟩, ⟨a, foundAttempt, done, ofJob⟩⟩ := before
  have jobKept := Ev.job_kept valid foundJob
  have attemptKept := Ev.attempt_kept valid foundAttempt
  have sameJob : j.id = jobID := key_of_find? foundJob
  cases commits : event.commits with
  | none =>
    simp only [Ev.onJob, Ev.onAttempt, commits, id] at jobKept attemptKept
    exact ⟨⟨j, jobKept, succeeded⟩, ⟨a, attemptKept, done, ofJob⟩⟩
  | some call =>
    simp only [Ev.onJob, Ev.onAttempt, commits] at jobKept attemptKept
    have notOverwritten : call.overwrites ≠ some jobID := by
      intro overwrites
      obtain ⟨ctx, called⟩ := committed_eq_some commits
      refine spared jobID (by simp [called, Op.overwrites, overwrites]) ?_
      simp [Db.jobState, foundJob, succeeded]
    refine ⟨⟨_, jobKept, onJob_succeeded succeeded (sameJob ▸ notOverwritten)⟩,
      ⟨_, attemptKept, onAttempt_succeeded done (ofJob ▸ notOverwritten), ?_⟩⟩
    rw [(sameLease_onAttempt event.input call a).jobID, ofJob]

end

/-- Success is final in every run that calls neither `FailJob` nor `CreateAttempt` for a job that
has succeeded. -/
theorem success_is_final {settings : Settings} {s : State} {ls : Trace} {c : Config steps State}
    (run : (coordinator settings).Run (.boot s) ls c) (spared : Along SparesSucceeded ls)
    {jobID : JobID} {attemptID : AttemptID} (completed : Completed ls jobID attemptID) :
    c.state.db.jobState jobID = some .succeeded ∧
      c.state.db.attemptStatus attemptID = some .succeeded := by
  suffices settled : Settled c.state.db jobID attemptID by
    obtain ⟨⟨j, foundJob, succeeded⟩, ⟨a, foundAttempt, done, -⟩⟩ := settled
    simp [Db.jobState, Db.attemptStatus, foundJob, foundAttempt, succeeded, done]
  refine run.along_invariant
    (I := fun ls s => ∀ {jobID attemptID}, Completed ls jobID attemptID →
      Settled s.db jobID attemptID) spared ?_ ?_ ?_ completed
  · exact fun completed => absurd completed happened_nil
  · exact fun past mid entry _ ih {_ _} completed => ih (happened_snoc_spawn.mp completed)
  · intro past event mid next _ step here ih jobID attemptID completed
    have valid : Ev.Valid settings event := step.exec
    rcases happened_snoc_act.mp completed with earlier | now
    · -- the completion lies in the past: this event keeps what it settled
      exact settled_step valid here (ih earlier)
    · exact settled_of_completes valid now

namespace Deployment

def completedThenBusy : List (Choice Input Entry) :=
  connect 0 "n1" ++ request 1 "j" "a" ++ accept 0 "j0" "a0" ++
  complete 0 (payload "j0" "a0") "c" ++ advance 0 4 ++ request 2 "k" "b"

/-- A node completes an attempt and then reports it as failed: `FailJob` overwrites both rows. -/
def completedThenFailed : List (Choice Input Entry) :=
  connect 0 "n1" ++ request 1 "j" "a" ++ accept 0 "j0" "a0" ++
  complete 0 (payload "j0" "a0") "c" ++ advance 0 4 ++
  [.act 0 (reading (.job (.failed ⟨"j0", "a0", "job_failed", "", false, 0⟩)))] ++ advance 0 4

end Deployment

theorem success_is_final_while_busy : ∃ ls c,
    (coordinator settings).Run (.boot start) ls c ∧
    (Along SparesSucceeded ls ∧ Completed ls "j0" "a0" ∧
      c.state.db.jobState "k0" = some .leased) ∧
    c.state.db.jobState "j0" = some .succeeded ∧
    c.state.db.attemptStatus "a0" = some .succeeded := by
  obtain ⟨ls, c, run, spared, completed, leased⟩ := run_of_check
    (p := fun ls c => Along SparesSucceeded ls ∧ Completed ls "j0" "a0" ∧
      c.state.db.jobState "k0" = some .leased) completedThenBusy (by decide +kernel)
  exact ⟨ls, c, run, ⟨spared, completed, leased⟩, success_is_final run spared completed⟩

theorem success_overwritten : ∃ ls c,
    (coordinator settings).Run (.boot start) ls c ∧
    Completed ls "j0" "a0" ∧ c.state.db.jobState "j0" = some .failed ∧
    c.state.db.attemptStatus "a0" = some .failed :=
  run_of_check completedThenFailed (by decide +kernel)

end Thirdshift
