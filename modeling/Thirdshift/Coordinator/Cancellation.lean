import Thirdshift.Coordinator.Charges
import Thirdshift.Coordinator.Finality

/-!
# Cancellation

A cancel writes the job's row. The scheduler's run, the attempts under way and the waiting handler
know nothing of it. A cancellation stands as long as none of the calls that name the job afterwards
meets a cancelled job with something to work on.
-/

namespace Thirdshift

open Foundation Option Deployment StoreCall

def Db.liveAttempt (db : Db) (jobID : JobID) (attemptID : AttemptID) : Bool :=
  (db.attempts.find? attemptID).any fun a => a.jobID = jobID ∧ a.status.live

/-- The job that a call would take up again: it writes the job's state whatever it is, adds an
attempt to it, or moves on one of its live attempts. -/
def StoreCall.resumes (db : Db) : StoreCall → Option JobID
  | .createAttempt jobID .. => some jobID
  | .createVerificationAttempt jobID .. => some jobID
  | .failJob jobID .. => some jobID
  | .operatorRetryJob jobID => some jobID
  | .markAccepted jobID attemptID =>
    if db.liveAttempt jobID attemptID then some jobID else none
  | .markStarted jobID attemptID =>
    if db.liveAttempt jobID attemptID then some jobID else none
  | .completeJob payload .. =>
    if db.liveAttempt payload.jobID payload.attemptID then some payload.jobID else none
  | _ => none

def Op.resumes (db : Db) : Op → Option JobID
  | .store _ call => call.resumes db
  | _ => none

def SparesCancelled (_past : Trace) (event : Ev) : Prop :=
  ∀ jobID ∈ event.op.resumes event.before.db, event.before.db.jobState jobID ≠ some .cancelled
  deriving Decidable

def StoreCall.cancellation : StoreCall → Option JobID
  | .cancelJob _ jobID => some jobID
  | .operatorCancelJob jobID => some jobID
  | _ => none

/-- The event is a cancel call that has moved the job to `cancelled`. -/
def Ev.Cancels (event : Ev) (jobID : JobID) : Prop :=
  event.commits.bind cancellation = some jobID ∧
    event.before.db.jobState jobID ≠ some .cancelled ∧
    event.after.db.jobState jobID = some .cancelled
  deriving Decidable

def Ev.retries (event : Ev) : Option JobID :=
  event.commits.bind fun
    | .operatorRetryJob jobID => some jobID
    | _ => none

/-- Since the earlier database the job has stayed cancelled, and it has no new attempt and no new
charge. -/
structure StaysCancelled (jobID : JobID) (earlier db : Db) : Prop where
  job : db.jobState jobID = some .cancelled
  attempts : ∀ id a, db.attempts.find? id = some a → a.jobID = jobID →
    (earlier.attempts.find? id).isSome = true
  charge : Charging db jobID → Charging earlier jobID

namespace StoreCall

theorem onJob_cancelled {input : Input} {call : StoreCall} {db db' : Db} {v : call.Result} {j : Job}
    (ran : Tx.exec schema (call.tx input) db = .ok (v, db')) (done : j.state = .cancelled)
    (spared : call.resumes db ≠ some j.id) : (call.onJob input j).state = .cancelled := by
  cases call
  case markAccepted jobID attemptID =>
    obtain ⟨a, found, ofJob, offered, -⟩ := markAccepted_checked ran
    have live : db.liveAttempt jobID attemptID = true := by
      simp [Db.liveAttempt, found, ofJob, offered, AttemptStatus.live]
    simp only [resumes, live, if_true, ne_eq, Option.some.injEq] at spared
    simpa [onJob, Table.updateWhere, Ne.symm spared] using done
  case markStarted jobID attemptID =>
    obtain ⟨a, found, ofJob, taken⟩ := markStarted_checked ran
    have live : db.liveAttempt jobID attemptID = true := by
      cases status : a.status <;>
        simp_all [Db.liveAttempt, AttemptStatus.live, AttemptStatus.taken]
    simp only [resumes, live, if_true, ne_eq, Option.some.injEq] at spared
    simpa [onJob, Table.updateWhere, Ne.symm spared] using done
  case completeJob payload receivedAt creditHold status cls attempts =>
    obtain ⟨a, checked⟩ := completeJob_checked ran
    have live : db.liveAttempt payload.jobID payload.attemptID = true := by
      have taken := checked.taken
      cases status : a.status <;>
        simp_all [Db.liveAttempt, checked.found, checked.ofJob, AttemptStatus.live,
          AttemptStatus.taken]
    simp only [resumes, live, if_true, ne_eq, Option.some.injEq] at spared
    simpa [onJob, Table.updateWhere, Ne.symm spared] using done
  all_goals
    simp only [onJob, Table.updateWhere, id]
    first
      | exact done
      | (split <;> simp_all [resumes])

end StoreCall

section

variable {settings : Settings} {event : Ev} {jobID : JobID} {earlier : Db}

theorem not_resumed {call : StoreCall} (commits : event.commits = some call)
    (spared : SparesCancelled [] event)
    (cancelled : event.before.db.jobState jobID = some .cancelled) :
    call.resumes event.before.db ≠ some jobID := by
  intro resumes
  obtain ⟨ctx, called⟩ := committed_eq_some commits
  refine spared jobID ?_ cancelled
  simp [called, Op.resumes, resumes]

theorem not_completed_of_cancelled (valid : event.Valid settings)
    (spared : SparesCancelled [] event)
    (cancelled : event.before.db.jobState jobID = some .cancelled) (attemptID : AttemptID) :
    event.completes ≠ some (jobID, attemptID) := by
  intro completes
  obtain ⟨call, commits, completion⟩ := bind_eq_some_iff.mp completes
  obtain ⟨v, ran⟩ := exec_of_committed valid commits
  cases call with
  | completeJob payload receivedAt creditHold status cls attempts =>
    cases completion
    obtain ⟨a, checked⟩ := completeJob_checked ran
    have live : event.before.db.liveAttempt payload.jobID payload.attemptID = true := by
      have taken := checked.taken
      cases status : a.status <;>
        simp_all [Db.liveAttempt, checked.found, checked.ofJob, AttemptStatus.live,
          AttemptStatus.taken]
    exact not_resumed commits spared cancelled (by simp [resumes, live])
  | _ => cases completion

theorem no_attempt_of_cancelled (spared : SparesCancelled [] event)
    (cancelled : event.before.db.jobState jobID = some .cancelled) {a : Attempt}
    (new : event.newAttempt = some a) : a.jobID ≠ jobID := by
  rintro rfl
  obtain ⟨call, commits, added⟩ := bind_eq_some_iff.mp new
  cases call with
  | createAttempt | createVerificationAttempt =>
    cases added
    exact not_resumed commits spared cancelled rfl
  | _ => cases added

theorem staysCancelled_step (valid : event.Valid settings) (spared : SparesCancelled [] event)
    (booked : Books event.before.db) (before : StaysCancelled jobID earlier event.before.db) :
    StaysCancelled jobID earlier event.after.db := by
  have cancelled := before.job
  obtain ⟨j, found, state⟩ := map_eq_some_iff.mp cancelled
  refine ⟨?_, fun id a here ofJob => ?_, fun charging => ?_⟩
  · have kept := Ev.job_kept valid found
    have same : j.id = jobID := Table.key_of_find? found
    rw [Db.jobState, kept, map_some, Option.some.injEq]
    cases commits : event.commits with
    | none => simpa [Ev.onJob, commits] using state
    | some call =>
      obtain ⟨v, ran⟩ := exec_of_committed valid commits
      have spares := not_resumed commits spared cancelled
      simpa [Ev.onJob, commits] using onJob_cancelled ran state (same.symm ▸ spares)
  · rcases Ev.attempt_origin valid here with ⟨old, was, rfl⟩ | ⟨-, new, -⟩
    · refine before.attempts id old was ?_
      rw [← ofJob]
      cases commits : event.commits with
      | none => simp [Ev.onAttempt, commits]
      | some call =>
        simpa [Ev.onAttempt, commits] using
          (sameLease_onAttempt event.input call old).jobID.symm
    · exact absurd ofJob (no_attempt_of_cancelled spared cancelled new)
  · have accepted := (booked.step valid).charging_iff.mp charging
    rcases (Ev.accepted_after valid).mp accepted with was | ⟨attemptID, now⟩
    · exact before.charge (booked.charging_iff.mpr was)
    · exact absurd now (not_completed_of_cancelled valid spared cancelled attemptID)

end

/-- A cancellation is final in every run in which no call takes up a job that is cancelled. -/
theorem cancellation_is_final {settings : Settings} {catalog : Catalog} {nodes : Table Node.id}
    {ls : Trace} {c : Config steps State}
    (run : (coordinator settings).Run (.boot (boot catalog nodes)) ls c)
    (spared : Along SparesCancelled ls) {event : Ev} (happened : event ∈ events ls)
    {jobID : JobID} (cancels : event.Cancels jobID) :
    StaysCancelled jobID event.after.db c.state.db := by
  refine run.along_invariant (I := fun ls s => ∀ event ∈ events ls, Ev.Cancels event jobID →
    StaysCancelled jobID event.after.db s.db) spared ?_ ?_ ?_ event happened cancels
  · simp [events]
  · intro past mid entry _ ih
    simpa [events] using ih
  · intro past event mid next reached step here ih cancel member cancels
    have valid : Ev.Valid settings event := step.exec
    rw [events_snoc_act, List.mem_append] at member
    rcases member with earlier | now
    · have booked : Books event.before.db := by
        rw [step.start]
        exact books_of_run reached
      exact staysCancelled_step valid here booked (ih cancel earlier cancels)
    · obtain rfl := List.mem_singleton.mp now
      exact ⟨cancels.2.2, fun id a found _ => by simp [found], id⟩

namespace Deployment

def cancelled : List (Choice Input Entry) :=
  connect 0 "n1" ++ request 1 "j" "a" ++ [.spawn (.cancelJob "org" "j0"), .act 2 idle]

def cancelledThenCompleted : List (Choice Input Entry) :=
  cancelled ++ accept 0 "j0" "a0" ++ complete 0 (payload "j0" "a0") "c"

end Deployment

theorem cancellation_is_final_while_offered : ∃ ls c event,
    (coordinator settings).Run (.boot start) ls c ∧
    Along SparesCancelled ls ∧ event ∈ events ls ∧ Ev.Cancels event "j0" ∧
    c.state.db.attemptStatus "a0" = some .offered ∧
    StaysCancelled "j0" event.after.db c.state.db := by
  obtain ⟨ls, c, run, spared, ⟨event, happened, cancels⟩, offered⟩ := run_of_check
    (p := fun ls c => Along SparesCancelled ls ∧ (∃ event ∈ events ls, Ev.Cancels event "j0") ∧
      c.state.db.attemptStatus "a0" = some .offered) cancelled (by decide +kernel)
  exact ⟨ls, c, event, run, spared, happened, cancels, offered,
    cancellation_is_final run spared happened cancels⟩

/-- A job that was cancelled before its node accepted it ends as succeeded and is charged. No
operator has retried it. -/
theorem cancelled_job_charged : ∃ ls c,
    (coordinator settings).Run (.boot start) ls c ∧
    (∃ event ∈ events ls, Ev.Cancels event "j0" ∧ ¬ Charging event.after.db "j0") ∧
    ¬ Happened (fun event => Ev.retries event = some "j0") ls ∧
    c.state.db.jobState "j0" = some .succeeded ∧ Charging c.state.db "j0" :=
  run_of_check cancelledThenCompleted (by decide +kernel)

end Thirdshift
