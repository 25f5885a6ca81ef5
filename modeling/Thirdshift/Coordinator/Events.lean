import Thirdshift.HttpApi.Handlers
import Thirdshift.Jobs.Effects

/-!
# Events of a run

What one event of the coordinator does to the shared state: the database changes only when a call
commits, and then job and attempt rows change as `StoreCall.onJob` and `StoreCall.onAttempt` say;
the memory changes only in a section under the mutex or at a channel.
-/

namespace Thirdshift

open Foundation

abbrev Ev := Event steps State Input

abbrev Trace := List (Label steps State Input Entry)

abbrev Ran (settings : Settings) (s : State) : Trace → Config steps State → Prop :=
  (coordinator settings).Run (.boot s)

abbrev Acts (settings : Settings) (c : Config steps State) (event : Ev) :
    Config steps State → Prop :=
  (coordinator settings).Step c (.act event)

def committed : (op : Op) → op.Resp → Option StoreCall
  | .store _ call, .ok _ => some call
  | _, _ => none

def Ev.commits (event : Ev) : Option StoreCall := committed event.op event.resp

def Ev.completes (event : Ev) : Option (JobID × AttemptID) :=
  event.commits.bind StoreCall.completion

/-- `CompleteJob` has committed for the job and the attempt. -/
def Completed (ls : Trace) (jobID : JobID) (attemptID : AttemptID) : Prop :=
  Happened (fun event => Ev.completes event = some (jobID, attemptID)) ls
  deriving Decidable

def createdJob : (op : Op) → op.Resp → Option JobID
  | .store _ (.createJob ..), .ok jobID => some jobID
  | _, _ => none

def responded : (op : Op) → op.Resp → Option (JobID × OpenAIResponse)
  | .store _ (.completeJob payload ..), .ok response => some (payload.jobID, response)
  | _, _ => none

/-- The job that a call has completed, and the text of its completion. -/
def completedText : (op : Op) → op.Resp → Option (JobID × String)
  | .store _ (.completeJob payload ..), .ok _ =>
    payload.message.map fun message => (payload.jobID, message.content)
  | _, _ => none

def verifying : (op : Op) → op.Resp → Option (JobID × AttemptID)
  | .store _ (.createVerificationAttempt jobID ..), .ok attemptID => some (jobID, attemptID)
  | _, _ => none

theorem committed_eq_some {op : Op} {r : op.Resp} {call : StoreCall}
    (commits : committed op r = some call) : ∃ ctx, op = .store ctx call := by
  cases op with
  | store ctx other =>
    cases r with
    | error e => cases commits
    | ok v =>
      cases commits
      exact ⟨ctx, rfl⟩
  | _ => cases commits

section

variable {settings : Settings} {op : Op} {input : Input} {s s' : State} {r : op.Resp}

variable {call : StoreCall}

theorem run_of_committed (exec : step settings op input s = some (s', r))
    (commits : committed op r = some call) :
    (∃ v, Tx.run schema (call.tx input) s.db = .ok (v, s'.db)) ∧ s'.mem = s.mem := by
  cases op with
  | store ctx other =>
    simp only [step] at exec
    split at exec
    · cases exec
      cases commits
    · split at exec
      next v db ran =>
        cases exec
        cases commits
        exact ⟨⟨v, ran⟩, rfl⟩
      · cases exec
        cases commits
  | _ => cases commits

theorem exec_of_ok {ctx : Ctx} {v : call.Result}
    (exec : step settings (.store ctx call) input s = some (s', .ok v)) :
    Tx.exec schema (call.tx input) s.db = .ok (v, s'.db) := by
  simp only [step] at exec
  split at exec
  · cases exec
  · split at exec
    next ran =>
      cases exec
      exact (Tx.run_ok ran).1
    · cases exec

theorem exec_of_committed (exec : step settings op input s = some (s', r))
    (commits : committed op r = some call) :
    ∃ v, Tx.exec schema (call.tx input) s.db = .ok (v, s'.db) := by
  obtain ⟨⟨v, ran⟩, -⟩ := run_of_committed exec commits
  exact ⟨v, (Tx.run_ok ran).1⟩

theorem db_of_uncommitted (exec : step settings op input s = some (s', r))
    (nothing : committed op r = none) : s'.db = { s.db with catalog := s'.db.catalog } := by
  cases op with
  | store ctx call =>
    simp only [step] at exec
    split at exec
    · cases exec
      rfl
    · split at exec
      next v db ran =>
        cases exec
        cases nothing
      · cases exec
        rfl
  | put | await =>
    simp only [step] at exec
    repeat' split at exec
    all_goals first | (cases exec; rfl) | cases exec
  | _ =>
    simp only [step, Option.some.injEq, Prod.mk.injEq] at exec
    obtain ⟨rfl, -⟩ := exec
    rfl

def Op.onMemory (weights : SchedulerWeights) (input : Input) (m : Memory) : Op → Memory
  | .mem call => (call.run weights m).1
  | .put channel result => { m with channels := m.channels.set channel (some result) }
  | .await channel =>
    if input.resultReady then { m with channels := m.channels.set channel none } else m
  | _ => m

theorem mem_of_step (exec : step settings op input s = some (s', r)) :
    s'.mem = op.onMemory settings.weights input s.mem := by
  cases op with
  | store ctx call =>
    simp only [step] at exec
    repeat' split at exec
    all_goals (cases exec; rfl)
  | put =>
    simp only [step] at exec
    split at exec
    · cases exec
      rfl
    · cases exec
  | await =>
    simp only [step] at exec
    repeat' split at exec
    all_goals cases exec
    all_goals simp_all [Op.onMemory]
  | _ =>
    cases exec
    rfl

end

/-! ### Rows -/

namespace Ev

def Valid (settings : Settings) (event : Ev) : Prop :=
  step settings event.op event.input event.before = some (event.after, event.resp)

def onJob (event : Ev) : Job → Job :=
  match event.commits with
  | some call => call.onJob event.input
  | none => id

def onAttempt (event : Ev) : Attempt → Attempt :=
  match event.commits with
  | some call => call.onAttempt event.input
  | none => id

def newJob (event : Ev) : Option Job := event.commits.bind (StoreCall.newJob event.input)

def newAttempt (event : Ev) : Option Attempt := event.commits.bind (StoreCall.newAttempt event.input)

variable {settings : Settings} {event : Ev}

section

variable (valid : event.Valid settings)
include valid

theorem jobs_after (id : JobID) :
    event.after.db.jobs.find? id = ((event.before.db.jobs.find? id).map event.onJob).or
      (event.newJob.filter fun j => j.id = id) := by
  cases commits : event.commits with
  | none =>
    have same : event.after.db.jobs = event.before.db.jobs := by
      rw [db_of_uncommitted valid commits]
    simp [onJob, newJob, commits, same]
  | some call =>
    obtain ⟨v, ran⟩ := exec_of_committed valid commits
    simpa [onJob, newJob, commits] using StoreCall.jobs_after ran id

theorem attempts_after (id : AttemptID) :
    event.after.db.attempts.find? id = ((event.before.db.attempts.find? id).map event.onAttempt).or
      (event.newAttempt.filter fun a => a.id = id) := by
  cases commits : event.commits with
  | none =>
    have same : event.after.db.attempts = event.before.db.attempts := by
      rw [db_of_uncommitted valid commits]
    simp [onAttempt, newAttempt, commits, same]
  | some call =>
    obtain ⟨v, ran⟩ := exec_of_committed valid commits
    simpa [onAttempt, newAttempt, commits] using StoreCall.attempts_after ran id

theorem mem_after :
    event.after.mem = event.op.onMemory settings.weights event.input event.before.mem :=
  mem_of_step valid

theorem job_kept {id : JobID} {j : Job} (found : event.before.db.jobs.find? id = some j) :
    event.after.db.jobs.find? id = some (event.onJob j) := by
  rw [jobs_after valid, found]
  rfl

theorem attempt_kept {id : AttemptID} {a : Attempt}
    (found : event.before.db.attempts.find? id = some a) :
    event.after.db.attempts.find? id = some (event.onAttempt a) := by
  rw [attempts_after valid, found]
  rfl

theorem attempt_origin {id : AttemptID} {a : Attempt}
    (found : event.after.db.attempts.find? id = some a) :
    (∃ old, event.before.db.attempts.find? id = some old ∧ a = event.onAttempt old) ∨
      event.before.db.attempts.find? id = none ∧ event.newAttempt = some a ∧ a.id = id := by
  rw [attempts_after valid] at found
  cases old : event.before.db.attempts.find? id with
  | some a' =>
    rw [old] at found
    exact .inl ⟨a', rfl, (Option.some.inj found).symm⟩
  | none =>
    rw [old] at found
    obtain ⟨new, here⟩ := Option.filter_eq_some_iff.mp found
    exact .inr ⟨rfl, new, of_decide_eq_true here⟩

/-- What each call keeps of the attempts and gives to those it creates holds of them all. -/
theorem attempts_invariant {P : Attempt → Prop}
    (kept : ∀ call a, P a → P (StoreCall.onAttempt event.input call a))
    (created : ∀ call a, StoreCall.newAttempt event.input call = some a → P a)
    (before : ∀ id a, event.before.db.attempts.find? id = some a → P a) (id : AttemptID)
    (a : Attempt) (found : event.after.db.attempts.find? id = some a) : P a := by
  rcases attempt_origin valid found with ⟨old, was, rfl⟩ | ⟨-, new, -⟩
  · have was := before id old was
    cases commits : event.commits with
    | none => simpa [onAttempt, commits] using was
    | some call => simpa [onAttempt, commits] using kept call old was
  · obtain ⟨call, -, added⟩ := Option.bind_eq_some_iff.mp new
    exact created call a added

end

end Ev

end Thirdshift
