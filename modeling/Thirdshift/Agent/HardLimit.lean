import Thirdshift.Agent.OneJob
import Thirdshift.Agent.Thermal

/-!
# The hard thermal limit and the job at hand

At the hard limit the guards call the cancel function that the agent holds. It belongs to the
goroutine that installed it last, in a later section than the claim, and two cases of a requested
pause come first. What the guards stop depends on who holds the function, and on what was requested
before.
-/

namespace Thirdshift

open Foundation Agent AgentEvent Machine

/-! ### Cancelling -/

/-- The case of the switch of `evaluateGuards` that calls the cancel function, if there is one. The
cases of a requested pause come before it. -/
def Agent.cancelsJob (a : Agent) : Bool :=
  !a.pauseRequested && a.thermalState = .hardLimit && a.activeJobCancel

def AgentEvent.callsCancel (event : AgentEvent) : Bool :=
  match event.op with
  | .evaluateGuards gpu => (event.before.agent.observed gpu event.input.minuteOfDay).cancelsJob
  | _ => false

/-- The goroutine whose cancel function the agent holds, after one more step. -/
def holderAfter (holder : Option Nat) (event : AgentEvent) : Option Nat :=
  match event.op with
  | .setActiveJobCancel true => some event.thread
  | .setActiveJobCancel false => none
  | .releaseJob => none
  | _ => holder

def cancelHolder (ls : AgentTrace) : Option Nat := (events ls).foldl holderAfter none

/-- The step cancels the context of the job that goroutine `i` works on. -/
def CancelsJobOf (i : Nat) (past : AgentTrace) (event : AgentEvent) : Prop :=
  callsCancel event = true ∧ cancelHolder past = some i
  deriving Decidable

/-! ### The request to the runtime -/

/-- Whether the request of the current job is started, after one more call of its goroutine. -/
def requestsAfter (requested : Bool) : Obs agentSteps → Bool
  | ⟨.claimJob _, .ok _⟩ => false
  | ⟨.complete _, _⟩ => true
  | _ => requested

/-- The goroutine has started the runtime request of the job that it claimed last. -/
def requested (seen : AgentSeen) : Bool := seen.foldl requestsAfter false

def AgentOp.isRelease (op : AgentOp) : Bool := op matches .releaseJob

/-- The runtime request of the job that goroutine `i` has after `past` is started: by then, or in
`rest` before the job is released. -/
def RuntimeRequested (i : Nat) (past rest : AgentTrace) : Prop :=
  ∃ n < rest.length + 1,
    (∀ event ∈ events (rest.take n), event.thread = i → AgentOp.isRelease event.op = false) ∧
      requested (localTrace i (past ++ rest.take n)) = true

instance (i : Nat) (past rest : AgentTrace) : Decidable (RuntimeRequested i past rest) :=
  inferInstanceAs (Decidable (∃ n < rest.length + 1, _ ∧ _))

def AgentOp.isGuards (op : AgentOp) : Bool := op matches .evaluateGuards _

/-- Guards that find the hard limit while goroutine `i` works on a job cancel that job, or its
request to the runtime is never started. -/
def StopsJob (i : Nat) (past : AgentTrace) (event : AgentEvent) (rest : AgentTrace) : Prop :=
  AgentOp.isGuards event.op = true → event.after.agent.thermalState = .hardLimit →
    working (localTrace i past) = true →
    CancelsJobOf i past event ∨ ¬RuntimeRequested i past (.act event :: rest)
  deriving Decidable

def armsAfter (arms : Bool) : Obs agentSteps → Bool
  | ⟨.setActiveJobCancel registered, _⟩ => registered
  | ⟨.releaseJob, _⟩ => false
  | _ => arms

/-- The goroutine has installed the cancel function of its job and not removed it. -/
def armed (seen : AgentSeen) : Bool := seen.foldl armsAfter false

@[simp] theorem armed_append (seen more : AgentSeen) :
    armed (seen ++ more) = more.foldl armsAfter (armed seen) := by
  simp [armed]

/-! ### Sections -/

namespace Agent

variable {a : Agent}

@[simp] theorem activeJobCancel_forceState (dst : NodeState) :
    (a.forceState dst).activeJobCancel = a.activeJobCancel := by
  unfold forceState
  repeat' split
  all_goals rfl

theorem activeJobCancel_guarded : a.guarded.activeJobCancel = a.activeJobCancel := by
  unfold guarded standDown
  simp only
  repeat' split
  all_goals simp

theorem activeJobCancel_evaluateGuards (gpu : GPUStatus) (now : Time) (minuteOfDay : Nat) :
    (a.evaluateGuards gpu now minuteOfDay).1.activeJobCancel = a.activeJobCancel := by
  have guards : (a.observed gpu minuteOfDay).guarded.activeJobCancel = a.activeJobCancel :=
    activeJobCancel_guarded
  unfold evaluateGuards idledOut
  simp only
  repeat' split
  all_goals exact guards

theorem activeJobCancel_releaseJob (now : Time) : (a.releaseJob now).activeJobCancel = false := by
  unfold releaseJob
  simp only
  repeat' split
  all_goals simp

theorem activeJobCancel_pause (now : Time) : (a.pause now).activeJobCancel = a.activeJobCancel := by
  unfold pause
  split <;> simp

theorem activeJobCancel_beginResume : a.beginResume.1.activeJobCancel = a.activeJobCancel := by
  unfold beginResume
  simp only
  repeat' split
  all_goals simp

theorem activeJobCancel_endResume : a.endResume.activeJobCancel = a.activeJobCancel := by
  unfold endResume
  split <;> simp

theorem activeJobCancel_transition {dst : NodeState} {moved : Agent}
    (ok : a.transition dst = .ok moved) : moved.activeJobCancel = a.activeJobCancel := by
  unfold transition at ok
  split at ok <;> cases ok
  rfl

theorem activeJobCancel_claimJob {offer : JobOfferPayload} {moved : Agent} {status : RuntimeStatus}
    (ok : a.claimJob offer = .ok (moved, status)) : moved.activeJobCancel = a.activeJobCancel := by
  unfold claimJob at ok
  repeat' split at ok
  all_goals cases ok
  rfl

end Agent

def AgentOp.cancelAfter (op : AgentOp) (held : Bool) : Bool :=
  match op with
  | .setActiveJobCancel registered => registered
  | .releaseJob => false
  | _ => held

theorem NodeProcess.step_cancel {op : AgentOp} {input : AgentInput} {p p' : NodeProcess}
    {r : op.Resp} (stepped : p.step op input = some (p', r)) :
    p'.agent.activeJobCancel = op.cancelAfter p.agent.activeJobCancel := by
  cases op <;> simp only [NodeProcess.step] at stepped
  case transition dst =>
    split at stepped
    next moved ok =>
      cases stepped
      exact activeJobCancel_transition ok
    next => cases stepped; rfl
  case claimJob offer =>
    split at stepped
    next moved status ok =>
      cases stepped
      exact activeJobCancel_claimJob ok
    next => cases stepped; rfl
  case launch | readOffer =>
    split at stepped <;> cases stepped
    rfl
  all_goals cases stepped
  case evaluateGuards gpu => exact activeJobCancel_evaluateGuards gpu _ _
  case releaseJob => exact activeJobCancel_releaseJob _
  case pause => exact activeJobCancel_pause _
  case beginResume => exact activeJobCancel_beginResume
  case endResume => exact activeJobCancel_endResume
  case hardLimited => exact activeJobCancel_forceState _
  all_goals rfl

/-! ### Runs -/

section

variable {opts : AgentOptions} {agent : Agent} {ls : AgentTrace} {p : NodeProcess}
  {event : AgentEvent} {i : Nat} {mid next : Config agentSteps NodeProcess}

@[simp] theorem cancelHolder_snoc_spawn (entry : AgentEntry) :
    cancelHolder (ls ++ [.spawn entry]) = cancelHolder ls := by
  simp [cancelHolder]

@[simp] theorem cancelHolder_snoc_act (event : AgentEvent) :
    cancelHolder (ls ++ [.act event]) = holderAfter (cancelHolder ls) event := by
  simp [cancelHolder]

theorem armed_snoc :
    armed (localTrace i (ls ++ [.act event])) =
      if event.thread = i then armsAfter (armed (localTrace i ls)) ⟨event.op, event.resp⟩
      else armed (localTrace i ls) := by
  rw [localTrace_snoc_act]
  split <;> simp

/-- A goroutine that has installed its cancel function works on a job, and the agent holds that
very function. -/
def Holding (ls : AgentTrace) (p : NodeProcess) : Prop :=
  ∀ i, armed (localTrace i ls) = true →
    working (localTrace i ls) = true ∧ p.agent.activeJobCancel = true ∧ cancelHolder ls = some i

theorem Holding.of_same (holding : Holding ls event.before)
    (arms : ∀ arms, armsAfter arms ⟨event.op, event.resp⟩ = arms)
    (works : working (localTrace event.thread ls) = true →
      worksAfter (working (localTrace event.thread ls)) ⟨event.op, event.resp⟩ = true)
    (same : event.after.agent.activeJobCancel = event.before.agent.activeJobCancel)
    (holder : ∀ holder, holderAfter holder event = holder) :
    Holding (ls ++ [.act event]) event.after := by
  intro i arm
  rw [armed_snoc, arms, ite_self] at arm
  obtain ⟨works', held, holds⟩ := holding i arm
  refine ⟨?_, same.trans held, ?_⟩
  · rw [working_snoc]
    split
    next mine =>
      rw [← mine] at works' ⊢
      exact works works'
    next => exact works'
  · rw [cancelHolder_snoc_act, holder, holds]

theorem Holding.of_only (job : OneJob ls event.before) (holding : Holding ls event.before)
    (works : working (localTrace event.thread ls) = true)
    (mine : armed (localTrace event.thread (ls ++ [.act event])) = true →
      working (localTrace event.thread (ls ++ [.act event])) = true ∧
        event.after.agent.activeJobCancel = true ∧
        cancelHolder (ls ++ [.act event]) = some event.thread) :
    Holding (ls ++ [.act event]) event.after := by
  intro i arm
  by_cases here : event.thread = i
  · exact here ▸ mine (here ▸ arm)
  · rw [armed_snoc, if_neg here] at arm
    exact absurd (job.one _ _ works (holding i arm).1) here

theorem Holding.act (run : AgentRan opts agent ls mid)
    (step : AgentActs opts mid event next) (job : OneJob ls event.before)
    (holding : Holding ls event.before) : Holding (ls ++ [.act event]) event.after := by
  have allowed := agent_disciplined run step
  have does := agent_does run step
  have only := Holding.of_only job holding
  have same := Holding.of_same holding
  have held := NodeProcess.step_cancel step.exec
  obtain ⟨thread, op, input, before, after, resp⟩ := event
  cases op
  case setActiveJobCancel registered =>
    -- only a reader installs a function, and only for the job it works on
    have works : working (localTrace thread ls) = true := by
      obtain ⟨entry, -, does⟩ := does
      cases entry with
      | readCoordinator n => exact does.2 registered rfl
      | run n => exact does.elim
      | resume => exact does.elim
      | pause => cases does
      | heartbeat => exact absurd rfl (does.2 registered)
      | monitorJobThermal n => exact absurd rfl (does.2 registered)
    refine only works fun arm => ?_
    rw [armed_snoc, if_pos rfl] at arm
    have on : registered = true := arm
    subst on
    refine ⟨?_, held, ?_⟩
    · rw [working_snoc, if_pos rfl]
      exact works
    · rw [cancelHolder_snoc_act]
      rfl
  case releaseJob =>
    refine only allowed fun arm => ?_
    rw [armed_snoc, if_pos rfl] at arm
    cases arm
  case claimJob offer =>
    cases resp with
    | ok status => exact same (fun _ => rfl) (fun _ => rfl) held fun _ => rfl
    | error e => exact same (fun _ => rfl) (fun works => works) held fun _ => rfl
  all_goals exact same (fun _ => rfl) (fun works => works) held fun _ => rfl

theorem holding_of_run {c : Config agentSteps NodeProcess} (idle : agent.activeJobID = none)
    (run : AgentRan opts agent ls c) (up : ∀ event ∈ events ls, shutsDown event = false)
    (undisturbed : Along ClaimsUndisturbed ls) : Holding ls c.state := by
  have oneJob : Along (fun past event => OneJob past event.before) ls := by
    intro past event rest cut
    obtain ⟨mid, next, before, step, -⟩ := run.split cut
    rw [step.start]
    exact oneJob_of_run idle before (fun e member => up e (events_left cut member))
      (Along.left (cut ▸ undisturbed))
  refine run.along_invariant (I := Holding) oneJob ?_ ?_ ?_
  · intro i arm
    cases arm
  · intro past mid entry _ holding i arm
    rw [localTrace_snoc_spawn] at arm ⊢
    rw [cancelHolder_snoc_spawn]
    exact holding i arm
  · exact fun past event mid next before step job holding => Holding.act before step job holding

end

/-- In every interleaving of an agent's sections in which no job is claimed between the two
sections of a resume, guards that find the hard limit stop the job at hand, if no pause is requested
then and a job whose request is started has its cancel function installed by then. -/
theorem hard_limit_stops_job {given : AgentOptions} {cfg : Option AgentOptions} {agent : Agent}
    (accepted : newAgent given cfg = some agent) {ls : AgentTrace}
    {c : Config agentSteps NodeProcess}
    (run : (agentMachine agent.opts).Run (.boot (bootAgent agent)) ls c)
    (up : ∀ event ∈ events ls, shutsDown event = false)
    (undisturbed : Along ClaimsUndisturbed ls) {past rest : AgentTrace} {event : AgentEvent}
    (cut : ls = past ++ .act event :: rest)
    (unpaused : event.before.agent.pauseRequested = false) {i : Nat}
    (installed : RuntimeRequested i past (.act event :: rest) → armed (localTrace i past) = true) :
    StopsJob i past event rest := by
  intro guards hot works
  by_cases starts : RuntimeRequested i past (.act event :: rest)
  · left
    have idle : agent.activeJobID = none := by
      obtain ⟨window, -, rfl⟩ := Option.map_eq_some_iff.mp accepted
      rfl
    obtain ⟨mid, next, before, step, -⟩ := run.split cut
    have earlier : ∀ event ∈ events past, shutsDown event = false :=
      fun e member => up e (events_left cut member)
    have holding : Holding past event.before := by
      rw [step.start]
      exact holding_of_run idle before earlier (Along.left (cut ▸ undisturbed))
    obtain ⟨-, held, holds⟩ := holding i (installed starts)
    refine ⟨?_, holds⟩
    have moved := (NodeProcess.step_reads step.exec).2
    obtain ⟨thread, op, input, start, final, resp⟩ := event
    cases op
    case evaluateGuards gpu =>
      -- the guards read the hard limit into the state that their switch looks at
      have limit : start.agent.nextThermalState gpu.temperatureC = .hardLimit := moved.symm.trans hot
      have unpaused' : start.agent.pauseRequested = false := unpaused
      have held' : start.agent.activeJobCancel = true := held
      simp [callsCancel, Agent.cancelsJob, Agent.observed, unpaused', held', limit]
    all_goals cases guards
  · exact .inr starts

/-! ### Runs that are not stopped -/

/-- A started node whose reader, the second goroutine, takes `n` steps on an offer. -/
def offerSchedule (n : Nat) : List (Choice AgentInput AgentEntry) :=
  startupSchedule ++ .spawn (.readCoordinator 1) :: smoothSteps 1 n "job_a"

def hotHeartbeat (thread : Nat) : List (Choice AgentInput AgentEntry) :=
  .spawn .heartbeat :: List.replicate 3 (.act thread (.telemetryRead (some ⟨90, 0⟩)))

/-- A job whose cancel function is installed is stopped before its request is answered. -/
theorem hard_limit_stops_job_plain : ∃ agent, newAgent plainOptions none = some agent ∧
    ∃ ls c, (agentMachine agent.opts).Run (.boot (bootAgent agent)) ls c ∧
      (∀ event ∈ events ls, shutsDown event = false) ∧ Along ClaimsUndisturbed ls ∧
      ∃ past event rest, ls = past ++ .act event :: rest ∧
        event.after.agent.thermalState = .hardLimit ∧ working (localTrace 1 past) = true ∧
        RuntimeRequested 1 past (.act event :: rest) ∧ StopsJob 1 past event rest := by
  obtain ⟨agent, ok, ls, c, run, up, undisturbed, stops⟩ := plain_run
    (p := fun ls _ => (∀ event ∈ events ls, shutsDown event = false) ∧
      Along ClaimsUndisturbed ls ∧ cutAt 20 (fun past event rest =>
        decide (event.before.agent.pauseRequested = false ∧
          event.after.agent.thermalState = .hardLimit ∧
          working (localTrace 1 past) = true ∧ RuntimeRequested 1 past (.act event :: rest) ∧
          armed (localTrace 1 past) = true)) ls = true)
    (offerSchedule 8 ++ hotHeartbeat 2 ++ smoothSteps 1 2 "job_a") (by decide +kernel)
  obtain ⟨past, event, rest, cut, found⟩ := exists_cut stops
  obtain ⟨unpaused, hot, works, starts, arm⟩ := of_decide_eq_true found
  exact ⟨agent, ok, ls, c, run, up, undisturbed, past, event, rest, cut, hot, works, starts,
    hard_limit_stops_job ok run up undisturbed cut unpaused fun _ => arm⟩

/-- Whether the event at place `n` of the run of a schedule leaves the job of the second goroutine
running, with or without a pause requested. -/
def leavesJob (agent : Agent) (schedule : List (Choice AgentInput AgentEntry)) (n : Nat)
    (paused : Bool) : Bool :=
  ((agentMachine agent.opts).runSchedule schedule (.boot (bootAgent agent))).any fun result =>
    cutAt n (fun past event rest =>
      decide (event.before.agent.pauseRequested = paused ∧ ¬StopsJob 1 past event rest)) result.1

theorem exists_of_leavesJob {agent : Agent} {schedule : List (Choice AgentInput AgentEntry)}
    {n : Nat} {paused : Bool} (leaves : leavesJob agent schedule n paused = true) :
    ∃ ls c, AgentRan agent.opts agent ls c ∧ ∃ past event rest, ls = past ++ .act event :: rest ∧
        event.before.agent.pauseRequested = paused ∧ ¬StopsJob 1 past event rest := by
  obtain ⟨ls, c, run, checked⟩ := exists_run leaves
  obtain ⟨past, event, rest, cut, found⟩ := exists_cut checked
  exact ⟨ls, c, run, past, event, rest, cut, of_decide_eq_true found⟩

/-- A job goes on at the hard limit when a pause was requested while it runs, and also without a
pause when the guards are evaluated between its claim and the installation of its function. -/
theorem hard_limit_leaves_job : ∃ agent, newAgent plainOptions none = some agent ∧
    ∀ paused, ∃ ls c, (agentMachine agent.opts).Run (.boot (bootAgent agent)) ls c ∧
      ∃ past event rest, ls = past ++ .act event :: rest ∧
        event.before.agent.pauseRequested = paused ∧ ¬StopsJob 1 past event rest := by
  have ran : (newAgent plainOptions none).any (fun agent =>
      leavesJob agent (offerSchedule 8 ++ [.spawn .pause] ++ smoothSteps 2 1 "" ++
        hotHeartbeat 3 ++ smoothSteps 1 2 "job_a") 22 true &&
      leavesJob agent (offerSchedule 3 ++ hotHeartbeat 2 ++ smoothSteps 1 7 "job_a") 15 false) =
        true := by decide +kernel
  obtain ⟨agent, ok, ran⟩ := (Option.any_eq_true _ _).mp ran
  rw [Bool.and_eq_true] at ran
  refine ⟨agent, ok, fun paused => ?_⟩
  cases paused with
  | true => exact exists_of_leavesJob ran.1
  | false => exact exists_of_leavesJob ran.2

end Thirdshift
