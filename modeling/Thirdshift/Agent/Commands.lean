import Thirdshift.Agent.OneJob
import Thirdshift.Agent.Thermal

/-!
# Host commands during the startup

The control socket is served before `Run` makes its first transition, so a pause or a resume can
come between any two of them. `Run` checks the state it starts from, and the commands force it. A
run is followed by how many transitions `Run` has made: what state the node can be in then, and that
it is paused when a pause was the last command.
-/

namespace Thirdshift

open Foundation Agent NodeProcess AgentOp

variable {ls : AgentTrace} {event : AgentEvent} {opts : AgentOptions} {agent : Agent} {n : Nat}
  {dst : NodeState}

/-! ### The end of the startup -/

def refused : (op : AgentOp) → op.Resp → Bool
  | .transition _, .error _ => true
  | _, _ => false

def AgentOp.isAvailable (op : AgentOp) : Bool := op matches .transition .available

def AgentOp.isPause (op : AgentOp) : Bool := op matches .pause

def AgentOp.isBeginResume (op : AgentOp) : Bool := op matches .beginResume

/-- The goroutine is the one of `Run`, and has not got to its session loop. -/
def startingUp (seen : AgentSeen) : Bool := launched seen && !served seen

/-- A transition of the startup is refused, and `Run` returns the error. -/
def FailsStartup (past : AgentTrace) (event : AgentEvent) : Prop :=
  startingUp (localTrace event.thread past) = true ∧ refused event.op event.resp = true
  deriving Decidable

/-- The startup ends: with its last transition, or with one that is refused. -/
def EndsStartup (past : AgentTrace) (event : AgentEvent) : Prop :=
  startingUp (localTrace event.thread past) = true ∧
    (refused event.op event.resp = true ∨ isAvailable event.op = true)
  deriving Decidable

inductive HostCommand
  | pause | resume
  deriving DecidableEq

def commandAfter (last : Option HostCommand) (event : AgentEvent) : Option HostCommand :=
  match event.op with
  | .pause => some .pause
  | .beginResume => some .resume
  | _ => last

def lastCommand (ls : AgentTrace) : Option HostCommand := (events ls).foldl commandAfter none

/-- After a pause the startup does not end with the node available. -/
def PauseHeeded (past : AgentTrace) (event : AgentEvent) : Prop :=
  EndsStartup past event → lastCommand past = some .pause → event.after.agent.state ≠ .available
  deriving Decidable

/-! ### Conditions -/

def Prepares (event : AgentEvent) : Prop := prepareFailed event.op event.resp = false
  deriving Decidable

/-- What belongs to a session waits for the session loop: the agent starts it from there. -/
def InSession (event : AgentEvent) : Prop :=
  event.before.serving = false → isControl event.op = true
  deriving Decidable

/-- During the startup no pause is accepted, and a resume only once `Run` prepares the model. -/
def CommandsWait (past : AgentTrace) (event : AgentEvent) : Prop :=
  event.before.serving = false → isPause event.op = false ∧
    (isBeginResume event.op = true → ∃ i < (entries past).length,
      launched (localTrace i past) = true ∧ 2 ≤ moves (localTrace i past))

instance (past : AgentTrace) (event : AgentEvent) : Decidable (CommandsWait past event) :=
  inferInstanceAs (Decidable (_ = false → _ = false ∧ (_ = true → ∃ i < _, _ = true ∧ _)))

/-- A pause during the startup comes neither between the first two transitions of `Run` nor between
the two sections of a resume. -/
def PauseTimely (past : AgentTrace) (event : AgentEvent) : Prop :=
  event.before.serving = false → isPause event.op = true →
    ∀ i < (entries past).length, resuming (localTrace i past) = false ∧
      (launched (localTrace i past) = true → moves (localTrace i past) ≠ 1)

instance (past : AgentTrace) (event : AgentEvent) : Decidable (PauseTimely past event) :=
  inferInstanceAs (Decidable (_ = false → _ = true → ∀ i < _, _ = false ∧ (_ = true → _)))

/-! ### Bookkeeping -/

section

variable {i : Nat}

@[simp] theorem lastCommand_snoc_spawn (entry : AgentEntry) :
    lastCommand (ls ++ [.spawn entry]) = lastCommand ls := by
  simp [lastCommand]

@[simp] theorem lastCommand_snoc_act (event : AgentEvent) :
    lastCommand (ls ++ [.act event]) = commandAfter (lastCommand ls) event := by
  simp [lastCommand]

theorem moves_snoc :
    moves (localTrace i (ls ++ [.act event])) = moves (localTrace i ls) +
      if event.thread = i ∧ movedOn ⟨event.op, event.resp⟩ = true then 1 else 0 := by
  rw [localTrace_snoc_act, moves_append]
  by_cases mine : event.thread = i <;> by_cases moved : movedOn ⟨event.op, event.resp⟩ = true <;>
    simp [mine, moves, moved]

theorem launched_snoc :
    launched (localTrace i (ls ++ [.act event])) = (launched (localTrace i ls) ||
      (decide (event.thread = i) && isLaunch event.op)) :=
  any_localTrace_snoc _

theorem served_snoc : served (localTrace i (ls ++ [.act event])) = (served (localTrace i ls) ||
      (decide (event.thread = i) && isServe event.op)) :=
  any_localTrace_snoc _

theorem no_prepareFailed (prepared : ∀ event ∈ events ls, Prepares event) :
    ¬∃ obs ∈ localTrace i ls, prepareFailed obs.op obs.resp = true := by
  rintro ⟨obs, seen, failed⟩
  obtain ⟨event, member, same⟩ := happened_of_seen (S := agentSteps) prepareFailed seen
  have ok : prepareFailed event.op event.resp = false := prepared event member
  rw [ok, failed] at same
  cases same

variable {c : Config agentSteps NodeProcess}

theorem serving_of_served (run : AgentRan opts agent ls c)
    (serves : served (localTrace i ls) = true) : c.state.serving = true := by
  refine run.invariant
    (I := fun ls p => ∀ i, served (localTrace i ls) = true → p.serving = true) ?_ ?_ ?_ i serves
  · intro i serves
    cases serves
  · intro past mid entry _ kept i serves
    rw [localTrace_snoc_spawn] at serves
    exact kept i serves
  · intro past event mid next _ step kept i serves
    rw [(step_startup step.exec).2.1, Bool.or_eq_true]
    rw [served_snoc, Bool.or_eq_true, Bool.and_eq_true] at serves
    rcases serves with old | ⟨-, now⟩
    · exact .inl (kept i old)
    · exact .inr now

theorem not_serving_of_startingUp (idle : agent.activeJobID = none) (run : AgentRan opts agent ls c)
    (starting : startingUp (localTrace i ls) = true) : c.state.serving = false := by
  rw [startingUp, Bool.and_eq_true, Bool.not_eq_true'] at starting
  exact (startup_of_run idle run).not_serving starting.1 starting.2

theorem not_serving_before (exec : event.Valid)
    (down : event.after.serving = false) : event.before.serving = false := by
  rw [(step_startup exec).2.1, Bool.or_eq_false_iff] at down
  exact down.1

section

variable (prepared : ∀ event ∈ events ls, Prepares event)
  (sessions : ∀ event ∈ events ls, InSession event)
include prepared sessions

theorem startup_left {past rest : AgentTrace} (cut : ls = past ++ rest) :
    (∀ event ∈ events past, Prepares event) ∧ ∀ event ∈ events past, InSession event :=
  ⟨fun event member => prepared event (events_left cut member),
    fun event member => sessions event (events_left cut member)⟩

theorem along_startup {P : AgentTrace → AgentEvent → Prop} (along : Along P ls) :
    Along (fun past event => (∀ event ∈ events past, Prepares event) ∧
      InSession event ∧ P past event) ls := by
  intro past event rest cut
  refine ⟨(startup_left prepared sessions cut).1, sessions event ?_, along past event rest cut⟩
  rw [mem_events, cut]
  simp

end

end

/-! ### The state by the transitions made -/

/-- The states a node can be in when `Run` has made so many transitions. -/
def PhaseState : Nat → NodeState → Prop
  | 0, state => state = .offline
  | 1, state => state = .starting
  -- a resume may have got ahead of `Run`
  | 2, state => state = .preparingModel ∨ state = .available
  | 3, state => state = .available
  | _, _ => False

structure InPhase (ls : AgentTrace) (p : NodeProcess) : Prop where
  fresh : (∀ i, launched (localTrace i ls) = false) → p.agent.state = .offline
  phase : ∀ i, launched (localTrace i ls) = true →
    PhaseState (moves (localTrace i ls)) p.agent.state
  resumes : ∀ i, resuming (localTrace i ls) = true →
    ∃ j, launched (localTrace j ls) = true ∧ 2 ≤ moves (localTrace j ls)
  inWindow : p.agent.scheduleState = .inWindow
  normal : p.agent.thermalState = .normal

namespace Agent

variable {a : Agent}

theorem phaseState_beginResume (preparing : 2 ≤ n) (phase : PhaseState n a.state) :
    PhaseState n a.beginResume.1.state := by
  have forced : PhaseState n
      (({ a with pauseRequested := false, pausedAt := none } : Agent).forceState
        .preparingModel).state := by
    match n, preparing with
    | 2, _ =>
      rcases phase with preparing | available
      · simp [PhaseState, forceState, preparing]
      · simp [PhaseState, forceState, available, canTransition, legalTransitions]
    | 3, _ =>
      have available : a.state = .available := phase
      simp [PhaseState, forceState, available, canTransition, legalTransitions]
    | n + 4, _ => exact phase.elim
  unfold beginResume
  simp only
  split
  · exact phase
  · split
    · exact forced
    · exact phase

theorem state_endResume (inWindow : a.scheduleState = .inWindow) (normal : a.thermalState = .normal) :
    a.endResume.state = .available := by
  unfold endResume
  rw [if_neg (by simp [inWindow, normal])]
  exact state_forceState (by decide)

theorem phaseState_available (preparing : 2 ≤ n) (phase : PhaseState n a.state) :
    PhaseState n .available := by
  match n, preparing with
  | 2, _ => exact .inr rfl
  | 3, _ => rfl
  | n + 4, _ => exact phase.elim

theorem scheduleState_forceState (dst : NodeState) :
    (a.forceState dst).scheduleState = a.scheduleState := by
  unfold forceState
  repeat' split
  all_goals rfl

theorem scheduleState_beginResume : a.beginResume.1.scheduleState = a.scheduleState := by
  unfold beginResume
  simp only
  repeat' split
  all_goals simp [scheduleState_forceState]

theorem scheduleState_endResume : a.endResume.scheduleState = a.scheduleState := by
  unfold endResume
  split <;> simp [scheduleState_forceState]

end Agent

section

variable {mid next : Config agentSteps NodeProcess}

theorem InPhase.keep (event : AgentEvent) (inPhase : InPhase ls event.before)
    (still : isLaunch event.op = false ∧ movedOn ⟨event.op, event.resp⟩ = false)
    (resumes : resumesAfter (resuming (localTrace event.thread ls)) ⟨event.op, event.resp⟩ = true →
      ∃ j, launched (localTrace j ls) = true ∧ 2 ≤ moves (localTrace j ls))
    (plain : event.after.agent.scheduleState = event.before.agent.scheduleState ∧
      event.after.agent.thermalState = event.before.agent.thermalState)
    (state : event.after.agent.state = event.before.agent.state ∨
      (∃ i, launched (localTrace i ls) = true) ∧ ∀ i, launched (localTrace i ls) = true →
          PhaseState (moves (localTrace i ls)) event.after.agent.state) :
    InPhase (ls ++ [.act event]) event.after := by
  have launches : ∀ i, launched (localTrace i (ls ++ [.act event])) =
      launched (localTrace i ls) := by
    intro i
    rw [launched_snoc, still.1, Bool.and_false, Bool.or_false]
  have moved : ∀ i, moves (localTrace i (ls ++ [.act event])) = moves (localTrace i ls) := by
    intro i
    rw [moves_snoc, if_neg (by simp [still.2]), Nat.add_zero]
  constructor
  case fresh =>
    intro none
    have none' : ∀ i, launched (localTrace i ls) = false := fun i => launches i ▸ none i
    rcases state with same | ⟨⟨i, some'⟩, -⟩
    · rw [same]
      exact inPhase.fresh none'
    · rw [none' i] at some'
      cases some'
  case phase =>
    intro i launch
    rw [launches] at launch
    rw [moved]
    rcases state with same | ⟨-, phase⟩
    · rw [same]
      exact inPhase.phase i launch
    · exact phase i launch
  case resumes =>
    intro i resuming'
    simp only [launches, moved]
    rw [resuming_snoc] at resuming'
    split at resuming'
    next mine => exact resumes (mine ▸ resuming')
    next => exact inPhase.resumes i resuming'
  case inWindow => exact plain.1.trans inPhase.inWindow
  case normal => exact plain.2.trans inPhase.normal

theorem InPhase.move (startup : Startup ls event.before) (inPhase : InPhase ls event.before)
    (launch : launched (localTrace event.thread ls) = true)
    (still : isLaunch event.op = false) (moved : movedOn ⟨event.op, event.resp⟩ = true)
    (resumes : resumesAfter (resuming (localTrace event.thread ls)) ⟨event.op, event.resp⟩ = false)
    (plain : event.after.agent.scheduleState = event.before.agent.scheduleState ∧
      event.after.agent.thermalState = event.before.agent.thermalState)
    (state : PhaseState (moves (localTrace event.thread ls) + 1) event.after.agent.state) :
    InPhase (ls ++ [.act event]) event.after := by
  have launches : ∀ i, launched (localTrace i (ls ++ [.act event])) =
      launched (localTrace i ls) := by
    intro i
    rw [launched_snoc, still, Bool.and_false, Bool.or_false]
  constructor
  case fresh =>
    intro none
    rw [← launches, none event.thread] at launch
    cases launch
  case phase =>
    intro i launch'
    rw [launches] at launch'
    have only := startup.one _ _ launch launch'
    rw [moves_snoc, if_pos ⟨only, moved⟩, ← only]
    exact state
  case resumes =>
    intro i resuming'
    rw [resuming_snoc] at resuming'
    split at resuming'
    next mine =>
      rw [← mine, resumes] at resuming'
      cases resuming'
    next =>
      obtain ⟨j, launch', two⟩ := inPhase.resumes i resuming'
      refine ⟨j, (launches j).trans launch', ?_⟩
      rw [moves_snoc]
      omega
  case inWindow => exact plain.1.trans inPhase.inWindow
  case normal => exact plain.2.trans inPhase.normal

def AgentOp.isSettled : AgentOp → Bool
  | .serve | .session | .prepare _ | .setRuntime _ => true
  | _ => false

variable {p p' : NodeProcess}

theorem NodeProcess.step_settled {op : AgentOp} {input : AgentInput} {r : op.Resp}
    (stepped : p.step op input = some (p', r)) (settled : op.isSettled = true) :
    p'.agent.state = p.agent.state ∧ p'.agent.scheduleState = p.agent.scheduleState ∧
      p'.agent.thermalState = p.agent.thermalState := by
  cases op <;> simp only [isSettled, Bool.false_eq_true] at settled <;>
    (cases stepped
     exact ⟨rfl, rfl, rfl⟩)

theorem NodeProcess.step_launch (input : AgentInput) {r : Unit}
    (stepped : p.step .launch input = some (p', r)) : p'.agent = p.agent := by
  simp only [NodeProcess.step] at stepped
  split at stepped
  · cases stepped
  · cases stepped
    rfl

theorem NodeProcess.step_transition (input : AgentInput) {r : Except String Unit}
    (stepped : p.step (.transition dst) input = some (p', r)) :
    (canTransition p.agent.state dst = true ∧ r = .ok () ∧
        p'.agent = { p.agent with state := dst }) ∨
      (canTransition p.agent.state dst = false ∧ p' = p ∧ ∃ e, r = .error e) := by
  simp only [NodeProcess.step, Agent.transition] at stepped
  by_cases legal : canTransition p.agent.state dst = true
  · rw [if_pos legal] at stepped
    cases stepped
    exact .inl ⟨legal, rfl, rfl⟩
  · rw [if_neg legal] at stepped
    cases stepped
    exact .inr ⟨by simpa using legal, rfl, _, rfl⟩

theorem canTransition_of_phase {state : NodeState} (phase : PhaseState n state)
    (due : n = 0 ∧ dst = .starting ∨ n = 1 ∧ dst = .preparingModel ∨ n = 2 ∧ dst = .available) :
    canTransition state dst = true ∧ PhaseState (n + 1) dst := by
  rcases due with ⟨rfl, rfl⟩ | ⟨rfl, rfl⟩ | ⟨rfl, rfl⟩
  · have offline : state = .offline := phase
    exact ⟨by rw [offline]; decide, rfl⟩
  · have starting : state = .starting := phase
    exact ⟨by rw [starting]; decide, .inl rfl⟩
  · rcases phase with preparing | available
    · exact ⟨by rw [preparing]; decide, rfl⟩
    · exact ⟨by rw [available]; decide, rfl⟩

section

variable (run : AgentRan opts agent ls mid) (step : AgentActs opts mid event next)
include run step

theorem first_of_launch
    (launch : isLaunch event.op = true) : localTrace event.thread ls = [] := by
  obtain ⟨entry, -, does⟩ := agent_does run step
  obtain ⟨thread, op, input, before, after, resp⟩ := event
  cases op
  case launch =>
    cases entry with
    | run n => exact does
    | resume => exact does.elim
    | pause => cases does
    | readCoordinator n => cases does.1
    | heartbeat => cases does.1
    | monitorJobThermal n => cases does.1
  all_goals cases launch

theorem due_of_transition
    (prepared : ∀ event ∈ events ls, Prepares event) (down : event.before.serving = false)
    (dst : NodeState) (transition : event.op = .transition dst) :
    launched (localTrace event.thread ls) = true ∧
      (moves (localTrace event.thread ls) = 0 ∧ dst = .starting ∨
        moves (localTrace event.thread ls) = 1 ∧ dst = .preparingModel ∨
        moves (localTrace event.thread ls) = 2 ∧ dst = .available) := by
  obtain ⟨entry, -, does⟩ := agent_does run step
  rw [transition] at does
  cases entry with
  | run n =>
    obtain ⟨launch, serves | ⟨-, failed⟩ | ⟨-, first⟩ | ⟨-, second⟩ | ⟨-, third⟩⟩ := does
    · rw [step.start, serving_of_served run serves] at down
      cases down
    · exact (no_prepareFailed prepared failed).elim
    · exact ⟨launch, .inl first⟩
    · exact ⟨launch, .inr (.inl second)⟩
    · exact ⟨launch, .inr (.inr third)⟩
  | resume => exact (no_prepareFailed prepared does).elim
  | pause => cases does
  | readCoordinator n => cases does.1
  | heartbeat => cases does.1
  | monitorJobThermal n => cases does.1

end

theorem InPhase.settled (inPhase : InPhase ls event.before) (exec : event.Valid)
    (settled : isSettled event.op = true)
    (still : isLaunch event.op = false ∧ movedOn ⟨event.op, event.resp⟩ = false)
    (resumes : ∀ resumes, resumesAfter resumes ⟨event.op, event.resp⟩ = resumes) :
    InPhase (ls ++ [.act event]) event.after := by
  obtain ⟨state, plain⟩ := step_settled exec settled
  refine InPhase.keep event inPhase still (fun resuming' => ?_) plain (.inl state)
  rw [resumes] at resuming'
  exact inPhase.resumes event.thread resuming'

theorem InPhase.launch (startup : Startup ls event.before) (inPhase : InPhase ls event.before)
    (unstarted : event.before.started = false) (first : localTrace event.thread ls = [])
    (op : event.op = .launch) (same : event.after.agent = event.before.agent) :
    InPhase (ls ++ [.act event]) event.after := by
  have none' : ∀ i, launched (localTrace i ls) = false := by
    intro i
    by_contra launch
    have started := startup.started i (Bool.not_eq_false _ ▸ launch)
    rw [unstarted] at started
    cases started
  have quiet : ∀ i, resuming (localTrace i ls) = false := by
    intro i
    by_contra resuming'
    obtain ⟨j, launch, -⟩ := inPhase.resumes i (Bool.not_eq_false _ ▸ resuming')
    rw [none' j] at launch
    cases launch
  constructor
  case fresh =>
    rw [same]
    exact fun _ => inPhase.fresh none'
  case phase =>
    intro i launch
    rw [launched_snoc, none' i, Bool.false_or, Bool.and_eq_true, decide_eq_true_eq] at launch
    have still : moves (localTrace i (ls ++ [.act event])) = 0 := by
      obtain ⟨thread, _, input, before, after, resp⟩ := event
      subst op
      rw [moves_snoc, if_neg (by simp [movedOn]), ← launch.1, first]
      rfl
    rw [still, same]
    exact inPhase.fresh none'
  case resumes =>
    intro i resuming'
    have still : resuming (localTrace i (ls ++ [.act event])) = resuming (localTrace i ls) := by
      obtain ⟨thread, _, input, before, after, resp⟩ := event
      subst op
      rw [resuming_snoc]
      exact ite_self _
    rw [still, quiet i] at resuming'
    cases resuming'
  case inWindow =>
    rw [same]
    exact inPhase.inWindow
  case normal =>
    rw [same]
    exact inPhase.normal

theorem InPhase.act (idle : agent.activeJobID = none) (run : AgentRan opts agent ls mid)
    (step : AgentActs opts mid event next)
    (prepared : ∀ event ∈ events ls, Prepares event) (session : InSession event)
    (waits : CommandsWait ls event) (down : event.before.serving = false)
    (inPhase : InPhase ls event.before) : InPhase (ls ++ [.act event]) event.after := by
  have startup : Startup ls event.before := step.start ▸ startup_of_run idle run
  have launches := first_of_launch run step
  have allowed := agent_disciplined run step
  have due := due_of_transition run step prepared down
  have keep := InPhase.keep event inPhase
  have move := InPhase.move startup inPhase
  obtain ⟨-, -, fresh, -⟩ := step_startup step.exec
  have exec := step.exec
  have settled := InPhase.settled inPhase step.exec
  have control := session down
  obtain ⟨unpaused, begun⟩ := waits down
  obtain ⟨thread, op, input, before, after, resp⟩ := event
  change before.step op input = some (after, resp) at exec
  cases op
  case launch =>
    refine InPhase.launch startup inPhase (fresh rfl) (launches rfl) rfl
      (step_launch input exec)
  case transition dst =>
    obtain ⟨launch, due⟩ := due dst rfl
    obtain ⟨legal, state⟩ := canTransition_of_phase (inPhase.phase thread launch) due
    rcases step_transition input exec with ⟨-, ok, moved⟩ | ⟨illegal, -⟩
    · cases ok
      refine move launch rfl rfl rfl ⟨?_, ?_⟩ ?_ <;> rw [show after.agent = _ from moved]
      exact state
    · rw [legal] at illegal
      cases illegal
  case pause => cases unpaused
  case beginResume =>
    obtain ⟨j, -, launch, two⟩ := begun rfl
    cases exec
    refine keep ⟨rfl, rfl⟩ (fun _ => ⟨j, launch, two⟩)
      ⟨scheduleState_beginResume, beginResume_reads.2⟩ (.inr ⟨⟨j, launch⟩, ?_⟩)
    intro i launch'
    obtain rfl := startup.one _ _ launch launch'
    exact phaseState_beginResume two (inPhase.phase _ launch)
  case endResume =>
    obtain ⟨j, launch, two⟩ := inPhase.resumes thread allowed
    cases exec
    refine keep ⟨rfl, rfl⟩ (fun resumes => by cases resumes)
      ⟨scheduleState_endResume, endResume_reads.2⟩ (.inr ⟨⟨j, launch⟩, ?_⟩)
    intro i launch'
    obtain rfl := startup.one _ _ launch launch'
    rw [show before.agent.endResume.state = _ from
      state_endResume inPhase.inWindow inPhase.normal]
    exact phaseState_available two (inPhase.phase _ launch)
  case setRuntime | serve | session | prepare => exact settled rfl ⟨rfl, rfl⟩ fun _ => rfl
  all_goals cases control

theorem inPhase_of_run {c : Config agentSteps NodeProcess} (idle : agent.activeJobID = none)
    (offline : agent.state = .offline)
    (plain : agent.scheduleState = .inWindow ∧ agent.thermalState = .normal)
    (run : AgentRan opts agent ls c)
    (prepared : ∀ event ∈ events ls, Prepares event) (sessions : ∀ event ∈ events ls, InSession event)
    (waits : Along CommandsWait ls) (down : c.state.serving = false) : InPhase ls c.state := by
  have condition : Along (fun past event => (∀ event ∈ events past, Prepares event) ∧
      InSession event ∧ CommandsWait past event) ls := along_startup prepared sessions waits
  refine run.along_invariant (I := fun ls p => p.serving = false → InPhase ls p) condition
    ?_ ?_ ?_ down
  · intro _
    constructor
    case fresh => exact fun _ => offline
    case phase => exact fun _ launch => by cases launch
    case resumes => exact fun _ resuming' => by cases resuming'
    case inWindow => exact plain.1
    case normal => exact plain.2
  · intro past mid entry _ kept down
    obtain ⟨fresh, phase, resumes, inWindow, normal⟩ := kept down
    constructor
    case fresh => simpa using fresh
    case phase => simpa using phase
    case resumes => simpa using resumes
    case inWindow => exact inWindow
    case normal => exact normal
  · intro past event mid next before step here kept down
    have down' := not_serving_before step.exec down
    exact InPhase.act idle before step here.1 here.2.1 here.2.2 down' (kept down')

end

/-! ### A pause that comes last -/

structure PausedLast (ls : AgentTrace) (p : NodeProcess) : Prop where
  paused : p.agent.state = .paused
  quiet : ∀ i, resuming (localTrace i ls) = false
  moved : ∀ i, launched (localTrace i ls) = true → moves (localTrace i ls) ≠ 1

section

variable {mid next : Config agentSteps NodeProcess}

theorem PausedLast.keep (event : AgentEvent) (paused : event.after.agent.state = .paused)
    (quiet : ∀ i, resuming (localTrace i ls) = false)
    (moved : ∀ i, launched (localTrace i ls) = true → moves (localTrace i ls) ≠ 1)
    (resumes : resumesAfter false ⟨event.op, event.resp⟩ = false)
    (still : movedOn ⟨event.op, event.resp⟩ = false)
    (launch : isLaunch event.op = true → localTrace event.thread ls = []) :
    PausedLast (ls ++ [.act event]) event.after := by
  have same : ∀ i, moves (localTrace i (ls ++ [.act event])) = moves (localTrace i ls) := by
    intro i
    rw [moves_snoc, if_neg (by simp [still]), Nat.add_zero]
  constructor
  case paused => exact paused
  case quiet =>
    intro i
    rw [resuming_snoc]
    split
    · rw [quiet i]
      exact resumes
    · exact quiet i
  case moved =>
    intro i launches
    rw [same]
    rw [launched_snoc, Bool.or_eq_true, Bool.and_eq_true, decide_eq_true_eq] at launches
    rcases launches with old | ⟨mine, now⟩
    · exact moved i old
    · rw [← mine, launch now]
      decide

theorem PausedLast.settled (last : PausedLast ls event.before) (exec : event.Valid)
    (settled : isSettled event.op = true) (launch : isLaunch event.op = false)
    (resumes : resumesAfter false ⟨event.op, event.resp⟩ = false)
    (still : movedOn ⟨event.op, event.resp⟩ = false) :
    PausedLast (ls ++ [.act event]) event.after := by
  have state := (step_settled exec settled).1
  refine PausedLast.keep event (state.trans last.paused) last.quiet last.moved resumes still ?_
  intro launches
  rw [launch] at launches
  cases launches

theorem not_canTransition_paused (notOne : n ≠ 1)
    (due : n = 0 ∧ dst = .starting ∨ n = 1 ∧ dst = .preparingModel ∨ n = 2 ∧ dst = .available) :
    canTransition .paused dst = false := by
  rcases due with ⟨-, rfl⟩ | ⟨one, -⟩ | ⟨-, rfl⟩
  · decide
  · exact absurd one notOne
  · decide

theorem PausedLast.act (idle : agent.activeJobID = none) (run : AgentRan opts agent ls mid)
    (step : AgentActs opts mid event next)
    (prepared : ∀ event ∈ events ls, Prepares event) (session : InSession event)
    (timely : PauseTimely ls event) (down : event.before.serving = false)
    (kept : lastCommand ls = some .pause → PausedLast ls event.before)
    (last : lastCommand (ls ++ [.act event]) = some .pause) :
    PausedLast (ls ++ [.act event]) event.after := by
  have startup : Startup ls event.before := step.start ▸ startup_of_run idle run
  have launches := first_of_launch run step
  have allowed := agent_disciplined run step
  have due := due_of_transition run step prepared down
  have keep := @PausedLast.keep ls event
  have settled := fun last => PausedLast.settled (kept last) step.exec
  have exec := step.exec
  have control := session down
  have timely' := timely down
  have noJob := startup.idle down
  rw [lastCommand_snoc_act] at last
  obtain ⟨thread, op, input, before, after, resp⟩ := event
  change before.step op input = some (after, resp) at exec
  cases op
  case launch =>
    obtain ⟨paused, quiet, moved⟩ := kept last
    refine keep ?_ quiet moved rfl rfl launches
    rw [show after.agent = before.agent from step_launch input exec]
    exact paused
  case transition dst =>
    obtain ⟨paused, quiet, moved⟩ := kept last
    obtain ⟨launch, due⟩ := due dst rfl
    have paused' : before.agent.state = .paused := paused
    have illegal := not_canTransition_paused (moved thread launch) due
    rcases step_transition input exec with ⟨legal, -⟩ | ⟨-, same, e, refused'⟩
    · have legal' : canTransition before.agent.state dst = true := legal
      rw [paused', illegal] at legal'
      cases legal'
    · subst refused'
      refine keep ?_ quiet moved rfl rfl fun launch => by cases launch
      rw [show after = before from same]
      exact paused
  case pause =>
    have started : ∀ i, resuming (localTrace i ls) = false ∧
        (launched (localTrace i ls) = true → moves (localTrace i ls) ≠ 1) := by
      intro i
      by_cases inside : i < (entries ls).length
      · exact timely' rfl i inside
      · rw [run.localTrace_unstarted (Nat.le_of_not_lt inside)]
        exact ⟨rfl, fun launch => by cases launch⟩
    refine keep ?_ (fun i => (started i).1) (fun i => (started i).2) rfl rfl fun launch => by
      cases launch
    cases exec
    have idle' : before.agent.activeJobID = none := noJob
    change (before.agent.pause input.now).state = .paused
    rw [Agent.pause, if_neg (by simp [idle'])]
    exact state_forceState (by decide)
  case beginResume => cases last
  case endResume =>
    -- no resume was between its sections when the pause came
    have resumes : resuming (localTrace thread ls) = true := allowed
    rw [(kept last).quiet thread] at resumes
    cases resumes
  case setRuntime | serve | session | prepare => exact settled last rfl rfl rfl rfl
  all_goals cases control

theorem pausedLast_of_run {c : Config agentSteps NodeProcess} (idle : agent.activeJobID = none)
    (run : AgentRan opts agent ls c)
    (prepared : ∀ event ∈ events ls, Prepares event) (sessions : ∀ event ∈ events ls, InSession event)
    (timely : Along PauseTimely ls) (down : c.state.serving = false)
    (last : lastCommand ls = some .pause) : PausedLast ls c.state := by
  have condition : Along (fun past event => (∀ event ∈ events past, Prepares event) ∧
      InSession event ∧ PauseTimely past event) ls := along_startup prepared sessions timely
  refine run.along_invariant
    (I := fun ls p => p.serving = false → lastCommand ls = some .pause → PausedLast ls p)
    condition ?_ ?_ ?_ down last
  · exact fun _ last => by cases last
  · intro past mid entry _ kept down last
    rw [lastCommand_snoc_spawn] at last
    obtain ⟨paused, quiet, moved⟩ := kept down last
    constructor
    case paused => exact paused
    case quiet => simpa using quiet
    case moved => simpa using moved
  · intro past event mid next before step here kept down last
    have down' := not_serving_before step.exec down
    exact PausedLast.act idle before step here.1 here.2.1 here.2.2 down' (kept down') last

end

/-! ### The startup -/

/-- In every interleaving of the host's commands with the startup, where the runtime can be
prepared: if the commands wait, no transition of `Run` is refused, and if a pause is timely and is
the last command, the startup does not end with the node available. -/
theorem startup_survives_commands {given : AgentOptions} {cfg : Option AgentOptions} {agent : Agent}
    (accepted : newAgent given cfg = some agent) {ls : AgentTrace}
    {c : Config agentSteps NodeProcess}
    (run : (agentMachine agent.opts).Run (.boot (bootAgent agent)) ls c)
    (prepared : ∀ event ∈ events ls, Prepares event)
    (sessions : ∀ event ∈ events ls, InSession event) :
    (Along CommandsWait ls → Along (fun past event => ¬FailsStartup past event) ls) ∧
      (Along PauseTimely ls → Along PauseHeeded ls) := by
  obtain ⟨window, -, rfl⟩ := Option.map_eq_some_iff.mp accepted
  constructor
  · rintro waits past event rest cut ⟨starting, refused'⟩
    obtain ⟨mid, next, before, step, -⟩ := run.split cut
    obtain ⟨prepared', sessions'⟩ := startup_left prepared sessions cut
    have down := not_serving_of_startingUp rfl before starting
    have inPhase := inPhase_of_run rfl rfl ⟨rfl, rfl⟩ before prepared' sessions'
      (Along.left (cut ▸ waits)) down
    rw [← step.start] at down inPhase
    have due := due_of_transition before step prepared' down
    have exec := step.exec
    obtain ⟨thread, op, input, start, final, resp⟩ := event
    cases op
    case transition dst =>
      obtain ⟨launch, due⟩ := due dst rfl
      obtain ⟨legal, -⟩ := canTransition_of_phase (inPhase.phase thread launch) due
      rcases step_transition input exec with ⟨-, ok, -⟩ | ⟨illegal, -⟩
      · cases ok
        cases refused'
      · rw [legal] at illegal
        cases illegal
    all_goals cases refused'
  · rintro timely past event rest cut ⟨starting, ends⟩ last
    obtain ⟨mid, next, before, step, -⟩ := run.split cut
    obtain ⟨prepared', sessions'⟩ := startup_left prepared sessions cut
    have down := not_serving_of_startingUp rfl before starting
    have paused := pausedLast_of_run rfl before prepared' sessions'
      (Along.left (cut ▸ timely)) down last
    rw [← step.start] at down paused
    have due := due_of_transition before step prepared' down
    have exec := step.exec
    obtain ⟨thread, op, input, start, final, resp⟩ := event
    cases op
    case transition dst =>
      obtain ⟨launch, due⟩ := due dst rfl
      have paused' : start.agent.state = .paused := paused.paused
      have illegal := not_canTransition_paused (paused.moved thread launch) due
      rcases step_transition input exec with ⟨legal, -⟩ | ⟨-, same, -⟩
      · have legal' : canTransition start.agent.state dst = true := legal
        rw [paused', illegal] at legal'
        cases legal'
      · rw [show final = start from same, paused']
        decide
    all_goals
      rcases ends with refused' | available
      · cases refused'
      · cases available

/-! ### Commands that come too early -/

/-- `Run` takes `n` steps, a command as many as it has, and `Run` the rest. -/
def commandSchedule (n : Nat) (command : AgentEntry) (steps : Nat) (rest : Nat) :
    List (Choice AgentInput AgentEntry) :=
  .spawn (.run 1) :: smoothSteps 0 n "" ++ .spawn command :: smoothSteps 1 steps "" ++
    smoothSteps 0 rest ""

/-- What a check finds of the run of a schedule in which every preparation succeeds and no session
is started before the loop. -/
def startupRun (agent : Agent) (schedule : List (Choice AgentInput AgentEntry))
    (check : AgentTrace × Config agentSteps NodeProcess → Bool) : Bool :=
  ((agentMachine agent.opts).runSchedule schedule (.boot (bootAgent agent))).any
    fun (result : AgentTrace × Config agentSteps NodeProcess) =>
    decide ((∀ event ∈ events result.1, Prepares event) ∧
      ∀ event ∈ events result.1, InSession event) && check result

theorem exists_of_startupRun {schedule : List (Choice AgentInput AgentEntry)}
    {check : AgentTrace × Config agentSteps NodeProcess → Bool}
    (ok : startupRun agent schedule check = true) : ∃ ls c, AgentRan agent.opts agent ls c ∧
      (∀ event ∈ events ls, Prepares event) ∧ (∀ event ∈ events ls, InSession event) ∧
      check (ls, c) = true := by
  obtain ⟨ls, c, run, checked⟩ := Machine.exists_run ok
  rw [Bool.and_eq_true] at checked
  obtain ⟨prepared, sessions⟩ := of_decide_eq_true checked.1
  exact ⟨ls, c, run, prepared, sessions, checked.2⟩

/-- A resume while the model is prepared gets ahead of `Run`, which goes on to serve; after a pause
in the same place the startup ends without the node being available. -/
theorem startup_survives_commands_plain : ∃ agent, newAgent plainOptions none = some agent ∧
    (∃ ls c, (agentMachine agent.opts).Run (.boot (bootAgent agent)) ls c ∧
      lastCommand ls = some .resume ∧ c.state.serving = true ∧
      Along (fun past event => ¬FailsStartup past event) ls) ∧
    (∃ ls c, (agentMachine agent.opts).Run (.boot (bootAgent agent)) ls c ∧
      lastCommand ls = some .pause ∧ ¬Along (fun past event => ¬EndsStartup past event) ls ∧
      Along PauseHeeded ls) := by
  have ran : (newAgent plainOptions none).any (fun agent =>
      startupRun agent (commandSchedule 3 .resume 4 4) (fun result =>
        decide (Along CommandsWait result.1 ∧ lastCommand result.1 = some .resume ∧
          result.2.state.serving = true)) &&
      startupRun agent (commandSchedule 3 .pause 1 3) (fun result =>
        decide (Along PauseTimely result.1 ∧ lastCommand result.1 = some .pause ∧
          ¬Along (fun past event => ¬EndsStartup past event) result.1))) = true := by
    decide +kernel
  obtain ⟨agent, ok, ran⟩ := (Option.any_eq_true _ _).mp ran
  rw [Bool.and_eq_true] at ran
  refine ⟨agent, ok, ?_, ?_⟩
  · obtain ⟨ls, c, run, prepared, sessions, checked⟩ := exists_of_startupRun ran.1
    obtain ⟨waits, last, serving⟩ := of_decide_eq_true checked
    exact ⟨ls, c, run, last, serving, (startup_survives_commands ok run prepared sessions).1 waits⟩
  · obtain ⟨ls, c, run, prepared, sessions, checked⟩ := exists_of_startupRun ran.2
    obtain ⟨timely, last, ends⟩ := of_decide_eq_true checked
    exact ⟨ls, c, run, last, ends, (startup_survives_commands ok run prepared sessions).2 timely⟩

/-- A pause after the model is prepared makes `Run` return an error, and one between its first two
transitions is forgotten. -/
theorem pause_breaks_startup : ∃ agent, newAgent plainOptions none = some agent ∧
    (∃ ls c, (agentMachine agent.opts).Run (.boot (bootAgent agent)) ls c ∧
      (∀ event ∈ events ls, Prepares event) ∧ (∀ event ∈ events ls, InSession event) ∧
      ¬Along (fun past event => ¬FailsStartup past event) ls) ∧
    (∃ ls c, (agentMachine agent.opts).Run (.boot (bootAgent agent)) ls c ∧
      (∀ event ∈ events ls, Prepares event) ∧ (∀ event ∈ events ls, InSession event) ∧
      ¬Along PauseHeeded ls) := by
  have ran : (newAgent plainOptions none).any (fun agent =>
      startupRun agent (commandSchedule 4 .pause 1 2) (fun result =>
        decide (¬Along (fun past event => ¬FailsStartup past event) result.1)) &&
      startupRun agent (commandSchedule 2 .pause 1 4) (fun result =>
        decide (¬Along PauseHeeded result.1))) = true := by decide +kernel
  obtain ⟨agent, ok, ran⟩ := (Option.any_eq_true _ _).mp ran
  rw [Bool.and_eq_true] at ran
  refine ⟨agent, ok, ?_, ?_⟩
  · obtain ⟨ls, c, run, prepared, sessions, checked⟩ := exists_of_startupRun ran.1
    exact ⟨ls, c, run, prepared, sessions, of_decide_eq_true checked⟩
  · obtain ⟨ls, c, run, prepared, sessions, checked⟩ := exists_of_startupRun ran.2
    exact ⟨ls, c, run, prepared, sessions, of_decide_eq_true checked⟩

end Thirdshift
