import Thirdshift.Agent.HardLimit

/-!
# Legal transitions

The agent changes its state through `transition`, which looks at the table, and through
`forceState`, which enters four of the states whatever the table says. So a section leaves the table
exactly when it asks for one of the four and the table does not list it. That is the ordinary course
where an available node becomes idle and an idle one available.
-/

namespace Thirdshift

open Foundation

def drainable : List NodeState :=
  [.starting, .benchmarking, .idle, .preparingModel, .available, .busy, .draining, .paused]

def idleable : List NodeState := [.starting, .benchmarking, .idle, .paused]

def offerable : List NodeState := [.preparingModel, .available, .busy, .draining]

namespace Agent

variable (a : Agent)

/-- A pause drains a node at work and pauses any other. -/
def pauseStrays : Bool :=
  a.state ∉ drainable || a.activeJobID = none && a.state = .busy

def blocked : Bool := a.scheduleState = .outOfWindow ∨ a.thermalState ≠ .normal

/-- The switch of `evaluateGuards` leaves the table. -/
def guardsStray : Bool :=
  if a.pauseRequested then a.pauseStrays
  else if a.thermalState ≠ .normal then
    if a.activeJobID.isSome then a.state ∉ drainable
    else a.state ∈ [.available, .preparingModel, .draining]
  else a.activeJobID = none &&
    if a.scheduleState = .outOfWindow then a.state ∈ [.available, .preparingModel]
    else a.state = .idle && a.runtimeReady

def releaseStrays : Bool :=
  if a.pauseRequested then a.state ∉ drainable || a.state = .busy
  else a.blocked && a.state ∉ idleable

def resumeStrays : Bool := a.state ∉ if a.blocked then idleable else offerable

variable {a}

section

variable (s : NodeState)
include s

theorem canTransition_draining : canTransition s .draining = decide (s ∈ drainable) := by
  cases s <;> rfl

theorem canTransition_paused :
    canTransition s .paused = (decide (s ∈ drainable) && decide (s ≠ .busy)) := by
  cases s <;> rfl

theorem canTransition_idle : canTransition s .idle = decide (s ∈ idleable) := by
  cases s <;> rfl

theorem canTransition_available : canTransition s .available = decide (s ∈ offerable) := by
  cases s <;> rfl

theorem canTransition_self : canTransition s s = true := by
  simp [canTransition]

end

theorem canTransition_standDown : canTransition a.state a.standDown.state =
    if a.activeJobID.isSome then decide (a.state ∈ drainable)
    else decide (a.state ∉ [.available, .preparingModel, .draining]) := by
  unfold standDown
  cases active : a.activeJobID with
  | some job => simp [state_forceState, canTransition_draining]
  | none => cases here : a.state <;> simp [state_forceState, here] <;> rfl

theorem canTransition_guarded : canTransition a.state a.guarded.state = !a.guardsStray := by
  unfold guarded guardsStray pauseStrays
  cases pausing : a.pauseRequested with
  | true =>
    cases active : a.activeJobID <;>
      simp [state_forceState, canTransition_draining, canTransition_paused]
  | false =>
    cases thermal : a.thermalState with
    | warm | hardLimit =>
      cases active : a.activeJobID <;> simp [canTransition_standDown, active]
    | normal =>
      cases active : a.activeJobID with
      | some job => simp [canTransition_self]
      | none =>
        -- what remains depends on the schedule, on the runtime and on the state alone
        cases schedule : a.scheduleState <;> cases ready : a.runtimeReady <;>
          cases here : a.state <;> simp [state_forceState, here] <;> rfl

theorem canTransition_releaseJob (now : Time) :
    canTransition a.state (a.releaseJob now).state = !a.releaseStrays := by
  unfold releaseJob releaseStrays blocked
  cases pausing : a.pauseRequested with
  | true => simp [state_forceState, canTransition_paused]
  | false =>
    by_cases out : a.scheduleState = .outOfWindow ∨ a.thermalState ≠ .normal
    · simp only [out, if_true, decide_true, Bool.false_eq_true, if_false]
      simp [state_forceState, canTransition_idle]
    · simp only [out, if_false, decide_false, Bool.false_eq_true]
      cases here : a.state <;> simp [state_forceState] <;> rfl

theorem canTransition_pause (now : Time) :
    canTransition a.state (a.pause now).state = !a.pauseStrays := by
  unfold pause pauseStrays
  cases active : a.activeJobID with
  | some job => simp [state_forceState, canTransition_draining]
  | none => simp [state_forceState, canTransition_paused]

theorem canTransition_endResume : canTransition a.state a.endResume.state = !a.resumeStrays := by
  unfold endResume resumeStrays blocked
  by_cases out : a.scheduleState = .outOfWindow ∨ a.thermalState ≠ .normal
  · simp only [out, if_true, decide_true]
    simp [state_forceState, canTransition_idle]
  · simp only [out, if_false, decide_false, Bool.false_eq_true]
    simp [state_forceState, canTransition_available]

theorem canTransition_beginResume : canTransition a.state a.beginResume.1.state = true := by
  unfold beginResume
  cases active : a.activeJobID.isSome with
  | true => exact canTransition_self _
  | false =>
    simp only [forceState]
    repeat' split
    all_goals simp_all [canTransition_self]

theorem canTransition_transition {dst : NodeState} {a' : Agent} (ok : a.transition dst = .ok a') :
    canTransition a.state a'.state = true := by
  unfold transition at ok
  split at ok
  next legal => cases ok; exact legal
  next => cases ok

theorem canTransition_evaluateGuards (gpu : GPUStatus) (now : Time) (minuteOfDay : Nat) :
    canTransition a.state (a.evaluateGuards gpu now minuteOfDay).1.state =
      !(a.observed gpu minuteOfDay).guardsStray := by
  have kept (b : Agent) : (b.idledOut now).state = b.state := by
    unfold idledOut
    split <;> rfl
  have same : (a.evaluateGuards gpu now minuteOfDay).1.state =
      (a.observed gpu minuteOfDay).guarded.state := by
    unfold evaluateGuards
    dsimp only
    split <;> exact kept _
  rw [same]
  exact canTransition_guarded (a := a.observed gpu minuteOfDay)

end Agent

/-- The section asks for a state that it enters although the table does not list it. -/
def AgentEvent.strays (event : AgentEvent) : Bool :=
  let a := event.before.agent
  match event.op with
  | .evaluateGuards gpu => (a.observed gpu event.input.minuteOfDay).guardsStray
  | .releaseJob => a.releaseStrays
  | .hardLimited _ => a.state ∉ drainable
  | .pause => a.pauseStrays
  | .endResume => a.resumeStrays
  | _ => false

open Agent in
theorem NodeProcess.step_legal {event : AgentEvent}
    (stepped : event.before.step event.op event.input = some (event.after, event.resp)) :
    canTransition event.before.agent.state event.after.agent.state = !event.strays := by
  obtain ⟨thread, op, input, p, p', resp⟩ := event
  cases op <;> simp only [NodeProcess.step] at stepped
  case transition dst =>
    split at stepped
    next ok => cases stepped; exact canTransition_transition ok
    next => cases stepped; exact canTransition_self _
  case claimJob offer =>
    split at stepped
    next ok =>
      cases stepped
      obtain ⟨available, busy, -⟩ := claimJob_ok ok
      rw [available, busy]
      rfl
    next => cases stepped; exact canTransition_self _
  case launch | readOffer =>
    split at stepped <;> cases stepped
    exact canTransition_self _
  case evaluateGuards gpu => cases stepped; exact canTransition_evaluateGuards gpu _ _
  case releaseJob => cases stepped; exact canTransition_releaseJob _
  case pause => cases stepped; exact canTransition_pause _
  case beginResume => cases stepped; exact canTransition_beginResume
  case endResume => cases stepped; exact canTransition_endResume
  case hardLimited =>
    cases stepped
    simp [hardLimited, AgentEvent.strays, state_forceState, canTransition_draining]
  all_goals
    obtain ⟨rfl, -⟩ := Prod.mk.inj (Option.some.inj stepped)
    exact canTransition_self _

/-- In every run of an agent the sections that keep to the table are those that do not stray. -/
theorem legal_transitions_iff {agent : Agent} {ls : AgentTrace} {c : Config agentSteps NodeProcess}
    (run : (agentMachine agent.opts).Run (.boot (bootAgent agent)) ls c) :
    ∀ event ∈ events ls,
      canTransition event.before.agent.state event.after.agent.state = true ↔
        AgentEvent.strays event = false := by
  intro event member
  rw [NodeProcess.step_legal (run.exec_of_mem (mem_events.mp member)), Bool.not_eq_true']

theorem legal_transitions_iff_plain : ∃ agent, newAgent plainOptions none = some agent ∧
    ∃ ls c, (agentMachine agent.opts).Run (.boot (bootAgent agent)) ls c ∧
      c.state.agent.state = .paused ∧ ∀ event ∈ events ls,
        canTransition event.before.agent.state event.after.agent.state = true := by
  obtain ⟨agent, ok, ls, c, run, paused, kept⟩ :=
    plain_run (p := fun ls c => c.state.agent.state = .paused ∧
        ∀ event ∈ events ls, AgentEvent.strays event = false)
      (startupSchedule ++ .spawn .pause :: smoothSteps 1 1 "") (by decide +kernel)
  exact ⟨agent, ok, ls, c, run, paused, fun event member =>
    (legal_transitions_iff run event member).mpr (kept event member)⟩

/-- A started node whose heartbeat reads a temperature above the limit goes from available to
idle. -/
theorem warm_node_leaves_table : ∃ agent, newAgent plainOptions none = some agent ∧
    ∃ ls c, (agentMachine agent.opts).Run (.boot (bootAgent agent)) ls c ∧
      ∃ event ∈ events ls, event.before.serving = true ∧
        event.before.agent.state = .available ∧ event.after.agent.state = .idle ∧
        canTransition event.before.agent.state event.after.agent.state = false :=
  plain_run (startupSchedule ++ .spawn .heartbeat ::
    List.replicate 3 (.act 1 (.telemetryRead (some ⟨79, 0⟩)))) (by decide +kernel)

end Thirdshift
