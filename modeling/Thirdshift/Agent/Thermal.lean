import Thirdshift.Agent.Discipline

/-!
# Thermal hysteresis

A node that has been too hot takes jobs again only once it has cooled down by a margin. The thermal
state is moved by two sections, the guards of a heartbeat and the monitor of a running job, and both
compare a reading with thresholds that `New` fills in from the configuration.
-/

namespace Thirdshift

open Foundation Agent

variable {opts : AgentOptions} {agent : Agent}

def AgentOp.reading : AgentOp → Option Int
  | .evaluateGuards gpu => some gpu.temperatureC
  | .hardLimited tempC => some tempC
  | _ => none

/-- What hysteresis is to guarantee of a step, whatever the step is. -/
structure HystereticStep (opts : AgentOptions) (event : AgentEvent) : Prop where
  /-- A reading of at least the hard limit is acted on. -/
  limits : ∀ tempC, event.op.reading = some tempC → opts.hardTempC ≤ tempC →
    event.after.agent.thermalState = .hardLimit
  /-- The node recovers only on a real reading that is below the soft limit by the hysteresis. -/
  recovers : event.before.agent.thermalState ≠ .normal →
    event.after.agent.thermalState = .normal →
    ∃ tempC, event.op.reading = some tempC ∧ 0 < tempC ∧
      0 < opts.thermalHysteresis ∧ tempC ≤ opts.maxTempC - opts.thermalHysteresis
  /-- The node gets warm only on a reading above the soft limit. -/
  enters : event.before.agent.thermalState = .normal →
    event.after.agent.thermalState ≠ .normal →
    ∃ tempC, event.op.reading = some tempC ∧ opts.maxTempC < tempC

/-! ### Thresholds -/

/-- The thresholds are in the order that the comparisons of the guards rely on. -/
structure AgentOptions.Thresholds (opts : AgentOptions) : Prop where
  max_pos : 0 < opts.maxTempC
  max_lt : opts.maxTempC < 2 ^ 63
  hysteresis_pos : 0 < opts.thermalHysteresis
  hysteresis_lt : opts.thermalHysteresis < 2 ^ 63
  hard : opts.maxTempC < opts.hardTempC

/-- No threshold is negative, and the soft limit leaves room for the ten degrees to the hard limit
that `New` adds. -/
structure AgentOptions.Sensible (opts : AgentOptions) : Prop where
  max_nonneg : 0 ≤ opts.maxTempC
  max_le : opts.maxTempC + 10 < 2 ^ 63
  hysteresis_nonneg : 0 ≤ opts.thermalHysteresis
  hysteresis_lt : opts.thermalHysteresis < 2 ^ 63

instance (opts : AgentOptions) : Decidable opts.Sensible :=
  decidable_of_iff (0 ≤ opts.maxTempC ∧ opts.maxTempC + 10 < 2 ^ 63 ∧
      0 ≤ opts.thermalHysteresis ∧ opts.thermalHysteresis < 2 ^ 63)
    ⟨fun ⟨h1, h2, h3, h4⟩ => ⟨h1, h2, h3, h4⟩, fun ⟨h1, h2, h3, h4⟩ => ⟨h1, h2, h3, h4⟩⟩

theorem AgentOptions.thresholds_withDefaults (sensible : opts.Sensible) :
    opts.withDefaults.Thresholds := by
  obtain ⟨maxNonneg, maxLe, hystNonneg, hystLt⟩ := sensible
  constructor
  case max_pos =>
    simp only [withDefaults]
    split <;> omega
  case max_lt =>
    simp only [withDefaults]
    split <;> omega
  case hysteresis_pos =>
    simp only [withDefaults]
    split <;> omega
  case hysteresis_lt =>
    simp only [withDefaults]
    split <;> omega
  case hard =>
    -- the sum wraps around only for a limit that is not sensible
    have default : wrap64 (78 + 10) = 78 + 10 := by decide
    have above : wrap64 (opts.maxTempC + 10) = opts.maxTempC + 10 :=
      wrap64_eq (by omega) (by omega)
    simp only [withDefaults]
    split <;> split <;> split <;> omega

theorem newAgent_opts {given : AgentOptions} {cfg : Option AgentOptions}
    (accepted : newAgent given cfg = some agent) :
    agent.opts = (given.configured cfg).withDefaults ∧ agent.thermalState = .normal := by
  obtain ⟨window, -, rfl⟩ := Option.map_eq_some_iff.mp accepted
  exact ⟨rfl, rfl⟩

/-! ### Guards -/

namespace Agent

variable {a : Agent}

@[simp] theorem opts_forceState (dst : NodeState) : (a.forceState dst).opts = a.opts := by
  unfold forceState
  repeat' split
  all_goals rfl

@[simp] theorem thermalState_forceState (dst : NodeState) :
    (a.forceState dst).thermalState = a.thermalState := by
  unfold forceState
  repeat' split
  all_goals rfl

theorem guarded_reads : a.guarded.opts = a.opts ∧ a.guarded.thermalState = a.thermalState := by
  unfold guarded standDown
  simp only
  repeat' split
  all_goals simp

theorem idledOut_reads (now : Time) :
    (a.idledOut now).opts = a.opts ∧ (a.idledOut now).thermalState = a.thermalState := by
  unfold idledOut
  split <;> exact ⟨rfl, rfl⟩

theorem evaluateGuards_reads (gpu : GPUStatus) (now : Time) (minuteOfDay : Nat) :
    (a.evaluateGuards gpu now minuteOfDay).1.opts = a.opts ∧
      (a.evaluateGuards gpu now minuteOfDay).1.thermalState =
        a.nextThermalState gpu.temperatureC := by
  have idled := (a.observed gpu minuteOfDay).guarded.idledOut_reads now
  have guards := (a.observed gpu minuteOfDay).guarded_reads
  unfold evaluateGuards
  simp only
  split
  · exact ⟨idled.1.trans guards.1, idled.2.trans guards.2⟩
  · exact ⟨idled.1.trans guards.1, idled.2.trans guards.2⟩

theorem releaseJob_reads (now : Time) :
    (a.releaseJob now).opts = a.opts ∧ (a.releaseJob now).thermalState = a.thermalState := by
  unfold releaseJob
  simp only
  repeat' split
  all_goals simp

theorem pause_reads (now : Time) :
    (a.pause now).opts = a.opts ∧ (a.pause now).thermalState = a.thermalState := by
  unfold pause
  split <;> simp

theorem beginResume_reads :
    a.beginResume.1.opts = a.opts ∧ a.beginResume.1.thermalState = a.thermalState := by
  unfold beginResume
  simp only
  repeat' split
  all_goals simp

theorem endResume_reads : a.endResume.opts = a.opts ∧ a.endResume.thermalState = a.thermalState := by
  unfold endResume
  split <;> simp

theorem transition_reads {dst : NodeState} {moved : Agent} (ok : a.transition dst = .ok moved) :
    moved.opts = a.opts ∧ moved.thermalState = a.thermalState := by
  unfold transition at ok
  split at ok
  · cases ok
    exact ⟨rfl, rfl⟩
  · cases ok

theorem claimJob_reads {offer : JobOfferPayload} {moved : Agent} {status : RuntimeStatus}
    (ok : a.claimJob offer = .ok (moved, status)) :
    moved.opts = a.opts ∧ moved.thermalState = a.thermalState := by
  unfold claimJob at ok
  repeat' split at ok
  all_goals cases ok
  exact ⟨rfl, rfl⟩

/-! ### Readings -/

def thermalAfter (a : Agent) : AgentOp → ThermalState
  | .evaluateGuards gpu => a.nextThermalState gpu.temperatureC
  | .hardLimited _ => .hardLimit
  | _ => a.thermalState

section

variable (thresholds : a.opts.Thresholds) {tempC : Int}
include thresholds

theorem le_of_le_recoverAt (positive : 0 < tempC) (recovered : tempC ≤ a.recoverAt) :
    tempC ≤ a.opts.maxTempC - a.opts.thermalHysteresis := by
  obtain ⟨maxPos, maxLt, hystPos, hystLt, -⟩ := thresholds
  have exact' : wrap64 (a.opts.maxTempC - a.opts.thermalHysteresis) =
      a.opts.maxTempC - a.opts.thermalHysteresis := wrap64_eq (by omega) (by omega)
  rw [recoverAt, exact'] at recovered
  omega

theorem nextThermalState_of_hard (hot : a.opts.hardTempC ≤ tempC) :
    a.nextThermalState tempC = .hardLimit := by
  have maxPos := thresholds.max_pos
  have hard := thresholds.hard
  have hystPos := thresholds.hysteresis_pos
  have positive : 0 < tempC := by omega
  have above : ¬tempC ≤ a.recoverAt := fun recovered => by
    have below := le_of_le_recoverAt thresholds positive recovered
    omega
  have real : ¬(tempC ≤ 0 ∨ a.opts.maxTempC ≤ 0) := by omega
  rw [nextThermalState, if_neg real]
  cases a.thermalState with
  | normal => exact if_pos hot
  | warm => simp [above, hot]
  | hardLimit => simp [above, hot]

theorem le_of_nextThermalState_normal (positive : 0 < tempC) (hot : a.thermalState ≠ .normal)
    (normal : a.nextThermalState tempC = .normal) :
    tempC ≤ a.opts.maxTempC - a.opts.thermalHysteresis := by
  have maxPos := thresholds.max_pos
  have real : ¬(tempC ≤ 0 ∨ a.opts.maxTempC ≤ 0) := by omega
  apply le_of_le_recoverAt thresholds positive
  rw [nextThermalState, if_neg real] at normal
  by_contra above
  cases state : a.thermalState with
  | normal => exact hot state
  | warm | hardLimit =>
    rw [state] at normal
    simp only [above, if_false] at normal
    split at normal <;> cases normal

theorem lt_of_nextThermalState_hot (cool : a.thermalState = .normal)
    (hot : a.nextThermalState tempC ≠ .normal) : a.opts.maxTempC < tempC := by
  have hard := thresholds.hard
  rw [nextThermalState, cool] at hot
  split at hot
  · exact absurd rfl hot
  · simp only at hot
    split at hot
    · omega
    · split at hot
      · assumption
      · exact absurd rfl hot

end

end Agent

/-! ### Runs -/

theorem NodeProcess.step_reads {op : AgentOp} {input : AgentInput} {p p' : NodeProcess}
    {r : op.Resp} (stepped : p.step op input = some (p', r)) :
    p'.agent.opts = p.agent.opts ∧ p'.agent.thermalState = p.agent.thermalAfter op := by
  cases op <;> simp only [NodeProcess.step] at stepped
  case transition dst =>
    split at stepped
    next moved ok =>
      cases stepped
      exact transition_reads ok
    next => cases stepped; exact ⟨rfl, rfl⟩
  case claimJob offer =>
    split at stepped
    next moved status ok =>
      cases stepped
      exact claimJob_reads ok
    next => cases stepped; exact ⟨rfl, rfl⟩
  case launch | readOffer =>
    split at stepped <;> cases stepped
    exact ⟨rfl, rfl⟩
  all_goals cases stepped
  case evaluateGuards gpu => exact evaluateGuards_reads gpu _ _
  case releaseJob => exact releaseJob_reads _
  case pause => exact pause_reads _
  case beginResume => exact beginResume_reads
  case endResume => exact endResume_reads
  case hardLimited => simp [Agent.hardLimited, Agent.thermalAfter]
  all_goals exact ⟨rfl, rfl⟩

theorem agent_opts_kept {ls : AgentTrace}
    {c : Config agentSteps NodeProcess} (run : AgentRan opts agent ls c) :
    c.state.agent.opts = agent.opts := by
  refine run.state_invariant (I := fun p => p.agent.opts = agent.opts) rfl ?_
  intro event _ exec before
  exact (NodeProcess.step_reads exec).1.trans before

/-- No failed or impossible reading is evaluated while the node is warm or at its hard limit. -/
def RealReading (event : AgentEvent) : Prop :=
  event.before.agent.thermalState ≠ .normal →
    ∀ tempC ∈ event.op.reading, 0 < tempC
  deriving Decidable

/-- With sensible thresholds every step of every run of an agent is hysteretic, as long as the
telemetry of a hot node does not fail. -/
theorem thermal_hysteresis {given : AgentOptions} {cfg : Option AgentOptions} {agent : Agent}
    (accepted : newAgent given cfg = some agent) (sensible : (given.configured cfg).Sensible)
    {ls : AgentTrace} {c : Config agentSteps NodeProcess}
    (run : (agentMachine agent.opts).Run (.boot (bootAgent agent)) ls c)
    (real : ∀ event ∈ events ls, RealReading event) :
    ∀ event ∈ events ls, HystereticStep agent.opts event := by
  intro event member
  obtain ⟨past, rest, mid, next, cut, before, step⟩ := run.around member
  obtain ⟨opts, -⟩ := newAgent_opts accepted
  have same : event.before.agent.opts = agent.opts := by
    rw [step.start]
    exact agent_opts_kept before
  have thresholds : event.before.agent.opts.Thresholds := by
    rw [same, opts]
    exact AgentOptions.thresholds_withDefaults sensible
  have allowed := agent_disciplined before step
  have positive := real event member
  obtain ⟨-, moved⟩ := NodeProcess.step_reads step.exec
  obtain ⟨thread, op, input, start, final, resp⟩ := event
  simp only at same thresholds allowed positive moved
  cases op
  case evaluateGuards gpu =>
    simp only [Agent.thermalAfter] at moved
    constructor
    case limits =>
      rintro _ ⟨⟩ hot
      rw [← same] at hot
      exact moved.trans (nextThermalState_of_hard thresholds hot)
    case recovers =>
      intro hot normal
      have aboveZero := positive hot gpu.temperatureC rfl
      rw [← same]
      refine ⟨gpu.temperatureC, rfl, aboveZero, thresholds.hysteresis_pos, ?_⟩
      exact le_of_nextThermalState_normal thresholds aboveZero hot (moved ▸ normal)
    case enters =>
      intro cool hot
      refine ⟨gpu.temperatureC, rfl, ?_⟩
      rw [← same]
      exact lt_of_nextThermalState_hot thresholds cool (moved ▸ hot)
  case hardLimited tempC =>
    simp only [Agent.thermalAfter] at moved
    -- the monitor enters its section only with a reading of at least the hard limit
    obtain ⟨-, -, -, -, hot⟩ := allowed
    have hard := thresholds.hard
    rw [same] at hard
    constructor
    case limits => exact fun _ _ _ => moved
    case recovers => exact fun _ normal => absurd (moved.symm.trans normal) (by decide)
    case enters => exact fun _ _ => ⟨tempC, rfl, by omega⟩
  all_goals
    -- no other section reads a temperature or moves the thermal state
    constructor
    case limits => exact fun _ reads => by cases reads
    case recovers => exact fun hot normal => absurd (moved.symm.trans normal) hot
    case enters => exact fun cool hot => absurd (moved.trans cool) hot

/-! ### A failed reading -/

def AgentInput.telemetryRead (telemetry : Option GPUStatus) : AgentInput :=
  ⟨0, 0, telemetry, .error "", none, .failed, false, none, true, false⟩

def heartbeatSchedule (readings : List (Option GPUStatus)) : List (Choice AgentInput AgentEntry) :=
  readings.zipIdx.flatMap fun (reading, thread) =>
    .spawn .heartbeat :: List.replicate 3 (.act thread (.telemetryRead reading))

def thermalHistory (ls : AgentTrace) : List ThermalState :=
  (events ls).filterMap fun event => event.op.reading.map fun _ => event.after.agent.thermalState

/-- The hysteresis of a plain node that runs hot, cools to within the margin, and then below it. -/
theorem thermal_hysteresis_plain : ∃ agent, newAgent plainOptions none = some agent ∧
    (plainOptions.configured none).Sensible ∧
    ∃ ls c, (agentMachine agent.opts).Run (.boot (bootAgent agent)) ls c ∧
      thermalHistory ls = [.normal, .hardLimit, .warm, .normal] ∧
      (∀ event ∈ events ls, RealReading event) ∧
      ∀ event ∈ events ls, HystereticStep agent.opts event := by
  have sensible : (plainOptions.configured none).Sensible := by decide +kernel
  obtain ⟨agent, ok, ls, c, run, history, real⟩ :=
    plain_run (p := fun ls _ => thermalHistory ls = [.normal, .hardLimit, .warm, .normal] ∧
        ∀ event ∈ events ls, RealReading event)
      (heartbeatSchedule [some ⟨78, 0⟩, some ⟨88, 0⟩, some ⟨74, 0⟩, some ⟨73, 0⟩])
      (by decide +kernel)
  exact ⟨agent, ok, sensible, ls, c, run, history, real,
    thermal_hysteresis ok sensible run real⟩

/-- A failed read takes a plain node from its hard limit straight back to normal. -/
theorem failed_reading_recovers : ∃ agent, newAgent plainOptions none = some agent ∧
    ∃ ls c, (agentMachine agent.opts).Run (.boot (bootAgent agent)) ls c ∧
      ∃ event ∈ events ls, event.before.agent.thermalState = .hardLimit ∧
        event.op.reading = some 0 ∧ event.after.agent.thermalState = .normal ∧
        ¬HystereticStep agent.opts event := by
  obtain ⟨agent, ok, ls, c, run, event, member, hot, failed, normal⟩ :=
    plain_run (p := fun ls _ => ∃ event ∈ events ls, event.before.agent.thermalState = .hardLimit ∧
        event.op.reading = some 0 ∧ event.after.agent.thermalState = .normal)
      (heartbeatSchedule [some ⟨90, 0⟩, none]) (by decide +kernel)
  refine ⟨agent, ok, ls, c, run, event, member, hot, failed, normal, fun hysteretic => ?_⟩
  have leaves : event.before.agent.thermalState ≠ .normal := by
    rw [hot]
    decide
  obtain ⟨tempC, reads, positive, -⟩ := hysteretic.recovers leaves normal
  cases failed.symm.trans reads
  omega

end Thirdshift
