import Thirdshift.Agent.Discipline

/-!
# One job at a time

A node claims a job only while it is available, so it works on one at a time as long as an active
job keeps it busy or draining. Most sections keep that by themselves. The second section of `resume`
and the transitions of the startup set the state without looking at the job: they rely on there
being none.
-/

namespace Thirdshift

open Foundation Agent Option AgentOp AgentEvent NodeProcess

variable {dst : NodeState} {offer : JobOfferPayload} {p : NodeProcess} {op : AgentOp}
  {ls : AgentTrace} {event : AgentEvent} {i : Nat} {opts : AgentOptions} {agent : Agent}

/-! ### Sections -/

namespace Agent

def Occupied (a : Agent) : Prop :=
  a.activeJobID.isSome = true → a.state = .busy ∨ a.state = .draining
  deriving Decidable

variable {a : Agent}

@[simp] theorem activeJobID_forceState (dst : NodeState) :
    (a.forceState dst).activeJobID = a.activeJobID := by
  unfold forceState
  repeat' split
  all_goals rfl

theorem occupied_of_idle (idle : a.activeJobID = none) : a.Occupied := by
  intro active
  simp [idle] at active

theorem state_forceState (forced : dst ∈ [NodeState.paused, .draining, .idle, .available]) :
    (a.forceState dst).state = dst := by
  unfold forceState
  split
  next same => exact same
  next =>
    split
    · rfl
    · cases dst <;> first | rfl | simp at forced

theorem occupied_forceState_draining : (a.forceState .draining).Occupied :=
  fun _ => .inr (state_forceState (by decide))

theorem occupied_forceState_of_idle (idle : a.activeJobID = none) : (a.forceState dst).Occupied :=
  occupied_of_idle (by simp [idle])

theorem activeJobID_standDown : a.standDown.activeJobID = a.activeJobID := by
  unfold standDown
  repeat' split
  all_goals simp

theorem occupied_standDown (occupied : a.Occupied) : a.standDown.Occupied := by
  unfold standDown
  split
  · exact occupied_forceState_draining
  next idle =>
    rw [not_or, not_isSome_iff_eq_none] at idle
    split
    · exact occupied_forceState_of_idle idle.1
    · exact occupied

theorem activeJobID_guarded : a.guarded.activeJobID = a.activeJobID := by
  unfold guarded
  simp only
  repeat' split
  all_goals simp [activeJobID_standDown]

theorem occupied_guarded (occupied : a.Occupied) : a.guarded.Occupied := by
  unfold guarded
  simp only
  split
  · exact occupied_forceState_draining
  next notDraining =>
    split
    next pausing =>
      -- a pause with a job is the case before
      apply occupied_forceState_of_idle
      simpa [pausing] using notDraining
    next =>
      split
      · exact occupied_standDown occupied
      · exact occupied_standDown occupied
      · split
        · exact occupied
        next idle =>
          rw [not_isSome_iff_eq_none] at idle
          split <;> split
          · exact occupied_forceState_of_idle idle
          · exact occupied
          · exact occupied_forceState_of_idle idle
          · exact occupied

theorem evaluateGuards_keeps (occupied : a.Occupied) (gpu : GPUStatus) (now : Time)
    (minuteOfDay : Nat) : (a.evaluateGuards gpu now minuteOfDay).1.Occupied ∧
      (a.evaluateGuards gpu now minuteOfDay).1.activeJobID = a.activeJobID := by
  have guarded : (a.observed gpu minuteOfDay).guarded.Occupied :=
    occupied_guarded (a := a.observed gpu minuteOfDay) occupied
  have same : (a.observed gpu minuteOfDay).guarded.activeJobID = a.activeJobID :=
    activeJobID_guarded
  have idled : ((a.observed gpu minuteOfDay).guarded.idledOut now).Occupied ∧
      ((a.observed gpu minuteOfDay).guarded.idledOut now).activeJobID = a.activeJobID := by
    unfold idledOut
    split
    · exact ⟨guarded, same⟩
    · exact ⟨guarded, same⟩
  unfold evaluateGuards
  simp only
  split
  · exact idled
  · exact idled

theorem releaseJob_idle (now : Time) : (a.releaseJob now).activeJobID = none := by
  unfold releaseJob
  simp only
  repeat' split
  all_goals simp

theorem pause_keeps (now : Time) :
    (a.pause now).Occupied ∧ (a.pause now).activeJobID = a.activeJobID := by
  unfold pause
  split
  · exact ⟨occupied_forceState_draining, by simp⟩
  next idle =>
    rw [not_isSome_iff_eq_none] at idle
    exact ⟨occupied_forceState_of_idle idle, by simp⟩

theorem beginResume_keeps (occupied : a.Occupied) :
    a.beginResume.1.Occupied ∧ a.beginResume.1.activeJobID = a.activeJobID := by
  unfold beginResume
  simp only
  split
  · exact ⟨occupied, rfl⟩
  next idle =>
    rw [not_isSome_iff_eq_none] at idle
    split
    · exact ⟨occupied_forceState_of_idle idle, by simp⟩
    · exact ⟨occupied, rfl⟩

theorem idle_of_beginResume (goesOn : a.beginResume.2 ≠ .working) : a.activeJobID = none := by
  unfold beginResume at goesOn
  simp only at goesOn
  split at goesOn
  · exact absurd rfl goesOn
  next idle => exact not_isSome_iff_eq_none.mp idle

theorem endResume_keeps : a.endResume.activeJobID = a.activeJobID := by
  unfold endResume
  split <;> simp

theorem transition_keeps {moved : Agent} (ok : a.transition dst = .ok moved) :
    moved.activeJobID = a.activeJobID := by
  unfold transition at ok
  split at ok
  · cases ok
    rfl
  · cases ok

theorem claimJob_ok {moved : Agent} {status : RuntimeStatus}
    (ok : a.claimJob offer = .ok (moved, status)) :
    a.state = .available ∧ moved.state = .busy ∧ moved.activeJobID = some offer.jobID := by
  unfold claimJob at ok
  split at ok
  · cases ok
  next available =>
    repeat' split at ok
    all_goals cases ok
    exact ⟨Decidable.not_not.mp available, rfl, rfl⟩

end Agent

/-! ### Steps -/

namespace NodeProcess

variable {input : AgentInput} {p' : NodeProcess}

def setsOutright : AgentOp → Bool
  | .transition _ | .endResume => true
  | _ => false

def jobAfter (p : NodeProcess) : Obs agentSteps → Option JobID
  | ⟨.claimJob offer, .ok _⟩ => some offer.jobID
  | ⟨.releaseJob, _⟩ => none
  | _ => p.agent.activeJobID

theorem step_job {r : op.Resp} (occupied : p.agent.Occupied)
    (stepped : p.step op input = some (p', r)) : p'.agent.activeJobID = p.jobAfter ⟨op, r⟩ ∧
      (setsOutright op = false → p'.agent.Occupied) := by
  cases op <;> simp only [NodeProcess.step] at stepped
  case transition dst =>
    split at stepped
    next moved ok =>
      -- a transition keeps the job but may leave the node in an idle state
      cases stepped
      exact ⟨transition_keeps ok, fun settled => by cases settled⟩
    next => cases stepped; exact ⟨rfl, fun _ => occupied⟩
  case claimJob offer =>
    split at stepped
    next moved status ok =>
      cases stepped
      obtain ⟨-, busy, job⟩ := claimJob_ok ok
      exact ⟨job, fun _ _ => .inl busy⟩
    next => cases stepped; exact ⟨rfl, fun _ => occupied⟩
  case launch | readOffer =>
    split at stepped <;> cases stepped
    exact ⟨rfl, fun _ => occupied⟩
  all_goals cases stepped
  case evaluateGuards gpu =>
    obtain ⟨occupied', same⟩ :=
      evaluateGuards_keeps occupied gpu input.now input.minuteOfDay
    exact ⟨same, fun _ => occupied'⟩
  case releaseJob =>
    exact ⟨releaseJob_idle _, fun _ => occupied_of_idle (releaseJob_idle _)⟩
  case pause => exact ⟨(pause_keeps _).2, fun _ => (pause_keeps _).1⟩
  case beginResume =>
    obtain ⟨occupied', same⟩ := beginResume_keeps occupied
    exact ⟨same, fun _ => occupied'⟩
  case endResume => exact ⟨endResume_keeps, fun settled => by cases settled⟩
  case hardLimited =>
    exact ⟨by simp [Agent.hardLimited, jobAfter], fun _ => occupied_forceState_draining⟩
  all_goals exact ⟨rfl, fun _ => occupied⟩

theorem step_claimJob {status : RuntimeStatus}
    (stepped : p.step (.claimJob offer) input = some (p', .ok status)) :
    ∃ moved, p.agent.claimJob offer = .ok (moved, status) := by
  simp only [NodeProcess.step] at stepped
  split at stepped
  next moved _ claimed =>
    cases stepped
    exact ⟨moved, claimed⟩
  next => cases stepped

theorem step_beginResume (input : AgentInput) {r : Agent.Resumption}
    (stepped : p.step .beginResume input = some (p', r)) : r = p.agent.beginResume.2 :=
  (Prod.mk.inj (Option.some.inj stepped)).2.symm

theorem step_startup {r : op.Resp} (stepped : p.step op input = some (p', r)) :
    p'.started = (p.started || op.isLaunch) ∧ p'.serving = (p.serving || op.isServe) ∧
      (op.isLaunch = true → p.started = false) ∧ (op.isReadOffer = true → p.serving = true) := by
  cases op <;> simp only [NodeProcess.step] at stepped
  case transition | claimJob =>
    split at stepped <;> cases stepped <;>
      simp [isLaunch, isServe, isReadOffer]
  case launch =>
    split at stepped
    · cases stepped
    next fresh =>
      cases stepped
      simpa [isLaunch, isServe, isReadOffer] using fresh
  case readOffer =>
    split at stepped
    next serving =>
      cases stepped
      simpa [isLaunch, isServe, isReadOffer] using serving
    next => cases stepped
  all_goals
    cases stepped
    simp [isLaunch, isServe, isReadOffer]

end NodeProcess

/-! ### Startup -/

section

theorem any_localTrace_snoc (f : Obs agentSteps → Bool) :
    (localTrace i (ls ++ [.act event])).any f =
      ((localTrace i ls).any f || (decide (event.thread = i) && f ⟨event.op, event.resp⟩)) := by
  rw [localTrace_snoc_act, List.any_append]
  split
  next mine => simp [mine]
  next other => simp [other]

theorem seen_snoc {f : Obs agentSteps → Bool} :
    (localTrace i (ls ++ [.act event])).any f = true ↔ (localTrace i ls).any f = true ∨
      event.thread = i ∧ f ⟨event.op, event.resp⟩ = true := by
  rw [any_localTrace_snoc, Bool.or_eq_true, Bool.and_eq_true, decide_eq_true_eq]

structure Startup (ls : AgentTrace) (p : NodeProcess) : Prop where
  started : ∀ i, launched (localTrace i ls) = true → p.started = true
  one : ∀ i j, launched (localTrace i ls) = true → launched (localTrace j ls) = true → i = j
  serving : p.serving = true → ∃ i, served (localTrace i ls) = true
  launches : ∀ i, served (localTrace i ls) = true → launched (localTrace i ls) = true
  reads : ∀ i, (localTrace i ls).any (fun obs => isReadOffer obs.op) = true →
    p.serving = true
  idle : p.serving = false → p.agent.activeJobID = none

theorem Startup.not_serving (startup : Startup ls p) (launching : launched (localTrace i ls) = true)
    (unserved : served (localTrace i ls) = false) : p.serving = false := by
  by_contra serving
  rw [Bool.not_eq_false] at serving
  obtain ⟨j, served⟩ := startup.serving serving
  have same := startup.one i j launching (startup.launches j served)
  rw [same, served] at unserved
  cases unserved

variable {c : Config agentSteps NodeProcess}

theorem AgentDiscipline.of_serve {seen : AgentSeen}
    (allowed : AgentDiscipline opts seen op) (serve : op.isServe = true) : launched seen = true := by
  cases op <;> first | exact allowed.1 | cases serve

theorem Startup.act {mid next : Config agentSteps NodeProcess} (run : AgentRan opts agent ls mid)
    (step : AgentActs opts mid event next) (startup : Startup ls event.before) :
    Startup (ls ++ [.act event]) event.after := by
  have allowed := agent_disciplined run step
  obtain ⟨started, serving, fresh, reading⟩ := step_startup step.exec
  constructor
  case started =>
    intro i launching
    rcases seen_snoc.mp launching with old | ⟨-, now⟩
    · rw [started, startup.started i old, Bool.true_or]
    · rw [started, show isLaunch event.op = true from now, Bool.or_true]
  case one =>
    -- a second launch would have found the agent started
    have stale : ∀ j, launched (localTrace j ls) = true → isLaunch event.op = true →
        False := by
      intro j old now
      rw [startup.started j old] at fresh
      cases fresh now
    intro i j first second
    rcases seen_snoc.mp first with old | ⟨mine, now⟩ <;>
      rcases seen_snoc.mp second with old' | ⟨mine', now'⟩
    · exact startup.one i j old old'
    · exact (stale i old now').elim
    · exact (stale j old' now).elim
    · exact mine.symm.trans mine'
  case serving =>
    intro serves
    rw [serving, Bool.or_eq_true] at serves
    rcases serves with old | now
    · exact (startup.serving old).imp fun i served' => seen_snoc.mpr (.inl served')
    · exact ⟨event.thread, seen_snoc.mpr (.inr ⟨rfl, now⟩)⟩
  case launches =>
    intro i serves
    refine seen_snoc.mpr (.inl ?_)
    rcases seen_snoc.mp serves with old | ⟨rfl, now⟩
    · exact startup.launches i old
    · exact allowed.of_serve now
  case reads =>
    intro i reads
    rcases seen_snoc.mp reads with old | ⟨-, now⟩
    · rw [serving, startup.reads i old, Bool.true_or]
    · rw [serving, reading now, Bool.true_or]
  case idle =>
    intro notServing
    rw [serving, Bool.or_eq_false_iff] at notServing
    have idle := startup.idle notServing.1
    rw [(step_job (occupied_of_idle idle) step.exec).1]
    have unread := startup.reads event.thread
    obtain ⟨thread, op, input, start, final, resp⟩ := event
    cases op
    case claimJob offer =>
      -- the offer was read from a session
      have read := unread (List.any_eq_true.mpr ⟨_, allowed.2, rfl⟩)
      rw [notServing.1] at read
      cases read
    case releaseJob => rfl
    all_goals exact idle

theorem startup_of_run (idle : agent.activeJobID = none)
    (run : AgentRan opts agent ls c) : Startup ls c.state := by
  refine run.invariant (I := Startup) ?_ ?_ fun _ _ _ _ before step => Startup.act before step
  · constructor
    case idle => exact fun _ => idle
    all_goals simp [localTrace, launched, served, Config.boot, bootAgent]
  · intro past mid entry _ startup
    constructor
    · simpa using startup.started
    · simpa using startup.one
    · simpa using startup.serving
    · simpa using startup.launches
    · simpa using startup.reads
    · exact startup.idle

end

/-! ### The job of a goroutine -/

def AgentEvent.claims (event : AgentEvent) : Bool :=
  match event.op, event.resp with
  | .claimJob _, .ok _ => true
  | _, _ => false

def endsSessions : (op : AgentOp) → op.Resp → Bool
  | .session, cancelled => cancelled
  | _, _ => false

def AgentEvent.shutsDown (event : AgentEvent) : Bool := endsSessions event.op event.resp

/-- A job is claimed only while no resume is between its two sections. -/
def ClaimsUndisturbed (past : AgentTrace) (event : AgentEvent) : Prop :=
  claims event = true →
    ∀ i < (entries past).length, resuming (localTrace i past) = false

instance (past : AgentTrace) (event : AgentEvent) : Decidable (ClaimsUndisturbed past event) :=
  inferInstanceAs (Decidable (_ → ∀ i < (entries past).length, _))

section

structure OneJob (ls : AgentTrace) (p : NodeProcess) : Prop where
  occupied : p.agent.Occupied
  works : ∀ i, working (localTrace i ls) = true → p.agent.activeJobID.isSome = true
  one : ∀ i j, working (localTrace i ls) = true → working (localTrace j ls) = true → i = j
  resumes : ∀ i, resuming (localTrace i ls) = true → p.agent.activeJobID = none

theorem working_snoc :
    working (localTrace i (ls ++ [.act event])) =
      if event.thread = i then worksAfter (working (localTrace i ls)) ⟨event.op, event.resp⟩
      else working (localTrace i ls) := by
  rw [localTrace_snoc_act]
  split <;> simp

theorem resuming_snoc :
    resuming (localTrace i (ls ++ [.act event])) =
      if event.thread = i then resumesAfter (resuming (localTrace i ls)) ⟨event.op, event.resp⟩
      else resuming (localTrace i ls) := by
  rw [localTrace_snoc_act]
  split <;> simp

theorem OneJob.idle_of_claim (job : OneJob ls p) {moved : Agent}
    {status : RuntimeStatus} (ok : p.agent.claimJob offer = .ok (moved, status)) :
    p.agent.activeJobID = none ∧ ∀ i, working (localTrace i ls) = false := by
  have available := (claimJob_ok ok).1
  have idle : p.agent.activeJobID = none := by
    rw [← not_isSome_iff_eq_none]
    intro active
    rcases job.occupied active with busy | draining
    · rw [available] at busy
      cases busy
    · rw [available] at draining
      cases draining
  refine ⟨idle, fun i => ?_⟩
  by_contra works
  have active := job.works i (Bool.not_eq_false _ ▸ works)
  simp [idle] at active

theorem OneJob.of_same_job (event : AgentEvent) (job : OneJob ls event.before)
    (occupied : event.after.agent.Occupied)
    (same : event.after.agent.activeJobID = event.before.agent.activeJobID)
    (works : ∀ w, worksAfter w ⟨event.op, event.resp⟩ = w)
    (resumes : resumesAfter (resuming (localTrace event.thread ls)) ⟨event.op, event.resp⟩ = true →
      event.before.agent.activeJobID = none) : OneJob (ls ++ [.act event]) event.after := by
  have still : ∀ i, working (localTrace i (ls ++ [.act event])) = working (localTrace i ls) := by
    intro i
    rw [working_snoc]
    split
    · exact works _
    · rfl
  constructor
  case occupied => exact occupied
  case works =>
    intro i busy
    rw [same]
    exact job.works i (still i ▸ busy)
  case one => exact fun i j first second => job.one i j (still i ▸ first) (still j ▸ second)
  case resumes =>
    intro i resuming'
    rw [same]
    rw [resuming_snoc] at resuming'
    split at resuming'
    next mine => exact resumes (mine ▸ resuming')
    next => exact job.resumes i resuming'

variable {mid next : Config agentSteps NodeProcess}

theorem OneJob.idle_of_setsOutright (idle : agent.activeJobID = none)
    (run : AgentRan opts agent ls mid)
    (step : AgentActs opts mid event next) (job : OneJob ls event.before)
    (up : ∀ i, ⟨.session, true⟩ ∉ localTrace i ls)
    (outright : setsOutright event.op = true) :
    event.before.agent.activeJobID = none := by
  have allowed := agent_disciplined run step
  have startup : Startup ls event.before := step.start ▸ startup_of_run idle run
  obtain ⟨thread, op, input, start, final, resp⟩ := event
  cases op
  case endResume => exact job.resumes _ allowed
  case transition dst =>
    rcases allowed with down | resuming' | ⟨launching, unserved⟩
    · exact (up _ down).elim
    · exact job.resumes _ resuming'
    · exact startup.idle (startup.not_serving launching unserved)
  all_goals cases outright

theorem OneJob.claimed (run : AgentRan opts agent ls mid) (start : event.before = mid.state)
    (exec : event.Valid) (undisturbed : ClaimsUndisturbed ls event) (job : OneJob ls event.before)
    (claims : claims event = true) :
    (∀ i, working (localTrace i ls) = false) ∧ OneJob (ls ++ [.act event]) event.after := by
  -- no thread is in the middle of a resume, those not yet started included
  have quiet : ∀ i, resuming (localTrace i ls) = false := by
    intro i
    by_cases started : i < (entries ls).length
    · exact undisturbed claims i started
    · rw [run.localTrace_unstarted (Nat.le_of_not_lt started)]
      rfl
  obtain ⟨moved, occupied⟩ := step_job job.occupied exec
  obtain ⟨thread, op, input, before, after, resp⟩ := event
  cases op
  case claimJob offer =>
    cases resp with
    | error e => cases claims
    | ok status =>
      obtain ⟨_, ok⟩ := step_claimJob exec
      obtain ⟨-, alone⟩ := job.idle_of_claim ok
      refine ⟨alone, ?_⟩
      -- the node was idle, so the claiming thread is the only one at work
      have mine : ∀ i, working (localTrace i (ls ++ [.act ⟨thread, .claimJob offer, input, before,
          after, .ok status⟩])) = true → thread = i := by
        intro i works
        rw [working_snoc] at works
        split at works
        next here => exact here
        next =>
          rw [alone i] at works
          cases works
      constructor
      case occupied => exact occupied rfl
      case works =>
        intro i _
        rw [show after.agent.activeJobID = some offer.jobID from moved]
        rfl
      case one => exact fun i j first second => (mine i first).symm.trans (mine j second)
      case resumes =>
        intro i resumes
        rw [resuming_snoc] at resumes
        simp only [resumesAfter, quiet, ite_self] at resumes
        cases resumes
  all_goals cases claims

theorem OneJob.released (job : OneJob ls event.before) (exec : event.Valid)
    (holder : working (localTrace event.thread ls) = true)
    (releases : (event.op matches .releaseJob) = true) :
    OneJob (ls ++ [.act event]) event.after := by
  obtain ⟨moved, occupied⟩ := step_job job.occupied exec
  obtain ⟨thread, op, input, before, after, resp⟩ := event
  cases op
  case releaseJob =>
    have gone : after.agent.activeJobID = none := moved
    -- the goroutine that releases is the only one that had a job
    have nobody : ∀ i, working (localTrace i (ls ++ [.act ⟨thread, .releaseJob, input, before,
        after, resp⟩])) = false := by
      intro i
      rw [working_snoc]
      split
      next => rfl
      next other =>
        by_contra works
        exact other (job.one thread i holder (Bool.not_eq_false _ ▸ works))
    constructor
    case occupied => exact occupied rfl
    case works =>
      intro i works
      rw [nobody i] at works
      cases works
    case one =>
      intro i j works
      rw [nobody i] at works
      cases works
    case resumes => exact fun _ _ => gone
  all_goals cases releases

theorem OneJob.act (idle : agent.activeJobID = none) (run : AgentRan opts agent ls mid)
    (step : AgentActs opts mid event next)
    (up : ∀ i, ⟨.session, true⟩ ∉ localTrace i ls) (undisturbed : ClaimsUndisturbed ls event)
    (job : OneJob ls event.before) : OneJob (ls ++ [.act event]) event.after := by
  have allowed := agent_disciplined run step
  have outright := job.idle_of_setsOutright idle run step up
  have claimed := OneJob.claimed run step.start step.exec undisturbed job
  have released := job.released step.exec
  have same := OneJob.of_same_job event job
  obtain ⟨moved, occupied⟩ := step_job job.occupied step.exec
  have exec := step.exec
  obtain ⟨thread, op, input, before, after, resp⟩ := event
  cases op
  case claimJob offer =>
    cases resp with
    | ok status => exact (claimed rfl).2
    | error e => exact same (occupied rfl) moved (fun _ => rfl) (job.resumes _)
  case releaseJob => exact released allowed rfl
  case transition | endResume =>
    have none' := outright rfl
    refine same (occupied_of_idle (moved.trans none')) moved (fun _ => rfl) fun resumes => ?_
    cases resumes
  case beginResume =>
    refine same (occupied rfl) moved (fun _ => rfl) fun resumes => ?_
    have began := step_beginResume input exec
    cases resp with
    | working => exact job.resumes _ resumes
    | prepare => exact idle_of_beginResume (by rw [← began]; nofun)
    | ready => exact idle_of_beginResume (by rw [← began]; nofun)
  all_goals exact same (occupied rfl) moved (fun _ => rfl) (job.resumes _)

theorem not_shutDown_of_events {past rest : AgentTrace}
    (up : ∀ event ∈ events ls, shutsDown event = false) (cut : ls = past ++ rest)
    (i : Nat) : ⟨.session, true⟩ ∉ localTrace i past := by
  intro seen
  obtain ⟨event, member, down⟩ := happened_of_seen (S := agentSteps) endsSessions seen
  have still : endsSessions event.op event.resp = false := up event (events_left cut member)
  rw [still] at down
  cases down

theorem oneJob_of_run {c : Config agentSteps NodeProcess} (idle : agent.activeJobID = none)
    (run : AgentRan opts agent ls c) (up : ∀ event ∈ events ls, shutsDown event = false)
    (undisturbed : Along ClaimsUndisturbed ls) : OneJob ls c.state := by
  have condition : Along (fun past event => ClaimsUndisturbed past event ∧
      ∀ i, ⟨.session, true⟩ ∉ localTrace i past) ls :=
    fun past event rest cut =>
      ⟨undisturbed past event rest cut, not_shutDown_of_events up cut⟩
  refine run.along_invariant (I := OneJob) condition ?_ ?_ ?_
  · constructor
    case occupied => exact occupied_of_idle idle
    all_goals simp [localTrace, working, resuming]
  · intro past mid entry _ job
    constructor
    · exact job.occupied
    · simpa using job.works
    · simpa using job.one
    · simpa using job.resumes
  · intro past event mid next before step here job
    exact job.act idle before step here.2 here.1

end

/-- In every interleaving of an agent's sections in which no job is claimed between the two
sections of a resume, an active job keeps the node busy or draining, and no job is claimed while a
goroutine has one that it has not released. -/
theorem one_job_at_a_time {given : AgentOptions} {cfg : Option AgentOptions} {agent : Agent}
    (accepted : newAgent given cfg = some agent) {ls : AgentTrace}
    {c : Config agentSteps NodeProcess}
    (run : (agentMachine agent.opts).Run (.boot (bootAgent agent)) ls c)
    (up : ∀ event ∈ events ls, shutsDown event = false)
    (undisturbed : Along ClaimsUndisturbed ls) :
    c.state.agent.Occupied ∧
      ∀ past event rest, ls = past ++ .act event :: rest → claims event = true →
        ∀ i, working (localTrace i past) = false := by
  have idle : agent.activeJobID = none := by
    obtain ⟨window, -, rfl⟩ := map_eq_some_iff.mp accepted
    rfl
  refine ⟨(oneJob_of_run idle run up undisturbed).occupied, ?_⟩
  intro past event rest cut claims
  obtain ⟨mid, next, before, step, -⟩ := run.split cut
  have earlier : ∀ event ∈ events past, shutsDown event = false :=
    fun e member => up e (events_left cut member)
  have job : OneJob past event.before := by
    rw [step.start]
    exact oneJob_of_run idle before earlier (Along.left (cut ▸ undisturbed))
  exact (OneJob.claimed before step.start step.exec (undisturbed past event rest cut) job claims).1

/-! ### A claim during a resume -/

def plainOffer (jobID : JobID) : JobOfferPayload :=
  ⟨jobID, "att_a", 100, 100, "thirdshift-tiny-chat-v1",
    ⟨[⟨"user", "hello"⟩], none, 16, none, false⟩, .standard⟩

def AgentInput.smooth (jobID : JobID) : AgentInput :=
  ⟨0, 0, some ⟨40, 0⟩,
    .ok ⟨"thirdshift-tiny-chat-v1", "sha256:runtime", "sha256:model", "127.0.0.1:8080"⟩,
    some (plainOffer jobID), .answered ⟨"assistant", "hi"⟩ ⟨1, 1, 2⟩ "stop", false,
    some ⟨"key_a", "ed25519", "", 0⟩, false, false⟩

def smoothSteps (thread n : Nat) (jobID : JobID) : List (Choice AgentInput AgentEntry) :=
  List.replicate n (.act thread (.smooth jobID))

def startupSchedule : List (Choice AgentInput AgentEntry) :=
  .spawn (.run 1) :: smoothSteps 0 7 "job_a"

/-- A node that is paused and resumed, and then works on one job after the other. -/
theorem one_job_at_a_time_plain : ∃ agent, newAgent plainOptions none = some agent ∧
    ∃ ls c, (agentMachine agent.opts).Run (.boot (bootAgent agent)) ls c ∧
      (∀ event ∈ events ls, shutsDown event = false) ∧
      Along ClaimsUndisturbed ls ∧ (events ls).countP claims = 2 ∧
      c.state.agent.activeJobID = some "job_b" ∧ c.state.agent.Occupied := by
  obtain ⟨agent, ok, ls, c, run, up, undisturbed, claims, active⟩ :=
    plain_run (p := fun ls c => (∀ event ∈ events ls, shutsDown event = false) ∧
        Along ClaimsUndisturbed ls ∧ (events ls).countP claims = 2 ∧
        c.state.agent.activeJobID = some "job_b")
      (startupSchedule ++ [.spawn .pause] ++ smoothSteps 1 1 "" ++ [.spawn .resume] ++
        smoothSteps 2 2 "" ++ [.spawn (.readCoordinator 2)] ++ smoothSteps 3 15 "job_a" ++
        smoothSteps 3 3 "job_b") (by decide +kernel)
  exact ⟨agent, ok, ls, c, run, up, undisturbed, claims, active,
    (one_job_at_a_time ok run up undisturbed).1⟩

/-- A job that is claimed between the two sections of a resume is followed by a second one. -/
theorem resume_frees_busy_node : ∃ agent, newAgent plainOptions none = some agent ∧
    ∃ ls c, (agentMachine agent.opts).Run (.boot (bootAgent agent)) ls c ∧
      (∀ event ∈ events ls, shutsDown event = false) ∧
      (∃ event ∈ events ls, ¬event.after.agent.Occupied) ∧
      working (localTrace 2 ls) = true ∧ working (localTrace 3 ls) = true :=
  plain_run (startupSchedule ++ [.spawn .resume] ++ smoothSteps 1 1 "" ++
    [.spawn (.readCoordinator 1)] ++ smoothSteps 2 3 "job_a" ++ smoothSteps 1 1 "" ++
    [.spawn (.readCoordinator 1)] ++ smoothSteps 3 3 "job_b") (by decide +kernel)

end Thirdshift
