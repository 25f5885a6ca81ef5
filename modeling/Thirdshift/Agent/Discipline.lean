import Thirdshift.Agent.Machine

/-!
# What a goroutine of the agent does

Every section that a goroutine enters is justified by what it did before: guards are evaluated on a
reading, a job is released by the goroutine that claimed it, the state is moved outright only during
startup, while resuming, or at shutdown. The startup is one chain of calls of `Run`, the host's
commands enter their own sections only, and a session neither moves the state outright nor touches a
runtime.
-/

namespace Thirdshift

open Foundation AgentRun List Prog

abbrev AgentSeen := List (Obs agentSteps)
abbrev AgentEvent := Event agentSteps NodeProcess AgentInput
abbrev AgentTrace := List (Label agentSteps NodeProcess AgentInput AgentEntry)

abbrev AgentRan (opts : AgentOptions) (agent : Agent) :
    AgentTrace → Config agentSteps NodeProcess → Prop :=
  (agentMachine opts).Run (.boot (bootAgent agent))

abbrev AgentActs (opts : AgentOptions) (c : Config agentSteps NodeProcess) (event : AgentEvent) :
    Config agentSteps NodeProcess → Prop :=
  (agentMachine opts).Step c (.act event)

abbrev AgentEvent.Valid (event : AgentEvent) : Prop :=
  event.before.step event.op event.input = some (event.after, event.resp)

theorem plain_run {p : AgentTrace → Config agentSteps NodeProcess → Prop}
    [∀ ls c, Decidable (p ls c)] (schedule : List (Choice AgentInput AgentEntry))
    (ran : (newAgent plainOptions none).any (fun agent =>
      ((agentMachine agent.opts).runSchedule schedule (.boot (bootAgent agent))).any
        fun result => decide (p result.1 result.2)) = true) :
    ∃ agent, newAgent plainOptions none = some agent ∧
      ∃ ls c, AgentRan agent.opts agent ls c ∧ p ls c := by
  obtain ⟨agent, ok, ran⟩ := (Option.any_eq_true _ _).mp ran
  obtain ⟨ls, c, run, checked⟩ := Machine.exists_run ran
  exact ⟨agent, ok, ls, c, run, of_decide_eq_true checked⟩

def worksAfter (works : Bool) : Obs agentSteps → Bool
  | ⟨.claimJob _, .ok _⟩ => true
  | ⟨.releaseJob, _⟩ => false
  | _ => works

def working (seen : AgentSeen) : Bool := seen.foldl worksAfter false

def resumesAfter (resumes : Bool) : Obs agentSteps → Bool
  | ⟨.beginResume, .prepare⟩ => true
  | ⟨.beginResume, .ready⟩ => true
  | ⟨.endResume, _⟩ => false
  -- the runtime could not be prepared
  | ⟨.transition _, _⟩ => false
  | _ => resumes

/-- The goroutine is between the two sections of `resume`. -/
def resuming (seen : AgentSeen) : Bool := seen.foldl resumesAfter false

@[simp] theorem working_append (seen more : AgentSeen) :
    working (seen ++ more) = more.foldl worksAfter (working seen) := by
  simp [working]

@[simp] theorem resuming_append (seen more : AgentSeen) :
    resuming (seen ++ more) = more.foldl resumesAfter (resuming seen) := by
  simp [resuming]

def AgentOp.isLaunch (op : AgentOp) : Bool := op matches .launch

def AgentOp.isServe (op : AgentOp) : Bool := op matches .serve

def AgentOp.isReadOffer (op : AgentOp) : Bool := op matches .readOffer

/-- The goroutine is the one that has called `Run`. -/
def launched (seen : AgentSeen) : Bool := seen.any fun obs => AgentOp.isLaunch obs.op

def served (seen : AgentSeen) : Bool := seen.any fun obs => AgentOp.isServe obs.op

def AgentDiscipline (opts : AgentOptions) (seen : AgentSeen) : AgentOp → Prop
  | .evaluateGuards gpu => ∃ r : Option GPUStatus, ⟨.telemetry, r⟩ ∈ seen ∧ gpu = r.getD .unavailable
  | .hardLimited tempC => ∃ gpu : GPUStatus, ⟨.telemetry, some gpu⟩ ∈ seen ∧
      tempC = gpu.temperatureC ∧ 0 < tempC ∧ opts.hardTempC ≤ tempC
  | .claimJob offer => working seen = false ∧ ⟨.readOffer, some offer⟩ ∈ seen
  | .releaseJob => working seen = true
  | .endResume => resuming seen = true
  | .transition _ => (⟨.session, true⟩ ∈ seen) ∨ resuming seen = true ∨
      launched seen = true ∧ served seen = false
  | .serve => launched seen = true ∧ served seen = false
  | _ => True

/-- A call that only the startup, the host's commands or the shutdown make. -/
def AgentOp.isControl : AgentOp → Bool
  | .launch | .serve | .session | .prepare _ | .transition _ | .setRuntime _ => true
  | .pause | .beginResume | .endResume => true
  | _ => false

def movedOn : Obs agentSteps → Bool
  | ⟨.transition _, .ok _⟩ => true
  | _ => false

def moves (seen : AgentSeen) : Nat := seen.countP movedOn

@[simp] theorem moves_append (seen more : AgentSeen) :
    moves (seen ++ more) = moves seen + moves more := by
  simp [moves]

def prepareFailed : (op : AgentOp) → op.Resp → Bool
  | .prepare _, .error _ => true
  | _, _ => false

/-- The calls of `Run`: its transitions come in order, and the last one of the startup after the
runtime is prepared. -/
def RunDoes (seen : AgentSeen) : AgentOp → Prop
  | .launch => seen = []
  | .transition dst =>
    launched seen = true ∧
      (served seen = true ∨ dst = .error ∧ (∃ obs ∈ seen, prepareFailed obs.op obs.resp = true) ∨
        served seen = false ∧ moves seen = 0 ∧ dst = .starting ∨
        served seen = false ∧ moves seen = 1 ∧ dst = .preparingModel ∨
        served seen = false ∧ moves seen = 2 ∧ dst = .available)
  | .prepare _ => launched seen = true ∧ served seen = false ∧ moves seen = 2
  | .setRuntime _ => launched seen = true ∧ served seen = false ∧ moves seen = 2
  | .serve => launched seen = true ∧ served seen = false ∧ moves seen = 3
  | .session => served seen = true
  | _ => False

def ResumeDoes (seen : AgentSeen) : AgentOp → Prop
  | .beginResume => seen = []
  | .prepare _ | .setRuntime _ | .endResume => resuming seen = true
  | .transition _ => ∃ obs ∈ seen, prepareFailed obs.op obs.resp = true
  | _ => False

/-- The calls of a reader: a cancel function is installed and removed for a job it has claimed. -/
def ReaderDoes (seen : AgentSeen) (op : AgentOp) : Prop :=
  op.isControl = false ∧ ∀ registered, op = .setActiveJobCancel registered → working seen = true

def AgentEntry.Does : AgentEntry → AgentSeen → AgentOp → Prop
  | .run _ => RunDoes
  | .resume => ResumeDoes
  | .pause => fun _ op => op = .pause
  | .readCoordinator _ => ReaderDoes
  | .heartbeat | .monitorJobThermal _ => fun _ op =>
    op.isControl = false ∧ ∀ registered, op ≠ .setActiveJobCancel registered

/-- A call that is both: justified by what was seen, and one of the goroutine's own. -/
abbrev AgentEntry.Calls (opts : AgentOptions) (entry : AgentEntry) (seen : AgentSeen)
    (op : AgentOp) : Prop := AgentDiscipline opts seen op ∧ entry.Does seen op

section

variable {opts : AgentOptions} {seen : AgentSeen} {n : Nat}

/-! ### The startup and the commands -/

theorem obeys_sessions (m : Nat) (launch : launched seen = true)
    (serve : served seen = true) : (sessions m).Heeds (AgentEntry.Calls opts (.run n)) seen := by
  induction m generalizing seen with
  | zero => trivial
  | succ m ih =>
    refine obeys_call ⟨trivial, serve⟩ fun cancelled => ?_
    have launch' : launched (seen ++ [⟨.session, cancelled⟩]) = true := by
      simp only [launched, any_append] at launch ⊢
      rw [launch, Bool.true_or]
    have serve' : served (seen ++ [⟨.session, cancelled⟩]) = true := by
      simp only [served, any_append] at serve ⊢
      rw [serve, Bool.true_or]
    cases cancelled with
    | true =>
      exact obeys_call ⟨.inl mem_concat_self, launch', .inl serve'⟩ fun _ => trivial
    | false => exact ih launch' serve'

theorem obeys_run (modelID : ModelID) (m : Nat) :
    (run modelID m).Heeds (AgentEntry.Calls opts (.run n)) [] := by
  -- every transition before the session loop is one of the startup
  refine obeys_call ⟨trivial, rfl⟩ fun _ => obeys_call ?_ fun first => ?_
  · exact ⟨.inr (.inr ⟨rfl, rfl⟩), rfl, .inr (.inr (.inl ⟨rfl, rfl, rfl⟩))⟩
  cases first with
  | error e => trivial
  | ok _ =>
    refine obeys_call ?_ fun second => ?_
    · exact ⟨.inr (.inr ⟨rfl, rfl⟩), rfl, .inr (.inr (.inr (.inl ⟨rfl, rfl, rfl⟩)))⟩
    cases second with
    | error e => trivial
    | ok _ =>
      refine obeys_call ⟨trivial, rfl, rfl, rfl⟩ fun prepared => ?_
      cases prepared with
      | error e =>
        refine obeys_call ⟨.inr (.inr ⟨rfl, rfl⟩), rfl, .inr (.inl ⟨rfl, ?_⟩)⟩ fun _ => trivial
        exact ⟨⟨.prepare modelID, .error e⟩, mem_concat_self, rfl⟩
      | ok status =>
        refine obeys_call ⟨trivial, rfl, rfl, rfl⟩ fun _ => obeys_call ?_ fun third => ?_
        · exact ⟨.inr (.inr ⟨rfl, rfl⟩), rfl, .inr (.inr (.inr (.inr ⟨rfl, rfl, rfl⟩)))⟩
        cases third with
        | error e => trivial
        | ok _ =>
          exact obeys_call ⟨⟨rfl, rfl⟩, rfl, rfl, rfl⟩ fun _ => obeys_sessions m rfl rfl

theorem obeys_resume (modelID : ModelID) :
    (resume modelID).Heeds (AgentEntry.Calls opts .resume) [] := by
  refine obeys_call ⟨trivial, rfl⟩ fun began => ?_
  cases began with
  | working => trivial
  | ready => exact obeys_call ⟨rfl, rfl⟩ fun _ => trivial
  | prepare =>
    refine obeys_call ⟨trivial, rfl⟩ fun prepared => ?_
    cases prepared with
    | error e =>
      refine obeys_call ⟨.inr (.inl rfl), ?_⟩ fun _ => trivial
      exact ⟨⟨.prepare modelID, .error e⟩, mem_concat_self, rfl⟩
    | ok status =>
      exact obeys_call ⟨trivial, rfl⟩ fun _ => obeys_call ⟨rfl, rfl⟩ fun _ => trivial

/-! ### Sessions -/

theorem safe_sendAll (frames : List Frame) :
    (sendAll frames).Safe (AgentEntry.Calls opts .heartbeat) := by
  induction frames with
  | nil => exact safe_ret
  | cons frame rest ih =>
    apply safe_call (fun _ => ⟨trivial, rfl, by simp⟩)
    intro sent
    cases sent with
    | true => exact ih
    | false => exact safe_ret

theorem obeys_sendHeartbeat :
    sendHeartbeat.Heeds (AgentEntry.Calls opts .heartbeat) seen := by
  refine obeys_call ⟨trivial, rfl, by simp⟩ fun sequence => ?_
  refine obeys_call ⟨trivial, rfl, by simp⟩ fun reading => ?_
  apply obeys_call
  · exact ⟨⟨reading, mem_concat_self, rfl⟩, rfl, by simp⟩
  · intro messages
    refine (safe_sendAll _).before fun sent seen' _ => ?_
    cases sent with
    | true =>
      refine obeys_call ⟨trivial, rfl, by simp⟩ fun payload => ?_
      exact obeys_call ⟨trivial, rfl, by simp⟩ fun _ => trivial
    | false => trivial

theorem obeys_monitorJobThermal (nodeID : NodeID) (m : Nat) :
    (monitorJobThermal nodeID opts.hardTempC m).Heeds (AgentEntry.Calls opts (.monitorJobThermal n))
      seen := by
  induction m generalizing seen with
  | zero => trivial
  | succ m ih =>
    refine obeys_call ⟨trivial, rfl, by simp⟩ fun reading => ?_
    cases reading with
    | none => exact ih
    | some gpu =>
      simp only
      split
      · exact ih
      next hot =>
        rw [not_or] at hot
        refine obeys_call ⟨⟨gpu, mem_concat_self, rfl, ?_, ?_⟩, rfl, by simp⟩ fun _ =>
          obeys_call ⟨trivial, rfl, by simp⟩ fun _ => trivial
        · omega
        · omega

/-! ### Offers -/

theorem obeys_reportFailed {works : Bool} (works' : working seen = works)
    (offer : JobOfferPayload) (code message : String) (retryable : Bool) :
    (reportFailed offer code message retryable).Obeys (AgentEntry.Calls opts (.readCoordinator n))
      (fun seen' _ => working seen' = works) seen := by
  refine obeys_call ⟨trivial, rfl, by simp⟩ fun _ => ?_
  refine obeys_call ⟨trivial, rfl, by simp⟩ fun _ => ?_
  simpa [worksAfter, Prog.Obeys] using works'

section

variable (works : working seen = true) (offer : JobOfferPayload) (status : RuntimeStatus)
include works offer status

theorem obeys_answerOffer :
    (answerOffer offer status).Obeys (AgentEntry.Calls opts (.readCoordinator n))
      (fun seen' _ => working seen' = true) seen := by
  refine obeys_call ⟨trivial, rfl, by simp⟩ fun start => ?_
  refine obeys_call ⟨trivial, rfl, by simp⟩ fun completion => ?_
  cases completion with
  | failed =>
    refine obeys_call ⟨trivial, rfl, by simp⟩ fun stopped => ?_
    cases stopped with
    | true => exact obeys_reportFailed (by simpa [worksAfter] using works) ..
    | false =>
      refine obeys_call ⟨trivial, rfl, by simp⟩ fun blocked => ?_
      cases blocked <;> exact obeys_reportFailed (by simpa [worksAfter] using works) ..
  | empty => exact obeys_reportFailed (by simpa [worksAfter] using works) ..
  | answered message usage finishReason =>
    refine obeys_call ⟨trivial, rfl, by simp⟩ fun completedAt => ?_
    refine obeys_call ⟨trivial, rfl, by simp⟩ fun signature => ?_
    cases signature with
    | none => exact obeys_reportFailed (by simpa [worksAfter] using works) ..
    | some signed =>
      refine obeys_call ⟨trivial, rfl, by simp⟩ fun _ => ?_
      simpa [worksAfter, Prog.Obeys] using works

theorem obeys_runOffer :
    (runOffer offer status).Obeys (AgentEntry.Calls opts (.readCoordinator n))
      (fun seen' _ => working seen' = true) seen := by
  refine obeys_call ⟨trivial, rfl, by simp⟩ fun acceptedAt => ?_
  refine obeys_call ⟨trivial, rfl, by simp⟩ fun accepted => ?_
  cases accepted with
  | false => simpa [worksAfter, Prog.Obeys] using works
  | true =>
    refine obeys_call ⟨trivial, rfl, by simp⟩ fun startedAt => ?_
    refine obeys_call ⟨trivial, rfl, by simp⟩ fun started => ?_
    cases started with
    | false => simpa [worksAfter, Prog.Obeys] using works
    | true =>
      refine obeys_call ⟨trivial, rfl, fun _ _ => by simpa [worksAfter] using works⟩ fun _ => ?_
      refine (obeys_answerOffer (by simpa [worksAfter] using works) offer status).bind ?_
      intro sent seen' _ still
      refine obeys_call ⟨trivial, rfl, fun _ _ => still⟩ fun _ => ?_
      simpa [worksAfter, Prog.Obeys] using still

end

section

variable (idle : working seen = false)
include idle

theorem obeys_reject (offer : JobOfferPayload)
    (reason : String) : (reject offer reason).Obeys (AgentEntry.Calls opts (.readCoordinator n))
      (fun seen' _ => working seen' = false) seen := by
  refine obeys_call ⟨trivial, rfl, by simp⟩ fun _ => ?_
  refine obeys_call ⟨trivial, rfl, by simp⟩ fun _ => ?_
  simpa [worksAfter, Prog.Obeys] using idle

theorem obeys_handleJobOffer {offer : JobOfferPayload}
    (read : ⟨.readOffer, some offer⟩ ∈ seen) :
    (handleJobOffer offer).Obeys (AgentEntry.Calls opts (.readCoordinator n))
      (fun seen' _ => working seen' = false) seen := by
  refine obeys_call ⟨trivial, rfl, by simp⟩ fun at' => ?_
  have idle' : working (seen ++ [⟨.now, at'⟩]) = false := by simpa [worksAfter] using idle
  split
  · exact obeys_reject idle' ..
  · split
    · exact obeys_reject idle' ..
    · refine obeys_call ⟨⟨idle', mem_append_left _ read⟩, rfl, by simp⟩ fun claimed => ?_
      cases claimed with
      | error reason => exact obeys_reject (by simpa [worksAfter] using idle') ..
      | ok status =>
        refine (obeys_runOffer (by simp [worksAfter]) offer status).bind ?_
        intro sent seen' _ works
        refine obeys_call ⟨works, rfl, by simp⟩ fun _ => ?_
        simp [worksAfter, Prog.Obeys]

theorem obeys_readCoordinator (m : Nat) :
    (readCoordinator m).Heeds (AgentEntry.Calls opts (.readCoordinator n)) seen := by
  induction m generalizing seen with
  | zero => trivial
  | succ m ih =>
    refine obeys_call ⟨trivial, rfl, by simp⟩ fun read => ?_
    cases read with
    | none => trivial
    | some offer =>
      refine (obeys_handleJobOffer (by simpa [worksAfter] using idle) mem_concat_self).bind ?_
      intro sent seen' _ idle'
      cases sent with
      | true => exact ih idle'
      | false => trivial

end

theorem obeys_goroutine (opts : AgentOptions) (entry : AgentEntry) :
    ((agentMachine opts).program entry).Heeds (entry.Calls opts) [] := by
  cases entry with
  | run n => exact obeys_run opts.modelID n
  | heartbeat => exact obeys_sendHeartbeat
  | readCoordinator n => exact obeys_readCoordinator rfl n
  | monitorJobThermal n => exact obeys_monitorJobThermal opts.nodeID n
  | pause => exact obeys_call ⟨trivial, rfl⟩ fun _ => trivial
  | resume => exact obeys_resume opts.modelID

end

section

variable {opts : AgentOptions} {p : NodeProcess} {past : AgentTrace}
  {mid next : Config agentSteps NodeProcess} {event : AgentEvent}
  (run : (agentMachine opts).Run (.boot p) past mid) (step : AgentActs opts mid event next)

include run step

theorem agent_disciplined : AgentDiscipline opts (localTrace event.thread past) event.op := by
  obtain ⟨entry, -, allowed⟩ := run.allowed (I := fun entry => entry.Calls opts)
    (Q := fun _ _ _ => True) (obeys_goroutine opts) step
  exact allowed.1

theorem agent_does : ∃ entry, (entries past)[event.thread]? = some entry ∧
    entry.Does (localTrace event.thread past) event.op := by
  obtain ⟨entry, started, allowed⟩ := run.allowed (I := fun entry => entry.Calls opts)
    (Q := fun _ _ _ => True) (obeys_goroutine opts) step
  exact ⟨entry, started, allowed.2⟩

end

end Thirdshift
