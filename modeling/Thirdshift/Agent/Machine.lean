import Thirdshift.Foundation.Process
import Thirdshift.Protocol

/-!
# The node agent

The goroutines of a node share its state: the main loop, the reader that takes job offers, the
heartbeat, the thermal monitor of a running job and the control socket. Each is a program over the
sections under the mutex and the calls outside of it. Together they are the machine whose runs are
every interleaving of the agent. The status file, which only reports, is left out.
-/

namespace Thirdshift

open Foundation

/-! ### Node states -/

def NodeState.name : NodeState → String
  | .unregistered => "UNREGISTERED"
  | .registering => "REGISTERING"
  | .offline => "OFFLINE"
  | .starting => "STARTING"
  | .benchmarking => "BENCHMARKING"
  | .idle => "IDLE"
  | .preparingModel => "PREPARING_MODEL"
  | .available => "AVAILABLE"
  | .busy => "BUSY"
  | .draining => "DRAINING"
  | .paused => "PAUSED"
  | .error => "ERROR"
  | .updating => "UPDATING"

def legalTransitions : NodeState → List NodeState
  | .unregistered => [.registering]
  | .registering => [.offline, .error]
  | .offline => [.starting, .updating, .error]
  | .starting => [.benchmarking, .idle, .preparingModel, .paused, .draining, .error, .updating,
      .offline]
  | .benchmarking => [.idle, .preparingModel, .paused, .draining, .error, .updating, .offline]
  | .idle => [.preparingModel, .paused, .draining, .error, .updating, .offline]
  | .preparingModel => [.available, .paused, .draining, .error, .updating, .offline]
  | .available => [.busy, .draining, .paused, .error, .updating, .offline]
  | .busy => [.available, .draining, .error, .updating, .offline]
  | .draining => [.available, .paused, .error, .updating, .offline]
  | .paused => [.idle, .preparingModel, .draining, .error, .updating, .offline]
  | .error => [.offline, .starting, .updating]
  | .updating => [.starting, .offline, .error]

def canTransition (src dst : NodeState) : Bool := src = dst || dst ∈ legalTransitions src

def illegalTransition (src dst : NodeState) : String :=
  "illegal node state transition " ++ src.name ++ " -> " ++ dst.name

/-! ### Schedule -/

inductive ScheduleState
  | inWindow | outOfWindow
  deriving DecidableEq

structure ClockTime where
  hour : Nat
  minute : Nat

structure Window where
  start : ClockTime
  stop : ClockTime

def ClockTime.minutes (t : ClockTime) : Nat := t.hour * 60 + t.minute

/-- The state of the schedule, `current` minutes after midnight where the node is. -/
def Window.stateAt (w : Window) (current : Nat) : ScheduleState :=
  let start := w.start.minutes
  let stop := w.stop.minutes
  if start = stop then .inWindow
  else if start < stop then
    if start ≤ current ∧ current < stop then .inWindow else .outOfWindow
  -- the window spans midnight
  else if start ≤ current ∨ current < stop then .inWindow
  else .outOfWindow

/-- `strconv.Atoi` without its bounds, which are above every number a clock can show. -/
def atoi (s : List Char) : Option Int :=
  let (sign, digits) := match s with
    | '+' :: rest => (1, rest)
    | '-' :: rest => (-1, rest)
    | _ => ((1 : Int), s)
  if digits ≠ [] ∧ digits.all Char.isDigit then
    some (sign * digits.foldl (fun n c => 10 * n + (c.toNat - 48)) (0 : Nat))
  else none

def parseClockTime (value : String) : Option ClockTime :=
  match value.toList.span (fun c => c ≠ ':') with
  | (hour, ':' :: minute) =>
    match atoi hour, atoi minute with
    | some h, some m =>
      if 0 ≤ h ∧ h ≤ 23 ∧ 0 ≤ m ∧ m ≤ 59 then some ⟨h.toNat, m.toNat⟩ else none
    | _, _ => none
  | _ => none

def parseWindow (start stop : String) : Option Window :=
  match parseClockTime start, parseClockTime stop with
  | some s, some t => some ⟨s, t⟩
  | _, _ => none

/-! ### Options -/

/-- The options of an agent, or what the configuration file has for them: zero and the empty string
stand for what is not given. -/
structure AgentOptions where
  nodeID : NodeID
  modelID : ModelID
  scheduleFrom : String
  scheduleUntil : String
  maxTempC : Int
  hardTempC : Int
  thermalHysteresis : Int
  pauseIdleTimeout : Duration
  /-- Whether the runtime can be shut down while the node is paused. -/
  runtimeCloses : Bool

namespace AgentOptions

/-- What is not given is taken from the configuration. -/
def mergedWith (opts cfg : AgentOptions) : AgentOptions :=
  { opts with
    modelID := if opts.modelID = "" then cfg.modelID else opts.modelID
    scheduleFrom := if opts.scheduleFrom = "" then cfg.scheduleFrom else opts.scheduleFrom
    scheduleUntil := if opts.scheduleUntil = "" then cfg.scheduleUntil else opts.scheduleUntil
    maxTempC := if opts.maxTempC = 0 then cfg.maxTempC else opts.maxTempC
    hardTempC := if opts.hardTempC = 0 then cfg.hardTempC else opts.hardTempC
    thermalHysteresis :=
      if opts.thermalHysteresis = 0 then cfg.thermalHysteresis else opts.thermalHysteresis
    pauseIdleTimeout :=
      if opts.pauseIdleTimeout = 0 then cfg.pauseIdleTimeout else opts.pauseIdleTimeout }

/-- The options as configured: a configuration that cannot be loaded is passed over. -/
def configured (opts : AgentOptions) (cfg : Option AgentOptions) : AgentOptions :=
  match cfg with
  | some cfg => opts.mergedWith cfg
  | none => opts

def withDefaults (opts : AgentOptions) : AgentOptions :=
  let maxTempC := if opts.maxTempC = 0 then 78 else opts.maxTempC
  -- a hard limit that is missing, or not above the soft one, is set ten degrees above it
  let hardTempC := if opts.hardTempC = 0 then wrap64 (maxTempC + 10) else opts.hardTempC
  { opts with
    modelID := if opts.modelID = "" then "thirdshift-tiny-chat-v1" else opts.modelID
    scheduleFrom := if opts.scheduleFrom = "" then "00:00" else opts.scheduleFrom
    scheduleUntil := if opts.scheduleUntil = "" then "00:00" else opts.scheduleUntil
    maxTempC := maxTempC
    hardTempC := if hardTempC ≤ maxTempC then wrap64 (maxTempC + 10) else hardTempC
    thermalHysteresis := if opts.thermalHysteresis = 0 then 5 else opts.thermalHysteresis
    pauseIdleTimeout := if opts.pauseIdleTimeout = 0 then seconds 300 else opts.pauseIdleTimeout }

end AgentOptions

/-! ### State -/

inductive ThermalState
  | normal | warm | hardLimit
  deriving DecidableEq

structure RuntimeStatus where
  modelID : ModelID
  runtimeHash : String
  modelHash : String
  baseURL : String

def RuntimeStatus.zero : RuntimeStatus := ⟨"", "", "", ""⟩

structure GPUStatus where
  temperatureC : Int
  powerW : Int

/-- What stands in for a telemetry read that failed. -/
def GPUStatus.unavailable : GPUStatus := ⟨0, 0⟩

structure Agent where
  opts : AgentOptions
  window : Window
  state : NodeState
  runtimeStatus : RuntimeStatus
  scheduleState : ScheduleState
  thermalState : ThermalState
  sequence : Int
  activeJobID : Option JobID
  /-- Whether a running job can be cancelled. -/
  activeJobCancel : Bool
  pauseRequested : Bool
  pausedAt : Option Time
  lastSentState : Option NodeState

/-- `New`: a schedule that cannot be parsed is refused. -/
def newAgent (given : AgentOptions) (cfg : Option AgentOptions) : Option Agent :=
  let opts := (given.configured cfg).withDefaults
  (parseWindow opts.scheduleFrom opts.scheduleUntil).map fun window =>
    ⟨opts, window, .offline, .zero, .inWindow, .normal, 0, none, false, false, none, none⟩

namespace Agent

variable (a : Agent)

def forceState (dst : NodeState) : Agent :=
  if a.state = dst then a
  else if canTransition a.state dst then { a with state := dst }
  else match dst with
    | .paused | .draining | .idle | .available => { a with state := dst }
    | _ => a

def transition (dst : NodeState) : Except String Agent :=
  if canTransition a.state dst then .ok { a with state := dst }
  else .error (illegalTransition a.state dst)

/-! ### Thermal state -/

def recoverAt : Int := max (wrap64 (a.opts.maxTempC - a.opts.thermalHysteresis)) 0

def nextThermalState (tempC : Int) : ThermalState :=
  if tempC ≤ 0 ∨ a.opts.maxTempC ≤ 0 then .normal
  else match a.thermalState with
    | .warm | .hardLimit =>
      if tempC ≤ a.recoverAt then .normal
      else if a.opts.hardTempC ≤ tempC then .hardLimit
      else .warm
    | .normal =>
      if a.opts.hardTempC ≤ tempC then .hardLimit
      else if a.opts.maxTempC < tempC then .warm
      else .normal

/-- A change to a thermal state other than normal is reported. -/
def safetyEvent (previous : ThermalState) : Option NodeSafetyEventPayload :=
  if a.thermalState = previous then none
  else match a.thermalState with
    | .normal => none
    | .warm => some ⟨a.opts.nodeID, "over_temperature", "warning"⟩
    | .hardLimit => some ⟨a.opts.nodeID, "thermal_hard_limit", "critical"⟩

/-! ### Guards -/

def runtimeReady : Bool :=
  a.runtimeStatus.modelID ≠ "" && a.runtimeStatus.modelHash ≠ "" &&
    a.runtimeStatus.runtimeHash ≠ "" && a.runtimeStatus.baseURL ≠ ""

/-- Out of a job's way when the node is warm: a busy node drains, one that offers itself idles. -/
def standDown : Agent :=
  if a.activeJobID.isSome ∨ a.state = .busy then a.forceState .draining
  else if a.state = .available ∨ a.state = .preparingModel ∨ a.state = .draining then
    a.forceState .idle
  else a

/-- The switch of `evaluateGuards`, once the schedule and the temperature are read. -/
def guarded : Agent :=
  let active := a.activeJobID.isSome
  if a.pauseRequested ∧ active then a.forceState .draining
  else if a.pauseRequested then a.forceState .paused
  else match a.thermalState with
    | .hardLimit | .warm => a.standDown
    | .normal =>
      if active then a
      else match a.scheduleState with
        | .outOfWindow =>
          if a.state = .available ∨ a.state = .preparingModel then a.forceState .idle else a
        | .inWindow =>
          if (a.state = .idle ∨ a.state = .draining) ∧ a.runtimeReady then a.forceState .available
          else a

/-- A runtime that has been idle in a paused node for long enough is shut down. -/
def idledOut (now : Time) : Agent :=
  if a.state = .paused ∧ a.activeJobID = none ∧ 0 < a.opts.pauseIdleTimeout ∧
      a.pausedAt.any (fun pausedAt => pausedAt + a.opts.pauseIdleTimeout ≤ now) ∧
      a.opts.runtimeCloses ∧ a.runtimeStatus.baseURL ≠ "" then
    { a with runtimeStatus := .zero }
  else a

/-- What `evaluateGuards` reads: the temperature and where the schedule is. -/
def observed (gpu : GPUStatus) (minuteOfDay : Nat) : Agent :=
  { a with
    scheduleState := a.window.stateAt minuteOfDay
    thermalState := a.nextThermalState gpu.temperatureC }

def evaluateGuards (gpu : GPUStatus) (now : Time) (minuteOfDay : Nat) :
    Agent × Option NodeStateChangedPayload × Option NodeSafetyEventPayload :=
  let after := ((a.observed gpu minuteOfDay).guarded).idledOut now
  let safety := after.safetyEvent a.thermalState
  if after.state ≠ a.state ∨ a.lastSentState ≠ some after.state then
    ({ after with lastSentState := some after.state },
      some ⟨a.opts.nodeID, some after.state⟩, safety)
  else (after, none, safety)

def heartbeat (sequence : Int) : NodeHeartbeatPayload :=
  ⟨a.opts.nodeID, sequence, some a.state, a.runtimeStatus.modelID, a.runtimeStatus.runtimeHash,
    a.runtimeStatus.modelHash,
    match a.scheduleState with | .inWindow => "in_window" | .outOfWindow => "out_of_window",
    match a.thermalState with | .normal => "normal" | .warm => "warm" | .hardLimit => "hard_limit",
    a.pauseRequested || a.state = .paused, a.state = .draining⟩

/-! ### Jobs -/

end Agent

/-- `validateOfferRequest`: what the node finds wrong with a request. -/
def validateOfferRequest (request : ChatRequest) : Option String :=
  if request.stream then some "streaming jobs are not supported"
  else if request.messages = [] then some "job request has no messages"
  else if request.maxTokens ≤ 0 ∨ 1024 < request.maxTokens then
    some "job request max_tokens is outside node limits"
  else request.messages.findSome? fun message =>
    if message.role ∉ chatRoles then some "job request contains unsupported role"
    else if isBlank message.content then some "job request contains an empty text message"
    else none

namespace Agent

variable (a : Agent)

def claimJob (offer : JobOfferPayload) : Except String (Agent × RuntimeStatus) :=
  if a.state ≠ .available then .error "node is not available"
  else if a.pauseRequested then .error "node is paused or draining"
  else if a.scheduleState = .outOfWindow then
    .error "node is outside its configured work window"
  else if a.thermalState ≠ .normal then .error "node is thermally blocked"
  else if a.runtimeStatus.modelID ≠ offer.modelID then .error "requested model is not loaded"
  else if a.runtimeStatus.modelHash = "" ∨ a.runtimeStatus.runtimeHash = "" then
    .error "manifest hashes are not ready"
  else if a.runtimeStatus.baseURL = "" then .error "local runtime is not reachable"
  else if canTransition a.state .busy then
    .ok ({ a with activeJobID := some offer.jobID, state := .busy }, a.runtimeStatus)
  else .error (illegalTransition a.state .busy)

def releaseJob (now : Time) : Agent :=
  let released := { a with activeJobID := none, activeJobCancel := false }
  if a.pauseRequested then { released with pausedAt := some now }.forceState .paused
  else if a.scheduleState = .outOfWindow ∨ a.thermalState ≠ .normal then
    released.forceState .idle
  else if a.state = .busy ∨ a.state = .draining then released.forceState .available
  else released

/-- The section of the thermal monitor, which runs when it has read a hard limit. -/
def hardLimited : Agent := { a with thermalState := .hardLimit }.forceState .draining

/-! ### Pause and resume -/

def pause (now : Time) : Agent :=
  if a.activeJobID.isSome then { a with pauseRequested := true }.forceState .draining
  else { a with pauseRequested := true, pausedAt := some now }.forceState .paused

/-- How the first section of `resume` ends. -/
inductive Resumption
  | working | prepare | ready
  deriving DecidableEq

def beginResume : Agent × Resumption :=
  let resumed := { a with pauseRequested := false, pausedAt := none }
  if a.activeJobID.isSome then (resumed, .working)
  else if a.runtimeStatus.modelID = "" ∨ a.runtimeStatus.baseURL = "" then
    (resumed.forceState .preparingModel, .prepare)
  else (resumed, .ready)

def endResume : Agent :=
  if a.scheduleState = .outOfWindow ∨ a.thermalState ≠ .normal then a.forceState .idle
  else a.forceState .available

end Agent

/-! ### Steps -/

/-- The process of an agent: the agent, whether `Run` was called, and whether it has got to its
session loop. -/
structure NodeProcess where
  agent : Agent
  started : Bool
  serving : Bool

inductive Completion
  | failed
  | empty
  | answered (message : ChatMessage) (usage : Usage) (finishReason : String)

structure AgentInput where
  now : Time
  minuteOfDay : Nat
  telemetry : Option GPUStatus
  prepared : Except String RuntimeStatus
  offer : Option JobOfferPayload
  completion : Completion
  safetyReason : Bool
  signature : Option NodeSignature
  sendFails : Bool
  cancelled : Bool

inductive AgentOp
  -- calls outside of the mutex
  | launch
  | serve
  | session
  | now
  | prepare (modelID : ModelID)
  | telemetry
  | readOffer
  | complete (offer : JobOfferPayload)
  | safetyReason
  | sign (payload : JobCompletedPayload)
  | write (frame : Frame)
  -- sections under the mutex
  | transition (dst : NodeState)
  | setRuntime (status : RuntimeStatus)
  | nextSequence
  | evaluateGuards (gpu : GPUStatus)
  | heartbeat (sequence : Int)
  | claimJob (offer : JobOfferPayload)
  | setActiveJobCancel (registered : Bool)
  | isHardThermalBlocked
  | hardLimited (tempC : Int)
  | releaseJob
  | pause
  | beginResume
  | endResume

def AgentOp.Resp : AgentOp → Type
  | .session => Bool
  | .now => Time
  | .prepare _ => Except String RuntimeStatus
  | .telemetry => Option GPUStatus
  | .readOffer => Option JobOfferPayload
  | .complete _ => Completion
  | .safetyReason => Bool
  | .sign _ => Option NodeSignature
  | .write _ => Bool
  | .transition _ => Except String Unit
  | .nextSequence => Int
  | .evaluateGuards _ => Option NodeStateChangedPayload × Option NodeSafetyEventPayload
  | .heartbeat _ => NodeHeartbeatPayload
  | .claimJob _ => Except String RuntimeStatus
  | .isHardThermalBlocked => Bool
  | .beginResume => Agent.Resumption
  | _ => Unit

def agentSteps : Signature := ⟨AgentOp, AgentOp.Resp⟩

/-- One step on the shared state; `none` when the step has to wait. -/
def NodeProcess.step (op : AgentOp) (input : AgentInput) (p : NodeProcess) :
    Option (NodeProcess × op.Resp) :=
  let a := p.agent
  match op with
  -- `Run` is called once
  | .launch => if p.started then none else some ({ p with started := true }, ())
  | .serve => some ({ p with serving := true }, ())
  | .session => some (p, input.cancelled)
  | .now => some (p, input.now)
  | .prepare _ => some (p, input.prepared)
  | .telemetry => some (p, input.telemetry)
  -- there is no session to read from before the loop is reached
  | .readOffer => if p.serving then some (p, input.offer) else none
  | .complete _ => some (p, input.completion)
  | .safetyReason => some (p, input.safetyReason)
  | .sign _ => some (p, input.signature)
  | .write _ => some (p, !input.sendFails)
  | .transition dst =>
    match a.transition dst with
    | .ok agent => some ({ p with agent }, .ok ())
    | .error e => some (p, .error e)
  | .setRuntime status => some ({ p with agent := { a with runtimeStatus := status } }, ())
  | .nextSequence =>
    some ({ p with agent := { a with sequence := a.sequence + 1 } }, a.sequence + 1)
  | .evaluateGuards gpu =>
    let (agent, messages) := a.evaluateGuards gpu input.now input.minuteOfDay
    some ({ p with agent }, messages)
  | .heartbeat sequence => some (p, a.heartbeat sequence)
  | .claimJob offer =>
    match a.claimJob offer with
    | .ok (agent, status) => some ({ p with agent }, .ok status)
    | .error e => some (p, .error e)
  | .setActiveJobCancel registered =>
    some ({ p with agent := { a with activeJobCancel := registered } }, ())
  | .isHardThermalBlocked => some (p, decide (a.thermalState = .hardLimit))
  | .hardLimited _ => some ({ p with agent := a.hardLimited }, ())
  | .releaseJob => some ({ p with agent := a.releaseJob input.now }, ())
  | .pause => some ({ p with agent := a.pause input.now }, ())
  | .beginResume =>
    let (agent, r) := a.beginResume
    some ({ p with agent }, r)
  | .endResume => some ({ p with agent := a.endResume }, ())

/-! ### Goroutines -/

namespace AgentRun

abbrev Proc := Prog agentSteps

def call (op : AgentOp) : Proc op.Resp := Prog.perform (S := agentSteps) op

def now : Proc Time := call .now

def write (frame : Frame) : Proc Bool := call (.write frame)

/-- A session; returns whether the context was cancelled by its end. -/
def session : Proc Bool := call .session

def safetyReason : Proc Bool := call .safetyReason

def isHardThermalBlocked : Proc Bool := call .isHardThermalBlocked

/-- The session loop of `Run`, which ends when the context is cancelled. -/
def sessions : Nat → Proc Unit
  | 0 => pure ()
  | n + 1 => do
    if ← session then
      let _ ← call (.transition .offline)
      pure ()
    else sessions n

def run (modelID : ModelID) (n : Nat) : Proc Unit := do
  call .launch
  match ← call (.transition .starting) with
  | .error _ => pure ()
  | .ok () =>
    match ← call (.transition .preparingModel) with
    | .error _ => pure ()
    | .ok () =>
      match ← call (.prepare modelID) with
      | .error _ =>
        let _ ← call (.transition .error)
        pure ()
      | .ok status =>
        call (.setRuntime status)
        match ← call (.transition .available) with
        | .error _ => pure ()
        | .ok () =>
          call .serve
          sessions n

def sendAll : List Frame → Proc Bool
  | [] => pure true
  | frame :: rest => do
    if ← write frame then sendAll rest else pure false

def sendHeartbeat : Proc Unit := do
  let sequence ← call .nextSequence
  let gpu := (← call .telemetry).getD .unavailable
  let (stateChanged, safetyEvent) ← call (.evaluateGuards gpu)
  if ← sendAll ((stateChanged.map Frame.stateChanged).toList ++
      (safetyEvent.map Frame.safetyEvent).toList) then
    let payload ← call (.heartbeat sequence)
    let _ ← write (.heartbeat payload)
    pure ()
  else pure ()

/-- A failure of the job at hand. Returns whether it was sent. -/
def reportFailed (offer : JobOfferPayload) (code message : String) (retryable : Bool) :
    Proc Bool := do
  let failedAt ← now
  write (.job (.failed ⟨offer.jobID, offer.attemptID, code, message, retryable, failedAt⟩))

/-- The request to the runtime and the message about its result. -/
def answerOffer (offer : JobOfferPayload) (status : RuntimeStatus) :
    Proc Bool := do
  let start ← now
  match ← call (.complete offer) with
  | .failed =>
    -- the monitor of this job stopped it, or the node is at its limit by now
    if ← safetyReason then
      reportFailed offer "safety_limit" "temperature exceeded hard safety limit" true
    else if ← isHardThermalBlocked then
      reportFailed offer "safety_limit" "temperature exceeded hard safety limit" true
    else reportFailed offer "runtime_error" "Local runtime request failed." true
  | .empty => reportFailed offer "empty_completion" "Local runtime returned no choices." false
  | .answered message usage finishReason =>
    let completedAt ← now
    let payload : JobCompletedPayload := ⟨offer.jobID, offer.attemptID, offer.modelID,
      status.runtimeHash, status.modelHash, some message, usage,
      max 0 ((completedAt - start).tdiv 1000), if finishReason = "" then "stop" else finishReason,
      completedAt, none⟩
    match ← call (.sign payload) with
    | none => reportFailed offer "signature_failed" "Node could not sign the job result." false
    | some signature =>
      write (.job (.completed { payload with signature := some signature }))

/-- `handleJobOffer` once the job is claimed, up to the deferred release. -/
def runOffer (offer : JobOfferPayload) (status : RuntimeStatus) :
    Proc Bool := do
  let acceptedAt ← now
  if ← write (.job (.accepted ⟨offer.jobID, offer.attemptID, acceptedAt⟩)) then
    let startedAt ← now
    if ← write (.job (.started ⟨offer.jobID, offer.attemptID, startedAt⟩)) then
      call (.setActiveJobCancel true)
      let sent ← answerOffer offer status
      call (.setActiveJobCancel false)
      pure sent
    else pure false
  else pure false

def reject (offer : JobOfferPayload) (reason : String) : Proc Bool := do
  let rejectedAt ← now
  write (.job (.rejected
    ⟨offer.jobID, offer.attemptID, "node_not_eligible", reason, true, rejectedAt⟩))

def handleJobOffer (offer : JobOfferPayload) : Proc Bool := do
  let at' ← now
  if offer.leaseExpiresAt < at' then reject offer "job lease expired"
  else match validateOfferRequest offer.request with
    | some reason => reject offer reason
    | none =>
      match ← call (.claimJob offer) with
      | .error reason => reject offer reason
      | .ok status =>
        let sent ← runOffer offer status
        call .releaseJob
        pure sent

/-- `readCoordinator`, for at most `n` offers. -/
def readCoordinator : Nat → Proc Unit
  | 0 => pure ()
  | n + 1 => do
    match ← call .readOffer with
    | none => pure ()
    | some offer =>
      if ← handleJobOffer offer then readCoordinator n else pure ()

/-- `monitorJobThermal`, for at most `n` polls. -/
def monitorJobThermal (nodeID : NodeID) (hardTempC : Int) : Nat → Proc Unit
  | 0 => pure ()
  | n + 1 => do
    match ← call .telemetry with
    | none => monitorJobThermal nodeID hardTempC n
    | some gpu =>
      if gpu.temperatureC ≤ 0 ∨ gpu.temperatureC < hardTempC then
        monitorJobThermal nodeID hardTempC n
      else do
        call (.hardLimited gpu.temperatureC)
        let _ ← write (.safetyEvent ⟨nodeID, "thermal_hard_limit", "critical"⟩)
        pure ()

def resume (modelID : ModelID) : Proc Unit := do
  match ← call .beginResume with
  | .working => pure ()
  | .ready => call .endResume
  | .prepare =>
    match ← call (.prepare modelID) with
    | .error _ =>
      let _ ← call (.transition .error)
      pure ()
    | .ok status =>
      call (.setRuntime status)
      call .endResume

end AgentRun

inductive AgentEntry
  | run (n : Nat)
  | heartbeat
  | readCoordinator (n : Nat)
  | monitorJobThermal (n : Nat)
  | pause
  | resume

open AgentRun in
/-- The goroutines of an agent with these options. They are started in any number and at any time,
which includes every time the agent starts them. -/
def agentMachine (opts : AgentOptions) : Machine agentSteps NodeProcess AgentInput AgentEntry where
  exec := fun op input p => p.step op input
  program
    | .run n => run opts.modelID n
    | .heartbeat => sendHeartbeat
    | .readCoordinator n => readCoordinator n
    | .monitorJobThermal n => monitorJobThermal opts.nodeID opts.hardTempC n
    | .pause => call .pause
    | .resume => resume opts.modelID

def bootAgent (agent : Agent) : NodeProcess := ⟨agent, false, false⟩

def plainOptions : AgentOptions := ⟨"node_a", "", "", "", 0, 0, 0, 0, true⟩

end Thirdshift
