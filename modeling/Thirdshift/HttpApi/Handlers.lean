import Thirdshift.Jobs.Service

/-!
# Handlers

The entry points of the coordinator: developer requests, node sessions, operator actions and the
sweepers. Together they are the machine whose runs are every interleaving of the coordinator.
-/

namespace Thirdshift

open Foundation

def answer (jobID : Option JobID) (a : Answer) : Proc Unit :=
  Prog.perform (S := steps) (.answer jobID a)

def recv (nodeID : NodeID) : Proc (Option Frame) := Prog.perform (S := steps) (.recv nodeID)

def close (nodeID : NodeID) : Proc Unit := Prog.perform (S := steps) (.close nodeID)

/-! ### Developer requests -/

def chatCompletionsEndpoint : String := "/v1/chat/completions"

/-- A chat completion request after authentication and validation. -/
structure ChatCall where
  principal : APIKeyPrincipal
  model : ModelID
  request : ChatRequest
  idempotencyKey : String
  bodyHash : String

def internalError (message : String) : APIError := ⟨codeInternalError, message, true, 500⟩

def waitTimedOut : APIError :=
  ⟨codeJobTimeout, "Job timed out waiting for completion.", true, 504⟩

def authorizedModel (principal : APIKeyPrincipal) (modelID : ModelID) :
    Proc (Except APIError ModelInfo) := do
  if modelID = "" then pure (.error ⟨codeInvalidRequest, "model is required.", false, 400⟩)
  else if modelID ∉ principal.allowedModels then
    pure (.error ⟨codeModelNotFound, "Model not found.", false, 404⟩)
  else
    match ← store .caller (.modelInfo modelID) with
    | .ok model => pure (.ok model)
    | .error (.api e) => pure (.error e)
    | .error (.other _) => pure (.error (internalError "Could not load model."))

/-- `ResolveIdempotency` on a record that was found: a conflict, a replay, or nothing. -/
def resolveIdempotency (record : IdempotencyRow) (requestHash : String) : Option Answer :=
  if record.requestHash ≠ requestHash then
    some (.error ⟨codeInvalidRequest,
      "Idempotency-Key was already used with a different request body.", false, 409⟩)
  else if 0 < record.responseStatus then some (.replay record)
  else none

/-- The answer to an earlier request with the same key, when there is one. -/
def replayed (call : ChatCall) : Proc (Option Answer) := do
  if call.idempotencyKey = "" then pure none
  else
    match ← store .caller
        (.idempotencyRecord call.principal.id chatCompletionsEndpoint call.idempotencyKey) with
    | .error _ => pure (some (.error (internalError "Could not read idempotency record.")))
    | .ok none => pure none
    | .ok (some record) => pure (resolveIdempotency record call.bodyHash)

/-- What is answered for a fresh completion: with a key, the stored record is read back. -/
def freshAnswer (call : ChatCall) (jobID : JobID) (response : OpenAIResponse) : Proc Answer := do
  if call.idempotencyKey = "" then pure (.completion response)
  else
    let _ ← store .caller (.storeIdempotencyResponse call.principal.id chatCompletionsEndpoint
      call.idempotencyKey call.bodyHash jobID response)
    match ← store .caller
        (.idempotencyRecord call.principal.id chatCompletionsEndpoint call.idempotencyKey) with
    | .ok (some record) =>
      if 0 < record.responseStatus then pure (.replay record) else pure (.completion response)
    | _ => pure (.completion response)

/-- The request once its job exists: schedule, wait, answer. -/
def runJob (settings : Settings) (call : ChatCall) (model : ModelInfo) (jobID : JobID)
    (deadlineAt : Time) : Proc Unit := do
  let channel ← mem (.registerWait jobID)
  match ← Service.schedule settings .caller jobID model call.request deadlineAt with
  | .error e =>
    mem (.abandonWait jobID)
    match e with
    | .api apiErr =>
      let at' ← now
      let _ ← store .caller (.failJob jobID "" apiErr.code true at')
      answer (some jobID) (.error apiErr)
    | .other _ => answer (some jobID) (.error (internalError "Could not schedule job."))
  | .ok _ =>
    match ← Prog.perform (S := steps) (.await channel) with
    | some result =>
      if result.error.code ≠ "" then answer (some jobID) (.error result.error)
      else do
        let a ← freshAnswer call jobID result.response
        answer (some jobID) a
    | none =>
      mem (.abandonWait jobID)
      let at' ← now
      let _ ← store .background (.failJob jobID "" waitTimedOut.code true at')
      answer (some jobID) (.error waitTimedOut)

def chatCompletionsHandler (settings : Settings) (call : ChatCall) : Proc Unit := do
  match ← authorizedModel call.principal call.model with
  | .error e => answer none (.error e)
  | .ok model =>
    match ← replayed call with
    | some a => answer none a
    | none =>
      let at' ← now
      let timeout := if 0 < settings.syncTimeout ∧ settings.syncTimeout < seconds 120 then
        settings.syncTimeout else seconds 120
      let deadlineAt := at' + timeout
      match ← store .caller
          (.createJob call.principal.organizationID call.principal.id model.id deadlineAt) with
      | .error _ => answer none (.error (internalError "Could not create job."))
      | .ok jobID => runJob settings call model jobID deadlineAt

def writeErr : GoError → Answer
  | .api e => .error e
  | .other _ => .error (internalError "Internal server error.")

/-- An asynchronous job is stored and never scheduled. -/
def createJobHandler (principal : APIKeyPrincipal) (modelID : ModelID) (deadlineSeconds : Int) :
    Proc Unit := do
  match ← authorizedModel principal modelID with
  | .error e => answer none (.error e)
  | .ok model =>
    let deadline := if deadlineSeconds = 0 then 900 else deadlineSeconds
    if deadline < 1 ∨ 900 < deadline then
      answer none (.error
        ⟨codeInvalidRequest, "deadline_seconds must be between 1 and 900.", false, 400⟩)
    else do
      let at' ← now
      match ← store .caller (.createJob principal.organizationID principal.id model.id
          (at' + seconds deadline)) with
      | .error _ => answer none (.error (internalError "Could not create job."))
      | .ok jobID =>
        match ← store .caller (.getJob principal.organizationID jobID) with
        | .error _ => answer (some jobID) (.error (internalError "Could not load job."))
        | .ok status => answer (some jobID) (.status 202 status)

def getJobHandler (orgID : String) (jobID : JobID) : Proc Unit := do
  match ← store .caller (.getJob orgID jobID) with
  | .error e => answer (some jobID) (writeErr e)
  | .ok status => answer (some jobID) (.status 200 status)

def cancelJobHandler (orgID : String) (jobID : JobID) : Proc Unit := do
  match ← store .caller (.cancelJob orgID jobID) with
  | .error e => answer (some jobID) (writeErr e)
  | .ok () =>
    match ← store .caller (.getJob orgID jobID) with
    | .error e => answer (some jobID) (writeErr e)
    | .ok status => answer (some jobID) (.status 200 status)

/-! ### Node sessions -/

/-- Whether a session goes on after a frame. -/
inductive Next
  | continue
  | leave

def closeWith (nodeID : NodeID) : Proc Next := do
  close nodeID
  pure .leave

def leaveOnError {α : Type} (nodeID : NodeID) : Except GoError α → Proc Next
  | .ok _ => pure .continue
  | .error _ => closeWith nodeID

/-- One frame of the session of `tokenNodeID`. A panic unwinds to the deferred calls. -/
def handleFrame (settings : Settings) (tokenNodeID : NodeID) (sessionID : SessionID) :
    Frame → Proc Next
  | .heartbeat payload => do
    if payload.nodeID ≠ tokenNodeID then closeWith tokenNodeID
    else match payload.state with
      | none => closeWith tokenNodeID
      | some state =>
        let stored ← store .caller (.recordHeartbeat sessionID payload state)
        leaveOnError tokenNodeID stored
  | .stateChanged payload => do
    if payload.nodeID ≠ tokenNodeID then closeWith tokenNodeID
    else match payload.state with
      | none => closeWith tokenNodeID
      | some state =>
        let stored ← store .caller (.recordStateChanged payload.nodeID state)
        leaveOnError tokenNodeID stored
  | .safetyEvent payload => do
    if payload.nodeID ≠ tokenNodeID then closeWith tokenNodeID
    else
      let stored ← store .caller (.recordSafetyEvent payload)
      leaveOnError tokenNodeID stored
  | .job message => do
    match ← Service.handleNodeMessage settings .caller tokenNodeID message with
    | .done (.ok ()) => pure .continue
    | .done (.error _) => closeWith tokenNodeID
    | .panicked => pure .leave
  | _ => closeWith tokenNodeID

/-- The read loop. A session reads some number of frames before its connection ends; `frames`
bounds it from above and stands for any such number. -/
def readLoop (settings : Settings) (tokenNodeID : NodeID) (sessionID : SessionID) :
    Nat → Proc Unit
  | 0 => pure ()
  | frames + 1 => do
    match ← recv tokenNodeID with
    | none => pure ()
    | some frame =>
      match ← handleFrame settings tokenNodeID sessionID frame with
      | .continue => readLoop settings tokenNodeID sessionID frames
      | .leave => pure ()

/-- The part of a session after it is opened and before its deferred `CloseSession`. -/
def serveSession (settings : Settings) (tokenNodeID : NodeID) (sessionID : SessionID)
    (frames : Nat) : Proc Unit := do
  match ← Prog.perform (S := steps) (.greet sessionID) with
  | .error _ => pure ()
  | .ok () =>
    mem (.attachSession tokenNodeID sessionID)
    readLoop settings tokenNodeID sessionID frames
    Service.detach settings tokenNodeID sessionID

/-- `handleSession`. The deferred `CloseSession` was given the instant the session opened. -/
def handleSession (settings : Settings) (tokenNodeID : NodeID) (frames : Nat) : Proc Unit := do
  match ← recv tokenNodeID with
  | some (.hello nodeID _) =>
    if nodeID ≠ tokenNodeID then close tokenNodeID
    else
      match ← store .caller (.openSession tokenNodeID) with
      | .error _ => close tokenNodeID
      | .ok sessionID =>
        let openedAt ← now
        serveSession settings tokenNodeID sessionID frames
        let _ ← store .background (.closeSession sessionID tokenNodeID openedAt)
        pure ()
  | some _ => close tokenNodeID
  | none => pure ()

/-! ### The coordinator -/

inductive Entry
  | chat (call : ChatCall)
  | createJob (principal : APIKeyPrincipal) (modelID : ModelID) (deadlineSeconds : Int)
  | getJob (orgID : String) (jobID : JobID)
  | cancelJob (orgID : String) (jobID : JobID)
  | session (nodeID : NodeID) (frames : Nat)
  | operatorCancel (jobID : JobID)
  | operatorRetry (jobID : JobID)
  | drainNode (nodeID : NodeID)
  | pauseNode (nodeID : NodeID)
  | quarantineNode (nodeID : NodeID)
  | markStale (cutoff : Time)
  | syncManifest (manifest : Manifest)

def single (call : StoreCall) : Proc Unit := do
  let _ ← store .caller call
  pure ()

def program (settings : Settings) : Entry → Proc Unit
  | .chat call => chatCompletionsHandler settings call
  | .createJob principal modelID deadlineSeconds =>
    createJobHandler principal modelID deadlineSeconds
  | .getJob orgID jobID => getJobHandler orgID jobID
  | .cancelJob orgID jobID => cancelJobHandler orgID jobID
  | .session nodeID frames => handleSession settings nodeID frames
  | .operatorCancel jobID => single (.operatorCancelJob jobID)
  | .operatorRetry jobID => single (.operatorRetryJob jobID)
  | .drainNode nodeID => single (.drainNode nodeID)
  | .pauseNode nodeID => single (.pauseNode nodeID)
  | .quarantineNode nodeID => single (.quarantineNode nodeID)
  | .markStale cutoff => single (.markStale cutoff)
  | .syncManifest manifest => Prog.perform (S := steps) (.syncManifest manifest)

def coordinator (settings : Settings) : Machine steps State Input Entry where
  exec := step settings
  program := program settings

end Thirdshift
