import Thirdshift.Jobs.Machine

/-!
# Job service

The methods of `Service` as programs over the coordinator's steps, in the order the source takes
them. `ctx` is the context the source passes down.
-/

namespace Thirdshift

open Foundation

/-! ### Single steps -/

def store (ctx : Ctx) (call : StoreCall) : Proc (Except GoError call.Result) :=
  Prog.perform (S := steps) (.store ctx call)

def mem (call : MemCall) : Proc call.Result := Prog.perform (S := steps) (.mem call)

def now : Proc Time := Prog.perform (S := steps) .now

def send (sessionID : SessionID) (offer : JobOfferPayload) : Proc (Except GoError Unit) :=
  Prog.perform (S := steps) (.send sessionID offer)

def clearActive (nodeID : NodeID) : Proc Unit := mem (.clearActive nodeID)
def removeRun (jobID : JobID) : Proc Unit := mem (.removeRun jobID)

namespace Service

def noCapacity : APIError :=
  ⟨codeNoCapacity, "No eligible node is currently available for this model.", true, 503⟩

def leaseExpired : APIError :=
  ⟨codeJobTimeout, "Job lease expired before node acceptance.", true, 504⟩

def disconnected : APIError :=
  ⟨codeJobFailed, "Node session disconnected before completion.", true, 503⟩

def staleAfter (settings : Settings) : Duration :=
  if settings.staleAfter ≤ 0 then seconds 45 else settings.staleAfter

def leaseTTL (settings : Settings) : Duration :=
  if settings.leaseTTL ≤ 0 then seconds 10 else settings.leaseTTL

/-- The channel is taken out under the mutex and `result` written to it after that. -/
def notify (jobID : JobID) (result : Result) : Proc Unit := do
  match ← mem (.takePending jobID result) with
  | some channel => Prog.perform (S := steps) (.put channel result)
  | none => pure ()

/-- `CreateAttempt`: the number is read first, outside the transaction. -/
def createAttempt (ctx : Ctx) (jobID : JobID) (nodeID : NodeID) (leaseExpiresAt deadlineAt : Time) :
    Proc (Except GoError ScheduledAttempt) := do
  match ← store ctx (.nextAttemptNumber jobID) with
  | .error e => pure (.error e)
  | .ok number =>
    match ← store ctx (.createAttempt jobID nodeID number leaseExpiresAt deadlineAt) with
    | .error e => pure (.error e)
    | .ok attemptID => pure (.ok ⟨jobID, attemptID, nodeID, leaseExpiresAt, deadlineAt⟩)

/-- The part of `scheduleAttemptInternal` after the expiry sweep. -/
def placeAttempt (settings : Settings) (ctx : Ctx) (jobID : JobID) (now : Time) :
    Proc (Except GoError ScheduledAttempt) := do
  match ← mem (.lookupRun jobID) with
  | none => pure (.error (.other "job run context is missing"))
  | some (ref, run) =>
    match ← store ctx (.eligibleNodes run.model.id (now - staleAfter settings)) with
    | .error e => pure (.error e)
    | .ok candidates =>
      match ← mem (.reserve ref jobID candidates) with
      | none => pure (.error (.api noCapacity))
      | some chosen =>
        let deadlineAt := if run.deadlineAt = 0 then now + seconds 120 else run.deadlineAt
        match ← createAttempt ctx jobID chosen.nodeID (now + leaseTTL settings) deadlineAt with
        | .error e =>
          clearActive chosen.nodeID
          pure (.error e)
        | .ok attempt =>
          mem (.setActive chosen.nodeID ⟨jobID, attempt.attemptID⟩)
          match ← send chosen.sessionID ⟨jobID, attempt.attemptID, attempt.leaseExpiresAt,
              attempt.deadlineAt, run.model.id, run.request, .standard⟩ with
          | .error e =>
            clearActive chosen.nodeID
            let _ ← store ctx (.failAttempt jobID attempt.attemptID codeJobFailed true now)
            pure (.error e)
          | .ok () => pure (.ok attempt)

/-- `FailJob`, and once it is written the run is dropped and the waiting request told. -/
def failAndNotify (ctx : Ctx) (jobID : JobID) (attemptID : AttemptID) (code : String)
    (transient : Bool) (occurredAt : Time) (apiErr : APIError) : Proc (Except GoError Unit) := do
  match ← store ctx (.failJob jobID attemptID code transient occurredAt) with
  | .error e => pure (.error e)
  | .ok () =>
    removeRun jobID
    notify jobID (.ofError apiErr)
    pure (.ok ())

def prepareRetry (jobID : JobID) (nodeID : NodeID) : Proc Bool := mem (.prepareRetry jobID nodeID)

def isDuplicateAttempt (attemptID : AttemptID) : Proc Bool := mem (.isDuplicateAttempt attemptID)

/-- A retry after an expiry schedules without another sweep. -/
def retryExpired (settings : Settings) (ctx : Ctx) (attempt : ExpiredAttempt) : Proc Bool := do
  if ← prepareRetry attempt.jobID attempt.nodeID then
    let at' ← now
    match ← placeAttempt settings ctx attempt.jobID at' with
    | .ok _ => pure true
    | .error _ => pure false
  else pure false

def handleExpiredAttempt (settings : Settings) (ctx : Ctx) (attempt : ExpiredAttempt)
    (occurredAt : Time) : Proc (Except GoError Unit) := do
  clearActive attempt.nodeID
  if ← retryExpired settings ctx attempt then pure (.ok ())
  else
    failAndNotify ctx attempt.jobID attempt.attemptID leaseExpired.code true occurredAt leaseExpired

/-- The loop over the expired attempts ends at the first error. -/
def handleExpiredAttempts (settings : Settings) (ctx : Ctx) (occurredAt : Time) :
    List ExpiredAttempt → Proc (Except GoError Unit)
  | [] => pure (.ok ())
  | attempt :: rest => do
    match ← handleExpiredAttempt settings ctx attempt occurredAt with
    | .ok () => handleExpiredAttempts settings ctx occurredAt rest
    | .error e => pure (.error e)

def expireLeases (settings : Settings) (ctx : Ctx) (now : Time) : Proc (Except GoError Unit) := do
  match ← store ctx (.expireLeases now) with
  | .error e => pure (.error e)
  | .ok expired => handleExpiredAttempts settings ctx now expired

def scheduleAttempt (settings : Settings) (ctx : Ctx) (jobID : JobID) :
    Proc (Except GoError ScheduledAttempt) := do
  let at' ← now
  match ← expireLeases settings ctx at' with
  | .error e => pure (.error e)
  | .ok () => placeAttempt settings ctx jobID at'

def schedule (settings : Settings) (ctx : Ctx) (jobID : JobID) (model : ModelInfo)
    (request : ChatRequest) (deadlineAt : Time) : Proc (Except GoError ScheduledAttempt) := do
  mem (.startRun jobID model request deadlineAt)
  scheduleAttempt settings ctx jobID

/-- `transient && s.prepareRetry(jobID, nodeID)`. -/
def retryAllowed (transient : Bool) (jobID : JobID) (nodeID : NodeID) : Proc Bool :=
  if transient then prepareRetry jobID nodeID else pure false

def handleAttemptFailure (settings : Settings) (ctx : Ctx) (nodeID : NodeID) (jobID : JobID)
    (attemptID : AttemptID) (apiErr : APIError) (transient : Bool) (occurredAt : Time)
    (attemptCode : String) : Proc (Except GoError Unit) := do
  clearActive nodeID
  let code := if attemptCode = "" then apiErr.code else attemptCode
  if ← retryAllowed transient jobID nodeID then
    match ← store ctx (.failAttempt jobID attemptID code true occurredAt) with
    | .error e => pure (.error e)
    | .ok () =>
      match ← scheduleAttempt settings ctx jobID with
      | .ok _ => pure (.ok ())
      | .error _ => failAndNotify ctx jobID attemptID code transient occurredAt apiErr
  else failAndNotify ctx jobID attemptID code transient occurredAt apiErr

def detach (settings : Settings) (nodeID : NodeID) (sessionID : SessionID) : Proc Unit := do
  match ← mem (.detachSession nodeID sessionID) with
  | none => pure ()
  | some active =>
    if active.jobID = "" then pure ()
    else do
      let occurredAt ← now
      let _ ← handleAttemptFailure settings .background nodeID active.jobID active.attemptID
        disconnected true occurredAt codeJobFailed
      pure ()

/-! ### Completions -/

def verifyJobCompleted (crypto : Crypto) (publicKey : List UInt8) (payload : JobCompletedPayload) :
    Except String Unit :=
  verifySigned crypto.decodeString crypto.verify publicKey
    (crypto.marshal { payload with signature := none })
    (payload.signature.map fun s => (s.algorithm, s.value))

/-- `ModelHashes`: the release is looked up only when the version pins one. -/
def modelHashes (ctx : Ctx) (modelID : ModelID) : Proc (Except GoError (String × List String)) := do
  match ← store ctx (.modelHash modelID) with
  | .error e => pure (.error e)
  | .ok (hash, none) => pure (.ok (hash, []))
  | .ok (hash, some releaseID) =>
    match ← store ctx (.runtimeHashes releaseID) with
    | .error e => pure (.error e)
    | .ok runtimeHashes => pure (.ok (hash, runtimeHashes))

def verifyCompletion (settings : Settings) (ctx : Ctx) (nodeID : NodeID)
    (payload : JobCompletedPayload) : Proc (Except String Unit) := do
  match ← modelHashes ctx payload.modelID with
  | .error e => pure (.error e.error)
  | .ok (modelHash, runtimeHashes) =>
    if payload.modelHash ≠ modelHash then pure (.error "model hash mismatch")
    else if payload.runtimeHash ∉ runtimeHashes then pure (.error "runtime hash mismatch")
    else
      match ← store ctx (.publicKeyForNode nodeID) with
      | .error e => pure (.error ("lookup node public key: " ++ e.error))
      | .ok encoded =>
        match settings.crypto.decodeString encoded with
        | none => pure (.error "decode node public key: illegal base64 data")
        | some publicKey => pure (verifyJobCompleted settings.crypto publicKey payload)

/-- `CompleteJob`: two reads for the response body, whose failures fall back to defaults, and then
the transaction. -/
def completeJob (settings : Settings) (ctx : Ctx) (payload : JobCompletedPayload)
    (status : String) : Proc (Except GoError OpenAIResponse) := do
  let receivedAt ← now
  let dataClass ← store ctx (.dataClass payload.modelID)
  let attempts ← store ctx (.attemptCount payload.jobID)
  store ctx (.completeJob payload receivedAt settings.creditHold status
    (dataClass.toOption.getD "public_or_non_sensitive") (attempts.toOption.getD (1 : Nat)))

/-- A completion that is refused fails the job, whatever becomes of that write. -/
def rejectCompletion (ctx : Ctx) (nodeID : NodeID) (payload : JobCompletedPayload)
    (message : String) : Proc Unit := do
  clearActive nodeID
  let occurredAt ← now
  let _ ← store ctx (.failJob payload.jobID payload.attemptID codeJobFailed false occurredAt)
  removeRun payload.jobID
  notify payload.jobID (.ofError ⟨codeJobFailed, message, false, 503⟩)

def sampleByID (settings : Settings) (id : JobID) (rate : Int) : Bool :=
  if rate ≤ 0 then false
  else if rate ≥ 10000 then true
  else (settings.sampleValue id : Int) * 10000 < rate * 18446744073709551615

def duplicateDeadline (settings : Settings) (now : Time) : Time :=
  if 0 < settings.syncTimeout ∧ settings.syncTimeout < seconds 30 then now + settings.syncTimeout
  else now + seconds 30

def createVerificationAttempt (ctx : Ctx) (jobID : JobID) (nodeID : NodeID)
    (leaseExpiresAt deadlineAt : Time) : Proc (Except GoError ScheduledAttempt) := do
  match ← store ctx (.nextAttemptNumber jobID) with
  | .error e => pure (.error e)
  | .ok number =>
    match ← store ctx
        (.createVerificationAttempt jobID nodeID number leaseExpiresAt deadlineAt) with
    | .error e => pure (.error e)
    | .ok attemptID => pure (.ok ⟨jobID, attemptID, nodeID, leaseExpiresAt, deadlineAt⟩)

/-- The part of `maybeStartDuplicate` after the node is chosen. -/
def offerDuplicate (settings : Settings) (ctx : Ctx) (originalNodeID : NodeID)
    (payload : JobCompletedPayload) (content : String) (run : RunState) (chosen : Candidate)
    (now : Time) : Proc Unit := do
  let deadlineAt := duplicateDeadline settings now
  match ← createVerificationAttempt ctx payload.jobID chosen.nodeID (now + leaseTTL settings)
      deadlineAt with
  | .error _ => clearActive chosen.nodeID
  | .ok attempt =>
    mem (.setActive chosen.nodeID ⟨payload.jobID, attempt.attemptID⟩)
    mem (.setDuplicateRun attempt.attemptID ⟨payload.jobID, attempt.attemptID, payload.attemptID,
      originalNodeID, content, run.model, run.request, deadlineAt⟩)
    match ← send chosen.sessionID ⟨payload.jobID, attempt.attemptID, attempt.leaseExpiresAt,
        attempt.deadlineAt, run.model.id, run.request, .duplicate⟩ with
    | .error _ =>
      clearActive chosen.nodeID
      let _ ← mem (.removeDuplicateRun attempt.attemptID)
      let _ ← store ctx
        (.markVerificationAttemptFailed payload.jobID attempt.attemptID codeJobFailed now)
      pure ()
    | .ok () => pure ()

def maybeStartDuplicate (settings : Settings) (ctx : Ctx) (originalNodeID : NodeID)
    (payload : JobCompletedPayload) (run : RunState) : Proc Unit := do
  match payload.message with
  | none => pure ()
  | some message =>
    if run.model.duplicateSampleRate ≤ 0 ∨
        ¬sampleByID settings payload.jobID run.model.duplicateSampleRate then pure ()
    else do
      let at' ← now
      match ← store ctx (.eligibleNodes run.model.id (at' - staleAfter settings)) with
      | .error _ => pure ()
      | .ok candidates =>
        match ← mem (.reserveDuplicate payload.jobID originalNodeID candidates) with
        | none => pure ()
        | some chosen =>
          offerDuplicate settings ctx originalNodeID payload message.content run chosen at'

/-- Failures to record issues are ignored. -/
def recordIssues (ctx : Ctx) (payload : JobCompletedPayload) (issues : List MeteringIssue)
    (at' : Time) : Proc Unit :=
  if issues = [] then pure ()
  else do
    let _ ← store ctx (.recordMeteringIssues payload (meteringStatus issues) at')
    pure ()

def markDuplicate (ctx : Ctx) (payload : JobCompletedPayload) (agreement : Bool) (reason : String)
    (at' : Time) : Proc (Except GoError Unit) :=
  if agreement then
    store ctx (.markVerificationAttemptCompleted payload.jobID payload.attemptID at')
  else store ctx (.markVerificationAttemptFailed payload.jobID payload.attemptID reason at')

/-- The credit for a verification attempt; a failure to post it is ignored. -/
def payDuplicate (settings : Settings) (ctx : Ctx) (payload : JobCompletedPayload)
    (refusal : Option String) (at' : Time) : Proc Unit :=
  if refusal.isNone then do
    let _ ← store ctx (.postVerificationOverhead payload settings.creditHold at')
    pure ()
  else pure ()

/-- The completion of a duplicate-verification attempt. -/
def handleDuplicateCompletion (settings : Settings) (ctx : Ctx) (nodeID : NodeID)
    (payload : JobCompletedPayload) : Proc (Except GoError Unit) := do
  let dup ← mem (.removeDuplicateRun payload.attemptID)
  clearActive nodeID
  match dup with
  | none => pure (.error (.other "duplicate verification context is missing"))
  | some dup =>
    let at' ← now
    let outcome := fun (agreement : Bool) (reason : String) =>
      (⟨payload.jobID, payload.attemptID, nodeID, agreement, reason, at'⟩ : Store.DuplicateOutcome)
    match ← verifyCompletion settings ctx nodeID payload with
    | .error message =>
      let _ ← store ctx
        (.markVerificationAttemptFailed payload.jobID payload.attemptID codeJobFailed at')
      let _ ← store ctx (.recordDuplicateOutcome (outcome false message))
      pure (.ok ())
    | .ok () =>
      let (issues, refusal) := validateCompletionForAcceptance dup.request payload
      let agreement := refusal.isNone &&
        payload.message.any (fun m => m.content = dup.expectedContent)
      let reason := refusal.getD (if agreement then "matched" else "completion_disagreement")
      recordIssues ctx payload issues at'
      match ← markDuplicate ctx payload agreement reason at' with
      | .error e => pure (.error e)
      | .ok () =>
        match ← store ctx (.recordDuplicateOutcome (outcome agreement reason)) with
        | .error e => pure (.error e)
        | .ok () =>
          payDuplicate settings ctx payload refusal at'
          pure (.ok ())

/-! ### Node messages -/

/-- How a message handler ends: it returns, with or without an error, or it panics. -/
inductive Outcome
  | done (result : Except GoError Unit)
  | panicked

/-- A duplicate-verification attempt that the node did not complete. -/
def recordDuplicateFailure (ctx : Ctx) (nodeID : NodeID) (jobID : JobID) (attemptID : AttemptID)
    (code : String) (occurredAt : Time) : Proc Unit := do
  let at' ← now
  let _ ← store ctx (.markVerificationAttemptFailed jobID attemptID code at')
  let _ ← store ctx
    (.recordDuplicateOutcome ⟨jobID, attemptID, nodeID, false, code, occurredAt⟩)
  pure ()

def handleJobRejected (settings : Settings) (ctx : Ctx) (nodeID : NodeID)
    (payload : JobRejectedPayload) : Proc Outcome := do
  if ← isDuplicateAttempt payload.attemptID then
    clearActive nodeID
    let _ ← mem (.removeDuplicateRun payload.attemptID)
    recordDuplicateFailure ctx nodeID payload.jobID payload.attemptID payload.reasonCode
      payload.rejectedAt
    pure (.done (.ok ()))
  else
    let occurredAt ← now
    let result ← handleAttemptFailure settings ctx nodeID payload.jobID payload.attemptID
      ⟨codeNoCapacity, payload.message, payload.retryable, 503⟩ payload.retryable occurredAt
      payload.reasonCode
    pure (.done result)

/-- Unlike a rejection, a failure dereferences the duplicate run after its first write: when
another handler has removed the run in the meantime it panics there. -/
def handleJobFailed (settings : Settings) (ctx : Ctx) (nodeID : NodeID)
    (payload : JobFailedPayload) : Proc Outcome := do
  if ← isDuplicateAttempt payload.attemptID then
    clearActive nodeID
    let dup ← mem (.removeDuplicateRun payload.attemptID)
    let at' ← now
    let _ ← store ctx (.markVerificationAttemptFailed payload.jobID payload.attemptID
      payload.errorCode at')
    match dup with
    | none => pure .panicked
    | some _ =>
      let _ ← store ctx (.recordDuplicateOutcome
        ⟨payload.jobID, payload.attemptID, nodeID, false, payload.errorCode, payload.failedAt⟩)
      pure (.done (.ok ()))
  else
    let occurredAt ← now
    let result ← handleAttemptFailure settings ctx nodeID payload.jobID payload.attemptID
      ⟨codeJobFailed, payload.message, payload.retryable, 503⟩ payload.retryable occurredAt
      payload.errorCode
    pure (.done result)

def startDuplicate (settings : Settings) (ctx : Ctx) (nodeID : NodeID)
    (payload : JobCompletedPayload) : Option RunState → Proc Unit
  | some run => maybeStartDuplicate settings ctx nodeID payload run
  | none => pure ()

/-- As `recordIssues`, at the time the issues are found. -/
def flagIssues (ctx : Ctx) (payload : JobCompletedPayload) (issues : List MeteringIssue) :
    Proc Unit :=
  if issues = [] then pure ()
  else do
    let at' ← now
    recordIssues ctx payload issues at'

/-- The completion of a standard attempt, once its hashes and signature are verified. -/
def acceptCompletion (settings : Settings) (ctx : Ctx) (nodeID : NodeID)
    (payload : JobCompletedPayload) : Proc (Except GoError Unit) := do
  let run ← mem (.runSnapshot payload.jobID)
  let request := match run with
    | some run => run.request
    | none => ChatRequest.zero
  let (issues, refusal) := validateCompletionForAcceptance request payload
  flagIssues ctx payload issues
  match refusal with
  | some message =>
    rejectCompletion ctx nodeID payload message
    pure (.ok ())
  | none =>
    let completed ← completeJob settings ctx payload (meteringStatus issues)
    clearActive nodeID
    match completed with
    | .error e => pure (.error e)
    | .ok response =>
      startDuplicate settings ctx nodeID payload run
      removeRun payload.jobID
      notify payload.jobID (.ofResponse response)
      pure (.ok ())

def handleJobCompleted (settings : Settings) (ctx : Ctx) (nodeID : NodeID)
    (payload : JobCompletedPayload) : Proc (Except GoError Unit) := do
  if ← isDuplicateAttempt payload.attemptID then
    handleDuplicateCompletion settings ctx nodeID payload
  else
    match ← verifyCompletion settings ctx nodeID payload with
    | .error message =>
      rejectCompletion ctx nodeID payload message
      pure (.ok ())
    | .ok () => acceptCompletion settings ctx nodeID payload

def handleNodeMessage (settings : Settings) (ctx : Ctx) (nodeID : NodeID) :
    JobMessage → Proc Outcome
  | .accepted payload => do
    let result ← store ctx (.markAccepted payload.jobID payload.attemptID)
    pure (.done result)
  | .started payload => do
    let result ← store ctx (.markStarted payload.jobID payload.attemptID)
    pure (.done result)
  | .rejected payload => handleJobRejected settings ctx nodeID payload
  | .failed payload => handleJobFailed settings ctx nodeID payload
  | .completed payload => do
    let result ← handleJobCompleted settings ctx nodeID payload
    pure (.done result)

end Service

end Thirdshift
