import Thirdshift.Foundation.Process
import Thirdshift.Jobs.Metering
import Thirdshift.Jobs.Scheduler
import Thirdshift.Registration.Store

/-!
# Atomic steps of the coordinator

The coordinator's handlers run concurrently. Between two steps of one handler any number of steps
of the others may happen; a step is one SQL transaction, one section under `Service.mu`, or one
operation on a connection or a channel. This module lists the steps and what each does.
-/

namespace Thirdshift

open Foundation

/-! ### Database calls -/

inductive StoreCall
  | createJob (orgID apiKeyID : String) (modelID : ModelID) (deadlineAt : Time)
  | modelInfo (modelID : ModelID)
  | eligibleNodes (modelID : ModelID) (freshnessCutoff : Time)
  | nextAttemptNumber (jobID : JobID)
  | createAttempt (jobID : JobID) (nodeID : NodeID) (attemptNumber : Nat)
      (leaseExpiresAt deadlineAt : Time)
  | createVerificationAttempt (jobID : JobID) (nodeID : NodeID) (attemptNumber : Nat)
      (leaseExpiresAt deadlineAt : Time)
  | markAccepted (jobID : JobID) (attemptID : AttemptID)
  | markStarted (jobID : JobID) (attemptID : AttemptID)
  | dataClass (modelID : ModelID)
  | attemptCount (jobID : JobID)
  | completeJob (payload : JobCompletedPayload) (receivedAt : Time) (creditHold : Duration)
      (meteringStatus : String) (dataClass : String) (attempts : Nat)
  | failAttempt (jobID : JobID) (attemptID : AttemptID) (code : String) (transient : Bool)
      (occurredAt : Time)
  | failJob (jobID : JobID) (attemptID : AttemptID) (code : String) (transient : Bool)
      (occurredAt : Time)
  | markVerificationAttemptCompleted (jobID : JobID) (attemptID : AttemptID) (occurredAt : Time)
  | markVerificationAttemptFailed (jobID : JobID) (attemptID : AttemptID) (code : String)
      (occurredAt : Time)
  | postVerificationOverhead (payload : JobCompletedPayload) (creditHold : Duration)
      (receivedAt : Time)
  | recordMeteringIssues (payload : JobCompletedPayload) (status : String) (occurredAt : Time)
  | recordDuplicateOutcome (outcome : Store.DuplicateOutcome)
  | modelHash (modelID : ModelID)
  | runtimeHashes (releaseID : String)
  | publicKeyForNode (nodeID : NodeID)
  | expireLeases (now : Time)
  | cancelJob (orgID : String) (jobID : JobID)
  | getJob (orgID : String) (jobID : JobID)
  | idempotencyRecord (apiKeyID endpoint key : String)
  | storeIdempotencyResponse (apiKeyID endpoint key requestHash : String) (jobID : JobID)
      (response : OpenAIResponse)
  | openSession (nodeID : NodeID)
  | recordHeartbeat (sessionID : SessionID) (payload : NodeHeartbeatPayload) (state : NodeState)
  | recordStateChanged (nodeID : NodeID) (state : NodeState)
  | recordSafetyEvent (payload : NodeSafetyEventPayload)
  | closeSession (sessionID : SessionID) (nodeID : NodeID) (openedAt : Time)
  | markStale (cutoff : Time)
  | operatorCancelJob (jobID : JobID)
  | operatorRetryJob (jobID : JobID)
  | drainNode (nodeID : NodeID)
  | pauseNode (nodeID : NodeID)
  | quarantineNode (nodeID : NodeID)

def StoreCall.Result : StoreCall → Type
  | .createJob .. => JobID
  | .modelInfo _ => ModelInfo
  | .eligibleNodes .. => List Candidate
  | .nextAttemptNumber _ => Nat
  | .createAttempt .. => AttemptID
  | .createVerificationAttempt .. => AttemptID
  | .dataClass _ => String
  | .attemptCount _ => Nat
  | .completeJob .. => OpenAIResponse
  | .modelHash _ => String × Option String
  | .runtimeHashes _ => List String
  | .publicKeyForNode _ => String
  | .expireLeases _ => List ExpiredAttempt
  | .getJob .. => Store.JobStatus
  | .idempotencyRecord .. => Option IdempotencyRow
  | .openSession _ => SessionID
  | _ => Unit

/-- What the coordinator does not control about a step: the clocks, the identifiers drawn, whether
the database or a write to a connection fails or the caller's context is cancelled, what a read
yields, and which case a `select` takes. -/
structure Input where
  now : Time
  dbNow : Time
  ids : Nat → String
  databaseFails : Bool
  contextCancelled : Bool
  sendFails : Bool
  frame : Option Frame
  resultReady : Bool

def noRows (what : String) : GoError := .other (what ++ "no rows in result set")

def selectOne {α : Type} (q : Db → Option α) (missing : GoError) : SqlTx α := do
  match ← Tx.select q with
  | some a => pure a
  | none => Tx.fail missing

def completionID (resultID : String) : String :=
  if "res_".isPrefixOf resultID then "chatcmpl_" ++ String.ofList (resultID.toList.drop 4)
  else resultID

/-- The response body `CompleteJob` builds before its transaction. -/
def completionResponse (resultID : String) (payload : JobCompletedPayload) (dataClass : String)
    (attempts : Nat) : OpenAIResponse where
  id := completionID resultID
  created := payload.completedAt
  model := payload.modelID
  message := payload.message.getD ⟨"assistant", ""⟩
  finishReason := payload.finishReason
  usage := payload.usage
  thirdshift := ⟨payload.jobID, attempts, dataClass⟩

def StoreCall.tx (input : Input) : (call : StoreCall) → SqlTx call.Result
  | .createJob orgID apiKeyID modelID deadlineAt => do
    Store.createJob (input.ids 0) orgID apiKeyID modelID deadlineAt input.dbNow
    pure (input.ids 0)
  | .modelInfo modelID => selectOne (fun db => db.catalog.modelInfo modelID)
      (.api ⟨codeModelNotFound, "Model not found.", false, 404⟩)
  | .eligibleNodes modelID cutoff => Tx.select fun db => Store.eligibleNodes db modelID cutoff
  | .nextAttemptNumber jobID => Store.nextAttemptNumber jobID
  | .createAttempt jobID nodeID number leaseExpiresAt deadlineAt => do
    Store.createAttempt (Store.newAttempt (input.ids 0) (input.ids 1) jobID nodeID number
      leaseExpiresAt deadlineAt input.dbNow)
    pure (input.ids 0)
  | .createVerificationAttempt jobID nodeID number leaseExpiresAt deadlineAt => do
    Store.createVerificationAttempt (Store.newAttempt (input.ids 0) (input.ids 1) jobID nodeID
      number leaseExpiresAt deadlineAt input.dbNow)
    pure (input.ids 0)
  | .markAccepted jobID attemptID => Store.markAccepted jobID attemptID input.now
  | .markStarted jobID attemptID => Store.markStarted jobID attemptID input.now
  | .dataClass modelID => selectOne (fun db => db.catalog.dataClass? modelID) (noRows "")
  | .attemptCount jobID => Tx.select fun db =>
      (db.attempts.rows.filter fun a => a.jobID = jobID).length
  | .completeJob payload receivedAt creditHold status cls attempts => do
    let response := completionResponse (input.ids 0) payload cls attempts
    Store.completeJob input.ids payload receivedAt creditHold status response
    pure response
  | .failAttempt jobID attemptID code transient occurredAt =>
    Store.failAttempt jobID attemptID code transient occurredAt
  | .failJob jobID attemptID code transient occurredAt =>
    Store.failJob jobID attemptID code transient occurredAt
  | .markVerificationAttemptCompleted jobID attemptID occurredAt =>
    Store.markVerificationAttemptCompleted jobID attemptID occurredAt
  | .markVerificationAttemptFailed jobID attemptID code occurredAt =>
    Store.markVerificationAttemptFailed jobID attemptID code occurredAt
  | .postVerificationOverhead payload creditHold receivedAt =>
    Ledger.postVerificationOverhead input.ids
      ⟨payload.jobID, payload.attemptID, receivedAt, creditHold, payload.usage.completionTokens⟩
  | .recordMeteringIssues payload status occurredAt =>
    Store.recordMeteringIssues (input.ids 0) payload status occurredAt
  | .recordDuplicateOutcome outcome => Store.recordDuplicateOutcome (input.ids 0)
      { outcome with
        occurredAt := if outcome.occurredAt = 0 then input.now else outcome.occurredAt }
  | .modelHash modelID => selectOne (fun db => db.catalog.modelHash modelID)
      (.api ⟨codeModelNotFound, "Model not found.", false, 404⟩)
  | .runtimeHashes releaseID => Tx.select fun db => db.catalog.runtimeHashes releaseID
  | .publicKeyForNode nodeID =>
    selectOne (fun db => db.catalog.publicKeyForNode nodeID) (noRows "lookup node public key: ")
  | .expireLeases now => Store.expireLeases now
  | .cancelJob orgID jobID => Store.cancelJob orgID jobID input.now
  | .getJob orgID jobID => do
    match ← Tx.select fun db => Store.getJob db orgID jobID with
    | .ok status => pure status
    | .error e => Tx.fail e
  | .idempotencyRecord apiKeyID endpoint key =>
    Tx.select fun db => Store.idempotencyRecord db apiKeyID endpoint key input.dbNow
  | .storeIdempotencyResponse apiKeyID endpoint key requestHash jobID response =>
    Store.storeIdempotencyResponse ⟨input.ids 0, apiKeyID, endpoint, key, requestHash, 200, response,
      jobID, input.now + seconds (24 * 60 * 60)⟩
  | .openSession nodeID => do
    SessionStore.openSession (input.ids 0) nodeID input.now
    pure (input.ids 0)
  | .recordHeartbeat sessionID payload state =>
    SessionStore.recordHeartbeat (input.ids 0) sessionID payload state input.now
  | .recordStateChanged nodeID state => SessionStore.recordStateChanged nodeID state
  | .recordSafetyEvent payload => SessionStore.recordSafetyEvent payload
  | .closeSession sessionID nodeID openedAt => SessionStore.closeSession sessionID nodeID openedAt
  | .markStale cutoff => SessionStore.markStale cutoff input.now
  | .operatorCancelJob jobID => OperatorStore.cancelJob jobID input.now
  | .operatorRetryJob jobID => OperatorStore.retryJob jobID input.now
  | .drainNode nodeID => OperatorStore.drainNode nodeID
  | .pauseNode nodeID => OperatorStore.pauseNode nodeID
  | .quarantineNode nodeID => OperatorStore.quarantineNode nodeID input.now

end Thirdshift
