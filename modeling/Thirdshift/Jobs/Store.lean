import Mathlib.Data.List.Infix
import Thirdshift.Ledger.Store

/-!
# Job store

The transactions of `PGStore`. Each function is the sequence of its SQL statements; `now` is the
database clock where the source writes `now()`, and identifiers are drawn by the caller.
-/

namespace Thirdshift

open Foundation Tx

/-! ### Reputation -/

/-- A quotient rounded to four decimals, in ten-thousandths. -/
def rate (part total : Int) : Int := (part * 20000 + total) / (2 * total)

def newReputation (nodeID : NodeID) : NodeReputation where
  nodeID := nodeID
  totalAcceptedJobs := 0
  rollingSuccessRate := 6000
  timeoutRate := 0
  hashMismatchCount := 0
  duplicateDisagreementRate := 0
  attemptTotal := 0
  attemptFailed := 0
  duplicateTotal := 0
  duplicateDisagreements := 0
  challengeTotal := 0
  challengeFailed := 0
  challengePassRate := 10000
  quarantinedAt := none

def stringContains (s sub : String) : Bool := decide (sub.toList <:+: s.toList)

def NodeReputation.afterAttempt (r : NodeReputation) (accepted : Bool) (code : String) :
    NodeReputation :=
  let attemptTotal := r.attemptTotal + 1
  let attemptFailed := if accepted then r.attemptFailed else r.attemptFailed + 1
  let mismatch := !accepted &&
    (stringContains code "hash_mismatch" || stringContains code "hash mismatch")
  -- `math.Round(timeoutRate * previousAttempts)`
  let timeoutFailures := (r.timeoutRate * r.attemptTotal * 2 + 10000) / 20000 +
    if !accepted && code = codeJobTimeout then 1 else 0
  { r with
    totalAcceptedJobs := if accepted then r.totalAcceptedJobs + 1 else r.totalAcceptedJobs
    attemptTotal := attemptTotal
    attemptFailed := attemptFailed
    hashMismatchCount := if mismatch then r.hashMismatchCount + 1 else r.hashMismatchCount
    rollingSuccessRate :=
      if attemptTotal > 0 then rate (attemptTotal - attemptFailed) attemptTotal else 6000
    timeoutRate := if attemptTotal > 0 then rate timeoutFailures attemptTotal else 0 }

def NodeReputation.afterDuplicate (r : NodeReputation) (disagreement : Bool) : NodeReputation :=
  let total := r.duplicateTotal + 1
  let disagreements := if disagreement then r.duplicateDisagreements + 1 else r.duplicateDisagreements
  { r with
    duplicateTotal := total
    duplicateDisagreements := disagreements
    duplicateDisagreementRate := if total > 0 then rate disagreements total else 0 }

/-- A challenge is counted, and a failed one may reach the threshold at which the node is
quarantined. -/
def NodeReputation.afterChallenge (r : NodeReputation) (failure : Bool) : NodeReputation :=
  let total := r.challengeTotal + 1
  let failed := if failure then r.challengeFailed + 1 else r.challengeFailed
  { r with
    challengeTotal := total
    challengeFailed := failed
    challengePassRate := if total > 0 then rate (total - failed) total else 10000 }

namespace Store

/-- `INSERT INTO node_reputation … ON CONFLICT (node_id) DO NOTHING`. -/
def ensureReputation (nodeID : NodeID) : SqlTx Unit :=
  write (fun db =>
      if (db.reputation.find? nodeID).isSome then [] else [.insert (.reputation (newReputation nodeID))])
    (fun _ => ())

/-- Ensures the row, locks it, and writes the new values. -/
def updateReputationTx (nodeID : NodeID) (f : NodeReputation → NodeReputation) : SqlTx Unit := do
  ensureReputation nodeID
  match ← selectForUpdate (fun db => db.reputation.find? nodeID) .reputation with
  | none => fail (.other "lock node reputation: no rows in result set")
  | some locked =>
    let _ ← updateReputation (fun r => r.nodeID = nodeID) (fun _ => { f locked with nodeID })
    pure ()

def updateAttemptReputationTx (nodeID : NodeID) (accepted : Bool) (code : String) : SqlTx Unit :=
  updateReputationTx nodeID (fun r => r.afterAttempt accepted code)

def updateDuplicateReputationTx (nodeID : NodeID) (disagreement : Bool) : SqlTx Unit :=
  updateReputationTx nodeID (fun r => r.afterDuplicate disagreement)

def nodeIDForAttemptTx (attemptID : AttemptID) : SqlTx NodeID := do
  match ← select (fun db => db.attempts.find? attemptID) with
  | none => fail (.other "load attempt node for reputation: no rows in result set")
  | some attempt => pure attempt.nodeID

def updateAcceptedReputationTx (attemptID : AttemptID) : SqlTx Unit := do
  let nodeID ← nodeIDForAttemptTx attemptID
  updateAttemptReputationTx nodeID true ""

def updateFailureReputationTx (attemptID : AttemptID) (code : String) : SqlTx Unit := do
  let nodeID ← nodeIDForAttemptTx attemptID
  updateAttemptReputationTx nodeID false code

/-! ### Jobs and attempts -/

def createJob (jobID : JobID) (orgID apiKeyID : String) (modelID : ModelID) (deadlineAt now : Time) :
    SqlTx Unit :=
  insertRow (.job ⟨jobID, orgID, apiKeyID, modelID, .queued, deadlineAt, now, now, none⟩)

def nextAttemptNumber (jobID : JobID) : SqlTx Nat :=
  select fun db =>
    ((db.attempts.rows.filter (fun a => a.jobID = jobID)).map Attempt.attemptNumber).foldl max 0 + 1

def newAttempt (attemptID : AttemptID) (leaseNonce : String) (jobID : JobID) (nodeID : NodeID)
    (attemptNumber : Nat) (leaseExpiresAt deadlineAt now : Time) : Attempt where
  id := attemptID
  jobID := jobID
  nodeID := nodeID
  attemptNumber := attemptNumber
  leaseNonce := leaseNonce
  leaseExpiresAt := leaseExpiresAt
  deadlineAt := deadlineAt
  status := .offered
  transientFailure := false
  errorCode := none
  createdAt := now
  acceptedAt := none
  startedAt := none
  finishedAt := none

/-- The transaction of `CreateAttempt`; the attempt number was read before it began. -/
def createAttempt (attempt : Attempt) : SqlTx Unit := do
  insertRow (.attempt attempt)
  let _ ← updateJobs (fun j => j.id = attempt.jobID)
    (fun j => { j with state := .leased, updatedAt := attempt.createdAt })
  pure ()

def createVerificationAttempt (attempt : Attempt) : SqlTx Unit := insertRow (.attempt attempt)

/-- `UPDATE jobs SET state = 'running' … WHERE id = $1 AND state <> 'succeeded'`. -/
def markJobRunning (jobID : JobID) (at' : Time) : SqlTx Nat :=
  updateJobs (fun j => j.id = jobID ∧ j.state ≠ .succeeded)
    (fun j => { j with state := .running, updatedAt := at' })

def markAccepted (jobID : JobID) (attemptID : AttemptID) (acceptedAt : Time) : SqlTx Unit := do
  let affected ← updateAttempts
    (fun a => a.id = attemptID ∧ a.jobID = jobID ∧ a.status = .offered ∧
      acceptedAt ≤ a.leaseExpiresAt ∧ acceptedAt ≤ a.createdAt + seconds 2)
    (fun a => { a with status := .accepted, acceptedAt := some acceptedAt })
  require (affected ≠ 0) (.other "job attempt was not accepted within the offer window")
  let _ ← markJobRunning jobID acceptedAt
  pure ()

def markStarted (jobID : JobID) (attemptID : AttemptID) (startedAt : Time) : SqlTx Unit := do
  let affected ← updateAttempts
    (fun a => a.id = attemptID ∧ a.jobID = jobID ∧ a.status.taken)
    (fun a => { a with status := .running, startedAt := some startedAt })
  require (affected ≠ 0) (.other "job attempt cannot be marked running from its current state")
  let _ ← markJobRunning jobID startedAt
  pure ()

/-- Milliseconds from the start of the attempt, as the coordinator measured them. -/
def coordinatorDurationMillis (a : Attempt) (receivedAt : Time) : Int :=
  max 0 ((receivedAt - (a.startedAt.or a.acceptedAt).getD a.createdAt) / 1000)

def lockAttempt (jobID : JobID) (attemptID : AttemptID) : SqlTx (Option Attempt) :=
  selectForUpdate (fun db => (db.attempts.find? attemptID).filter (fun a => a.jobID = jobID)) .attempt

theorem lockAttempt_ok {jobID : JobID} {attemptID : AttemptID} {found : Option Attempt}
    {db db' : Db} (ok : exec schema (lockAttempt jobID attemptID) db = .ok (found, db')) :
    found = (db.attempts.find? attemptID).filter (fun a => a.jobID = jobID) ∧ db' = db := by
  refine selectForUpdate_ok (fun a read => ?_) ok
  have present := (Option.filter_eq_some_iff.mp read).1
  have same : db.attempts.put a = db.attempts :=
    Table.put_self (Table.key_of_find? present ▸ present)
  simp [Db.put, same]

/-- The writes of `CompleteJob`, once its checks have passed. -/
def recordAccepted (ids : Nat → String) (payload : JobCompletedPayload) (receivedAt : Time)
    (creditHold : Duration) (meteringStatus : String) (response : OpenAIResponse)
    (attempt : Attempt) : SqlTx Unit := do
  insertRow (.result ⟨ids 0, payload.jobID, payload.attemptID, payload.modelHash,
    payload.runtimeHash, payload.usage.promptTokens, payload.usage.completionTokens,
    payload.durationMillis, coordinatorDurationMillis attempt receivedAt, response, true,
    meteringStatus, "alpha", receivedAt⟩)
  let priceVersion ← Ledger.postAcceptedJob (fun n => ids (n + 1))
    ⟨payload.jobID, payload.attemptID, receivedAt, creditHold, payload.usage.promptTokens,
      payload.usage.completionTokens, 0⟩
  let _ ← updateResults (fun r => r.id = ids 0) (fun r => { r with priceVersion })
  let _ ← updateAttempts (fun a => a.id = payload.attemptID ∧ a.jobID = payload.jobID)
    (fun a => { a with status := .succeeded, finishedAt := some receivedAt })
  let _ ← updateJobs (fun j => j.id = payload.jobID)
    (fun j => { j with
      state := .succeeded, updatedAt := receivedAt, completedAt := some receivedAt })
  updateAcceptedReputationTx payload.attemptID

/-- The transaction of `CompleteJob`. In `SELECT … FOR UPDATE` only the locked row is read again
after a wait, so the `EXISTS` over the other attempts is a read of its own. -/
def completeJob (ids : Nat → String) (payload : JobCompletedPayload) (receivedAt : Time)
    (creditHold : Duration) (meteringStatus : String) (response : OpenAIResponse) :
    SqlTx Unit := do
  let completedByAnother ← select fun db => db.attempts.rows.any fun other =>
    other.jobID = payload.jobID ∧ other.id ≠ payload.attemptID ∧ other.status = .succeeded
  match ← lockAttempt payload.jobID payload.attemptID with
  | none => fail (.other "load attempt for completion: no rows in result set")
  | some attempt =>
    require (¬(completedByAnother ∨ attempt.status = .succeeded))
      (.other "job already has an accepted result")
    require attempt.status.taken
      (.other ("job attempt cannot complete from status " ++ attempt.status.name))
    match attempt.acceptedAt with
    | none => fail (.other "job attempt was never accepted")
    | some acceptedAt =>
      require (acceptedAt ≤ attempt.leaseExpiresAt)
        (.other "job attempt was accepted after lease expiry")
      require (receivedAt ≤ attempt.deadlineAt) (.other "job result arrived after deadline")
      recordAccepted ids payload receivedAt creditHold meteringStatus response attempt

def Attempt.fail (a : Attempt) (code : String) (transient : Bool) (now : Time) : Attempt :=
  { a with
    status := .failed, transientFailure := transient, errorCode := some code, finishedAt := some now }

def failAttempt (jobID : JobID) (attemptID : AttemptID) (code : String) (transient : Bool)
    (now : Time) : SqlTx Unit := do
  let _ ← updateAttempts (fun a => a.id = attemptID ∧ a.jobID = jobID ∧ a.status.live)
    (fun a => Attempt.fail a code transient now)
  updateFailureReputationTx attemptID code
  let _ ← updateJobs (fun j => j.id = jobID ∧ (j.state = .leased ∨ j.state = .running))
    (fun j => { j with state := .queued, updatedAt := now })
  pure ()

/-- The part of `FailJob` about an attempt, which is skipped when none is named. -/
def failNamedAttempt (jobID : JobID) (attemptID : AttemptID) (code : String) (transient : Bool)
    (now : Time) : SqlTx Unit :=
  if attemptID = "" then pure ()
  else do
    let _ ← updateAttempts (fun a => a.id = attemptID ∧ a.jobID = jobID)
      (fun a => Attempt.fail a code transient now)
    updateFailureReputationTx attemptID code

def failJob (jobID : JobID) (attemptID : AttemptID) (code : String) (transient : Bool)
    (now : Time) : SqlTx Unit := do
  failNamedAttempt jobID attemptID code transient now
  let _ ← updateJobs (fun j => j.id = jobID)
    (fun j => { j with state := .failed, updatedAt := now, completedAt := some now })
  pure ()

def markVerificationAttemptCompleted (jobID : JobID) (attemptID : AttemptID) (now : Time) :
    SqlTx Unit := do
  let _ ← updateAttempts (fun a => a.id = attemptID ∧ a.jobID = jobID ∧ a.status.taken)
    (fun a => { a with status := .verified, finishedAt := some now })
  updateAcceptedReputationTx attemptID

def markVerificationAttemptFailed (jobID : JobID) (attemptID : AttemptID) (code : String)
    (now : Time) : SqlTx Unit := do
  let _ ← updateAttempts (fun a => a.id = attemptID ∧ a.jobID = jobID ∧ a.status.live)
    (fun a => Attempt.fail a code true now)
  updateFailureReputationTx attemptID code

/-- `ExpireLeases`: every offered attempt whose lease has run out, with those attempts returned. -/
def expireLeases (now : Time) : SqlTx (List ExpiredAttempt) :=
  let lapsed := fun a : Attempt => decide (a.status = .offered ∧ a.leaseExpiresAt ≤ now)
  write
    (fun db => (db.attempts.updated lapsed (fun a =>
      { a with
        status := .expired, transientFailure := true, errorCode := some codeJobTimeout,
        finishedAt := some now })).map fun a => .update (.attempt a))
    (fun db => (db.attempts.rows.filter lapsed).map fun a => ⟨a.jobID, a.id, a.nodeID⟩)

def cancelJob (orgID : String) (jobID : JobID) (now : Time) : SqlTx Unit := do
  let affected ← updateJobs
    (fun j => j.id = jobID ∧ j.organizationID = orgID ∧ (j.state = .queued ∨ j.state = .leased))
    (fun j => { j with state := .cancelled, updatedAt := now, completedAt := some now })
  require (affected ≠ 0)
    (.api ⟨codeInvalidRequest, "Job cannot be cancelled in its current state.", false, 409⟩)

structure JobStatus where
  id : JobID
  state : JobState
  model : ModelID
  createdAt : Time
  updatedAt : Time
  result : Option OpenAIResponse

/-- `GetJob`: the stored response is shown once the job has succeeded. -/
def getJob (db : Db) (orgID : String) (jobID : JobID) : Except GoError JobStatus :=
  match db.jobs.find? jobID with
  | some j =>
    if j.organizationID = orgID then
      let latest := latestBy JobResult.createdAt
        (db.results.rows.filter fun r => r.jobID = jobID ∧ r.accepted)
      .ok ⟨j.id, j.state, j.modelID, j.createdAt, j.updatedAt,
        if j.state = .succeeded then latest.map JobResult.response else none⟩
    else .error (.api ⟨codeInvalidRequest, "Job not found.", false, 404⟩)
  | none => .error (.api ⟨codeInvalidRequest, "Job not found.", false, 404⟩)

/-! ### Idempotency records -/

def idempotencyRecord (db : Db) (apiKeyID endpoint key : String) (now : Time) :
    Option IdempotencyRow :=
  db.idempotency.rows.find? fun r =>
    r.apiKeyID = apiKeyID ∧ r.endpoint = endpoint ∧ r.idempotencyKey = key ∧ now < r.expiresAt

/-- On a conflict the response and the job are replaced; the request hash and the expiry stay. -/
def storeIdempotencyResponse (row : IdempotencyRow) : SqlTx Unit :=
  write
    (fun db => match db.idempotency.rows.find? fun r => r.apiKeyID = row.apiKeyID ∧
        r.endpoint = row.endpoint ∧ r.idempotencyKey = row.idempotencyKey with
      | some old => [.update (.idempotency { old with
          responseStatus := row.responseStatus, response := row.response, jobID := row.jobID })]
      | none => [.insert (.idempotency row)])
    (fun _ => ())

/-! ### Eligible nodes -/

def latestSession (db : Db) (nodeID : NodeID) : Option NodeSession :=
  latestBy NodeSession.connectedAt
    (db.sessions.rows.filter fun s => s.nodeID = nodeID ∧ s.state = .connected)

def latestHeartbeat (db : Db) (nodeID : NodeID) (sessionID : SessionID) : Option NodeHeartbeat :=
  latestBy NodeHeartbeat.receivedAt
    (db.heartbeats.rows.filter fun h => h.nodeID = nodeID ∧ h.sessionID = sessionID)

def hasLiveAttempt (db : Db) (nodeID : NodeID) : Bool :=
  db.attempts.rows.any fun a => a.nodeID = nodeID ∧ a.status.live

/-- The catalog rows that the hashes of a heartbeat match, one for each GGUF artifact. -/
def matchingArtifacts (catalog : Catalog) (modelID : ModelID) (modelHash runtimeHash : String) :
    List ModelArtifact :=
  (catalog.versions.filter fun mv => mv.modelID = modelID).flatMap fun mv =>
    if mv.runtimeReleaseID.any fun rel => runtimeHash ∈ catalog.runtimeHashes rel then
      catalog.artifacts.filter fun ma => ma.modelVersionID = mv.id ∧ ma.artifactType = "gguf" ∧
        modelHash = "sha256:" ++ ma.sha256
    else []

def candidatesOf (db : Db) (modelID : ModelID) (freshnessCutoff : Time) (n : Node) :
    List Candidate :=
  match latestSession db n.id with
  | none => []
  | some ns =>
    match latestHeartbeat db n.id ns.id with
    | none => []
    | some hb =>
      match hb.modelHash, hb.runtimeHash with
      | some modelHash, some runtimeHash =>
        if n.state = .available ∧ n.currentModelID = some modelID ∧ n.quarantinedAt.isNone ∧
            freshnessCutoff ≤ ns.lastHeartbeatAt.getD ns.connectedAt ∧
            hb.scheduleState = "in_window" ∧ hb.thermalState = "normal" ∧ ¬hb.paused ∧
            ¬hb.draining ∧ ¬hasLiveAttempt db n.id then
          (matchingArtifacts db.catalog modelID modelHash runtimeHash).map fun _ =>
            ⟨n.id, ns.id, modelHash, runtimeHash,
              ((db.reputation.find? n.id).map NodeReputation.rollingSuccessRate).getD 6000⟩
        else []
      | _, _ => []

/-- `EligibleNodes`, in the order of the nodes table: the scheduler orders its candidates. -/
def eligibleNodes (db : Db) (modelID : ModelID) (freshnessCutoff : Time) : List Candidate :=
  db.nodes.rows.flatMap (candidatesOf db modelID freshnessCutoff)

/-! ### Verification records -/

def insertVerificationEvent (eventID : String) (jobID : JobID) (attemptID : AttemptID)
    (nodeID : NodeID) (eventType : String) (status : EventStatus) (now : Time) : SqlTx Unit :=
  insertRow (.event ⟨eventID, jobID, if attemptID = "" then none else some attemptID,
    if nodeID = "" then none else some nodeID, eventType, status, now⟩)

/-- A flagged result is recorded as accepted. -/
def recordMeteringIssues (eventID : String) (payload : JobCompletedPayload) (status : String)
    (now : Time) : SqlTx Unit :=
  insertVerificationEvent eventID payload.jobID payload.attemptID "" "metering_plausibility"
    (if status = "rejected" then .rejected else .accepted) now

structure DuplicateOutcome where
  jobID : JobID
  attemptID : AttemptID
  nodeID : NodeID
  agreement : Bool
  reason : String
  occurredAt : Time

def recordDuplicateOutcome (eventID : String) (outcome : DuplicateOutcome) : SqlTx Unit := do
  insertVerificationEvent eventID outcome.jobID outcome.attemptID outcome.nodeID "duplicate"
    (if outcome.agreement then .accepted else .rejected) outcome.occurredAt
  updateDuplicateReputationTx outcome.nodeID (!outcome.agreement)

/-! ### Challenges -/

structure ChallengeOutcome where
  jobID : JobID
  attemptID : AttemptID
  nodeID : NodeID
  modelID : ModelID
  passed : Bool
  reason : String
  occurredAt : Time

/-- `UPDATE nodes SET quarantined_at = COALESCE(quarantined_at, now)`. -/
def quarantine (nodeID : NodeID) (now : Time) : SqlTx Nat :=
  updateNodes (fun n => n.id = nodeID)
    (fun n => { n with quarantinedAt := some (n.quarantinedAt.getD now) })

/-- Returns whether the failures have reached the threshold; the node is then quarantined. -/
def updateChallengeReputationTx (nodeID : NodeID) (failure : Bool) (failureThreshold : Int)
    (now : Time) : SqlTx Bool := do
  ensureReputation nodeID
  match ← selectForUpdate (fun db => db.reputation.find? nodeID) .reputation with
  | none => fail (.other "lock challenge reputation: no rows in result set")
  | some locked =>
    let counted := locked.afterChallenge failure
    let quarantined := failure && 1 < counted.challengeTotal &&
      failureThreshold ≤ counted.challengeFailed
    let _ ← updateReputation (fun r => r.nodeID = nodeID) (fun r => { r with
      challengeTotal := counted.challengeTotal
      challengeFailed := counted.challengeFailed
      challengePassRate := counted.challengePassRate
      quarantinedAt := if quarantined then some now else r.quarantinedAt })
    if quarantined then do
      let _ ← quarantine nodeID now
      pure true
    else pure false

def recordChallengeOutcome (ids : Nat → String) (outcome : ChallengeOutcome)
    (failureThreshold : Int) : SqlTx Unit := do
  insertVerificationEvent (ids 0) outcome.jobID outcome.attemptID outcome.nodeID "challenge"
    (if outcome.passed then .accepted else .rejected) outcome.occurredAt
  let threshold := if failureThreshold ≤ 0 then 3 else failureThreshold
  if ← updateChallengeReputationTx outcome.nodeID (!outcome.passed) threshold outcome.occurredAt then
    insertVerificationEvent (ids 1) outcome.jobID outcome.attemptID outcome.nodeID "challenge"
      .quarantined outcome.occurredAt
  else pure ()

end Store

end Thirdshift
