import Thirdshift.Coordinator.Events

/-!
# Thread discipline

What a thread of the coordinator has seen when it makes a call that others rely on: a waiter is
registered for a job just created and told what the thread has written, a completion is committed
after its hashes and signature were checked, an attempt is created on a node just reserved, and a
session writes about attempts that its messages or its sweeps have named.
-/

namespace Thirdshift

open Foundation

abbrev Seen := List (Obs steps)

def SawCompleted (past : Seen) (jobID : JobID) : Prop :=
  ∃ obs ∈ past, ∃ attemptID,
    (committed obs.op obs.resp).bind StoreCall.completion = some (jobID, attemptID)

def SawResponse (past : Seen) (jobID : JobID) (response : OpenAIResponse) : Prop :=
  ∃ obs ∈ past, responded obs.op obs.resp = some (jobID, response)

def CalledFailJob (past : Seen) (jobID : JobID) : Prop :=
  ∃ ctx attemptID code transient at' r,
    ⟨.store ctx (.failJob jobID attemptID code transient at'), r⟩ ∈ past

/-- The result is what the thread has written to the database about the job. -/
def Reports (past : Seen) (jobID : JobID) (result : Result) : Prop :=
  (result.error.code = "" ∧ SawCompleted past jobID ∧ SawResponse past jobID result.response) ∨
    (result.error.code ≠ "" ∧ CalledFailJob past jobID)

def SawText (past : Seen) (jobID : JobID) (content : String) : Prop :=
  ∃ obs ∈ past, completedText obs.op obs.resp = some (jobID, content)

def Verifying (past : Seen) (jobID : JobID) (attemptID : AttemptID) : Prop :=
  ∃ obs ∈ past, verifying obs.op obs.resp = some (jobID, attemptID)

def TookDuplicate (past : Seen) (attemptID : AttemptID) (dup : DuplicateRun) : Prop :=
  ⟨.mem (.removeDuplicateRun attemptID), some dup⟩ ∈ past

def MarkedVerified (past : Seen) (jobID : JobID) (attemptID : AttemptID) (at' : Time) : Prop :=
  ∃ ctx, ⟨.store ctx (.markVerificationAttemptCompleted jobID attemptID at'), .ok ()⟩ ∈ past

/-- The text of the completion is the one that the duplicate run expects. -/
def DuplicateRun.agrees (dup : DuplicateRun) (payload : JobCompletedPayload) : Bool :=
  payload.message.any fun message => message.content = dup.expectedContent

def Waited (past : Seen) (jobID : JobID) (channel : Nat) : Prop :=
  ⟨.mem (.registerWait jobID), channel⟩ ∈ past

def Abandoned (past : Seen) (jobID : JobID) : Prop :=
  ∃ r, ⟨.mem (.abandonWait jobID), r⟩ ∈ past

def Received (past : Seen) (channel : Nat) (result : Result) : Prop :=
  ⟨.await channel, some result⟩ ∈ past

/-- A call that did not do what it was made for: a database call or an offer that failed, or a run
that was not found. -/
def faulty : (op : Op) → op.Resp → Bool
  | .store _ _, .error _ => true
  | .send _ _, .error _ => true
  | .mem (.lookupRun _), none => true
  | _, _ => false

def Faulted (past : Seen) : Prop := ∃ obs ∈ past, faulty obs.op obs.resp = true

/-- An error that is not an `APIError` has its cause in what the thread has seen. -/
def Excused {α : Type} (past : Seen) (result : Except GoError α) : Prop :=
  ∀ message, result = .error (.other message) → Faulted past

inductive Ends (past : Seen) (jobID : JobID) : Answer → Prop
  | unscheduled {message : String} (abandoned : Abandoned past jobID) (faulted : Faulted past) :
      Ends past jobID (.error (internalError message))
  | abandoned {e : APIError} (abandoned : Abandoned past jobID)
      (failed : CalledFailJob past jobID) : Ends past jobID (.error e)
  | reported {channel : Nat} {result : Result} (waited : Waited past jobID channel)
      (received : Received past channel result) (failed : result.error.code ≠ "") :
      Ends past jobID (.error result.error)
  | completed {a : Answer} {channel : Nat} {result : Result} (waited : Waited past jobID channel)
      (received : Received past channel result) (ok : result.error.code = "")
      (fresh : ∀ e, a ≠ .error e) : Ends past jobID a

/-- The thread has checked the hashes of the payload against the model it names, and its signature
under the key of the node. -/
structure Verified (settings : Settings) (past : Seen) (nodeID : NodeID)
    (payload : JobCompletedPayload) : Prop where
  hashes : ∃ (ctx : Ctx) (releaseID : String) (runtimeHashes : List String),
    ⟨.store ctx (.modelHash payload.modelID), .ok (payload.modelHash, some releaseID)⟩ ∈ past ∧
    ⟨.store ctx (.runtimeHashes releaseID), .ok runtimeHashes⟩ ∈ past ∧
    payload.runtimeHash ∈ runtimeHashes
  signature : ∃ ctx encoded publicKey,
    ⟨.store ctx (.publicKeyForNode nodeID), .ok encoded⟩ ∈ past ∧
    settings.crypto.decodeString encoded = some publicKey ∧
    Service.verifyJobCompleted settings.crypto publicKey payload = .ok ()

/-- The thread has just reserved the node for the job and read the number of its next attempt. -/
def Reserved (past : Seen) (jobID : JobID) (nodeID : NodeID) : Prop :=
  ∃ earlier ctx ref candidates chosen number, chosen.nodeID = nodeID ∧
    past = earlier ++ [⟨.mem (.reserve ref jobID candidates), some chosen⟩,
      ⟨.store ctx (.nextAttemptNumber jobID), .ok number⟩]

def ReservedDuplicate (past : Seen) (jobID : JobID) (nodeID : NodeID) : Prop :=
  ∃ earlier ctx originalNodeID candidates chosen number, chosen.nodeID = nodeID ∧
    past = earlier ++ [⟨.mem (.reserveDuplicate jobID originalNodeID candidates), some chosen⟩,
      ⟨.store ctx (.nextAttemptNumber jobID), .ok number⟩]

def Placed (past : Seen) (nodeID : NodeID) : Prop :=
  ∃ earlier ctx jobID number leaseExpiresAt deadlineAt attemptID,
    (Reserved earlier jobID nodeID ∧ past = earlier ++
      [⟨.store ctx (.createAttempt jobID nodeID number leaseExpiresAt deadlineAt), .ok attemptID⟩]) ∨
    (ReservedDuplicate earlier jobID nodeID ∧ past = earlier ++
      [⟨.store ctx (.createVerificationAttempt jobID nodeID number leaseExpiresAt deadlineAt),
        .ok attemptID⟩])

/-! ### What a session may write about -/

/-- A message of the node or a sweep of the thread has named the attempt. -/
def Named (past : Seen) (nodeID : NodeID) (jobID : JobID) (attemptID : AttemptID) : Prop :=
  (∃ message, ⟨.recv nodeID, some (.job message)⟩ ∈ past ∧ message.jobID = jobID ∧
    message.attemptID = attemptID) ∨
  ∃ (ctx : Ctx) (now : Time) (expired : List ExpiredAttempt),
    ⟨.store ctx (.expireLeases now), .ok expired⟩ ∈ past ∧
    ∃ attempt ∈ expired, attempt.jobID = jobID ∧ attempt.attemptID = attemptID

def Op.detaches : Op → Bool
  | .mem (.detachSession ..) => true
  | _ => false

def Undetached (past : Seen) : Prop := ∀ obs ∈ past, Op.detaches obs.op = false
  deriving Decidable

/-- The thread is not a session, or the attempt was named to it. -/
def Mine (entry : Entry) (past : Seen) (jobID : JobID) (attemptID : AttemptID) : Prop :=
  ∀ nodeID frames, entry = .session nodeID frames → Undetached past →
    Named past nodeID jobID attemptID

def MyJob (entry : Entry) (past : Seen) (jobID : JobID) : Prop :=
  ∀ nodeID frames, entry = .session nodeID frames → Undetached past →
    ∃ attemptID, Named past nodeID jobID attemptID

def SendFailed (past : Seen) : Prop :=
  ∃ sessionID offer e, (⟨.send sessionID offer, .error e⟩ : Obs steps) ∈ past

def NoSession (entry : Entry) : Prop := ∀ nodeID frames, entry ≠ .session nodeID frames

/-! ### What a request has seen -/

def Op.createsJob : Op → Bool
  | .store _ (.createJob ..) => true
  | _ => false

def Op.answers : Op → Bool
  | .answer .. => true
  | _ => false

def Untouched (past : Seen) : Prop :=
  ∀ obs ∈ past, Op.createsJob obs.op = false ∧ Op.answers obs.op = false

def HasCreated (past : Seen) : Prop := ∃ obs ∈ past, Op.createsJob obs.op = true

def CreatedJob (past : Seen) (jobID : JobID) : Prop :=
  ∃ obs ∈ past, createdJob obs.op obs.resp = some jobID

def ChatCall.lookup (call : ChatCall) : Op :=
  .store .caller (.idempotencyRecord call.principal.id chatCompletionsEndpoint call.idempotencyKey)

def Missed (call : ChatCall) (past : Seen) : Prop :=
  ∃ record : Option IdempotencyRow, ⟨call.lookup, .ok record⟩ ∈ past ∧
    ∀ row ∈ record, resolveIdempotency row call.bodyHash = none

/-- The record was found under the key of the request: by the early look-up and with its hash, or by
the look-up after its job. -/
def FromRecord (call : ChatCall) (past : Seen) (row : IdempotencyRow) : Prop :=
  ∃ earlier later, past = earlier ++ ⟨call.lookup, .ok (some row)⟩ :: later ∧
    (row.requestHash = call.bodyHash ∨ HasCreated earlier)

def Delivered (past : Seen) (jobID : JobID) (response : OpenAIResponse) : Prop :=
  CreatedJob past jobID ∧ ∃ channel result, Waited past jobID channel ∧
    Received past channel result ∧ result.error.code = "" ∧ result.response = response

def Answers (call : ChatCall) (past : Seen) (jobID : Option JobID) (a : Answer) : Prop :=
  (∀ id ∈ jobID, Ends past id a) ∧ ∀ row, a = .replay row → FromRecord call past row

def StoreCall.Disciplined (settings : Settings) (entry : Entry) (past : Seen) : StoreCall → Prop
  | .completeJob payload .. => (∃ nodeID frames, entry = .session nodeID frames ∧
      Verified settings past nodeID payload) ∧ Mine entry past payload.jobID payload.attemptID
  | .createAttempt jobID nodeID .. => Reserved past jobID nodeID ∧ MyJob entry past jobID
  | .createVerificationAttempt jobID nodeID .. =>
    ReservedDuplicate past jobID nodeID ∧ SawCompleted past jobID
  | .markAccepted jobID attemptID => Mine entry past jobID attemptID
  | .markStarted jobID attemptID => Mine entry past jobID attemptID
  | .failAttempt jobID attemptID .. => Mine entry past jobID attemptID ∨ SendFailed past
  | .failJob jobID attemptID .. => Mine entry past jobID attemptID
  | .markVerificationAttemptCompleted jobID attemptID _ => Mine entry past jobID attemptID
  | .markVerificationAttemptFailed jobID attemptID .. =>
    Mine entry past jobID attemptID ∨ SendFailed past
  | .postVerificationOverhead payload _ receivedAt =>
    Mine entry past payload.jobID payload.attemptID ∧ ∃ nodeID frames dup,
      entry = .session nodeID frames ∧ Verified settings past nodeID payload ∧
      TookDuplicate past payload.attemptID dup ∧
      (dup.agrees payload = true → MarkedVerified past payload.jobID payload.attemptID receivedAt)
  | .recordDuplicateOutcome outcome =>
    ∀ nodeID frames, entry = .session nodeID frames → outcome.nodeID = nodeID
  | .createJob orgID apiKeyID .. => NoSession entry ∧ ∀ call, entry = .chat call →
      orgID = call.principal.organizationID ∧ apiKeyID = call.principal.id ∧
      Untouched past ∧ (call.idempotencyKey ≠ "" → Missed call past)
  | .storeIdempotencyResponse apiKeyID endpoint key requestHash jobID response => ∃ call,
      entry = .chat call ∧ apiKeyID = call.principal.id ∧ endpoint = chatCompletionsEndpoint ∧
      key = call.idempotencyKey ∧ requestHash = call.bodyHash ∧ Delivered past jobID response
  | .cancelJob .. | .operatorCancelJob _ | .operatorRetryJob _ |
    .quarantineNode _ => NoSession entry
  | _ => True

def Disciplined (settings : Settings) (entry : Entry) (past : Seen) : Op → Prop
  | .store _ call => call.Disciplined settings entry past
  | .mem (.registerWait jobID) => ∃ ctx orgID apiKeyID modelID deadlineAt,
      past.getLast? = some ⟨.store ctx (.createJob orgID apiKeyID modelID deadlineAt), .ok jobID⟩
  | .mem (.abandonWait jobID) => ∃ channel, Waited past jobID channel
  | .mem (.takePending jobID result) => Reports past jobID result ∧ MyJob entry past jobID
  | .mem (.reserve ref jobID _) => ∃ run, ⟨.mem (.lookupRun jobID), some (ref, run)⟩ ∈ past
  | .mem (.setActive nodeID _) => Placed past nodeID
  | .mem (.setDuplicateRun attemptID run) =>
    Verifying past run.jobID attemptID ∧ SawText past run.jobID run.expectedContent
  | .put channel result => ∃ jobID, MyJob entry past jobID ∧
      past.getLast? = some ⟨.mem (.takePending jobID result), some channel⟩
  | .answer jobID a => ∀ call, entry = .chat call → Answers call past jobID a
  | _ => True

section

variable {settings : Settings} {entry : Entry} {past past' : Seen} {jobID : JobID}
  {attemptID : AttemptID}

theorem Named.mono {nodeID : NodeID} (named : Named past nodeID jobID attemptID)
    (extended : past <+: past') : Named past' nodeID jobID attemptID := by
  rcases named with ⟨message, received, names⟩ | ⟨ctx, now, expired, swept, names⟩
  · exact .inl ⟨message, extended.subset received, names⟩
  · exact .inr ⟨ctx, now, expired, extended.subset swept, names⟩

theorem Undetached.before (undetached : Undetached past') (extended : past <+: past') :
    Undetached past :=
  fun obs member => undetached obs (extended.subset member)

theorem Mine.mono (mine : Mine entry past jobID attemptID) (extended : past <+: past') :
    Mine entry past' jobID attemptID :=
  fun nodeID frames session undetached =>
    (mine nodeID frames session (undetached.before extended)).mono extended

theorem MyJob.mono (mine : MyJob entry past jobID) (extended : past <+: past') :
    MyJob entry past' jobID := by
  intro nodeID frames session undetached
  obtain ⟨attemptID, named⟩ := mine nodeID frames session (undetached.before extended)
  exact ⟨attemptID, named.mono extended⟩

theorem Mine.job (mine : Mine entry past jobID attemptID) : MyJob entry past jobID :=
  fun nodeID frames session undetached => ⟨attemptID, mine nodeID frames session undetached⟩

theorem SawResponse.mono {response : OpenAIResponse} (saw : SawResponse past jobID response)
    (extended : past <+: past') : SawResponse past' jobID response := by
  obtain ⟨obs, member, responds⟩ := saw
  exact ⟨obs, extended.subset member, responds⟩

theorem CreatedJob.mono (created : CreatedJob past jobID) (extended : past <+: past') :
    CreatedJob past' jobID := by
  obtain ⟨obs, member, creates⟩ := created
  exact ⟨obs, extended.subset member, creates⟩

theorem CreatedJob.hasCreated (created : CreatedJob past jobID) : HasCreated past := by
  obtain ⟨⟨op, r⟩, member, creates⟩ := created
  refine ⟨_, member, ?_⟩
  cases op with
  | store ctx call =>
    cases call with
    | createJob => rfl
    | _ => cases creates
  | _ => cases creates

theorem SawCompleted.mono (saw : SawCompleted past jobID) (extended : past <+: past') :
    SawCompleted past' jobID := by
  obtain ⟨obs, member, completes⟩ := saw
  exact ⟨obs, extended.subset member, completes⟩

theorem SawText.mono {content : String} (saw : SawText past jobID content)
    (extended : past <+: past') : SawText past' jobID content := by
  obtain ⟨obs, member, text⟩ := saw
  exact ⟨obs, extended.subset member, text⟩

theorem Verifying.mono (saw : Verifying past jobID attemptID) (extended : past <+: past') :
    Verifying past' jobID attemptID := by
  obtain ⟨obs, member, created⟩ := saw
  exact ⟨obs, extended.subset member, created⟩

theorem Verified.mono {nodeID : NodeID} {payload : JobCompletedPayload}
    (verified : Verified settings past nodeID payload) (extended : past <+: past') :
    Verified settings past' nodeID payload := by
  obtain ⟨⟨ctx, releaseID, runtimeHashes, model, runtime, offered⟩, ⟨ctx', encoded, key, read, rest⟩⟩ :=
    verified
  exact ⟨⟨ctx, releaseID, runtimeHashes, extended.subset model, extended.subset runtime, offered⟩,
    ⟨ctx', encoded, key, extended.subset read, rest⟩⟩

end

end Thirdshift
