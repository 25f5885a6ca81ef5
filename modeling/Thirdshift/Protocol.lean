/-!
# Wire protocol

The payloads a node and the coordinator exchange over a session, with the fields the coordinator
reads. Instants and durations are in microseconds, the resolution the database stores; the zero
instant is the zero `time.Time`. Go's `int` is a machine integer of 64 bits.
-/

namespace Thirdshift

abbrev Time := Int
abbrev Duration := Int

def seconds (n : Int) : Duration := n * 1000000

/-- The value of an `int64` computation. -/
def wrap64 (n : Int) : Int := (n + 9223372036854775808) % 18446744073709551616 - 9223372036854775808

theorem wrap64_eq {n : Int} (low : -9223372036854775808 ≤ n) (high : n < 9223372036854775808) :
    wrap64 n = n := by
  unfold wrap64
  omega

abbrev NodeID := String
abbrev SessionID := String
abbrev JobID := String
abbrev AttemptID := String
abbrev ModelID := String

structure ChatMessage where
  role : String
  content : String

/-- `unicode.IsSpace`. -/
def isSpace (c : Char) : Bool :=
  c.toNat ∈ [9, 10, 11, 12, 13, 32, 0x85, 0xA0, 0x1680, 0x2028, 0x2029, 0x202F, 0x205F, 0x3000] ||
    (0x2000 ≤ c.toNat && c.toNat ≤ 0x200A)

/-- `strings.TrimSpace(s) == ""`. -/
def isBlank (s : String) : Bool := s.toList.all isSpace

def chatRoles : List String := ["system", "user", "assistant"]

structure ChatRequest where
  messages : List ChatMessage
  temperature : Option Rat
  maxTokens : Int
  seed : Option Int
  stream : Bool

/-- The zero value, which stands in when a job has no run context any more. -/
def ChatRequest.zero : ChatRequest := ⟨[], none, 0, none, false⟩

structure Usage where
  promptTokens : Int
  completionTokens : Int
  totalTokens : Int

structure NodeSignature where
  keyID : String
  algorithm : String
  value : String
  signedAt : Time

/-- The body of `nodeauth.VerifyJobCompleted`, for an algorithm and a value that sign `body`. -/
def verifySigned {β σ : Type} (decodeString : String → Option σ)
    (verify : List UInt8 → β → σ → Bool) (publicKey : List UInt8) (body : β)
    (signature : Option (String × String)) : Except String Unit :=
  if publicKey.length ≠ 32 then
    .error ("public key has " ++ toString publicKey.length ++ " bytes, want 32")
  else match signature with
    | none => .error "job completion signature is required"
    | some (algorithm, value) =>
      if algorithm ≠ "ed25519" then
        .error ("unsupported job completion signature algorithm \"" ++ algorithm ++ "\"")
      else match decodeString value with
        | none => .error "decode job completion signature: illegal base64 data"
        | some bytes =>
          if verify publicKey body bytes then .ok ()
          else .error "job completion signature verification failed"

structure JobAcceptedPayload where
  jobID : JobID
  attemptID : AttemptID
  acceptedAt : Time

structure JobStartedPayload where
  jobID : JobID
  attemptID : AttemptID
  startedAt : Time

structure JobRejectedPayload where
  jobID : JobID
  attemptID : AttemptID
  reasonCode : String
  message : String
  retryable : Bool
  rejectedAt : Time

structure JobFailedPayload where
  jobID : JobID
  attemptID : AttemptID
  errorCode : String
  message : String
  retryable : Bool
  failedAt : Time

structure JobCompletedPayload where
  jobID : JobID
  attemptID : AttemptID
  modelID : ModelID
  runtimeHash : String
  modelHash : String
  message : Option ChatMessage
  usage : Usage
  durationMillis : Int
  finishReason : String
  completedAt : Time
  signature : Option NodeSignature

/-- The five messages about a job that `HandleNodeMessage` takes. -/
inductive JobMessage
  | accepted (payload : JobAcceptedPayload)
  | started (payload : JobStartedPayload)
  | rejected (payload : JobRejectedPayload)
  | failed (payload : JobFailedPayload)
  | completed (payload : JobCompletedPayload)

def JobMessage.jobID : JobMessage → JobID
  | .accepted p => p.jobID
  | .started p => p.jobID
  | .rejected p => p.jobID
  | .failed p => p.jobID
  | .completed p => p.jobID

def JobMessage.attemptID : JobMessage → AttemptID
  | .accepted p => p.attemptID
  | .started p => p.attemptID
  | .rejected p => p.attemptID
  | .failed p => p.attemptID
  | .completed p => p.attemptID

inductive NodeState
  | unregistered | registering | offline | starting | benchmarking | idle | preparingModel
  | available | busy | draining | paused | error | updating
  deriving DecidableEq

structure NodeHeartbeatPayload where
  nodeID : NodeID
  sequence : Int
  state : Option NodeState
  modelID : ModelID
  runtimeHash : String
  modelHash : String
  scheduleState : String
  thermalState : String
  paused : Bool
  draining : Bool

structure NodeStateChangedPayload where
  nodeID : NodeID
  state : Option NodeState

structure NodeSafetyEventPayload where
  nodeID : NodeID
  eventCode : String
  severity : String

/-- What a read on a session yields after schema validation. `invalid` is a frame that fails
validation, `unsupported` a known message type the coordinator does not take from a node. A state
that is not one of the node states is `none`. -/
inductive Frame
  | hello (nodeID : NodeID) (protocolVersion : String)
  | heartbeat (payload : NodeHeartbeatPayload)
  | stateChanged (payload : NodeStateChangedPayload)
  | safetyEvent (payload : NodeSafetyEventPayload)
  | job (message : JobMessage)
  | unsupported
  | invalid

inductive OfferKind
  | standard
  | duplicate
  deriving DecidableEq

structure JobOfferPayload where
  jobID : JobID
  attemptID : AttemptID
  leaseExpiresAt : Time
  deadlineAt : Time
  modelID : ModelID
  request : ChatRequest
  verification : OfferKind

end Thirdshift
