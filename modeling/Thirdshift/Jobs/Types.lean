import Thirdshift.Protocol

/-!
# Job types

Error codes, the records the job service passes around, and what it answers to a developer.
-/

namespace Thirdshift

def codeInvalidRequest : String := "invalid_request"
def codeModelUnavailable : String := "model_unavailable"
def codeModelNotFound : String := "model_not_found"
def codeNoCapacity : String := "no_capacity"
def codeJobTimeout : String := "job_timeout"
def codeJobFailed : String := "job_failed"
def codeInternalError : String := "internal_error"

structure APIError where
  code : String
  message : String
  retryable : Bool
  status : Nat

/-- A Go error: an `APIError`, or any other error with its text. -/
inductive GoError
  | api (e : APIError)
  | other (message : String)

def GoError.error : GoError → String
  | .api e => e.code ++ ": " ++ e.message
  | .other message => message

inductive Capability
  | chatCompletions | streaming | tools | embeddings
  deriving DecidableEq

structure ModelLimits where
  maxInputTokens : Int
  maxOutputTokens : Int
  maxRequestBytes : Int
  deriving DecidableEq

/-- The parts of `ModelInfo` the coordinator uses. The sample rate is in ten-thousandths, as the
catalog stores it. -/
structure ModelInfo where
  id : ModelID
  dataClass : String
  limits : ModelLimits
  capabilities : List Capability
  duplicateSampleRate : Int
  deriving DecidableEq

structure APIKeyPrincipal where
  id : String
  organizationID : String
  allowedModels : List ModelID

structure ThirdshiftResponseMeta where
  jobID : JobID
  attempts : Nat
  dataClass : String

structure OpenAIResponse where
  id : String
  created : Time
  model : ModelID
  message : ChatMessage
  finishReason : String
  usage : Usage
  thirdshift : ThirdshiftResponseMeta

/-- A rate is in ten-thousandths; the other terms of a candidate's score are the constant one. -/
structure Candidate where
  nodeID : NodeID
  sessionID : SessionID
  modelHash : String
  runtimeHash : String
  rollingSuccessRate : Int

structure ScheduledAttempt where
  jobID : JobID
  attemptID : AttemptID
  nodeID : NodeID
  leaseExpiresAt : Time
  deadlineAt : Time

structure ExpiredAttempt where
  jobID : JobID
  attemptID : AttemptID
  nodeID : NodeID

def APIError.none : APIError := ⟨"", "", false, 0⟩

def OpenAIResponse.zero : OpenAIResponse :=
  ⟨"", 0, "", ⟨"", ""⟩, "", ⟨0, 0, 0⟩, ⟨"", 0, ""⟩⟩

/-- What is sent to a waiting request: `error` has an empty code on success. -/
structure Result where
  response : OpenAIResponse
  error : APIError

def Result.ofResponse (response : OpenAIResponse) : Result := ⟨response, .none⟩

def Result.ofError (e : APIError) : Result := ⟨.zero, e⟩

end Thirdshift
