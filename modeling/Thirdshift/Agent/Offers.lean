import Thirdshift.Agent.Machine
import Thirdshift.Catalog.History
import Thirdshift.Jobs.Validation

/-!
# Offers

Three parties check a request: the coordinator before it creates a job, the protocol on the payload
of the `job.offer`, and the node that gets it. The coordinator checks against the limits of the
model, the others against fixed ones, so what passes the first check passes the others where it takes
no more tokens than the fixed ones allow.
-/

namespace Thirdshift

open Catalog

def jobOffer (attempt : ScheduledAttempt) (model : ModelInfo) (request : ChatRequest)
    (verification : OfferKind) : JobOfferPayload :=
  ⟨attempt.jobID, attempt.attemptID, attempt.leaseExpiresAt, attempt.deadlineAt, model.id, request,
    verification⟩

/-! ### The payload schema -/

/-- The pattern `^[a-z0-9][a-z0-9.-]{1,120}$`. -/
def isModelID (id : String) : Bool :=
  match id.toList with
  | [] => false
  | first :: rest =>
    (first.isLower || first.isDigit) && 1 ≤ rest.length && rest.length ≤ 120 &&
      rest.all fun c => c.isLower || c.isDigit || c = '.' || c = '-'

def ChatMessage.conforms (message : ChatMessage) : Bool :=
  message.role ∈ chatRoles && 1 ≤ message.content.length

def ChatRequest.conforms (request : ChatRequest) : Bool :=
  1 ≤ request.messages.length && request.messages.all ChatMessage.conforms &&
    request.temperature.all (fun t => 0 ≤ t && t ≤ 2) && 1 ≤ request.maxTokens &&
    request.maxTokens ≤ 1024 && !request.stream

/-- The schema of the payload. The kind of verification is always one it lists, and an instant is
always written as a date and time. -/
def JobOfferPayload.conforms (offer : JobOfferPayload) : Bool :=
  isID "job" offer.jobID && isID "att" offer.attemptID && isModelID offer.modelID &&
    offer.request.conforms

/-! ### Inclusion -/

theorem ChatMessage.conforms_of_wellFormed {message : ChatMessage}
    (wellFormed : message.WellFormed) : message.conforms = true := by
  obtain ⟨role, text⟩ := wellFormed
  have nonempty : message.content.toList ≠ [] := by
    intro none'
    rw [isBlank, none'] at text
    cases text
  have some' : 1 ≤ message.content.length := by
    rw [← String.length_toList]
    exact List.length_pos_iff.mpr nonempty
  simp [conforms, role, some']

section

variable {request : ChatRequest} {model : ModelInfo} (validated : request.Validated model)
include validated

theorem ChatRequest.Validated.conforms_iff : request.conforms = true ↔ request.maxTokens ≤ 1024 := by
  have messages : 1 ≤ request.messages.length := List.length_pos_iff.mpr validated.messages
  have each : request.messages.all ChatMessage.conforms = true :=
    List.all_eq_true.mpr fun message member =>
      ChatMessage.conforms_of_wellFormed (validated.wellFormed message member)
  have moderate : request.temperature.all (fun t => 0 ≤ t && t ≤ 2) = true := by
    rw [Option.all_eq_true]
    intro t given
    have bounds := validated.temperature t given
    simp [bounds.1, bounds.2]
  have positive : 1 ≤ request.maxTokens := validated.maxTokens_pos
  simp [ChatRequest.conforms, messages, each, moderate, positive, validated.stream]

theorem ChatRequest.Validated.offered_iff :
    validateOfferRequest request = none ↔ request.maxTokens ≤ 1024 := by
  have positive := validated.maxTokens_pos
  have each : ∀ message ∈ request.messages, message.role ∈ chatRoles ∧ isBlank message.content = false :=
    validated.wellFormed
  unfold validateOfferRequest
  rw [if_neg (by simp [validated.stream]), if_neg validated.messages]
  by_cases within : request.maxTokens ≤ 1024
  · rw [if_neg (by omega), List.findSome?_eq_none_iff]
    refine iff_of_true (fun message member => ?_) within
    simp [each message member]
  · rw [if_pos (by omega)]
    exact iff_of_false (fun none => nomatch none) within

end

/-- The tokens that a request for the model may take: what it asks for, or all that the model allows. -/
def ChatCompletionRequest.asks (req : ChatCompletionRequest) (model : ModelInfo) : Int :=
  if req.maxTokens ≤ 0 then model.limits.outputTokens else req.maxTokens

theorem maxTokens_of_validateChatCompletion {req : ChatCompletionRequest} {model : ModelInfo}
    {bodyBytes : Int} {request : ChatRequest}
    (accepted : validateChatCompletion req model bodyBytes = .ok request) :
    request.maxTokens = req.asks model := by
  unfold validateChatCompletion at accepted
  iterate 8 obtain ⟨-, accepted⟩ := ok_of_check accepted
  split at accepted
  · cases accepted
  · iterate 3 obtain ⟨-, accepted⟩ := ok_of_check accepted
    cases accepted
    rfl

theorem Catalog.id_of_modelInfo {c : Catalog} {modelID : ModelID} {model : ModelInfo}
    (found : c.modelInfo modelID = some model) : model.id = modelID := by
  unfold modelInfo at found
  split at found
  · cases found
  next row listed =>
    split at found
    · cases found
      have offered := List.find?_some listed
      exact (of_decide_eq_true offered).1
    · cases found

/-- What the coordinator accepts for a model of the catalog makes an offer that conforms to the
protocol and that the node accepts if and only if it is for at most 1024 tokens and a model whose
name the protocol knows how to write. -/
theorem accepted_request_offered_iff {history : List Upsert} {modelID : ModelID} {model : ModelInfo}
    (found : (synced history).modelInfo modelID = some model)
    {req : ChatCompletionRequest} {bodyBytes : Int} {request : ChatRequest}
    (accepted : validateChatCompletion req model bodyBytes = .ok request)
    (jobMilli attemptMilli : UInt64) (jobEntropy attemptEntropy : Vector UInt8 10) (nodeID : NodeID)
    (leaseExpiresAt deadlineAt : Time) (verification : OfferKind) :
    let attempt : ScheduledAttempt := ⟨newID "job" jobMilli jobEntropy,
      newID "att" attemptMilli attemptEntropy, nodeID, leaseExpiresAt, deadlineAt⟩
    let offer := jobOffer attempt model request verification
    (offer.conforms = true ∧ validateOfferRequest offer.request = none) ↔
      req.asks model ≤ 1024 ∧ isModelID modelID = true := by
  have validated := validated_of_validateChatCompletion accepted
  have asked := maxTokens_of_validateChatCompletion accepted
  simp only [JobOfferPayload.conforms, jobOffer, isID_newID, id_of_modelInfo found,
    Bool.and_eq_true, true_and, validated.conforms_iff, validated.offered_iff, asked]
  tauto

/-! ### A model with longer answers -/

/-- A catalog with one model that answers with at most so many tokens. -/
def chatHistory (maxOutputTokens : Int) : List Upsert :=
  [⟨⟨"tiny-chat", "active", "", "llama", "b1", [("linux", "aa")], "r1", "bb", 4096, 4096,
      maxOutputTokens, 0, ⟨true, false, false, false⟩, 1, 1, 1, 0⟩,
    ⟨"rt_a", fun platform => platform, "mv_a", "artifact_a", "price_a"⟩, 1⟩]

def chatInfo (maxOutputTokens : Int) : ModelInfo :=
  ⟨"tiny-chat", "public_or_non_sensitive", ⟨4096, maxOutputTokens, 262144⟩, [.chatCompletions], 0⟩

def chatBody (maxTokens : Int) : ChatCompletionRequest :=
  ⟨"tiny-chat", [⟨"user", "hello"⟩], some 1, maxTokens, false, "", "null"⟩

def chatRequest (maxTokens : Int) : ChatRequest :=
  ⟨[⟨"user", "hello"⟩], some 1, maxTokens, none, false⟩

def noEntropy : Vector UInt8 10 := Vector.replicate 10 0

/-- A short answer is offered, though the model would give a longer one. -/
theorem accepted_request_offered_iff_short :
    (synced (chatHistory 2048)).modelInfo "tiny-chat" = some (chatInfo 2048) ∧
    validateChatCompletion (chatBody 100) (chatInfo 2048) 100 = .ok (chatRequest 100) ∧
    (jobOffer ⟨newID "job" 1 noEntropy, newID "att" 2 noEntropy, "node_a", 0, 0⟩ (chatInfo 2048)
      (chatRequest 100) .standard).conforms = true ∧
    validateOfferRequest (chatRequest 100) = none := by
  have found : (synced (chatHistory 2048)).modelInfo "tiny-chat" = some (chatInfo 2048) := by
    decide +kernel
  have accepted : validateChatCompletion (chatBody 100) (chatInfo 2048) 100 =
      .ok (chatRequest 100) := rfl
  obtain ⟨conforms, offered⟩ := (accepted_request_offered_iff found accepted 1 2 noEntropy noEntropy
    "node_a" 0 0 .standard).mpr ⟨by decide, by decide +kernel⟩
  exact ⟨found, accepted, conforms, offered⟩

/-- A manifest may ask for more than 1024 output tokens, and then the coordinator accepts requests
that neither the protocol nor the node does. -/
theorem long_answer_not_offered :
    (synced (chatHistory 2048)).modelInfo "tiny-chat" = some (chatInfo 2048) ∧
    validateChatCompletion (chatBody 2000) (chatInfo 2048) 100 = .ok (chatRequest 2000) ∧
    (jobOffer ⟨newID "job" 1 noEntropy, newID "att" 2 noEntropy, "node_a", 0, 0⟩ (chatInfo 2048)
      (chatRequest 2000) .standard).conforms = false ∧
    validateOfferRequest (chatRequest 2000) =
      some "job request max_tokens is outside node limits" := by
  refine ⟨?_, rfl, ?_, ?_⟩
  · decide +kernel
  · decide +kernel
  · decide +kernel

end Thirdshift
