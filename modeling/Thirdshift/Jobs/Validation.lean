import Thirdshift.Catalog
import Thirdshift.Jobs.Metering

/-!
# Request validation

What the coordinator checks of a chat completion request before it becomes a job, against the limits
that the catalog has for the model, and the identifiers that jobs and attempts get.
-/

namespace Thirdshift

/-! ### Requests -/

/-- A decoded request body. A tools field is its raw JSON, empty when it is not there. -/
structure ChatCompletionRequest where
  model : ModelID
  messages : List ChatMessage
  temperature : Option Rat
  maxTokens : Int
  stream : Bool
  tools : String
  toolChoice : String

def maxPublicRequestBytes : Int := 256 * 1024

def invalid (message : String) : APIError := ⟨codeInvalidRequest, message, false, 400⟩

def givenJSON (raw : String) : Bool := raw ≠ "" && raw ≠ "null"

/-- The loop over the messages, which adds up their estimated tokens. -/
def checkMessages : List ChatMessage → Int → Except APIError Int
  | [], estimated => .ok estimated
  | message :: rest, estimated =>
    if message.role ∉ chatRoles then .error (invalid "messages contain an unsupported role")
    else if isBlank message.content then
      .error (invalid "messages must be text-only with non-empty content")
    else checkMessages rest (estimated + estimateTokens message.content)

namespace ModelLimits

def requestBytes (limits : ModelLimits) : Int :=
  if limits.maxRequestBytes ≤ 0 ∨ maxPublicRequestBytes < limits.maxRequestBytes then
    maxPublicRequestBytes
  else limits.maxRequestBytes

def inputTokens (limits : ModelLimits) : Int :=
  if limits.maxInputTokens ≤ 0 then 4096 else limits.maxInputTokens

def outputTokens (limits : ModelLimits) : Int :=
  if limits.maxOutputTokens ≤ 0 then 1024 else limits.maxOutputTokens

end ModelLimits

def validateChatCompletion (req : ChatCompletionRequest) (model : ModelInfo) (bodyBytes : Int) :
    Except APIError ChatRequest :=
  if req.model = "" then .error (invalid "model is required")
  else if req.model ≠ model.id then .error ⟨codeModelNotFound, "Model not found.", false, 404⟩
  else if .chatCompletions ∉ model.capabilities then
    .error ⟨codeModelUnavailable, "Model does not support chat completions.", false, 409⟩
  else if model.limits.requestBytes < bodyBytes then
    .error ⟨codeInvalidRequest, "Request body exceeds the " ++ toString model.limits.requestBytes ++
      " byte limit for this model.", false, 413⟩
  else if req.stream then .error (invalid "stream must be false")
  else if givenJSON req.tools then
    .error (invalid "tools and function calling are not supported")
  else if givenJSON req.toolChoice then
    .error (invalid "tools and function calling are not supported")
  else if req.messages = [] then
    .error (invalid "messages must contain at least one text message")
  else match checkMessages req.messages 0 with
    | .error e => .error e
    | .ok estimated =>
      if model.limits.inputTokens < estimated then
        .error ⟨codeInvalidRequest, "Input exceeds the model token limit.", false, 413⟩
      else
        let maxTokens := if req.maxTokens ≤ 0 then model.limits.outputTokens else req.maxTokens
        if model.limits.outputTokens < maxTokens then
          .error (invalid ("max_tokens exceeds the " ++ toString model.limits.outputTokens ++
            " token output limit for this model"))
        else if req.temperature.any fun t => t < 0 || 2 < t then
          .error (invalid "temperature must be between 0 and 2")
        else .ok ⟨req.messages, req.temperature, maxTokens, none, false⟩

/-! ### What is accepted -/

def ChatMessage.WellFormed (message : ChatMessage) : Prop :=
  message.role ∈ chatRoles ∧ isBlank message.content = false

theorem wellFormed_of_checkMessages {messages : List ChatMessage} {estimated total : Int}
    (checked : checkMessages messages estimated = .ok total) :
    ∀ message ∈ messages, message.WellFormed := by
  induction messages generalizing estimated with
  | nil => simp
  | cons message rest ih =>
    rw [checkMessages] at checked
    split at checked
    · cases checked
    next known =>
      split at checked
      · cases checked
      next text =>
        intro m member
        rcases List.mem_cons.mp member with rfl | later
        · exact ⟨Decidable.not_not.mp known, by simpa using text⟩
        · exact ih checked m later

structure ChatRequest.Validated (request : ChatRequest) (model : ModelInfo) : Prop where
  messages : request.messages ≠ []
  wellFormed : ∀ message ∈ request.messages, message.WellFormed
  maxTokens_pos : 0 < request.maxTokens
  maxTokens_le : request.maxTokens ≤ model.limits.outputTokens
  temperature : ∀ t ∈ request.temperature, 0 ≤ t ∧ t ≤ 2
  stream : request.stream = false

theorem ModelLimits.outputTokens_pos (limits : ModelLimits) : 0 < limits.outputTokens := by
  unfold outputTokens
  split <;> omega

theorem ok_of_check {ε α : Type} {wrong : Prop} [Decidable wrong] {e : ε} {rest : Except ε α} {a : α}
    (ok : (if wrong then .error e else rest) = .ok a) : ¬wrong ∧ rest = .ok a := by
  split at ok
  · cases ok
  next right => exact ⟨right, ok⟩

theorem temperature_of_check {temperature : Option Rat}
    (moderate : ¬(temperature.any fun t => t < 0 || 2 < t) = true) :
    ∀ t ∈ temperature, 0 ≤ t ∧ t ≤ 2 := by
  rintro t rfl
  simp only [Option.any_some, Bool.or_eq_true, decide_eq_true_eq, not_or] at moderate
  exact ⟨Rat.not_lt.mp moderate.1, Rat.not_lt.mp moderate.2⟩

theorem validated_of_validateChatCompletion {req : ChatCompletionRequest} {model : ModelInfo}
    {bodyBytes : Int} {request : ChatRequest}
    (accepted : validateChatCompletion req model bodyBytes = .ok request) :
    request.Validated model := by
  have outputPos := model.limits.outputTokens_pos
  unfold validateChatCompletion at accepted
  iterate 7 obtain ⟨-, accepted⟩ := ok_of_check accepted
  obtain ⟨nonempty, accepted⟩ := ok_of_check accepted
  cases checked : checkMessages req.messages 0 with
  | error e =>
    rw [checked] at accepted
    cases accepted
  | ok total =>
    rw [checked] at accepted
    obtain ⟨-, accepted⟩ := ok_of_check accepted
    obtain ⟨within, accepted⟩ := ok_of_check accepted
    obtain ⟨moderate, accepted⟩ := ok_of_check accepted
    cases accepted
    constructor
    case messages => exact nonempty
    case wellFormed => exact wellFormed_of_checkMessages checked
    case maxTokens_pos =>
      simp only
      split <;> omega
    case maxTokens_le => exact Int.not_lt.mp within
    case temperature => exact temperature_of_check moderate
    case stream => rfl

/-! ### Identifiers -/

def crockford : List Char := "0123456789ABCDEFGHJKMNPQRSTVWXYZ".toList

def bigEndian (bytes : List UInt8) : UInt64 :=
  bytes.foldl (fun n byte => n <<< 8 ||| byte.toUInt64) 0

/-- The loop of `encodeCrockford128`, which fills the digits from the last one. -/
def crockfordDigits : Nat → UInt64 → UInt64 → List Char → List Char
  | 0, _, _, out => out
  | n + 1, hi, lo, out =>
    crockfordDigits n (hi >>> 5) ((lo >>> 5) ||| ((hi &&& 31) <<< 59))
      (crockford.getD (lo &&& 31).toNat '0' :: out)

def encodeCrockford128 (data : List UInt8) : List Char :=
  crockfordDigits 26 (bigEndian (data.take 8)) (bigEndian (data.drop 8)) []

def encodeULIDTimeEntropy (unixMilli : UInt64) (entropy : Vector UInt8 10) : List Char :=
  encodeCrockford128 ((([40, 32, 24, 16, 8, 0] : List UInt64).map fun shift =>
    (unixMilli >>> shift).toUInt8) ++ entropy.toList)

/-- `ids.NewAt`, for a prefix that is valid. -/
def newID (kind : String) (unixMilli : UInt64) (entropy : Vector UInt8 10) : String :=
  kind ++ "_" ++ String.ofList (encodeULIDTimeEntropy unixMilli entropy)

/-- The pattern `^kind_[0-9A-HJKMNP-TV-Z]{26}$`. -/
def isID (kind : String) (id : String) : Bool :=
  (kind ++ "_").toList.isPrefixOf id.toList &&
    let digits := id.toList.drop (kind ++ "_").length
    digits.length = 26 && digits.all fun c => c ∈ crockford

theorem length_crockfordDigits (n : Nat) (hi lo : UInt64) (out : List Char) :
    (crockfordDigits n hi lo out).length = n + out.length := by
  induction n generalizing hi lo out with
  | zero => simp [crockfordDigits]
  | succ n ih =>
    rw [crockfordDigits, ih, List.length_cons]
    omega

theorem mem_crockfordDigits (n : Nat) (hi lo : UInt64) (out : List Char)
    (digits : ∀ c ∈ out, c ∈ crockford) : ∀ c ∈ crockfordDigits n hi lo out, c ∈ crockford := by
  induction n generalizing hi lo out with
  | zero => exact digits
  | succ n ih =>
    rw [crockfordDigits]
    apply ih
    intro c member
    rcases List.mem_cons.mp member with rfl | old
    · -- five bits index one of the 32 digits
      rw [List.getD_eq_getElem?_getD]
      cases found : crockford[(lo &&& 31).toNat]? with
      | none => exact List.mem_of_getElem? (i := 0) (by rfl)
      | some digit => exact List.mem_of_getElem? found
    · exact digits c old

theorem isID_newID (kind : String) (unixMilli : UInt64) (entropy : Vector UInt8 10) :
    isID kind (newID kind unixMilli entropy) = true := by
  have split' : (newID kind unixMilli entropy).toList =
      (kind ++ "_").toList ++ encodeULIDTimeEntropy unixMilli entropy := by
    simp [newID]
  have count : (encodeULIDTimeEntropy unixMilli entropy).length = 26 :=
    length_crockfordDigits 26 _ _ []
  have digits : ∀ c ∈ encodeULIDTimeEntropy unixMilli entropy, c ∈ crockford :=
    mem_crockfordDigits 26 _ _ [] (by simp)
  unfold isID
  rw [split', ← String.length_toList, List.drop_left]
  simp only [count, Bool.and_eq_true, List.isPrefixOf_iff_prefix, List.prefix_append, true_and,
    decide_true, List.all_eq_true, decide_eq_true_eq]
  exact digits

end Thirdshift
