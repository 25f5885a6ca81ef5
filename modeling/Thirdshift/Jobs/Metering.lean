import Thirdshift.Ledger.Store

/-!
# Metering

The plausibility checks a completion passes before it is accepted.
-/

namespace Thirdshift

inductive Severity
  | flag
  | reject
  deriving DecidableEq

structure MeteringIssue where
  code : String
  message : String
  severity : Severity

def estimateTokens (content : String) : Int := (content.toList.length + 3) / 4

def usageIssues (usage : Usage) : List MeteringIssue :=
  (if usage.promptTokens < 0 ∨ usage.completionTokens < 0 ∨ usage.totalTokens < 0 then
    [⟨"negative_usage", "token counts cannot be negative", .reject⟩] else []) ++
  (if usage.totalTokens ≠ wrap64 (usage.promptTokens + usage.completionTokens) then
    [⟨"usage_total_mismatch",
      "total_tokens must equal prompt_tokens plus completion_tokens", .reject⟩] else [])

/-- The `float64` nearest to a positive fraction, ties to even, as a fraction itself. -/
def float64 (num den : Nat) : Nat × Nat :=
  let scale := 2 ^ (53 + den.log2)
  -- the quotient by this unit has 53 binary digits
  let unit := if num * scale < 2 ^ 53 * (den * 2 ^ num.log2) then 2 ^ num.log2 else 2 * 2 ^ num.log2
  let m := num * scale / (den * unit)
  let rest := 2 * (num * scale % (den * unit))
  ((if den * unit < rest ∨ rest = den * unit ∧ m % 2 = 1 then m + 1 else m) * unit, scale)

def tokensPerSecond (tokens millis : Nat) : Nat × Nat :=
  let total := float64 tokens 1
  let duration := float64 millis 1
  let seconds := float64 duration.1 (duration.2 * 1000)
  float64 (total.1 * seconds.2) (total.2 * seconds.1)

def plausibilityIssues (request : ChatRequest) (payload : JobCompletedPayload) :
    List MeteringIssue :=
  match payload.message with
  | none => [⟨"missing_message", "completion message is missing", .reject⟩]
  | some message =>
    let estimatedPrompt := (request.messages.map fun m => estimateTokens m.content).sum
    let outputLimit := if request.maxTokens ≤ 0 then 1024 else request.maxTokens
    let estimatedCompletion := estimateTokens message.content
    (if message.role ≠ "assistant" then
      [⟨"bad_role", "completion role must be assistant", .reject⟩] else []) ++
    (if message.content.toList.all isSpace then
      [⟨"empty_completion", "completion content is empty", .reject⟩] else []) ++
    usageIssues payload.usage ++
    (if 0 < estimatedPrompt ∧ payload.usage.promptTokens > wrap64 (estimatedPrompt * 8 + 128) then
      [⟨"prompt_tokens_outlier", "prompt token count is implausibly high", .flag⟩] else []) ++
    (if payload.usage.completionTokens > wrap64 (outputLimit * 2 + 16) then
      [⟨"completion_tokens_outlier",
        "completion token count exceeds accepted output bounds", .reject⟩] else []) ++
    (if 0 < estimatedCompletion ∧
        payload.usage.completionTokens > wrap64 (estimatedCompletion * 8 + 128) then
      [⟨"completion_length_outlier",
        "completion token count is implausibly high for response length", .flag⟩] else []) ++
    let rate := tokensPerSecond payload.usage.totalTokens.toNat payload.durationMillis.toNat
    (if 0 < payload.durationMillis ∧ 0 < payload.usage.totalTokens ∧ rate.1 > 5000 * rate.2 then
      [⟨"duration_outlier", "reported token throughput is implausibly high", .flag⟩] else [])

/-- The issues, and the message of the first one that rejects the completion. -/
def validateCompletionForAcceptance (request : ChatRequest) (payload : JobCompletedPayload) :
    List MeteringIssue × Option String :=
  let issues := plausibilityIssues request payload
  (issues, (issues.find? fun i => i.severity = .reject).map MeteringIssue.message)

def meteringStatus (issues : List MeteringIssue) : String :=
  if issues.any (fun i => i.severity = .reject) then "rejected"
  else if issues.any (fun i => i.severity = .flag) then "flagged"
  else "accepted"

end Thirdshift
