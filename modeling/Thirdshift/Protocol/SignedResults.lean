import Mathlib.Data.List.DropRight
import Thirdshift.Foundation.Json
import Thirdshift.Jobs.Service

/-!
# Signed results on the wire

`nodeauth.SignJobCompleted`, the envelope of `protocol`, and `nodeauth.VerifyJobCompleted`, down to
the text that is signed. The coordinator computes that text anew from what it decoded, so a result
survives only if encoding and decoding are inverse; `unmarshalCompleted_marshal` says that they are,
and it also makes the text determine every field.
-/

namespace Thirdshift.Wire

open Foundation.Json List Option

variable {m : Members} {α : Type}

/-! ### Times -/

def isLeap (year : Nat) : Bool := year % 4 = 0 && (year % 100 ≠ 0 || year % 400 = 0)

def daysIn (year month : Nat) : Nat :=
  if month = 2 then (if isLeap year then 29 else 28)
  else if month = 4 ∨ month = 6 ∨ month = 9 ∨ month = 11 then 30
  else 31

/-- The fields of a date with a year of four digits and of a time of day, in UTC. -/
structure UtcTime.Fields where
  year : Nat
  month : Nat
  day : Nat
  hour : Nat
  minute : Nat
  second : Nat
  nanosecond : Nat
  deriving DecidableEq

def UtcTime.Fields.Valid (t : UtcTime.Fields) : Prop :=
  t.year < 10000 ∧ 1 ≤ t.month ∧ t.month ≤ 12 ∧ 1 ≤ t.day ∧ t.day ≤ daysIn t.year t.month ∧
  t.hour < 24 ∧ t.minute < 60 ∧ t.second < 60 ∧ t.nanosecond < 1000000000

instance (t : UtcTime.Fields) : Decidable t.Valid := by
  unfold UtcTime.Fields.Valid
  infer_instance

/-- A `time.Time` in UTC with a year of four digits: its instant is given by its fields. -/
structure UtcTime extends UtcTime.Fields where
  valid : toFields.Valid
  deriving DecidableEq

/-- The zero `time.Time`. -/
def UtcTime.zero : UtcTime := ⟨⟨1, 1, 1, 0, 0, 0, 0⟩, by decide⟩

def trimZeros (digits : List Char) : List Char := digits.rdropWhile (· == '0')

/-- The fraction of a second in `RFC3339Nano`: absent when it is zero. -/
def formatFraction (nanosecond : Nat) : List Char :=
  if nanosecond = 0 then [] else '.' :: trimZeros (pad 9 nanosecond)

/-- `time.Time.MarshalJSON`, which is `RFC3339Nano`. -/
def UtcTime.format (t : UtcTime) : List Char :=
  pad 4 t.year ++ '-' :: (pad 2 t.month ++ '-' :: (pad 2 t.day ++ 'T' :: (pad 2 t.hour ++
    ':' :: (pad 2 t.minute ++ ':' :: (pad 2 t.second ++ (formatFraction t.nanosecond ++ ['Z']))))))

def expect (c : Char) : List Char → Option (List Char)
  | d :: rest => if d = c then some rest else none
  | [] => none

/-- The nanoseconds that digits after the point stand for; those after the ninth are dropped. -/
def readFraction : List Char → Option (Nat × List Char)
  | '.' :: rest =>
    if (rest.takeWhile isDigit).isEmpty then none
    else some (readNat ((rest.takeWhile isDigit ++ List.replicate 9 '0').take 9),
      rest.dropWhile isDigit)
  | rest => some (0, rest)

def readField (k : Nat) (c : Char) (text : List Char) : Option (Nat × List Char) := do
  let (n, rest) ← readPad k text
  let rest ← expect c rest
  some (n, rest)

def UtcTime.ofFields (fields : UtcTime.Fields) : Option UtcTime :=
  if valid : fields.Valid then some ⟨fields, valid⟩ else none

/-- `time.Time.UnmarshalJSON`, for a time that was written in UTC. -/
def UtcTime.read (text : List Char) : Option UtcTime := do
  let (year, rest) ← readField 4 '-' text
  let (month, rest) ← readField 2 '-' rest
  let (day, rest) ← readField 2 'T' rest
  let (hour, rest) ← readField 2 ':' rest
  let (minute, rest) ← readField 2 ':' rest
  let (second, rest) ← readPad 2 rest
  let (nanosecond, rest) ← readFraction rest
  let rest ← expect 'Z' rest
  if rest.isEmpty then UtcTime.ofFields ⟨year, month, day, hour, minute, second, nanosecond⟩
  else none

@[simp] theorem expect_cons (c : Char) (rest : List Char) : expect c (c :: rest) = some rest := by
  simp [expect]

variable {n : Nat} {name : String}

theorem readField_pad {k : Nat} (small : n < 10 ^ k) (c : Char) (rest : List Char) :
    readField k c (pad k n ++ c :: rest) = some (n, rest) := by
  simp only [readField, readPad_pad small, expect_cons, bind_eq_bind, bind_some]

theorem trimZeros_append {digits : List Char} (nine : digits.length = 9) :
    (trimZeros digits ++ List.replicate 9 '0').take 9 = digits := by
  have zeros : ∀ c ∈ digits.rtakeWhile (· == '0'), c = '0' := fun c member => by
    simpa using mem_rtakeWhile_imp member
  have parts : trimZeros digits ++ digits.rtakeWhile (· == '0') = digits :=
    rdropWhile_append_rtakeWhile ..
  have dropped := eq_replicate_of_mem zeros
  have lengths := congrArg List.length parts
  rw [length_append, nine] at lengths
  conv_rhs => rw [← parts, dropped]
  rw [take_append, take_of_length_le (by omega), take_replicate]
  congr 2
  omega

theorem pad_ne_zeros (small : n < 10 ^ 9) (some : n ≠ 0) : trimZeros (pad 9 n) ≠ [] := by
  intro none
  have back := trimZeros_append (length_pad 9 n)
  rw [none, nil_append] at back
  have value := congrArg readNat back
  rw [readNat_pad small] at value
  exact some (value.symm.trans rfl)

theorem readFraction_format (small : n < 1000000000) (rest : List Char) :
    readFraction (formatFraction n ++ 'Z' :: rest) = some (n, 'Z' :: rest) := by
  unfold formatFraction
  split
  next zero =>
    rw [zero]
    rfl
  next nonzero =>
    have stops : isDigit 'Z' = false := rfl
    have digits : ∀ c ∈ trimZeros (pad 9 n), isDigit c = true := fun c member =>
      isDigit_of_mem_pad (( rdropWhile_prefix ..).subset member)
    have front : (trimZeros (pad 9 n) ++ 'Z' :: rest).takeWhile isDigit = trimZeros (pad 9 n) := by
      rw [takeWhile_append_of_pos digits]
      simp [stops]
    have back : (trimZeros (pad 9 n) ++ 'Z' :: rest).dropWhile isDigit = 'Z' :: rest := by
      rw [dropWhile_append_of_pos digits]
      simp [stops]
    have some := pad_ne_zeros (by simpa using small) nonzero
    rw [cons_append, readFraction, front, back, trimZeros_append (length_pad 9 n),
      readNat_pad (by simpa using small), if_neg (by simpa using some)]

theorem daysIn_le (year month : Nat) : daysIn year month ≤ 31 := by
  unfold daysIn
  split_ifs <;> decide

theorem UtcTime.read_format (t : UtcTime) : UtcTime.read t.format = some t := by
  obtain ⟨years, -, months, -, days, hours, minutes, seconds, nanoseconds⟩ := t.valid
  have day : t.day < 10 ^ 2 := by
    have := daysIn_le t.year t.month
    omega
  have month : t.month < 10 ^ 2 := by omega
  have hour : t.hour < 10 ^ 2 := by omega
  have minute : t.minute < 10 ^ 2 := by omega
  have second : t.second < 10 ^ 2 := by omega
  -- Each reader takes what its writer put there and leaves the rest to the next one.
  simp only [UtcTime.read, UtcTime.format, readField_pad (k := 4) years, readField_pad month,
    readField_pad day, readField_pad hour, readField_pad minute, readPad_pad second,
    readFraction_format nanoseconds, expect_cons, bind_eq_bind, bind_some]
  exact dif_pos t.valid

/-! ### Fields of an object -/

def lower (c : Char) : Char :=
  if 65 ≤ c.toNat ∧ c.toNat ≤ 90 then Char.ofNat (c.toNat + 32) else c

/-- Names are compared without regard to case, as `encoding/json` does. -/
def sameName (a b : List Char) : Bool := a.map lower == b.map lower

def find (name : String) : Members → Option Value
  | .nil => none
  | .cons key value rest =>
    match find name rest with
    | some later => some later
    | none => if sameName key name.toList then some value else none

/-- A field of a struct: one that is absent or `null` keeps its zero value. -/
def field {α : Type} (zero : α) (read : Value → Option α) (name : String) (members : Members) :
    Option α :=
  match find name members with
  | none => some zero
  | some .null => some zero
  | some value => read value

def pointer {α : Type} (read : Value → Option α) : Value → Option (Option α) :=
  fun value => (read value).map some

def members : List (String × Value) → Members
  | [] => .nil
  | (name, value) :: rest => .cons name.toList value (members rest)

def object (fields : List (String × Value)) : Value := .obj (members fields)

/-- A pointer under `omitempty`. -/
def omitEmpty {α : Type} (name : String) (encode : α → Value) : Option α → List (String × Value)
  | none => []
  | some x => [(name, encode x)]

def encodeString (s : String) : Value := .str s.toList

def readText : Value → Option String
  | .str s => some (String.ofList s)
  | _ => none

def encodeInt (n : Int64) : Value := .num n.toInt

def readInt : Value → Option Int64
  | .num n => if -2 ^ 63 ≤ n ∧ n < 2 ^ 63 then some (Int64.ofInt n) else none
  | _ => none

def encodeTime (t : UtcTime) : Value := .str t.format

def readTime : Value → Option UtcTime
  | .str s => UtcTime.read s
  | _ => none

@[simp] theorem readText_encode (s : String) : readText (encodeString s) = some s := by
  simp [readText, encodeString]

@[simp] theorem readInt_encode (n : Int64) : readInt (encodeInt n) = some n := by
  have range : -2 ^ 63 ≤ n.toInt ∧ n.toInt < 2 ^ 63 := ⟨n.le_toInt, n.toInt_lt⟩
  rw [encodeInt, readInt, if_pos range, Int64.ofInt_toInt]

@[simp] theorem readTime_encode (t : UtcTime) : readTime (encodeTime t) = some t :=
  t.read_format

/-! ### Messages -/

structure ChatMessage where
  role : String
  content : String
  deriving DecidableEq

structure Usage where
  promptTokens : Int64
  completionTokens : Int64
  totalTokens : Int64
  deriving DecidableEq

structure NodeSignature where
  keyID : String
  algorithm : String
  value : String
  signedAt : UtcTime
  deriving DecidableEq

structure JobCompletedPayload where
  jobID : String
  attemptID : String
  modelID : String
  runtimeHash : String
  modelHash : String
  message : Option ChatMessage
  usage : Usage
  durationMillis : Int64
  finishReason : String
  completedAt : UtcTime
  signature : Option NodeSignature
  deriving DecidableEq

def ChatMessage.fields (message : ChatMessage) : List (String × Value) :=
  [("role", encodeString message.role), ("content", encodeString message.content)]

def ChatMessage.encode (message : ChatMessage) : Value := object message.fields

def ChatMessage.decode : Value → Option ChatMessage
  | .obj m => do
    let role ← field "" readText "role" m
    let content ← field "" readText "content" m
    some ⟨role, content⟩
  | _ => none

def Usage.fields (usage : Usage) : List (String × Value) :=
  [("prompt_tokens", encodeInt usage.promptTokens),
    ("completion_tokens", encodeInt usage.completionTokens),
    ("total_tokens", encodeInt usage.totalTokens)]

def Usage.encode (usage : Usage) : Value := object usage.fields

def Usage.decode : Value → Option Usage
  | .obj m => do
    let promptTokens ← field 0 readInt "prompt_tokens" m
    let completionTokens ← field 0 readInt "completion_tokens" m
    let totalTokens ← field 0 readInt "total_tokens" m
    some ⟨promptTokens, completionTokens, totalTokens⟩
  | _ => none

def NodeSignature.fields (signature : NodeSignature) : List (String × Value) :=
  [("key_id", encodeString signature.keyID), ("algorithm", encodeString signature.algorithm),
    ("value", encodeString signature.value), ("signed_at", encodeTime signature.signedAt)]

def NodeSignature.encode (signature : NodeSignature) : Value := object signature.fields

def NodeSignature.decode : Value → Option NodeSignature
  | .obj m => do
    let keyID ← field "" readText "key_id" m
    let algorithm ← field "" readText "algorithm" m
    let value ← field "" readText "value" m
    let signedAt ← field UtcTime.zero readTime "signed_at" m
    some ⟨keyID, algorithm, value, signedAt⟩
  | _ => none

def JobCompletedPayload.fields (payload : JobCompletedPayload) : List (String × Value) :=
  [("job_id", encodeString payload.jobID), ("attempt_id", encodeString payload.attemptID),
    ("model_id", encodeString payload.modelID), ("runtime_hash", encodeString payload.runtimeHash),
    ("model_hash", encodeString payload.modelHash)] ++
    omitEmpty "message" ChatMessage.encode payload.message ++
    [("usage", payload.usage.encode), ("duration_millis", encodeInt payload.durationMillis),
    ("finish_reason", encodeString payload.finishReason),
    ("completed_at", encodeTime payload.completedAt)] ++
    omitEmpty "signature" NodeSignature.encode payload.signature

def JobCompletedPayload.encode (payload : JobCompletedPayload) : Value := object payload.fields

def JobCompletedPayload.decode : Value → Option JobCompletedPayload
  | .obj m => do
    let jobID ← field "" readText "job_id" m
    let attemptID ← field "" readText "attempt_id" m
    let modelID ← field "" readText "model_id" m
    let runtimeHash ← field "" readText "runtime_hash" m
    let modelHash ← field "" readText "model_hash" m
    let message ← field none (pointer ChatMessage.decode) "message" m
    let usage ← field ⟨0, 0, 0⟩ Usage.decode "usage" m
    let durationMillis ← field 0 readInt "duration_millis" m
    let finishReason ← field "" readText "finish_reason" m
    let completedAt ← field UtcTime.zero readTime "completed_at" m
    let signature ← field none (pointer NodeSignature.decode) "signature" m
    some ⟨jobID, attemptID, modelID, runtimeHash, modelHash, message, usage, durationMillis,
      finishReason, completedAt, signature⟩
  | _ => none

section

variable {zero : α} {read : Value → Option α} {name : String} {x : α}

theorem field_of_find {encoded : Value} (found : find name m = some encoded)
    (present : encoded ≠ .null) (back : read encoded = some x) : field zero read name m = some x := by
  unfold field
  rw [found]
  cases encoded with
  | null => exact absurd rfl present
  | num n => exact back
  | str s => exact back
  | obj inner => exact back

theorem field_of_absent (absent : find name m = none) : field zero read name m = some zero := by
  unfold field
  rw [absent]

end

theorem field_text {s : String} (found : find name m = some (encodeString s)) :
    field "" readText name m = some s :=
  field_of_find found (fun null => by cases null) (readText_encode s)

theorem field_int {n : Int64} (found : find name m = some (encodeInt n)) :
    field 0 readInt name m = some n :=
  field_of_find found (fun null => by cases null) (readInt_encode n)

theorem field_time {t : UtcTime} (found : find name m = some (encodeTime t)) :
    field UtcTime.zero readTime name m = some t :=
  field_of_find found (fun null => by cases null) (readTime_encode t)

theorem field_pointer {encode : α → Value} {decode : Value → Option α}
    (inverse : ∀ x, decode (encode x) = some x) (present : ∀ x, encode x ≠ .null) {x : Option α}
    (found : find name m = x.map encode) : field none (pointer decode) name m = some x := by
  cases x with
  | none => exact field_of_absent found
  | some x =>
    apply field_of_find found (present x)
    rw [pointer, inverse]
    rfl

theorem ChatMessage.decode_encode (message : ChatMessage) :
    ChatMessage.decode message.encode = some message := by
  have role : field "" readText "role" (members message.fields) = some message.role :=
    field_text rfl
  have content : field "" readText "content" (members message.fields) = some message.content :=
    field_text rfl
  simp only [ChatMessage.encode, object, ChatMessage.decode, role, content, bind_eq_bind,
    bind_some]

theorem Usage.decode_encode (usage : Usage) : Usage.decode usage.encode = some usage := by
  have prompt : field 0 readInt "prompt_tokens" (members usage.fields) = some usage.promptTokens :=
    field_int rfl
  have completion : field 0 readInt "completion_tokens" (members usage.fields) =
      some usage.completionTokens := field_int rfl
  have total : field 0 readInt "total_tokens" (members usage.fields) = some usage.totalTokens :=
    field_int rfl
  simp only [Usage.encode, object, Usage.decode, prompt, completion, total, bind_eq_bind,
    bind_some]

theorem NodeSignature.decode_encode (signature : NodeSignature) :
    NodeSignature.decode signature.encode = some signature := by
  have keyID : field "" readText "key_id" (members signature.fields) = some signature.keyID :=
    field_text rfl
  have algorithm : field "" readText "algorithm" (members signature.fields) =
      some signature.algorithm := field_text rfl
  have value : field "" readText "value" (members signature.fields) = some signature.value :=
    field_text rfl
  have signedAt : field UtcTime.zero readTime "signed_at" (members signature.fields) =
      some signature.signedAt := field_time rfl
  simp only [NodeSignature.encode, object, NodeSignature.decode, keyID, algorithm, value, signedAt,
    bind_eq_bind, bind_some]

structure JobCompletedPayload.Written (payload : JobCompletedPayload) (m : Members) : Prop where
  jobID : find "job_id" m = some (encodeString payload.jobID)
  attemptID : find "attempt_id" m = some (encodeString payload.attemptID)
  modelID : find "model_id" m = some (encodeString payload.modelID)
  runtimeHash : find "runtime_hash" m = some (encodeString payload.runtimeHash)
  modelHash : find "model_hash" m = some (encodeString payload.modelHash)
  message : find "message" m = payload.message.map ChatMessage.encode
  usage : find "usage" m = some payload.usage.encode
  durationMillis : find "duration_millis" m = some (encodeInt payload.durationMillis)
  finishReason : find "finish_reason" m = some (encodeString payload.finishReason)
  completedAt : find "completed_at" m = some (encodeTime payload.completedAt)
  signature : find "signature" m = payload.signature.map NodeSignature.encode

theorem JobCompletedPayload.decode_of_written {payload : JobCompletedPayload}
    (written : payload.Written m) : JobCompletedPayload.decode (.obj m) = some payload := by
  have message := field_pointer ChatMessage.decode_encode (fun x null => by cases null)
    written.message
  have signature := field_pointer NodeSignature.decode_encode (fun x null => by cases null)
    written.signature
  have usage : field ⟨0, 0, 0⟩ Usage.decode "usage" m = some payload.usage :=
    field_of_find written.usage (fun null => by cases null) (Usage.decode_encode _)
  simp only [JobCompletedPayload.decode, field_text written.jobID, field_text written.attemptID,
    field_text written.modelID, field_text written.runtimeHash, field_text written.modelHash,
    message, usage, field_int written.durationMillis, field_text written.finishReason,
    field_time written.completedAt, signature, bind_eq_bind, bind_some]

theorem JobCompletedPayload.written_fields (payload : JobCompletedPayload) :
    payload.Written (members payload.fields) := by
  obtain ⟨jobID, attemptID, modelID, runtimeHash, modelHash, message, usage, durationMillis,
    finishReason, completedAt, signature⟩ := payload
  cases message <;> cases signature <;>
    exact ⟨rfl, rfl, rfl, rfl, rfl, rfl, rfl, rfl, rfl, rfl, rfl⟩

theorem JobCompletedPayload.decode_encode (payload : JobCompletedPayload) :
    JobCompletedPayload.decode payload.encode = some payload :=
  decode_of_written payload.written_fields

/-! ### What is written can be parsed -/

def marshalCompleted (payload : JobCompletedPayload) : List Char := payload.encode.render

def unmarshalCompleted (text : List Char) : Option JobCompletedPayload := do
  let value ← parse text
  JobCompletedPayload.decode value

theorem unmarshalCompleted_marshal (payload : JobCompletedPayload) :
    unmarshalCompleted (marshalCompleted payload) = some payload := by
  rw [unmarshalCompleted, marshalCompleted, parse_render]
  exact payload.decode_encode

theorem marshalCompleted_injective : Function.Injective marshalCompleted := by
  intro payload other same
  have read := unmarshalCompleted_marshal payload
  rw [same, unmarshalCompleted_marshal other] at read
  exact (Option.some.inj read).symm

/-! ### Envelopes -/

/-- `Payload` is the text of a value. -/
structure Envelope where
  protocolVersion : String
  messageID : String
  type : String
  sentAt : UtcTime
  payload : List Char

def version : String := "1.0"

def typeJobCompleted : String := "job.completed"

def requiredMessageTypes : List String :=
  ["node.hello", "node.heartbeat", "node.state_changed", "model.download_progress", "model.ready",
    "job.accepted", "job.rejected", "job.started", typeJobCompleted, "job.failed",
    "node.safety_event", "node.log_event", "session.accepted", "node.config_updated",
    "model.assign", "model.unload", "job.offer", "job.cancel", "node.drain",
    "runtime.update_available"]

def isKnownMessageType (typ : String) : Bool := requiredMessageTypes.contains typ

/-- The time is already in UTC, so `sentAt.UTC()` leaves it. -/
def newEnvelope (messageID typ : String) (sentAt : UtcTime) (body : List Char) :
    Except String Envelope :=
  if isKnownMessageType typ then .ok ⟨version, messageID, typ, sentAt, body⟩
  else .error ("unknown message type \"" ++ typ ++ "\"")

def Envelope.fields (envelope : Envelope) (payload : Value) : List (String × Value) :=
  [("protocol_version", encodeString envelope.protocolVersion),
    ("message_id", encodeString envelope.messageID), ("type", encodeString envelope.type),
    ("sent_at", encodeTime envelope.sentAt), ("payload", payload)]

/-- A `RawMessage` is written without the white space around its parts. -/
def Envelope.marshal (envelope : Envelope) : Except String (List Char) :=
  if envelope.protocolVersion ≠ version then
    .error ("unsupported protocol version \"" ++ envelope.protocolVersion ++ "\"")
  else if ¬ isKnownMessageType envelope.type then
    .error ("unknown message type \"" ++ envelope.type ++ "\"")
  else match parse envelope.payload with
    | none => .error "payload is not valid JSON"
    | some payload => .ok (object (envelope.fields payload)).render

/-- A `RawMessage` keeps the text of its value; one that is absent is empty. -/
def readRaw (m : Members) : List Char :=
  match find "payload" m with
  | none => []
  | some value => value.render

def Envelope.decode : Value → Option Envelope
  | .obj m => do
    let protocolVersion ← field "" readText "protocol_version" m
    let messageID ← field "" readText "message_id" m
    let typ ← field "" readText "type" m
    let sentAt ← field UtcTime.zero readTime "sent_at" m
    some ⟨protocolVersion, messageID, typ, sentAt, readRaw m⟩
  | _ => none

/-- The first error is the decoder's own, whose text is left out. -/
def Envelope.unmarshal (data : List Char) : Except String Envelope :=
  match (parse data).bind Envelope.decode with
  | none => .error "invalid JSON"
  | some envelope =>
    if envelope.protocolVersion ≠ version then
      .error ("unsupported protocol version \"" ++ envelope.protocolVersion ++ "\"")
    else if ¬ isKnownMessageType envelope.type then
      .error ("unknown message type \"" ++ envelope.type ++ "\"")
    else if (parse envelope.payload).isNone then .error "payload is not valid JSON"
    else .ok envelope

theorem Envelope.decode_fields (envelope : Envelope) (payload : Value) :
    Envelope.decode (object (envelope.fields payload)) =
      some { envelope with payload := payload.render } := by
  have protocolVersion : field "" readText "protocol_version" (members (envelope.fields payload)) =
      some envelope.protocolVersion := field_text rfl
  have messageID : field "" readText "message_id" (members (envelope.fields payload)) =
      some envelope.messageID := field_text rfl
  have typ : field "" readText "type" (members (envelope.fields payload)) = some envelope.type :=
    field_text rfl
  have sentAt : field UtcTime.zero readTime "sent_at" (members (envelope.fields payload)) =
      some envelope.sentAt := field_time rfl
  have raw : readRaw (members (envelope.fields payload)) = payload.render := rfl
  simp only [object, Envelope.decode, protocolVersion, messageID, typ, sentAt, raw,
    bind_eq_bind, bind_some]

theorem Envelope.marshal_unmarshal {envelope : Envelope} {payload : Value}
    (current : envelope.protocolVersion = version) (known : isKnownMessageType envelope.type = true)
    (body : envelope.payload = payload.render) :
    ∃ text, envelope.marshal = .ok text ∧ Envelope.unmarshal text = .ok envelope := by
  have parsed : parse envelope.payload = some payload := by rw [body, parse_render]
  have back : ({ envelope with payload := payload.render } : Envelope) = envelope := by rw [← body]
  refine ⟨(object (envelope.fields payload)).render, ?_, ?_⟩
  · simp [Envelope.marshal, current, known, parsed]
  · have read : (parse (object (envelope.fields payload)).render).bind Envelope.decode =
        some envelope := by
      rw [parse_render, bind_some, envelope.decode_fields, back]
    simp [Envelope.unmarshal, read, current, known, parsed]

/-! ### Signatures -/

/-- Ed25519 and base64. A signature under a key pair verifies for the text that was signed and for no
other one. -/
structure Scheme where
  Signature : Type
  KeyPair : List UInt8 → List UInt8 → Prop
  sign : List UInt8 → List Char → Signature
  verify : List UInt8 → List Char → Signature → Bool
  encodeToString : Signature → String
  decodeString : String → Option Signature
  sizes : ∀ {privateKey publicKey}, KeyPair privateKey publicKey →
    privateKey.length = 64 ∧ publicKey.length = 32
  correct : ∀ {privateKey publicKey}, KeyPair privateKey publicKey → ∀ body,
    verify publicKey body (sign privateKey body) = true
  unforgeable : ∀ {privateKey publicKey}, KeyPair privateKey publicKey → ∀ {body other},
    verify publicKey other (sign privateKey body) = true → other = body
  base64 : ∀ signature, decodeString (encodeToString signature) = some signature

def signJobCompleted (scheme : Scheme) (privateKey : List UInt8) (keyID : String)
    (payload : JobCompletedPayload) (signedAt : UtcTime) : Except String NodeSignature :=
  if privateKey.length ≠ 64 then
    .error ("private key has " ++ toString privateKey.length ++ " bytes, want 64")
  else
    .ok { keyID
          algorithm := "ed25519"
          value := scheme.encodeToString
            (scheme.sign privateKey (marshalCompleted { payload with signature := none }))
          signedAt }

def verifyJobCompleted (scheme : Scheme) (publicKey : List UInt8) (payload : JobCompletedPayload) :
    Except String Unit :=
  verifySigned scheme.decodeString scheme.verify publicKey
    (marshalCompleted { payload with signature := none })
    (payload.signature.map fun s => (s.algorithm, s.value))

/-- The payload as the coordinator keeps it, with the instants that the times stand for. -/
def JobCompletedPayload.decoded (instant : UtcTime → Time) (p : JobCompletedPayload) :
    Thirdshift.JobCompletedPayload :=
  ⟨p.jobID, p.attemptID, p.modelID, p.runtimeHash, p.modelHash,
    p.message.map fun m => ⟨m.role, m.content⟩,
    ⟨p.usage.promptTokens.toInt, p.usage.completionTokens.toInt, p.usage.totalTokens.toInt⟩,
    p.durationMillis.toInt, p.finishReason, instant p.completedAt,
    p.signature.map fun s => ⟨s.keyID, s.algorithm, s.value, instant s.signedAt⟩⟩

/-- With a library that does what the scheme does, the coordinator verifies what it keeps of a
payload as the payload itself. -/
theorem verifyJobCompleted_decoded {scheme : Scheme} {instant : UtcTime → Time} {crypto : Crypto}
    {publicKey : List UInt8} {p : JobCompletedPayload} (same : ∀ value,
      (crypto.decodeString value).map (crypto.verify publicKey
        (crypto.marshal (JobCompletedPayload.decoded instant { p with signature := none }))) =
      (scheme.decodeString value).map (scheme.verify publicKey
        (marshalCompleted { p with signature := none }))) :
    Service.verifyJobCompleted crypto publicKey (p.decoded instant) =
      verifyJobCompleted scheme publicKey p := by
  unfold Service.verifyJobCompleted verifyJobCompleted verifySigned
  cases signed : p.signature with
  | none => simp [JobCompletedPayload.decoded, signed]
  | some s =>
    have here := same s.value
    simp only [JobCompletedPayload.decoded, signed, Option.map_some, Option.map_none] at here ⊢
    cases ours : crypto.decodeString s.value <;> cases theirs : scheme.decodeString s.value <;>
      simp_all

/-- The end of `handleJobOffer`: the signed payload goes out in an envelope. -/
def sendCompleted (messageID : String) (sentAt : UtcTime) (payload : JobCompletedPayload) :
    Except String (List Char) := do
  let envelope ← newEnvelope messageID typeJobCompleted sentAt (marshalCompleted payload)
  envelope.marshal

def receiveCompleted (text : List Char) : Except String JobCompletedPayload := do
  let envelope ← Envelope.unmarshal text
  match unmarshalCompleted envelope.payload with
  | some payload => .ok payload
  | none => .error "invalid JSON"

theorem receive_sent (messageID : String) (sentAt : UtcTime) (payload : JobCompletedPayload) :
    ∃ text, sendCompleted messageID sentAt payload = .ok text ∧
      receiveCompleted text = .ok payload := by
  have known : isKnownMessageType typeJobCompleted = true := by decide
  let envelope : Envelope :=
    ⟨version, messageID, typeJobCompleted, sentAt, marshalCompleted payload⟩
  have opened : newEnvelope messageID typeJobCompleted sentAt (marshalCompleted payload) =
      .ok envelope := if_pos known
  obtain ⟨text, written, read⟩ :=
    @Envelope.marshal_unmarshal envelope payload.encode rfl known rfl
  refine ⟨text, ?_, ?_⟩
  · rw [sendCompleted, opened]
    exact written
  · rw [receiveCompleted, read]
    change (match unmarshalCompleted (marshalCompleted payload) with
      | some payload => Except.ok payload
      | none => .error "invalid JSON") = .ok payload
    rw [unmarshalCompleted_marshal]

section

variable {scheme : Scheme} {privateKey publicKey : List UInt8}

theorem signJobCompleted_ok (pair : scheme.KeyPair privateKey publicKey) (keyID : String)
    (payload : JobCompletedPayload) (signedAt : UtcTime) :
    signJobCompleted scheme privateKey keyID payload signedAt =
      .ok ⟨keyID, "ed25519", scheme.encodeToString (scheme.sign privateKey
        (marshalCompleted { payload with signature := none })), signedAt⟩ := by
  rw [signJobCompleted, if_neg]
  exact fun short => short (scheme.sizes pair).1

theorem verify_signed (pair : scheme.KeyPair privateKey publicKey) {keyID : String}
    {signedAt : UtcTime} {payload : JobCompletedPayload} {signature : NodeSignature}
    (signed : signJobCompleted scheme privateKey keyID payload signedAt = .ok signature)
    (other : JobCompletedPayload) :
    verifyJobCompleted scheme publicKey { other with signature := some signature } =
      if scheme.verify publicKey (marshalCompleted { other with signature := none })
          (scheme.sign privateKey (marshalCompleted { payload with signature := none })) then
        .ok ()
      else .error "job completion signature verification failed" := by
  rw [signJobCompleted_ok pair] at signed
  obtain rfl := Except.ok.inj signed
  unfold verifyJobCompleted verifySigned
  rw [if_neg fun short => short (scheme.sizes pair).2]
  simp only [Option.map_some, ne_eq, not_true_eq_false, if_false, scheme.base64]

end

/-- A signed result verifies after the wire, and its signature is good for no payload that differs
in another field. -/
theorem signed_results_survive_and_bind (scheme : Scheme) (privateKey publicKey : List UInt8)
    (pair : scheme.KeyPair privateKey publicKey) :
    (∀ (payload : JobCompletedPayload) (keyID messageID : String) (signedAt sentAt : UtcTime),
      ∃ signature text received,
        signJobCompleted scheme privateKey keyID payload signedAt = .ok signature ∧
        sendCompleted messageID sentAt { payload with signature := some signature } = .ok text ∧
        receiveCompleted text = .ok received ∧
        received = { payload with signature := some signature } ∧
        verifyJobCompleted scheme publicKey received = .ok ()) ∧
    ∀ (payload other : JobCompletedPayload) (keyID : String) (signedAt : UtcTime)
      (signature : NodeSignature),
      { payload with signature := none } ≠ { other with signature := none } →
      signJobCompleted scheme privateKey keyID payload signedAt = .ok signature →
      verifyJobCompleted scheme publicKey { other with signature := some signature } =
        .error "job completion signature verification failed" := by
  constructor
  · intro payload keyID messageID signedAt sentAt
    have signed := signJobCompleted_ok pair keyID payload signedAt
    obtain ⟨text, sent, received⟩ := receive_sent messageID sentAt { payload with signature := some _ }
    refine ⟨_, text, _, signed, sent, received, rfl, ?_⟩
    rw [verify_signed pair signed, if_pos (scheme.correct pair _)]
  · intro payload other keyID signedAt signature different signed
    rw [verify_signed pair signed, if_neg]
    intro verified
    -- The text that verifies is the one that was signed, and it determines the other payload.
    have same := scheme.unforgeable pair verified
    exact different (marshalCompleted_injective same).symm

/-- A scheme whose signature of a text is the text. -/
def plainScheme : Scheme where
  Signature := List Char
  KeyPair privateKey publicKey := privateKey.length = 64 ∧ publicKey.length = 32
  sign _ body := body
  verify _ body signature := body == signature
  encodeToString := String.ofList
  decodeString s := some s.toList
  sizes pair := pair
  correct _ body := beq_self_eq_true body
  unforgeable _ _ _ verified := eq_of_beq verified
  base64 _ := by rw [String.toList_ofList]

/-- A completion whose text needs escapes, without a message. -/
def quotedResult : JobCompletedPayload where
  jobID := "job\"1\""
  attemptID := "a<b"
  modelID := "llama"
  runtimeHash := "r"
  modelHash := "m"
  message := none
  usage := ⟨1, 2, 3⟩
  durationMillis := -5
  finishReason := "stop\n"
  completedAt := ⟨⟨2024, 2, 29, 23, 59, 59, 120000000⟩, by decide⟩
  signature := none

theorem signed_results_survive_and_bind_quoted :
    plainScheme.KeyPair (List.replicate 64 0) (List.replicate 32 0) ∧
    (∃ signature text received,
      signJobCompleted plainScheme (List.replicate 64 0) "k" quotedResult quotedResult.completedAt =
        .ok signature ∧
      sendCompleted "1" UtcTime.zero { quotedResult with signature := some signature } = .ok text ∧
      receiveCompleted text = .ok received ∧
      received = { quotedResult with signature := some signature } ∧
      verifyJobCompleted plainScheme (List.replicate 32 0) received = .ok ()) ∧
    ∀ signature,
      signJobCompleted plainScheme (List.replicate 64 0) "k" quotedResult quotedResult.completedAt =
        .ok signature →
      verifyJobCompleted plainScheme (List.replicate 32 0)
        { quotedResult with message := some ⟨"", ""⟩, signature := some signature } =
          .error "job completion signature verification failed" := by
  have pair : plainScheme.KeyPair (List.replicate 64 0) (List.replicate 32 0) :=
    ⟨length_replicate, length_replicate⟩
  have both := signed_results_survive_and_bind plainScheme _ _ pair
  refine ⟨pair, both.1 quotedResult "k" "1" quotedResult.completedAt UtcTime.zero, ?_⟩
  intro signature signed
  apply both.2 quotedResult { quotedResult with message := some ⟨"", ""⟩ } "k" _ signature _ signed
  intro same
  cases congrArg JobCompletedPayload.message same

end Thirdshift.Wire
