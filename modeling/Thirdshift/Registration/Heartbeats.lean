import Thirdshift.Registration.Presence

/-!
# Heartbeats as they are sent

A field that a heartbeat leaves out is an empty string once it is decoded, and `RecordHeartbeat`
makes NULL of an empty string. The schema lets a heartbeat leave out its schedule state and its
thermal state, and their columns refuse NULL. The schema also lets an integer be written with a
fraction and a timestamp be any text, which do not decode, and a text hold U+0000, which no column
takes. Such a heartbeat is lost, with the state and the model it reports.
-/

namespace Thirdshift

open Foundation Table Option SessionStore Tx

/-- A number with an integral value; `plain` if it is written without a fraction and an exponent. -/
structure JsonInt where
  value : Int
  plain : Bool

/-- It decodes as an `int64`. -/
def JsonInt.decodes (n : JsonInt) : Bool := n.plain && isInt8 n.value

structure HeartbeatMessage.GPUStatus where
  name : String
  vramTotalMB : JsonInt
  vramFreeMB : JsonInt
  temperatureC : JsonInt
  powerW : JsonInt
  powerLimitW : JsonInt
  utilizationPercent : JsonInt

/-- The payload of a `node.heartbeat` message in a known state. What may be left out is an option. -/
structure HeartbeatMessage where
  nodeID : NodeID
  sequence : JsonInt
  state : NodeState
  modelID : Option String
  runtimeHash : Option String
  modelHash : Option String
  gpu : HeartbeatMessage.GPUStatus
  activeJobID : Option String
  scheduleState : Option String
  thermalState : Option String
  paused : Option Bool
  draining : Option Bool
  uptimeSeconds : JsonInt
  timestamp : String

/-- The decoded payload, with the columns that nothing but the insert reads. -/
structure DecodedHeartbeat where
  payload : NodeHeartbeatPayload
  gpuName : String
  activeJobID : Option String
  uptimeSeconds : Int
  timestamp : Time

/-- Neither a text column nor a `jsonb` one takes U+0000. -/
def storable (text : String) : Bool := '\x00' ∉ text.toList

/-- The pattern `^sha256:.+`. -/
def isHash (hash : String) : Prop :=
  ∃ c rest, hash.toList = "sha256:".toList ++ c :: rest ∧ c ≠ '\n'

namespace HeartbeatMessage

def numbers (m : HeartbeatMessage) : List JsonInt :=
  [m.sequence, m.gpu.vramTotalMB, m.gpu.vramFreeMB, m.gpu.temperatureC, m.gpu.powerW,
    m.gpu.powerLimitW, m.gpu.utilizationPercent, m.uptimeSeconds]

structure Valid (m : HeartbeatMessage) : Prop where
  sequence : 0 ≤ m.sequence.value
  runtimeHash : ∀ hash ∈ m.runtimeHash, isHash hash
  modelHash : ∀ hash ∈ m.modelHash, isHash hash
  gpu : ∀ n ∈ [m.gpu.vramTotalMB, m.gpu.vramFreeMB, m.gpu.powerW, m.gpu.powerLimitW,
    m.gpu.utilizationPercent], 0 ≤ n.value
  utilization : m.gpu.utilizationPercent.value ≤ 100
  scheduleState : ∀ s ∈ m.scheduleState, s ∈ ["in_window", "out_of_window"]
  thermalState : ∀ s ∈ m.thermalState, s ∈ ["normal", "warm", "hard_limit"]
  uptimeSeconds : 0 ≤ m.uptimeSeconds.value

def payload (m : HeartbeatMessage) : NodeHeartbeatPayload :=
  ⟨m.nodeID, m.sequence.value, some m.state, m.modelID.getD "", m.runtimeHash.getD "",
    m.modelHash.getD "", m.scheduleState.getD "", m.thermalState.getD "", m.paused.getD false,
    m.draining.getD false⟩

/-- `json.Unmarshal`, with the parser of `time.Time`. -/
def decode (parseTime : String → Option Time) (m : HeartbeatMessage) : Option DecodedHeartbeat :=
  if m.numbers.all JsonInt.decodes then
    (parseTime m.timestamp).map fun timestamp =>
      ⟨m.payload, m.gpu.name, m.activeJobID, m.uptimeSeconds.value, timestamp⟩
  else none

/-- The node's state, its model and the freshness of the session are those of the message. -/
structure ReflectedIn (m : HeartbeatMessage) (sessionID : SessionID) (receivedAt : Time) (db : Db) :
    Prop where
  state : (db.nodes.find? m.nodeID).map Node.state = some m.state
  model : (db.nodes.find? m.nodeID).map Node.currentModelID = some (m.modelID.filter (· ≠ ""))
  heard : (db.sessions.find? sessionID).map NodeSession.lastHeartbeatAt = some (some receivedAt)

/-- Both states are named, the numbers and the timestamp decode, and no text that is stored
holds U+0000. -/
structure Recordable (parseTime : String → Option Time) (m : HeartbeatMessage) : Prop where
  scheduleState : m.scheduleState.isSome = true
  thermalState : m.thermalState.isSome = true
  numbers : m.numbers.all JsonInt.decodes = true
  timestamp : (parseTime m.timestamp).isSome = true
  texts : ∀ text ∈ [m.modelID.getD "", m.runtimeHash.getD "", m.modelHash.getD "", m.gpu.name,
    m.activeJobID.getD ""], storable text = true

end HeartbeatMessage

/-- `RecordHeartbeat`: the insert with all its columns, and the updates. -/
def DecodedHeartbeat.record (heartbeatID : String) (sessionID : SessionID) (state : NodeState)
    (receivedAt : Time) (h : DecodedHeartbeat) : SqlTx Unit := do
  require ((∀ text ∈ [h.payload.modelID, h.payload.runtimeHash, h.payload.modelHash, h.gpuName,
    h.activeJobID.getD ""], storable text = true) ∧ 0 ≤ h.uptimeSeconds)
    (.other "insert heartbeat: a column refuses its value")
  recordHeartbeat heartbeatID sessionID h.payload state receivedAt

section

variable {db : Db}

theorem exec_then {α β : Type} {t : SqlTx α} {f : α → SqlTx β} {a : α} {mid : Db}
    {last : Except GoError (β × Db)} (first : exec schema t db = .ok (a, mid))
    (rest : exec schema (f a) mid = last) : exec schema (t >>= f) db = last := by
  rw [exec_bind, first]
  exact rest

theorem exec_require {c : Prop} [Decidable c] {e : GoError} (holds : c) :
    exec schema (require c e) db = .ok ((), db) := by
  rw [require, if_pos holds]
  rfl

theorem exec_insertRow {row : Row} (admitted : schema.admits db (.insert row) = true) :
    exec schema (insertRow row) db = .ok ((), db.put row) := by
  simp only [insertRow, write, exec, Schema.applyWrites, admitted, if_true]
  rfl

theorem exec_updateRow {ρ : Type} {key : ρ → String} (table : Db → Table key) (row : ρ → Row)
    {k : String} {f : ρ → ρ} {r : ρ} (found : (table db).find? k = some r)
    (admitted : schema.admits db (.update (row (f r))) = true) :
    ∃ n, exec schema (updateRows table row (fun r => key r = k) f) db =
      .ok (n, db.put (row (f r))) := by
  refine ⟨((table db).rows.filter fun r => key r = k).length, ?_⟩
  simp only [updateRows, write, exec, updated_key, found, map_some,
    toList_some, List.map_cons, List.map_nil, Schema.applyWrites, admitted, if_true]
  rfl

variable {heartbeatID : String} {sessionID : SessionID} {receivedAt : Time} {n : Node}
  {s : NodeSession} {m : HeartbeatMessage} {parseTime : String → Option Time}

theorem emptyToNull_getD (field : Option String) :
    emptyToNull (field.getD "") = field.filter (· ≠ "") := by
  cases field with
  | none => rfl
  | some value => by_cases empty : value = "" <;> simp [emptyToNull, Option.filter, empty]

variable (valid : m.Valid) (node : db.nodes.find? m.nodeID = some n)
  (session : db.sessions.find? sessionID = some s) (own : s.nodeID = m.nodeID)
  (new : db.heartbeats.find? heartbeatID = none) (balanced : db.balanced = true)
include valid node session own new balanced

theorem recordHeartbeat_reflected (recordable : m.Recordable parseTime) : ∃ h db',
      m.decode parseTime = some h ∧
      run schema (h.record heartbeatID sessionID m.state receivedAt) db = .ok ((), db') ∧
      m.ReflectedIn sessionID receivedAt db' := by
  obtain ⟨schedule, isSchedule⟩ := isSome_iff_exists.mp recordable.scheduleState
  obtain ⟨thermal, isThermal⟩ := isSome_iff_exists.mp recordable.thermalState
  obtain ⟨sentAt, parsed⟩ := isSome_iff_exists.mp recordable.timestamp
  have known : m.payload.scheduleState ∈ ["in_window", "out_of_window"] ∧
      m.payload.thermalState ∈ ["normal", "warm", "hard_limit"] := by
    simp only [HeartbeatMessage.payload, isSchedule, isThermal, getD_some]
    exact ⟨valid.scheduleState schedule isSchedule, valid.thermalState thermal isThermal⟩
  have given : m.payload.scheduleState ≠ "" ∧ m.payload.thermalState ≠ "" :=
    ⟨fun empty => by simp [empty] at known, fun empty => by simp [empty] at known⟩
  have keyN : n.id = m.nodeID := key_of_find? node
  have keyS : s.id = sessionID := key_of_find? session
  let row : NodeHeartbeat := ⟨heartbeatID, m.nodeID, sessionID, m.sequence.value,
    emptyToNull m.payload.modelHash, emptyToNull m.payload.runtimeHash,
    m.payload.scheduleState, m.payload.thermalState, m.payload.paused, m.payload.draining, receivedAt⟩
  let onNode (n : Node) : Node :=
    { n with state := m.state, currentModelID := emptyToNull m.payload.modelID }
  let onSession (s : NodeSession) : NodeSession := { s with lastHeartbeatAt := some receivedAt }
  let db₁ := db.put (.heartbeat row)
  let db₂ := db₁.put (.node (onNode n))
  have inserts : schema.admits db (.insert (.heartbeat row)) = true := by
    simp [Schema.admits, schema, Db.get, Row.key, row, new, Db.clashes, Row.index, Db.valid,
      Db.hasNode, node, session, valid.sequence]
  obtain ⟨_, updatesNode⟩ : ∃ k, exec schema (updateNodes (fun n => n.id = m.nodeID) onNode) db₁ =
      .ok (k, db₂) := exec_updateRow Db.nodes .node node rfl
  obtain ⟨_, updatesSession⟩ : ∃ k, exec schema
      (updateSessions (fun s => s.id = sessionID) onSession) db₂ =
      .ok (k, db₂.put (.session (onSession s))) := by
    refine exec_updateRow Db.sessions .session session ?_
    simp [Schema.admits, schema, Db.clashes, Row.index, Db.valid, Db.hasNode, db₂, Db.put, onNode,
      onSession, own, keyN]
  let h : DecodedHeartbeat := ⟨m.payload, m.gpu.name, m.activeJobID, m.uptimeSeconds.value, sentAt⟩
  have through : exec schema (h.record heartbeatID sessionID m.state receivedAt) db =
      .ok ((), db₂.put (.session (onSession s))) :=
    exec_then (exec_require ⟨recordable.texts, valid.uptimeSeconds⟩)
      (exec_then (exec_require given) (exec_then (exec_require known) (exec_then
        (exec_insertRow inserts) (exec_then updatesNode (exec_then updatesSession rfl)))))
  refine ⟨h, db₂.put (.session (onSession s)), ?_, ?_, ?_⟩
  · rw [HeartbeatMessage.decode, if_pos recordable.numbers, parsed]
    rfl
  · rw [run, through]
    exact if_pos balanced
  · have found : db₂.nodes.find? m.nodeID = some (onNode n) := keyN ▸ find?_put_self ..
    have heard : (db₂.sessions.put (onSession s)).find? sessionID = some (onSession s) :=
      keyS ▸ find?_put_self ..
    refine ⟨congrArg (Option.map _) found, (congrArg (Option.map _) found).trans ?_,
      congrArg (Option.map _) heard⟩
    exact congrArg some (emptyToNull_getD m.modelID)

/-- A heartbeat that satisfies the schema, over an open session of its node, is recorded if and only
if it is recordable. -/
theorem heartbeat_recorded_iff : (∃ h db', m.decode parseTime = some h ∧
      run schema (h.record heartbeatID sessionID m.state receivedAt) db = .ok ((), db') ∧
      m.ReflectedIn sessionID receivedAt db') ↔ m.Recordable parseTime := by
  constructor
  · rintro ⟨h, db', decoded, ran, -⟩
    unfold HeartbeatMessage.decode at decoded
    split at decoded
    next numbers =>
      obtain ⟨sentAt, parsed, rfl⟩ := Option.map_eq_some_iff.mp decoded
      obtain ⟨_, _, stores, rest⟩ := exec_bind_ok (run_ok ran).1
      obtain ⟨⟨texts, -⟩, rfl⟩ := require_ok stores
      obtain ⟨_, _, required, -⟩ := exec_bind_ok rest
      obtain ⟨schedule, thermal⟩ := (require_ok required).1
      refine ⟨isSome_iff_ne_none.mpr fun omitted => ?_, isSome_iff_ne_none.mpr fun omitted => ?_,
        numbers, isSome_iff_exists.mpr ⟨sentAt, parsed⟩, texts⟩
      · exact schedule (by simp [HeartbeatMessage.payload, omitted])
      · exact thermal (by simp [HeartbeatMessage.payload, omitted])
    · cases decoded
  · exact recordHeartbeat_reflected valid node session own new balanced

end

def connectedNode : Db := SessionCall.applyAll [.openSession "s1" "n1" 0] (.registered .empty ["n1"])

/-- A heartbeat of the node that leaves out what it may, but for its states. -/
def sparseHeartbeat (scheduleState thermalState : Option String) : HeartbeatMessage :=
  ⟨"n1", ⟨1, true⟩, .available, none, none, none,
    ⟨"gpu", ⟨8, true⟩, ⟨4, true⟩, ⟨40, true⟩, ⟨90, true⟩, ⟨200, true⟩, ⟨5, true⟩⟩, none,
    scheduleState, thermalState, none, none, ⟨60, true⟩, "2026-01-01T00:00:00Z"⟩

/-- Takes the one timestamp that the heartbeats below are sent with. -/
def parseSent (text : String) : Option Time :=
  if text = "2026-01-01T00:00:00Z" then some 5 else none

theorem heartbeat_recorded_iff_sparse : ∃ h db',
    (sparseHeartbeat (some "in_window") (some "normal")).decode parseSent = some h ∧
    run schema (h.record "h1" "s1" .available 10) connectedNode = .ok ((), db') ∧
      (sparseHeartbeat (some "in_window") (some "normal")).ReflectedIn "s1" 10 db' := by
  have valid : (sparseHeartbeat (some "in_window") (some "normal")).Valid := by
    constructor <;> simp [sparseHeartbeat]
  have recordable : (sparseHeartbeat (some "in_window") (some "normal")).Recordable parseSent := by
    constructor <;> decide
  have session : connectedNode.sessions.find? "s1" =
    some ⟨"s1", "n1", .connected, 0, none, none⟩ := rfl
  obtain ⟨n, node⟩ := isSome_iff_exists.mp
    (show (connectedNode.nodes.find? "n1").isSome = true by decide +kernel)
  exact (heartbeat_recorded_iff valid node session rfl rfl (by decide +kernel)).mpr recordable

/-- Without its states a heartbeat that satisfies the schema is decoded and refused, and the node
stays offline. -/
theorem heartbeat_without_states_refused : (sparseHeartbeat none none).Valid ∧
    ((sparseHeartbeat none none).decode parseSent).any (fun h =>
      (run schema (h.record "h1" "s1" .available 10) connectedNode).toOption.isNone) = true := by
  refine ⟨?_, by decide +kernel⟩
  constructor <;> simp [sparseHeartbeat]

end Thirdshift
