import Thirdshift.Jobs.Effects

/-!
# Calls on nodes and sessions

The calls that move a node and its sessions, from the node's own connection, from the sweeper and
from an operator, and what each of them does to the rows of both tables.
-/

namespace Thirdshift

open Foundation Table Tx

inductive SessionCall
  | openSession (sessionID : SessionID) (nodeID : NodeID) (now : Time)
  | recordHeartbeat (heartbeatID : String) (sessionID : SessionID) (hb : NodeHeartbeatPayload)
      (state : NodeState) (receivedAt : Time)
  | recordStateChanged (nodeID : NodeID) (state : NodeState)
  | closeSession (sessionID : SessionID) (nodeID : NodeID) (now : Time)
  | markStale (cutoff now : Time)
  | drainNode (nodeID : NodeID)
  | pauseNode (nodeID : NodeID)
  | quarantineNode (nodeID : NodeID) (now : Time)

def Db.registered (catalog : Catalog) (nodeIDs : List NodeID) : Db :=
  ⟨.empty, .empty, .empty, .empty, .empty, .empty, .empty, .empty, .empty, .empty, .empty, .empty,
    nodeIDs.foldl (fun nodes id => nodes.put ⟨id, .offline, none, none, none⟩) .empty, .empty,
    .empty, catalog⟩

def NodeSession.silent (s : NodeSession) (cutoff : Time) : Bool :=
  s.state = .connected ∧ s.lastHeartbeatAt.getD s.connectedAt < cutoff

/-- A session over which the node can still be reached, or is being drained. -/
def NodeSession.live (s : NodeSession) : Bool := s.state = .connected ∨ s.state = .draining

namespace SessionCall

def tx : SessionCall → SqlTx Unit
  | .openSession sessionID nodeID now => SessionStore.openSession sessionID nodeID now
  | .recordHeartbeat heartbeatID sessionID hb state receivedAt =>
    SessionStore.recordHeartbeat heartbeatID sessionID hb state receivedAt
  | .recordStateChanged nodeID state => SessionStore.recordStateChanged nodeID state
  | .closeSession sessionID nodeID now => SessionStore.closeSession sessionID nodeID now
  | .markStale cutoff now => SessionStore.markStale cutoff now
  | .drainNode nodeID => OperatorStore.drainNode nodeID
  | .pauseNode nodeID => OperatorStore.pauseNode nodeID
  | .quarantineNode nodeID now => OperatorStore.quarantineNode nodeID now

def apply (call : SessionCall) (db : Db) : Db :=
  match Tx.run schema call.tx db with
  | .ok (_, db') => db'
  | .error _ => db

def applyAll (calls : List SessionCall) (db : Db) : Db :=
  calls.foldl (fun db call => call.apply db) db

def onNode (db : Db) : SessionCall → Node → Node
  | .openSession .. => id
  | .recordHeartbeat _ _ hb state _ => Table.updateWhere (fun n => n.id = hb.nodeID)
      fun n => { n with state := state, currentModelID := SessionStore.emptyToNull hb.modelID }
  | .recordStateChanged nodeID state =>
    Table.updateWhere (fun n => n.id = nodeID) fun n => { n with state := state }
  | .closeSession _ nodeID _ =>
    Table.updateWhere (fun n => n.id = nodeID) fun n => { n with state := .offline }
  | .markStale cutoff _ => Table.updateWhere
      (fun n => (db.sessions.rows.filter fun s => s.silent cutoff).any fun s => s.nodeID = n.id)
      fun n => { n with state := .offline }
  | .drainNode nodeID =>
    Table.updateWhere (fun n => n.id = nodeID) fun n => { n with state := .draining }
  | .pauseNode nodeID =>
    Table.updateWhere (fun n => n.id = nodeID) fun n => { n with state := .paused }
  | .quarantineNode nodeID now => Table.updateWhere (fun n => n.id = nodeID)
      fun n => { n with quarantinedAt := some (n.quarantinedAt.getD now) }

def onSession (db : Db) : SessionCall → NodeSession → NodeSession
  | .recordHeartbeat _ sessionID _ _ receivedAt => Table.updateWhere (fun s => s.id = sessionID)
      fun s => { s with lastHeartbeatAt := some receivedAt }
  | .closeSession sessionID _ now => Table.updateWhere
      (fun s => s.id = sessionID ∧ s.state = .connected)
      fun s => { s with state := .closed, disconnectedAt := some now }
  | .markStale cutoff now => Table.updateWhere (fun s => s.silent cutoff)
      fun s => { s with state := .stale, disconnectedAt := some now }
  | .drainNode nodeID => Table.updateWhere
      (fun s => (Store.latestSession db nodeID).any fun l => s.id = l.id)
      fun s => { s with state := .draining }
  | _ => id

def opened : SessionCall → Option NodeSession
  | .openSession sessionID nodeID now => some ⟨sessionID, nodeID, .connected, now, none, none⟩
  | _ => none

/-- What a call does to the two tables: each row becomes what the call makes of it, and a session
that is opened is new. -/
structure Effect (call : SessionCall) (db db' : Db) : Prop where
  nodes : ∀ id, db'.nodes.find? id = (db.nodes.find? id).map (call.onNode db)
  sessions : ∀ id, db'.sessions.find? id = ((db.sessions.find? id).map (call.onSession db)).or
    (call.opened.filter fun s => s.id = id)
  fresh : ∀ s, call.opened = some s → db.sessions.find? s.id = none

section

variable {db db' : Db} {u : Unit}

variable {call : SessionCall} {now : Time}

abbrev Mapped (call : SessionCall) (db : Db) : Prop :=
  Tx.Maps schema Db.nodes (call.onNode db) call.tx ∧
    Tx.Maps schema Db.sessions (call.onSession db) call.tx

theorem Effect.of_rows (opens : call.opened = none)
    (nodes : ∀ id, db'.nodes.find? id = (db.nodes.find? id).map (call.onNode db))
    (sessions : ∀ id, db'.sessions.find? id = (db.sessions.find? id).map (call.onSession db)) :
    call.Effect db db' := by
  constructor
  · exact nodes
  · intro id
    rw [opens, sessions id]
    simp
  · intro s opened
    rw [opens] at opened
    cases opened

theorem Effect.of_maps (opens : call.opened = none) (maps : call.Mapped db)
    (ok : Tx.exec schema call.tx db = .ok (u, db')) : call.Effect db db' :=
  .of_rows opens (maps.1 db db' u ok) (maps.2 db db' u ok)

theorem effect_openSession {sessionID : SessionID} {nodeID : NodeID}
    (ok : Tx.exec schema (SessionStore.openSession sessionID nodeID now) db = .ok (u, db')) :
    (openSession sessionID nodeID now).Effect db db' := by
  obtain ⟨admitted, rfl⟩ := insertRow_ok ok
  have absent : db.sessions.find? sessionID = none :=
    Option.map_eq_none_iff.mp (absent_of_admits admitted)
  constructor
  · intro id
    simp [onNode, Db.put]
  · intro id
    change (db.sessions.put _).find? id = _
    rw [find?_put_fresh absent]
    simp [onSession, opened]
  · rintro s ⟨⟩
    exact absent

theorem maps_nodes_updateSessions {p : NodeSession → Bool} {f : NodeSession → NodeSession} :
    Tx.Maps schema Db.nodes id (updateSessions p f) := by
  have writes : WritesTo [.sessions] (updateSessions p f) := writesTo_updateSessions (by decide)
  exact writes.maps_nodes (by decide)

theorem maps_sessions_updateNodes {p : Node → Bool} {f : Node → Node} :
    Tx.Maps schema Db.sessions id (updateNodes p f) := by
  have writes : WritesTo [.nodes] (updateNodes p f) := writesTo_updateNodes (by decide)
  exact writes.maps_sessions (by decide)

theorem writesTo_insertHeartbeat (row : NodeHeartbeat) :
    WritesTo [.heartbeats] (insertRow (.heartbeat row)) :=
  writesTo_insertRow List.mem_cons_self

theorem maps_recordHeartbeat (heartbeatID : String) (sessionID : SessionID)
    (hb : NodeHeartbeatPayload) (state : NodeState) (receivedAt : Time) :
    (recordHeartbeat heartbeatID sessionID hb state receivedAt).Mapped db := by
  constructor
  · refine Tx.Maps.after maps_require fun _ => Tx.Maps.after maps_require fun _ =>
      Tx.Maps.after ?_ fun _ => Tx.Maps.before (maps_updateNodes fun _ _ => rfl) fun _ =>
      Tx.Maps.after maps_nodes_updateSessions fun _ => maps_done
    exact (writesTo_insertHeartbeat _).maps_nodes (by decide)
  · refine Tx.Maps.after maps_require fun _ => Tx.Maps.after maps_require fun _ =>
      Tx.Maps.after ?_ fun _ => Tx.Maps.after maps_sessions_updateNodes fun _ =>
      Tx.Maps.before (maps_updateSessions fun _ _ => rfl) fun _ => maps_done
    exact (writesTo_insertHeartbeat _).maps_sessions (by decide)

theorem maps_closeSession (sessionID : SessionID) (nodeID : NodeID) (now : Time) :
    (closeSession sessionID nodeID now).Mapped db :=
  ⟨Tx.Maps.before (maps_updateNodes fun _ _ => rfl) fun _ =>
      Tx.Maps.after maps_nodes_updateSessions fun _ => maps_done,
    Tx.Maps.after maps_sessions_updateNodes fun _ =>
      Tx.Maps.before (maps_updateSessions fun _ _ => rfl) fun _ => maps_done⟩

theorem maps_setState (nodeID : NodeID) (state : NodeState) :
    (recordStateChanged nodeID state).Mapped db :=
  ⟨Tx.Maps.before (maps_updateNodes fun _ _ => rfl) fun _ => maps_done,
    Tx.Maps.after maps_sessions_updateNodes fun _ => maps_done⟩

theorem maps_quarantineNode (nodeID : NodeID) (now : Time) :
    (quarantineNode nodeID now).Mapped db := by
  have writes := OperatorStore.writesTo_quarantineReputation nodeID now
  constructor
  · exact Tx.Maps.before (maps_updateNodes fun _ _ => rfl) fun _ => writes.maps_nodes (by decide)
  · exact Tx.Maps.after maps_sessions_updateNodes fun _ => writes.maps_sessions (by decide)

theorem markStaleWhere_ok {stale : NodeSession → Bool}
    (ok : Tx.exec schema (SessionStore.markStaleWhere stale now) db = .ok (u, db')) :
    (∀ id, db'.nodes.find? id = (db.nodes.find? id).map (Table.updateWhere
      (fun n => (db.sessions.rows.filter stale).any fun s => s.nodeID = n.id)
      fun n => { n with state := .offline })) ∧
    (∀ id, db'.sessions.find? id = (db.sessions.find? id).map (Table.updateWhere stale
      fun s => { s with state := .stale, disconnectedAt := some now })) := by
  obtain ⟨-, -, after⟩ := exec_write_ok ok
  rw [schema.overlay_append, overlay_sessions, overlay_nodes] at after
  subst after
  constructor
  · exact find?_putAll_updated db.nodes
      (fun n => (db.sessions.rows.filter stale).any fun s => s.nodeID = n.id)
      (fun n => { n with state := .offline }) fun _ _ => rfl
  · exact find?_putAll_updated db.sessions stale
      (fun s => { s with state := .stale, disconnectedAt := some now }) fun _ _ => rfl

theorem effect_markStale {cutoff : Time}
    (ok : Tx.exec schema (SessionStore.markStale cutoff now) db = .ok (u, db')) :
    (markStale cutoff now).Effect db db' := by
  obtain ⟨nodes, sessions⟩ := SessionCall.markStaleWhere_ok ok
  exact .of_rows rfl nodes sessions

theorem effect_drainNode {nodeID : NodeID}
    (ok : Tx.exec schema (OperatorStore.drainNode nodeID) db = .ok (u, db')) :
    (drainNode nodeID).Effect db db' := by
  obtain ⟨_, mid1, updatedNodes, rest1⟩ := exec_bind_ok ok
  obtain ⟨latest, mid2, read, rest2⟩ := exec_bind_ok rest1
  obtain ⟨_, mid3, updatedSessions, rest3⟩ := exec_bind_ok rest2
  have nodes := updateNodes_ok updatedNodes
  obtain ⟨picked, same⟩ := exec_select_ok read
  have sessions := updateSessions_ok updatedSessions
  have done := (exec_done_ok rest3).2
  subst nodes same picked sessions done
  apply Effect.of_rows rfl
  · exact find?_putAll_updated db.nodes (fun n => n.id = nodeID)
      (fun n => { n with state := .draining }) fun _ _ => rfl
  · exact find?_putAll_updated db.sessions
      (fun s => (Store.latestSession db nodeID).any fun l => s.id = l.id)
      (fun s => { s with state := .draining }) fun _ _ => rfl

theorem effect_of_exec (ok : Tx.exec schema call.tx db = .ok (u, db')) : call.Effect db db' := by
  cases call with
  | openSession sessionID nodeID now => exact effect_openSession ok
  | markStale cutoff now => exact effect_markStale ok
  | drainNode nodeID => exact effect_drainNode ok
  | recordHeartbeat heartbeatID sessionID hb state receivedAt =>
    exact .of_maps rfl (maps_recordHeartbeat heartbeatID sessionID hb state receivedAt) ok
  | recordStateChanged nodeID state => exact .of_maps rfl (maps_setState nodeID state) ok
  | closeSession sessionID nodeID now => exact .of_maps rfl (maps_closeSession sessionID nodeID now) ok
  | pauseNode nodeID => exact .of_maps rfl (@maps_setState db nodeID .paused) ok
  | quarantineNode nodeID now => exact .of_maps rfl (maps_quarantineNode nodeID now) ok

theorem effect_of_apply (call : SessionCall) (db : Db) :
    call.Effect db (call.apply db) ∨ call.apply db = db := by
  unfold apply
  split
  next u db' ran => exact .inl (effect_of_exec (run_ok ran).1)
  next => exact .inr rfl

end

/-- `P` holds of every call at the database it finds. -/
def Along (P : Db → SessionCall → Prop) : List SessionCall → Db → Prop
  | [], _ => True
  | call :: rest, db => P db call ∧ Along P rest (call.apply db)

instance instDecidableAlong (P : Db → SessionCall → Prop) [∀ db call, Decidable (P db call)] :
    (calls : List SessionCall) → (db : Db) → Decidable (Along P calls db)
  | [], _ => isTrue trivial
  | call :: rest, db =>
    have := instDecidableAlong P rest (call.apply db)
    inferInstanceAs (Decidable (P db call ∧ Along P rest (call.apply db)))

theorem Along.of_forall {P : SessionCall → Prop} {calls : List SessionCall}
    (all : ∀ call ∈ calls, P call) (db : Db) : Along (fun _ call => P call) calls db := by
  induction calls generalizing db with
  | nil => trivial
  | cons call rest ih =>
    exact ⟨all call List.mem_cons_self,
      ih (fun other member => all other (List.mem_cons_of_mem _ member)) _⟩

theorem Along.invariant {P : Db → SessionCall → Prop} {I : Db → Prop}
    (step : ∀ db db' call, P db call → call.Effect db db' → I db → I db')
    (calls : List SessionCall) (db : Db) (along : Along P calls db) (start : I db) :
    I (applyAll calls db) := by
  induction calls generalizing db with
  | nil => exact start
  | cons call rest ih =>
    obtain ⟨here, later⟩ := along
    refine ih (call.apply db) later ?_
    rcases effect_of_apply call db with effect | same
    · exact step db _ call here effect start
    · exact same.symm ▸ start

end SessionCall

end Thirdshift
