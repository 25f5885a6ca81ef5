import Thirdshift.Jobs.Store

/-!
# Node sessions and operator actions

The writes of the session store and of the operator store that move nodes, sessions and jobs.
-/

namespace Thirdshift

open Foundation

namespace SessionStore

def openSession (sessionID : SessionID) (nodeID : NodeID) (now : Time) : SqlTx Unit :=
  insertRow (.session ⟨sessionID, nodeID, .connected, now, none, none⟩)

def emptyToNull (s : String) : Option String := if s = "" then none else some s

/-- An empty schedule or thermal state is stored as NULL, which both columns refuse. -/
def recordHeartbeat (heartbeatID : String) (sessionID : SessionID) (hb : NodeHeartbeatPayload)
    (state : NodeState) (receivedAt : Time) : SqlTx Unit := do
  require (hb.scheduleState ≠ "" ∧ hb.thermalState ≠ "")
    (.other "insert heartbeat: null value violates not-null constraint")
  require (hb.scheduleState ∈ ["in_window", "out_of_window"] ∧
      hb.thermalState ∈ ["normal", "warm", "hard_limit"])
    (.other "insert heartbeat: value violates check constraint")
  insertRow (.heartbeat ⟨heartbeatID, hb.nodeID, sessionID, hb.sequence, emptyToNull hb.modelHash,
    emptyToNull hb.runtimeHash, hb.scheduleState, hb.thermalState, hb.paused, hb.draining,
    receivedAt⟩)
  let _ ← updateNodes (fun n => n.id = hb.nodeID)
    (fun n => { n with state := state, currentModelID := emptyToNull hb.modelID })
  let _ ← updateSessions (fun s => s.id = sessionID)
    (fun s => { s with lastHeartbeatAt := some receivedAt })
  pure ()

def recordStateChanged (nodeID : NodeID) (state : NodeState) : SqlTx Unit := do
  let _ ← updateNodes (fun n => n.id = nodeID) (fun n => { n with state := state })
  pure ()

/-- The row goes to a table that nothing here reads; what is left is its check. -/
def recordSafetyEvent (event : NodeSafetyEventPayload) : SqlTx Unit :=
  require (event.severity ∈ ["info", "warning", "critical"])
    (.other "insert safety event: value violates check constraint")

def closeSession (sessionID : SessionID) (nodeID : NodeID) (now : Time) : SqlTx Unit := do
  let _ ← updateNodes (fun n => n.id = nodeID) (fun n => { n with state := .offline })
  let _ ← updateSessions (fun s => s.id = sessionID ∧ s.state = .connected)
    (fun s => { s with state := .closed, disconnectedAt := some now })
  pure ()

/-- One statement: the sessions that went stale, and then the nodes they belong to. -/
def markStaleWhere (stale : NodeSession → Bool) (now : Time) : SqlTx Unit :=
  Tx.write
    (fun db =>
      (db.sessions.updated stale fun s =>
        { s with state := .stale, disconnectedAt := some now }).map (fun s => .update (.session s)) ++
      (db.nodes.updated
        (fun n => (db.sessions.rows.filter stale).any fun s => s.nodeID = n.id)
        (fun n => { n with state := .offline })).map (fun n => .update (.node n)))
    (fun _ => ())

def markStale (cutoff now : Time) : SqlTx Unit :=
  markStaleWhere
    (fun s => s.state = .connected ∧ s.lastHeartbeatAt.getD s.connectedAt < cutoff) now

end SessionStore

namespace OperatorStore

def drainNode (nodeID : NodeID) : SqlTx Unit := do
  let _ ← updateNodes (fun n => n.id = nodeID) (fun n => { n with state := .draining })
  let latest ← Tx.select fun db => Store.latestSession db nodeID
  let _ ← updateSessions (fun s => latest.any fun l => s.id = l.id)
    (fun s => { s with state := .draining })
  pure ()

def pauseNode (nodeID : NodeID) : SqlTx Unit := do
  let _ ← updateNodes (fun n => n.id = nodeID) (fun n => { n with state := .paused })
  pure ()

/-- `INSERT INTO node_reputation … ON CONFLICT (node_id) DO UPDATE`. -/
def quarantineReputation (nodeID : NodeID) (now : Time) : SqlTx Unit :=
  Tx.write
    (fun db => match db.reputation.find? nodeID with
      | some r => [.update (.reputation { r with
          quarantinedAt := some (r.quarantinedAt.getD now) })]
      | none => [.insert (.reputation { newReputation nodeID with quarantinedAt := some now })])
    (fun _ => ())

def quarantineNode (nodeID : NodeID) (now : Time) : SqlTx Unit := do
  let _ ← Store.quarantine nodeID now
  quarantineReputation nodeID now

def cancelJob (jobID : JobID) (now : Time) : SqlTx Unit := do
  let _ ← updateAttempts (fun a => a.jobID = jobID ∧ a.status.live)
    (fun a => { a with status := .cancelled, finishedAt := some (a.finishedAt.getD now) })
  let _ ← updateJobs (fun j => j.id = jobID ∧ j.state ≠ .succeeded)
    (fun j => { j with state := .cancelled, updatedAt := now, completedAt := some now })
  pure ()

def retryJob (jobID : JobID) (now : Time) : SqlTx Unit := do
  let _ ← updateJobs (fun j => j.id = jobID ∧ (j.state = .failed ∨ j.state = .cancelled))
    (fun j => { j with state := .queued, completedAt := none, updatedAt := now })
  pure ()

end OperatorStore

end Thirdshift
