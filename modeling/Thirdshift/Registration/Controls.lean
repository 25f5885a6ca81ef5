import Thirdshift.Jobs.Eligibility

/-!
# Operator controls

An operator drains, pauses or quarantines a node so that it gets no more jobs. A quarantine is kept
in a column of its own and holds whatever the node reports. Draining and pausing write what the
node's own messages overwrite, so they hold only as far as they leave the node without a connected
session.
-/

namespace Thirdshift

open Foundation SessionCall List Store

variable {db db' : Db} {nodeID : NodeID} {s : NodeSession}

inductive Control
  | drain
  | pause
  | quarantine (now : Time)

def Control.call (nodeID : NodeID) : Control → SessionCall
  | .drain => .drainNode nodeID
  | .pause => .pauseNode nodeID
  | .quarantine now => .quarantineNode nodeID now

def Db.connected (db : Db) (nodeID : NodeID) : List NodeSession :=
  db.sessions.rows.filter fun s => s.nodeID = nodeID ∧ s.state = .connected

/-- A control holds by itself, or because of how many sessions connect the node. -/
def Control.Sticks (db : Db) (nodeID : NodeID) : Control → Prop
  | .quarantine _ => True
  | .drain => (db.connected nodeID).length ≤ 1
  | .pause => db.connected nodeID = []

/-! ### What keeps a node from being eligible -/

def Db.quarantined (db : Db) (nodeID : NodeID) : Prop :=
  ∀ n ∈ db.nodes.rows, n.id = nodeID → n.quarantinedAt.isSome = true

def Db.disconnected (db : Db) (nodeID : NodeID) : Prop :=
  ∀ s ∈ db.sessions.rows, s.nodeID = nodeID → s.state ≠ .connected

section

variable {modelID : ModelID} {cutoff : Time} {c : Candidate}

theorem node_of_eligible (eligible : c ∈ eligibleNodes db modelID cutoff) :
    ∃ n ∈ db.nodes.rows, n.id = c.nodeID ∧ n.quarantinedAt = none ∧
      ∃ s ∈ db.sessions.rows, s.nodeID = c.nodeID ∧ s.state = .connected := by
  obtain ⟨n, inside, candidate⟩ := mem_eligibleNodes.mp eligible
  obtain ⟨ns, hb, _, _, offering, -, -, -, rfl⟩ := mem_candidatesOf.mp candidate
  have chosen := mem_filter.mp (mem_of_latestBy offering.session)
  obtain ⟨owner, connected⟩ := of_decide_eq_true chosen.2
  exact ⟨n, inside, rfl, offering.unquarantined, ns, chosen.1, owner, connected⟩

theorem not_eligible_of_quarantined (quarantined : db.quarantined nodeID)
    (eligible : c ∈ eligibleNodes db modelID cutoff) : c.nodeID ≠ nodeID := by
  rintro rfl
  obtain ⟨n, inside, same, free, -⟩ := node_of_eligible eligible
  have barred := quarantined n inside same
  simp [free] at barred

theorem not_eligible_of_disconnected (disconnected : db.disconnected nodeID)
    (eligible : c ∈ eligibleNodes db modelID cutoff) : c.nodeID ≠ nodeID := by
  rintro rfl
  obtain ⟨-, -, -, -, s, inside, owner, connected⟩ := node_of_eligible eligible
  exact disconnected s inside owner connected

end

/-! ### What the later calls keep -/

section

variable {call : SessionCall}

theorem quarantined_step (effect : call.Effect db db') (before : db.quarantined nodeID) :
    db'.quarantined nodeID := by
  intro n' after same
  obtain ⟨n, inside, rfl⟩ := effect.mem_nodes after
  rw [id_onNode] at same
  have quarantined := before n inside same
  cases call <;> simp only [onNode, Table.updateWhere, id] <;>
    first
      | exact quarantined
      | (split <;> first | exact quarantined | rfl)

theorem connected_of_onSession (after : (call.onSession db s).state = .connected) :
    s.state = .connected := by
  cases call <;> simp only [onSession, Table.updateWhere, id] at after <;>
    first
      | exact after
      | (split at after <;> first | exact after | cases after)

theorem disconnected_step (effect : call.Effect db db')
    (opens : ∀ s ∈ call.opened, s.nodeID ≠ nodeID) (before : db.disconnected nodeID) :
    db'.disconnected nodeID := by
  intro s' after owner connected
  rcases effect.mem_sessions after with ⟨s, inside, rfl⟩ | opened
  · rw [nodeID_onSession] at owner
    exact before s inside owner (connected_of_onSession connected)
  · exact opens s' opened owner

end

/-! ### What the controls establish -/

section

theorem quarantined_of_quarantine {now : Time}
    (effect : (SessionCall.quarantineNode nodeID now).Effect db db') : db'.quarantined nodeID := by
  intro n' after same
  obtain ⟨n, inside, rfl⟩ := effect.mem_nodes after
  rw [id_onNode] at same
  simp [onNode, Table.updateWhere, same]

theorem mem_connected :
    s ∈ db.connected nodeID ↔ s ∈ db.sessions.rows ∧ s.nodeID = nodeID ∧ s.state = .connected := by
  simp [Db.connected]

theorem disconnected_of_drain (effect : (SessionCall.drainNode nodeID).Effect db db')
    (one : (db.connected nodeID).length ≤ 1) : db'.disconnected nodeID := by
  intro s' after owner connected
  rcases effect.mem_sessions after with ⟨s, inside, rfl⟩ | opened
  · rw [nodeID_onSession] at owner
    have member : s ∈ db.connected nodeID :=
      mem_connected.mpr ⟨inside, owner, connected_of_onSession connected⟩
    have alone : db.connected nodeID = [s] := by
      obtain ⟨only, rows⟩ := length_eq_one_iff.mp
        (Nat.le_antisymm one (length_pos_of_mem member))
      rw [rows, mem_singleton] at member
      rw [rows, member]
    have latest : latestSession db nodeID = some s := by
      change latestBy NodeSession.connectedAt (db.connected nodeID) = some s
      rw [alone]
      rfl
    simp [onSession, Table.updateWhere, latest] at connected
  · cases opened

theorem disconnected_of_pause (effect : (SessionCall.pauseNode nodeID).Effect db db')
    (none' : db.connected nodeID = []) : db'.disconnected nodeID := by
  intro s' after owner connected
  rcases effect.mem_sessions after with ⟨s, inside, same⟩ | opened
  · have member : s ∈ db.connected nodeID := by
      rw [same] at owner connected
      exact mem_connected.mpr ⟨inside, owner, connected⟩
    rw [none'] at member
    cases member
  · cases opened

end

/-- After a control that sticks, nothing that happens on the sessions the node has makes it eligible
for any model again. -/
theorem controlled_node_not_eligible {db db' : Db} {nodeID : NodeID} (control : Control)
    (sticks : control.Sticks db nodeID)
    (committed : Tx.run schema (control.call nodeID).tx db = .ok ((), db'))
    (calls : List SessionCall) (opens : ∀ call ∈ calls, ∀ s ∈ call.opened, s.nodeID ≠ nodeID)
    (modelID : ModelID) (cutoff : Time) :
    ∀ c ∈ eligibleNodes (applyAll calls db') modelID cutoff, c.nodeID ≠ nodeID := by
  have effect := effect_of_exec (Tx.run_ok committed).1
  have later := Along.of_forall opens db'
  have keepsDisconnected : db'.disconnected nodeID → (applyAll calls db').disconnected nodeID :=
    Along.invariant (I := fun db => db.disconnected nodeID)
      (fun _ _ _ opens effect before => disconnected_step effect opens before) calls db' later
  intro c eligible
  -- a quarantine bars the node itself, the other controls hold as far as they disconnect it
  cases control with
  | quarantine now =>
    have kept : (applyAll calls db').quarantined nodeID :=
      Along.invariant (I := fun db => db.quarantined nodeID)
        (fun _ _ _ _ effect before => quarantined_step effect before) calls db' later
        (quarantined_of_quarantine effect)
    exact not_eligible_of_quarantined kept eligible
  | drain =>
    exact not_eligible_of_disconnected (keepsDisconnected (disconnected_of_drain effect sticks))
      eligible
  | pause =>
    exact not_eligible_of_disconnected (keepsDisconnected (disconnected_of_pause effect sticks))
      eligible

/-! ### A pause that does not hold -/

def servedCatalog : Catalog where
  models := [⟨"m", "active", "public"⟩]
  versions := [⟨"mv", "m", "v1", some "rt", 0⟩]
  artifacts := [⟨"art", "mv", "gguf", "aa"⟩]
  releases := [⟨"rt", "llama", "b1"⟩]
  releaseArtifacts := [⟨"rra", "rt", "linux", "bb"⟩]
  profiles := []
  prices := []
  limits := []
  nodeKeys := []

def servingDb : Db :=
  applyAll [.openSession "s1" "n1" 0, availableHeartbeat "h1" "s1" "n1" 1]
    (.registered servedCatalog ["n1"])

def laterHeartbeats : List SessionCall :=
  [availableHeartbeat "h2" "s1" "n1" 2, .recordStateChanged "n1" .available,
    availableHeartbeat "h3" "s1" "n1" 3]

/-- Whom a model can be scheduled on after a control and the node's later messages. -/
def eligibleAfter (control : Control) : List NodeID :=
  (eligibleNodes (applyAll laterHeartbeats ((control.call "n1").apply servingDb)) "m" 0).map
    Candidate.nodeID

theorem controlled_node_not_eligible_drain :
    Control.Sticks servingDb "n1" .drain ∧
    Tx.run schema (Control.drain.call "n1").tx servingDb =
      .ok ((), (Control.drain.call "n1").apply servingDb) ∧
    (eligibleNodes servingDb "m" 0).map Candidate.nodeID = ["n1"] ∧
    ∀ nodeID ∈ eligibleAfter .drain, nodeID ≠ "n1" := by
  have sticks : Control.Sticks servingDb "n1" .drain := by
    change (servingDb.connected "n1").length ≤ 1
    decide +kernel
  have committed : Tx.run schema (Control.drain.call "n1").tx servingDb =
      .ok ((), (Control.drain.call "n1").apply servingDb) := rfl
  refine ⟨sticks, committed, by decide +kernel, fun nodeID member => ?_⟩
  obtain ⟨c, eligible, rfl⟩ := mem_map.mp member
  exact controlled_node_not_eligible .drain sticks committed laterHeartbeats (by decide +kernel)
    "m" 0 c eligible

/-- A node that is paused is eligible again after its next heartbeat. -/
theorem paused_node_eligible :
    Tx.run schema (Control.pause.call "n1").tx servingDb =
      .ok ((), (Control.pause.call "n1").apply servingDb) ∧
    (∀ call ∈ laterHeartbeats, ∀ s ∈ call.opened, s.nodeID ≠ "n1") ∧
    "n1" ∈ eligibleAfter .pause := by
  refine ⟨rfl, by decide +kernel, by decide +kernel⟩

end Thirdshift
