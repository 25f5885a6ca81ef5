import Thirdshift.Registration.Calls

/-!
# Presence

A node without a live session should be offline, and the end of an old session should not take down
a node that has reconnected. Neither holds of every sequence of calls: a connection may keep sending
after the sweeper has given up on it, and closing a session takes its node offline whatever other
sessions it has.
-/

namespace Thirdshift

open Foundation List Table SessionCall

variable {db db' : Db} {n : Node} {s : NodeSession}

/-! ### Nodes without a session -/

def Db.present (db : Db) (nodeID : NodeID) : Bool :=
  db.sessions.rows.any fun s => s.nodeID = nodeID && s.live

def AbsentOffline (db : Db) : Prop :=
  ∀ n ∈ db.nodes.rows, db.present n.id = false → n.state = .offline

structure Unconnected (db : Db) : Prop where
  sessions : db.sessions.rows = []
  offline : ∀ n ∈ db.nodes.rows, n.state = .offline

namespace SessionCall

/-- The state that a call from the node, or from an operator, sets the node to. -/
def sets : SessionCall → Option (NodeID × NodeState)
  | .recordHeartbeat _ _ hb state _ => some (hb.nodeID, state)
  | .recordStateChanged nodeID state => some (nodeID, state)
  | .drainNode nodeID => some (nodeID, .draining)
  | .pauseNode nodeID => some (nodeID, .paused)
  | _ => none

def Matched (db : Db) : SessionCall → Prop
  | .closeSession sessionID nodeID _ =>
    ∀ s ∈ db.sessions.find? sessionID, s.nodeID = nodeID
  | _ => True

/-- A node is set to a state other than offline only while it is present. -/
def Grounded (db : Db) (call : SessionCall) : Prop :=
  ∀ set ∈ call.sets, set.2 ≠ .offline → db.present set.1 = true
  deriving Decidable

instance (db : Db) (call : SessionCall) : Decidable (call.Matched db) := by
  cases call <;> unfold Matched <;> infer_instance

section

variable {call : SessionCall}

@[simp] theorem id_onNode (n : Node) : (call.onNode db n).id = n.id := by
  cases call <;> simp only [onNode, Table.updateWhere, id] <;> split <;> rfl

@[simp] theorem id_onSession (s : NodeSession) : (call.onSession db s).id = s.id := by
  cases call <;> simp only [onSession, Table.updateWhere, id] <;> split <;> rfl

@[simp] theorem nodeID_onSession (s : NodeSession) : (call.onSession db s).nodeID = s.nodeID := by
  cases call <;> simp only [onSession, Table.updateWhere, id] <;> split <;> rfl

section

variable (effect : call.Effect db db')
include effect

theorem Effect.mem_nodes (after : n ∈ db'.nodes.rows) :
    ∃ before ∈ db.nodes.rows, n = call.onNode db before := by
  rw [mem_rows_iff, effect.nodes] at after
  obtain ⟨before, found, rfl⟩ := Option.map_eq_some_iff.mp after
  exact ⟨before, mem_of_find? found, rfl⟩

theorem Effect.onSession_mem
    (before : s ∈ db.sessions.rows) : call.onSession db s ∈ db'.sessions.rows := by
  rw [mem_rows_iff] at before ⊢
  rw [effect.sessions, id_onSession, before]
  rfl

theorem Effect.mem_sessions (after : s ∈ db'.sessions.rows) :
    (∃ before ∈ db.sessions.rows, s = call.onSession db before) ∨ call.opened = some s := by
  rw [mem_rows_iff, effect.sessions, Option.or_eq_some_iff] at after
  rcases after with old | ⟨-, new⟩
  · obtain ⟨before, found, rfl⟩ := Option.map_eq_some_iff.mp old
    exact .inl ⟨before, mem_of_find? found, rfl⟩
  · rw [Option.filter_eq_some_iff] at new
    exact .inr new.1

end

end

section

variable {call : SessionCall}

theorem not_present_iff {nodeID : NodeID} :
    db.present nodeID = false ↔ ∀ s ∈ db.sessions.rows, s.nodeID = nodeID → s.live = false := by
  simp [Db.present]

theorem offline_onNode (offline : n.state = .offline)
    (sets : ∀ state, call.sets = some (n.id, state) → state = .offline) :
    (call.onNode db n).state = .offline := by
  cases call <;> simp only [onNode, Table.updateWhere, id]
  case openSession => exact offline
  case closeSession sessionID nodeID now => split <;> first | rfl | exact offline
  case markStale cutoff now => split <;> first | rfl | exact offline
  case quarantineNode nodeID now => split <;> exact offline
  case recordHeartbeat | recordStateChanged =>
    split
    next mine => exact sets _ (by simp [SessionCall.sets, of_decide_eq_true mine])
    next => exact offline
  case drainNode nodeID =>
    split
    next mine => exact sets .draining (by simp [SessionCall.sets, of_decide_eq_true mine])
    next => exact offline
  case pauseNode nodeID =>
    split
    next mine => exact sets .paused (by simp [SessionCall.sets, of_decide_eq_true mine])
    next => exact offline

theorem offline_of_ended (inside : s ∈ db.sessions.rows) (live : s.live = true)
    (matched : call.Matched db) (ended : (call.onSession db s).live = false)
    (mine : s.nodeID = n.id) : (call.onNode db n).state = .offline := by
  have kept : ¬(call.onSession db s).live = true := by simp [ended]
  cases call <;> simp only [onSession, Table.updateWhere, id] at kept
  case closeSession sessionID nodeID now =>
    split at kept
    next closed =>
      -- the node that a closing connection names is the one of its session
      have found := find?_of_mem inside
      rw [(of_decide_eq_true closed).1] at found
      have owner : n.id = nodeID := mine.symm.trans (matched s found)
      simp [onNode, Table.updateWhere, owner]
    next => exact absurd live kept
  case markStale cutoff now =>
    split at kept
    next silent =>
      have swept : ((db.sessions.rows.filter fun s => s.silent cutoff).any
          fun s => s.nodeID = n.id) = true :=
        any_eq_true.mpr ⟨s, mem_filter.mpr ⟨inside, silent⟩, decide_eq_true mine⟩
      simp only [onNode, Table.updateWhere, swept, ite_true]
    next => exact absurd live kept
  case drainNode nodeID =>
    split at kept
    next => simp [NodeSession.live] at kept
    next => exact absurd live kept
  case recordHeartbeat heartbeatID sessionID hb state receivedAt =>
    split at kept <;> exact absurd live kept
  all_goals exact absurd live kept

theorem absentOffline_step (matched : call.Matched db) (grounded : call.Grounded db)
    (effect : call.Effect db db') (before : AbsentOffline db) : AbsentOffline db' := by
  intro n' after absent
  obtain ⟨n, inside, rfl⟩ := effect.mem_nodes after
  rw [id_onNode, not_present_iff] at absent
  cases present : db.present n.id with
  | false =>
    apply offline_onNode (before n inside present)
    intro state sets
    by_contra other
    have now := grounded _ sets other
    rw [present] at now
    cases now
  | true =>
    obtain ⟨s, open', mine⟩ := any_eq_true.mp present
    rw [Bool.and_eq_true, decide_eq_true_eq] at mine
    have ended := absent _ (effect.onSession_mem open') (by simpa using mine.1)
    exact offline_of_ended open' mine.2 matched ended mine.1

end

end SessionCall

theorem Unconnected.absentOffline (unconnected : Unconnected db) : AbsentOffline db :=
  fun n inside _ => unconnected.offline n inside

open SessionCall in
/-- From nodes as they are registered, after any sequence of calls in which a node is set to a state
other than offline only while it has a live session, every node without one is offline. -/
theorem absent_node_offline {db : Db} (unconnected : Unconnected db) (calls : List SessionCall)
    (along : Along (fun db call => call.Matched db ∧ call.Grounded db) calls db) :
    ∀ n ∈ (applyAll calls db).nodes.rows,
      (∀ s ∈ (applyAll calls db).sessions.rows, s.nodeID = n.id →
        s.state ≠ .connected ∧ s.state ≠ .draining) → n.state = .offline := by
  have all : AbsentOffline (applyAll calls db) :=
    Along.invariant (I := AbsentOffline)
      (fun _ _ _ condition effect before => absentOffline_step condition.1 condition.2 effect before)
      calls db along unconnected.absentOffline
  intro n inside without
  apply all n inside
  rw [not_present_iff]
  intro s open' mine
  have ended := without s open' mine
  simp [NodeSession.live, ended.1, ended.2]

/-! ### A connection that outlives its session -/

def availableHeartbeat (id : String) (sessionID : SessionID) (nodeID : NodeID) (at' : Time) :
    SessionCall :=
  .recordHeartbeat id sessionID ⟨nodeID, at', some .available, "m", "sha256:bb", "sha256:aa",
    "in_window", "normal", false, false⟩ .available at'

/-- The node connects, is heard of, and reconnects; both connections end. -/
def reconnectCalls : List SessionCall :=
  [.openSession "s1" "n1" 0, availableHeartbeat "h1" "s1" "n1" 1, .openSession "s2" "n1" 2,
    availableHeartbeat "h2" "s2" "n1" 3, .closeSession "s1" "n1" 4, .markStale 100 100]

theorem absent_node_offline_reconnect :
    Unconnected (.registered .empty ["n1"]) ∧
    SessionCall.Along (fun db call => call.Matched db ∧ call.Grounded db) reconnectCalls
      (.registered .empty ["n1"]) ∧
    (applyAll reconnectCalls (.registered .empty ["n1"])).present "n1" = false ∧
    ∀ n ∈ (applyAll reconnectCalls (.registered .empty ["n1"])).nodes.rows,
      n.state = .offline := by
  have unconnected : Unconnected (.registered .empty ["n1"]) :=
    ⟨rfl, by decide +kernel⟩
  have along : SessionCall.Along (fun db call => call.Matched db ∧ call.Grounded db) reconnectCalls
      (.registered .empty ["n1"]) := by decide +kernel
  have ended : ∀ s ∈ (applyAll reconnectCalls (.registered .empty ["n1"])).sessions.rows,
      s.state ≠ .connected ∧ s.state ≠ .draining := by decide +kernel
  refine ⟨unconnected, along, by decide +kernel, fun n inside => ?_⟩
  exact absent_node_offline unconnected reconnectCalls along n inside fun s open' _ => ended s open'

/-- A heartbeat that arrives after the sweep makes a node available whose only session is stale. -/
theorem heartbeat_after_sweep :
    Unconnected (.registered .empty ["n1"]) ∧
    let calls := [.openSession "s1" "n1" 0, .markStale 100 100,
      availableHeartbeat "h1" "s1" "n1" 101]
    SessionCall.Along (fun db call => call.Matched db) calls (.registered .empty ["n1"]) ∧
    ∃ n ∈ (applyAll calls (.registered .empty ["n1"])).nodes.rows,
      (∀ s ∈ (applyAll calls (.registered .empty ["n1"])).sessions.rows,
        s.nodeID = n.id → s.state ≠ .connected ∧ s.state ≠ .draining) ∧ n.state = .available := by
  refine ⟨⟨rfl, by decide +kernel⟩, ?_⟩
  decide +kernel

/-! ### The end of an old session -/

/-- How the coordinator ends a session: its connection is closed, or a sweep finds it silent. -/
inductive SessionEnd
  | close (now : Time)
  | sweep (cutoff now : Time)

namespace SessionEnd

def tx (s : NodeSession) : SessionEnd → SqlTx Unit
  | .close now => SessionStore.closeSession s.id s.nodeID now
  | .sweep cutoff now =>
    SessionStore.markStaleWhere (fun other => other.id = s.id && other.silent cutoff) now

/-- The end of the session is without consequence for its node: it is offline already, or the sweep
does not find the session silent. -/
def Spares (s : NodeSession) (n : Node) : SessionEnd → Prop
  | .close _ => n.state = .offline
  | .sweep cutoff _ => n.state = .offline ∨ s.silent cutoff = false

def onNode (s : NodeSession) (n : Node) : SessionEnd → Node
  | .close _ => if n.id = s.nodeID then { n with state := .offline } else n
  | .sweep cutoff _ =>
    if s.silent cutoff ∧ n.id = s.nodeID then { n with state := .offline } else n

variable {e : SessionEnd} {u : Unit}

theorem any_swept {cutoff : Time} (inside : s ∈ db.sessions.rows) :
    ((db.sessions.rows.filter fun other => other.id = s.id && other.silent cutoff).any
      fun other => other.nodeID = n.id) = decide (s.silent cutoff ∧ n.id = s.nodeID) := by
  rw [Bool.eq_iff_iff, any_eq_true, decide_eq_true_eq]
  constructor
  · rintro ⟨other, swept, owner⟩
    obtain ⟨there, same⟩ := mem_filter.mp swept
    rw [Bool.and_eq_true, decide_eq_true_eq] at same
    have equal : other = s := eq_of_key there inside same.1
    subst equal
    exact ⟨same.2, (of_decide_eq_true owner).symm⟩
  · rintro ⟨silent, owner⟩
    exact ⟨s, mem_filter.mpr ⟨inside, by simp [silent]⟩, by simp [owner]⟩

theorem nodes_after (inside : s ∈ db.sessions.rows) (found : db.nodes.find? n.id = some n)
    (ok : Tx.exec schema (e.tx s) db = .ok (u, db')) :
    db'.nodes.find? n.id = some (e.onNode s n) := by
  cases e with
  | close now =>
    have effect : (SessionCall.closeSession s.id s.nodeID now).Effect db db' :=
      SessionCall.effect_of_exec ok
    rw [effect.nodes, found, Option.map_some]
    simp [SessionCall.onNode, Table.updateWhere, onNode]
  | sweep cutoff now =>
    rw [(SessionCall.markStaleWhere_ok ok).1, found, Option.map_some, Table.updateWhere,
      any_swept inside]
    simp [onNode]

end SessionEnd

/-- The node has another session, opened later and connected. -/
structure Superseded (db : Db) (n : Node) (s newer : NodeSession) : Prop where
  node : n ∈ db.nodes.rows
  old : s ∈ db.sessions.rows
  new : newer ∈ db.sessions.rows
  owner : s.nodeID = n.id
  same : newer.nodeID = n.id
  connected : newer.state = .connected
  later : s.connectedAt < newer.connectedAt

/-- The end of an old session of a node that has a newer one, connected, leaves the state of the
node exactly when it spares it. -/
theorem old_session_end {db db' : Db} {n : Node} {s newer : NodeSession} (e : SessionEnd)
    (superseded : Superseded db n s newer)
    (committed : Tx.run schema (e.tx s) db = .ok ((), db')) :
    (db'.nodes.find? n.id).map Node.state = some n.state ↔ e.Spares s n := by
  have found := find?_of_mem superseded.node
  have owner := superseded.owner
  rw [SessionEnd.nodes_after superseded.old found (Tx.run_ok committed).1, Option.map_some,
    Option.some.injEq]
  cases e with
  | close now => simp [SessionEnd.onNode, SessionEnd.Spares, owner, eq_comm]
  | sweep cutoff now =>
    by_cases silent : s.silent cutoff = true
    · simp [SessionEnd.onNode, SessionEnd.Spares, owner, silent, eq_comm]
    · simp [SessionEnd.onNode, SessionEnd.Spares, silent]

/-- The node after it has reconnected, with the state that its new session has reported. -/
def reconnectedDb : Db := applyAll (reconnectCalls.take 4) (.registered .empty ["n1"])

def reconnectedNode : Node := ⟨"n1", .available, some "m", none, none⟩

def oldSession : NodeSession := ⟨"s1", "n1", .connected, 0, some 1, none⟩

def newSession : NodeSession := ⟨"s2", "n1", .connected, 2, some 3, none⟩

theorem reconnectedDb_rows : reconnectedDb.nodes.rows = [reconnectedNode] ∧
    reconnectedDb.sessions.rows = [oldSession, newSession] :=
  ⟨rfl, rfl⟩

theorem superseded_reconnected : Superseded reconnectedDb reconnectedNode oldSession newSession where
  node := by simp [reconnectedDb_rows]
  old := by simp [reconnectedDb_rows]
  new := by simp [reconnectedDb_rows]
  owner := rfl
  same := rfl
  connected := rfl
  later := by decide

def reconnectedAfter (e : SessionEnd) : Db :=
  match Tx.run schema (e.tx oldSession) reconnectedDb with
  | .ok (_, db') => db'
  | .error _ => reconnectedDb

theorem old_session_end_spared :
    Tx.run schema ((SessionEnd.sweep 1 50).tx oldSession) reconnectedDb =
      .ok ((), reconnectedAfter (.sweep 1 50)) ∧
    Superseded reconnectedDb reconnectedNode oldSession newSession ∧
    (SessionEnd.sweep 1 50).Spares oldSession reconnectedNode ∧
    ((reconnectedAfter (.sweep 1 50)).nodes.find? "n1").map Node.state = some .available := by
  have committed : Tx.run schema ((SessionEnd.sweep 1 50).tx oldSession) reconnectedDb =
      .ok ((), reconnectedAfter (.sweep 1 50)) := rfl
  have spares : (SessionEnd.sweep 1 50).Spares oldSession reconnectedNode := .inr rfl
  exact ⟨committed, superseded_reconnected, spares,
    (old_session_end (.sweep 1 50) superseded_reconnected committed).mpr spares⟩

/-- Closing the old session takes the node offline, with its new session connected. -/
theorem old_session_close_offline :
    Superseded reconnectedDb reconnectedNode oldSession newSession ∧
    Tx.run schema ((SessionEnd.close 5).tx oldSession) reconnectedDb =
      .ok ((), reconnectedAfter (.close 5)) ∧
    newSession ∈ (reconnectedAfter (.close 5)).sessions.rows ∧
    ((reconnectedAfter (.close 5)).nodes.find? "n1").map Node.state = some .offline := by
  refine ⟨superseded_reconnected, rfl, ?_, rfl⟩
  exact mem_of_getElem? (i := 1) rfl

end Thirdshift
