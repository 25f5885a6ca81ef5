import Thirdshift.Foundation.Locking
import Thirdshift.Registration.Calls

/-!
# Lock order of the node tables

Heartbeats, closed connections and operator actions lock a node before its session, and a quarantine
locks the node before its reputation. The sweep of stale sessions and a challenge that quarantines
take a pair the other way round. Without these two no set of transactions over the node tables comes
to a deadlock.
-/

namespace Thirdshift

open Foundation Locking List Option

variable {f : Node → Node} {sessionID : SessionID} {threshold : Int}

/-- The transactions that write to nodes, sessions and reputations. -/
inductive NodeTx
  | session (call : SessionCall)
  | challenge (ids : Nat → String) (outcome : Store.ChallengeOutcome) (failureThreshold : Int)

namespace NodeTx

def tx : NodeTx → SqlTx Unit
  | .session call => call.tx
  | .challenge ids outcome failureThreshold =>
    Store.recordChallengeOutcome ids outcome failureThreshold

def sweeps : NodeTx → Bool
  | .session (.markStale ..) => true
  | _ => false

def quarantines : NodeTx → Bool
  | .session (.quarantineNode ..) => true
  | _ => false

def failsChallenge : NodeTx → Bool
  | .challenge _ outcome _ => !outcome.passed
  | _ => false

end NodeTx

/-- A row of `nodes`, `node_sessions` or `node_reputation`. -/
def Key.ofNode (key : Key) : Bool :=
  key.table = .nodes ∨ key.table = .sessions ∨ key.table = .reputation

/-- Nodes before sessions. Where reputations go depends on who quarantines. -/
def Key.lockRank (reputation : Nat) (key : Key) : Nat :=
  match key.table with
  | .nodes => 1
  | .sessions => 2
  | .reputation => reputation
  | _ => 0

section

variable {reputation : Nat} {Q : Option Key → Prop} {top : Option Key}

abbrev ClimbsNodes {α : Type} (reputation : Nat) (Q : Option Key → Prop) (t : SqlTx α)
    (top : Option Key) : Prop :=
  Climbs schema Key.ofNode (Key.lockRank reputation) Q t top

theorem climbs_updateRows {ρ κ : Type} {key : ρ → κ} {table : Db → Table key} {row : ρ → Row}
    {p : ρ → Bool} {f : ρ → ρ} (target : Key) (about : ∀ r, p r = true → (row (f r)).key = target)
    (above : ∀ t, top = some t → t = target ∨
      t.lockRank reputation < target.lockRank reputation) (post : Q (some target)) :
    ClimbsNodes reputation Q (updateRows table row p f) top := by
  refine climbs_write target ?_ above post
  intro db w written
  obtain ⟨r, inside, rfl⟩ := mem_map.mp written
  obtain ⟨old, among, rfl⟩ := mem_map.mp inside
  exact about old (mem_filter.mp among).2

theorem climbs_elsewhere {α : Type} {t : SqlTx α} (table : TableName) (writes : WritesTo [table] t)
    (other : (⟨table, ""⟩ : Key).ofNode = false) (post : Q top) :
    ClimbsNodes reputation Q t top := by
  refine climbs_unwatched (Tx.Writes.mono writes fun row inside => ?_) post
  rw [mem_singleton] at inside
  rw [← other, Key.ofNode, Key.ofNode, ← inside]
  rfl

theorem climbs_select {α : Type} {q : Db → α} (post : Q top) :
    ClimbsNodes reputation Q (Tx.select q) top :=
  climbs_unwatched Tx.writes_select post

variable {nodeID : NodeID} {now : Time}

theorem climbs_updateNode (named : ∀ n, (f n).id = n.id)
    (above : ∀ t, top = some t → t.lockRank reputation < 1) (post : Q (some ⟨.nodes, nodeID⟩)) :
    ClimbsNodes reputation Q (updateNodes (fun n => n.id = nodeID) f) top := by
  refine climbs_updateRows ⟨.nodes, nodeID⟩ ?_ (fun t last => .inr (above t last)) post
  intro n same
  exact congrArg (Key.mk .nodes) ((named n).trans (of_decide_eq_true same))

theorem climbs_updateSession (sessionID : SessionID) {p : NodeSession → Bool}
    {g : NodeSession → NodeSession} (named : ∀ s, p s = true → (g s).id = sessionID)
    (post : Q (some ⟨.sessions, sessionID⟩)) :
    ClimbsNodes reputation Q (updateSessions p g) (some ⟨.nodes, nodeID⟩) := by
  refine climbs_updateRows ⟨.sessions, sessionID⟩ ?_ ?_ post
  · intro s same
    exact congrArg (Key.mk .sessions) (named s same)
  · rintro _ ⟨⟩
    exact .inr Nat.one_lt_two

/-! ### The calls -/

theorem climbs_recordHeartbeat {heartbeatID : String}
    {hb : NodeHeartbeatPayload} {state : NodeState} {receivedAt : Time} :
    ClimbsNodes reputation (fun _ => True)
      (SessionStore.recordHeartbeat heartbeatID sessionID hb state receivedAt) none := by
  -- the heartbeat itself goes to a table of its own
  refine .bind (climbs_elsewhere .heartbeats writesTo_require rfl fun _ => ?_)
  refine .bind (climbs_elsewhere .heartbeats writesTo_require rfl fun _ => ?_)
  refine .bind (climbs_elsewhere .heartbeats (writesTo_insertRow (by simp; rfl)) rfl fun _ => ?_)
  refine .bind (climbs_updateNode (fun _ => rfl) (fun _ bottom => by cases bottom) fun _ => ?_)
  refine .bind (climbs_updateSession sessionID (fun s same => of_decide_eq_true same) fun _ => ?_)
  trivial

theorem climbs_closeSession :
    ClimbsNodes reputation (fun _ => True) (SessionStore.closeSession sessionID nodeID now) none := by
  refine .bind (climbs_updateNode (fun _ => rfl) (fun _ bottom => by cases bottom) fun _ => ?_)
  refine .bind (climbs_updateSession sessionID (fun s same => (of_decide_eq_true same).1) fun _ => ?_)
  trivial

theorem climbs_drainNode :
    ClimbsNodes reputation (fun _ => True) (OperatorStore.drainNode nodeID) none := by
  refine .bind (climbs_updateNode (fun _ => rfl) (fun _ bottom => by cases bottom) fun _ => ?_)
  refine .bind (climbs_select fun latest => ?_)
  -- the session was chosen before the update, so it is one row
  refine .bind (climbs_updateSession ((latest.map NodeSession.id).getD "") ?_ fun _ => ?_)
  · intro s same
    obtain ⟨l, rfl, hit⟩ := (any_eq_true _ _).mp same
    exact of_decide_eq_true hit
  · trivial

theorem climbs_updateNode_alone (named : ∀ n, (f n).id = n.id) :
    ClimbsNodes reputation (fun _ => True) (do
      let _ ← updateNodes (fun n => n.id = nodeID) f
      pure ()) none :=
  .bind (climbs_updateNode named (fun _ bottom => by cases bottom) fun _ => trivial)

theorem climbs_quarantineNode (after : 1 < reputation) :
    ClimbsNodes reputation (fun _ => True) (OperatorStore.quarantineNode nodeID now) none := by
  refine .bind (climbs_updateNode (fun _ => rfl) (fun _ bottom => by cases bottom) fun _ => ?_)
  refine climbs_write ⟨.reputation, nodeID⟩ ?_ ?_ trivial
  · intro db w written
    split at written
    next r found =>
      have owner : r.nodeID = nodeID := Table.key_of_find? found
      rw [mem_singleton.mp written, ← owner]
      rfl
    next =>
      rw [mem_singleton.mp written]
      rfl
  · rintro _ ⟨⟩
    exact .inr after

theorem climbs_challengeReputation {failure : Bool}
    (order : failure = true → reputation < 1) (post : ∀ top, Q top) :
    ClimbsNodes reputation Q (Store.updateChallengeReputationTx nodeID failure threshold now) none := by
  have above : ∀ t, some (⟨.reputation, nodeID⟩ : Key) = some t → t = ⟨.reputation, nodeID⟩ ∨
      t.lockRank reputation < (⟨.reputation, nodeID⟩ : Key).lockRank reputation := by
    rintro _ ⟨⟩
    exact .inl rfl
  refine .bind (climbs_write ⟨.reputation, nodeID⟩ ?_ (fun _ bottom => by cases bottom) fun _ => ?_)
  · intro db w written
    split at written
    · cases written
    · rw [mem_singleton.mp written]
      rfl
  refine .bind (climbs_write ⟨.reputation, nodeID⟩ ?_ above fun locked => ?_)
  · intro db w written
    obtain ⟨r, found, rfl⟩ := map_eq_some_iff.mp (mem_toList.mp written)
    exact congrArg (Key.mk .reputation) (Table.key_of_find? found)
  cases locked with
  | none => trivial
  | some locked =>
    refine .bind (climbs_updateRows ⟨.reputation, nodeID⟩ ?_ above fun _ => ?_)
    · intro r same
      exact congrArg (Key.mk .reputation) (of_decide_eq_true same)
    split
    next quarantined =>
      -- only a failure quarantines the node, which is then locked after the reputation
      simp only [Bool.and_eq_true] at quarantined
      have failed := quarantined.1.1
      refine .bind (climbs_updateNode (fun _ => rfl) ?_ fun _ => post _)
      rintro _ ⟨⟩
      exact order failed
    · exact post _

theorem climbs_recordChallengeOutcome {ids : Nat → String} {outcome : Store.ChallengeOutcome}
    (order : outcome.passed = false → reputation < 1) :
    ClimbsNodes reputation (fun _ => True) (Store.recordChallengeOutcome ids outcome threshold)
      none := by
  refine .bind (climbs_elsewhere .events (writesTo_insertRow (by simp; rfl)) rfl fun _ => ?_)
  refine .bind (climbs_challengeReputation ?_ fun top quarantined => ?_)
  · intro failure
    exact order (by simpa using failure)
  · split
    · exact climbs_elsewhere .events (writesTo_insertRow (by simp; rfl)) rfl trivial
    · trivial

theorem climbs_nodeTx {call : NodeTx} (unswept : call.sweeps = false)
    (quarantine : call.quarantines = true → 1 < reputation)
    (challenge : call.failsChallenge = true → reputation < 1) :
    ClimbsNodes reputation (fun _ => True) call.tx none := by
  cases call with
  | challenge ids outcome threshold =>
    exact climbs_recordChallengeOutcome fun failed => challenge (by simp [NodeTx.failsChallenge, failed])
  | session call =>
    cases call with
    | openSession sessionID nodeID now =>
      refine climbs_write ⟨.sessions, sessionID⟩ ?_ (fun _ bottom => by cases bottom) trivial
      intro db w written
      rw [mem_singleton.mp written]
      rfl
    | recordHeartbeat => exact climbs_recordHeartbeat
    | recordStateChanged => exact climbs_updateNode_alone fun _ => rfl
    | closeSession => exact climbs_closeSession
    | markStale => cases unswept
    | drainNode => exact climbs_drainNode
    | pauseNode => exact climbs_updateNode_alone fun _ => rfl
    | quarantineNode => exact climbs_quarantineNode (quarantine rfl)

end

/-- Among the calls is no sweep, and not both a quarantine by an operator and a failed challenge. -/
def OneLockOrder (calls : NodeTx → Prop) : Prop :=
  (∀ call, calls call → call.sweeps = false) ∧
  ((∀ call, calls call → call.quarantines = false) ∨
    ∀ call, calls call → call.failsChallenge = false)

/-- Whatever the calls are, how many of them run and how they interleave, no reachable state has a
cycle of waits, if they have one lock order. -/
theorem no_lock_order_deadlock {calls : NodeTx → Prop} (oneOrder : OneLockOrder calls) (db : Db)
    {c : Locking.Shared Db Row Key GoError}
    (reached : Locking.Reachable schema (fun t => ∃ call, calls call ∧ t = call.tx) db c) :
    ¬c.Deadlocked schema Key.ofNode := by
  obtain ⟨unswept, split⟩ := oneOrder
  rcases split with unquarantined | unfailed
  · -- reputations first, then nodes
    refine reached.no_deadlock (Key.lockRank 0) ?_
    rintro _ ⟨call, among, rfl⟩
    refine climbs_nodeTx (unswept call among) (fun hit => ?_) fun _ => Nat.one_pos
    rw [unquarantined call among] at hit
    cases hit
  · -- nodes first, then reputations
    refine reached.no_deadlock (Key.lockRank 3) ?_
    rintro _ ⟨call, among, rfl⟩
    refine climbs_nodeTx (unswept call among) (fun _ => by decide) fun hit => ?_
    rw [unfailed call among] at hit
    cases hit

/-! ### Runs -/

def lockingDb : Db :=
  let registered := Db.registered .empty ["n1"]
  { registered with
    sessions := registered.sessions.put ⟨"s1", "n1", .connected, 0, none, none⟩
    jobs := registered.jobs.put ⟨"j1", "o1", "k1", "m", .queued, 100, 0, 0, none⟩
    reputation := registered.reputation.put
      { newReputation "n1" with challengeTotal := 2, challengeFailed := 2 } }

def closesSession : NodeTx := .session (.closeSession "s1" "n1" 10)

def drainsNode : NodeTx := .session (.drainNode "n1")

def sweepsSession : NodeTx := .session (.markStale 5 10)

def quarantinesNode : NodeTx := .session (.quarantineNode "n1" 10)

def failedChallenge : NodeTx :=
  .challenge (fun n => "e" ++ toString n) ⟨"j1", "", "n1", "m", false, "", 10⟩ 3

def lockedState (calls : List NodeTx) (order : List Nat) :
    Option (Locking.Shared Db Row Key GoError) :=
  advanceAll schema (calls.map NodeTx.tx) order lockingDb

variable {c : Locking.Shared Db Row Key GoError}

theorem reachable_lockedState {calls : List NodeTx} {order : List Nat}
    (ran : lockedState calls order = some c) :
    Locking.Reachable schema (fun t => ∃ call, call ∈ calls ∧ t = call.tx) lockingDb c := by
  refine reachable_of_advanceAll (fun t among => ?_) ran
  obtain ⟨call, inside, rfl⟩ := mem_map.mp among
  exact ⟨call, inside, rfl⟩

/-- A drain that waits for a node, which a closing connection has locked before its session. -/
theorem no_lock_order_deadlock_drain :
    OneLockOrder (· ∈ [closesSession, drainsNode]) ∧
    ∃ c, lockedState [closesSession, drainsNode] [0, 0] = some c ∧
      c.waits schema Key.ofNode 1 0 = true ∧ ¬c.Deadlocked schema Key.ofNode := by
  have oneOrder : OneLockOrder (· ∈ [closesSession, drainsNode]) := by
    constructor
    · decide
    · exact .inl (by decide)
  have waits : (lockedState [closesSession, drainsNode] [0, 0]).any
      (fun c => c.waits schema Key.ofNode 1 0) = true := by decide +kernel
  obtain ⟨c, ran, waiting⟩ := (any_eq_true _ _).mp waits
  exact ⟨oneOrder, c, ran, waiting,
    no_lock_order_deadlock oneOrder lockingDb (reachable_lockedState ran)⟩

theorem deadlocked_of_waits (first : c.waits schema Key.ofNode 0 1 = true)
    (second : c.waits schema Key.ofNode 1 0 = true) : c.Deadlocked schema Key.ofNode :=
  ⟨0, .tail (.single first) second⟩

/-- A sweep that has locked the session, and a closing connection that has locked the node. An
operator's quarantine that has locked the node, and a failed challenge that has locked the
reputation. -/
theorem lock_order_deadlocks :
    (∃ c, Locking.Reachable schema
        (fun t => ∃ call, call ∈ [sweepsSession, closesSession] ∧ t = call.tx) lockingDb c ∧
      c.Deadlocked schema Key.ofNode) ∧
    ∃ c, Locking.Reachable schema
        (fun t => ∃ call, call ∈ [quarantinesNode, failedChallenge] ∧ t = call.tx) lockingDb c ∧
      c.Deadlocked schema Key.ofNode := by
  have swept : (lockedState [sweepsSession, closesSession] [0, 1, 1]).any (fun c =>
      c.waits schema Key.ofNode 0 1 && c.waits schema Key.ofNode 1 0) = true := by decide +kernel
  have challenged : (lockedState [quarantinesNode, failedChallenge] [0, 0, 1, 1, 1, 1, 1, 1]).any
      (fun c => c.waits schema Key.ofNode 0 1 && c.waits schema Key.ofNode 1 0) = true := by
    decide +kernel
  constructor
  · obtain ⟨c, ran, waiting⟩ := (any_eq_true _ _).mp swept
    rw [Bool.and_eq_true] at waiting
    exact ⟨c, reachable_lockedState ran, deadlocked_of_waits waiting.1 waiting.2⟩
  · obtain ⟨c, ran, waiting⟩ := (any_eq_true _ _).mp challenged
    rw [Bool.and_eq_true] at waiting
    exact ⟨c, reachable_lockedState ran, deadlocked_of_waits waiting.1 waiting.2⟩

end Thirdshift
