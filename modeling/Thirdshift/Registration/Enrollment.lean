import Thirdshift.Foundation.CommitLog
import Thirdshift.Database

/-!
# Enrollment

A fleet invites a node with a token. The node registers with it and is given a bootstrap token,
which it exchanges for access. The database keeps the hashes of both. `RegisterNode` and
`ConsumeBootstrap` lock the row of the token before they look at it, so of the calls that race for a
token one finds it fresh.
-/

namespace Thirdshift.Enrollment

open Foundation ReadCommitted List Table Tx

/-! ### Tables -/

inductive InviteStatus
  | active | used | expired | revoked
  deriving DecidableEq

structure Invite where
  id : String
  fleetID : String
  tokenHash : String
  status : InviteStatus
  expiresAt : Time
  usedAt : Option Time
  usedByNodeID : Option NodeID
  createdAt : Time
  deriving DecidableEq

structure Fleet where
  id : String
  organizationID : String
  scheduleFrom : Option String
  scheduleUntil : Option String
  scheduleTimezone : Option String
  deriving DecidableEq

/-- A node as it is registered, `OFFLINE`. -/
structure EnrolledNode where
  id : NodeID
  organizationID : String
  fleetID : String
  hardwareFingerprintHash : String
  registeredAt : Time
  scheduleFrom : Option String
  scheduleUntil : Option String
  scheduleSource : String
  deriving DecidableEq

/-- An active `ed25519` key. -/
structure EnrolledKey where
  id : String
  nodeID : NodeID
  publicKey : String
  createdAt : Time
  deriving DecidableEq

structure BootstrapToken where
  id : String
  nodeID : NodeID
  tokenHash : String
  expiresAt : Time
  usedAt : Option Time
  createdAt : Time
  deriving DecidableEq

structure Db where
  invites : Table Invite.id
  fleets : Table Fleet.id
  nodes : Table EnrolledNode.id
  keys : Table EnrolledKey.id
  bootstraps : Table BootstrapToken.id

inductive TableName
  | invites | fleets | nodes | keys | bootstraps
  deriving DecidableEq

structure Key where
  table : TableName
  id : String
  deriving DecidableEq

inductive Row
  | invite (r : Invite)
  | fleet (r : Fleet)
  | node (r : EnrolledNode)
  | key (r : EnrolledKey)
  | bootstrap (r : BootstrapToken)
  deriving DecidableEq

inductive Index
  | inviteHash (tokenHash : String)
  | publicKey (nodeID : NodeID) (publicKey : String)
  | bootstrapHash (tokenHash : String)
  deriving DecidableEq

namespace Row

def at' : Row → Key
  | .invite r => ⟨.invites, r.id⟩
  | .fleet r => ⟨.fleets, r.id⟩
  | .node r => ⟨.nodes, r.id⟩
  | .key r => ⟨.keys, r.id⟩
  | .bootstrap r => ⟨.bootstraps, r.id⟩

def index : Row → List Index
  | .invite r => [.inviteHash r.tokenHash]
  | .key r => [.publicKey r.nodeID r.publicKey]
  | .bootstrap r => [.bootstrapHash r.tokenHash]
  | _ => []

end Row

namespace Db

def get (db : Db) (k : Key) : Option Row :=
  match k.table with
  | .invites => (db.invites.find? k.id).map .invite
  | .fleets => (db.fleets.find? k.id).map .fleet
  | .nodes => (db.nodes.find? k.id).map .node
  | .keys => (db.keys.find? k.id).map .key
  | .bootstraps => (db.bootstraps.find? k.id).map .bootstrap

def put (db : Db) : Row → Db
  | .invite r => { db with invites := db.invites.put r }
  | .fleet r => { db with fleets := db.fleets.put r }
  | .node r => { db with nodes := db.nodes.put r }
  | .key r => { db with keys := db.keys.put r }
  | .bootstrap r => { db with bootstraps := db.bootstraps.put r }

def indexedRows (db : Db) : List Row :=
  db.invites.rows.map .invite ++ db.keys.rows.map .key ++ db.bootstraps.rows.map .bootstrap

def clashes (db : Db) (row : Row) : Bool :=
  row.index.any fun ix => db.indexedRows.any fun other => other.at' ≠ row.at' && ix ∈ other.index

def hasNode (db : Db) (id : NodeID) : Bool := (db.nodes.find? id).isSome
def hasFleet (db : Db) (id : String) : Bool := (db.fleets.find? id).isSome

/-- Foreign keys, and the check that a used invite says when and by which node. -/
def valid (db : Db) : Row → Bool
  | .invite r => db.hasFleet r.fleetID && r.usedByNodeID.all db.hasNode &&
      (if r.status = .used then r.usedAt.isSome && r.usedByNodeID.isSome
        else r.usedAt.isNone && r.usedByNodeID.isNone)
  | .node r => db.hasFleet r.fleetID
  | .key r => db.hasNode r.nodeID
  | .bootstrap r => db.hasNode r.nodeID
  | .fleet _ => true

theorem get_put_self (db : Db) (row : Row) : (db.put row).get row.at' = some row := by
  cases row <;> simp [put, get, Row.at']

variable {db : Db} {k : Key} {row : Row}

theorem get_put_other (other : row.at' ≠ k) : (db.put row).get k = db.get k := by
  obtain ⟨table, id⟩ := k
  cases row <;> cases table <;> first
    | rfl
    | (simp only [Row.at', ne_eq, Key.mk.injEq, true_and] at other
       simp [put, get, find?_put, other])

theorem key_of_get (found : db.get k = some row) : row.at' = k := by
  obtain ⟨table, id⟩ := k
  cases table <;>
    (obtain ⟨r, at_id, rfl⟩ := Option.map_eq_some_iff.mp found
     simp [Row.at', key_of_find? at_id])

theorem mem_indexedRows {ix : Index} (found : db.get k = some row) (entry : ix ∈ row.index) :
    row ∈ db.indexedRows := by
  obtain ⟨table, id⟩ := k
  cases table <;>
    (obtain ⟨r, at_id, rfl⟩ := Option.map_eq_some_iff.mp found
     have member := mem_of_find? at_id
     first
       | exact absurd entry not_mem_nil
       | simp [indexedRows, member])

theorem clashes_of_shared {other : Row} {ix : Index} (found : db.get k = some other)
    (apart : k ≠ row.at') (inRow : ix ∈ row.index) (inOther : ix ∈ other.index) :
    db.clashes row = true := by
  simp only [clashes, any_eq_true, Bool.and_eq_true, decide_eq_true_eq]
  exact ⟨ix, inRow, other, mem_indexedRows found inOther, (key_of_get found).symm ▸ apart, inOther⟩

end Db

/-! ### The nodes of the coordinator -/

def EnrolledNode.offline (n : EnrolledNode) : Node := ⟨n.id, .offline, none, none, none⟩

/-- The nodes as a coordinator finds them that has not heard of any yet. -/
def Db.offlineNodes (db : Db) : Table Node.id :=
  Table.empty.putAll (db.nodes.rows.map EnrolledNode.offline)

theorem Db.find?_offlineNodes (db : Db) (id : NodeID) :
    db.offlineNodes.find? id = (db.nodes.find? id).map EnrolledNode.offline := by
  have nodup : ((db.nodes.rows.map EnrolledNode.offline).map Node.id).Nodup := by
    rw [map_map]
    exact db.nodes.nodup
  rw [offlineNodes, find?_putAll _ nodup, List.find?_map]
  exact Option.or_none

def schema : Schema Db Row Key Index GoError where
  key := Row.at'
  get := Db.get
  put := Db.put
  index := Row.index
  clashes := Db.clashes
  valid := Db.valid
  deferred := fun _ => true
  violation := .other "constraint violation"
  get_put_self := Db.get_put_self
  get_put_other := Db.get_put_other
  key_of_get := Db.key_of_get
  clashes_of_shared := Db.clashes_of_shared

abbrev SqlTx (α : Type) := Tx Db Row GoError α

variable {ws : List (Write Row)} {db : Db} {log : List (Ending Db)}
  {c : Shared Db Row Key Index GoError} {nodeID : NodeID}

/-! ### The store -/

def errInvalidInvite : GoError := .other "invalid invite token"
def errInviteUsed : GoError := .other "invite token has already been used"
def errInviteExpired : GoError := .other "invite token has expired"
def errInvalidBootstrap : GoError := .other "invalid bootstrap token"
def errBootstrapUsed : GoError := .other "bootstrap token has already been used"
def errBootstrapExpired : GoError := .other "bootstrap token has expired"

def insertRow (row : Row) : SqlTx Unit := Tx.write (fun _ => [.insert row]) fun _ => ()

/-- `SELECT … FOR UPDATE` of at most one row: what is found is locked as it is. -/
def lockRow {ρ : Type} (find : Db → Option ρ) (row : ρ → Row) : SqlTx (Option ρ) :=
  Tx.write (fun db => (find db).toList.map fun r => .update (row r)) find

def updateInvite (id : String) (f : Invite → Invite) : SqlTx Unit :=
  Tx.write (fun db => (db.invites.updated (fun r => r.id = id) f).map fun r => .update (.invite r))
    fun _ => ()

def updateBootstrap (id : String) (f : BootstrapToken → BootstrapToken) : SqlTx Unit :=
  Tx.write
    (fun db => (db.bootstraps.updated (fun r => r.id = id) f).map fun r => .update (.bootstrap r))
    fun _ => ()

def Db.invite? (db : Db) (tokenHash : String) : Option Invite :=
  db.invites.rows.find? fun r => r.tokenHash = tokenHash

def Db.bootstrap? (db : Db) (nodeID : NodeID) (tokenHash : String) : Option BootstrapToken :=
  db.bootstraps.rows.find? fun r => r.nodeID = nodeID ∧ r.tokenHash = tokenHash

structure ScheduleDefaults where
  fromTime : String
  untilTime : String
  timezone : String
  deriving DecidableEq

def Fleet.schedule (fleet : Fleet) : Option ScheduleDefaults :=
  match fleet.scheduleFrom, fleet.scheduleUntil with
  | some fromTime, some untilTime =>
    some ⟨fromTime, untilTime, match fleet.scheduleTimezone with
      | some timezone => if timezone = "" then "local" else timezone
      | none => "local"⟩
  | _, _ => none

structure NodeRegistration where
  inviteTokenHash : String
  nodeID : NodeID
  keyID : String
  publicKey : String
  hardwareFingerprintHash : String
  bootstrapTokenID : String
  bootstrapTokenHash : String
  bootstrapTokenExpiresAt : Time
  now : Time

structure RegistrationCreated where
  nodeID : NodeID
  bootstrapTokenExpiresAt : Time
  fleetSchedule : Option ScheduleDefaults

namespace NodeRegistration

def node (r : NodeRegistration) (fleet : Fleet) (fleetID : String) : EnrolledNode :=
  ⟨r.nodeID, fleet.organizationID, fleetID, r.hardwareFingerprintHash, r.now, fleet.scheduleFrom,
    fleet.scheduleUntil, if fleet.schedule.isSome then "fleet" else "node"⟩

def key (r : NodeRegistration) : EnrolledKey := ⟨r.keyID, r.nodeID, r.publicKey, r.now⟩

def bootstrap (r : NodeRegistration) : BootstrapToken :=
  ⟨r.bootstrapTokenID, r.nodeID, r.bootstrapTokenHash, r.bootstrapTokenExpiresAt, none, r.now⟩

def useInvite (r : NodeRegistration) (invite : Invite) : Invite :=
  { invite with status := .used, usedAt := some r.now, usedByNodeID := some r.nodeID }

end NodeRegistration

namespace PGStore

/-- `RegisterNode`. An invite that has expired is marked in a transaction that is then rolled
back. -/
def registerNode (r : NodeRegistration) : SqlTx RegistrationCreated := do
  match ← lockRow (fun db => db.invite? r.inviteTokenHash) .invite with
  | none => Tx.fail errInvalidInvite
  | some invite =>
    if invite.status = .used then Tx.fail errInviteUsed
    else if invite.status ≠ .active then Tx.fail errInvalidInvite
    else if ¬r.now < invite.expiresAt then do
      updateInvite invite.id fun row => { row with status := .expired }
      Tx.fail errInviteExpired
    else
      match ← Tx.select fun db => db.fleets.find? invite.fleetID with
      | none => Tx.fail (.other "select invite fleet: no rows in result set")
      | some fleet =>
        insertRow (.node (r.node fleet invite.fleetID))
        insertRow (.key r.key)
        insertRow (.bootstrap r.bootstrap)
        updateInvite invite.id r.useInvite
        pure ⟨r.nodeID, r.bootstrapTokenExpiresAt, fleet.schedule⟩

def consumeBootstrap (nodeID : NodeID) (bootstrapHash : String) (now : Time) : SqlTx Unit := do
  match ← lockRow (fun db => db.bootstrap? nodeID bootstrapHash) .bootstrap with
  | none => Tx.fail errInvalidBootstrap
  | some token =>
    if token.usedAt.isSome then Tx.fail errBootstrapUsed
    else if ¬now < token.expiresAt then Tx.fail errBootstrapExpired
    else updateBootstrap token.id fun row => { row with usedAt := some now }

end PGStore

/-! ### The service -/

structure RegisterRequest where
  inviteToken : String
  publicKey : String
  hardwareFingerprintHash : String

/-- What `RegisterNode` draws at random. -/
structure Draws where
  nodeID : NodeID
  keyID : String
  bootstrapID : String
  bootstrapToken : String

structure Service where
  hashToken : String → String
  bootstrapTTL : Duration

namespace Service

variable (service : Service)

def registration (request : RegisterRequest) (draws : Draws) (now : Time) : NodeRegistration where
  inviteTokenHash := service.hashToken request.inviteToken
  nodeID := draws.nodeID
  keyID := draws.keyID
  publicKey := request.publicKey
  hardwareFingerprintHash := request.hardwareFingerprintHash
  bootstrapTokenID := draws.bootstrapID
  bootstrapTokenHash := service.hashToken draws.bootstrapToken
  bootstrapTokenExpiresAt :=
    now + if service.bootstrapTTL ≤ 0 then seconds 600 else service.bootstrapTTL
  now := now

def registerNode (request : RegisterRequest) (draws : Draws) (now : Time) :
    SqlTx RegistrationCreated :=
  if request.inviteToken = "" then Tx.fail (.other "invite token is required")
  else if request.publicKey = "" then Tx.fail (.other "public key is required")
  else if request.hardwareFingerprintHash = "" then
    Tx.fail (.other "hardware fingerprint hash is required")
  else PGStore.registerNode (service.registration request draws now)

def consumeBootstrap (nodeID : NodeID) (bootstrapToken : String) (now : Time) : SqlTx Unit :=
  if nodeID = "" then Tx.fail (.other "node_id is required")
  else if bootstrapToken = "" then Tx.fail (.other "bootstrap token is required")
  else PGStore.consumeBootstrap nodeID (service.hashToken bootstrapToken) now

end Service

/-- A call of the service, with what it draws and the time it reads. -/
inductive Call
  | registerNode (request : RegisterRequest) (draws : Draws) (now : Time)
  | consumeBootstrap (nodeID : NodeID) (bootstrapToken : String) (now : Time)

def Call.program (service : Service) : Call → SqlTx Unit
  | .registerNode request draws now => do
    let _ ← service.registerNode request draws now
    pure ()
  | .consumeBootstrap nodeID bootstrapToken now =>
    service.consumeBootstrap nodeID bootstrapToken now

/-! ### What the calls write -/

def RegisterWrites (r : NodeRegistration) (ws : List (Write Row)) (db : Db) : Prop :=
  ∃ invite fleet, db.invites.find? invite.id = some invite ∧
    invite.tokenHash = r.inviteTokenHash ∧ invite.status = .active ∧ r.now < invite.expiresAt ∧
    ws = [.update (.invite invite), .insert (.node (r.node fleet invite.fleetID)),
      .insert (.key r.key), .insert (.bootstrap r.bootstrap), .update (.invite (r.useInvite invite))]

def ConsumeWrites (nodeID : NodeID) (hash : String) (now : Time) (ws : List (Write Row)) (db : Db) :
    Prop :=
  ∃ token, db.bootstraps.find? token.id = some token ∧ token.nodeID = nodeID ∧
    token.tokenHash = hash ∧ token.usedAt = none ∧ now < token.expiresAt ∧
    ws = [.update (.bootstrap token), .update (.bootstrap { token with usedAt := some now })]

section

variable {α : Type} {later : Db} {Q : List (Write Row) → Db → α → Prop}

theorem invite_kept {invite : Invite} (locked : .update (.invite invite) ∈ ws)
    (allowed : (lockedRows schema).allows ws db later)
    (found : db.invites.find? invite.id = some invite) :
    later.invites.find? invite.id = some invite := by
  have same := allowed _ locked
  have present : schema.get db (schema.key (.invite invite)) = some (.invite invite) := by
    simp [schema, Db.get, Row.at', found]
  have after := same.trans present
  obtain ⟨row, there, equal⟩ := Option.map_eq_some_iff.mp after
  cases equal
  exact there

theorem bootstrap_kept {token : BootstrapToken} (locked : .update (.bootstrap token) ∈ ws)
    (allowed : (lockedRows schema).allows ws db later)
    (found : db.bootstraps.find? token.id = some token) :
    later.bootstraps.find? token.id = some token := by
  have same := allowed _ locked
  have present : schema.get db (schema.key (.bootstrap token)) = some (.bootstrap token) := by
    simp [schema, Db.get, Row.at', found]
  have after := same.trans present
  obtain ⟨row, there, equal⟩ := Option.map_eq_some_iff.mp after
  cases equal
  exact there

theorem guarded_registerNode (r : NodeRegistration) (db : Db) :
    (PGStore.registerNode r).Guarded schema (lockedRows schema)
      (fun ws db _ => RegisterWrites r ws db) [] db := by
  refine guarded_write fun db₁ _ seen _ => ?_
  simp only [Schema.overlay_nil]
  cases found : db₁.invite? r.inviteTokenHash with
  | none => trivial
  | some invite =>
    have present : db₁.invites.find? invite.id = some invite :=
      find?_of_mem (mem_of_find?_eq_some found)
    have hash : invite.tokenHash = r.inviteTokenHash := by simpa using find?_some found
    simp only
    split
    · trivial
    · split
      · trivial
      next active =>
        rw [not_not] at active
        split
        · exact guarded_write fun _ _ _ _ => trivial
        next inTime =>
          rw [not_not] at inTime
          refine guarded_select fun db₂ allowed₂ => ?_
          have present₂ := invite_kept (by simp) allowed₂ present
          split
          · trivial
          next fleet _ =>
            -- the three inserts, and then the invite, which is still the row that was locked
            refine guarded_write fun db₃ allowed₃ _ _ => ?_
            have present₃ := invite_kept (by simp) allowed₃ present₂
            refine guarded_write fun db₄ allowed₄ _ _ => ?_
            have present₄ := invite_kept (by simp) allowed₄ present₃
            refine guarded_write fun db₅ allowed₅ _ _ => ?_
            have present₅ := invite_kept (by simp) allowed₅ present₄
            refine guarded_write fun db₆ allowed₆ _ _ => ?_
            have present₆ := invite_kept (by simp) allowed₆ present₅
            intro db₇ allowed₇
            have present₇ := invite_kept (by simp) allowed₇ present₆
            refine ⟨invite, fleet, present₇, hash, active, inTime, ?_⟩
            simp [updated_key, Schema.overlay, schema, Db.put]

theorem guarded_consumeBootstrap (nodeID : NodeID) (hash : String) (now : Time) (db : Db) :
    (PGStore.consumeBootstrap nodeID hash now).Guarded schema (lockedRows schema)
      (fun ws db _ => ConsumeWrites nodeID hash now ws db) [] db := by
  refine guarded_write fun db₁ _ seen _ => ?_
  simp only [Schema.overlay_nil]
  cases found : db₁.bootstrap? nodeID hash with
  | none => trivial
  | some token =>
    have present : db₁.bootstraps.find? token.id = some token :=
      find?_of_mem (mem_of_find?_eq_some found)
    have named : token.nodeID = nodeID ∧ token.tokenHash = hash := by
      simpa using find?_some found
    simp only
    split
    · trivial
    next unused =>
      split
      · trivial
      next inTime =>
        rw [not_not] at inTime
        intro db₂ allowed₂ new _ ok _
        have present₂ := bootstrap_kept (by simp) allowed₂ present
        cases ok
        intro db₃ allowed₃
        have present₃ := bootstrap_kept (by simp) allowed₃ present₂
        refine ⟨token, present₃, named.1, named.2, by simpa using unused, inTime, ?_⟩
        simp [updated_key, Schema.overlay, schema, Db.put]

end

def Call.Writes (service : Service) (ws : List (Write Row)) (db : Db) : Call → Prop
  | .registerNode request draws now => RegisterWrites (service.registration request draws now) ws db
  | .consumeBootstrap nodeID bootstrapToken now =>
    ConsumeWrites nodeID (service.hashToken bootstrapToken) now ws db

theorem guarded_program (service : Service) (call : Call) (db : Db) :
    (call.program service).Guarded schema (lockedRows schema)
      (fun ws db _ => call.Writes service ws db) [] db := by
  cases call with
  | registerNode request draws now =>
    refine Tx.Guarded.map ?_
    unfold Service.registerNode
    split
    · trivial
    · split
      · trivial
      · split
        · trivial
        · exact guarded_registerNode _ db
  | consumeBootstrap nodeID bootstrapToken now =>
    simp only [Call.program, Service.consumeBootstrap]
    split
    · trivial
    · split
      · trivial
      · exact guarded_consumeBootstrap nodeID _ now db

/-! ### What a commit does -/

/-- A registration uses an active invite before it expires, for a node, a key and a bootstrap token
that are new. -/
structure Registers (r : NodeRegistration) (before after : Db) (invite : Invite) (fleet : Fleet) :
    Prop where
  found : before.invites.find? invite.id = some invite
  hash : invite.tokenHash = r.inviteTokenHash
  active : invite.status = .active
  inTime : r.now < invite.expiresAt
  newNode : before.nodes.find? r.nodeID = none
  newKey : before.keys.find? r.keyID = none
  newBootstrap : before.bootstraps.find? r.bootstrapTokenID = none
  invites : ∀ id, after.invites.find? id =
    if invite.id = id then some (r.useInvite invite) else before.invites.find? id
  nodes : ∀ id, after.nodes.find? id =
    if r.nodeID = id then some (r.node fleet invite.fleetID) else before.nodes.find? id
  keys : ∀ id, after.keys.find? id = if r.keyID = id then some r.key else before.keys.find? id
  bootstraps : ∀ id, after.bootstraps.find? id =
    if r.bootstrapTokenID = id then some r.bootstrap else before.bootstraps.find? id
  fleets : after.fleets = before.fleets

/-- An exchange uses a bootstrap token of the node, which is unused, before it expires. -/
structure Consumes (nodeID : NodeID) (hash : String) (now : Time) (before after : Db)
    (token : BootstrapToken) : Prop where
  found : before.bootstraps.find? token.id = some token
  node : token.nodeID = nodeID
  hash : token.tokenHash = hash
  unused : token.usedAt = none
  inTime : now < token.expiresAt
  bootstraps : ∀ id, after.bootstraps.find? id =
    if token.id = id then some { token with usedAt := some now } else before.bootstraps.find? id
  invites : after.invites = before.invites
  nodes : after.nodes = before.nodes
  keys : after.keys = before.keys
  fleets : after.fleets = before.fleets

def Call.Effect (service : Service) (before after : Db) : Call → Prop
  | .registerNode request draws now => ∃ invite fleet,
    Registers (service.registration request draws now) before after invite fleet
  | .consumeBootstrap nodeID bootstrapToken now => ∃ token,
    Consumes nodeID (service.hashToken bootstrapToken) now before after token

section

variable {service : Service} {before after : Db} {calls : List Call}

theorem find?_put_twice {ρ : Type} {key : ρ → String} (t : Table key) {a b : ρ}
    (same : key a = key b) (id : String) :
    ((t.put a).put b).find? id = if key a = id then some b else t.find? id := by
  rw [find?_put, find?_put, same]
  split <;> rfl

theorem registers_of_writes {r : NodeRegistration} (writes : RegisterWrites r ws before)
    (fresh : ∀ row, .insert row ∈ ws → schema.get before (schema.key row) = none) :
    ∃ invite fleet, Registers r before (schema.overlay before ws) invite fleet := by
  obtain ⟨invite, fleet, found, hash, active, inTime, rfl⟩ := writes
  refine ⟨invite, fleet, found, hash, active, inTime, ?_, ?_, ?_, ?_, ?_, ?_, ?_, rfl⟩
  · exact Option.map_eq_none_iff.mp (fresh (.node (r.node fleet invite.fleetID)) (by simp))
  · exact Option.map_eq_none_iff.mp (fresh (.key r.key) (by simp))
  · exact Option.map_eq_none_iff.mp (fresh (.bootstrap r.bootstrap) (by simp))
  · exact find?_put_twice before.invites rfl
  · exact find?_put before.nodes (r.node fleet invite.fleetID)
  · exact find?_put before.keys r.key
  · exact find?_put before.bootstraps r.bootstrap

theorem consumes_of_writes {hash : String} {now : Time}
    (writes : ConsumeWrites nodeID hash now ws before) :
    ∃ token, Consumes nodeID hash now before (schema.overlay before ws) token := by
  obtain ⟨token, found, node, named, unused, inTime, rfl⟩ := writes
  refine ⟨token, found, node, named, unused, inTime, ?_, rfl, rfl, rfl, rfl⟩
  exact find?_put_twice before.bootstraps rfl

theorem Call.Writes.effect {call : Call} (writes : call.Writes service ws before)
    (fresh : ∀ row, .insert row ∈ ws → schema.get before (schema.key row) = none) :
    call.Effect service before (schema.overlay before ws) := by
  cases call with
  | registerNode request draws now => exact registers_of_writes writes fresh
  | consumeBootstrap nodeID bootstrapToken now => exact consumes_of_writes writes

theorem effect_of_commit (unique : schema.Unique db)
    (run : Logged schema (Call.program service) db calls log c) :
    ∀ e ∈ log, e.error = false → schema.Unique e.before ∧
      ∃ call, calls[e.call]? = some call ∧ call.Effect service e.before e.after := by
  intro e member committed
  obtain ⟨inside, ws, writes, after, unique, fresh⟩ := run.commits
    (Q := fun i ws db _ => ∀ call, calls[i]? = some call → call.Writes service ws db) unique
    (fun _ _ serving known => (serving.guarded (I := fun _ => True) (R := lockedRows schema) unique
      trivial (fun i call known db _ => (guarded_program service call db).mono
        fun ws db _ writes other same => Option.some.inj (known.symm.trans same) ▸ writes)
      (fun _ _ _ _ _ _ _ => trivial) (fun _ _ _ _ _ _ _ apart => lockedRows_overlay apart)
      known).2) (prefix_refl _) e member committed
  have known : calls[e.call]? = some calls[e.call] := getElem?_eq_getElem inside
  exact ⟨unique, _, known, after ▸ (writes _ known).effect fresh⟩

end

/-! ### Tokens that are spent -/

def InviteSpent (hash : String) (db : Db) : Prop :=
  ∃ invite, db.invites.find? invite.id = some invite ∧ invite.tokenHash = hash ∧
    invite.status = .used

def BootstrapSpent (hash : String) (db : Db) : Prop :=
  ∃ token, db.bootstraps.find? token.id = some token ∧ token.tokenHash = hash ∧
    token.usedAt.isSome = true

def Issued (nodeID : NodeID) (hash : String) (db : Db) : Prop :=
  ∃ token, db.bootstraps.find? token.id = some token ∧ token.tokenHash = hash ∧
    token.nodeID = nodeID

section

variable {service : Service} {before after : Db} {call : Call} {hash : String}

theorem one_invite (unique : schema.Unique db) {a b : Invite}
    (first : db.invites.find? a.id = some a) (second : db.invites.find? b.id = some b)
    (same : a.tokenHash = b.tokenHash) : a = b := by
  have atA : schema.get db ⟨.invites, a.id⟩ = some (.invite a) := by simp [schema, Db.get, first]
  have atB : schema.get db ⟨.invites, b.id⟩ = some (.invite b) := by simp [schema, Db.get, second]
  have inB : Index.inviteHash a.tokenHash ∈ schema.index (.invite b) := same ▸ mem_cons_self
  exact Row.invite.inj (unique.row_eq _ atA atB mem_cons_self inB)

theorem one_bootstrap (unique : schema.Unique db) {a b : BootstrapToken}
    (first : db.bootstraps.find? a.id = some a) (second : db.bootstraps.find? b.id = some b)
    (same : a.tokenHash = b.tokenHash) : a = b := by
  have atA : schema.get db ⟨.bootstraps, a.id⟩ = some (.bootstrap a) := by
    simp [schema, Db.get, first]
  have atB : schema.get db ⟨.bootstraps, b.id⟩ = some (.bootstrap b) := by
    simp [schema, Db.get, second]
  have inB : Index.bootstrapHash a.tokenHash ∈ schema.index (.bootstrap b) :=
    same ▸ mem_cons_self
  exact Row.bootstrap.inj (unique.row_eq _ atA atB mem_cons_self inB)

section

variable (effect : call.Effect service before after)
include effect

theorem InviteSpent.kept (spent : InviteSpent hash before) : InviteSpent hash after := by
  obtain ⟨invite, found, named, used⟩ := spent
  cases call with
  | registerNode request draws now =>
    obtain ⟨other, fleet, registers⟩ := effect
    have apart : other.id ≠ invite.id := by
      intro same
      have active := registers.active
      obtain rfl := Option.some.inj ((same ▸ registers.found).symm.trans found)
      cases used.symm.trans active
    exact ⟨invite, by rw [registers.invites, if_neg apart, found], named, used⟩
  | consumeBootstrap nodeID bootstrapToken now =>
    obtain ⟨token, consumes⟩ := effect
    exact ⟨invite, consumes.invites ▸ found, named, used⟩

theorem BootstrapSpent.kept (spent : BootstrapSpent hash before) : BootstrapSpent hash after := by
  obtain ⟨token, found, named, used⟩ := spent
  cases call with
  | registerNode request draws now =>
    obtain ⟨invite, fleet, registers⟩ := effect
    refine ⟨token, ?_, named, used⟩
    rw [registers.bootstraps, if_neg, found]
    intro same
    cases registers.newBootstrap.symm.trans (same ▸ found)
  | consumeBootstrap nodeID bootstrapToken now =>
    obtain ⟨other, consumes⟩ := effect
    have apart : other.id ≠ token.id := by
      intro same
      have unused := consumes.unused
      obtain rfl := Option.some.inj ((same ▸ consumes.found).symm.trans found)
      rw [unused] at used
      cases used
    exact ⟨token, by rw [consumes.bootstraps, if_neg apart, found], named, used⟩

theorem issued_by (absent : ¬Issued nodeID hash before) (issued : Issued nodeID hash after) :
    ∃ request draws now, call = .registerNode request draws now ∧ draws.nodeID = nodeID ∧
      service.hashToken draws.bootstrapToken = hash := by
  obtain ⟨token, found, named, mine⟩ := issued
  cases call with
  | registerNode request draws now =>
    obtain ⟨invite, fleet, registers⟩ := effect
    rw [registers.bootstraps] at found
    split at found
    · cases found
      exact ⟨request, draws, now, rfl, mine, named⟩
    · exact absurd ⟨token, found, named, mine⟩ absent
  | consumeBootstrap other bootstrapToken now =>
    obtain ⟨used, consumes⟩ := effect
    rw [consumes.bootstraps] at found
    split at found
    · cases found
      exact absurd ⟨used, consumes.found, named, mine⟩ absent
    · exact absurd ⟨token, found, named, mine⟩ absent

end

end

/-! ### Single use -/

inductive Token
  | invite (token : String)
  | bootstrap (token : String)
  deriving DecidableEq

def Call.token : Call → Token
  | .registerNode request _ _ => .invite request.inviteToken
  | .consumeBootstrap _ bootstrapToken _ => .bootstrap bootstrapToken

def Token.Spent (service : Service) (db : Db) : Token → Prop
  | .invite token => InviteSpent (service.hashToken token) db
  | .bootstrap token => BootstrapSpent (service.hashToken token) db

section

variable {service : Service} {before after : Db} {call : Call} {token : Token}

theorem Token.Spent.kept (effect : call.Effect service before after)
    (spent : token.Spent service before) : token.Spent service after := by
  cases token with
  | invite token => exact InviteSpent.kept effect spent
  | bootstrap token => exact BootstrapSpent.kept effect spent

theorem Call.Effect.fresh (unique : schema.Unique before)
    (effect : call.Effect service before after) : ¬call.token.Spent service before := by
  cases call with
  | registerNode request draws now =>
    rintro ⟨used, found, named, spent⟩
    obtain ⟨invite, fleet, registers⟩ := effect
    obtain rfl := one_invite unique found registers.found (named.trans registers.hash.symm)
    cases spent.symm.trans registers.active
  | consumeBootstrap nodeID bootstrapToken now =>
    rintro ⟨used, found, named, spent⟩
    obtain ⟨token, consumes⟩ := effect
    obtain rfl := one_bootstrap unique found consumes.found (named.trans consumes.hash.symm)
    rw [consumes.unused] at spent
    cases spent

theorem Call.Effect.spends (effect : call.Effect service before after) :
    call.token.Spent service after := by
  cases call with
  | registerNode request draws now =>
    obtain ⟨invite, fleet, registers⟩ := effect
    refine ⟨(service.registration request draws now).useInvite invite, ?_, registers.hash, rfl⟩
    rw [registers.invites]
    exact if_pos rfl
  | consumeBootstrap nodeID bootstrapToken now =>
    obtain ⟨token, consumes⟩ := effect
    refine ⟨{ token with usedAt := some now }, ?_, consumes.hash, rfl⟩
    rw [consumes.bootstraps]
    exact if_pos rfl

end

theorem tokens_apart {service : Service} {calls : List Call} (unique : schema.Unique db)
    (run : Logged schema (Call.program service) db calls log c) :
    log.Pairwise fun e f => e.error = false → f.error = false → ∀ call call',
      calls[e.call]? = some call → calls[f.call]? = some call' → call.token ≠ call'.token := by
  have effects := effect_of_commit unique run
  -- a token that an earlier call has spent is spent when a later one ends
  have chained : ∀ token : Token, log.Pairwise fun e f =>
      token.Spent service e.after → token.Spent service f.before := by
    intro token
    refine run.chain.pairwise (P := fun db => token.Spent service db) fun e member spent => ?_
    cases error : e.error with
    | true => rwa [run.unchanged e member error]
    | false =>
      obtain ⟨-, call, -, effect⟩ := effects e member error
      exact spent.kept effect
  rw [pairwise_iff_forall_sublist]
  intro e f within committedE committedF call call' atE atF same
  have memberE : e ∈ log := within.subset mem_cons_self
  have memberF : f ∈ log := within.subset (mem_cons_of_mem _ mem_cons_self)
  obtain ⟨-, _, knownE, effectE⟩ := effects e memberE committedE
  obtain ⟨uniqueF, _, knownF, effectF⟩ := effects f memberF committedF
  cases knownE.symm.trans atE
  cases knownF.symm.trans atF
  have later := pairwise_iff_forall_sublist.mp (chained call.token) within
  exact effectF.fresh uniqueF (same ▸ later effectE.spends)

/-- However the calls interleave: each ends at most once, the database changes at these ends only,
and not at that of a call that returns an error. A registration uses an active invite, an exchange an
unused bootstrap token of the node, strictly before it expires; no two calls use the same token; and
a token is exchanged for the node it was issued to, if it was not there from the start. -/
theorem enrollment_tokens_single_use {service : Service} {db : Db} {calls : List Call}
    {log : List (Ending Db)} {c : Shared Db Row Key Index GoError}
    (distinct : Function.Injective service.hashToken) (unique : schema.Unique db)
    (run : Logged schema (Call.program service) db calls log c) :
    Chain db log c.committed ∧ (log.map Ending.call).Nodup ∧
    (∀ i, c.active[i]? = some none ↔ ∃ e ∈ log, e.call = i) ∧
    (∀ e ∈ log, e.error = true → e.after = e.before) ∧
    (∀ e ∈ log, e.error = false →
      ∃ call, calls[e.call]? = some call ∧ call.Effect service e.before e.after) ∧
    (∀ e ∈ log, ∀ f ∈ log, e.error = false → f.error = false → ∀ call call',
      calls[e.call]? = some call → calls[f.call]? = some call' → call.token = call'.token → e = f) ∧
    (∀ e ∈ log, e.error = false → ∀ nodeID token now,
      calls[e.call]? = some (.consumeBootstrap nodeID token now) →
      Issued nodeID (service.hashToken token) db ∨
      ∃ f ∈ log, f.error = false ∧ ∃ request draws at',
        calls[f.call]? = some (.registerNode request draws at') ∧
        draws.nodeID = nodeID ∧ draws.bootstrapToken = token) := by
  have effects := effect_of_commit unique run
  refine ⟨run.chain, run.nodup, ?_, run.unchanged, ?_, ?_, ?_⟩
  · refine fun i => ⟨run.recorded, ?_⟩
    rintro ⟨e, member, rfl⟩
    exact run.ended e member
  · exact fun e member committed => (effects e member committed).2
  · intro e memberE f memberF committedE committedF call call' atE atF same
    by_contra other
    have symmetric : Std.Symm fun e f : Ending Db => e.error = false → f.error = false →
        ∀ call call', calls[e.call]? = some call → calls[f.call]? = some call' →
          call.token ≠ call'.token :=
      ⟨fun _ _ different committedF committedE call call' atF atE =>
        (different committedE committedF call' call atE atF).symm⟩
    exact (tokens_apart unique run).forall memberE memberF other committedE committedF call call' atE
      atF same
  · intro e member committed nodeID token now at'
    by_cases start : Issued nodeID (service.hashToken token) db
    · exact .inl start
    · obtain ⟨-, _, known, effect⟩ := effects e member committed
      cases known.symm.trans at'
      obtain ⟨row, consumes⟩ := effect
      have held : Issued nodeID (service.hashToken token) e.before :=
        ⟨row, consumes.found, consumes.hash, consumes.node⟩
      obtain ⟨f, among, absent, issued⟩ := run.chain.established member held start
      have stored : f.error = false := by
        by_contra failed
        rw [run.unchanged f among (by simpa using failed)] at issued
        exact absent issued
      obtain ⟨-, call, knownF, effectF⟩ := effects f among stored
      obtain ⟨request, draws, at'', rfl, mine, hash⟩ := issued_by effectF absent issued
      exact .inr ⟨f, among, stored, request, draws, at'', knownF, mine, distinct hash⟩

/-! ### A race for an invite -/

def emptyDb : Db := ⟨.empty, .empty, .empty, .empty, .empty⟩

def invited : List (Write Row) :=
  [.insert (.fleet ⟨"fleet", "org", none, none, none⟩),
    .insert (.invite ⟨"inv", "fleet", "token", .active, 100, none, none, 0⟩)]

def invitedDb : Db := schema.overlay emptyDb invited

theorem unique_invitedDb : schema.Unique invitedDb := by
  have unique : schema.Unique emptyDb := by
    rintro ⟨table, id⟩ l r q ix found
    cases table <;> cases found
  have applied : schema.applyWrites emptyDb invited = some invitedDb := by rfl
  intro k l r q ix
  exact schema.unique_applyWrites unique applied

/-- Two nodes register with one invite, and the token of the first is exchanged twice. -/
def raceCalls : List Call :=
  [.registerNode ⟨"token", "pk1", "hw1"⟩ ⟨"n1", "k1", "b1", "boot1"⟩ 10,
    .registerNode ⟨"token", "pk2", "hw2"⟩ ⟨"n2", "k2", "b2", "boot2"⟩ 10,
    .consumeBootstrap "n1" "boot1" 20, .consumeBootstrap "n1" "boot1" 20]

def raceOrder : List Nat := [0, 0, 0, 0, 0, 0, 0, 1, 2, 1, 2, 2, 3, 3]

def hashless : Service := ⟨id, 0⟩

theorem enrollment_tokens_single_use_race : ∃ log c,
    Logged schema (Call.program hashless) invitedDb raceCalls log c ∧
    (c.committed.nodes.find? "n1").isSome = true ∧ (c.committed.nodes.find? "n2").isSome = false ∧
    ((c.committed.bootstraps.find? "b1").bind BootstrapToken.usedAt) = some 20 ∧
    c.active.all Option.isNone = true ∧ Chain invitedDb log c.committed ∧
    (∀ e ∈ log, e.error = true → e.after = e.before) ∧
    ∀ e ∈ log, ∀ f ∈ log, e.error = false → f.error = false → ∀ call call',
      raceCalls[e.call]? = some call → raceCalls[f.call]? = some call' →
      call.token = call'.token → e = f := by
  have checked : (advanceAll schema raceOrder
      ⟨invitedDb, raceCalls.map fun call => some ⟨call.program hashless, [], []⟩⟩).any (fun c =>
        decide ((c.committed.nodes.find? "n1").isSome = true ∧
          (c.committed.nodes.find? "n2").isSome = false ∧
          ((c.committed.bootstraps.find? "b1").bind BootstrapToken.usedAt) = some 20 ∧
          c.active.all Option.isNone = true)) = true := by decide +kernel
  obtain ⟨c, advanced, holds⟩ := (Option.any_eq_true _ _).mp checked
  obtain ⟨registered, turnedAway, used, ended⟩ := of_decide_eq_true holds
  obtain ⟨log, run⟩ := ((Serving.begun raceCalls).advanceAll advanced).logged
  obtain ⟨chain, -, -, unchanged, -, once, -⟩ :=
    enrollment_tokens_single_use (fun _ _ same => same) unique_invitedDb run
  exact ⟨log, c, run, registered, turnedAway, used, ended, chain, unchanged, once⟩

end Thirdshift.Enrollment
