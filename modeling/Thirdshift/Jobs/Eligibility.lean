import Mathlib.Data.Finset.Card
import Thirdshift.Catalog.History
import Thirdshift.Jobs.Service
import Thirdshift.Registration.Presence

/-!
# Eligible nodes

Which nodes can take a job is restated by four queries: the candidates of the scheduler, the count
of available nodes, the public capacity of a model, and the hashes a completion is checked against.
They differ in the sessions and the versions they look at. A node may be counted that cannot be
scheduled, and scheduled where its result cannot be accepted.
-/

namespace Thirdshift

open Foundation List Store OperatorStore Service Tx

variable {db : Db} {modelID : ModelID} {cutoff : Time} {n : Node} {ma : ModelArtifact} {ctx : Ctx}
  {hb : NodeHeartbeat} {ns : NodeSession}

/-! ### The queries -/

namespace Store

/-- The row of a node in `Availability`. -/
def availableNode (db : Db) (modelID : ModelID) (freshnessCutoff : Time) (n : Node) : Bool :=
  match latestSession db n.id with
  | none => false
  | some ns =>
    match latestHeartbeat db n.id ns.id with
    | none => false
    | some hb => n.state = .available ∧ n.currentModelID = some modelID ∧ n.quarantinedAt.isNone ∧
        freshnessCutoff ≤ ns.lastHeartbeatAt.getD ns.connectedAt ∧
        hb.scheduleState = "in_window" ∧ hb.thermalState = "normal" ∧ ¬hb.paused ∧
        ¬hb.draining ∧ ¬hasLiveAttempt db n.id

def availability (db : Db) (modelID : ModelID) (freshnessCutoff : Time) : Nat :=
  (db.nodes.rows.filter (availableNode db modelID freshnessCutoff)).length

/-- How many distinct nodes `EligibleNodes` returns. -/
def eligibleCount (db : Db) (modelID : ModelID) (freshnessCutoff : Time) : Nat :=
  ((eligibleNodes db modelID freshnessCutoff).map Candidate.nodeID).toFinset.card

end Store

namespace OperatorStore

/-- The regions are left out. -/
structure PublicModelCapacity where
  freshNodes : Nat
  availableNodes : Nat

def latestLiveSession (db : Db) (nodeID : NodeID) : Option NodeSession :=
  latestBy NodeSession.connectedAt
    (db.sessions.rows.filter fun s => s.nodeID = nodeID ∧ (s.state = .connected ∨ s.state = .draining))

/-- A heartbeat reports a model hash, and a runtime hash that a release ships. -/
def reports (catalog : Catalog) (hb : NodeHeartbeat) (modelHash : String)
    (releaseID : Option String) : Bool :=
  hb.modelHash = some modelHash &&
    hb.runtimeHash.any fun hash => releaseID.any fun rel => hash ∈ catalog.runtimeHashes rel

/-- The row of a node, which is its column `eligible`. -/
def capacityRow (db : Db) (modelID : ModelID) (freshnessCutoff : Time) (n : Node) : Option Bool :=
  match db.catalog.modelHash modelID with
  | none => none
  | some (modelHash, releaseID) =>
    if n.currentModelID = some modelID then
      match latestLiveSession db n.id with
      | none => none
      | some ns =>
        match latestHeartbeat db n.id ns.id with
        | none => none
        | some hb =>
          if freshnessCutoff ≤ ns.lastHeartbeatAt.getD ns.connectedAt ∧
              reports db.catalog hb modelHash releaseID then
            some (n.state = .available ∧ ns.state = .connected ∧ n.quarantinedAt.isNone ∧
              hb.scheduleState = "in_window" ∧ hb.thermalState = "normal" ∧ ¬hb.paused ∧
              ¬hb.draining ∧ reports db.catalog hb modelHash releaseID ∧
              ¬hasLiveAttempt db n.id)
          else none
    else none

def publicModelCapacity (db : Db) (modelID : ModelID) (freshnessCutoff : Time) :
    PublicModelCapacity :=
  let rows := db.nodes.rows.filterMap (capacityRow db modelID freshnessCutoff)
  ⟨rows.length, (rows.filter id).length⟩

end OperatorStore

/-! ### What the queries have in common -/

/-- A node offers itself for a model, by its row and the latest heartbeat of the session that
connects it. -/
structure Offering (db : Db) (modelID : ModelID) (cutoff : Time) (n : Node) (ns : NodeSession)
    (hb : NodeHeartbeat) : Prop where
  session : latestSession db n.id = some ns
  heartbeat : latestHeartbeat db n.id ns.id = some hb
  state : n.state = .available
  model : n.currentModelID = some modelID
  unquarantined : n.quarantinedAt = none
  fresh : cutoff ≤ ns.lastHeartbeatAt.getD ns.connectedAt
  schedule : hb.scheduleState = "in_window"
  thermal : hb.thermalState = "normal"
  unpaused : hb.paused = false
  undrained : hb.draining = false
  idle : hasLiveAttempt db n.id = false

section

theorem availableNode_iff :
    availableNode db modelID cutoff n = true ↔ ∃ ns hb, Offering db modelID cutoff n ns hb := by
  unfold availableNode
  constructor
  · intro available
    split at available
    · cases available
    next ns session =>
      split at available
      · cases available
      next hb heartbeat =>
        rw [decide_eq_true_eq] at available
        obtain ⟨state, model, free, fresh, schedule, thermal, unpaused, undrained, idle⟩ := available
        exact ⟨ns, hb, session, heartbeat, state, model, Option.isNone_iff_eq_none.mp free, fresh,
          schedule, thermal, by simpa using unpaused, by simpa using undrained, by simpa using idle⟩
  · rintro ⟨ns, hb, offering⟩
    obtain ⟨session, heartbeat, state, model, free, fresh, schedule, thermal, unpaused, undrained,
      idle⟩ := offering
    simp [session, heartbeat, state, model, free, fresh, schedule, thermal, unpaused, undrained, idle]

theorem mem_matchingArtifacts {catalog : Catalog} {modelHash runtimeHash : String} :
    ma ∈ matchingArtifacts catalog modelID modelHash runtimeHash ↔
      ∃ mv ∈ catalog.versions, mv.modelID = modelID ∧
        (∃ rel, mv.runtimeReleaseID = some rel ∧ runtimeHash ∈ catalog.runtimeHashes rel) ∧
        ma ∈ catalog.artifacts ∧ ma.modelVersionID = mv.id ∧ ma.artifactType = "gguf" ∧
        modelHash = "sha256:" ++ ma.sha256 := by
  simp only [matchingArtifacts, mem_flatMap, mem_filter, decide_eq_true_eq]
  constructor
  · rintro ⟨mv, ⟨inside, owner⟩, matching⟩
    split at matching
    next ships =>
      obtain ⟨rel, pinned, shipped⟩ := (Option.any_eq_true _ _).mp ships
      have row := mem_filter.mp matching
      exact ⟨mv, inside, owner, ⟨rel, pinned, of_decide_eq_true shipped⟩, row.1,
        of_decide_eq_true row.2⟩
    next => cases matching
  · rintro ⟨mv, inside, owner, ⟨rel, pinned, shipped⟩, artifact, row⟩
    refine ⟨mv, ⟨inside, owner⟩, ?_⟩
    rw [if_pos (by simp [pinned, shipped])]
    exact mem_filter.mpr ⟨artifact, decide_eq_true row⟩

theorem mem_candidatesOf {c : Candidate} : c ∈ candidatesOf db modelID cutoff n ↔
    ∃ ns hb modelHash runtimeHash, Offering db modelID cutoff n ns hb ∧
      hb.modelHash = some modelHash ∧ hb.runtimeHash = some runtimeHash ∧
      matchingArtifacts db.catalog modelID modelHash runtimeHash ≠ [] ∧
      c = ⟨n.id, ns.id, modelHash, runtimeHash,
        ((db.reputation.find? n.id).map NodeReputation.rollingSuccessRate).getD 6000⟩ := by
  unfold candidatesOf
  constructor
  · intro candidate
    split at candidate
    · cases candidate
    next ns session =>
      split at candidate
      · cases candidate
      next hb heartbeat =>
        split at candidate
        next modelHash runtimeHash model' runtime =>
          split at candidate
          next takes =>
            obtain ⟨ma, matching, rfl⟩ := mem_map.mp candidate
            obtain ⟨state, model, free, fresh, schedule, thermal, unpaused, undrained, idle⟩ := takes
            exact ⟨ns, hb, modelHash, runtimeHash,
              ⟨session, heartbeat, state, model, Option.isNone_iff_eq_none.mp free, fresh, schedule,
                thermal, by simpa using unpaused, by simpa using undrained, by simpa using idle⟩,
              model', runtime, ne_nil_of_mem matching, rfl⟩
          next => cases candidate
        next => cases candidate
  · rintro ⟨ns, hb, modelHash, runtimeHash, offering, model', runtime, matching, rfl⟩
    obtain ⟨session, heartbeat, state, model, free, fresh, schedule, thermal, unpaused, undrained,
      idle⟩ := offering
    obtain ⟨ma, inside⟩ := exists_mem_of_ne_nil _ matching
    simp only [session, heartbeat, model', runtime]
    rw [if_pos (by simp [state, model, free, fresh, schedule, thermal, unpaused, undrained, idle])]
    exact mem_map.mpr ⟨ma, inside, rfl⟩

theorem mem_eligibleNodes {c : Candidate} : c ∈ eligibleNodes db modelID cutoff ↔
    ∃ n ∈ db.nodes.rows, c ∈ candidatesOf db modelID cutoff n :=
  mem_flatMap

end

/-! ### Hashes of a candidate -/

/-- The hashes are those of the GGUF file of the latest version and of a runtime of its release. -/
def Catalog.Latest (catalog : Catalog) (modelID : ModelID) (modelHash runtimeHash : String) : Prop :=
  ∃ rel, catalog.modelHash modelID = some (modelHash, some rel) ∧
    runtimeHash ∈ catalog.runtimeHashes rel

def ReadsCatalog (catalog : Catalog) : (op : Op) → op.Resp → Prop
  | .store _ (.modelHash modelID), r =>
    ∀ found, catalog.modelHash modelID = some found → r = .ok found
  | .store _ (.runtimeHashes releaseID), r => r = .ok (catalog.runtimeHashes releaseID)
  | _, _ => True

section

variable {settings : Settings} {op : Op} {input : Input} {s s' : State} {r : op.Resp}

theorem run_select {α : Type} (balanced : db.balanced = true) (q : Db → α) :
    run schema (select q) db = .ok (q db, db) := by
  have deferred : schema.deferred db = true := balanced
  simp [run, select, exec, Schema.applyWrites, deferred]

theorem run_selectOne {α : Type} (balanced : db.balanced = true) {q : Db → Option α} {a : α}
    (found : q db = some a) (missing : GoError) :
    run schema (selectOne q missing) db = .ok (a, db) := by
  have deferred : schema.deferred db = true := balanced
  simp [run, selectOne, select, exec, Schema.applyWrites, found, deferred]

theorem step_of_run {call : StoreCall} {a : call.Result}
    (reached : input.fails ctx = false) (ran : run schema (call.tx input) s.db = .ok (a, db)) :
    step settings (.store ctx call) input s = some ({ s with db }, .ok a) := by
  simp [step, reached, ran]

theorem readsCatalog_of_step (balanced : s.db.balanced = true)
    (reached : ∀ ctx, input.fails ctx = false) (valid : step settings op input s = some (s', r)) :
    ReadsCatalog s.db.catalog op r := by
  cases op with
  | store ctx call =>
    cases call with
    | modelHash modelID =>
      intro found same
      have ran : run schema ((StoreCall.modelHash modelID).tx input) s.db = .ok (found, s.db) :=
        run_selectOne balanced same _
      cases (step_of_run (reached ctx) ran).symm.trans valid
      rfl
    | runtimeHashes releaseID =>
      have ran : run schema ((StoreCall.runtimeHashes releaseID).tx input) s.db =
          .ok (s.db.catalog.runtimeHashes releaseID, s.db) := run_select balanced _
      cases (step_of_run (reached ctx) ran).symm.trans valid
      rfl
    | _ => exact True.intro
  | _ => exact True.intro

end

/-- The two answers of `verifyCompletion` that blame the hashes of a completion. -/
def blamesHashes (result : Except String Unit) : Prop :=
  result = .error "model hash mismatch" ∨ result = .error "runtime hash mismatch"

section

variable {catalog : Catalog} {settings : Settings} {nodeID : NodeID} {payload : JobCompletedPayload}

theorem not_blamesHashes_error {message : String} (first : Char)
    (starts : message.toList.head? = some first) (other : first ≠ 'm' ∧ first ≠ 'r') :
    ¬blamesHashes (.error message) := by
  rintro (same | same) <;> cases same
  · cases starts
    exact other.1 rfl
  · cases starts
    exact other.2 rfl

theorem not_blamesHashes_verifyJobCompleted {crypto : Crypto} {publicKey : List UInt8} :
    ¬blamesHashes (verifyJobCompleted crypto publicKey payload) := by
  unfold verifyJobCompleted verifySigned
  split
  · exact not_blamesHashes_error 'p' (by simp) (by decide)
  · split
    · exact not_blamesHashes_error 'j' rfl (by decide)
    · split
      · exact not_blamesHashes_error 'u' (by simp) (by decide)
      · split
        · exact not_blamesHashes_error 'd' rfl (by decide)
        · split
          · rintro (same | same) <;> cases same
          · exact not_blamesHashes_error 'j' rfl (by decide)

variable {releaseID : Option String}

theorem modelHashes_yields {hash : String}
    (found : catalog.modelHash modelID = some (hash, releaseID)) :
    (modelHashes ctx modelID).Yields (ReadsCatalog catalog) fun r =>
      r = .ok (hash, (releaseID.map catalog.runtimeHashes).getD []) := by
  refine Prog.yields_call fun read admissible => ?_
  cases admissible _ found
  cases releaseID with
  | none => rfl
  | some rel =>
    refine Prog.yields_call fun shipped admissible' => ?_
    cases admissible'
    rfl

theorem verifyCompletion_passes
    (latest : catalog.Latest payload.modelID payload.modelHash payload.runtimeHash) :
    (verifyCompletion settings ctx nodeID payload).Yields (ReadsCatalog catalog) fun r =>
      ¬blamesHashes r := by
  obtain ⟨releaseID, found, shipped⟩ := latest
  refine (modelHashes_yields found).bind ?_
  rintro _ rfl
  have same : ¬payload.modelHash ≠ payload.modelHash := fun other => other rfl
  have inside : ¬payload.runtimeHash ∉ catalog.runtimeHashes releaseID := fun out => out shipped
  simp only [Option.map_some, Option.getD_some]
  rw [if_neg same, if_neg inside]
  refine Prog.yields_call fun key _ => ?_
  cases key with
  | error e => exact not_blamesHashes_error 'l' (by simp) (by decide)
  | ok encoded =>
    simp only
    split
    · exact not_blamesHashes_error 'd' rfl (by decide)
    · exact not_blamesHashes_verifyJobCompleted

theorem blames_of_not_latest {hash : String} {runtimeHashes : List String}
    (known : catalog.modelHash payload.modelID = some (hash, releaseID))
    (shipped : (releaseID.map catalog.runtimeHashes).getD [] = runtimeHashes)
    (other : ¬catalog.Latest payload.modelID payload.modelHash payload.runtimeHash) :
    payload.modelHash ≠ hash ∨ payload.runtimeHash ∉ runtimeHashes := by
  by_contra both
  obtain ⟨rfl, inside⟩ := not_or.mp both |>.imp not_not.mp not_not.mp
  cases releaseID with
  | none =>
    subst shipped
    cases inside
  | some rel =>
    subst shipped
    exact other ⟨rel, known, inside⟩

/-- With other hashes than the latest, a completion that is read against the catalog is refused for
them. -/
theorem verifyCompletion_blames {found : String × Option String}
    (known : catalog.modelHash payload.modelID = some found)
    (other : ¬catalog.Latest payload.modelID payload.modelHash payload.runtimeHash) :
    ¬(verifyCompletion settings ctx nodeID payload).Yields (ReadsCatalog catalog) fun r =>
      ¬blamesHashes r := by
  obtain ⟨hash, releaseID⟩ := found
  intro passes
  have read := passes (.ok (hash, releaseID)) fun _ same =>
    congrArg _ (Option.some.inj (known.symm.trans same))
  have wrong := blames_of_not_latest known rfl other
  have refused : ∀ {runtimeHashes : List String} {rest : Proc (Except String Unit)},
      payload.modelHash ≠ hash ∨ payload.runtimeHash ∉ runtimeHashes →
      ¬Prog.Yields (ReadsCatalog catalog) (fun r => ¬blamesHashes r)
        (if payload.modelHash ≠ hash then pure (.error "model hash mismatch")
          else if payload.runtimeHash ∉ runtimeHashes then pure (.error "runtime hash mismatch")
          else rest) := by
    intro runtimeHashes rest wrong passes
    by_cases model : payload.modelHash ≠ hash
    · rw [if_pos model] at passes
      exact passes (.inl rfl)
    · rw [if_neg model, if_pos (wrong.resolve_left model)] at passes
      exact passes (.inr rfl)
  cases releaseID with
  | none => exact refused wrong read
  | some rel => exact refused wrong (read (.ok (catalog.runtimeHashes rel)) rfl)

end

theorem known_of_eligible {c : Candidate} (eligible : c ∈ eligibleNodes db modelID cutoff) :
    ∃ found, db.catalog.modelHash modelID = some found := by
  obtain ⟨n, -, candidate⟩ := mem_eligibleNodes.mp eligible
  obtain ⟨ns, hb, reported, runtime, -, -, -, matching, rfl⟩ := mem_candidatesOf.mp candidate
  obtain ⟨ma, inside⟩ := exists_mem_of_ne_nil _ matching
  obtain ⟨mv, version, owner, -, artifact, of, gguf, -⟩ := mem_matchingArtifacts.mp inside
  have row : (mv, ma) ∈ db.catalog.ggufRows modelID :=
    Catalog.mem_ggufRows.mpr ⟨version, owner, artifact, of, gguf⟩
  rw [Catalog.modelHash_eq]
  cases latest : latestBy (fun row => row.1.createdAt) (db.catalog.ggufRows modelID) with
  | none =>
    rw [latestBy_eq_none.mp latest] at row
    cases row
  | some found => exact ⟨_, rfl⟩

/-- Read against the same catalog, a completion with the hashes of a candidate passes both checks if
and only if the candidate has the hashes of the latest version. -/
theorem eligible_node_verifiable_iff {db : Db} {modelID : ModelID} {cutoff : Time} {c : Candidate}
    (eligible : c ∈ eligibleNodes db modelID cutoff) (settings : Settings) (ctx : Ctx)
    (nodeID : NodeID) (payload : JobCompletedPayload) (model : payload.modelID = modelID)
    (modelHash : payload.modelHash = c.modelHash) (runtimeHash : payload.runtimeHash = c.runtimeHash) :
    ((verifyCompletion settings ctx nodeID payload).Yields (ReadsCatalog db.catalog) fun r =>
        ¬blamesHashes r) ↔
      db.catalog.Latest modelID c.modelHash c.runtimeHash := by
  rw [← modelHash, ← runtimeHash, ← model]
  refine ⟨fun passes => ?_, verifyCompletion_passes⟩
  by_contra other
  obtain ⟨found, known⟩ := known_of_eligible eligible
  exact verifyCompletion_blames (model ▸ known) other passes

/-! ### A node with the hashes of an older version -/

/-- A node that is registered after the syncs, connects, and reports the first file. -/
def nodeAfterSyncs (history : List Upsert) : Db :=
  SessionCall.applyAll [.openSession "s1" "n1" 10, availableHeartbeat "h1" "s1" "n1" 11]
    (.registered (.synced history) ["n1"])

def nodeCandidate : Candidate := ⟨"n1", "s1", "sha256:aa", "sha256:bb", 6000⟩

/-- With the file of the version that was synced last the node passes, whatever other there has
been. -/
theorem eligible_node_verifiable_iff_latest :
    let db := nodeAfterSyncs [syncAt 1 "b" (modelManifest "r2" "cc"),
      syncAt 2 "a" (modelManifest "r1" "aa")]
    nodeCandidate ∈ eligibleNodes db "m" 0 ∧
    ∀ settings ctx (payload : JobCompletedPayload), payload.modelID = "m" →
      payload.modelHash = "sha256:aa" → payload.runtimeHash = "sha256:bb" →
      (verifyCompletion settings ctx "n1" payload).Yields (ReadsCatalog db.catalog) fun r =>
        ¬blamesHashes r := by
  have eligible : nodeCandidate ∈ eligibleNodes (nodeAfterSyncs
      [syncAt 1 "b" (modelManifest "r2" "cc"), syncAt 2 "a" (modelManifest "r1" "aa")]) "m" 0 :=
    mem_of_getElem? (i := 0) (by rfl)
  exact ⟨eligible, fun settings ctx payload model hash runtime =>
    (eligible_node_verifiable_iff eligible settings ctx "n1" payload model hash runtime).mpr
      ⟨"rt_b", by decide +kernel, by decide +kernel⟩⟩

/-- After a sync of a second revision with another file, the node is still eligible with the first
one, and its completion is refused. -/
theorem eligible_node_refused :
    let db := nodeAfterSyncs [syncAt 1 "a" (modelManifest "r1" "aa"),
      syncAt 2 "b" (modelManifest "r2" "cc")]
    nodeCandidate ∈ eligibleNodes db "m" 0 ∧
    ∀ settings ctx (payload : JobCompletedPayload), payload.modelID = "m" →
      payload.modelHash = "sha256:aa" → payload.runtimeHash = "sha256:bb" →
      ¬(verifyCompletion settings ctx "n1" payload).Yields (ReadsCatalog db.catalog) fun r =>
        ¬blamesHashes r := by
  refine ⟨mem_of_getElem? (i := 0) (by rfl), ?_⟩
  intro settings ctx payload model hash _
  have found : (nodeAfterSyncs [syncAt 1 "a" (modelManifest "r1" "aa"),
      syncAt 2 "b" (modelManifest "r2" "cc")]).catalog.modelHash "m" =
      some ("sha256:cc", some "rt_a") := by decide +kernel
  refine verifyCompletion_blames (model ▸ found) ?_
  rintro ⟨rel, latest, -⟩
  rw [model, hash, found] at latest
  simp at latest

/-! ### Counts -/

section

def Store.eligibleNode (db : Db) (modelID : ModelID) (cutoff : Time) (n : Node) : Bool :=
  candidatesOf db modelID cutoff n ≠ []

def OperatorStore.advertised (db : Db) (modelID : ModelID) (cutoff : Time) (n : Node) : Bool :=
  capacityRow db modelID cutoff n = some true

theorem eligibleCount_eq : eligibleCount db modelID cutoff =
    (db.nodes.rows.filter (eligibleNode db modelID cutoff)).length := by
  have names : ((eligibleNodes db modelID cutoff).map Candidate.nodeID).toFinset =
      ((db.nodes.rows.filter (eligibleNode db modelID cutoff)).map Node.id).toFinset := by
    ext id
    simp only [mem_toFinset, mem_map, mem_filter, mem_eligibleNodes]
    constructor
    · rintro ⟨c, ⟨n, inside, candidate⟩, rfl⟩
      refine ⟨n, ⟨inside, decide_eq_true (ne_nil_of_mem candidate)⟩, ?_⟩
      obtain ⟨ns, hb, modelHash, runtimeHash, -, -, -, -, rfl⟩ := mem_candidatesOf.mp candidate
      rfl
    · rintro ⟨n, ⟨inside, eligible⟩, rfl⟩
      obtain ⟨c, candidate⟩ := exists_mem_of_ne_nil _ (of_decide_eq_true eligible)
      refine ⟨c, ⟨n, inside, candidate⟩, ?_⟩
      obtain ⟨ns, hb, modelHash, runtimeHash, -, -, -, -, rfl⟩ := mem_candidatesOf.mp candidate
      rfl
  have nodup : ((db.nodes.rows.filter (eligibleNode db modelID cutoff)).map Node.id).Nodup :=
    db.nodes.nodup.sublist (filter_sublist.map Node.id)
  rw [eligibleCount, names, toFinset_card_of_nodup nodup, length_map]

theorem availableNodes_eq : (publicModelCapacity db modelID cutoff).availableNodes =
    (db.nodes.rows.filter (advertised db modelID cutoff)).length := by
  unfold publicModelCapacity
  simp only
  induction db.nodes.rows with
  | nil => rfl
  | cons n rows ih =>
    cases row : capacityRow db modelID cutoff n with
    | none => simpa [advertised, row] using ih
    | some eligible =>
      cases eligible <;> simpa [advertised, row] using ih

def ReportsLatest (catalog : Catalog) (modelID : ModelID) (hb : NodeHeartbeat) : Prop :=
  ∃ modelHash runtimeHash, hb.modelHash = some modelHash ∧ hb.runtimeHash = some runtimeHash ∧
    catalog.Latest modelID modelHash runtimeHash

theorem reportsLatest_iff {catalog : Catalog} {modelHash : String}
    {releaseID : Option String} (found : catalog.modelHash modelID = some (modelHash, releaseID)) :
    reports catalog hb modelHash releaseID = true ↔ ReportsLatest catalog modelID hb := by
  rw [reports, Bool.and_eq_true, decide_eq_true_eq]
  constructor
  · rintro ⟨same, ships⟩
    obtain ⟨runtimeHash, runtime, pinned⟩ := (Option.any_eq_true _ _).mp ships
    obtain ⟨rel, rfl, shipped⟩ := (Option.any_eq_true _ _).mp pinned
    exact ⟨modelHash, runtimeHash, same, runtime, rel, found, of_decide_eq_true shipped⟩
  · rintro ⟨modelHash', runtimeHash, same, runtime, rel, found', shipped⟩
    cases found.symm.trans found'
    refine ⟨same, ?_⟩
    simp [runtime, shipped]

theorem ReportsLatest.matching {catalog : Catalog} (latest : ReportsLatest catalog modelID hb) :
    ∃ modelHash runtimeHash, hb.modelHash = some modelHash ∧ hb.runtimeHash = some runtimeHash ∧
      matchingArtifacts catalog modelID modelHash runtimeHash ≠ [] := by
  obtain ⟨modelHash, runtimeHash, reported, runtime, rel, found, shipped⟩ := latest
  refine ⟨modelHash, runtimeHash, reported, runtime, ?_⟩
  rw [Catalog.modelHash_eq] at found
  obtain ⟨⟨mv, ma⟩, row, same⟩ := Option.map_eq_some_iff.mp found
  obtain ⟨version, owner, artifact, of, gguf⟩ := Catalog.mem_ggufRows.mp (mem_of_latestBy row)
  simp only [Prod.mk.injEq] at same
  exact ne_nil_of_mem (mem_matchingArtifacts.mpr
    ⟨mv, version, owner, ⟨rel, same.2, shipped⟩, artifact, of, gguf, same.1.symm⟩)

theorem eligibleNode_iff : eligibleNode db modelID cutoff n = true ↔
    ∃ ns hb modelHash runtimeHash, Offering db modelID cutoff n ns hb ∧
      hb.modelHash = some modelHash ∧ hb.runtimeHash = some runtimeHash ∧
      matchingArtifacts db.catalog modelID modelHash runtimeHash ≠ [] := by
  rw [eligibleNode, decide_eq_true_eq]
  constructor
  · intro some'
    obtain ⟨c, candidate⟩ := exists_mem_of_ne_nil _ some'
    obtain ⟨ns, hb, modelHash, runtimeHash, offering, reported, runtime, matching, -⟩ :=
      mem_candidatesOf.mp candidate
    exact ⟨ns, hb, modelHash, runtimeHash, offering, reported, runtime, matching⟩
  · rintro ⟨ns, hb, modelHash, runtimeHash, offering, reported, runtime, matching⟩
    exact ne_nil_of_mem (mem_candidatesOf.mpr
      ⟨ns, hb, modelHash, runtimeHash, offering, reported, runtime, matching, rfl⟩)

theorem latestSession_of_live {id : NodeID}
    (live : latestLiveSession db id = some ns) (connected : ns.state = .connected) :
    latestSession db id = some ns := by
  have among := latestBy_filter (p := fun s : NodeSession => decide (s.state = .connected)) live
    (decide_eq_true connected)
  have same : (fun s : NodeSession => decide (s.nodeID = id ∧ s.state = .connected)) =
      fun s => decide (s.state = .connected) &&
        decide (s.nodeID = id ∧ (s.state = .connected ∨ s.state = .draining)) := by
    funext s
    by_cases connected' : s.state = .connected <;> simp [connected']
  rw [latestSession, same, ← filter_filter]
  exact among

theorem advertised_iff : advertised db modelID cutoff n = true ↔
    ∃ ns hb, Offering db modelID cutoff n ns hb ∧
      latestLiveSession db n.id = some ns ∧ ReportsLatest db.catalog modelID hb := by
  rw [advertised, decide_eq_true_eq, capacityRow]
  constructor
  · intro row
    split at row
    · cases row
    next modelHash releaseID found =>
      split at row
      next model =>
        split at row
        · cases row
        next ns live =>
          split at row
          · cases row
          next hb heartbeat =>
            split at row
            next shown =>
              simp only [Option.some.injEq, decide_eq_true_eq] at row
              obtain ⟨state, connected, free, schedule, thermal, unpaused, undrained, -, idle⟩ := row
              exact ⟨ns, hb, ⟨latestSession_of_live live connected, heartbeat, state, model,
                Option.isNone_iff_eq_none.mp free, shown.1, schedule, thermal,
                by simpa using unpaused, by simpa using undrained, by simpa using idle⟩, live,
                (reportsLatest_iff found).mp shown.2⟩
            next => cases row
      next => cases row
  · -- the session is connected, being the latest of the connected ones
    rintro ⟨ns, hb, offering, live, latest⟩
    have connected := (of_decide_eq_true
      (mem_filter.mp (mem_of_latestBy offering.session)).2).2
    obtain ⟨modelHash, -, -, -, rel, found, -⟩ := id latest
    have shown := (reportsLatest_iff found).mpr latest
    obtain ⟨-, heartbeat, state, model, free, fresh, schedule, thermal, unpaused, undrained,
      idle⟩ := offering
    simp [found, model, live, heartbeat, fresh, shown, state, connected, free, schedule, thermal,
      unpaused, undrained, idle]

theorem capacity_le_eligible_le_available (db : Db) (modelID : ModelID) (cutoff : Time) :
    (publicModelCapacity db modelID cutoff).availableNodes ≤
      eligibleCount db modelID cutoff ∧
    eligibleCount db modelID cutoff ≤ availability db modelID cutoff := by
  rw [availableNodes_eq, eligibleCount_eq, availability, ← countP_eq_length_filter,
    ← countP_eq_length_filter, ← countP_eq_length_filter]
  constructor
  · apply countP_mono_left
    intro n _ advertised
    obtain ⟨ns, hb, offering, -, latest⟩ := advertised_iff.mp advertised
    obtain ⟨modelHash, runtimeHash, matching⟩ := latest.matching
    exact eligibleNode_iff.mpr ⟨ns, hb, modelHash, runtimeHash, offering, matching⟩
  · apply countP_mono_left
    intro n _ eligible
    obtain ⟨ns, hb, -, -, offering, -⟩ := eligibleNode_iff.mp eligible
    exact availableNode_iff.mpr ⟨ns, hb, offering⟩

/-- Each available node has no later session that is draining and reports the latest version. -/
def Db.Settled (db : Db) (modelID : ModelID) (cutoff : Time) : Prop :=
  ∀ n ∈ db.nodes.rows, ∀ ns hb, Offering db modelID cutoff n ns hb →
    latestLiveSession db n.id = some ns ∧ ReportsLatest db.catalog modelID hb

theorem Offering.unique {ns' : NodeSession} {hb' : NodeHeartbeat}
    (offering : Offering db modelID cutoff n ns hb) (other : Offering db modelID cutoff n ns' hb') :
    ns' = ns ∧ hb' = hb := by
  obtain rfl := Option.some.inj (other.session.symm.trans offering.session)
  exact ⟨rfl, Option.some.inj (other.heartbeat.symm.trans offering.heartbeat)⟩

theorem settled_iff : db.Settled modelID cutoff ↔ ∀ n ∈ db.nodes.rows,
    availableNode db modelID cutoff n = true → advertised db modelID cutoff n = true := by
  constructor
  · intro settled n inside available
    obtain ⟨ns, hb, offering⟩ := availableNode_iff.mp available
    exact advertised_iff.mpr ⟨ns, hb, offering, settled n inside ns hb offering⟩
  · intro all n inside ns hb offering
    obtain ⟨ns', hb', same, facts⟩ :=
      advertised_iff.mp (all n inside (availableNode_iff.mpr ⟨ns, hb, offering⟩))
    obtain ⟨rfl, rfl⟩ := offering.unique same
    exact facts

/-- The three counts are equal if and only if the nodes that are available are settled. -/
theorem advertised_capacity_schedulable_iff (db : Db) (modelID : ModelID) (cutoff : Time) :
    (availability db modelID cutoff = eligibleCount db modelID cutoff ∧
      eligibleCount db modelID cutoff = (publicModelCapacity db modelID cutoff).availableNodes) ↔
      db.Settled modelID cutoff := by
  have bounds := capacity_le_eligible_le_available db modelID cutoff
  rw [settled_iff]
  constructor
  · rintro ⟨equal, equal'⟩ n inside available
    -- the advertised nodes are a sublist of the available ones, of the same length
    have among : (db.nodes.rows.filter (advertised db modelID cutoff)).Sublist
        (db.nodes.rows.filter (availableNode db modelID cutoff)) := by
      apply monotone_filter_right
      intro n shown
      obtain ⟨ns, hb, offering, -⟩ := advertised_iff.mp shown
      exact availableNode_iff.mpr ⟨ns, hb, offering⟩
    have same := among.eq_of_length (availableNodes_eq.symm.trans (equal.trans equal').symm)
    exact (mem_filter.mp (same ▸ mem_filter.mpr ⟨inside, available⟩)).2
  · intro all
    have available : availability db modelID cutoff ≤
        (publicModelCapacity db modelID cutoff).availableNodes := by
      rw [availableNodes_eq, availability, ← countP_eq_length_filter, ← countP_eq_length_filter]
      exact countP_mono_left all
    omega

end

/-- A node with the file of an older version is scheduled and not advertised. One with a file of no
version is available and not scheduled. -/
theorem advertised_capacity_differs :
    let older := nodeAfterSyncs [syncAt 1 "a" (modelManifest "r1" "aa"),
      syncAt 2 "b" (modelManifest "r2" "cc")]
    let unknown := nodeAfterSyncs [syncAt 1 "b" (modelManifest "r2" "cc")]
    (availability older "m" 0 = 1 ∧ eligibleCount older "m" 0 = 1 ∧
      (publicModelCapacity older "m" 0).availableNodes = 0) ∧
    availability unknown "m" 0 = 1 ∧ eligibleCount unknown "m" 0 = 0 ∧
      (publicModelCapacity unknown "m" 0).availableNodes = 0 := by
  decide +kernel

end Thirdshift
