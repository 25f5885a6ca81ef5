import Thirdshift.Coordinator.Charges
import Thirdshift.Coordinator.Confinement

/-!
# Where an accepted result comes from

A completion is checked against different names: its hashes against the model that the payload
names, the signature under the key of the sender, the lease against the attempt that the payload
names. The checks cover the job's own model and lease when the payload names the job's model and the
attempt is the sender's.
-/

namespace Thirdshift

open Foundation List Option Deployment

namespace Catalog

variable {modelID : ModelID} {nodeID : NodeID} {input : Input} {s : State} {past : Trace}

/-- The hash is one of a GGUF artifact of the model, in a version that pins the release. -/
def PinsHash (c : Catalog) (modelID : ModelID) (hash : String) (releaseID : Option String) : Prop :=
  ∃ mv ∈ c.versions, mv.modelID = modelID ∧ mv.runtimeReleaseID = releaseID ∧
    ∃ ma ∈ c.artifacts, ma.modelVersionID = mv.id ∧ ma.artifactType = "gguf" ∧
      hash = "sha256:" ++ ma.sha256

def ShipsHash (c : Catalog) (releaseID hash : String) : Prop :=
  ∃ rra ∈ c.releaseArtifacts, rra.runtimeReleaseID = releaseID ∧ hash = "sha256:" ++ rra.sha256

def Signed (crypto : Crypto) (c : Catalog) (nodeID : NodeID) (payload : JobCompletedPayload) : Prop :=
  ∃ k ∈ c.nodeKeys, k.nodeID = nodeID ∧ k.active = true ∧ ∃ publicKey,
    crypto.decodeString k.publicKey = some publicKey ∧
    Service.verifyJobCompleted crypto publicKey payload = .ok ()

variable {c : Catalog}

theorem pinsHash_of_modelHash {hash : String} {releaseID : Option String}
    (found : c.modelHash modelID = some (hash, releaseID)) : c.PinsHash modelID hash releaseID := by
  obtain ⟨⟨mv, ma⟩, latest, same⟩ := map_eq_some_iff.mp found
  obtain ⟨mv', version, rows⟩ := mem_flatMap.mp (mem_of_latestBy latest)
  obtain ⟨ma', artifact, pair⟩ := mem_map.mp rows
  cases pair
  cases same
  obtain ⟨inVersions, ofModel⟩ := mem_filter.mp version
  obtain ⟨inArtifacts, ofVersion⟩ := mem_filter.mp artifact
  simp only [decide_eq_true_eq] at ofModel ofVersion
  exact ⟨mv, inVersions, ofModel, rfl, ma, inArtifacts, ofVersion.1, ofVersion.2, rfl⟩

theorem shipsHash_of_runtimeHashes {releaseID hash : String}
    (member : hash ∈ c.runtimeHashes releaseID) : c.ShipsHash releaseID hash := by
  obtain ⟨rra, inRelease, rfl⟩ := mem_map.mp member
  obtain ⟨inCatalog, ofRelease⟩ := mem_filter.mp inRelease
  exact ⟨rra, inCatalog, of_decide_eq_true ofRelease, rfl⟩

theorem signed_of_publicKey {crypto : Crypto} {encoded : String}
    {publicKey : List UInt8} {payload : JobCompletedPayload}
    (found : c.publicKeyForNode nodeID = some encoded)
    (decoded : crypto.decodeString encoded = some publicKey)
    (verified : Service.verifyJobCompleted crypto publicKey payload = .ok ()) :
    c.Signed crypto nodeID payload := by
  obtain ⟨k, latest, rfl⟩ := map_eq_some_iff.mp found
  obtain ⟨member, active⟩ := mem_filter.mp (mem_of_latestBy latest)
  simp only [decide_eq_true_eq] at active
  exact ⟨k, member, active.1, active.2, publicKey, decoded, verified⟩

end Catalog

/-- What makes a result of an attempt of the job acceptable, as the thread that accepted it has read
it before. -/
structure Genuine (settings : Settings) (past : Trace) (thread : Nat) (j : Job) (a : Attempt)
    (payload : JobCompletedPayload) (receivedAt : Time) : Prop where
  hashes : ∃ releaseID, (∃ read ∈ events past, read.thread = thread ∧
      read.before.db.catalog.PinsHash j.modelID payload.modelHash (some releaseID)) ∧
    ∃ read ∈ events past, read.thread = thread ∧
      read.before.db.catalog.ShipsHash releaseID payload.runtimeHash
  signature : ∃ read ∈ events past, read.thread = thread ∧
    read.before.db.catalog.Signed settings.crypto a.nodeID payload
  accepted : ∃ at', a.acceptedAt = some at' ∧ at' ≤ a.leaseExpiresAt ∧ at' ≤ a.createdAt + seconds 2
  received : receivedAt ≤ a.deadlineAt

/-! ### What the reads of a verification say -/

section

variable {settings : Settings} {event : Ev}

theorem selectOne_ok {α : Type} {q : Db → Option α} {missing : GoError} {db db' : Db} {a : α}
    (ok : Tx.exec schema (selectOne q missing) db = .ok (a, db')) : q db = some a := by
  obtain ⟨found, _, read, rest⟩ := Tx.exec_bind_ok ok
  obtain ⟨rfl, -⟩ := Tx.exec_select_ok read
  cases same : q db with
  | none =>
    rw [same] at rest
    cases rest
  | some b =>
    rw [same] at rest
    rw [(Tx.exec_done_ok rest).1]

variable {after before : State} {ctx : Ctx} {op : Op}

section

variable {r : op.Resp} (valid : step settings op input before = some (after, r))
include valid

theorem modelHash_of_seen {found : String × Option String}
    (seen : (⟨.store ctx (.modelHash modelID), .ok found⟩ : Obs steps) = ⟨op, r⟩) :
    before.db.catalog.modelHash modelID = some found := by
  cases seen
  exact selectOne_ok (exec_of_ok valid)

theorem runtimeHashes_of_seen {releaseID : String} {found : List String}
    (seen : (⟨.store ctx (.runtimeHashes releaseID), .ok found⟩ : Obs steps) = ⟨op, r⟩) :
    before.db.catalog.runtimeHashes releaseID = found := by
  cases seen
  exact (Tx.exec_select_ok (exec_of_ok valid)).1.symm

theorem publicKey_of_seen {found : String}
    (seen : (⟨.store ctx (.publicKeyForNode nodeID), .ok found⟩ : Obs steps) = ⟨op, r⟩) :
    before.db.catalog.publicKeyForNode nodeID = some found := by
  cases seen
  exact selectOne_ok (exec_of_ok valid)

end

variable {mid : Config steps State}

theorem Machine.Run.valid_of_mem (run : Ran settings s past mid)
    (member : event ∈ events past) : event.Valid settings :=
  run.exec_of_mem (mem_events.mp member)

theorem Verified.reads {thread : Nat} {payload : JobCompletedPayload}
    (run : Ran settings s past mid)
    (verified : Verified settings (localTrace thread past) nodeID payload) :
    (∃ releaseID, (∃ read ∈ events past, read.thread = thread ∧
        read.before.db.catalog.PinsHash payload.modelID payload.modelHash (some releaseID)) ∧
      ∃ read ∈ events past, read.thread = thread ∧
        read.before.db.catalog.ShipsHash releaseID payload.runtimeHash) ∧
    ∃ read ∈ events past, read.thread = thread ∧
      read.before.db.catalog.Signed settings.crypto nodeID payload := by
  obtain ⟨ctx, releaseID, hashes, model, runtime, listed⟩ := verified.hashes
  obtain ⟨ctx', encoded, publicKey, key, decoded, signed⟩ := verified.signature
  obtain ⟨read₁, member₁, mine₁, seen₁⟩ := mem_localTrace.mp model
  obtain ⟨read₂, member₂, mine₂, seen₂⟩ := mem_localTrace.mp runtime
  obtain ⟨read₃, member₃, mine₃, seen₃⟩ := mem_localTrace.mp key
  refine ⟨⟨releaseID, ⟨read₁, member₁, mine₁, ?_⟩, ⟨read₂, member₂, mine₂, ?_⟩⟩,
    ⟨read₃, member₃, mine₃, ?_⟩⟩
  · exact Catalog.pinsHash_of_modelHash (modelHash_of_seen (Machine.Run.valid_of_mem run member₁) seen₁)
  · apply Catalog.shipsHash_of_runtimeHashes
    rw [runtimeHashes_of_seen (Machine.Run.valid_of_mem run member₂) seen₂]
    exact listed
  · exact Catalog.signed_of_publicKey
      (publicKey_of_seen (Machine.Run.valid_of_mem run member₃) seen₃) decoded signed

end

/-! ### Acceptance within two seconds -/

def PromptlyAccepted (db : Db) : Prop :=
  ∀ id a, db.attempts.find? id = some a → ∀ at', a.acceptedAt = some at' →
    at' ≤ a.createdAt + seconds 2

theorem StoreCall.onAttempt_prompt {call : StoreCall} {a : Attempt} {at' : Time}
    (before : ∀ at', a.acceptedAt = some at' → at' ≤ a.createdAt + seconds 2)
    (accepted : (call.onAttempt input a).acceptedAt = some at') :
    at' ≤ (call.onAttempt input a).createdAt + seconds 2 := by
  rw [(sameLease_onAttempt input call a).createdAt]
  cases call
  case markAccepted jobID attemptID =>
    simp only [onAttempt, Table.updateWhere] at accepted
    split at accepted
    next matched =>
      simp only [decide_eq_true_eq] at matched
      cases accepted
      exact matched.2.2.2.2
    next other => exact before at' accepted
  all_goals
    simp only [onAttempt, Table.updateWhere, id] at accepted
    first
      | exact before at' accepted
      | (split at accepted <;> exact before at' accepted)

theorem PromptlyAccepted.step {settings : Settings} {event : Ev} (valid : event.Valid settings)
    (prompt : PromptlyAccepted event.before.db) : PromptlyAccepted event.after.db := by
  refine Ev.attempts_invariant valid (fun call a was at' => StoreCall.onAttempt_prompt was) ?_ prompt
  intro call a added at' accepted
  cases call <;> cases added <;> cases accepted

/-! ### The sender's own lease -/

def Op.submits : Op → Option JobCompletedPayload
  | .store _ (.completeJob payload ..) => some payload
  | _ => none

/-- A completion is submitted for an attempt that is leased to the sender, and names the model of its
job. -/
def OwnResult (past : Trace) (event : Ev) : Prop :=
  ∀ payload ∈ event.op.submits, ∀ nodeID ∈ sessionNode past event.thread,
    event.before.db.Leases nodeID payload.jobID payload.attemptID ∧
    ∃ j ∈ event.before.db.jobs.find? payload.jobID, j.modelID = payload.modelID
  deriving Decidable

/-- The completion of an attempt is genuine, whatever payload it was accepted for. -/
def AcceptsGenuine (settings : Settings) (past : Trace) (event : Ev) : Prop :=
  ∀ payload receivedAt creditHold status cls attempts,
    event.commits = some (.completeJob payload receivedAt creditHold status cls attempts) →
    ∃ j a, event.before.db.jobs.find? payload.jobID = some j ∧
      event.before.db.attempts.find? payload.attemptID = some a ∧ a.jobID = j.id ∧
      Genuine settings past event.thread j a payload receivedAt

theorem genuine_of_own {settings : Settings} {mid next : Config steps State} {event : Ev}
    (run : Ran settings s past mid) (step : Acts settings mid event next)
    (prompt : PromptlyAccepted event.before.db) (own : OwnResult past event) :
    AcceptsGenuine settings past event := by
  intro payload receivedAt creditHold status cls attempts commits
  have valid : event.Valid settings := step.exec
  obtain ⟨ctx, called⟩ := committed_eq_some commits
  obtain ⟨entry, started, allowed⟩ := disciplined run step
  rw [called] at allowed
  obtain ⟨⟨nodeID, frames, rfl, verified⟩, -⟩ := allowed
  obtain ⟨⟨a, leased, ofJob, holds⟩, j, found, model⟩ := own payload (by simp [called, Op.submits])
    nodeID (sessionNode_eq_some.mpr ⟨frames, started⟩)
  obtain ⟨v, ran⟩ := exec_of_committed valid commits
  obtain ⟨a', checked⟩ := StoreCall.completeJob_checked ran
  cases checked.found.symm.trans leased
  obtain ⟨at', accepted, inLease⟩ := checked.inLease
  obtain ⟨hashes, signature⟩ := verified.reads run
  refine ⟨j, a, found, leased, ofJob.trans (Table.key_of_find? found).symm, ?_, ?_,
    ⟨at', accepted, inLease, prompt _ a leased at' accepted⟩, checked.inTime⟩
  · rw [model]
    exact hashes
  · rw [holds]
    exact signature

/-- Every charge stems from a completion, and every completion is genuine in a run in which
completions are submitted for the sender's own lease and name the model of its job. -/
theorem results_accepted_for_own_lease {settings : Settings} {catalog : Catalog}
    {nodes : Table Node.id} {ls : Trace} {c : Config steps State}
    (run : (coordinator settings).Run (.boot (boot catalog nodes)) ls c)
    (own : Along OwnResult ls) :
    (∀ jobID, Charging c.state.db jobID → ∃ attemptID, Completed ls jobID attemptID) ∧
    Along (AcceptsGenuine settings) ls := by
  constructor
  · exact fun jobID charging =>
      (accepted_iff_completed run).mp ((books_of_run run).charging_iff.mp charging)
  · have promptStart : PromptlyAccepted (boot catalog nodes).db := by
      intro id a found
      simp [boot] at found
    have prompt := fun {past : Trace} {mid : Config steps State}
        (reached : (coordinator settings).Run (.boot (boot catalog nodes)) past mid) =>
      reached.state_invariant (I := fun s => PromptlyAccepted s.db) promptStart
        fun _ _ exec before => PromptlyAccepted.step exec before
    refine (run.along_invariant (I := fun ls _ => Along (AcceptsGenuine settings) ls) own ?_ ?_ ?_)
    · exact along_nil
    · exact fun past mid entry _ ih => along_snoc_spawn.mpr ih
    · intro past event mid next reached step here ih
      refine along_snoc_act.mpr ⟨ih, genuine_of_own reached step ?_ here⟩
      rw [step.start]
      exact prompt reached

namespace Deployment

def servedFromLease : List (Choice Input Entry) :=
  connect 0 "n1" ++ request 1 "j" "a" ++ accept 0 "j0" "a0" ++ complete 0 (payload "j0" "a0") "c"

def twoModels : State := boot
  { catalog with
    models := catalog.models ++ [⟨"m2", "active", "public"⟩]
    versions := catalog.versions ++ [⟨"mv2", "m2", "v1", some "rt", 0⟩]
    artifacts := catalog.artifacts ++ [⟨"art2", "mv2", "gguf", "cc"⟩] }
  ((Table.empty.put (node "n1")).put (node "n2"))

def servedFromAnother : List (Choice Input Entry) :=
  connect 0 "n1" ++ request 1 "j" "a" ++ accept 0 "j0" "a0" ++
  complete 0 { payload "j0" "a0" with modelID := "m2", modelHash := "sha256:cc" } "c"

/-- What is submitted for a job of the first model has a hash that no catalog of the run has for
it. -/
def ForeignHash (ls : Trace) : Prop :=
  (∀ event ∈ events ls, ∀ payload ∈ Op.submits event.op, payload.modelHash = "sha256:cc" ∧
    (event.before.db.jobs.find? payload.jobID).map Job.modelID = some "m") ∧
  ∀ read ∈ events ls, ∀ mv ∈ read.before.db.catalog.versions, mv.modelID = "m" →
    ∀ ma ∈ read.before.db.catalog.artifacts, ma.modelVersionID = mv.id →
      "sha256:cc" ≠ "sha256:" ++ ma.sha256
  deriving Decidable

end Deployment

theorem results_accepted_for_own_lease_served : ∃ ls c,
    (coordinator settings).Run (.boot start) ls c ∧
    Along OwnResult ls ∧ Charging c.state.db "j0" ∧
    (∃ attemptID, Completed ls "j0" attemptID) ∧ Along (AcceptsGenuine settings) ls := by
  obtain ⟨ls, c, run, own, charging⟩ := run_of_check
    (p := fun ls c => Along OwnResult ls ∧ Charging c.state.db "j0") servedFromLease
    (by decide +kernel)
  obtain ⟨stems, genuine⟩ := results_accepted_for_own_lease run own
  exact ⟨ls, c, run, own, charging, stems "j0" charging, genuine⟩

/-- A job of one model is charged for a completion of another: the hashes were checked against the
model that the payload names. -/
theorem result_of_another_model_accepted : ∃ ls c,
    (coordinator settings).Run (.boot twoModels) ls c ∧
    Charging c.state.db "j0" ∧ ¬ Along (AcceptsGenuine settings) ls := by
  obtain ⟨ls, c, run, charging, ⟨event, member, completes⟩, submitted, others⟩ :=
    run_from (p := fun ls c => Charging c.state.db "j0" ∧ Completed ls "j0" "a0" ∧
      Deployment.ForeignHash ls) twoModels servedFromAnother (by decide +kernel)
  refine ⟨ls, c, run, charging, fun genuine => ?_⟩
  obtain ⟨past, rest, cut⟩ := append_of_mem (mem_events.mp member)
  obtain ⟨call, commits, completion⟩ := bind_eq_some_iff.mp completes
  obtain ⟨ctx, called⟩ := committed_eq_some commits
  cases call with
  | completeJob payload receivedAt creditHold status cls attempts =>
    obtain ⟨j, a, found, -, -, genuine⟩ := genuine past event rest cut payload receivedAt creditHold
      status cls attempts commits
    obtain ⟨hash, model⟩ := submitted event member payload (by simp [called, Op.submits])
    obtain ⟨releaseID, ⟨read, reads, -, mv, version, ofModel, -, ma, artifact, ofVersion, -, same⟩, -⟩ :=
      genuine.hashes
    rw [found] at model
    have inRun : read ∈ events ls := by
      rw [cut, mem_events]
      exact mem_append_left _ (mem_events.mp reads)
    rw [hash] at same
    exact others read inRun mv version (ofModel.trans (Option.some.inj model)) ma artifact ofVersion
      same
  | _ => cases completion

end Thirdshift
