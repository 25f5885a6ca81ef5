import Thirdshift.Jobs.Types

/-!
# Model catalog and keys

The catalog tables as `SyncCatalog` maintains them, the credentials of nodes and developers, and
the queries the coordinator makes over them.
-/

namespace Thirdshift

open List

structure Model where
  id : ModelID
  status : String
  dataClass : String

structure ModelVersion where
  id : String
  modelID : ModelID
  version : String
  runtimeReleaseID : Option String
  createdAt : Time

structure ModelArtifact where
  id : String
  modelVersionID : String
  artifactType : String
  sha256 : String

structure RuntimeRelease where
  id : String
  engine : String
  version : String

structure RuntimeReleaseArtifact where
  id : String
  runtimeReleaseID : String
  platformKey : String
  sha256 : String

structure ModelPrice where
  id : String
  modelVersionID : String
  priceVersion : String
  customerInputPerMillion : Int
  customerOutputPerMillion : Int
  hostCreditPerMillionOutput : Int
  effectiveFrom : Time
  effectiveUntil : Option Time

def ModelPrice.inForce (mp : ModelPrice) (t : Time) : Bool :=
  mp.effectiveFrom ≤ t &&
    match mp.effectiveUntil with
    | none => true
    | some ends => t < ends

structure HardwareProfile where
  modelVersionID : String
  hardwareClass : String
  maxContextTokens : Int
  createdAt : Time

/-- The capabilities of a manifest, which are stored as one JSON object. -/
structure Capabilities where
  chatCompletions : Bool
  streaming : Bool
  tools : Bool
  embeddings : Bool

structure ModelManifestLimits where
  modelID : ModelID
  maxInputTokens : Int
  maxOutputTokens : Int
  maxRequestBytes : Int
  capabilities : Capabilities
  duplicateSampleRate : Int

structure NodeKey where
  nodeID : NodeID
  publicKey : String
  active : Bool
  createdAt : Time

structure Catalog where
  models : List Model
  versions : List ModelVersion
  artifacts : List ModelArtifact
  releases : List RuntimeRelease
  releaseArtifacts : List RuntimeReleaseArtifact
  profiles : List HardwareProfile
  prices : List ModelPrice
  limits : List ModelManifestLimits
  nodeKeys : List NodeKey

/-- `ORDER BY f DESC LIMIT 1`, with the earlier row on a tie. -/
def latestBy {α : Type} (f : α → Time) : List α → Option α
  | [] => none
  | a :: rest =>
    match latestBy f rest with
    | none => some a
    | some b => if f b ≤ f a then some a else some b

variable {α : Type}

theorem mem_of_latestBy {f : α → Time} {rows : List α} {a : α} (found : latestBy f rows = some a) :
    a ∈ rows := by
  induction rows with
  | nil => cases found
  | cons r rows ih =>
    simp only [latestBy] at found
    split at found
    · simp only [Option.some.injEq] at found
      simp [found]
    next b later =>
      split at found
      · simp only [Option.some.injEq] at found
        simp [found]
      · simp only [Option.some.injEq] at found
        subst found
        exact mem_cons_of_mem _ (ih later)

theorem latestBy_eq_none {f : α → Time} {rows : List α} : latestBy f rows = none ↔ rows = [] := by
  cases rows with
  | nil => simp [latestBy]
  | cons r rows =>
    simp only [latestBy, reduceCtorEq, iff_false]
    split
    · simp
    · split <;> simp

section

variable {f : α → Time} {rows : List α} {a : α} (found : latestBy f rows = some a)
include found

theorem le_of_latestBy : ∀ b ∈ rows, f b ≤ f a := by
  induction rows generalizing a with
  | nil => simp
  | cons r rows ih =>
    simp only [latestBy] at found
    intro b member
    split at found
    next none' =>
      rw [latestBy_eq_none] at none'
      subst none'
      cases found
      cases mem_singleton.mp member
      exact Int.le_refl _
    next last later =>
      have upper := ih later
      split at found <;> cases found
      next first =>
        rcases mem_cons.mp member with rfl | behind
        · exact Int.le_refl _
        · exact Int.le_trans (upper b behind) first
      next second =>
        rcases mem_cons.mp member with rfl | behind
        · exact Int.le_of_lt (Int.not_le.mp second)
        · exact upper b behind

theorem latestBy_filter {p : α → Bool} (kept : p a = true) :
    latestBy f (rows.filter p) = some a := by
  induction rows generalizing a with
  | nil => cases found
  | cons r rows ih =>
    simp only [latestBy] at found
    split at found
    next none' =>
      rw [latestBy_eq_none] at none'
      subst none'
      cases found
      simp [kept, latestBy]
    next last later =>
      split at found <;> cases found
      next first =>
        rw [filter_cons_of_pos kept, latestBy]
        split
        · rfl
        next other among =>
          have upper := le_of_latestBy later other (mem_filter.mp (mem_of_latestBy among)).1
          rw [if_pos (Int.le_trans upper first)]
      next second =>
        by_cases keeps : p r = true
        · rw [filter_cons_of_pos keeps, latestBy, ih later kept]
          simp only [second, ite_false]
        · rw [filter_cons_of_neg keeps]
          exact ih later kept

end

def Capabilities.empty : Capabilities := ⟨false, false, false, false⟩

/-- A model without a capability is taken to complete chats. -/
def capabilitiesFromJSON (decoded : Capabilities) : List Capability :=
  let listed := [(Capability.chatCompletions, decoded.chatCompletions),
    (.streaming, decoded.streaming), (.tools, decoded.tools), (.embeddings, decoded.embeddings)]
  match (listed.filter Prod.snd).map Prod.fst with
  | [] => [.chatCompletions]
  | capabilities => capabilities

namespace Catalog

def empty : Catalog := ⟨[], [], [], [], [], [], [], [], []⟩

/-- The hash of the latest version's GGUF artifact and the runtime release pinned for it. -/
def modelHash (c : Catalog) (modelID : ModelID) : Option (String × Option String) :=
  (latestBy (fun row : ModelVersion × ModelArtifact => row.1.createdAt)
    ((c.versions.filter (fun mv => mv.modelID = modelID)).flatMap fun mv =>
      (c.artifacts.filter (fun ma => ma.modelVersionID = mv.id ∧ ma.artifactType = "gguf")).map
        fun ma => (mv, ma))).map
  fun (mv, ma) => ("sha256:" ++ ma.sha256, mv.runtimeReleaseID)

/-- Every valid runtime binary hash of a release, one per platform. -/
def runtimeHashes (c : Catalog) (releaseID : String) : List String :=
  (c.releaseArtifacts.filter (fun rra => rra.runtimeReleaseID = releaseID)).map
    fun rra => "sha256:" ++ rra.sha256

/-- The price in force at an instant: the latest model version that has one. -/
def priceAt (c : Catalog) (modelID : ModelID) (t : Time) : Option ModelPrice :=
  (latestBy (fun row : ModelVersion × ModelPrice => row.1.createdAt)
    ((c.versions.filter (fun mv => mv.modelID = modelID)).filterMap fun mv =>
      (latestBy ModelPrice.effectiveFrom
        (c.prices.filter fun mp => mp.modelVersionID = mv.id ∧ mp.inForce t)).map
          fun mp => (mv, mp))).map Prod.snd

def publicKeyForNode (c : Catalog) (nodeID : NodeID) : Option String :=
  (latestBy NodeKey.createdAt
    (c.nodeKeys.filter (fun k => k.nodeID = nodeID ∧ k.active = true))).map NodeKey.publicKey

/-- The context of the latest hardware profile of the latest version, by default 4096 tokens. -/
def maxContextTokens (c : Catalog) (modelID : ModelID) : Int :=
  (((latestBy ModelVersion.createdAt (c.versions.filter fun mv => mv.modelID = modelID)).bind
    fun mv => latestBy HardwareProfile.createdAt
      (c.profiles.filter fun hp => hp.modelVersionID = mv.id)).map
    HardwareProfile.maxContextTokens).getD 4096

/-- The row of `ListModels` for one model: it must be offered and have a version and a hash. -/
def modelInfo (c : Catalog) (modelID : ModelID) : Option ModelInfo :=
  match c.models.find? (fun m => m.id = modelID ∧ (m.status = "alpha" ∨ m.status = "active")) with
  | none => none
  | some m =>
    if (c.versions.any (fun mv => mv.modelID = modelID)) ∧ (c.modelHash modelID).isSome then
      let ml := c.limits.find? fun ml => ml.modelID = modelID
      some ⟨m.id, m.dataClass,
        ⟨c.maxContextTokens modelID, (ml.map ModelManifestLimits.maxOutputTokens).getD 1024,
          (ml.map ModelManifestLimits.maxRequestBytes).getD 262144⟩,
        capabilitiesFromJSON ((ml.map ModelManifestLimits.capabilities).getD .empty),
        (ml.map ModelManifestLimits.duplicateSampleRate).getD 0⟩
    else none

def dataClass? (c : Catalog) (modelID : ModelID) : Option String :=
  (c.models.find? (fun m => m.id = modelID)).map Model.dataClass

end Catalog

/-! ### Catalog sync -/

/-- What `upsertManifest` takes from a model manifest and its runtime release manifest. Prices are
in microdollars and the sample rate, already clamped to [0, 1], in ten-thousandths. -/
structure Manifest where
  modelID : ModelID
  status : String
  dataClass : String
  engine : String
  buildID : String
  releaseArtifacts : List (String × String)
  revision : String
  sha256 : String
  contextSize : Int
  maxInputTokens : Int
  maxOutputTokens : Int
  maxRequestBytes : Int
  capabilities : Capabilities
  customerInputPerMillion : Int
  customerOutputPerMillion : Int
  hostCreditPerMillionOutput : Int
  duplicateSampleRate : Int

structure ManifestIDs where
  runtime : String
  releaseArtifact : String → String
  version : String
  artifact : String
  price : String

def rawSHA256 (value : String) : String :=
  if "sha256:".isPrefixOf value then String.ofList (value.toList.drop 7) else value

/-- `INSERT … ON CONFLICT … DO UPDATE` on a list of rows. -/
def upsertBy {α : Type} (conflicts : α → Bool) (update : α → α) (row : α) (rows : List α) : List α :=
  if rows.any conflicts then rows.map (fun r => if conflicts r then update r else r)
  else rows ++ [row]

namespace Manifest

def storedInputTokens (m : Manifest) : Int :=
  if 0 < m.maxInputTokens then m.maxInputTokens
  else if 0 < m.contextSize then m.contextSize
  else 4096

def storedOutputTokens (m : Manifest) : Int :=
  if 0 < m.maxOutputTokens then m.maxOutputTokens else 1024

def storedRequestBytes (m : Manifest) : Int :=
  if 0 < m.maxRequestBytes then m.maxRequestBytes else 262144

def version (m : Manifest) : String := if m.revision = "" then m.buildID else m.revision

end Manifest

namespace Catalog

def upsertManifest (m : Manifest) (ids : ManifestIDs) (now : Time) (c : Catalog) : Catalog :=
  let dataClass := if m.dataClass = "" then "public_or_non_sensitive" else m.dataClass
  let models := upsertBy (fun r => r.id = m.modelID)
    (fun r => { r with status := m.status, dataClass := dataClass })
    ⟨m.modelID, m.status, dataClass⟩ c.models
  let sameRelease := fun r : RuntimeRelease => decide (r.engine = m.engine ∧ r.version = m.buildID)
  let releases := upsertBy sameRelease id ⟨ids.runtime, m.engine, m.buildID⟩ c.releases
  let releaseID := ((c.releases.find? sameRelease).map RuntimeRelease.id).getD ids.runtime
  let releaseArtifacts := m.releaseArtifacts.foldl (fun rows (platformKey, sha) =>
    upsertBy (fun r : RuntimeReleaseArtifact =>
        r.runtimeReleaseID = releaseID ∧ r.platformKey = platformKey)
      (fun r => { r with sha256 := rawSHA256 sha })
      ⟨ids.releaseArtifact platformKey, releaseID, platformKey, rawSHA256 sha⟩ rows)
    c.releaseArtifacts
  let sameVersion := fun r : ModelVersion => decide (r.modelID = m.modelID ∧ r.version = m.version)
  let versions := upsertBy sameVersion (fun r => { r with runtimeReleaseID := some releaseID })
    ⟨ids.version, m.modelID, m.version, some releaseID, now⟩ c.versions
  let versionID := ((c.versions.find? sameVersion).map ModelVersion.id).getD ids.version
  let sha := rawSHA256 m.sha256
  let artifacts := upsertBy (fun r : ModelArtifact =>
      r.modelVersionID = versionID ∧ r.artifactType = "gguf" ∧ r.sha256 = sha) id
    ⟨ids.artifact, versionID, "gguf", sha⟩ c.artifacts
  let profiles := upsertBy (fun r : HardwareProfile =>
      r.modelVersionID = versionID ∧ r.hardwareClass = "alpha-default")
    (fun r => { r with maxContextTokens := m.maxInputTokens })
    ⟨versionID, "alpha-default", m.maxInputTokens, now⟩ c.profiles
  let prices := upsertBy (fun r : ModelPrice =>
      r.modelVersionID = versionID ∧ r.priceVersion = "alpha")
    (fun r => { r with
      customerInputPerMillion := m.customerInputPerMillion
      customerOutputPerMillion := m.customerOutputPerMillion
      hostCreditPerMillionOutput := m.hostCreditPerMillionOutput })
    ⟨ids.price, versionID, "alpha", m.customerInputPerMillion, m.customerOutputPerMillion,
      m.hostCreditPerMillionOutput, now, none⟩ c.prices
  let stored : ModelManifestLimits := ⟨m.modelID, m.storedInputTokens, m.storedOutputTokens,
    m.storedRequestBytes, m.capabilities, m.duplicateSampleRate⟩
  let limits := upsertBy (fun r : ModelManifestLimits => r.modelID = m.modelID) (fun _ => stored)
    stored c.limits
  { c with models, releases, releaseArtifacts, versions, artifacts, profiles, prices, limits }

end Catalog

end Thirdshift
