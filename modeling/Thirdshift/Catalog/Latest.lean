import Thirdshift.Catalog.History
import Thirdshift.Ledger.Store

/-!
# The latest sync

An upsert writes to several tables, each with a conflict key of its own, and leaves the columns that
the readers sort by. The readers follow the latest sync of a model as long as it does not return to
an older version, pins the file its version had, and removes no platform of its build.
-/

namespace Thirdshift

open List Catalog

variable {u : Upsert} {r : RuntimeRelease} {mv : ModelVersion} {c : Catalog}
  {history : List Upsert} {P : Upsert → Prop} {id : String}

/-! ### Tables that are upserted into -/

/-- The identifier that `INSERT … ON CONFLICT … DO UPDATE … RETURNING id` returns. -/
def returning {α : Type} (conflicts : α → Bool) (ident : α → String) (fresh : String)
    (rows : List α) : String :=
  ((rows.find? conflicts).map ident).getD fresh

section

variable {α κ : Type} {conflicts : α → Bool} {update : α → α} {row : α} {rows : List α}
  {ident : α → String}

theorem unique_upsertBy {column : α → κ}
    (unique : ∀ a ∈ rows, ∀ b ∈ rows, column a = column b → a = b)
    (keeps : ∀ r, column (update r) = column r)
    (fresh : (∀ old ∈ rows, conflicts old = false) → ∀ old ∈ rows, column old ≠ column row) :
    ∀ a ∈ upsertBy conflicts update row rows, ∀ b ∈ upsertBy conflicts update row rows,
      column a = column b → a = b := by
  -- a row that was there is the same row after the upsert, up to the update
  have origin : ∀ r ∈ upsertBy conflicts update row rows,
      (∃ old ∈ rows, column r = column old ∧ r = if conflicts old then update old else old) ∨
      ((∀ old ∈ rows, conflicts old = false) ∧ r = row) := by
    intro r member
    rcases mem_upsertBy.mp member with ⟨old, before, clash, rfl⟩ | ⟨before, free⟩ | inserted
    · exact .inl ⟨old, before, keeps old, by simp [clash]⟩
    · exact .inl ⟨r, before, rfl, by simp [free]⟩
    · exact .inr inserted
  intro a memberA b memberB same
  rcases origin a memberA with ⟨oldA, beforeA, columnA, rfl⟩ | ⟨free, rfl⟩
  · rcases origin b memberB with ⟨oldB, beforeB, columnB, rfl⟩ | ⟨free, rfl⟩
    · rw [columnA, columnB] at same
      rw [unique oldA beforeA oldB beforeB same]
    · exact absurd (columnA.symm.trans same) (fresh free oldA beforeA)
  · rcases origin b memberB with ⟨oldB, beforeB, columnB, rfl⟩ | ⟨-, rfl⟩
    · exact absurd (columnB.symm.trans same.symm) (fresh free oldB beforeB)
    · rfl

theorem upsertBy_hit (conflicts : α → Bool) (update : α → α) (row : α) (rows : List α)
    (ident : α → String) :
    (∃ old ∈ rows, conflicts old = true ∧ update old ∈ upsertBy conflicts update row rows ∧
      returning conflicts ident (ident row) rows = ident old) ∨
    ((∀ old ∈ rows, conflicts old = false) ∧ row ∈ upsertBy conflicts update row rows ∧
      returning conflicts ident (ident row) rows = ident row) := by
  cases found : rows.find? conflicts with
  | some old =>
    have before := mem_of_find?_eq_some found
    have clash := find?_some found
    exact .inl ⟨old, before, clash, mem_upsertBy.mpr (.inl ⟨old, before, clash, rfl⟩),
      by simp [returning, found]⟩
  | none =>
    have free : ∀ old ∈ rows, conflicts old = false := by simpa using found
    exact .inr ⟨free, mem_upsertBy.mpr (.inr (.inr ⟨free, rfl⟩)), by simp [returning, found]⟩

theorem returning_ne {fresh : String} {r : α}
    (unique : ∀ a ∈ rows, ∀ b ∈ rows, ident a = ident b → a = b)
    (free : (∀ old ∈ rows, conflicts old = false) → ∀ old ∈ rows, ident old ≠ fresh)
    (member : r ∈ rows) (other : conflicts r = false) :
    returning conflicts ident fresh rows ≠ ident r := by
  intro same
  cases found : rows.find? conflicts with
  | none =>
    have absent : ∀ old ∈ rows, conflicts old = false := by simpa using found
    simp only [returning, found, Option.map_none, Option.getD_none] at same
    exact free absent r member same.symm
  | some old =>
    simp only [returning, found, Option.map_some, Option.getD_some] at same
    have hit := unique old (mem_of_find?_eq_some found) r member same
    rw [← hit, find?_some found] at other
    cases other

end

/-! ### One upsert -/

namespace Upsert

def build (u : Upsert) : String × String := (u.manifest.engine, u.manifest.buildID)

def revision (u : Upsert) : ModelID × String := (u.manifest.modelID, u.manifest.version)

def sameRelease (u : Upsert) (r : RuntimeRelease) : Bool :=
  r.engine = u.manifest.engine ∧ r.version = u.manifest.buildID

def sameVersion (u : Upsert) (r : ModelVersion) : Bool :=
  r.modelID = u.manifest.modelID ∧ r.version = u.manifest.version

end Upsert

def RuntimeRelease.build (r : RuntimeRelease) : String × String := (r.engine, r.version)

def ModelVersion.revision (mv : ModelVersion) : ModelID × String := (mv.modelID, mv.version)

@[simp] theorem Upsert.sameRelease_iff : u.sameRelease r = true ↔ r.build = u.build := by
  simp [sameRelease, RuntimeRelease.build, build]

@[simp] theorem Upsert.sameVersion_iff : u.sameVersion mv = true ↔ mv.revision = u.revision := by
  simp [sameVersion, ModelVersion.revision, revision]

theorem Upsert.not_sameRelease : u.sameRelease r = false ↔ r.build ≠ u.build := by
  rw [← Bool.not_eq_true, sameRelease_iff]

theorem Upsert.not_sameVersion : u.sameVersion mv = false ↔ mv.revision ≠ u.revision := by
  rw [← Bool.not_eq_true, sameVersion_iff]

namespace Catalog

def releaseID (c : Catalog) (u : Upsert) : String :=
  returning u.sameRelease RuntimeRelease.id u.ids.runtime c.releases

def versionID (c : Catalog) (u : Upsert) : String :=
  returning u.sameVersion ModelVersion.id u.ids.version c.versions

def upsertPlatform (ids : ManifestIDs) (releaseID : String) (rows : List RuntimeReleaseArtifact)
    (artifact : String × String) : List RuntimeReleaseArtifact :=
  upsertBy (fun r => r.runtimeReleaseID = releaseID ∧ r.platformKey = artifact.1)
    (fun r => { r with sha256 := rawSHA256 artifact.2 })
    ⟨ids.releaseArtifact artifact.1, releaseID, artifact.1, rawSHA256 artifact.2⟩ rows

section

variable {ids : ManifestIDs} {releaseID : String} {artifacts : List (String × String)}

variable {rows : List RuntimeReleaseArtifact}

theorem mem_upsertPlatforms {rra : RuntimeReleaseArtifact}
    (member : rra ∈ artifacts.foldl (upsertPlatform ids releaseID) rows) :
    (rra ∈ rows ∧ ¬(rra.runtimeReleaseID = releaseID ∧ rra.platformKey ∈ artifacts.map Prod.fst)) ∨
    (rra.runtimeReleaseID = releaseID ∧
      ∃ sha, (rra.platformKey, sha) ∈ artifacts ∧ rra.sha256 = rawSHA256 sha) := by
  induction artifacts generalizing rows with
  | nil => exact .inl ⟨member, by simp⟩
  | cons artifact rest ih =>
    rcases ih member with ⟨first, untouched⟩ | ⟨release, sha, inside, same⟩
    · -- none of the rest is about the row, so it is as the first artifact left it
      rcases mem_upsertBy.mp first with ⟨old, -, clash, rfl⟩ | ⟨before, free⟩ | ⟨-, rfl⟩
      · have key := of_decide_eq_true clash
        exact .inr ⟨key.1, artifact.2, by simp [key.2], rfl⟩
      · refine .inl ⟨before, ?_⟩
        rintro ⟨release, inside⟩
        rcases mem_cons.mp inside with first | later
        · exact of_decide_eq_false free ⟨release, first⟩
        · exact untouched ⟨release, later⟩
      · exact .inr ⟨rfl, artifact.2, by simp, rfl⟩
    · exact .inr ⟨release, sha, mem_cons_of_mem _ inside, same⟩

theorem platform_kept {release platform : String}
    (present : ∃ rra ∈ rows, rra.runtimeReleaseID = release ∧ rra.platformKey = platform) :
    ∃ rra ∈ artifacts.foldl (upsertPlatform ids releaseID) rows,
      rra.runtimeReleaseID = release ∧ rra.platformKey = platform := by
  induction artifacts generalizing rows with
  | nil => exact present
  | cons artifact rest ih =>
    apply ih
    obtain ⟨rra, member, owner, key⟩ := present
    by_cases clash : rra.runtimeReleaseID = releaseID ∧ rra.platformKey = artifact.1
    · exact ⟨{ rra with sha256 := rawSHA256 artifact.2 },
        mem_upsertBy.mpr (.inl ⟨rra, member, decide_eq_true clash, rfl⟩), owner, key⟩
    · exact ⟨rra, mem_upsertBy.mpr (.inr (.inl ⟨member, decide_eq_false clash⟩)), owner, key⟩

theorem platform_upserted {artifact : String × String} (inside : artifact ∈ artifacts) :
    ∃ rra ∈ artifacts.foldl (upsertPlatform ids releaseID) rows,
      rra.runtimeReleaseID = releaseID ∧ rra.platformKey = artifact.1 := by
  induction artifacts generalizing rows with
  | nil => cases inside
  | cons first rest ih =>
    rw [foldl_cons]
    rcases mem_cons.mp inside with rfl | later
    · apply platform_kept
      rcases upsertBy_hit (fun r : RuntimeReleaseArtifact =>
          r.runtimeReleaseID = releaseID ∧ r.platformKey = artifact.1)
          (fun r => { r with sha256 := rawSHA256 artifact.2 })
          ⟨ids.releaseArtifact artifact.1, releaseID, artifact.1, rawSHA256 artifact.2⟩ rows
          RuntimeReleaseArtifact.id with ⟨old, -, clash, after, -⟩ | ⟨-, after, -⟩
      · exact ⟨_, after, of_decide_eq_true clash⟩
      · exact ⟨_, after, rfl, rfl⟩
    · exact ih later

end

/-! ### What the history has left -/

/-- A release or a version that an upsert inserts has a new primary key, or the upsert fails. -/
def Accepts (c : Catalog) (u : Upsert) : Prop :=
  ((∀ r ∈ c.releases, u.sameRelease r = false) → ∀ r ∈ c.releases, r.id ≠ u.ids.runtime) ∧
  ((∀ mv ∈ c.versions, u.sameVersion mv = false) → ∀ mv ∈ c.versions, mv.id ≠ u.ids.version)
  deriving Decidable

def Succeeds (c : Catalog) : List Upsert → Prop
  | [] => True
  | u :: rest => c.Accepts u ∧ (c.upsert u).Succeeds rest

theorem succeeds_append {first rest : List Upsert} :
    c.Succeeds (first ++ rest) ↔ c.Succeeds first ∧ (first.foldl upsert c).Succeeds rest := by
  induction first generalizing c with
  | nil => simp [Succeeds]
  | cons u first ih => simp [Succeeds, ih, and_assoc]

def Ordered (history : List Upsert) : Prop :=
  history.Pairwise fun a b => a.manifest.modelID = b.manifest.modelID → a.now < b.now

/-- A row belongs to a version, which an upsert with the property described. -/
def OfVersion (c : Catalog) (history : List Upsert) (id : String) (P : Upsert → Prop) : Prop :=
  ∃ mv ∈ c.versions, mv.id = id ∧ ∃ w ∈ history, w.revision = mv.revision ∧ P w

/-- A row belongs to a release, whose build an upsert with the property pinned. -/
def OfRelease (c : Catalog) (history : List Upsert) (id : String) (P : Upsert → Prop) : Prop :=
  ∃ r ∈ c.releases, r.id = id ∧ ∃ w ∈ history, w.build = r.build ∧ P w

structure Recorded (history : List Upsert) (c : Catalog) : Prop where
  release_build : ∀ a ∈ c.releases, ∀ b ∈ c.releases, a.build = b.build → a = b
  release_id : ∀ a ∈ c.releases, ∀ b ∈ c.releases, a.id = b.id → a = b
  version_revision : ∀ a ∈ c.versions, ∀ b ∈ c.versions, a.revision = b.revision → a = b
  version_id : ∀ a ∈ c.versions, ∀ b ∈ c.versions, a.id = b.id → a = b
  -- a version has the time of the first upsert that described it
  described : ∀ mv ∈ c.versions, ∃ w ∈ history, w.revision = mv.revision ∧ w.now = mv.createdAt
  first : ∀ mv ∈ c.versions, ∀ w ∈ history, w.revision = mv.revision → mv.createdAt ≤ w.now
  present : ∀ w ∈ history, ∃ mv ∈ c.versions, mv.revision = w.revision
  artifact : ∀ ma ∈ c.artifacts, c.OfVersion history ma.modelVersionID fun w =>
    ma.sha256 = rawSHA256 w.manifest.sha256
  price : ∀ mp ∈ c.prices, mp.priceVersion = "alpha" ∧ mp.effectiveUntil = none ∧
    c.OfVersion history mp.modelVersionID fun w => w.now = mp.effectiveFrom
  platform : ∀ rra ∈ c.releaseArtifacts, c.OfRelease history rra.runtimeReleaseID fun w =>
    rra.platformKey ∈ w.manifest.releaseArtifacts.map Prod.fst

section

theorem releaseID_mem (c : Catalog) (u : Upsert) :
    ∃ r ∈ (c.upsert u).releases, r.build = u.build ∧ r.id = c.releaseID u := by
  rcases upsertBy_hit u.sameRelease id ⟨u.ids.runtime, u.manifest.engine, u.manifest.buildID⟩
    c.releases RuntimeRelease.id with ⟨old, -, clash, after, same⟩ | ⟨-, after, same⟩
  · exact ⟨old, after, Upsert.sameRelease_iff.mp clash, same.symm⟩
  · exact ⟨_, after, rfl, same.symm⟩

theorem versionID_mem (c : Catalog) (u : Upsert) :
    ∃ mv ∈ (c.upsert u).versions, mv.revision = u.revision ∧ mv.id = c.versionID u ∧
      mv.runtimeReleaseID = some (c.releaseID u) ∧
      ((∃ old ∈ c.versions, old.revision = u.revision ∧ old.id = c.versionID u ∧
        old.createdAt = mv.createdAt) ∨
      ((∀ old ∈ c.versions, u.sameVersion old = false) ∧ mv.createdAt = u.now)) := by
  rcases upsertBy_hit u.sameVersion (fun r => { r with runtimeReleaseID := some (c.releaseID u) })
    ⟨u.ids.version, u.manifest.modelID, u.manifest.version, some (c.releaseID u), u.now⟩
    c.versions ModelVersion.id with ⟨old, before, clash, after, same⟩ | ⟨free, after, same⟩
  · have revision := Upsert.sameVersion_iff.mp clash
    exact ⟨_, after, revision, same.symm, rfl, .inl ⟨old, before, revision, same.symm, rfl⟩⟩
  · exact ⟨_, after, rfl, same.symm, rfl, .inr ⟨free, rfl⟩⟩

theorem version_origin (member : mv ∈ (c.upsert u).versions) :
    (∃ old ∈ c.versions, old.revision = mv.revision ∧ old.id = mv.id ∧
      old.createdAt = mv.createdAt) ∨
    ((∀ old ∈ c.versions, u.sameVersion old = false) ∧ mv.revision = u.revision ∧
      mv.createdAt = u.now) := by
  rcases mem_upsertBy.mp member with ⟨old, before, -, rfl⟩ | ⟨before, -⟩ | ⟨free, rfl⟩
  · exact .inl ⟨old, before, rfl, rfl, rfl⟩
  · exact .inl ⟨mv, before, rfl, rfl, rfl⟩
  · exact .inr ⟨free, rfl, rfl⟩

theorem version_kept (member : mv ∈ c.versions) :
    ∃ after ∈ (c.upsert u).versions, after.revision = mv.revision ∧ after.id = mv.id := by
  cases clash : u.sameVersion mv with
  | true => exact ⟨_, mem_upsertBy.mpr (.inl ⟨mv, member, clash, rfl⟩), rfl, rfl⟩
  | false => exact ⟨mv, mem_upsertBy.mpr (.inr (.inl ⟨member, clash⟩)), rfl, rfl⟩

theorem release_kept (member : r ∈ c.releases) : r ∈ (c.upsert u).releases := by
  cases clash : u.sameRelease r with
  | true => exact mem_upsertBy.mpr (.inl ⟨r, member, clash, rfl⟩)
  | false => exact mem_upsertBy.mpr (.inr (.inl ⟨member, clash⟩))

theorem OfVersion.kept (owned : c.OfVersion history id P) :
    (c.upsert u).OfVersion (history ++ [u]) id P := by
  obtain ⟨mv, member, same, w, inside, revision, property⟩ := owned
  obtain ⟨after, member', revision', id'⟩ := version_kept (u := u) member
  exact ⟨after, member', id'.trans same, w, mem_append_left _ inside,
    revision.trans revision'.symm, property⟩

theorem OfRelease.kept (owned : c.OfRelease history id P) :
    (c.upsert u).OfRelease (history ++ [u]) id P := by
  obtain ⟨r, member, same, w, inside, build, property⟩ := owned
  exact ⟨r, release_kept member, same, w, mem_append_left _ inside, build, property⟩

theorem ofVersion_versionID (c : Catalog) (history : List Upsert) (property : P u) :
    (c.upsert u).OfVersion (history ++ [u]) (c.versionID u) P := by
  obtain ⟨mv, member, revision, same, -⟩ := versionID_mem c u
  exact ⟨mv, member, same, u, by simp, revision.symm, property⟩

theorem ofRelease_releaseID (c : Catalog) (history : List Upsert) (property : P u) :
    (c.upsert u).OfRelease (history ++ [u]) (c.releaseID u) P := by
  obtain ⟨r, member, build, same⟩ := releaseID_mem c u
  exact ⟨r, member, same, u, by simp, build.symm, property⟩

theorem Recorded.upsert (recorded : Recorded history c) (accepts : c.Accepts u)
    (later : ∀ w ∈ history, w.manifest.modelID = u.manifest.modelID → w.now < u.now) :
    Recorded (history ++ [u]) (c.upsert u) where
  release_build := unique_upsertBy recorded.release_build (fun _ => rfl) fun free old before =>
    Upsert.not_sameRelease.mp (free old before)
  release_id := unique_upsertBy recorded.release_id (fun _ => rfl) accepts.1
  version_revision := unique_upsertBy recorded.version_revision (fun _ => rfl) fun free old before =>
    Upsert.not_sameVersion.mp (free old before)
  version_id := unique_upsertBy recorded.version_id (fun _ => rfl) accepts.2
  described := by
    intro mv member
    rcases version_origin member with ⟨old, before, revision, -, created⟩ | ⟨-, revision, created⟩
    · obtain ⟨w, inside, same, time⟩ := recorded.described old before
      exact ⟨w, mem_append_left _ inside, same.trans revision, time.trans created⟩
    · exact ⟨u, by simp, revision.symm, created.symm⟩
  first := by
    intro mv member w inside same
    rcases version_origin member with ⟨old, before, revision, -, created⟩ | ⟨free, revision, created⟩
    · rw [← created]
      rcases mem_append.mp inside with earlier | new
      · exact recorded.first old before w earlier (same.trans revision.symm)
      · -- the upsert is later than the one that described the version first
        cases mem_singleton.mp new
        obtain ⟨w', inside', same', time⟩ := recorded.described old before
        have model := congrArg Prod.fst ((same'.trans revision).trans same.symm)
        rw [← time]
        exact Int.le_of_lt (later w' inside' model)
    · rcases mem_append.mp inside with earlier | new
      · -- an earlier upsert of the version would have left a row
        obtain ⟨old, before, hit⟩ := recorded.present w earlier
        exact absurd (hit.trans (same.trans revision)) (Upsert.not_sameVersion.mp (free old before))
      · cases mem_singleton.mp new
        exact Int.le_of_eq created
  present := by
    intro w inside
    rcases mem_append.mp inside with earlier | new
    · obtain ⟨mv, before, same⟩ := recorded.present w earlier
      obtain ⟨after, member, revision, -⟩ := version_kept (u := u) before
      exact ⟨after, member, revision.trans same⟩
    · cases mem_singleton.mp new
      obtain ⟨mv, member, revision, -⟩ := versionID_mem c u
      exact ⟨mv, member, revision⟩
  artifact := by
    intro ma member
    rcases mem_upsertBy.mp member with ⟨old, before, -, rfl⟩ | ⟨before, -⟩ | ⟨-, rfl⟩
    · exact (recorded.artifact _ before).kept
    · exact (recorded.artifact _ before).kept
    · exact ofVersion_versionID c history rfl
  price := by
    intro mp member
    rcases mem_upsertBy.mp member with ⟨old, before, -, rfl⟩ | ⟨before, -⟩ | ⟨-, rfl⟩
    · obtain ⟨alpha, endless, owned⟩ := recorded.price old before
      exact ⟨alpha, endless, owned.kept⟩
    · obtain ⟨alpha, endless, owned⟩ := recorded.price mp before
      exact ⟨alpha, endless, owned.kept⟩
    · exact ⟨rfl, rfl, ofVersion_versionID c history rfl⟩
  platform := by
    intro rra member
    rcases mem_upsertPlatforms member with ⟨before, -⟩ | ⟨release, sha, inside, -⟩
    · exact (recorded.platform rra before).kept
    · rw [release]
      exact ofRelease_releaseID c history (mem_map_of_mem inside)

end

theorem recorded_synced (succeeds : empty.Succeeds history)
    (ordered : Ordered history) : Recorded history (synced history) := by
  induction history using List.reverseRecOn with
  | nil =>
    constructor
    all_goals
      intro _ member
      cases member
  | append_singleton history u ih =>
    obtain ⟨succeeds', accepts, -⟩ := succeeds_append.mp succeeds
    obtain ⟨ordered', -, later⟩ := pairwise_append.mp ordered
    rw [synced_concat]
    exact (ih succeeds' ordered').upsert accepts fun w inside => later w inside u (by simp)

/-! ### What the readers see -/

/-- Earlier upserts leave room for the readers to follow one. Every other version of the model is
older than its version, which had the same file, and its build had no platform that is gone. -/
structure Supersedes (before : List Upsert) (u : Upsert) : Prop where
  newest : ∀ w ∈ before, w.manifest.modelID = u.manifest.modelID → w.revision ≠ u.revision →
    ∀ v ∈ before, v.revision = u.revision → ∃ w' ∈ before, w'.revision = w.revision ∧ w'.now < v.now
  file : ∀ w ∈ before, w.revision = u.revision →
    rawSHA256 w.manifest.sha256 = rawSHA256 u.manifest.sha256
  platforms : ∀ w ∈ before, w.build = u.build → ∀ platform ∈ w.manifest.releaseArtifacts.map Prod.fst,
    platform ∈ u.manifest.releaseArtifacts.map Prod.fst

/-- The rows that the readers go by are those of one upsert. -/
structure Current (c : Catalog) (u : Upsert) (releaseID versionID : String) : Prop where
  version : ∃ mv ∈ c.versions, mv.revision = u.revision ∧ mv.id = versionID ∧
    mv.runtimeReleaseID = some releaseID ∧
    ∀ other ∈ c.versions, other.modelID = u.manifest.modelID → other.revision ≠ u.revision →
      other.createdAt < mv.createdAt
  pinned : ∃ ma ∈ c.artifacts, ma.modelVersionID = versionID ∧ ma.artifactType = "gguf"
  file : ∀ ma ∈ c.artifacts, ma.modelVersionID = versionID →
    ma.sha256 = rawSHA256 u.manifest.sha256
  priced : ∃ mp ∈ c.prices, mp.modelVersionID = versionID
  price : ∀ mp ∈ c.prices, mp.modelVersionID = versionID → mp.effectiveFrom ≤ u.now ∧
    mp.effectiveUntil = none ∧
    mp.customerInputPerMillion = u.manifest.customerInputPerMillion ∧
    mp.customerOutputPerMillion = u.manifest.customerOutputPerMillion ∧
    mp.hostCreditPerMillionOutput = u.manifest.hostCreditPerMillionOutput
  release : ∃ r ∈ c.releases, r.build = u.build ∧ r.id = releaseID
  platform : ∀ artifact ∈ u.manifest.releaseArtifacts, ∃ rra ∈ c.releaseArtifacts,
    rra.runtimeReleaseID = releaseID ∧ rra.platformKey = artifact.1
  shipped : ∀ rra ∈ c.releaseArtifacts, rra.runtimeReleaseID = releaseID →
    ∃ sha, (rra.platformKey, sha) ∈ u.manifest.releaseArtifacts ∧ rra.sha256 = rawSHA256 sha

section

variable {w : Upsert} {before : List Upsert} {releaseID versionID : String}

section

variable (recorded : Recorded before c) (accepts : c.Accepts u)
include recorded accepts

theorem Recorded.of_versionID (owned : c.OfVersion before (c.versionID u) P) :
    ∃ w ∈ before, w.revision = u.revision ∧ P w := by
  obtain ⟨mv, member, same, w, inside, revision, property⟩ := owned
  cases clash : u.sameVersion mv with
  | true => exact ⟨w, inside, revision.trans (Upsert.sameVersion_iff.mp clash), property⟩
  | false => exact absurd same.symm (returning_ne recorded.version_id accepts.2 member clash)

theorem Recorded.of_releaseID (owned : c.OfRelease before (c.releaseID u) P) :
    ∃ w ∈ before, w.build = u.build ∧ P w := by
  obtain ⟨r, member, same, w, inside, build, property⟩ := owned
  cases clash : u.sameRelease r with
  | true => exact ⟨w, inside, build.trans (Upsert.sameRelease_iff.mp clash), property⟩
  | false => exact absurd same.symm (returning_ne recorded.release_id accepts.1 member clash)

theorem Recorded.current
    (later : ∀ w ∈ before, w.manifest.modelID = u.manifest.modelID → w.now < u.now)
    (supersedes : Supersedes before u) :
    Current (c.upsert u) u (c.releaseID u) (c.versionID u) where
  version := by
    obtain ⟨mv, member, revision, same, pinned, created⟩ := versionID_mem c u
    refine ⟨mv, member, revision, same, pinned, ?_⟩
    intro other member' model different
    -- another version was there before the upsert, with the time of its first one
    rcases version_origin member' with ⟨old, inside, revision', -, created'⟩ | ⟨-, revision', -⟩
    · obtain ⟨w, inside', same', time⟩ := recorded.described old inside
      have model' : w.manifest.modelID = u.manifest.modelID :=
        (congrArg Prod.fst (same'.trans revision')).trans model
      have different' : w.revision ≠ u.revision := fun eq =>
        different ((revision'.symm.trans same'.symm).trans eq)
      rw [← created']
      rcases created with ⟨old', inside'', revision'', -, created''⟩ | ⟨-, created''⟩
      · obtain ⟨v, insideV, sameV, timeV⟩ := recorded.described old' inside''
        obtain ⟨w', insideW, sameW, earlier⟩ := supersedes.newest w inside' model' different' v
          insideV (sameV.trans revision'')
        have first := recorded.first old inside w' insideW (sameW.trans same')
        rw [← created'', ← timeV]
        exact Int.lt_of_le_of_lt first earlier
      · rw [created'', ← time]
        exact later w inside' model'
    · exact absurd revision' different
  pinned := by
    rcases upsertBy_hit (fun r : ModelArtifact => r.modelVersionID = c.versionID u ∧
        r.artifactType = "gguf" ∧ r.sha256 = rawSHA256 u.manifest.sha256) id
        ⟨u.ids.artifact, c.versionID u, "gguf", rawSHA256 u.manifest.sha256⟩ c.artifacts
        ModelArtifact.id with ⟨old, -, clash, after, -⟩ | ⟨-, after, -⟩
    · have key := of_decide_eq_true clash
      exact ⟨old, after, key.1, key.2.1⟩
    · exact ⟨_, after, rfl, rfl⟩
  file := by
    intro ma member owner
    rcases mem_upsertBy.mp member with ⟨old, inside, clash, rfl⟩ | ⟨inside, -⟩ | ⟨-, rfl⟩
    · exact (of_decide_eq_true clash).2.2
    · have owned := recorded.artifact ma inside
      rw [owner] at owned
      obtain ⟨w, inside', revision, sha⟩ := recorded.of_versionID accepts owned
      rw [sha]
      exact supersedes.file w inside' revision
    · rfl
  priced := by
    rcases upsertBy_hit (fun r : ModelPrice =>
        r.modelVersionID = c.versionID u ∧ r.priceVersion = "alpha") _ _ c.prices ModelPrice.id
      with ⟨old, -, clash, after, -⟩ | ⟨-, after, -⟩
    · exact ⟨_, after, (of_decide_eq_true clash).1⟩
    · exact ⟨_, after, rfl⟩
  price := by
    intro mp member owner
    rcases mem_upsertBy.mp member with ⟨old, inside, clash, rfl⟩ | ⟨inside, free⟩ | ⟨-, rfl⟩
    · obtain ⟨-, endless, owned⟩ := recorded.price old inside
      rw [(of_decide_eq_true clash).1] at owned
      obtain ⟨w, inside', revision, time⟩ := recorded.of_versionID accepts owned
      have from' : old.effectiveFrom ≤ u.now := by
        rw [← time]
        exact Int.le_of_lt (later w inside' (congrArg Prod.fst revision))
      exact ⟨from', endless, rfl, rfl, rfl⟩
    · -- every price is of the one price version, so this one was updated
      exact absurd ⟨owner, (recorded.price mp inside).1⟩ (of_decide_eq_false free)
    · exact ⟨Int.le_refl _, rfl, rfl, rfl, rfl⟩
  release := releaseID_mem c u
  platform := fun _ inside => platform_upserted inside
  shipped := by
    intro rra member owner
    rcases mem_upsertPlatforms member with ⟨inside, untouched⟩ | ⟨-, shipped⟩
    · have owned := recorded.platform rra inside
      rw [owner] at owned
      obtain ⟨w, inside', build, key⟩ := recorded.of_releaseID accepts owned
      exact absurd ⟨owner, supersedes.platforms w inside' build _ key⟩ untouched
    · exact shipped

end

section

variable (current : Current c u releaseID versionID)
include current

section

variable (recorded : Recorded before c)
include recorded

theorem Current.upsert (accepts : c.Accepts w) (other : w.manifest.modelID ≠ u.manifest.modelID)
    (agree : w.build = u.build → ∀ artifact ∈ w.manifest.releaseArtifacts,
      artifact ∈ u.manifest.releaseArtifacts) : Current (c.upsert w) u releaseID versionID := by
  obtain ⟨mv, member, revision, same, pinned, newest⟩ := current.version
  have unversioned : ∀ mv : ModelVersion, mv.modelID = u.manifest.modelID →
      w.sameVersion mv = false := by
    intro mv' model
    rw [Upsert.not_sameVersion]
    exact fun eq => other ((congrArg Prod.fst eq).symm.trans model)
  have apart : versionID ≠ c.versionID w := by
    rw [← same]
    exact (returning_ne recorded.version_id accepts.2 member
      (unversioned mv (congrArg Prod.fst revision))).symm
  -- every row of the current version and release is kept, and none is added to them
  constructor
  case version =>
    refine ⟨mv, mem_upsertBy.mpr (.inr (.inl ⟨member, unversioned mv (congrArg Prod.fst revision)⟩)),
      revision, same, pinned, ?_⟩
    intro mv' member' model different
    rcases mem_upsertBy.mp member' with ⟨old, -, clash, rfl⟩ | ⟨inside, -⟩ | ⟨-, rfl⟩
    · cases (unversioned old model).symm.trans clash
    · exact newest mv' inside model different
    · exact absurd model other
  case pinned =>
    obtain ⟨ma, inside, owner, gguf⟩ := current.pinned
    exact ⟨ma, mem_upsertBy.mpr (.inr (.inl ⟨inside, decide_eq_false fun key =>
      apart (owner.symm.trans key.1)⟩)), owner, gguf⟩
  case file =>
    intro ma member' owner
    rcases mem_upsertBy.mp member' with ⟨old, inside, -, rfl⟩ | ⟨inside, -⟩ | ⟨-, rfl⟩
    · exact current.file _ inside owner
    · exact current.file _ inside owner
    · exact absurd owner.symm apart
  case priced =>
    obtain ⟨mp, inside, owner⟩ := current.priced
    exact ⟨mp, mem_upsertBy.mpr (.inr (.inl ⟨inside, decide_eq_false fun key =>
      apart (owner.symm.trans key.1)⟩)), owner⟩
  case price =>
    intro mp member' owner
    rcases mem_upsertBy.mp member' with ⟨old, -, clash, rfl⟩ | ⟨inside, -⟩ | ⟨-, rfl⟩
    · exact absurd (owner.symm.trans (of_decide_eq_true clash).1) apart
    · exact current.price mp inside owner
    · exact absurd owner.symm apart
  case release =>
    obtain ⟨r, inside, build⟩ := current.release
    exact ⟨r, release_kept inside, build⟩
  case platform =>
    intro artifact inside
    exact platform_kept (current.platform artifact inside)
  case shipped =>
    intro rra member' owner
    rcases mem_upsertPlatforms member' with ⟨inside, -⟩ | ⟨release, sha, inside, hash⟩
    · exact current.shipped rra inside owner
    · -- the upsert works on the release only if it pins its build
      obtain ⟨r, insideR, build, id'⟩ := current.release
      cases clash : w.sameRelease r with
      | true =>
        exact ⟨sha, agree ((Upsert.sameRelease_iff.mp clash).symm.trans build) _ inside, hash⟩
      | false =>
        have ne := returning_ne recorded.release_id accepts.1 insideR clash
        exact absurd (release.symm.trans (owner.trans id'.symm)) ne

theorem Current.version_eq : ∃ mv ∈ c.versions, mv.revision = u.revision ∧
      mv.id = versionID ∧ mv.runtimeReleaseID = some releaseID ∧
      ∀ other ∈ c.versions, other.modelID = u.manifest.modelID → mv.createdAt ≤ other.createdAt →
        other = mv := by
  obtain ⟨mv, member, revision, same, pinned, newest⟩ := current.version
  refine ⟨mv, member, revision, same, pinned, ?_⟩
  intro other member' model recent
  by_cases revision' : other.revision = u.revision
  · exact recorded.version_revision other member' mv member (revision'.trans revision.symm)
  · exact absurd (newest other member' model revision') (Int.not_lt.mpr recent)

theorem Current.modelHash : c.modelHash u.manifest.modelID =
      some ("sha256:" ++ rawSHA256 u.manifest.sha256, some releaseID) := by
  obtain ⟨mv, member, revision, same, pinned, newest⟩ := current.version_eq recorded
  obtain ⟨ma, inside, owner, gguf⟩ := current.pinned
  have row : (mv, ma) ∈ c.ggufRows u.manifest.modelID :=
    mem_ggufRows.mpr ⟨member, congrArg Prod.fst revision, inside, owner.trans same.symm, gguf⟩
  rw [modelHash_eq]
  cases found : latestBy (fun row => row.1.createdAt) (c.ggufRows u.manifest.modelID) with
  | none =>
    rw [latestBy_eq_none.mp found] at row
    cases row
  | some latest =>
    obtain ⟨mv', ma'⟩ := latest
    obtain ⟨member', model, inside', owner', -⟩ := mem_ggufRows.mp (mem_of_latestBy found)
    cases newest mv' member' model (le_of_latestBy found _ row)
    simp [current.file ma' inside' (owner'.trans same), pinned]

end

theorem Current.runtimeHashes
    (release : ∀ a ∈ u.manifest.releaseArtifacts, ∀ b ∈ u.manifest.releaseArtifacts,
      a.1 = b.1 → a = b) (hash : String) : hash ∈ c.runtimeHashes releaseID ↔
      ∃ artifact ∈ u.manifest.releaseArtifacts, hash = "sha256:" ++ rawSHA256 artifact.2 := by
  simp only [Catalog.runtimeHashes, mem_map, mem_filter, decide_eq_true_eq]
  constructor
  · rintro ⟨rra, ⟨member, owner⟩, rfl⟩
    obtain ⟨sha, inside, same⟩ := current.shipped rra member owner
    exact ⟨_, inside, by rw [same]⟩
  · rintro ⟨artifact, inside, rfl⟩
    obtain ⟨rra, member, owner, platform⟩ := current.platform artifact inside
    obtain ⟨sha, inside', same⟩ := current.shipped rra member owner
    have hit := release _ inside' artifact inside platform
    exact ⟨rra, ⟨member, owner⟩, by rw [same, ← hit]⟩

theorem Current.priceAt (recorded : Recorded before c) {t : Time} (since : u.now ≤ t) :
    ∃ mp, c.priceAt u.manifest.modelID t = some mp ∧
      mp.customerInputPerMillion = u.manifest.customerInputPerMillion ∧
      mp.customerOutputPerMillion = u.manifest.customerOutputPerMillion ∧
      mp.hostCreditPerMillionOutput = u.manifest.hostCreditPerMillionOutput := by
  obtain ⟨mv, member, revision, same, -, newest⟩ := current.version_eq recorded
  obtain ⟨mp, inside, owner⟩ := current.priced
  obtain ⟨start, endless, -⟩ := current.price mp inside owner
  -- the version has a price in force
  have inForce : mp ∈ c.prices.filter fun mp => mp.modelVersionID = mv.id ∧ mp.inForce t := by
    refine mem_filter.mpr ⟨inside, decide_eq_true ⟨owner.trans same.symm, ?_⟩⟩
    simp [ModelPrice.inForce, endless, Int.le_trans start since]
  cases priced : latestBy ModelPrice.effectiveFrom
      (c.prices.filter fun mp => mp.modelVersionID = mv.id ∧ mp.inForce t) with
  | none =>
    rw [latestBy_eq_none.mp priced] at inForce
    cases inForce
  | some latest =>
    have row : (mv, latest) ∈ (c.versions.filter (fun mv =>
        mv.modelID = u.manifest.modelID)).filterMap fun mv =>
          (latestBy ModelPrice.effectiveFrom
            (c.prices.filter fun mp => mp.modelVersionID = mv.id ∧ mp.inForce t)).map
              fun mp => (mv, mp) :=
      mem_filterMap.mpr ⟨mv,
        mem_filter.mpr ⟨member, decide_eq_true (congrArg Prod.fst revision)⟩, by rw [priced]; rfl⟩
    unfold Catalog.priceAt
    cases found : latestBy (fun row : ModelVersion × ModelPrice => row.1.createdAt) _ with
    | none =>
      rw [latestBy_eq_none.mp found] at row
      cases row
    | some chosen =>
      -- no other version with a price is as recent
      obtain ⟨mv', member', priced'⟩ := mem_filterMap.mp (mem_of_latestBy found)
      obtain ⟨mp', price', rfl⟩ := Option.map_eq_some_iff.mp priced'
      obtain ⟨version, model⟩ := mem_filter.mp member'
      have recent := le_of_latestBy found _ row
      cases newest mv' version (of_decide_eq_true model) recent
      obtain ⟨listed, force⟩ := mem_filter.mp (mem_of_latestBy price')
      have price := current.price mp' listed ((of_decide_eq_true force).1.trans same)
      exact ⟨mp', rfl, price.2.2⟩

end

end

/-- The readers see the manifest of an upsert. `ModelHashes` returns its hashes, and an accepted job
is charged at its prices. -/
structure Shows (c : Catalog) (u : Upsert) : Prop where
  hashes : ∃ releaseID, c.modelHash u.manifest.modelID =
      some ("sha256:" ++ rawSHA256 u.manifest.sha256, some releaseID) ∧
    ∀ hash, hash ∈ c.runtimeHashes releaseID ↔
      ∃ artifact ∈ u.manifest.releaseArtifacts, hash = "sha256:" ++ rawSHA256 artifact.2
  prices : ∀ db : Db, db.catalog = c → ∀ jobID attemptID j ja, db.jobs.find? jobID = some j →
    db.attempts.find? attemptID = some ja → ja.jobID = j.id → j.modelID = u.manifest.modelID →
    ∀ t, u.now ≤ t → ∃ price, db.pricing jobID attemptID t =
        some ⟨j.organizationID, ja.nodeID, price⟩ ∧
      price.customerInputPerMillion = u.manifest.customerInputPerMillion ∧
      price.customerOutputPerMillion = u.manifest.customerOutputPerMillion ∧
      price.hostCreditPerMillionOutput = u.manifest.hostCreditPerMillionOutput

theorem Current.shows {releaseID versionID : String} (current : Current c u releaseID versionID)
    (recorded : Recorded history c)
    (release : ∀ a ∈ u.manifest.releaseArtifacts, ∀ b ∈ u.manifest.releaseArtifacts,
      a.1 = b.1 → a = b) : c.Shows u where
  hashes := ⟨releaseID, current.modelHash recorded, current.runtimeHashes release⟩
  prices := by
    rintro db rfl jobID attemptID j ja job attempt owner model t since
    obtain ⟨price, found, same⟩ := current.priceAt recorded since
    refine ⟨price, ?_, same⟩
    simp [Db.pricing, job, attempt, owner, model, found]

theorem current_synced {before after : List Upsert}
    (succeeds : empty.Succeeds (before ++ u :: after)) (ordered : Ordered (before ++ u :: after))
    (last : ∀ w ∈ after, w.manifest.modelID ≠ u.manifest.modelID)
    (agree : ∀ w ∈ after, w.build = u.build → ∀ artifact ∈ w.manifest.releaseArtifacts,
      artifact ∈ u.manifest.releaseArtifacts) (supersedes : Supersedes before u) :
    ∃ releaseID versionID, Current (synced (before ++ u :: after)) u releaseID versionID := by
  induction after using List.reverseRecOn with
  | nil =>
    obtain ⟨succeeds', accepts, -⟩ := succeeds_append.mp succeeds
    obtain ⟨ordered', -, later⟩ := pairwise_append.mp ordered
    rw [synced_concat]
    exact ⟨_, _, (recorded_synced succeeds' ordered').current accepts
      (fun w inside => later w inside u (by simp)) supersedes⟩
  | append_singleton after w ih =>
    rw [← cons_append, ← append_assoc] at succeeds ordered ⊢
    obtain ⟨succeeds', accepts, -⟩ := succeeds_append.mp succeeds
    obtain ⟨ordered', -⟩ := pairwise_append.mp ordered
    obtain ⟨releaseID, versionID, current⟩ := ih succeeds' ordered'
      (fun w' inside => last w' (mem_append_left _ inside))
      (fun w' inside => agree w' (mem_append_left _ inside))
    rw [synced_concat]
    exact ⟨releaseID, versionID, current.upsert (recorded_synced succeeds' ordered') accepts
      (last w (by simp)) (agree w (by simp))⟩

end Catalog

/-- After every history of successful syncs, the readers see the last manifest of a model, if this
one superseded the earlier ones. -/
theorem latest_sync_wins (before after : List Upsert) (u : Upsert)
    (succeeds : empty.Succeeds (before ++ u :: after))
    (ordered : Catalog.Ordered (before ++ u :: after))
    (last : ∀ w ∈ after, w.manifest.modelID ≠ u.manifest.modelID)
    (release : ∀ a ∈ u.manifest.releaseArtifacts, ∀ b ∈ u.manifest.releaseArtifacts,
      a.1 = b.1 → a = b)
    (agree : ∀ w ∈ after, w.build = u.build → ∀ artifact ∈ w.manifest.releaseArtifacts,
      artifact ∈ u.manifest.releaseArtifacts)
    (supersedes : Catalog.Supersedes before u) :
    (synced (before ++ u :: after)).Shows u := by
  obtain ⟨releaseID, versionID, current⟩ :=
    current_synced succeeds ordered last agree supersedes
  exact current.shows (recorded_synced succeeds ordered) release

/-- A second version, and another model of the same build after it. -/
theorem latest_sync_wins_newVersion :
    let first := syncAt 1 "a" (modelManifest "r1" "aa")
    let second := syncAt 2 "b" (modelManifest "r2" "cc")
    let other := syncAt 3 "c" { modelManifest "r1" "dd" with modelID := "other" }
    Catalog.Supersedes [first] second ∧ (synced [first, second, other]).Shows second := by
  have supersedes : Catalog.Supersedes [syncAt 1 "a" (modelManifest "r1" "aa")]
      (syncAt 2 "b" (modelManifest "r2" "cc")) := by
    constructor <;> decide +kernel
  refine ⟨supersedes, latest_sync_wins [_] [_] _ ?_ ?_ ?_ ?_ ?_ supersedes⟩
  · exact ⟨by decide +kernel, by decide +kernel, by decide +kernel, trivial⟩
  · unfold Catalog.Ordered
    decide +kernel
  · decide +kernel
  · decide +kernel
  · decide +kernel

/-- A sync that returns to the first version, with its file and prices. The readers stay with the
second, which was created last. -/
theorem latest_sync_loses :
    let first := syncAt 1 "a" (modelManifest "r1" "aa")
    let second := syncAt 2 "b" { modelManifest "r2" "cc" with customerInputPerMillion := 2 }
    let again := syncAt 3 "c" (modelManifest "r1" "aa")
    let catalog := synced [first, second, again]
    empty.Succeeds [first, second, again] ∧ Catalog.Ordered [first, second, again] ∧
    catalog.modelHash "m" = some ("sha256:cc", some "rt_a") ∧
    (catalog.priceAt "m" 4).map ModelPrice.customerInputPerMillion = some 2 ∧
    ¬catalog.Shows again := by
  refine ⟨⟨by decide +kernel, by decide +kernel, by decide +kernel, trivial⟩, ?_, by decide +kernel,
    by decide +kernel, ?_⟩
  · unfold Catalog.Ordered
    decide +kernel
  · intro shows
    obtain ⟨releaseID, found, -⟩ := shows.hashes
    have other : ((synced [syncAt 1 "a" (modelManifest "r1" "aa"),
        syncAt 2 "b" { modelManifest "r2" "cc" with customerInputPerMillion := 2 },
        syncAt 3 "c" (modelManifest "r1" "aa")]).modelHash "m").map Prod.fst = some "sha256:cc" := by
      decide +kernel
    rw [show (syncAt 3 "c" (modelManifest "r1" "aa")).manifest.modelID = "m" from rfl] at found
    rw [found] at other
    have hash : "sha256:" ++ rawSHA256 "aa" = "sha256:cc" := Option.some.inj other
    exact absurd hash (by decide +kernel)

end Thirdshift
