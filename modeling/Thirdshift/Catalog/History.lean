import Thirdshift.Catalog
import Mathlib.Data.List.Induction

/-!
# Catalog syncs

`SyncCatalog` upserts one manifest after the other, each in a transaction of its own. What the
catalog holds is the result of all the syncs there have been.
-/

namespace Thirdshift

open List

/-- One manifest of a sync, with the identifiers drawn for it and the time of its transaction. -/
structure Upsert where
  manifest : Manifest
  ids : ManifestIDs
  now : Time

namespace Catalog

def upsert (c : Catalog) (u : Upsert) : Catalog := c.upsertManifest u.manifest u.ids u.now

def synced (history : List Upsert) : Catalog := history.foldl upsert empty

@[simp] theorem synced_nil : synced [] = empty := rfl

@[simp] theorem synced_concat (history : List Upsert) (u : Upsert) :
    synced (history ++ [u]) = (synced history).upsert u := by
  simp [synced]

end Catalog

theorem mem_upsertBy {α : Type} {conflicts : α → Bool} {update : α → α} {row r : α} {rows : List α} :
    r ∈ upsertBy conflicts update row rows ↔ (∃ old ∈ rows, conflicts old = true ∧ update old = r) ∨
      (r ∈ rows ∧ conflicts r = false) ∨ ((∀ old ∈ rows, conflicts old = false) ∧ r = row) := by
  unfold upsertBy
  split
  next found =>
    obtain ⟨hit, member, conflict⟩ := any_eq_true.mp found
    constructor
    · intro after
      obtain ⟨old, before, same⟩ := mem_map.mp after
      split at same
      next clash => exact .inl ⟨old, before, clash, same⟩
      next free =>
        subst same
        exact .inr (.inl ⟨before, by simpa using free⟩)
    · rintro (⟨old, before, clash, same⟩ | ⟨before, free⟩ | ⟨none', -⟩)
      · exact mem_map.mpr ⟨old, before, by rw [if_pos clash, same]⟩
      · exact mem_map.mpr ⟨r, before, by simp [free]⟩
      · rw [none' hit member] at conflict
        cases conflict
  next absent =>
    have free : ∀ old ∈ rows, conflicts old = false := by simpa using absent
    rw [mem_append, mem_singleton]
    constructor
    · rintro (before | rfl)
      · exact .inr (.inl ⟨before, free r before⟩)
      · exact .inr (.inr ⟨free, rfl⟩)
    · rintro (⟨old, before, clash, -⟩ | ⟨before, -⟩ | ⟨-, same⟩)
      · rw [free old before] at clash
        cases clash
      · exact .inl before
      · exact .inr same

namespace Catalog

/-- The versions of a model, each with its GGUF artifacts. -/
def ggufRows (c : Catalog) (modelID : ModelID) : List (ModelVersion × ModelArtifact) :=
  (c.versions.filter (fun mv => mv.modelID = modelID)).flatMap fun mv =>
    (c.artifacts.filter (fun ma => ma.modelVersionID = mv.id ∧ ma.artifactType = "gguf")).map
      fun ma => (mv, ma)

section

variable {c : Catalog} {modelID : ModelID}

theorem mem_ggufRows {mv : ModelVersion} {ma : ModelArtifact} :
    (mv, ma) ∈ c.ggufRows modelID ↔ mv ∈ c.versions ∧ mv.modelID = modelID ∧
      ma ∈ c.artifacts ∧ ma.modelVersionID = mv.id ∧ ma.artifactType = "gguf" := by
  simp only [ggufRows, mem_flatMap, mem_filter, decide_eq_true_eq, mem_map,
    Prod.mk.injEq]
  constructor
  · rintro ⟨_, ⟨inside, owner⟩, _, ⟨artifact, row⟩, rfl, rfl⟩
    exact ⟨inside, owner, artifact, row⟩
  · rintro ⟨inside, owner, artifact, row⟩
    exact ⟨mv, ⟨inside, owner⟩, ma, ⟨artifact, row⟩, rfl, rfl⟩

theorem modelHash_eq : c.modelHash modelID =
    (latestBy (fun row => row.1.createdAt) (c.ggufRows modelID)).map
      fun row => ("sha256:" ++ row.2.sha256, row.1.runtimeReleaseID) := rfl

end

end Catalog

def modelManifest (revision sha256 : String) : Manifest :=
  ⟨"m", "active", "", "llama", "b1", [("linux", "bb")], revision, sha256, 4096, 4096, 512, 0,
    ⟨true, false, false, false⟩, 1, 1, 1, 0⟩

/-- A sync of the manifest, which draws identifiers under a tag. -/
def syncAt (now : Time) (tag : String) (m : Manifest) : Upsert :=
  ⟨m, ⟨"rt_" ++ tag, fun platform => "rra_" ++ tag ++ platform, "mv_" ++ tag, "art_" ++ tag,
    "price_" ++ tag⟩, now⟩

end Thirdshift
