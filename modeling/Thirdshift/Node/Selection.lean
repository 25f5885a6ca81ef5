import Mathlib.Data.List.Nodup
import Mathlib.Data.Prod.Lex
import Mathlib.Data.String.Basic

/-!
# Selection of a model

`SelectModel` sorts the manifests by what they require and takes the first that fits. The sort is a
sort by a key of a linear order, so the first manifest that fits is the least one by key, whatever
order the manifests come in, and it can only move forward when a host is given more.
-/

namespace Thirdshift.Models

open List

structure Manifest where
  modelID : String
  status : String
  minVRAMMB : Int
  minRAMMB : Int
  minDiskMB : Int
  deriving DecidableEq

structure HostCapacity where
  vramTotalMB : Int
  ramTotalMB : Int
  diskFreeMB : Int

structure Selection where
  modelID : String
  manifest : Manifest
  reason : String
  vramAssumed : Bool
  deriving DecidableEq

def HostCapacity.vramKnown (host : HostCapacity) : Bool := 0 < host.vramTotalMB

inductive ListingStatus
  | live | waitlist | hidden
  deriving DecidableEq

def Manifest.listingStatus (m : Manifest) : ListingStatus :=
  if m.status = "waitlist" then .waitlist else if m.status = "hidden" then .hidden else .live

def unmeasuredVRAMFloorMB : Int := 8192

/-- The order of `bySizeDescending`. -/
def Manifest.before (a b : Manifest) : Bool :=
  if a.minVRAMMB ≠ b.minVRAMMB then a.minVRAMMB > b.minVRAMMB
  else if a.minRAMMB ≠ b.minRAMMB then a.minRAMMB > b.minRAMMB
  else a.modelID < b.modelID

def bySizeDescending (manifests : List Manifest) : List Manifest :=
  manifests.mergeSort fun a b => !b.before a

def fits (manifest : Manifest) (host : HostCapacity) : Bool :=
  let vram := if host.vramKnown then host.vramTotalMB else unmeasuredVRAMFloorMB
  if manifest.minVRAMMB > vram then false
  else if host.ramTotalMB > 0 ∧ manifest.minRAMMB > host.ramTotalMB then false
  else if host.diskFreeMB > 0 ∧ manifest.minDiskMB > host.diskFreeMB then false
  else true

def select (manifest : Manifest) (host : HostCapacity) : Selection :=
  if host.vramKnown then
    ⟨manifest.modelID, manifest, toString host.vramTotalMB ++ "MB VRAM available, needs " ++
      toString manifest.minVRAMMB ++ "MB", false⟩
  else
    ⟨manifest.modelID, manifest, "VRAM could not be measured, so " ++
      toString unmeasuredVRAMFloorMB ++ "MB was assumed (the platform minimum): needs " ++
      toString manifest.minVRAMMB ++ "MB VRAM and " ++ toString manifest.minRAMMB ++
      "MB RAM. Pass --model explicitly to run a larger model once the real VRAM is known", true⟩

def tooSmall (host : HostCapacity) (smallest : Manifest) : String :=
  if host.vramKnown then
    "no catalog model fits this host: " ++ toString host.vramTotalMB ++ "MB VRAM, " ++
      toString host.ramTotalMB ++ "MB RAM, " ++ toString host.diskFreeMB ++
      "MB free disk; the smallest model " ++ smallest.modelID ++ " needs " ++
      toString smallest.minVRAMMB ++ "MB VRAM, " ++ toString smallest.minRAMMB ++ "MB RAM, " ++
      toString smallest.minDiskMB ++ "MB disk"
  else
    "no catalog model fits this host on RAM and disk alone (VRAM could not be measured): " ++
      toString host.ramTotalMB ++ "MB RAM, " ++ toString host.diskFreeMB ++
      "MB free disk; the smallest model " ++ smallest.modelID ++ " needs " ++
      toString smallest.minRAMMB ++ "MB RAM and " ++ toString smallest.minDiskMB ++ "MB disk"

def candidates (manifests : List Manifest) : List Manifest :=
  bySizeDescending (manifests.filter fun m => m.listingStatus ≠ .hidden)

def selectModel (manifests : List Manifest) (host : HostCapacity) : Except String Selection :=
  match (candidates manifests).getLast? with
  | none => .error "no selectable models in the catalog"
  | some smallest =>
    match (candidates manifests).find? (fits · host) with
    | some manifest => .ok (select manifest host)
    | none => .error (tooSmall host smallest)

/-! ### The order -/

/-- What is compared: the greater requirement comes first, and the smaller id. -/
def Manifest.key (m : Manifest) : Int ×ₗ Int ×ₗ String :=
  toLex (-m.minVRAMMB, toLex (-m.minRAMMB, m.modelID))

theorem Manifest.before_iff (a b : Manifest) : a.before b = true ↔ a.key < b.key := by
  simp only [before, key, Prod.Lex.toLex_lt_toLex]
  split
  · simp only [decide_eq_true_eq]
    omega
  next sameVRAM =>
    rw [not_not] at sameVRAM
    split
    · simp only [decide_eq_true_eq]
      omega
    next sameRAM =>
      rw [not_not] at sameRAM
      simp [sameVRAM, sameRAM]

theorem Manifest.not_before_iff (a b : Manifest) : (!b.before a) = true ↔ a.key ≤ b.key := by
  rw [Bool.not_eq_true', ← Bool.not_eq_true, Manifest.before_iff, not_lt]

theorem pairwise_bySizeDescending (manifests : List Manifest) :
    (bySizeDescending manifests).Pairwise fun a b => a.key ≤ b.key := by
  refine (pairwise_mergeSort ?_ ?_ manifests).imp fun le => (Manifest.not_before_iff _ _).mp le
  · intro a b c
    simp only [Manifest.not_before_iff]
    exact le_trans
  · intro a b
    rw [Bool.or_eq_true, Manifest.not_before_iff, Manifest.not_before_iff]
    exact le_total _ _

variable {manifests : List Manifest} {m : Manifest}

theorem mem_bySizeDescending : m ∈ bySizeDescending manifests ↔ m ∈ manifests :=
  (mergeSort_perm manifests _).mem_iff

theorem eq_of_key (distinct : (manifests.map Manifest.modelID).Nodup)
    {a b : Manifest} (inA : a ∈ manifests) (inB : b ∈ manifests) (same : a.key = b.key) : a = b :=
  inj_on_of_nodup_map distinct inA inB (congrArg (fun k => (ofLex (ofLex k).2).2) same)

theorem bySizeDescending_congr {others : List Manifest} (perm : others.Perm manifests)
    (distinct : (manifests.map Manifest.modelID).Nodup) :
    bySizeDescending others = bySizeDescending manifests := by
  refine List.Perm.eq_of_pairwise ?_
    (pairwise_bySizeDescending others) (pairwise_bySizeDescending manifests)
    (((mergeSort_perm others _).trans perm).trans (mergeSort_perm manifests _).symm)
  intro a b inOthers inManifests le ge
  exact eq_of_key distinct (perm.mem_iff.mp (mem_bySizeDescending.mp inOthers))
    (mem_bySizeDescending.mp inManifests) (le_antisymm le ge)

/-! ### The choice -/

def Manifest.Selectable (host : HostCapacity) (m : Manifest) : Prop :=
  m.listingStatus ≠ .hidden ∧ fits m host = true

/-- A capacity that stays, or is known and grows. -/
def Raised (capacity more : Int) : Prop := more = capacity ∨ 0 < capacity ∧ capacity ≤ more

structure HostCapacity.Raised (host more : HostCapacity) : Prop where
  vram : Models.Raised host.vramTotalMB more.vramTotalMB
  ram : Models.Raised host.ramTotalMB more.ramTotalMB
  disk : Models.Raised host.diskFreeMB more.diskFreeMB

variable {host more : HostCapacity} {s : Selection}

theorem fits_raised (raised : host.Raised more) (fit : fits m host = true) : fits m more = true := by
  obtain ⟨vram, ram, disk⟩ := raised
  simp only [fits, HostCapacity.vramKnown, decide_eq_true_eq, Models.Raised] at *
  split_ifs at * <;> first | rfl | omega

theorem mem_candidates : m ∈ candidates manifests ↔ m ∈ manifests ∧ m.listingStatus ≠ .hidden := by
  simp [candidates, mem_bySizeDescending]

theorem manifest_select : (select m host).manifest = m := by
  unfold select
  split <;> rfl

theorem selectModel_ok (chosen : selectModel manifests host = .ok s) :
    s.manifest ∈ manifests ∧ s.manifest.Selectable host ∧
      ∀ m ∈ manifests, m.Selectable host → s.manifest.key ≤ m.key := by
  unfold selectModel at chosen
  split at chosen
  · cases chosen
  · split at chosen
    next m found =>
      cases chosen
      rw [manifest_select]
      obtain ⟨fit, before, after, cut, unfit⟩ := find?_eq_some_iff_append.mp found
      obtain ⟨member, listed⟩ := mem_candidates.mp (mem_of_find?_eq_some found)
      refine ⟨member, ⟨listed, fit⟩, fun other inside selectable => ?_⟩
      have sorted : (candidates manifests).Pairwise _ := pairwise_bySizeDescending _
      have there := mem_candidates.mpr ⟨inside, selectable.1⟩
      rw [cut] at sorted there
      rcases mem_append.mp there with passed | here
      · -- whatever comes before does not fit
        have misfit := unfit other passed
        rw [selectable.2] at misfit
        cases misfit
      · rcases mem_cons.mp here with rfl | later
        · exact le_rfl
        · exact (pairwise_cons.mp (pairwise_append.mp sorted).2.1).1 other later
    next => cases chosen

theorem selectModel_of_selectable (member : m ∈ manifests) (selectable : m.Selectable host) :
    ∃ s, selectModel manifests host = .ok s := by
  have there := mem_candidates.mpr ⟨member, selectable.1⟩
  unfold selectModel
  split
  next empty =>
    rw [getLast?_eq_none_iff.mp empty] at there
    cases there
  · split
    · exact ⟨_, rfl⟩
    next misfits => exact absurd selectable.2 (find?_eq_none.mp misfits m there)

/-- Over manifests with distinct ids: a model is selected if and only if one may be; it comes before
the others that may be, in whatever order they are listed; a host with more gets no model that comes
after it; and where no VRAM is measured it requires no more than is assumed. -/
theorem selection_optimal (distinct : (manifests.map Manifest.modelID).Nodup) :
    ((∃ s, selectModel manifests host = .ok s) ↔ ∃ m ∈ manifests, m.Selectable host) ∧
    (∀ s, selectModel manifests host = .ok s → s.manifest ∈ manifests ∧ s.manifest.Selectable host ∧
      ∀ m ∈ manifests, m.Selectable host → m ≠ s.manifest → s.manifest.key < m.key) ∧
    (∀ others, others.Perm manifests → selectModel others host = selectModel manifests host) ∧
    (∀ s more, selectModel manifests host = .ok s → host.Raised more →
      ∃ s', selectModel manifests more = .ok s' ∧ s'.manifest.key ≤ s.manifest.key) ∧
    (host.vramKnown = false → ∀ s, selectModel manifests host = .ok s →
      s.manifest.minVRAMMB ≤ unmeasuredVRAMFloorMB) := by
  refine ⟨⟨?_, ?_⟩, ?_, ?_, ?_, ?_⟩
  · rintro ⟨s, chosen⟩
    obtain ⟨member, selectable, -⟩ := selectModel_ok chosen
    exact ⟨s.manifest, member, selectable⟩
  · rintro ⟨m, member, selectable⟩
    exact selectModel_of_selectable member selectable
  · intro s chosen
    obtain ⟨member, selectable, least⟩ := selectModel_ok chosen
    refine ⟨member, selectable, fun m inside may apart => lt_of_le_of_ne (least m inside may) ?_⟩
    exact fun same => apart (eq_of_key distinct inside member same.symm)
  · intro others perm
    unfold selectModel candidates
    rw [bySizeDescending_congr (perm.filter _)
      (distinct.sublist (filter_sublist.map Manifest.modelID))]
  · intro s more chosen raised
    obtain ⟨member, selectable, -⟩ := selectModel_ok chosen
    have may : s.manifest.Selectable more := ⟨selectable.1, fits_raised raised selectable.2⟩
    obtain ⟨s', chosen'⟩ := selectModel_of_selectable member may
    exact ⟨s', chosen', (selectModel_ok chosen').2.2 _ member may⟩
  · intro unknown s chosen
    have fit := (selectModel_ok chosen).2.1.2
    simp only [fits, unknown, Bool.false_eq_true, if_false] at fit
    by_contra big
    simp [not_le.mp big] at fit

theorem selection_optimal_two : ∃ s,
    selectModel [⟨"a", "", 8192, 0, 0⟩, ⟨"b", "", 16384, 0, 0⟩] ⟨24576, 0, 0⟩ = .ok s :=
  (selection_optimal (by decide)).1.mpr ⟨⟨"a", "", 8192, 0, 0⟩, by simp, by decide, by decide⟩

end Thirdshift.Models
