import Thirdshift.Catalog
import Thirdshift.Foundation.Table

/-!
# The model cache

`Ensure` returns a model file that it has verified, and downloads it when it has to. A download is
appended to what an earlier one has left, and nothing that is left is ever thrown away: a file
that cannot be completed stays in the way of every later call. What is evicted is the oldest, and
never the active file.
-/

namespace Thirdshift.ModelCache

open Foundation List Table

abbrev Bytes := List UInt8

/-- What is to be downloaded; `isLocal` says whether its URL is a file. -/
structure Artifact where
  isLocal : Bool
  sha256 : String
  sizeBytes : Int

def Artifact.sha (artifact : Artifact) : String := rawSHA256 artifact.sha256

/-- `<name>.gguf`. -/
structure CachedFile where
  name : String
  data : Bytes
  modTime : Int

/-- The directory: the model files, and the partial ones by hash. -/
structure Dir where
  models : Table CachedFile.name
  partials : String → Option Bytes

inductive Call
  | mkdirAll | openFinal | openSource | copy | stat | openPartial | get | truncate | seek
  | write | verify | rename | chtimes | readDir
  | remove (name : String)

/-- A response; `broken` when its body breaks off with an error. -/
structure Reply where
  status : Nat
  body : Bytes
  broken : Bool

/-- What a call meets: the calls of the system that fail, a local file and whether it can be read to
its end, what the server answers to a request from an offset, and two readings of the clock. -/
structure Env where
  fails : Call → Bool
  source : Bytes × Bool
  serve : Nat → Reply
  writtenAt : Int
  now : Int

def Env.opened (env : Env) (call : Call) (file : Option Bytes) : Option Bytes :=
  if env.fails call then none else file

inductive CacheError
  | dirRequired
  | hashRequired
  | failed (call : Call)
  | http (status : Nat)
  | incomplete (got want : Int)
  | size (got want : Int)
  | sha256 (actual want : String)

structure Cache where
  dir : String
  quotaBytes : Int

variable (digest : Bytes → String)

/-- `verifyExisting`, of a file that may not be there; `digest` is SHA-256 in hexadecimal. -/
def verifyExisting (file : Option Bytes) (expectedSHA256 : String) (expectedSize : Int) :
    Except CacheError Unit :=
  match file with
  | none => .error (.failed .verify)
  | some data =>
    if 0 < expectedSize ∧ data.length ≠ expectedSize then .error (.size data.length expectedSize)
    else if digest data ≠ rawSHA256 expectedSHA256 then
      .error (.sha256 (digest data) expectedSHA256)
    else .ok ()

def received (content : Bytes) (reply : Reply) (expectedSize : Int) :
    Option Bytes × Except CacheError Unit :=
  (some (content ++ reply.body),
    if reply.broken then .error (.failed .write)
    else if 0 < expectedSize ∧ ((content ++ reply.body).length : Int) ≠ expectedSize then
      .error (.incomplete (content ++ reply.body).length expectedSize)
    else .ok ())

def downloadResumable (artifact : Artifact) (env : Env) (dest : Option Bytes) :
    Option Bytes × Except CacheError Unit :=
  if artifact.isLocal then
    if env.fails .openSource then (dest, .error (.failed .openSource))
    else if env.fails .openPartial then (dest, .error (.failed .openPartial))
    else (some env.source.1, if env.source.2 then .error (.failed .copy) else .ok ())
  else
    let content := if env.fails .stat then [] else dest.getD []
    let reply := env.serve content.length
    if env.fails .openPartial then (dest, .error (.failed .openPartial))
    else if env.fails .get then (some content, .error (.failed .get))
    else if content ≠ [] ∧ reply.status = 206 then received content reply artifact.sizeBytes
    else if content ≠ [] ∧ reply.status = 200 then
      if env.fails .truncate then (some content, .error (.failed .truncate))
      else if env.fails .seek then (some [], .error (.failed .seek))
      else received [] reply artifact.sizeBytes
    else if content = [] ∧ reply.status = 200 then received [] reply artifact.sizeBytes
    else (some content, .error (.http reply.status))

namespace Cache

variable (c : Cache)

/-- `Ensure` up to the file at its place. -/
def fetch (artifact : Artifact) (env : Env) (dir : Dir) : Dir × Except CacheError String :=
  let sha := artifact.sha
  if c.dir = "" then (dir, .error .dirRequired)
  else if sha = "" then (dir, .error .hashRequired)
  else if env.fails .mkdirAll then (dir, .error (.failed .mkdirAll))
  else
    let final := env.opened .openFinal ((dir.models.find? sha).map CachedFile.data)
    match verifyExisting digest final sha artifact.sizeBytes with
    | .ok _ => (dir, .ok sha)
    | .error _ =>
      match downloadResumable artifact env (dir.partials sha) with
      | (left, .error e) => (⟨dir.models, Function.update dir.partials sha left⟩, .error e)
      | (left, .ok _) =>
        let partials := Function.update dir.partials sha left
        match verifyExisting digest (env.opened .verify left) sha artifact.sizeBytes with
        | .error e => (⟨dir.models, partials⟩, .error e)
        | .ok _ =>
          if env.fails .rename then (⟨dir.models, partials⟩, .error (.failed .rename))
          else (⟨dir.models.put ⟨sha, left.getD [], env.writtenAt⟩,
            Function.update dir.partials sha none⟩, .ok sha)

/-- `os.Chtimes`, whose error is ignored. -/
def touch (env : Env) (sha : String) (models : Table CachedFile.name) : Table CachedFile.name :=
  match models.find? sha with
  | some file => if env.fails .chtimes then models else models.put { file with modTime := env.now }
  | none => models

def totalSize (files : List CachedFile) : Int := (files.map fun file => (file.data.length : Int)).sum

/-- The loop of `evict`, with the files from the oldest on. -/
def evictFiles (active : String) (env : Env) :
    List CachedFile → Int → Table CachedFile.name → Table CachedFile.name × Except CacheError Unit
  | [], _, models => (models, .ok ())
  | file :: rest, total, models =>
    if total ≤ c.quotaBytes then (models, .ok ())
    else if file.name = active then evictFiles active env rest total models
    else if env.fails (.remove file.name) then (models, .error (.failed (.remove file.name)))
    else evictFiles active env rest (total - file.data.length) (models.erase file.name)

def evict (activeSHA256 : String) (env : Env) (models : Table CachedFile.name) :
    Table CachedFile.name × Except CacheError Unit :=
  if c.quotaBytes ≤ 0 then (models, .ok ())
  else if env.fails .readDir then (models, .error (.failed .readDir))
  else c.evictFiles (rawSHA256 activeSHA256) env
    (models.rows.mergeSort fun a b => a.modTime ≤ b.modTime) (totalSize models.rows) models

def ensure (artifact : Artifact) (activeSHA256 : String) (env : Env) (dir : Dir) :
    Dir × Except CacheError String :=
  match c.fetch digest artifact env dir with
  | (dir, .error e) => (dir, .error e)
  | (dir, .ok sha) =>
    let evicted := c.evict activeSHA256 env (touch env sha dir.models)
    ({ dir with models := evicted.1 }, evicted.2.map fun _ => c.dir ++ "/" ++ sha ++ ".gguf")

end Cache

/-! ### What is served -/

def Artifact.Describes (artifact : Artifact) (data : Bytes) : Prop :=
  digest data = rawSHA256 artifact.sha ∧
    (0 < artifact.sizeBytes → data.length = artifact.sizeBytes)

variable {digest} {c : Cache} {artifact : Artifact} {active : String} {env : Env} {dir dir' : Dir}
  {f : CachedFile} {path : String}

theorem verifyExisting_ok {call : Call} {file : Option Bytes} {u : Unit}
    (verified : verifyExisting digest (env.opened call file) artifact.sha
      artifact.sizeBytes = .ok u) : ∃ data, file = some data ∧ artifact.Describes digest data := by
  unfold verifyExisting Env.opened at verified
  split at verified
  · cases verified
  next data there =>
    split_ifs at there verified with failed size hash
    exact ⟨data, there, not_not.mp hash, by omega⟩

/-- A file that is there after a fetch was there before or is described by the artifact, and what is
fetched is. -/
theorem fetch_spec {result : Except CacheError String}
    (fetched : c.fetch digest artifact env dir = (dir', result)) :
    (∀ f ∈ dir'.models.rows, f ∈ dir.models.rows ∨
      f.name = artifact.sha ∧ artifact.Describes digest f.data) ∧
    ∀ sha, result = .ok sha → sha = artifact.sha ∧
      ∃ f, dir'.models.find? sha = some f ∧ artifact.Describes digest f.data := by
  unfold Cache.fetch at fetched
  dsimp only at fetched
  repeat' split at fetched
  all_goals cases fetched
  all_goals try (refine ⟨fun _ => .inl, ?_⟩; simp; done)
  · next verified =>
    obtain ⟨data, there, describes⟩ := verifyExisting_ok verified
    obtain ⟨f, found, rfl⟩ := Option.map_eq_some_iff.mp there
    refine ⟨fun _ => .inl, ?_⟩
    rintro _ ⟨⟩
    exact ⟨rfl, f, found, describes⟩
  · next verified _ =>
    obtain ⟨data, rfl, describes⟩ := verifyExisting_ok verified
    refine ⟨fun f member => ?_, ?_⟩
    · rcases mem_put.mp member with rfl | ⟨old, -⟩
      · exact .inr ⟨rfl, describes⟩
      · exact .inl old
    · rintro _ ⟨⟩
      exact ⟨rfl, _, find?_put_self .., describes⟩

variable {sha : String} {models after : Table CachedFile.name} {result : Except CacheError Unit}

theorem mem_touch (member : f ∈ (Cache.touch env sha models).rows) :
    ∃ g ∈ models.rows, g.name = f.name ∧ g.data = f.data := by
  unfold Cache.touch at member
  split at member
  next file found =>
    split at member
    · exact ⟨f, member, rfl, rfl⟩
    · rcases mem_put.mp member with rfl | ⟨old, -⟩
      · exact ⟨file, mem_of_find? found, rfl, rfl⟩
      · exact ⟨f, old, rfl, rfl⟩
  · exact ⟨f, member, rfl, rfl⟩

theorem find?_touch (found : models.find? sha = some f) :
    ∃ g, (Cache.touch env sha models).find? sha = some g ∧ g.data = f.data := by
  unfold Cache.touch
  rw [found]
  dsimp only
  split
  · exact ⟨f, found, rfl⟩
  · rw [find?_put, if_pos (key_of_find? found)]
    exact ⟨_, rfl, rfl⟩

/-- The files removed come first among those that may be, and each one when there was too much. -/
theorem evictFiles_spec {files : List CachedFile} {total : Int}
    (evicted : c.evictFiles active env files total models = (after, result)) :
    ∃ removed kept, files.filter (fun f => f.name ≠ active) = removed ++ kept ∧
      after.rows = models.rows.filter (fun f => f.name ∉ removed.map CachedFile.name) ∧
      (∀ n < removed.length, c.quotaBytes < total - Cache.totalSize (removed.take n)) ∧
      (result = .ok () → total - Cache.totalSize removed ≤ c.quotaBytes ∨ kept = []) := by
  induction files generalizing total models with
  | nil =>
    cases evicted
    exact ⟨[], [], by simp⟩
  | cons file rest ih =>
    unfold Cache.evictFiles at evicted
    split_ifs at evicted with within own fails
    · cases evicted
      exact ⟨[], _, rfl, by simp, by simp, fun _ => .inl (by simpa [Cache.totalSize] using within)⟩
    · obtain ⟨removed, kept, split, facts⟩ := ih evicted
      exact ⟨removed, kept, by simpa [own] using split, facts⟩
    · cases evicted
      exact ⟨[], _, rfl, by simp, by simp, fun same => nomatch same⟩
    · obtain ⟨removed, kept, split, rows, big, stops⟩ := ih evicted
      refine ⟨file :: removed, kept, ?_, ?_, ?_, fun ok => ?_⟩
      · rw [filter_cons_of_pos (by simpa using own), split, cons_append]
      · rw [rows, Table.erase, filter_filter]
        refine filter_congr fun f _ => Bool.eq_iff_iff.mpr ?_
        simp only [Bool.and_eq_true, decide_eq_true_eq, map_cons, mem_cons, not_or]
        exact and_comm
      · rintro (_ | n) small
        · simpa [Cache.totalSize] using within
        · have := big n (by simpa using small)
          simp only [take_succ_cons, Cache.totalSize, map_cons, sum_cons] at this ⊢
          omega
      · refine (stops ok).imp_left fun fits => ?_
        simp only [Cache.totalSize, map_cons, sum_cons] at fits ⊢
        omega

/-- What `evict` leaves: without a quota everything; otherwise files are removed from the oldest on,
the active one excepted, as long as there is too much. -/
def Cache.Evicts (c : Cache) (active : String) (before after : List CachedFile) : Prop :=
  ∃ removed kept, (removed ++ kept).Perm (before.filter fun f => f.name ≠ active) ∧
    (removed ++ kept).Pairwise (fun a b => a.modTime ≤ b.modTime) ∧
    after = before.filter (fun f => f.name ∉ removed.map CachedFile.name) ∧
    (c.quotaBytes ≤ 0 → removed = []) ∧
    (∀ n < removed.length, c.quotaBytes < totalSize before - totalSize (removed.take n)) ∧
    (0 < c.quotaBytes → totalSize before - totalSize removed ≤ c.quotaBytes ∨
      ∀ f ∈ after, f.name = active)

theorem evict_spec (evicted : c.evict active env models = (after, result)) :
    (∀ f ∈ after.rows, f ∈ models.rows) ∧
    (result = .ok () → c.Evicts (rawSHA256 active) models.rows after.rows) := by
  unfold Cache.evict at evicted
  have sorted : (models.rows.mergeSort fun a b => a.modTime ≤ b.modTime).Pairwise
      fun a b => a.modTime ≤ b.modTime := by
    refine (pairwise_mergeSort ?_ ?_ models.rows).imp fun le => of_decide_eq_true le
    · simp only [decide_eq_true_eq]
      exact fun _ _ _ => Int.le_trans
    · simp only [Bool.or_eq_true, decide_eq_true_eq]
      exact fun a b => Int.le_total _ _
  have perm := (mergeSort_perm models.rows fun a b => a.modTime ≤ b.modTime).filter
    fun f => f.name ≠ rawSHA256 active
  split_ifs at evicted with unlimited
  · cases evicted
    exact ⟨fun _ => id, fun _ => ⟨[], _, perm, sorted.filter _, by simp, fun _ => rfl, by simp,
      fun positive => absurd unlimited (Int.not_le.mpr positive)⟩⟩
  · cases evicted
    exact ⟨fun _ => id, fun same => nomatch same⟩
  · obtain ⟨removed, kept, split, rows, big, stops⟩ := evictFiles_spec evicted
    rw [rows]
    refine ⟨fun f => mem_of_mem_filter, fun ok => ⟨removed, kept, split ▸ perm,
      split ▸ sorted.filter _, rfl, fun none => absurd none unlimited, big, fun _ => ?_⟩⟩
    refine (stops ok).imp_right ?_
    rintro rfl f member
    rw [append_nil] at split
    by_contra other
    have gone : f ∈ removed := split ▸ perm.mem_iff.mpr (by simp [other, mem_of_mem_filter member])
    exact of_decide_eq_true (mem_filter.mp member).2 (mem_map_of_mem gone)

/-! ### Calls -/

/-- A call of `Ensure`. -/
structure Request where
  artifact : Artifact
  active : String
  env : Env

def Cache.run (c : Cache) (digest : Bytes → String) (dir : Dir) (calls : List Request) : Dir :=
  calls.foldl (fun dir call => (c.ensure digest call.artifact call.active call.env dir).1) dir

theorem ensure_mem (member : f ∈ (c.ensure digest artifact active env dir).1.models.rows) :
    (∃ g ∈ dir.models.rows, g.name = f.name ∧ g.data = f.data) ∨
      f.name = artifact.sha ∧ artifact.Describes digest f.data := by
  unfold Cache.ensure at member
  split at member
  next fetched => exact ((fetch_spec fetched).1 f member).imp_left fun old => ⟨f, old, rfl, rfl⟩
  next fetched =>
    obtain ⟨g, there, name, data⟩ := mem_touch ((evict_spec rfl).1 f member)
    rw [← name, ← data]
    exact ((fetch_spec fetched).1 g there).imp_left fun old => ⟨g, old, rfl, rfl⟩

theorem ensure_ok (ensured : c.ensure digest artifact active env dir = (dir', .ok path)) :
    ∃ found, c.fetch digest artifact env dir = (found, .ok artifact.sha) ∧
      path = c.dir ++ "/" ++ artifact.sha ++ ".gguf" ∧
      (∃ f, found.models.find? artifact.sha = some f ∧ artifact.Describes digest f.data) ∧
      c.Evicts (rawSHA256 active)
        (Cache.touch env artifact.sha found.models).rows dir'.models.rows := by
  unfold Cache.ensure at ensured
  split at ensured
  · cases ensured
  next found sha fetched =>
    obtain ⟨rfl, there⟩ := (fetch_spec fetched).2 _ rfl
    rcases evicted : c.evict active env (Cache.touch env artifact.sha found.models) with
      ⟨after, e | u⟩
    · rw [evicted] at ensured
      cases ensured
    · rw [evicted] at ensured
      cases ensured
      exact ⟨found, fetched, rfl, there, (evict_spec evicted).2 rfl⟩

/-- After any calls a file has the content it had at the start, or that of an artifact with its name;
and what is returned names a file that the call has found to be the artifact. -/
theorem cache_serves_verified (c : Cache) (digest : Bytes → String) (dir : Dir)
    (calls : List Request) : (∀ f ∈ (c.run digest dir calls).models.rows,
      (∃ g ∈ dir.models.rows, g.name = f.name ∧ g.data = f.data) ∨ ∃ call ∈ calls,
        f.name = call.artifact.sha ∧ call.artifact.Describes digest f.data) ∧
    ∀ artifact active env dir dir' path, c.ensure digest artifact active env dir = (dir', .ok path) →
      path = c.dir ++ "/" ++ artifact.sha ++ ".gguf" ∧
      ∃ found f, c.fetch digest artifact env dir = (found, .ok artifact.sha) ∧
        found.models.find? artifact.sha = some f ∧ artifact.Describes digest f.data := by
  refine ⟨?_, fun artifact active env dir dir' path ensured => ?_⟩
  · induction calls generalizing dir with
    | nil => exact fun f member => .inl ⟨f, member, rfl, rfl⟩
    | cons call rest ih =>
      intro f member
      rcases ih _ f member with ⟨g, there, name, data⟩ | ⟨later, inside, facts⟩
      · rw [← name, ← data]
        exact (ensure_mem there).imp_right fun described => ⟨call, mem_cons_self, described⟩
      · exact .inr ⟨later, mem_cons_of_mem _ inside, facts⟩
  · obtain ⟨found, fetched, rfl, ⟨f, there, describes⟩, -⟩ := ensure_ok ensured
    exact ⟨rfl, found, f, fetched, there, describes⟩

/-- An active artifact is still there when its path is returned. -/
theorem eviction_lru (ensured : c.ensure digest artifact active env dir = (dir', .ok path)) :
    ∃ found, c.fetch digest artifact env dir = (found, .ok artifact.sha) ∧
      c.Evicts (rawSHA256 active)
        (Cache.touch env artifact.sha found.models).rows dir'.models.rows ∧
      (rawSHA256 active = artifact.sha → ∃ f, dir'.models.find? artifact.sha = some f ∧
          artifact.Describes digest f.data) := by
  obtain ⟨found, fetched, -, ⟨f, there, describes⟩, evicts⟩ := ensure_ok ensured
  refine ⟨found, fetched, evicts, fun own => ?_⟩
  obtain ⟨removed, kept, perm, -, rows, -⟩ := evicts
  obtain ⟨g, touched, data⟩ := find?_touch there
  have name := key_of_find? touched
  have spared : g.name ∉ removed.map CachedFile.name := by
    intro gone
    obtain ⟨r, inside, same⟩ := mem_map.mp gone
    have other := perm.mem_iff.mp (mem_append_left _ inside)
    simp [same, name, own] at other
  have kept : g ∈ dir'.models.rows := by
    rw [rows]
    exact mem_filter.mpr ⟨mem_of_find? touched, decide_eq_true spared⟩
  exact ⟨g, name ▸ find?_of_mem kept, data ▸ describes⟩

/-! ### Recovery -/

def honest (data : Bytes) (now : Int) : Env where
  fails _ := false
  source := ([], false)
  serve offset :=
    if offset = 0 then ⟨200, data, false⟩
    else if offset < data.length then ⟨206, data.drop offset, false⟩
    else ⟨416, [], false⟩
  writtenAt := now
  now := now

/-- The call after `n` others. -/
def Cache.retried (c : Cache) (digest : Bytes → String) (artifact : Artifact) (active : String)
    (data : Bytes) (clock : Nat → Int) (dir : Dir) : Nat → Dir × Except CacheError String
  | 0 => c.ensure digest artifact active (honest data (clock 0)) dir
  | n + 1 => c.ensure digest artifact active (honest data (clock (n + 1)))
      (c.retried digest artifact active data clock dir n).1

abbrev Dir.left (dir : Dir) (sha : String) : Bytes := (dir.partials sha).getD []

def Dir.completed (dir : Dir) (sha : String) (data : Bytes) : Bytes :=
  dir.left sha ++ data.drop (dir.left sha).length

abbrev Dir.Short (dir : Dir) (sha : String) (data : Bytes) : Prop :=
  dir.left sha = [] ∨ (dir.left sha).length < data.length

/-- The artifact is there, or a download of the rest completes it. -/
def Recoverable (digest : Bytes → String) (artifact : Artifact) (data : Bytes) (dir : Dir) : Prop :=
  (∃ f, dir.models.find? artifact.sha = some f ∧ artifact.Describes digest f.data) ∨
    dir.Short artifact.sha data ∧ digest (dir.completed artifact.sha data) = digest data

variable {data : Bytes} {now : Int} {clock : Nat → Int}

theorem evict_honest : (c.evict active (honest data now) models).2 = .ok () := by
  have loop : ∀ files total models,
      (c.evictFiles (rawSHA256 active) (honest data now) files total models).2 = .ok () := by
    intro files
    induction files with
    | nil => exact fun _ _ => rfl
    | cons file rest ih =>
      intro total models
      rw [Cache.evictFiles, if_neg (show ¬(honest data now).fails (.remove file.name) = true by simp [honest])]
      split_ifs
      exacts [rfl, ih _ _, ih _ _]
  rw [Cache.evict, if_neg (show ¬(honest data now).fails .readDir = true by simp [honest])]
  split_ifs
  exacts [rfl, loop _ _ _]

section

variable (set : c.dir ≠ "") (hashed : artifact.sha ≠ "") (remote : artifact.isLocal = false)
  (describes : artifact.Describes digest data)

include remote describes in
theorem download_honest : downloadResumable artifact (honest data now) (dir.partials artifact.sha) =
    if dir.Short artifact.sha data then (some (dir.completed artifact.sha data), .ok ())
    else (some (dir.left artifact.sha), .error (.http 416)) := by
  have size := describes.2
  delta Dir.completed Dir.Short Dir.left
  simp only [downloadResumable, remote, honest, received]
  generalize (dir.partials artifact.sha).getD [] = left
  cases left with
  | nil =>
    simp
    omega
  | cons b left =>
    by_cases short : left.length + 1 < data.length
    · simp [short]
      omega
    · simp [short]

theorem length_completed {sha : String} (short : dir.Short sha data) :
    (dir.completed sha data).length = data.length := by
  unfold Dir.completed
  rcases short with none | short
  · simp [none]
  · simp only [length_append, length_drop]
    omega

theorem verifyExisting_honest {call : Call} {file : Bytes}
    (described : artifact.Describes digest file) : verifyExisting digest
      ((honest data now).opened call (some file)) artifact.sha artifact.sizeBytes = .ok () := by
  obtain ⟨hash, size⟩ := described
  simp only [verifyExisting, Env.opened, honest, hash, Bool.false_eq_true, if_false, ne_eq,
    not_true_eq_false, ite_eq_right_iff, reduceCtorEq, imp_false]
  omega

include set hashed remote describes

theorem ensure_honest (recoverable : Recoverable digest artifact data dir) :
    ∃ path, (c.ensure digest artifact active (honest data now) dir).2 = .ok path := by
  have fetched : ∃ found, c.fetch digest artifact (honest data now) dir = (found, .ok artifact.sha) := by
    unfold Cache.fetch
    dsimp only
    rw [if_neg set, if_neg hashed, if_neg (by simp [honest])]
    rcases recoverable with ⟨f, found, described⟩ | ⟨short, same⟩
    · rw [found, Option.map_some, verifyExisting_honest described]
      exact ⟨dir, rfl⟩
    · split
      · exact ⟨dir, rfl⟩
      · have described : artifact.Describes digest (dir.completed artifact.sha data) :=
          ⟨same.trans describes.1, fun given => length_completed short ▸ describes.2 given⟩
        rw [download_honest remote describes, if_pos short]
        dsimp only
        rw [verifyExisting_honest described]
        exact ⟨_, if_neg (by simp [honest])⟩
  obtain ⟨found, fetched⟩ := fetched
  simp only [Cache.ensure, fetched, evict_honest]
  exact ⟨_, rfl⟩

theorem ensure_stuck (stuck : ¬Recoverable digest artifact data dir) :
    (∃ e, (c.ensure digest artifact active (honest data now) dir).2 = .error e) ∧
      ¬Recoverable digest artifact data (c.ensure digest artifact active (honest data now) dir).1 := by
  have fetched : ∃ left e, c.fetch digest artifact (honest data now) dir =
      (⟨dir.models, Function.update dir.partials artifact.sha (some left)⟩, .error e) ∧
      left ≠ [] ∧ data.length ≤ left.length := by
    unfold Cache.fetch
    dsimp only
    rw [if_neg set, if_neg hashed, if_neg (by simp [honest])]
    split
    next verified =>
      obtain ⟨_, there, described⟩ := verifyExisting_ok verified
      obtain ⟨f, found, rfl⟩ := Option.map_eq_some_iff.mp there
      exact absurd (.inl ⟨f, found, described⟩) stuck
    · rw [download_honest remote describes]
      by_cases short : dir.Short artifact.sha data
      · rw [if_pos short]
        dsimp only
        have length := length_completed short
        split
        next e _ =>
          refine ⟨_, e, rfl, fun none => stuck (.inr ⟨short, ?_⟩), length.ge⟩
          rw [none, length_nil] at length
          rw [none, length_eq_zero_iff.mp length.symm]
        next verified =>
          obtain ⟨_, ⟨⟩, described⟩ := verifyExisting_ok verified
          exact absurd (.inr ⟨short, described.1.trans describes.1.symm⟩) stuck
      · rw [if_neg short]
        rw [not_or, Nat.not_lt] at short
        exact ⟨_, _, rfl, short⟩
  obtain ⟨left, e, fetched, some, long⟩ := fetched
  simp only [Cache.ensure, fetched]
  refine ⟨⟨e, rfl⟩, ?_⟩
  rintro (there | ⟨short, -⟩)
  · exact stuck (.inl there)
  · simp only [Dir.Short, Dir.left, Function.update_self, Option.getD_some] at short
    exact short.elim some (Nat.not_lt.mpr long)

theorem retried_stuck (stuck : ¬Recoverable digest artifact data dir) (n : Nat) :
    (∃ e, (c.retried digest artifact active data clock dir n).2 = .error e) ∧
      ¬Recoverable digest artifact data (c.retried digest artifact active data clock dir n).1 := by
  induction n with
  | zero => exact ensure_stuck set hashed remote describes stuck
  | succ n ih => exact ensure_stuck set hashed remote describes ih.2

end

/-- Against a server that has the artifact, some number of calls ends with a success if and only if
what is left of earlier downloads can be completed to the artifact. -/
theorem download_recovers_iff (set : c.dir ≠ "") (hashed : artifact.sha ≠ "")
    (remote : artifact.isLocal = false) (describes : artifact.Describes digest data) :
    (∃ n path, (c.retried digest artifact active data clock dir n).2 = .ok path) ↔
      Recoverable digest artifact data dir := by
  refine ⟨?_, fun recoverable => ⟨0, ensure_honest set hashed remote describes recoverable⟩⟩
  rintro ⟨n, path, ensured⟩
  by_contra stuck
  obtain ⟨⟨e, failed⟩, -⟩ := retried_stuck set hashed remote describes stuck n
  rw [failed] at ensured
  cases ensured

def small : Artifact := ⟨false, "ab", 2⟩

def hash (data : Bytes) : String := if data = [1, 2] then "ab" else "cd"

theorem small_describes : small.Describes hash [1, 2] := ⟨by decide +kernel, by decide⟩

theorem download_recovers_iff_rest : ∃ n path, (Cache.retried ⟨"/models", 0⟩ hash small "" [1, 2]
    (fun _ => 0) ⟨.empty, fun _ => some [1]⟩ n).2 = .ok path := by
  refine (download_recovers_iff ?_ ?_ rfl small_describes).mpr (.inr ⟨.inr ?_, ?_⟩)
  all_goals decide +kernel

/-- A download that is complete but was not renamed is in the way for ever. -/
theorem complete_partial_stuck : ¬∃ n path, (Cache.retried ⟨"/models", 0⟩ hash small "" [1, 2]
    (fun _ => 0) ⟨.empty, fun _ => some [1, 2]⟩ n).2 = .ok path := by
  rintro ⟨n, path, ensured⟩
  have stuck : ¬Recoverable hash small [1, 2] ⟨.empty, fun _ => some [1, 2]⟩ := by
    rintro (⟨f, found, -⟩ | ⟨short, -⟩)
    · cases found
    · simp [Dir.Short, Dir.left] at short
  obtain ⟨⟨e, failed⟩, -⟩ := retried_stuck (c := ⟨"/models", 0⟩) (by decide) (by decide +kernel) rfl
    small_describes stuck n
  rw [failed] at ensured
  cases ensured

def twoFiles : Dir := ⟨(Table.empty.put ⟨"x", [3], 0⟩).put ⟨"ab", [1, 2], 1⟩, fun _ => none⟩

def ensured (quotaBytes : Int) : Dir × Except CacheError String :=
  Cache.ensure hash ⟨"/models", quotaBytes⟩ small "ab" (honest [] 5) twoFiles

theorem fetch_twoFiles (quotaBytes : Int) :
    Cache.fetch hash ⟨"/models", quotaBytes⟩ small (honest [] 5) twoFiles = (twoFiles, .ok "ab") := rfl

theorem ensured_ok (quotaBytes : Int) : ∃ dir' path, ensured quotaBytes = (dir', .ok path) := by
  simp only [ensured, Cache.ensure, fetch_twoFiles, evict_honest]
  exact ⟨_, _, rfl⟩

/-- With a quota of two bytes the older of two files is removed. -/
theorem eviction_lru_two : ∃ dir' path, ensured 2 = (dir', .ok path) ∧
    dir'.models.rows.map CachedFile.name = ["ab"] ∧
    ∃ f, dir'.models.find? small.sha = some f ∧ small.Describes hash f.data := by
  obtain ⟨dir', path, result⟩ := ensured_ok 2
  obtain ⟨found, fetched, ⟨removed, kept, perm, -, rows, -, -, stops⟩, served⟩ := eviction_lru result
  obtain rfl : twoFiles = found := congrArg Prod.fst ((fetch_twoFiles 2).symm.trans fetched)
  refine ⟨dir', path, result, ?_, served rfl⟩
  have others : removed ++ kept = [⟨"x", [3], 0⟩] := perm_singleton.mp perm
  cases removed with
  | nil =>
    -- then three bytes are left
    rcases stops (by decide) with few | active
    · exact absurd few (by decide +kernel)
    · rw [rows] at active
      exact absurd (active ⟨"x", [3], 0⟩ (mem_of_getElem? (i := 0) rfl)) (by decide)
  | cons file removed =>
    obtain ⟨rfl, none⟩ := cons.inj others
    rw [rows, append_eq_nil_iff.mp none |>.1]
    decide +kernel

/-- Without a quota nothing is removed: there is more than the quota of zero, and not only the active
file. -/
theorem unlimited_keeps : ∃ dir' path, ensured 0 = (dir', .ok path) ∧
    ¬(Cache.totalSize dir'.models.rows ≤ 0 ∨ ∀ f ∈ dir'.models.rows, f.name = "ab") := by
  obtain ⟨dir', path, result⟩ := ensured_ok 0
  refine ⟨dir', path, result, ?_⟩
  rw [show dir' = (ensured 0).1 by rw [result]]
  decide +kernel

end Thirdshift.ModelCache
