import Mathlib.Data.List.Induction
import Thirdshift.Foundation.Table

/-!
# Transactions as programs of statements

A statement reads the database and lists the rows it writes. A transaction is a program of
statements: it runs them one after the other, sees its own writes, and leaves no trace when it
fails. `Tx.exec` is the meaning of a transaction that nothing else interferes with; the same
programs run statement by statement in `Foundation.ReadCommitted`.
-/

namespace Foundation

open List Option

inductive Write (Row : Type)
  | insert (row : Row)
  | update (row : Row)

def Write.row {Row : Type} : Write Row → Row
  | .insert row => row
  | .update row => row

@[simp] theorem Write.row_insert {Row : Type} (row : Row) : (Write.insert row).row = row := rfl

@[simp] theorem Write.row_update {Row : Type} (row : Row) : (Write.update row).row = row := rfl

/-- A database of keyed rows with its unique indexes, its checks, and the constraint triggers that
are deferred to commit. `index row` lists the entries `row` occupies in the unique indexes. -/
structure Schema (Db Row Key Index Err : Type) where
  key : Row → Key
  get : Db → Key → Option Row
  put : Db → Row → Db
  index : Row → List Index
  clashes : Db → Row → Bool
  valid : Db → Row → Bool
  deferred : Db → Bool
  violation : Err
  get_put_self : ∀ db row, get (put db row) (key row) = some row
  get_put_other : ∀ {db row k}, key row ≠ k → get (put db row) k = get db k
  key_of_get : ∀ {db k row}, get db k = some row → key row = k
  clashes_of_shared : ∀ {db row k other ix}, get db k = some other → k ≠ key row →
    ix ∈ index row → ix ∈ index other → clashes db row = true

inductive Tx (Db Row Err α : Type) : Type
  | done (a : α)
  | fail (e : Err)
  | stmt (s : Db → Except Err (List (Write Row))) (k : Db → Tx Db Row Err α)

variable {Db Row Key Index Err α β : Type}

namespace Tx

def bind : Tx Db Row Err α → (α → Tx Db Row Err β) → Tx Db Row Err β
  | .done a, f => f a
  | .fail e, _ => .fail e
  | .stmt s k, f => .stmt s (fun db => bind (k db) f)

instance : Monad (Tx Db Row Err) where
  pure := .done
  bind := bind

@[simp] theorem pure_eq (a : α) : (pure a : Tx Db Row Err α) = .done a := rfl

@[simp] theorem done_bind (a : α) (f : α → Tx Db Row Err β) :
    (.done a : Tx Db Row Err α) >>= f = f a := rfl

@[simp] theorem fail_bind (e : Err) (f : α → Tx Db Row Err β) :
    (.fail e : Tx Db Row Err α) >>= f = .fail e := rfl

@[simp] theorem stmt_bind (s : Db → Except Err (List (Write Row))) (k : Db → Tx Db Row Err α)
    (f : α → Tx Db Row Err β) :
    (.stmt s k : Tx Db Row Err α) >>= f = .stmt s (fun db => k db >>= f) := rfl

/-- A `SELECT`: its result is computed from what the transaction sees. -/
def select (q : Db → α) : Tx Db Row Err α := .stmt (fun _ => .ok []) (fun db => .done (q db))

/-- A statement that writes the rows `ws` and reports `r`, both computed from what it sees. -/
def write (ws : Db → List (Write Row)) (r : Db → α) : Tx Db Row Err α :=
  .stmt (fun db => .ok (ws db)) (fun db => .done (r db))

end Tx

namespace Schema

variable (σ : Schema Db Row Key Index Err)

def admits (db : Db) : Write Row → Bool
  | .insert row => (σ.get db (σ.key row)).isNone && !σ.clashes db row && σ.valid db row
  | .update row => !σ.clashes db row && σ.valid db row

/-- Writes the rows in order; `none` when a constraint is violated. -/
def applyWrites : Db → List (Write Row) → Option Db
  | db, [] => some db
  | db, w :: ws => if σ.admits db w then applyWrites (σ.put db w.row) ws else none

def overlay (db : Db) (ws : List (Write Row)) : Db := ws.foldl (fun db w => σ.put db w.row) db

@[simp] theorem overlay_nil (db : Db) : σ.overlay db [] = db := rfl

theorem overlay_append (db : Db) (ws new : List (Write Row)) :
    σ.overlay db (ws ++ new) = σ.overlay (σ.overlay db ws) new := by
  simp [overlay]

variable {db : Db} {ws : List (Write Row)} {k : Key} {row : Row}

theorem overlay_of_applyWrites {db' : Db} (applied : σ.applyWrites db ws = some db') :
    db' = σ.overlay db ws := by
  induction ws generalizing db with
  | nil =>
    simp only [applyWrites, Option.some.injEq] at applied
    exact applied.symm
  | cons w ws ih =>
    simp only [applyWrites] at applied
    split at applied
    · exact ih applied
    · cases applied

variable [DecidableEq Key]

def written (ws : List (Write Row)) (k : Key) : Option Row :=
  (ws.reverse.find? (fun w => σ.key w.row = k)).map Write.row

theorem get_overlay (db : Db) (ws : List (Write Row)) (k : Key) :
    σ.get (σ.overlay db ws) k = (σ.written ws k).or (σ.get db k) := by
  induction ws using List.reverseRecOn with
  | nil => simp [written]
  | append_singleton ws w ih =>
    rw [overlay_append]
    change σ.get (σ.put (σ.overlay db ws) w.row) k = _
    by_cases hit : σ.key w.row = k
    · subst hit
      simp [written, σ.get_put_self]
    · rw [σ.get_put_other hit, ih]
      simp [written, hit]

theorem key_of_written (found : σ.written ws k = some row) : σ.key row = k := by
  obtain ⟨w, last, rfl⟩ := map_eq_some_iff.mp found
  simpa using find?_some last

theorem written_mem (found : σ.written ws k = some row) : ∃ w ∈ ws, w.row = row := by
  obtain ⟨w, last, eq⟩ := map_eq_some_iff.mp found
  exact ⟨w, mem_reverse.mp (mem_of_find?_eq_some last), eq⟩

@[simp] theorem written_nil (k : Key) : σ.written [] k = none := rfl

@[simp] theorem written_append (ws new : List (Write Row)) (k : Key) :
    σ.written (ws ++ new) k = (σ.written new k).or (σ.written ws k) := by
  simp only [written, reverse_append, find?_append]
  cases new.reverse.find? (fun w => σ.key w.row = k) <;> simp

theorem written_singleton (w : Write Row) (k : Key) :
    σ.written [w] k = if σ.key w.row = k then some w.row else none := by
  by_cases here : σ.key w.row = k <;> simp [written, here]

@[simp] theorem written_cons (w : Write Row) (ws : List (Write Row)) (k : Key) :
    σ.written (w :: ws) k = (σ.written ws k).or (if σ.key w.row = k then some w.row else none) := by
  rw [← singleton_append, written_append, written_singleton]

theorem written_eq_none : σ.written ws k = none ↔ ∀ w ∈ ws, σ.key w.row ≠ k := by
  simp [written]

theorem get_overlay_other (apart : ∀ w ∈ ws, σ.key w.row ≠ k) :
    σ.get (σ.overlay db ws) k = σ.get db k := by
  rw [σ.get_overlay, σ.written_eq_none.mpr apart, none_or]

/-! ### Unique indexes -/

/-- No two rows share an entry of a unique index. -/
def Unique (db : Db) : Prop :=
  ∀ {k l : Key} {r q : Row} {ix : Index}, σ.get db k = some r → σ.get db l = some q →
    ix ∈ σ.index r → ix ∈ σ.index q → k = l

omit [DecidableEq Key] in
theorem Unique.row_eq {l : Key} {r q : Row} {ix : Index} (unique : σ.Unique db)
    (first : σ.get db k = some r) (second : σ.get db l = some q) (inFirst : ix ∈ σ.index r)
    (inSecond : ix ∈ σ.index q) : r = q := by
  rw [unique first second inFirst inSecond] at first
  exact Option.some.inj (first.symm.trans second)

theorem unique_put (unique : σ.Unique db) (free : σ.clashes db row = false) :
    σ.Unique (σ.put db row) := by
  have alone : ∀ {k : Key} {q : Row} {ix : Index}, σ.get (σ.put db row) k = some q →
      ix ∈ σ.index q → ix ∈ σ.index row → k = σ.key row := by
    intro k q ix found entry shared
    by_contra other
    rw [σ.get_put_other (Ne.symm other)] at found
    rw [σ.clashes_of_shared found other shared entry] at free
    cases free
  intro k l r q ix foundK foundL inR inQ
  by_cases atK : k = σ.key row
  · subst atK
    rw [σ.get_put_self, Option.some.injEq] at foundK
    subst foundK
    exact (alone foundL inQ inR).symm
  · by_cases atL : l = σ.key row
    · subst atL
      rw [σ.get_put_self, Option.some.injEq] at foundL
      subst foundL
      exact alone foundK inR inQ
    · rw [σ.get_put_other (Ne.symm atK)] at foundK
      rw [σ.get_put_other (Ne.symm atL)] at foundL
      exact unique foundK foundL inR inQ

omit [DecidableEq Key] in
theorem clash_free {w : Write Row} (admitted : σ.admits db w = true) :
    σ.clashes db w.row = false := by
  cases w <;> simp only [admits, Bool.and_eq_true, Bool.not_eq_true'] at admitted
  · exact admitted.1.2
  · exact admitted.1

theorem unique_applyWrites {seen : Db} {new : List (Write Row)} (unique : σ.Unique db)
    (admitted : σ.applyWrites db new = some seen) : σ.Unique seen := by
  induction new generalizing db with
  | nil =>
    simp only [applyWrites, Option.some.injEq] at admitted
    exact admitted ▸ unique
  | cons w new ih =>
    simp only [applyWrites] at admitted
    split at admitted
    next ok => exact ih (σ.unique_put unique (σ.clash_free ok)) admitted
    · cases admitted

theorem fresh_of_applyWrites {seen : Db} {new : List (Write Row)}
    (admitted : σ.applyWrites (σ.overlay db ws) new = some seen) (member : .insert row ∈ new) :
    σ.get db (σ.key row) = none := by
  induction new generalizing ws with
  | nil => cases member
  | cons w new ih =>
    simp only [applyWrites] at admitted
    split at admitted
    next ok =>
      rcases mem_cons.mp member with rfl | later
      · simp only [admits, Bool.and_eq_true, isNone_iff_eq_none] at ok
        have absent := ok.1.1
        rw [σ.get_overlay, or_eq_none_iff] at absent
        exact absent.2
      · have next : σ.put (σ.overlay db ws) w.row = σ.overlay db (ws ++ [w]) := by
          simp [overlay]
        exact ih (next ▸ admitted) later
    · cases admitted

end Schema

namespace Tx

variable (σ : Schema Db Row Key Index Err)

/-- The statements run without interference, each against what the ones before it left. -/
def exec : Tx Db Row Err α → Db → Except Err (α × Db)
  | .done a, db => .ok (a, db)
  | .fail e, _ => .error e
  | .stmt s k, db =>
    match s db with
    | .error e => .error e
    | .ok ws =>
      match σ.applyWrites db ws with
      | some db' => exec (k db) db'
      | none => .error σ.violation

/-- The whole transaction: committed when the deferred constraints hold, without effect otherwise. -/
def run (t : Tx Db Row Err α) (db : Db) : Except Err (α × Db) :=
  match exec σ t db with
  | .ok (a, db') => if σ.deferred db' then .ok (a, db') else .error σ.violation
  | .error e => .error e

variable {σ}

theorem exec_bind (t : Tx Db Row Err α) (f : α → Tx Db Row Err β) (db : Db) :
    exec σ (t >>= f) db =
      match exec σ t db with
      | .ok (a, db') => exec σ (f a) db'
      | .error e => .error e := by
  induction t generalizing db with
  | done a => rfl
  | fail e => rfl
  | stmt s k ih =>
    simp only [stmt_bind, exec]
    cases s db with
    | error e => rfl
    | ok ws =>
      dsimp only
      cases σ.applyWrites db ws with
      | none => rfl
      | some db' => exact ih db db'

variable {db db' : Db} {f : α → Tx Db Row Err β} {t : Tx Db Row Err α} {a : α} {P : Row → Prop}
  {Q : List (Write Row) → α → Prop} {ws : List (Write Row)} {C : Key → Prop}

/-- A transaction that goes through, step by step: the first part went through, and then the rest
did from where it left the database. -/
theorem exec_bind_ok {b : β} (ok : exec σ (t >>= f) db = .ok (b, db')) :
    ∃ a mid, exec σ t db = .ok (a, mid) ∧ exec σ (f a) mid = .ok (b, db') := by
  rw [exec_bind] at ok
  split at ok
  next a mid first => exact ⟨a, mid, first, ok⟩
  · cases ok

theorem exec_done_ok {b : α} (ok : exec σ (.done a : Tx Db Row Err α) db = .ok (b, db')) :
    b = a ∧ db' = db := by
  simp only [exec, Except.ok.injEq, Prod.mk.injEq] at ok
  exact ⟨ok.1.symm, ok.2.symm⟩

theorem exec_select_ok {q : Db → α} (ok : exec σ (select q : Tx Db Row Err α) db = .ok (a, db')) :
    a = q db ∧ db' = db := by
  simp only [select, exec, Schema.applyWrites, Except.ok.injEq, Prod.mk.injEq] at ok
  exact ⟨ok.1.symm, ok.2.symm⟩

theorem exec_write_ok {ws : Db → List (Write Row)} {r : Db → α}
    (ok : exec σ (write ws r : Tx Db Row Err α) db = .ok (a, db')) :
    a = r db ∧ σ.applyWrites db (ws db) = some db' ∧ db' = σ.overlay db (ws db) := by
  simp only [write, exec] at ok
  split at ok
  next mid applied =>
    simp only [Except.ok.injEq, Prod.mk.injEq] at ok
    obtain ⟨rfl, rfl⟩ := ok
    exact ⟨rfl, applied, σ.overlay_of_applyWrites applied⟩
  · cases ok

theorem run_ok (ok : run σ t db = .ok (a, db')) :
    exec σ t db = .ok (a, db') ∧ σ.deferred db' = true := by
  simp only [run] at ok
  split at ok
  next b mid through =>
    split at ok
    next balanced =>
      simp only [Except.ok.injEq, Prod.mk.injEq] at ok
      obtain ⟨rfl, rfl⟩ := ok
      exact ⟨through, balanced⟩
    · cases ok
  · cases ok

/-- Every row that a statement of `t` can write satisfies `P`. -/
def Writes (P : Row → Prop) : Tx Db Row Err α → Prop
  | .done _ => True
  | .fail _ => True
  | .stmt s k => ∀ db, (∀ ws, s db = .ok ws → ∀ w ∈ ws, P w.row) ∧ Writes P (k db)

theorem Writes.bind (first : Writes P t) (rest : ∀ a, Writes P (f a)) : Writes P (t >>= f) := by
  induction t with
  | done a => exact rest a
  | fail e => trivial
  | stmt s k ih => exact fun db => ⟨(first db).1, ih db (first db).2⟩

theorem Writes.mono {Q : Row → Prop} (writes : Writes P t) (weaker : ∀ row, P row → Q row) :
    Writes Q t := by
  induction t with
  | done a => trivial
  | fail e => trivial
  | stmt s k ih =>
    exact fun db =>
      ⟨fun ws eq w member => weaker _ ((writes db).1 ws eq w member), ih db (writes db).2⟩

theorem writes_select {q : Db → α} : Writes P (select q : Tx Db Row Err α) := by
  intro db
  refine ⟨fun ws eq w member => ?_, trivial⟩
  cases eq
  cases member

theorem writes_write {ws : Db → List (Write Row)} {r : Db → α} (all : ∀ db, ∀ w ∈ ws db, P w.row) :
    Writes P (write ws r : Tx Db Row Err α) := by
  intro db
  refine ⟨fun new eq w member => ?_, trivial⟩
  cases eq
  exact all db w member

/-- What no row satisfying `P` changes is the same after a transaction that writes only such. -/
theorem Writes.frame {γ : Type} {g : Db → γ} (writes : Writes P t)
    (keep : ∀ db row, P row → g (σ.put db row) = g db) (ok : exec σ t db = .ok (a, db')) :
    g db' = g db := by
  have applied : ∀ (ws : List (Write Row)) (db db' : Db), (∀ w ∈ ws, P w.row) →
      σ.applyWrites db ws = some db' → g db' = g db := by
    intro ws
    induction ws with
    | nil =>
      intro db db' _ eq
      simp only [Schema.applyWrites, Option.some.injEq] at eq
      rw [eq]
    | cons w ws ih =>
      intro db db' all eq
      simp only [Schema.applyWrites] at eq
      split at eq
      · rw [ih _ _ (fun v member => all v (mem_cons_of_mem _ member)) eq]
        exact keep db w.row (all w mem_cons_self)
      · cases eq
  induction t generalizing db with
  | done a => rw [(exec_done_ok ok).2]
  | fail e => cases ok
  | stmt s k ih =>
    simp only [exec] at ok
    split at ok
    · cases ok
    next ws eq =>
      split at ok
      next mid through =>
        rw [ih db (writes db).2 ok]
        exact applied ws db mid ((writes db).1 ws eq) through
      · cases ok

/-- Whenever `t` goes through, each row of `table` has become `f` of it and no row is added. -/
def Maps {ρ κ : Type} [DecidableEq κ] {key : ρ → κ} (σ : Schema Db Row Key Index Err)
    (table : Db → Table key) (f : ρ → ρ) (t : Tx Db Row Err α) : Prop :=
  ∀ (db db' : Db) (a : α), exec σ t db = .ok (a, db') →
    ∀ k, (table db').find? k = ((table db).find? k).map f

section

variable {ρ κ : Type} [DecidableEq κ] {key : ρ → κ} {table : Db → Table key} {f : ρ → ρ}
  {t : Tx Db Row Err α} {k : α → Tx Db Row Err β}

theorem maps_fail {e : Err} : Maps σ table f (.fail e : Tx Db Row Err α) := by
  intro db db' a ok
  cases ok

theorem maps_id_of_frame
    (frame : ∀ {db db' : Db} {a : α}, exec σ t db = .ok (a, db') → table db' = table db) :
    Maps σ table id t := by
  intro db db' a ok k
  simp [frame ok]

theorem maps_done {a : α} : Maps σ table id (.done a : Tx Db Row Err α) :=
  maps_id_of_frame fun ok => by rw [(exec_done_ok ok).2]

theorem maps_select {q : Db → α} : Maps σ table id (select q : Tx Db Row Err α) :=
  maps_id_of_frame fun ok => by rw [(exec_select_ok ok).2]

theorem Maps.after (first : Maps σ table id t) (rest : ∀ a, Maps σ table f (k a)) :
    Maps σ table f (t >>= k) := by
  intro db db' b ok key
  obtain ⟨a, mid, ran, continued⟩ := exec_bind_ok ok
  rw [rest a _ _ _ continued key, first _ _ _ ran key, Option.map_id, id]

theorem Maps.before (first : Maps σ table f t) (rest : ∀ a, Maps σ table id (k a)) :
    Maps σ table f (t >>= k) := by
  intro db db' b ok key
  obtain ⟨a, mid, ran, continued⟩ := exec_bind_ok ok
  rw [rest a _ _ _ continued key, first _ _ _ ran key, Option.map_id, id]

end

/-- Whatever other transactions commit between two statements of `t`, the rows `t` has written when
it is done satisfy `Q`. Each statement sees some database with `t`'s own writes over it, and its
rows are admitted there. -/
def Emits (σ : Schema Db Row Key Index Err) (Q : List (Write Row) → α → Prop) :
    Tx Db Row Err α → List (Write Row) → Prop
  | .done a, ws => Q ws a
  | .fail _, _ => True
  | .stmt s k, ws => ∀ base new seen, s (σ.overlay base ws) = .ok new →
      σ.applyWrites (σ.overlay base ws) new = some seen →
      Emits σ Q (k (σ.overlay base ws)) (ws ++ new)

theorem Emits.bind {R : List (Write Row) → β → Prop} (first : Emits σ Q t ws)
    (rest : ∀ a ws', Q ws' a → Emits σ R (f a) ws') : Emits σ R (t >>= f) ws := by
  induction t generalizing ws with
  | done a => exact rest a ws first
  | fail e => trivial
  | stmt s k ih => exact fun base new seen ok admitted => ih _ (first base new seen ok admitted)

theorem Emits.mono {R : List (Write Row) → α → Prop} (emits : Emits σ Q t ws)
    (weaker : ∀ ws a, Q ws a → R ws a) : Emits σ R t ws := by
  induction t generalizing ws with
  | done a => exact weaker ws a emits
  | fail e => trivial
  | stmt s k ih => exact fun base new seen ok admitted => ih _ (emits base new seen ok admitted)

/-- A transaction that writes only rows with `P` adds such rows to what was written before it. -/
theorem Writes.emits (writes : Writes P t) (ws : List (Write Row)) :
    Emits σ (fun ws' _ => ∃ new, ws' = ws ++ new ∧ ∀ w ∈ new, P w.row) t ws := by
  induction t generalizing ws with
  | done a => exact ⟨[], by simp, by simp⟩
  | fail e => trivial
  | stmt s k ih =>
    intro base new seen ok admitted
    refine (ih _ (writes (σ.overlay base ws)).2 (ws ++ new)).mono ?_
    rintro ws' a ⟨later, rfl, all⟩
    refine ⟨new ++ later, by simp, ?_⟩
    intro w member
    rcases mem_append.mp member with now | after
    · exact (writes (σ.overlay base ws)).1 new ok w now
    · exact all w after

section

variable {Q : List (Write Row) → β → Prop} {f : α → Tx Db Row Err β} {ws : List (Write Row)}

theorem emits_select {q : Db → α} (next : ∀ base, Emits σ Q (f (q (σ.overlay base ws))) ws) :
    Emits σ Q (select q >>= f) ws := by
  intro base new seen ok admitted
  cases ok
  rw [append_nil]
  exact next base

theorem emits_write {rows : Db → List (Write Row)} {r : Db → α}
    (next : ∀ base seen, σ.applyWrites (σ.overlay base ws) (rows (σ.overlay base ws)) = some seen →
      Emits σ Q (f (r (σ.overlay base ws))) (ws ++ rows (σ.overlay base ws))) :
    Emits σ Q (write rows r >>= f) ws := by
  intro base new seen ok admitted
  cases ok
  exact next base seen admitted

theorem Writes.emits_bind {P : Row → Prop} {t : Tx Db Row Err α} (writes : Writes P t)
    (next : ∀ a new, (∀ w ∈ new, P w.row) → Emits σ Q (f a) (ws ++ new)) :
    Emits σ Q (t >>= f) ws := by
  refine (writes.emits ws).bind ?_
  rintro a ws' ⟨new, rfl, all⟩
  exact next a new all

end

/-- Rows whose key is in `C` are only ever written back as they are, or inserted. -/
def Preserves (σ : Schema Db Row Key Index Err) (C : Key → Prop) : Tx Db Row Err α → Prop
  | .done _ => True
  | .fail _ => True
  | .stmt s k => ∀ db, (∀ new seen, s db = .ok new → σ.applyWrites db new = some seen →
      ∀ w ∈ new, C (σ.key w.row) → ∀ old, σ.get db (σ.key w.row) = some old → w.row = old) ∧
      Preserves σ C (k db)

theorem Preserves.bind (first : Preserves σ C t) (rest : ∀ a, Preserves σ C (f a)) :
    Preserves σ C (t >>= f) := by
  induction t with
  | done a => exact rest a
  | fail e => trivial
  | stmt s k ih => exact fun db => ⟨(first db).1, ih db (first db).2⟩

theorem Writes.preserves (writes : Writes P t) (apart : ∀ row, P row → ¬C (σ.key row)) :
    Preserves σ C t := by
  induction t with
  | done a => trivial
  | fail e => trivial
  | stmt s k ih =>
    intro db
    refine ⟨fun new seen ok _ w member inC => ?_, ih db (writes db).2⟩
    exact absurd inC (apart _ ((writes db).1 new ok w member))

/-- Run without interference, a transaction lays rows it can emit over the database, and those it
inserted are new. -/
theorem Emits.exec [DecidableEq Key] (emits : Emits σ Q t ws)
    (fresh : ∀ row, .insert row ∈ ws → σ.get db (σ.key row) = none)
    (ok : Tx.exec σ t (σ.overlay db ws) = .ok (a, db')) : ∃ ws', db' = σ.overlay db ws' ∧ Q ws' a ∧
      ∀ row, .insert row ∈ ws' → σ.get db (σ.key row) = none := by
  induction t generalizing ws with
  | done b =>
    obtain ⟨rfl, rfl⟩ := exec_done_ok ok
    exact ⟨ws, rfl, emits, fresh⟩
  | fail e => cases ok
  | stmt s k ih =>
    simp only [Tx.exec] at ok
    split at ok
    · cases ok
    next new written =>
      split at ok
      next seen admitted =>
        have later := emits db new seen written admitted
        rw [σ.overlay_of_applyWrites admitted, ← σ.overlay_append] at ok
        refine ih _ later (fun row member => ?_) ok
        rcases mem_append.mp member with before | now
        · exact fresh row before
        · exact σ.fresh_of_applyWrites admitted now
      · cases ok

theorem Preserves.exec [DecidableEq Key] (preserves : Preserves σ C t)
    (ok : Tx.exec σ t db = .ok (a, db')) {k : Key} {old : Row} (inC : C k)
    (found : σ.get db k = some old) : σ.get db' k = some old := by
  induction t generalizing db with
  | done b => rwa [(exec_done_ok ok).2]
  | fail e => cases ok
  | stmt s cont ih =>
    simp only [Tx.exec] at ok
    split at ok
    · cases ok
    next new written =>
      split at ok
      next seen admitted =>
        refine ih _ (preserves db).2 ok ?_
        rw [σ.overlay_of_applyWrites admitted, σ.get_overlay]
        cases now : σ.written new k with
        | none => exact found
        | some row =>
          obtain ⟨w, member, rfl⟩ := σ.written_mem now
          have keyed := σ.key_of_written now
          have same := (preserves db).1 new seen written admitted w member (keyed ▸ inC) old
            (keyed ▸ found)
          simp [same]
      · cases ok

/-- While the database satisfies `C`, every row that a statement of `t` writes satisfies `P`. -/
def WritesUnder (C : Db → Prop) (P : Row → Prop) : Tx Db Row Err α → Prop
  | .done _ => True
  | .fail _ => True
  | .stmt s k => ∀ db, C db → (∀ ws, s db = .ok ws → ∀ w ∈ ws, P w.row) ∧ WritesUnder C P (k db)

section

variable {C : Db → Prop} {P : Row → Prop}

variable {f : α → Tx Db Row Err β} {t : Tx Db Row Err α}

theorem WritesUnder.bind (first : WritesUnder C P t) (rest : ∀ a, WritesUnder C P (f a)) :
    WritesUnder C P (t >>= f) := by
  induction t with
  | done a => exact rest a
  | fail e => trivial
  | stmt s k ih => exact fun db holds => ⟨(first db holds).1, ih db (first db holds).2⟩

theorem Writes.under {Q : Row → Prop} (writes : Writes Q t) (weaker : ∀ row, Q row → P row) :
    WritesUnder C P t := by
  induction t with
  | done a => trivial
  | fail e => trivial
  | stmt s k ih =>
    exact fun db _ => ⟨fun ws ok w member => weaker _ ((writes db).1 ws ok w member), ih db (writes db).2⟩

theorem writesUnder_select {q : Db → α} (rest : ∀ db, C db → WritesUnder C P (f (q db))) :
    WritesUnder C P (select q >>= f) := by
  intro db holds
  refine ⟨fun ws eq w member => ?_, rest db holds⟩
  cases eq
  cases member

theorem writesUnder_write {ws : Db → List (Write Row)} {r : Db → α}
    (all : ∀ db, C db → ∀ w ∈ ws db, P w.row) : WritesUnder C P (write ws r : Tx Db Row Err α) := by
  intro db holds
  refine ⟨fun new eq w member => ?_, trivial⟩
  cases eq
  exact all db holds w member

/-- Run without interference, such a transaction lays rows with `P` over the database, provided
they keep the condition. -/
theorem WritesUnder.exec [DecidableEq Key] {db db' : Db} {a : α} (under : WritesUnder C P t)
    (keep : ∀ db row, C db → P row → C (σ.put db row)) (holds : C db)
    (ok : Tx.exec σ t db = .ok (a, db')) : ∃ ws, db' = σ.overlay db ws ∧ ∀ w ∈ ws, P w.row := by
  have kept : ∀ (ws : List (Write Row)) (db : Db), C db → (∀ w ∈ ws, P w.row) → C (σ.overlay db ws) := by
    intro ws
    induction ws with
    | nil => exact fun db holds _ => holds
    | cons w ws ih =>
      intro db holds all
      exact ih (σ.put db w.row) (keep db w.row holds (all w mem_cons_self))
        fun v member => all v (mem_cons_of_mem _ member)
  induction t generalizing db with
  | done b => exact ⟨[], by simp [(exec_done_ok ok).2], by simp⟩
  | fail e => cases ok
  | stmt s k ih =>
    simp only [Tx.exec] at ok
    split at ok
    · cases ok
    next new written =>
      split at ok
      next seen admitted =>
        have now := (under db holds).1 new written
        rw [σ.overlay_of_applyWrites admitted] at ok
        obtain ⟨ws, after, later⟩ := ih db (under db holds).2 (kept new db holds now) ok
        refine ⟨new ++ ws, by rw [after, σ.overlay_append], fun w member => ?_⟩
        rcases mem_append.mp member with early | late
        · exact now w early
        · exact later w late
      · cases ok

end

theorem unique_exec [DecidableEq Key] (unique : σ.Unique db) (ok : Tx.exec σ t db = .ok (a, db')) :
    σ.Unique db' := by
  induction t generalizing db with
  | done b => rwa [(exec_done_ok ok).2]
  | fail e => cases ok
  | stmt s k ih =>
    simp only [Tx.exec] at ok
    split at ok
    · cases ok
    next new written =>
      split at ok
      next seen admitted => exact ih _ (σ.unique_applyWrites unique admitted) ok
      · cases ok

end Tx

end Foundation
