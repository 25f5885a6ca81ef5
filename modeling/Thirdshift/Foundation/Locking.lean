import Mathlib.Logic.Relation
import Thirdshift.Foundation.Transaction

/-!
# Row locks and deadlocks

Any number of transactions run statement by statement over one database. Before a statement is
executed it locks the rows it writes, one after the other in the order in which it visits them, and
it waits for a row that another transaction holds. Locks are kept until commit or rollback. A
deadlock is a cycle of transactions that wait for each other.

`Reachable.no_deadlock` is the classical remedy: where each transaction climbs in one order of the
rows, every wait is for a higher row than those that are held, and no wait closes a cycle.
-/

namespace Foundation.Locking

open List Option

structure Client (Db Row Key Err : Type) where
  prog : Tx Db Row Err Unit
  writes : List (Write Row)
  held : List Key

/-- The committed database and the transactions begun so far; `none` once one has ended. -/
structure Shared (Db Row Key Err : Type) where
  committed : Db
  clients : List (Option (Client Db Row Key Err))

variable {Db Row Key Index Err : Type}

section

variable [DecidableEq Key] (σ : Schema Db Row Key Index Err)

/-- The row that the next statement of a transaction has to lock first. -/
def Client.wanted (a : Client Db Row Key Err) (committed : Db) : Option Key :=
  match a.prog with
  | .stmt s _ =>
    match s (σ.overlay committed a.writes) with
    | .ok new => (new.map fun w => σ.key w.row).find? (· ∉ a.held)
    | .error _ => none
  | _ => none

def Shared.free (c : Shared Db Row Key Err) (key : Key) : Bool :=
  c.clients.all fun client => client.all fun a => decide (key ∉ a.held)

/-- Transaction `i` waits for a row that transaction `j` holds. Only the rows that are watched
count. -/
def Shared.waits (watched : Key → Bool) (c : Shared Db Row Key Err) (i j : Nat) : Bool :=
  match c.clients[i]?, c.clients[j]? with
  | some (some a), some (some b) =>
    (a.wanted σ c.committed).any fun key => watched key && decide (key ∈ b.held)
  | _, _ => false

/-- A cycle of transactions, each waiting for a row that the next one holds. -/
def Shared.Deadlocked (watched : Key → Bool) (c : Shared Db Row Key Err) : Prop :=
  ∃ i, Relation.TransGen (fun i j => c.waits σ watched i j = true) i i

variable (Begins : Tx Db Row Err Unit → Prop)

inductive Step (c : Shared Db Row Key Err) : Shared Db Row Key Err → Prop
  | start (t : Tx Db Row Err Unit) (allowed : Begins t) :
      Step c { c with clients := c.clients ++ [some ⟨t, [], []⟩] }
  | lock {i : Nat} {a key} (current : c.clients[i]? = some (some a))
      (next : a.wanted σ c.committed = some key) (free : c.free key = true) :
      Step c { c with clients := c.clients.set i (some { a with held := a.held ++ [key] }) }
  | stmt {i : Nat} {s k ws held new seen}
      (current : c.clients[i]? = some (some ⟨.stmt s k, ws, held⟩))
      (written : s (σ.overlay c.committed ws) = .ok new)
      (locked : ∀ w ∈ new, σ.key w.row ∈ held)
      (admitted : σ.applyWrites (σ.overlay c.committed ws) new = some seen) :
      Step c { c with
        clients := c.clients.set i (some ⟨k (σ.overlay c.committed ws), ws ++ new, held⟩) }
  | commit {i : Nat} {ws held} (current : c.clients[i]? = some (some ⟨.done (), ws, held⟩)) :
      Step c ⟨σ.overlay c.committed ws, c.clients.set i none⟩
  /-- A rollback: the program failed, a constraint was violated, or the connection was lost. -/
  | abort (i : Nat) : Step c { c with clients := c.clients.set i none }

inductive Reachable (db : Db) : Shared Db Row Key Err → Prop
  | start : Reachable db ⟨db, []⟩
  | step {c c'} (reached : Reachable db c) (step : Step σ Begins c c') : Reachable db c'

/-- The next step of transaction `i` when it can take one, as a function. -/
def advance (i : Nat) (c : Shared Db Row Key Err) : Option (Shared Db Row Key Err) :=
  match c.clients[i]? with
  | some (some a) =>
    match a.wanted σ c.committed with
    | some key =>
      if c.free key then
        some { c with clients := c.clients.set i (some { a with held := a.held ++ [key] }) }
      else none
    | none =>
      match a with
      | ⟨.stmt s k, ws, held⟩ =>
        let view := σ.overlay c.committed ws
        match s view with
        | .ok new =>
          if (∀ w ∈ new, σ.key w.row ∈ held) ∧ (σ.applyWrites view new).isSome then
            some { c with clients := c.clients.set i (some ⟨k view, ws ++ new, held⟩) }
          else none
        | .error _ => none
      | ⟨.done (), ws, _⟩ => some ⟨σ.overlay c.committed ws, c.clients.set i none⟩
      | ⟨.fail _, _, _⟩ => none
  | _ => none

/-- Begins the listed transactions and lets them take steps in the given order. -/
def advanceAll (begun : List (Tx Db Row Err Unit)) (order : List Nat) (db : Db) :
    Option (Shared Db Row Key Err) :=
  order.foldlM (fun c i => advance σ i c) ⟨db, begun.map fun t => some ⟨t, [], []⟩⟩

end

section

variable [DecidableEq Key] {σ : Schema Db Row Key Index Err}
  {Begins : Tx Db Row Err Unit → Prop} {c c' : Shared Db Row Key Err}

theorem step_of_advance {i : Nat} (advanced : advance σ i c = some c') : Step σ Begins c c' := by
  simp only [advance] at advanced
  split at advanced
  next a current =>
    split at advanced
    next key next' =>
      split at advanced
      next free =>
        cases advanced
        exact .lock current next' free
      · cases advanced
    next =>
      split at advanced
      next s k ws held =>
        split at advanced
        next new written =>
          split at advanced
          next admitted =>
            cases advanced
            obtain ⟨seen, applied⟩ := isSome_iff_exists.mp admitted.2
            exact .stmt current written admitted.1 applied
          · cases advanced
        · cases advanced
      next ws held =>
        cases advanced
        exact .commit current
      · cases advanced
  · cases advanced

variable {begun : List (Tx Db Row Err Unit)}

theorem reachable_begun {db : Db} (allowed : ∀ t ∈ begun, Begins t) :
    Reachable σ Begins db ⟨db, begun.map fun t => some ⟨t, [], []⟩⟩ := by
  induction begun using List.reverseRecOn with
  | nil => exact .start
  | append_singleton begun t ih =>
    have before := ih fun u inside => allowed u (mem_append_left _ inside)
    rw [map_append]
    exact .step before (.start t (allowed t (by simp)))

theorem reachable_of_advanceAll {db : Db} {order : List Nat} (allowed : ∀ t ∈ begun, Begins t)
    (advanced : advanceAll σ begun order db = some c) : Reachable σ Begins db c := by
  have follow : ∀ (order : List Nat) (c₀ : Shared Db Row Key Err), Reachable σ Begins db c₀ →
      order.foldlM (fun c i => advance σ i c) c₀ = some c → Reachable σ Begins db c := by
    intro order
    induction order with
    | nil =>
      intro c₀ reached eq
      cases eq
      exact reached
    | cons i rest ih =>
      intro c₀ reached eq
      rw [foldlM_cons] at eq
      obtain ⟨next', first, later⟩ := bind_eq_some_iff.mp eq
      exact ih next' (.step reached (step_of_advance first)) later
  exact follow order _ (reachable_begun allowed) advanced

end

/-! ### Climbing -/

section

variable {α β : Type} (σ : Schema Db Row Key Index Err) (watched : Key → Bool) (rank : Key → Nat)

/-- A watched row that a statement writes can only be the target, whatever the database is. -/
def About (s : Db → Except Err (List (Write Row))) (target : Option Key) : Prop :=
  ∀ db new, s db = .ok new → ∀ w ∈ new, watched (σ.key w.row) = true → target = some (σ.key w.row)

/-- The target is the row that was locked last, or above it. -/
def Above (target top : Option Key) : Prop :=
  ∀ a t, target = some a → top = some t → t = a ∨ rank t < rank a

/-- Each statement is about one watched row at most, and the rows ascend from `top` on. `Q` is what
holds of the last of them. -/
def Climbs (Q : Option Key → Prop) : Tx Db Row Err α → Option Key → Prop
  | .done _, top => Q top
  | .fail _, _ => True
  | .stmt s k, top => ∃ target, About σ watched s target ∧ Above rank target top ∧
      ∀ db, Climbs Q (k db) (target.or top)

variable {σ watched rank}

variable {Q : Option Key → Prop} {top : Option Key}

theorem Climbs.bind {t : Tx Db Row Err α} {f : α → Tx Db Row Err β}
    (climbs : Climbs σ watched rank (fun top => ∀ a, Climbs σ watched rank Q (f a) top) t top) :
    Climbs σ watched rank Q (t >>= f) top := by
  induction t generalizing top with
  | done a => exact climbs a
  | fail e => trivial
  | stmt s k ih =>
    obtain ⟨target, about, above, rest⟩ := climbs
    exact ⟨target, about, above, fun db => ih db (rest db)⟩

theorem climbs_unwatched {t : Tx Db Row Err α}
    (writes : Tx.Writes (fun row => watched (σ.key row) = false) t) (post : Q top) :
    Climbs σ watched rank Q t top := by
  induction t with
  | done a => exact post
  | fail e => trivial
  | stmt s k ih =>
    refine ⟨none, ?_, ?_, fun db => ih db (writes db).2⟩
    · intro db new written w member watch
      rw [(writes db).1 new written w member] at watch
      cases watch
    · intro a t target
      cases target

theorem climbs_write {ws : Db → List (Write Row)} {r : Db → α} (target : Key)
    (about : ∀ db, ∀ w ∈ ws db, σ.key w.row = target)
    (above : ∀ t, top = some t → t = target ∨ rank t < rank target) (post : Q (some target)) :
    Climbs σ watched rank Q (Tx.write ws r) top := by
  refine ⟨some target, ?_, ?_, fun _ => post⟩
  · intro db new written w member _
    cases written
    rw [about db w member]
  · intro a t eq
    cases eq
    exact above t

end

/-! ### No cycle of waits -/

section

variable {σ : Schema Db Row Key Index Err} {watched : Key → Bool} {rank : Key → Nat}

/-- A row that is held is the highest one, or below it. -/
def Below (rank : Key → Nat) (top : Option Key) (h : Key) : Prop :=
  ∃ t, top = some t ∧ (h = t ∨ rank h < rank t)

theorem Below.or {target top : Option Key} {h : Key} (below : Below rank top h)
    (above : Above rank target top) : Below rank (target.or top) h := by
  obtain ⟨t, rfl, lower⟩ := below
  cases target with
  | none => exact ⟨t, rfl, lower⟩
  | some a =>
    refine ⟨a, rfl, ?_⟩
    rcases lower with rfl | lower
    · exact above a h rfl rfl
    · rcases above a t rfl rfl with rfl | higher
      · exact .inr lower
      · exact .inr (Nat.lt_trans lower higher)

/-- A transaction at a statement climbs on from the rows it holds. The row that the statement is
about may already be among them. -/
def Client.Climbing (σ : Schema Db Row Key Index Err) (watched : Key → Bool) (rank : Key → Nat)
    (a : Client Db Row Key Err) : Prop :=
  match a.prog with
  | .stmt s k => ∃ target top, About σ watched s target ∧
      (∀ db, Climbs σ watched rank (fun _ => True) (k db) (target.or top)) ∧
      ∀ h ∈ a.held, watched h = true → Below rank (target.or top) h
  | _ => True

theorem climbing_of_climbs {prog : Tx Db Row Err Unit} {ws : List (Write Row)} {held : List Key}
    {top : Option Key} (climbs : Climbs σ watched rank (fun _ => True) prog top)
    (below : ∀ h ∈ held, watched h = true → Below rank top h) :
    Client.Climbing σ watched rank ⟨prog, ws, held⟩ := by
  cases prog with
  | done _ => trivial
  | fail _ => trivial
  | stmt s k =>
    obtain ⟨target, about, above, rest⟩ := climbs
    exact ⟨target, top, about, rest, fun h inside watch => (below h inside watch).or above⟩

def Shared.Climbing (σ : Schema Db Row Key Index Err) (watched : Key → Bool) (rank : Key → Nat)
    (c : Shared Db Row Key Err) : Prop :=
  ∀ a, some a ∈ c.clients → a.Climbing σ watched rank

variable {i : Nat} {a : Client Db Row Key Err} {key : Key}

theorem Shared.Climbing.set {c : Shared Db Row Key Err} {client : Option (Client Db Row Key Err)}
    (climbing : c.Climbing σ watched rank) (next : ∀ a, client = some a → a.Climbing σ watched rank)
    (db : Db) : Shared.Climbing σ watched rank ⟨db, c.clients.set i client⟩ := by
  intro a inside
  rcases mem_or_eq_of_mem_set inside with before | same
  · exact climbing a before
  · exact next a same.symm

variable [DecidableEq Key]

theorem Client.wanted_eq_some {db : Db} (wanted : a.wanted σ db = some key) :
    ∃ s k new, a.prog = .stmt s k ∧ s (σ.overlay db a.writes) = .ok new ∧
      (∃ w ∈ new, σ.key w.row = key) ∧ key ∉ a.held := by
  unfold Client.wanted at wanted
  split at wanted
  next s k prog =>
    split at wanted
    next new written =>
      have member := mem_of_find?_eq_some wanted
      have unheld := find?_some wanted
      exact ⟨s, k, new, prog, written, mem_map.mp member, of_decide_eq_true unheld⟩
    · cases wanted
  · cases wanted

section

variable {db : Db} (climbing : a.Climbing σ watched rank) (wanted : a.wanted σ db = some key)
include climbing wanted

theorem Client.Climbing.rank_lt {h : Key} (watch : watched key = true) (inside : h ∈ a.held)
    (watch' : watched h = true) : rank h < rank key := by
  obtain ⟨s, k, new, prog, written, ⟨w, member, rfl⟩, unheld⟩ := Client.wanted_eq_some wanted
  rw [Client.Climbing, prog] at climbing
  obtain ⟨target, top, about, -, below⟩ := climbing
  obtain ⟨t, highest, lower⟩ := below h inside watch'
  rw [about _ new written w member watch, some_or, Option.some.injEq] at highest
  subst highest
  rcases lower with rfl | lower
  · exact absurd inside unheld
  · exact lower

theorem Client.Climbing.lock :
    Client.Climbing σ watched rank { a with held := a.held ++ [key] } := by
  obtain ⟨s, k, new, prog, written, ⟨w, member, rfl⟩, -⟩ := Client.wanted_eq_some wanted
  rw [Client.Climbing, prog] at climbing
  rw [Client.Climbing, prog]
  obtain ⟨target, top, about, rest, below⟩ := climbing
  refine ⟨target, top, about, rest, ?_⟩
  intro h inside watch
  rcases mem_append.mp inside with before | new'
  · exact below h before watch
  · cases mem_singleton.mp new'
    rw [about _ new written w member watch]
    exact ⟨_, rfl, .inl rfl⟩

end

variable {Begins : Tx Db Row Err Unit → Prop} {c c' : Shared Db Row Key Err} {db : Db}

theorem Step.climbing (step : Step σ Begins c c')
    (begins : ∀ t, Begins t → Climbs σ watched rank (fun _ => True) t none)
    (climbing : c.Climbing σ watched rank) : c'.Climbing σ watched rank := by
  cases step with
  | start t allowed =>
    intro a inside
    rcases mem_append.mp inside with before | new
    · exact climbing a before
    · cases mem_singleton.mp new
      exact climbing_of_climbs (begins t allowed) fun _ none' => nomatch none'
  | lock current next' free =>
    refine climbing.set (fun a same => ?_) _
    cases same
    exact (climbing _ (mem_of_getElem? current)).lock next'
  | stmt current written locked admitted =>
    refine climbing.set (fun a same => ?_) _
    cases same
    -- the target of the statement is now the highest row
    obtain ⟨target, top, -, rest, below⟩ := climbing _ (mem_of_getElem? current)
    exact climbing_of_climbs (rest _) below
  | commit current => exact climbing.set (fun _ ended => by cases ended) _
  | abort i => exact climbing.set (fun _ ended => by cases ended) _

theorem Reachable.climbing (reached : Reachable σ Begins db c)
    (begins : ∀ t, Begins t → Climbs σ watched rank (fun _ => True) t none) :
    c.Climbing σ watched rank := by
  induction reached with
  | start => exact fun a inside => nomatch inside
  | step reached step ih => exact step.climbing begins ih

theorem Shared.waits_iff {j : Nat} : c.waits σ watched i j = true ↔
    ∃ a b key, c.clients[i]? = some (some a) ∧ c.clients[j]? = some (some b) ∧
      a.wanted σ c.committed = some key ∧ watched key = true ∧ key ∈ b.held := by
  unfold Shared.waits
  constructor
  · intro waits
    split at waits
    next a b first second =>
      obtain ⟨key, wanted, holds⟩ := (any_eq_true _ _).mp waits
      obtain ⟨watch, inside⟩ := (Bool.and_eq_true _ _).mp holds
      exact ⟨a, b, key, first, second, wanted, watch, of_decide_eq_true inside⟩
    · cases waits
  · rintro ⟨a, b, key, first, second, wanted, watch, inside⟩
    simp [first, second, wanted, watch, inside]

theorem Shared.Climbing.chain (climbing : c.Climbing σ watched rank) {j : Nat}
    (chain : Relation.TransGen (fun i j => c.waits σ watched i j = true) i j) :
    ∃ a b first last, c.clients[i]? = some (some a) ∧ c.clients[j]? = some (some b) ∧
      a.wanted σ c.committed = some first ∧ watched first = true ∧ watched last = true ∧
      last ∈ b.held ∧ rank first ≤ rank last := by
  induction chain with
  | single waits =>
    obtain ⟨a, b, key, client, holder, wanted, watch, inside⟩ := Shared.waits_iff.mp waits
    exact ⟨a, b, key, key, client, holder, wanted, watch, watch, inside, Nat.le_refl _⟩
  | tail _ waits ih =>
    obtain ⟨a, b, first, last, client, holder, wanted, watch, watch', inside, le⟩ := ih
    obtain ⟨b', d, key, client', holder', wanted', watch'', inside'⟩ := Shared.waits_iff.mp waits
    -- the transaction in the middle holds `last` and waits for `key`
    cases holder.symm.trans client'
    have higher := (climbing b (mem_of_getElem? holder)).rank_lt wanted' watch'' inside watch'
    exact ⟨a, d, first, key, client, holder', wanted, watch, watch'', inside',
      Nat.le_of_lt (Nat.lt_of_le_of_lt le higher)⟩

theorem Reachable.no_deadlock (reached : Reachable σ Begins db c) (rank : Key → Nat)
    (begins : ∀ t, Begins t → Climbs σ watched rank (fun _ => True) t none) :
    ¬c.Deadlocked σ watched := by
  rintro ⟨i, cycle⟩
  have climbing := reached.climbing begins
  obtain ⟨a, b, first, last, client, holder, wanted, watch, watch', inside, le⟩ :=
    climbing.chain cycle
  cases client.symm.trans holder
  have higher := (climbing a (mem_of_getElem? client)).rank_lt wanted watch inside watch'
  exact absurd le (Nat.not_le.mpr higher)

end

end Foundation.Locking
