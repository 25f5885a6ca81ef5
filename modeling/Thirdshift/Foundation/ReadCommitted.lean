import Thirdshift.Foundation.Transaction

/-!
# READ COMMITTED with row locks and unique indexes

Any number of transactions run statement by statement. A statement sees the last committed
database with its own transaction's writes over it. It claims every row it writes and every unique
index entry that one of its rows takes or gives up, and it waits while another transaction holds
one of them; a duplicate among the rows it sees is an error. Claims are kept until commit or abort.

`Reachable.isolated` is what this buys: the committed database never holds a duplicate, and what a
transaction has inserted stays unknown to the others until it commits.
-/

namespace Foundation

open List Schema

/-- What a transaction can hold: a row, or an entry of a unique index. -/
inductive Claim (Key Index : Type)
  | row (key : Key)
  | entry (index : Index)
  deriving DecidableEq

structure Active (Db Row Key Index Err : Type) where
  prog : Tx Db Row Err Unit
  writes : List (Write Row)
  held : List (Claim Key Index)

/-- The committed database and the transactions begun so far; `none` once one has ended. -/
structure Shared (Db Row Key Index Err : Type) where
  committed : Db
  active : List (Option (Active Db Row Key Index Err))

variable {Db Row Key Index Err : Type} [DecidableEq Key] [DecidableEq Index]

section

variable (σ : Schema Db Row Key Index Err)

/-- The index entries that a row takes or gives up when it replaces `old`. -/
def Schema.moved (old : Option Row) (row : Row) : List Index :=
  match old with
  | none => σ.index row
  | some old => (σ.index row).filter (· ∉ σ.index old) ++ (σ.index old).filter (· ∉ σ.index row)

def Schema.claims : Db → List (Write Row) → List (Claim Key Index)
  | _, [] => []
  | db, w :: ws =>
    .row (σ.key w.row) :: (σ.moved (σ.get db (σ.key w.row)) w.row).map .entry
      ++ claims (σ.put db w.row) ws

/-- Another transaction holds something transaction `i` wants. -/
def Shared.blocked (c : Shared Db Row Key Index Err) (i : Nat) (wanted : List (Claim Key Index)) :
    Bool :=
  c.active.zipIdx.any fun (other, j) =>
    j ≠ i && match other with
      | some a => wanted.any (fun x => decide (x ∈ a.held))
      | none => false

variable (Begins : Tx Db Row Err Unit → Prop)

inductive ReadCommitted.Step (c : Shared Db Row Key Index Err) :
    Shared Db Row Key Index Err → Prop
  | start (t : Tx Db Row Err Unit) (allowed : Begins t) :
      Step c { c with active := c.active ++ [some ⟨t, [], []⟩] }
  | stmt {i : Nat} {s k ws held new seen}
      (current : c.active[i]? = some (some ⟨.stmt s k, ws, held⟩))
      (written : s (σ.overlay c.committed ws) = .ok new)
      (admitted : σ.applyWrites (σ.overlay c.committed ws) new = some seen)
      (granted : c.blocked i (σ.claims (σ.overlay c.committed ws) new) = false) :
      Step c { c with active := c.active.set i (some ⟨k (σ.overlay c.committed ws), ws ++ new,
        held ++ σ.claims (σ.overlay c.committed ws) new⟩) }
  | commit {i : Nat} {ws held}
      (current : c.active[i]? = some (some ⟨.done (), ws, held⟩))
      (deferred : σ.deferred (σ.overlay c.committed ws) = true) :
      Step c ⟨σ.overlay c.committed ws, c.active.set i none⟩
  /-- A rollback: the program failed, a constraint was violated, or the connection was lost. -/
  | abort (i : Nat) : Step c { c with active := c.active.set i none }

inductive ReadCommitted.Reachable (db : Db) : Shared Db Row Key Index Err → Prop
  | start : Reachable db ⟨db, []⟩
  | step {c c'} (reached : Reachable db c) (step : ReadCommitted.Step σ Begins c c') :
      Reachable db c'

def ReadCommitted.advance (i : Nat) (c : Shared Db Row Key Index Err) :
    Option (Shared Db Row Key Index Err) :=
  match c.active[i]? with
  | some (some ⟨.stmt s k, ws, held⟩) =>
    let view := σ.overlay c.committed ws
    match s view with
    | .error _ => some { c with active := c.active.set i none }
    | .ok new =>
      if c.blocked i (σ.claims view new) then none
      else if (σ.applyWrites view new).isSome then
        let next := ⟨k view, ws ++ new, held ++ σ.claims view new⟩
        some { c with active := c.active.set i (some next) }
      else some { c with active := c.active.set i none }
  | some (some ⟨.done (), ws, _⟩) =>
    if σ.deferred (σ.overlay c.committed ws) then
      some ⟨σ.overlay c.committed ws, c.active.set i none⟩
    else some { c with active := c.active.set i none }
  | some (some ⟨.fail _, _, _⟩) => some { c with active := c.active.set i none }
  | _ => none

/-- Lets the listed transactions take a step each, in the order of the list. -/
def ReadCommitted.advanceAll : List Nat → Shared Db Row Key Index Err →
    Option (Shared Db Row Key Index Err)
  | [], c => some c
  | i :: rest, c => (ReadCommitted.advance σ i c).bind (advanceAll rest)

end

namespace ReadCommitted

variable {σ : Schema Db Row Key Index Err} {Begins : Tx Db Row Err Unit → Prop}
  {c c' : Shared Db Row Key Index Err}

variable {i j : Nat} {db : Db} {a b : Active Db Row Key Index Err} {held : List (Claim Key Index)}
  {ws : List (Write Row)} {active : List (Option (Active Db Row Key Index Err))}
  {Q : List (Write Row) → Unit → Prop}

theorem step_of_advance (advanced : advance σ i c = some c') : Step σ Begins c c' := by
  simp only [advance] at advanced
  split at advanced
  next s k ws held current =>
    split at advanced
    · cases advanced; exact .abort i
    next new written =>
      split at advanced
      · cases advanced
      next granted =>
        split at advanced
        next admitted =>
          cases advanced
          obtain ⟨seen, applied⟩ := Option.isSome_iff_exists.mp admitted
          exact .stmt current written applied (by simpa using granted)
        · cases advanced; exact .abort i
  next ws held current =>
    split at advanced
    next deferred => cases advanced; exact .commit current deferred
    · cases advanced; exact .abort i
  · cases advanced; exact .abort i
  · cases advanced

theorem Reachable.advanceAll {order : List Nat} (reached : Reachable σ Begins db c)
    (advanced : ReadCommitted.advanceAll σ order c = some c') : Reachable σ Begins db c' := by
  induction order generalizing c with
  | nil =>
    simp only [ReadCommitted.advanceAll, Option.some.injEq] at advanced
    exact advanced ▸ reached
  | cons i rest ih =>
    obtain ⟨mid, first, later⟩ := Option.bind_eq_some_iff.mp advanced
    exact ih (.step reached (step_of_advance first)) later

theorem Reachable.startAll {ts : List (Tx Db Row Err Unit)} (reached : Reachable σ Begins db c)
    (allowed : ∀ t ∈ ts, Begins t) :
    Reachable σ Begins db { c with active := c.active ++ ts.map fun t => some ⟨t, [], []⟩ } := by
  induction ts generalizing c with
  | nil => simpa using reached
  | cons t ts ih =>
    have begun := Reachable.step reached (.start t (allowed t mem_cons_self))
    simpa using ih begun (fun u member => allowed u (mem_cons_of_mem _ member))

theorem not_held_of_granted {wanted : List (Claim Key Index)}
    (granted : c.blocked i wanted = false) (other : j ≠ i) (current : c.active[j]? = some (some a)) :
    ∀ x ∈ wanted, x ∉ a.held := by
  intro x wants holds
  have member : (some a, j) ∈ c.active.zipIdx := by
    rw [mem_zipIdx_iff_getElem?]
    exact current
  simp only [Shared.blocked, any_eq_false] at granted
  have refused := granted _ member
  simp only [ne_eq, other, not_false_eq_true, decide_true, Bool.true_and, any_eq_true,
    decide_eq_true_eq, not_exists, not_and] at refused
  exact refused x wants holds

/-! ### Writes of one transaction over a fixed database -/

/-- Every index entry of a row written under `k` is held, or was already that of the row which the
database has under `k`. -/
def Covered (σ : Schema Db Row Key Index Err) (db : Db) (ws : List (Write Row))
    (held : List (Claim Key Index)) : Prop :=
  ∀ k row ix, σ.written ws k = some row → ix ∈ σ.index row →
    .entry ix ∈ held ∨ ∃ old, σ.get db k = some old ∧ ix ∈ σ.index old

theorem covered_snoc (w : Write Row) (covered : Covered σ db ws held) :
    Covered σ db (ws ++ [w])
      (held ++ (σ.moved (σ.get (σ.overlay db ws) (σ.key w.row)) w.row).map .entry) := by
  intro k row ix found entry
  by_cases here : σ.key w.row = k
  · subst here
    have same : w.row = row := by simpa [written] using found
    subst same
    cases seen : σ.get (σ.overlay db ws) (σ.key w.row) with
    | none => exact .inl (mem_append_right _ (mem_map_of_mem entry))
    | some old =>
      by_cases kept : ix ∈ σ.index old
      · -- the entry does not move: it is the one the row had when it was last seen
        rw [σ.get_overlay, Option.or_eq_some_iff] at seen
        rcases seen with own | ⟨_, committed⟩
        · rcases covered _ _ _ own kept with holds | before
          · exact .inl (mem_append_left _ holds)
          · exact .inr before
        · exact .inr ⟨old, committed, kept⟩
      · refine .inl (mem_append_right _ (mem_map_of_mem ?_))
        simp [moved, entry, kept]
  · have earlier : σ.written ws k = some row := by simpa [written, here] using found
    rcases covered _ _ _ earlier entry with holds | before
    · exact .inl (mem_append_left _ holds)
    · exact .inr before

theorem covered_append (new : List (Write Row)) (covered : Covered σ db ws held) :
    Covered σ db (ws ++ new) (held ++ σ.claims (σ.overlay db ws) new) := by
  induction new generalizing ws held with
  | nil => simpa [claims] using covered
  | cons w new ih =>
    have next := ih (covered_snoc w covered)
    rw [σ.overlay_append] at next
    intro k row ix found entry
    have found' : σ.written (ws ++ [w] ++ new) k = some row := by simpa using found
    rcases next k row ix found' entry with holds | before
    · refine .inl ?_
      simp only [mem_append, claims, cons_append, mem_cons] at holds ⊢
      rcases holds with (mine | moved) | later
      · exact .inl mine
      · exact .inr (.inr (.inl moved))
      · exact .inr (.inr (.inr later))
    · exact .inr before

omit [DecidableEq Key] in
theorem key_mem_claims {w : Write Row} (member : w ∈ ws) :
    .row (σ.key w.row) ∈ σ.claims db ws := by
  induction ws generalizing db with
  | nil => cases member
  | cons head ws ih =>
    simp only [claims, cons_append, mem_cons, mem_append]
    rcases mem_cons.mp member with rfl | later
    · exact .inl rfl
    · exact .inr (.inr (ih later))

/-! ### Isolation -/

structure Isolated (σ : Schema Db Row Key Index Err) (c : Shared Db Row Key Index Err) : Prop where
  disjoint : ∀ {i j : Nat} {a b : Active Db Row Key Index Err}, i ≠ j →
    c.active[i]? = some (some a) → c.active[j]? = some (some b) → ∀ x ∈ a.held, x ∉ b.held
  locked : ∀ {i : Nat} {a : Active Db Row Key Index Err}, c.active[i]? = some (some a) →
    ∀ w ∈ a.writes, .row (σ.key w.row) ∈ a.held
  covered : ∀ {i : Nat} {a : Active Db Row Key Index Err}, c.active[i]? = some (some a) →
    Covered σ c.committed a.writes a.held
  fresh : ∀ {i : Nat} {a : Active Db Row Key Index Err} {row : Row},
    c.active[i]? = some (some a) → .insert row ∈ a.writes → σ.get c.committed (σ.key row) = none
  unique : σ.Unique c.committed
  views : ∀ {i : Nat} {a : Active Db Row Key Index Err}, c.active[i]? = some (some a) →
    σ.Unique (σ.overlay c.committed a.writes)

omit [DecidableEq Key] [DecidableEq Index] in
theorem getElem?_set_none (current : (active.set i none)[j]? = some (some a)) :
    j ≠ i ∧ active[j]? = some (some a) := by
  by_cases same : i = j
  · subst same
    simp [getElem?_set] at current
  · rw [getElem?_set_ne same] at current
    exact ⟨Ne.symm same, current⟩

omit [DecidableEq Key] [DecidableEq Index] in
/-- A transaction after a statement is the one that executed it, or as it was. -/
theorem getElem?_set_some {next : Active Db Row Key Index Err}
    (here : active[i]? = some (some b)) (current : (active.set i (some next))[j]? = some (some a)) :
    (j = i ∧ a = next) ∨ (j ≠ i ∧ active[j]? = some (some a)) := by
  have inside := (List.getElem?_eq_some_iff.mp here).1
  by_cases same : i = j
  · subst same
    rw [getElem?_set_self inside, Option.some.injEq, Option.some.injEq] at current
    exact .inl ⟨rfl, current.symm⟩
  · rw [getElem?_set_ne same] at current
    exact .inr ⟨Ne.symm same, current⟩

omit [DecidableEq Key] [DecidableEq Index] in
theorem getElem?_append_some {t : Tx Db Row Err Unit}
    (current : (active ++ [some ⟨t, [], []⟩])[j]? = some (some a)) :
    active[j]? = some (some a) ∨ (j = active.length ∧ a = ⟨t, [], []⟩) := by
  rcases Nat.lt_or_ge j active.length with old | new
  · rw [getElem?_append_left old] at current
    exact .inl current
  · rw [getElem?_append_right new, getElem?_singleton] at current
    split at current
    next here =>
      simp only [Option.some.injEq] at current
      exact .inr ⟨by omega, current.symm⟩
    · cases current

omit [DecidableEq Index] in
theorem Isolated.start (isolated : Isolated σ c) (t : Tx Db Row Err Unit) :
    Isolated σ { c with active := c.active ++ [some ⟨t, [], []⟩] } where
  disjoint := by
    intro i j a b other atI atJ x holds
    rcases getElem?_append_some atI with oldI | ⟨_, rfl⟩
    · rcases getElem?_append_some atJ with oldJ | ⟨_, rfl⟩
      · exact isolated.disjoint other oldI oldJ x holds
      · simp
    · cases holds
  locked := by
    intro i a current w member
    rcases getElem?_append_some current with old | ⟨_, rfl⟩
    · exact isolated.locked old w member
    · cases member
  covered := by
    intro i a current
    rcases getElem?_append_some current with old | ⟨_, rfl⟩
    · exact isolated.covered old
    · intro k row ix found
      simp [written] at found
  fresh := by
    intro i a row current member
    rcases getElem?_append_some current with old | ⟨_, rfl⟩
    · exact isolated.fresh old member
    · cases member
  unique := isolated.unique
  views := by
    intro i a current
    rcases getElem?_append_some current with old | ⟨_, rfl⟩
    · exact isolated.views old
    · exact isolated.unique

omit [DecidableEq Index] in
theorem Isolated.abort (isolated : Isolated σ c) (i : Nat) :
    Isolated σ { c with active := c.active.set i none } where
  disjoint other atI atJ := isolated.disjoint other (getElem?_set_none atI).2
    (getElem?_set_none atJ).2
  locked current := isolated.locked (getElem?_set_none current).2
  covered current := isolated.covered (getElem?_set_none current).2
  fresh current := isolated.fresh (getElem?_set_none current).2
  unique := isolated.unique
  views current := isolated.views (getElem?_set_none current).2

theorem Isolated.stmt (isolated : Isolated σ c) {s k ws held new seen}
    {next : Active Db Row Key Index Err}
    (current : c.active[i]? = some (some ⟨.stmt s k, ws, held⟩))
    (admitted : σ.applyWrites (σ.overlay c.committed ws) new = some seen)
    (granted : c.blocked i (σ.claims (σ.overlay c.committed ws) new) = false)
    (writes : next.writes = ws ++ new)
    (holds : next.held = held ++ σ.claims (σ.overlay c.committed ws) new) :
    Isolated σ { c with active := c.active.set i (some next) } := by
  have lookup : ∀ {j a}, (c.active.set i (some next))[j]? = some (some a) →
      (j = i ∧ a = next) ∨ (j ≠ i ∧ c.active[j]? = some (some a)) := getElem?_set_some current
  -- what it claims now was granted, so nobody else holds it
  have apart : ∀ {j a}, j ≠ i → c.active[j]? = some (some a) → ∀ x ∈ next.held, x ∉ a.held := by
    intro j a other found x member
    rw [holds, mem_append] at member
    rcases member with old | claimed
    · exact isolated.disjoint (Ne.symm other) current found x old
    · exact not_held_of_granted granted other found x claimed
  refine ⟨?_, ?_, ?_, ?_, isolated.unique, ?_⟩
  · intro j l a b other atJ atL x member
    rcases lookup atJ with ⟨rfl, rfl⟩ | ⟨notJ, oldJ⟩
    · rcases lookup atL with ⟨rfl, rfl⟩ | ⟨notL, oldL⟩
      · exact absurd rfl other
      · exact apart notL oldL x member
    · rcases lookup atL with ⟨rfl, rfl⟩ | ⟨notL, oldL⟩
      · exact fun shared => apart notJ oldJ x shared member
      · exact isolated.disjoint other oldJ oldL x member
  · intro j a found w member
    rcases lookup found with ⟨rfl, rfl⟩ | ⟨_, old⟩
    · rw [writes, mem_append] at member
      rw [holds]
      rcases member with earlier | now
      · exact mem_append_left _ (isolated.locked current w earlier)
      · exact mem_append_right _ (key_mem_claims now)
    · exact isolated.locked old w member
  · intro j a found
    rcases lookup found with ⟨rfl, rfl⟩ | ⟨_, old⟩
    · rw [writes, holds]
      exact covered_append new (isolated.covered current)
    · exact isolated.covered old
  · intro j a row found member
    rcases lookup found with ⟨rfl, rfl⟩ | ⟨_, old⟩
    · rw [writes, mem_append] at member
      rcases member with earlier | now
      · exact isolated.fresh current earlier
      · exact σ.fresh_of_applyWrites admitted now
    · exact isolated.fresh old member
  · intro j a found
    rcases lookup found with ⟨rfl, rfl⟩ | ⟨_, old⟩
    · rw [writes, σ.overlay_append, ← σ.overlay_of_applyWrites admitted]
      exact σ.unique_applyWrites (isolated.views current) admitted
    · exact isolated.views old

section

variable (isolated : Isolated σ c) (other : j ≠ i) (atI : c.active[i]? = some (some a))
  (atJ : c.active[j]? = some (some b))
include isolated other atI atJ

omit [DecidableEq Index] in
theorem Isolated.apart : ∀ w ∈ b.writes, ∀ v ∈ a.writes, σ.key v.row ≠ σ.key w.row := by
  intro w mine v yours same
  exact isolated.disjoint (Ne.symm other) atI atJ _ (isolated.locked atI v yours)
    (same ▸ isolated.locked atJ w mine)

omit [DecidableEq Index] in
/-- A row that transaction `j` has written is the same before and after transaction `i` commits. -/
theorem Isolated.get_committed {w : Write Row} (member : w ∈ b.writes) :
    σ.get (σ.overlay c.committed a.writes) (σ.key w.row) = σ.get c.committed (σ.key w.row) :=
  σ.get_overlay_other (isolated.apart other atI atJ w member)

omit [DecidableEq Index] in
theorem Isolated.views_commit :
    σ.Unique (σ.overlay (σ.overlay c.committed a.writes) b.writes) := by
  -- `k` is a row written by `j`, `l` one that `j` has not written
  have mixed : ∀ {k l : Key} {r q : Row} {ix : Index}, σ.written b.writes k = some r →
      σ.written b.writes l = none → σ.get (σ.overlay c.committed a.writes) l = some q →
      ix ∈ σ.index r → ix ∈ σ.index q → k = l := by
    intro k l r q ix own notOwn found inR inQ
    obtain ⟨w, member, rfl⟩ := σ.written_mem own
    have seen : σ.get (σ.overlay c.committed b.writes) k = some w.row := by
      rw [σ.get_overlay, own, Option.some_or]
    have old : ∀ {q'}, σ.get c.committed l = some q' → ix ∈ σ.index q' → k = l := by
      intro q' before entry
      refine isolated.views atJ seen ?_ inR entry
      rw [σ.get_overlay, notOwn, Option.none_or, before]
    have found' := found
    rw [σ.get_overlay, Option.or_eq_some_iff] at found'
    rcases found' with byI | ⟨_, before⟩
    · rcases isolated.covered atI l q ix byI inQ with holdsI | ⟨q', before, entry⟩
      · rcases isolated.covered atJ k w.row ix own inR with holdsJ | ⟨r', before, entry⟩
        · exact absurd holdsJ (isolated.disjoint (Ne.symm other) atI atJ _ holdsI)
        · have keyed := σ.key_of_written own
          have kept := isolated.get_committed other atI atJ member
          rw [keyed, before] at kept
          exact isolated.views atI kept found entry inQ
      · exact old before entry
    · exact old before inQ
  intro k l r q ix foundK foundL inR inQ
  rw [σ.get_overlay, Option.or_eq_some_iff] at foundK foundL
  rcases foundK with ownK | ⟨notK, oldK⟩
  · rcases foundL with ownL | ⟨notL, oldL⟩
    · refine isolated.views atJ (k := k) (l := l) ?_ ?_ inR inQ
      · rw [σ.get_overlay, ownK, Option.some_or]
      · rw [σ.get_overlay, ownL, Option.some_or]
    · exact mixed ownK notL oldL inR inQ
  · rcases foundL with ownL | ⟨notL, oldL⟩
    · exact (mixed ownL notK oldK inQ inR).symm
    · exact isolated.views atI oldK oldL inR inQ

end

omit [DecidableEq Index] in
theorem Isolated.commit (isolated : Isolated σ c) (atI : c.active[i]? = some (some a)) :
    Isolated σ ⟨σ.overlay c.committed a.writes, c.active.set i none⟩ where
  disjoint other atJ atL := isolated.disjoint other (getElem?_set_none atJ).2
    (getElem?_set_none atL).2
  locked current := isolated.locked (getElem?_set_none current).2
  covered := by
    intro j b found k row ix own entry
    obtain ⟨other, atJ⟩ := getElem?_set_none found
    rcases isolated.covered atJ k row ix own entry with holds | ⟨old, before, kept⟩
    · exact .inl holds
    · obtain ⟨w, member, rfl⟩ := σ.written_mem own
      have same := isolated.get_committed other atI atJ member
      rw [σ.key_of_written own] at same
      exact .inr ⟨old, same.trans before, kept⟩
  fresh := by
    intro j b row found member
    obtain ⟨other, atJ⟩ := getElem?_set_none found
    exact (isolated.get_committed other atI atJ member).trans (isolated.fresh atJ member)
  unique := isolated.views atI
  views := by
    intro j b found
    obtain ⟨other, atJ⟩ := getElem?_set_none found
    exact isolated.views_commit other atI atJ

theorem Isolated.step (isolated : Isolated σ c) (step : Step σ Begins c c') : Isolated σ c' := by
  cases step with
  | start t allowed => exact isolated.start t
  | stmt current written admitted granted => exact isolated.stmt current admitted granted rfl rfl
  | commit current deferred => exact isolated.commit current
  | abort i => exact isolated.abort i

/-- Started from a database without duplicates, every interleaving stays isolated. -/
theorem Reachable.isolated (start : σ.Unique db) (reached : Reachable σ Begins db c) :
    Isolated σ c := by
  induction reached with
  | start => exact ⟨by simp, by simp, by simp, by simp, start, by simp⟩
  | step _ step ih => exact ih.step step

/-- What every transaction begun emits, what is left of each active one still emits. -/
theorem Reachable.emits (begun : ∀ t, Begins t → t.Emits σ Q []) (reached : Reachable σ Begins db c)
    (current : c.active[i]? = some (some a)) : a.prog.Emits σ Q a.writes := by
  induction reached generalizing i a with
  | start => simp at current
  | @step c c' _ step ih =>
    cases step with
    | start t allowed =>
      rcases getElem?_append_some current with old | ⟨_, rfl⟩
      · exact ih old
      · exact begun t allowed
    | @stmt j s k ws held new seen here written admitted granted =>
      rcases getElem?_set_some here current with ⟨rfl, rfl⟩ | ⟨-, old⟩
      · exact ih here c.committed new seen written admitted
      · exact ih old
    | commit here deferred => exact ih (getElem?_set_none current).2
    | abort j => exact ih (getElem?_set_none current).2

/-- Rows in `C` that are committed are seen unchanged by every active transaction. -/
theorem Reachable.kept {C : Key → Prop} (start : σ.Unique db)
    (begun : ∀ t, Begins t → t.Preserves σ C) (reached : Reachable σ Begins db c)
    (current : c.active[i]? = some (some a)) :
    a.prog.Preserves σ C ∧ ∀ k old, C k → σ.get c.committed k = some old →
      σ.get (σ.overlay c.committed a.writes) k = some old := by
  induction reached generalizing i a with
  | start => simp at current
  | @step c c' reached step ih =>
    have isolated := reached.isolated start
    cases step with
    | start t allowed =>
      rcases getElem?_append_some current with old | ⟨_, rfl⟩
      · exact ih old
      · exact ⟨begun t allowed, fun _ _ _ found => found⟩
    | @stmt j s k ws held new seen here written admitted granted =>
      rcases getElem?_set_some here current with ⟨rfl, rfl⟩ | ⟨-, old⟩
      · obtain ⟨preserves, kept⟩ := ih here
        refine ⟨(preserves _).2, fun k old inC found => ?_⟩
        have seenBefore := kept k old inC found
        dsimp only at seenBefore ⊢
        rw [σ.overlay_append, σ.get_overlay]
        -- what the statement writes under `k` is what it saw there
        cases now : σ.written new k with
        | none => exact seenBefore
        | some row =>
          obtain ⟨w, member, rfl⟩ := σ.written_mem now
          have keyed := σ.key_of_written now
          have rewritten := (preserves (σ.overlay c.committed ws)).1 new seen written admitted w
            member (keyed ▸ inC) old (keyed ▸ seenBefore)
          simp [rewritten]
      · exact ih old
    | @commit j ws held here deferred =>
      obtain ⟨other, atI⟩ := getElem?_set_none current
      obtain ⟨preserves, kept⟩ := ih atI
      refine ⟨preserves, fun k old inC found => ?_⟩
      dsimp only at found ⊢
      rw [σ.get_overlay]
      cases mine : σ.written a.writes k with
      | none => simpa using found
      | some row =>
        obtain ⟨w, member, rfl⟩ := σ.written_mem mine
        have untouched := isolated.get_committed other here atI member
        rw [σ.key_of_written mine] at untouched
        have before := kept k old inC (untouched ▸ found)
        rw [σ.get_overlay, mine] at before
        exact before
    | abort j => exact ih (getElem?_set_none current).2

/-- The rule for invariants of the committed database. A commit lays the rows a transaction wrote
over the database: these are rows it can emit, the ones it inserted are new, and committed rows in
`C` stay as they are. -/
theorem Reachable.invariant {C : Key → Prop} {I : Db → Prop} (start : σ.Unique db)
    (preserve : ∀ t, Begins t → t.Preserves σ C) (emit : ∀ t, Begins t → t.Emits σ Q [])
    (base : I db) (commit : ∀ db ws, I db → Q ws () →
      (∀ row, .insert row ∈ ws → σ.get db (σ.key row) = none) →
      (∀ k old, C k → σ.get db k = some old → σ.get (σ.overlay db ws) k = some old) →
      I (σ.overlay db ws)) (reached : Reachable σ Begins db c) : I c.committed := by
  induction reached with
  | start => exact base
  | @step c c' reached step ih =>
    cases step with
    | start t allowed => exact ih
    | stmt current written admitted granted => exact ih
    | commit current deferred =>
      exact commit c.committed _ ih (reached.emits emit current)
        (fun row member => (reached.isolated start).fresh current member)
        (reached.kept start preserve current).2
    | abort i => exact ih

end ReadCommitted

end Foundation
