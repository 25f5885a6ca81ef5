import Mathlib.Data.List.Pairwise
import Thirdshift.Foundation.RelyGuarantee

/-!
# How the calls of a run end

A run of transactions changes the committed database when one of them commits and at no other time.
`Logged` keeps how the calls have ended, in order, each with the database before and after its end.
A call whose transaction is rolled back returns an error.
-/

namespace Foundation.ReadCommitted

open List

variable {Db Row Key Index Err Call : Type}

structure Ending (Db : Type) where
  call : Nat
  error : Bool
  before : Db
  after : Db

/-- Each end of a call starts from what the one before it has left. -/
def Chain : Db → List (Ending Db) → Db → Prop
  | db, [], last => last = db
  | db, e :: rest, last => e.before = db ∧ Chain e.after rest last

section

variable {db last : Db} {log : List (Ending Db)} {P : Db → Prop}

theorem Chain.snoc {e : Ending Db} (chain : Chain db log e.before) :
    Chain db (log ++ [e]) e.after := by
  induction log generalizing db with
  | nil => exact ⟨chain, rfl⟩
  | cons first rest ih => exact ⟨chain.1, ih chain.2⟩

theorem Chain.before (chain : Chain db log last) (base : P db)
    (kept : ∀ e ∈ log, P e.before → P e.after) : ∀ e ∈ log, P e.before := by
  induction log generalizing db with
  | nil => exact fun _ none => nomatch none
  | cons first rest ih =>
    obtain ⟨here, later⟩ := chain
    have held : P first.before := here ▸ base
    intro e member
    rcases mem_cons.mp member with rfl | inside
    · exact held
    · exact ih later (kept first mem_cons_self held)
        (fun f among => kept f (mem_cons_of_mem _ among)) e inside

theorem Chain.pairwise (chain : Chain db log last) (kept : ∀ e ∈ log, P e.before → P e.after) :
    log.Pairwise fun e f => P e.after → P f.before := by
  induction log generalizing db with
  | nil => exact .nil
  | cons first rest ih =>
    have keptLater : ∀ e ∈ rest, P e.before → P e.after :=
      fun e among => kept e (mem_cons_of_mem _ among)
    refine pairwise_cons.mpr ⟨fun f among held => ?_, ih chain.2 keptLater⟩
    exact chain.2.before held keptLater f among

/-- What does not hold at the start and holds before an end, an earlier one has established. -/
theorem Chain.established (chain : Chain db log last) {e : Ending Db} (member : e ∈ log)
    (held : P e.before) (absent : ¬P db) : ∃ f ∈ log, ¬P f.before ∧ P f.after := by
  by_contra never
  refine chain.before (P := fun db => ¬P db) absent (fun f among before after => ?_) e member held
  exact never ⟨f, among, before, after⟩

end

/-- The rows that a transaction has written stay as they are underneath, because it holds them. -/
def lockedRows (σ : Schema Db Row Key Index Err) : Rely Db Row where
  allows ws db later := ∀ w ∈ ws, σ.get later (σ.key w.row) = σ.get db (σ.key w.row)
  refl _ _ _ _ := rfl
  trans first second w member := (second w member).trans (first w member)
  shrink all w member := all w (List.mem_append_left _ member)

variable [DecidableEq Key] [DecidableEq Index]

omit [DecidableEq Index] in
theorem lockedRows_overlay {σ : Schema Db Row Key Index Err} {ws other : List (Write Row)} {db : Db}
    (apart : ∀ w ∈ other, ∀ v ∈ ws, σ.key v.row ≠ σ.key w.row) :
    (lockedRows σ).allows other db (σ.overlay db ws) :=
  fun w member => σ.get_overlay_other (apart w member)

/-- The runs that serve a list of calls, with those that have ended so far. -/
inductive Logged (σ : Schema Db Row Key Index Err) (program : Call → Tx Db Row Err Unit) (db : Db) :
    List Call → List (Ending Db) → Shared Db Row Key Index Err → Prop
  | start : Logged σ program db [] [] ⟨db, []⟩
  | call {calls log c} (reached : Logged σ program db calls log c) (call : Call) :
      Logged σ program db (calls ++ [call]) log
        { c with active := c.active ++ [some ⟨program call, [], []⟩] }
  | stmt {calls log c} {i : Nat} {s k ws held new seen} (reached : Logged σ program db calls log c)
      (current : c.active[i]? = some (some ⟨.stmt s k, ws, held⟩))
      (written : s (σ.overlay c.committed ws) = .ok new)
      (admitted : σ.applyWrites (σ.overlay c.committed ws) new = some seen)
      (granted : c.blocked i (σ.claims (σ.overlay c.committed ws) new) = false) :
      Logged σ program db calls log
        { c with active := c.active.set i (some ⟨k (σ.overlay c.committed ws), ws ++ new,
          held ++ σ.claims (σ.overlay c.committed ws) new⟩) }
  | commit {calls log c} {i : Nat} {ws held} (reached : Logged σ program db calls log c)
      (current : c.active[i]? = some (some ⟨.done (), ws, held⟩))
      (deferred : σ.deferred (σ.overlay c.committed ws) = true) :
      Logged σ program db calls (log ++ [⟨i, false, c.committed, σ.overlay c.committed ws⟩])
        ⟨σ.overlay c.committed ws, c.active.set i none⟩
  | abort {calls log c} {i : Nat} {a} (reached : Logged σ program db calls log c)
      (current : c.active[i]? = some (some a)) :
      Logged σ program db calls (log ++ [⟨i, true, c.committed, c.committed⟩])
        { c with active := c.active.set i none }

variable {σ : Schema Db Row Key Index Err} {program : Call → Tx Db Row Err Unit} {db : Db}
  {calls : List Call} {log : List (Ending Db)} {c c' : Shared Db Row Key Index Err}

theorem Logged.serving (run : Logged σ program db calls log c) : Serving σ program db calls c := by
  induction run with
  | start => exact .start
  | call _ call ih => exact ih.call call
  | stmt _ current written admitted granted ih =>
    exact ih.step (.stmt current written admitted granted)
  | commit _ current deferred ih => exact ih.step (.commit current deferred)
  | @abort _ _ _ i _ _ _ ih => exact ih.step (.abort i)

theorem Serving.logged (serving : Serving σ program db calls c) :
    ∃ log, Logged σ program db calls log c := by
  induction serving with
  | start => exact ⟨[], .start⟩
  | call _ call ih =>
    obtain ⟨log, run⟩ := ih
    exact ⟨log, run.call call⟩
  | @step _ c _ _ step ih =>
    obtain ⟨log, run⟩ := ih
    cases step with
    | start t allowed => exact absurd allowed id
    | stmt current written admitted granted =>
      exact ⟨log, run.stmt current written admitted granted⟩
    | commit current deferred => exact ⟨_, run.commit current deferred⟩
    | abort i =>
      cases current : c.active[i]? with
      | none => exact ⟨log, by rwa [set_eq_of_length_le (getElem?_eq_none_iff.mp current)]⟩
      | some ended =>
        cases ended with
        | some a => exact ⟨_, run.abort current⟩
        | none =>
          -- a call that has ended already ends no other time
          have same : c.active.set i none = c.active := by
            obtain ⟨inside, here⟩ := List.getElem?_eq_some_iff.mp current
            rw [← here, set_getElem_self inside]
          exact ⟨log, by rwa [same]⟩

theorem Logged.chain (run : Logged σ program db calls log c) : Chain db log c.committed := by
  induction run with
  | start => rfl
  | call _ _ ih | stmt _ _ _ _ _ ih => exact ih
  | commit _ _ _ ih | abort _ _ ih => exact ih.snoc

omit [DecidableEq Key] [DecidableEq Index] in
theorem ended_set {active : List (Option (Active Db Row Key Index Err))} {i j : Nat}
    {a : Active Db Row Key Index Err} {next : Option (Active Db Row Key Index Err)}
    (current : active[i]? = some (some a)) (ended : active[j]? = some none) :
    (active.set i next)[j]? = some none := by
  have other : i ≠ j := by
    rintro rfl
    cases current.symm.trans ended
  rw [getElem?_set_ne other]
  exact ended

theorem Logged.ended (run : Logged σ program db calls log c) :
    ∀ e ∈ log, c.active[e.call]? = some none := by
  induction run with
  | start => exact fun _ none => nomatch none
  | call _ call ih =>
    intro e member
    have ended := ih e member
    rw [List.getElem?_append_left (List.getElem?_eq_some_iff.mp ended).1]
    exact ended
  | stmt _ current _ _ _ ih => exact fun e member => ended_set current (ih e member)
  | commit _ current _ ih | abort _ current ih =>
    intro e member
    rcases mem_append.mp member with old | new
    · exact ended_set current (ih e old)
    · rw [mem_singleton.mp new]
      exact List.getElem?_set_self (List.getElem?_eq_some_iff.mp current).1

/-- Every call that has ended is in the log. -/
theorem Logged.recorded (run : Logged σ program db calls log c) {j : Nat}
    (ended : c.active[j]? = some none) : ∃ e ∈ log, e.call = j := by
  induction run with
  | start => cases ended
  | @call _ _ c _ call ih =>
    rcases Nat.lt_or_ge j c.active.length with old | new
    · exact ih (by rwa [List.getElem?_append_left old] at ended)
    · rw [List.getElem?_append_right new] at ended
      cases mem_singleton.mp (mem_of_getElem? ended)
  | @stmt _ _ c i _ _ _ _ _ _ _ current _ _ _ ih =>
    by_cases here : i = j
    · subst here
      rw [List.getElem?_set_self (List.getElem?_eq_some_iff.mp current).1] at ended
      cases ended
    · rw [getElem?_set_ne here] at ended
      exact ih ended
  | @commit _ _ _ i _ _ _ _ _ ih | @abort _ _ _ i _ _ _ ih =>
    by_cases here : i = j
    · exact ⟨_, mem_concat_self, here⟩
    · rw [getElem?_set_ne here] at ended
      obtain ⟨e, member, same⟩ := ih ended
      exact ⟨e, mem_append_left _ member, same⟩

theorem Logged.unchanged (run : Logged σ program db calls log c) :
    ∀ e ∈ log, e.error = true → e.after = e.before := by
  induction run with
  | start => exact fun _ none => nomatch none
  | call _ _ ih | stmt _ _ _ _ _ ih => exact ih
  | commit _ _ _ ih =>
    intro e member failed
    rcases mem_append.mp member with old | new
    · exact ih e old failed
    · cases mem_singleton.mp new
      cases failed
  | abort _ _ ih =>
    intro e member failed
    rcases mem_append.mp member with old | new
    · exact ih e old failed
    · rw [mem_singleton.mp new]

theorem Logged.nodup (run : Logged σ program db calls log c) : (log.map Ending.call).Nodup := by
  induction run with
  | start => exact nodup_nil
  | call _ _ ih | stmt _ _ _ _ _ ih => exact ih
  | commit reached current _ ih | abort reached current ih =>
    rw [map_append, nodup_append]
    refine ⟨ih, nodup_singleton _, ?_⟩
    intro i earlier j here same
    obtain ⟨e, member, rfl⟩ := mem_map.mp earlier
    cases mem_singleton.mp here
    cases current.symm.trans (same ▸ reached.ended e member)

/-- Where every transaction under way is guarded, every call that ends without an error writes what it
may, of rows that are new where it inserts them. -/
theorem Logged.commits {all : List Call} {R : Rely Db Row}
    {Q : Nat → List (Write Row) → Db → Unit → Prop} (unique : σ.Unique db)
    (guarded : ∀ calls c, Serving σ program db calls c → calls <+: all →
      ∀ (i : Nat) (a : Active Db Row Key Index Err), c.active[i]? = some (some a) →
        a.prog.Guarded σ R (Q i) a.writes c.committed)
    (run : Logged σ program db calls log c) (known : calls <+: all) :
    ∀ e ∈ log, e.error = false → e.call < calls.length ∧ ∃ ws, Q e.call ws e.before () ∧
      e.after = σ.overlay e.before ws ∧ σ.Unique e.before ∧
      ∀ row, .insert row ∈ ws → σ.get e.before (σ.key row) = none := by
  induction run with
  | start => exact fun _ none => nomatch none
  | @call calls log c _ call ih =>
    intro e member committed
    obtain ⟨early, rest⟩ := ih ((prefix_append calls [call]).trans known) e member committed
    exact ⟨by simp only [length_append]; omega, rest⟩
  | stmt _ _ _ _ _ ih => exact ih known
  | abort _ _ ih =>
    intro e member committed
    rcases mem_append.mp member with old | new
    · exact ih known e old committed
    · cases mem_singleton.mp new
      cases committed
  | @commit calls log c i ws held reached current deferred ih =>
    intro e member committed
    rcases mem_append.mp member with old | new
    · exact ih known e old committed
    · cases mem_singleton.mp new
      have running := guarded _ _ reached.serving known
      have isolated := reached.serving.reachable.isolated unique
      have inside := (List.getElem?_eq_some_iff.mp current).1
      rw [reached.serving.length] at inside
      exact ⟨inside, ws, running i _ current c.committed (R.refl _ _), rfl, isolated.unique,
        fun row => isolated.fresh current⟩

end Foundation.ReadCommitted
