import Thirdshift.Foundation.ReadCommitted

/-!
# Reasoning about a transaction among others

Between two statements of a transaction others may commit. `Rely` says what they can do to the
committed database as long as the transaction has written some rows, `Tx.Guarded` that the
transaction ends well whenever the others keep to it, and `Serving.guarded` that all of them keep to
it when each one does.
-/

namespace Foundation

variable {Db Row Key Index Err : Type} {α β : Type} {σ : Schema Db Row Key Index Err}

/-- What the committed database can turn into while a transaction has written `ws`. -/
structure Rely (Db Row : Type) where
  allows : List (Write Row) → Db → Db → Prop
  refl : ∀ ws db, allows ws db db
  trans : ∀ {ws db₁ db₂ db₃}, allows ws db₁ db₂ → allows ws db₂ db₃ → allows ws db₁ db₃
  /-- The more is written, the less can change. -/
  shrink : ∀ {ws new db₁ db₂}, allows (ws ++ new) db₁ db₂ → allows ws db₁ db₂

namespace Tx

/-- What is left of a transaction that has written `ws`, with `db` committed, ends with writes that
satisfy `Q` over whatever is committed by then. -/
def Guarded (σ : Schema Db Row Key Index Err) (R : Rely Db Row)
    (Q : List (Write Row) → Db → α → Prop) : Tx Db Row Err α → List (Write Row) → Db → Prop
  | .done a, ws, db => ∀ later, R.allows ws db later → Q ws later a
  | .fail _, _, _ => True
  | .stmt s k, ws, db => ∀ later, R.allows ws db later → ∀ new seen,
      s (σ.overlay later ws) = .ok new → σ.applyWrites (σ.overlay later ws) new = some seen →
      Guarded σ R Q (k (σ.overlay later ws)) (ws ++ new) later

variable {R : Rely Db Row} {Q : List (Write Row) → Db → α → Prop}
  {P : List (Write Row) → Db → β → Prop} {t : Tx Db Row Err α} {f : α → Tx Db Row Err β}
  {ws : List (Write Row)} {db : Db}

theorem Guarded.later (guarded : Guarded σ R Q t ws db) {db' : Db} (allowed : R.allows ws db db') :
    Guarded σ R Q t ws db' := by
  cases t with
  | done a => exact fun later next => guarded later (R.trans allowed next)
  | fail e => trivial
  | stmt s k => exact fun later next => guarded later (R.trans allowed next)

theorem Guarded.bind (first : Guarded σ R Q t ws db)
    (rest : ∀ a ws db, Q ws db a → Guarded σ R P (f a) ws db) : Guarded σ R P (t >>= f) ws db := by
  induction t generalizing ws db with
  | done a => exact rest a ws db (first db (R.refl ws db))
  | fail e => trivial
  | stmt s k ih =>
    exact fun later allowed new seen ok admitted => ih _ (first later allowed new seen ok admitted)

theorem Guarded.mono {Q' : List (Write Row) → Db → α → Prop} (guarded : Guarded σ R Q t ws db)
    (weaker : ∀ ws db a, Q ws db a → Q' ws db a) : Guarded σ R Q' t ws db := by
  induction t generalizing ws db with
  | done a => exact fun later allowed => weaker ws later a (guarded later allowed)
  | fail e => trivial
  | stmt s k ih =>
    exact fun later allowed new seen ok admitted => ih _ (guarded later allowed new seen ok admitted)

theorem Guarded.map {g : α → β} (guarded : Guarded σ R (fun ws db a => P ws db (g a)) t ws db) :
    Guarded σ R P (t >>= fun a => pure (g a)) ws db := by
  induction t generalizing ws db with
  | done a => exact guarded
  | fail e => trivial
  | stmt s k ih =>
    exact fun later allowed new seen ok admitted => ih _ (guarded later allowed new seen ok admitted)

theorem guarded_select {q : Db → α} (next : ∀ later, R.allows ws db later →
    Guarded σ R P (f (q (σ.overlay later ws))) ws later) : Guarded σ R P (select q >>= f) ws db := by
  intro later allowed new seen ok admitted
  cases ok
  rw [List.append_nil]
  exact next later allowed

theorem guarded_write {rows : Db → List (Write Row)} {r : Db → α}
    (next : ∀ later, R.allows ws db later → ∀ seen,
      σ.applyWrites (σ.overlay later ws) (rows (σ.overlay later ws)) = some seen →
      Guarded σ R P (f (r (σ.overlay later ws))) (ws ++ rows (σ.overlay later ws)) later) :
    Guarded σ R P (write rows r >>= f) ws db := by
  intro later allowed new seen ok admitted
  cases ok
  exact next later allowed seen admitted

end Tx

/-! ### Runs that serve calls -/

namespace ReadCommitted

variable {Call : Type} [DecidableEq Key] [DecidableEq Index]

/-- The runs in which the transactions begun are those of a list of calls, in this order. -/
inductive Serving (σ : Schema Db Row Key Index Err) (program : Call → Tx Db Row Err Unit) (db : Db) :
    List Call → Shared Db Row Key Index Err → Prop
  | start : Serving σ program db [] ⟨db, []⟩
  | call {calls c} (reached : Serving σ program db calls c) (call : Call) :
      Serving σ program db (calls ++ [call])
        { c with active := c.active ++ [some ⟨program call, [], []⟩] }
  | step {calls c c'} (reached : Serving σ program db calls c)
      (step : ReadCommitted.Step σ (fun _ => False) c c') : Serving σ program db calls c'

variable {program : Call → Tx Db Row Err Unit} {db : Db} {calls : List Call}
  {c c' : Shared Db Row Key Index Err}

theorem Step.mono {Begins More : Tx Db Row Err Unit → Prop} (step : Step σ Begins c c')
    (all : ∀ t, Begins t → More t) : Step σ More c c' := by
  cases step with
  | start t allowed => exact .start t (all t allowed)
  | stmt current written admitted granted => exact .stmt current written admitted granted
  | commit current deferred => exact .commit current deferred
  | abort i => exact .abort i

section

variable (serving : Serving σ program db calls c)
include serving

theorem Serving.reachable : Reachable σ (fun t => ∃ call ∈ calls, t = program call) db c := by
  suffices general : ∀ more, Reachable σ (fun t => ∃ call ∈ calls ++ more, t = program call) db c by
    simpa using general []
  induction serving with
  | start => exact fun _ => .start
  | call reached call ih =>
    intro more
    refine .step (by simpa using ih ([call] ++ more)) (.start _ ⟨call, by simp, rfl⟩)
  | step reached step ih => exact fun more => .step (ih more) (step.mono fun _ => False.elim)

theorem Serving.length : c.active.length = calls.length := by
  induction serving with
  | start => rfl
  | call reached call ih => simp [ih]
  | step reached step ih => cases step <;> first | contradiction | simpa using ih

theorem Serving.advanceAll {order : List Nat}
    (advanced : ReadCommitted.advanceAll σ order c = some c') : Serving σ program db calls c' := by
  induction order generalizing c with
  | nil =>
    simp only [ReadCommitted.advanceAll, Option.some.injEq] at advanced
    exact advanced ▸ serving
  | cons i rest ih =>
    obtain ⟨mid, first, later⟩ := Option.bind_eq_some_iff.mp advanced
    exact ih (serving.step (step_of_advance first)) later

end

theorem Serving.begun (calls : List Call) : Serving σ program db calls
    ⟨db, calls.map fun call => some ⟨program call, [], []⟩⟩ := by
  induction calls using List.reverseRecOn with
  | nil => exact .start
  | append_singleton calls call ih => simpa using ih.call call

/-- Every transaction begun is guarded, and what it commits keeps the invariant and is what the
others rely on: then the invariant holds throughout, and every transaction under way is guarded. -/
theorem Serving.guarded {all : List Call} {I : Db → Prop} {R : Rely Db Row}
    {Q : Nat → List (Write Row) → Db → Unit → Prop} (unique : σ.Unique db) (base : I db)
    (begun : ∀ i call, all[i]? = some call → ∀ db, I db → (program call).Guarded σ R (Q i) [] db)
    (commit : ∀ i ws db, I db → σ.Unique db → Q i ws db () →
      σ.deferred (σ.overlay db ws) = true → I (σ.overlay db ws))
    (rely : ∀ i ws other db, I db → Q i ws db () → I (σ.overlay db ws) →
      (∀ w ∈ other, ∀ v ∈ ws, σ.key v.row ≠ σ.key w.row) → R.allows other db (σ.overlay db ws))
    (serving : Serving σ program db calls c) (known : calls <+: all) :
    I c.committed ∧ ∀ (i : Nat) (a : Active Db Row Key Index Err), c.active[i]? = some (some a) →
      a.prog.Guarded σ R (Q i) a.writes c.committed := by
  induction serving with
  | start => exact ⟨base, by simp⟩
  | @call calls c reached call ih =>
    obtain ⟨invariant, running⟩ := ih ((List.prefix_append calls [call]).trans known)
    refine ⟨invariant, fun i a current => ?_⟩
    -- the call that is begun now, or one that was there
    rcases getElem?_append_some current with old | ⟨same, rfl⟩
    · exact running i a old
    · rw [reached.length] at same
      refine begun i call ?_ c.committed invariant
      obtain ⟨rest, rfl⟩ := known
      simp [same]
  | @step calls c c' reached step ih =>
    obtain ⟨invariant, running⟩ := ih known
    have isolated := reached.reachable.isolated unique
    cases step with
    | start t allowed => exact absurd allowed id
    | @stmt j s k ws held new seen here written admitted granted =>
      refine ⟨invariant, fun i a current => ?_⟩
      rcases getElem?_set_some here current with ⟨rfl, rfl⟩ | ⟨-, old⟩
      · exact running _ _ here c.committed (R.refl _ _) new seen written admitted
      · exact running i a old
    | @commit j ws held here deferred =>
      -- the transaction that commits ends well, and the others have relied on no more than that
      have ended := running j _ here c.committed (R.refl _ _)
      have next := commit j ws c.committed invariant isolated.unique ended deferred
      refine ⟨next, fun i a current => ?_⟩
      obtain ⟨other, old⟩ := getElem?_set_none current
      exact (running i a old).later
        (rely j ws a.writes c.committed invariant ended next (isolated.apart other here old))
    | abort j =>
      refine ⟨invariant, fun i a current => ?_⟩
      exact running i a (getElem?_set_none current).2

end ReadCommitted

end Foundation
