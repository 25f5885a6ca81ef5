import Thirdshift.Ledger.OneCharge

/-!
# Charges along runs

In every run of the coordinator a job is charged exactly when `CompleteJob` has committed for it,
and results and postings are only ever added.
-/

namespace Thirdshift

open Foundation

def Accepted (db : Db) (jobID : JobID) : Prop := ∃ r ∈ db.results.rows, r.Accepts jobID

instance (r : JobResult) (jobID : JobID) : Decidable (r.Accepts jobID) :=
  inferInstanceAs (Decidable (_ ∧ _))

instance (db : Db) (jobID : JobID) : Decidable (Accepted db jobID) :=
  inferInstanceAs (Decidable (∃ r ∈ db.results.rows, r.Accepts jobID))

/-- A posted `job_acceptance` transaction of the job exists. -/
def Charging (db : Db) (jobID : JobID) : Prop := ∃ t ∈ db.transactions.rows, t.Charges jobID

instance (t : LedgerTransaction) (jobID : JobID) : Decidable (t.Charges jobID) :=
  inferInstanceAs (Decidable (_ ∧ _))

instance (db : Db) (jobID : JobID) : Decidable (Charging db jobID) :=
  inferInstanceAs (Decidable (∃ t ∈ db.transactions.rows, t.Charges jobID))

structure Books (db : Db) : Prop where
  unique : schema.Unique db
  charged : Charged db

theorem Books.charging_iff {db : Db} (books : Books db) {jobID : JobID} :
    Charging db jobID ↔ Accepted db jobID := by
  have one := oneCharge_of_charged books.unique books.charged jobID
  constructor
  · intro charging
    obtain ⟨t, r, h, job, charge⟩ := one.together (.inl charging)
    exact ⟨r, charge.result, charge.accepts, job⟩
  · intro accepted
    obtain ⟨t, r, h, job, charge⟩ := one.together (.inr (.inl accepted))
    exact ⟨t, charge.transaction, job ▸ charge.charges⟩

theorem Ev.writes {settings : Settings} {event : Ev} {call : StoreCall}
    (valid : event.Valid settings) (commits : event.commits = some call) :
    ∃ ws, event.after.db = schema.overlay event.before.db ws ∧ Posts ws call.completion ∧
      (∀ row, .insert row ∈ ws → schema.get event.before.db row.key = none) ∧
      ∀ (k : Key) old, k.table = .accounts → schema.get event.before.db k = some old →
        schema.get (schema.overlay event.before.db ws) k = some old := by
  obtain ⟨v, ran⟩ := exec_of_committed valid commits
  obtain ⟨ws, after, posts, fresh⟩ :=
    (emits_call event.input call).exec (by simp) (schema.overlay_nil event.before.db ▸ ran)
  refine ⟨ws, after, posts, fresh, fun k old account found => ?_⟩
  exact after ▸ (keepsAccounts_call event.input call).exec ran account found

section

variable {settings : Settings} {event : Ev}

section

variable (valid : event.Valid settings)
include valid

theorem Books.step (books : Books event.before.db) : Books event.after.db := by
  cases commits : event.commits with
  | none =>
    -- only the catalog can have changed, which the ledger does not read
    have same := db_of_uncommitted valid commits
    rw [same]
    refine ⟨books.unique, books.charged.transfer ?_ ?_ ?_ ?_ ?_⟩ <;> intros <;> first | rfl | assumption
  | some call =>
    obtain ⟨v, ran⟩ := exec_of_committed valid commits
    obtain ⟨ws, after, posts, fresh, kept⟩ := Ev.writes valid commits
    refine ⟨Tx.unique_exec books.unique ran, ?_⟩
    rw [after]
    exact charged_commit fresh kept posts.plain_or_posting books.charged

theorem Ev.results_after :
    ∃ new : Option JobResult, new.map (fun r => (r.jobID, r.attemptID)) = event.completes ∧
      (∀ r ∈ new, r.accepted = true) ∧
      ∀ r, r ∈ event.after.db.results.rows ↔ new = some r ∨ r ∈ event.before.db.results.rows := by
  cases commits : event.commits with
  | none =>
    refine ⟨none, by simp [Ev.completes, commits], by simp, fun r => ?_⟩
    rw [db_of_uncommitted valid commits]
    simp
  | some call =>
    obtain ⟨ws, after, posts, fresh, kept⟩ := Ev.writes valid commits
    have completes : event.completes = call.completion := by simp [Ev.completes, commits]
    rw [after, completes]
    exact results_commit fresh kept posts

theorem Ev.accepted_after {jobID : JobID} : Accepted event.after.db jobID ↔
      Accepted event.before.db jobID ∨ ∃ attemptID, event.completes = some (jobID, attemptID) := by
  obtain ⟨new, completes, accepted, after⟩ := Ev.results_after valid
  constructor
  · rintro ⟨r, member, accepts⟩
    rcases (after r).mp member with rfl | before
    · exact .inr ⟨r.attemptID, by rw [← completes, ← accepts.2]; rfl⟩
    · exact .inl ⟨r, before, accepts⟩
  · rintro (⟨r, member, accepts⟩ | ⟨attemptID, completed⟩)
    · exact ⟨r, (after r).mpr (.inr member), accepts⟩
    · obtain ⟨r, rfl, same⟩ := Option.map_eq_some_iff.mp (completes.trans completed)
      exact ⟨r, (after r).mpr (.inl rfl), accepted r rfl, congrArg Prod.fst same⟩

end

end

section

variable {settings : Settings} {catalog : Catalog} {nodes : Table Node.id} {ls : Trace}
  {c : Config steps State}

theorem books_of_run (run : Ran settings (boot catalog nodes) ls c) : Books c.state.db :=
  run.state_invariant (I := fun s => Books s.db) ⟨unique_boot catalog nodes, charged_boot catalog nodes⟩
    fun _ _ exec books => books.step exec

theorem accepted_iff_completed (run : Ran settings (boot catalog nodes) ls c)
    {jobID : JobID} : Accepted c.state.db jobID ↔ ∃ attemptID, Completed ls jobID attemptID := by
  refine run.invariant
    (I := fun ls s => Accepted s.db jobID ↔ ∃ attemptID, Completed ls jobID attemptID) ?_ ?_ ?_
  · simp [Accepted, Completed, boot, Config.boot]
  · intro past mid entry _ ih
    simpa [Completed] using ih
  · intro past event mid next _ step ih
    have valid : Ev.Valid settings event := step.exec
    rw [Ev.accepted_after valid, ih]
    simp [Completed, exists_or]

end

end Thirdshift
