import Thirdshift.Coordinator.Runs

/-!
# Reputation of a node

What the store writes to `node_reputation` when an attempt is counted. The number of timeouts is
kept only as a rate of four decimals and is recovered from it for the next attempt: up to ten
thousand attempts the rounding error stays below one half, and after that the count drifts.
-/

namespace Thirdshift

open Foundation List Table Tx NodeReputation Store

variable {nodeID : NodeID} {db db' : Db} {u : Unit} {total part : Int} {r : NodeReputation}

/-- The reputation of a node; a node without a row has that of a new one. -/
def Db.standing (db : Db) (nodeID : NodeID) : NodeReputation :=
  (db.reputation.find? nodeID).getD (newReputation nodeID)

namespace Store

section

variable {f : NodeReputation → NodeReputation}

theorem ensureReputation_ok (ok : Tx.exec schema (ensureReputation nodeID) db = .ok (u, db')) :
    db'.reputation.find? nodeID = some (db.standing nodeID) ∧
      ∀ n, db'.standing n = db.standing n := by
  obtain ⟨-, -, after⟩ := exec_write_ok ok
  cases found : db.reputation.find? nodeID with
  | some r =>
    rw [found] at after
    subst after
    exact ⟨found.trans (by rw [Db.standing, found]; rfl), fun n => rfl⟩
  | none =>
    rw [found] at after
    subst after
    have row : ∀ n, (db.reputation.put (newReputation nodeID)).find? n =
        if nodeID = n then some (newReputation nodeID) else db.reputation.find? n :=
      fun n => find?_put _ _ _
    constructor
    · rw [Db.standing, found]
      exact (row nodeID).trans (if_pos rfl)
    · intro n
      change ((db.reputation.put (newReputation nodeID)).find? n).getD _ = _
      rw [row]
      split
      next same =>
        subst same
        rw [Db.standing, found]
        rfl
      · rfl

theorem standing_updateReputationTx
    (ok : Tx.exec schema (updateReputationTx nodeID f) db = .ok (u, db')) (n : NodeID) :
    db'.standing n = if n = nodeID then { f (db.standing nodeID) with nodeID } else db.standing n := by
  obtain ⟨_, ensured, ensuring, rest⟩ := exec_bind_ok ok
  obtain ⟨row, others⟩ := ensureReputation_ok ensuring
  obtain ⟨found, _, locking, updating⟩ := exec_bind_ok rest
  obtain ⟨which, rfl⟩ := selectForUpdate_ok (fun r read => by
    have same : ensured.reputation.put r = ensured.reputation :=
      put_self (key_of_find? read ▸ read)
    simp [Db.put, same]) locking
  rw [row] at which
  subst which
  obtain ⟨_, _, written, done⟩ := exec_bind_ok updating
  obtain ⟨-, rfl⟩ := exec_done_ok done
  obtain ⟨-, -, after⟩ := exec_write_ok written
  rw [updated_key, row] at after
  subst after
  change ((Table.put _ _).find? n).getD _ = _
  rw [find?_put]
  by_cases here : n = nodeID
  · rw [if_pos here.symm, if_pos here]
    rfl
  · rw [if_neg (Ne.symm here), if_neg here]
    exact others n

end

theorem standing_updateAttemptReputationTx {accepted : Bool} {code : String}
    (ok : Tx.exec schema (updateAttemptReputationTx nodeID accepted code) db = .ok (u, db'))
    (n : NodeID) : db'.standing n =
      if n = nodeID then (db.standing nodeID).afterAttempt accepted code else db.standing n := by
  have own : (db.standing nodeID).nodeID = nodeID := by
    unfold Db.standing
    cases found : db.reputation.find? nodeID with
    | none => rfl
    | some r => exact key_of_find? found
  rw [standing_updateReputationTx ok n]
  split
  · cases standing : db.standing nodeID
    rw [standing] at own
    subst own
    rfl
  · rfl

end Store

/-! ### The timeout rate -/

structure AttemptOutcome where
  accepted : Bool
  code : String

def AttemptOutcome.timedOut (o : AttemptOutcome) : Bool := !o.accepted && o.code = codeJobTimeout

/-- The outcomes are counted one after the other, each in a transaction of its own. -/
def countOutcomes (nodeID : NodeID) : List AttemptOutcome → Db → Except GoError Db
  | [], db => .ok db
  | o :: rest, db =>
    match Tx.run schema (updateAttemptReputationTx nodeID o.accepted o.code) db with
    | .ok (_, db') => countOutcomes nodeID rest db'
    | .error e => .error e

/-- The count that the next update recovers: `math.Round(timeoutRate * previousAttempts)`. -/
def NodeReputation.recoveredTimeouts (r : NodeReputation) : Int :=
  (r.timeoutRate * r.attemptTotal * 2 + 10000) / 20000

/-- The counters of a node and its rates, as far as attempts determine them. -/
structure NodeReputation.Consistent (r : NodeReputation) : Prop where
  counters : r.totalAcceptedJobs + r.attemptFailed = r.attemptTotal
  accepted : 0 ≤ r.totalAcceptedJobs
  failed : 0 ≤ r.attemptFailed
  timeoutRate : 0 ≤ r.timeoutRate ∧ r.timeoutRate ≤ 10000
  successRate : 0 ≤ r.rollingSuccessRate ∧ r.rollingSuccessRate ≤ 10000

structure NodeReputation.Untried (r : NodeReputation) : Prop where
  consistent : r.Consistent
  total : r.attemptTotal = 0
  rate : r.timeoutRate = 0

theorem untried_newReputation (nodeID : NodeID) : (newReputation nodeID).Untried := by
  refine ⟨⟨rfl, ?_, ?_, ?_, ?_⟩, rfl, rfl⟩ <;> simp [newReputation]

theorem rate_bounds (part : Int) (some : 0 < total) :
    2 * total * rate part total ≤ part * 20000 + total ∧
      part * 20000 + total < 2 * total * rate part total + 2 * total := by
  unfold rate
  have split := Int.mul_ediv_add_emod (part * 20000 + total) (2 * total)
  have low := Int.emod_nonneg (part * 20000 + total) (b := 2 * total) (by omega)
  have high := Int.emod_lt_of_pos (part * 20000 + total) (b := 2 * total) (by omega)
  omega

theorem rate_range (some : 0 < total) (low : 0 ≤ part) (high : part ≤ total) :
    0 ≤ rate part total ∧ rate part total ≤ 10000 := by
  unfold rate
  constructor
  · exact Int.ediv_nonneg (by omega) (by omega)
  · apply Int.le_of_lt_add_one
    apply Int.ediv_lt_of_lt_mul (by omega)
    omega

theorem recovered_rate (some : 0 < total) (few : total ≤ 10000) :
    (rate part total * total * 2 + 10000) / 20000 = part := by
  obtain ⟨low, high⟩ := rate_bounds part some
  have product : rate part total * total * 2 = 2 * total * rate part total := by
    rw [Int.mul_assoc, Int.mul_comm total 2, Int.mul_comm]
  rw [product]
  by_cases last : total = 10000
  · -- Here the rate is the count itself.
    subst last
    omega
  · omega

section

variable {o : AttemptOutcome}

theorem NodeReputation.Consistent.after (consistent : r.Consistent) :
    (r.afterAttempt o.accepted o.code).Consistent := by
  obtain ⟨counters, accepted, failed, ⟨low, high⟩, -⟩ := consistent
  have more : 0 < r.attemptTotal + 1 := by omega
  have recovered : 0 ≤ (r.timeoutRate * r.attemptTotal * 2 + 10000) / 20000 ∧
      (r.timeoutRate * r.attemptTotal * 2 + 10000) / 20000 ≤ r.attemptTotal := by
    have product : 0 ≤ r.timeoutRate * r.attemptTotal := Int.mul_nonneg low (by omega)
    have bound : r.timeoutRate * r.attemptTotal ≤ 10000 * r.attemptTotal :=
      Int.mul_le_mul_of_nonneg_right high (by omega)
    omega
  refine ⟨?_, ?_, ?_, ?_, ?_⟩
  · cases accepted' : o.accepted <;> simp only [afterAttempt] <;> simp <;> omega
  · cases accepted' : o.accepted <;> simp only [afterAttempt] <;> simp <;> omega
  · cases accepted' : o.accepted <;> simp only [afterAttempt] <;> simp <;> omega
  · simp only [afterAttempt, more, ↓reduceIte]
    apply rate_range more
    · split <;> omega
    · split <;> omega
  · simp only [afterAttempt, more, ↓reduceIte]
    apply rate_range more
    · split <;> omega
    · split <;> omega

/-- The state after some outcomes: the counters fit them, and up to ten thousand of them the number
of timeouts can be read off the rate. -/
structure NodeReputation.Counted (r : NodeReputation) (outcomes : List AttemptOutcome) : Prop where
  consistent : r.Consistent
  total : r.attemptTotal = outcomes.length
  recovered : outcomes.length ≤ 10000 →
    r.recoveredTimeouts = outcomes.countP AttemptOutcome.timedOut

theorem NodeReputation.Counted.after {outcomes : List AttemptOutcome}
    (counted : r.Counted outcomes) :
    (r.afterAttempt o.accepted o.code).Counted (outcomes ++ [o]) where
  consistent := counted.consistent.after
  total := by simp [afterAttempt, counted.total]
  recovered few := by
    rw [length_append, length_singleton] at few
    have more : 0 < r.attemptTotal + 1 := by rw [counted.total]; omega
    have earlier := counted.recovered (by omega)
    unfold recoveredTimeouts at earlier ⊢
    simp only [afterAttempt, more, ↓reduceIte]
    rw [recovered_rate more (by rw [counted.total]; omega), earlier, countP_append,
      countP_singleton]
    change _ + (if o.timedOut = true then (1 : Int) else 0) = _
    split <;> simp

theorem counted_of_countOutcomes {past rest : List AttemptOutcome}
    (counted : (db.standing nodeID).Counted past)
    (applied : countOutcomes nodeID rest db = .ok db') :
    (db'.standing nodeID).Counted (past ++ rest) := by
  induction rest generalizing past db with
  | nil =>
    cases applied
    rwa [append_nil]
  | cons o rest ih =>
    unfold countOutcomes at applied
    split at applied
    next u mid ran =>
      have row := standing_updateAttemptReputationTx (run_ok ran).1 nodeID
      rw [if_pos rfl] at row
      have here : (mid.standing nodeID).Counted (past ++ [o]) := by
        rw [row]
        exact counted.after
      rw [← singleton_append, ← append_assoc]
      exact ih here applied
    · cases applied

end

/-- Rates stay within bounds and counters fit for every sequence of outcomes; the number of timeouts
is recovered exactly as long as there are at most ten thousand. -/
theorem timeout_rate_faithful {nodeID : NodeID} {outcomes : List AttemptOutcome} {db db' : Db}
    (untried : (db.standing nodeID).Untried)
    (applied : countOutcomes nodeID outcomes db = .ok db') :
    (outcomes.length ≤ 10000 → (db'.standing nodeID).recoveredTimeouts =
      outcomes.countP AttemptOutcome.timedOut) ∧ (db'.standing nodeID).Consistent := by
  have start : (db.standing nodeID).Counted [] :=
    ⟨untried.consistent, untried.total, fun _ => by
      simp [recoveredTimeouts, untried.rate]⟩
  have counted := counted_of_countOutcomes start applied
  exact ⟨counted.recovered, counted.consistent⟩

namespace Deployment

def reputed (r : NodeReputation) : Db :=
  { start.db with reputation := Table.empty.put { r with nodeID := "n1" } }

def untouched (r : NodeReputation) : Prop :=
  r.duplicateDisagreementRate = 0 ∧ r.challengePassRate = 10000

theorem counts_outcome (o : AttemptOutcome) (consistent : r.Consistent) (others : untouched r) :
    Tx.run schema (updateAttemptReputationTx "n1" o.accepted o.code) (reputed r) =
      .ok ((), reputed (r.afterAttempt o.accepted o.code)) := by
  have node : Db.hasNode start.db "n1" = true := by decide
  have admits : ∀ q q' : NodeReputation, q.Consistent → untouched q →
      schema.admits (reputed q') (.update (.reputation { q with nodeID := "n1" })) = true := by
    intro q q' holds other
    have known : Db.hasNode (reputed q') "n1" = true := node
    simp [Schema.admits, schema, Db.clashes, Row.index, Db.valid, known, isRate, holds.timeoutRate,
      holds.successRate, other.1, other.2]
  have found : ∀ q, (reputed q).reputation.find? "n1" = some { q with nodeID := "n1" } := fun q =>
    find?_put_self _ _
  have first := admits r r consistent others
  have second := admits (r.afterAttempt o.accepted o.code) r consistent.after others
  have ensured : Tx.exec schema (ensureReputation "n1") (reputed r) = .ok ((), reputed r) := by
    simp [ensureReputation, Tx.write, Tx.exec, found, Schema.applyWrites]
  have locked : Tx.exec schema (selectForUpdate (fun db => db.reputation.find? "n1") .reputation)
      (reputed r) = .ok (some { r with nodeID := "n1" }, reputed r) := by
    simp only [selectForUpdate, Tx.write, Tx.exec, found, Option.map_some, Option.toList_some,
      Schema.applyWrites, first]
    rfl
  have updated : ∀ g : NodeReputation → NodeReputation, g { r with nodeID := "n1" } =
      { r.afterAttempt o.accepted o.code with nodeID := "n1" } →
      Tx.exec schema (updateReputation (fun r => r.nodeID = "n1") g) (reputed r) =
        .ok (1, reputed (r.afterAttempt o.accepted o.code)) := by
    intro g same
    have rows : ((reputed r).reputation.updated (fun r => r.nodeID = "n1") g) =
        [{ r.afterAttempt o.accepted o.code with nodeID := "n1" }] := by
      rw [← same]
      rfl
    simp only [updateReputation, updateRows, Tx.write, Tx.exec, rows, map_singleton,
      Schema.applyWrites, second]
    rfl
  have whole : Tx.exec schema (updateAttemptReputationTx "n1" o.accepted o.code) (reputed r) =
      .ok ((), reputed (r.afterAttempt o.accepted o.code)) := by
    unfold updateAttemptReputationTx updateReputationTx
    rw [exec_bind, ensured]
    dsimp only
    rw [exec_bind, locked]
    dsimp only
    rw [exec_bind, updated _ rfl]
    rfl
  rw [Tx.run, whole]
  rfl

theorem counts_outcomes (outcomes : List AttemptOutcome)
    (consistent : r.Consistent) (others : untouched r) : countOutcomes "n1" outcomes (reputed r) =
      .ok (reputed (outcomes.foldl (fun r o => r.afterAttempt o.accepted o.code) r)) := by
  induction outcomes generalizing r with
  | nil => rfl
  | cons o rest ih =>
    rw [countOutcomes, counts_outcome o consistent others]
    exact ih consistent.after others

theorem untried_reputed : ((reputed (newReputation "n1")).standing "n1").Untried :=
  untried_newReputation "n1"

def mixed (timeouts accepted : Nat) : List AttemptOutcome :=
  List.replicate timeouts ⟨false, codeJobTimeout⟩ ++ List.replicate accepted ⟨true, ""⟩

theorem length_mixed (timeouts accepted : Nat) :
    (mixed timeouts accepted).length = timeouts + accepted := by
  simp [mixed]

theorem timeouts_mixed (timeouts accepted : Nat) :
    (mixed timeouts accepted).countP AttemptOutcome.timedOut = timeouts := by
  simp [mixed, countP_replicate, AttemptOutcome.timedOut]

theorem drift {timeouts accepted : Nat} (all : timeouts + accepted = 10000)
    (half : timeouts = 5000) : ∃ db', countOutcomes "n1" (mixed timeouts (accepted + 1))
      (reputed (newReputation "n1")) = .ok db' ∧ (db'.standing "n1").recoveredTimeouts = 5001 := by
  have fresh := (untried_newReputation "n1").consistent
  have start : ((reputed (newReputation "n1")).standing "n1").Counted [] :=
    ⟨fresh, rfl, fun _ => rfl⟩
  have before := counted_of_countOutcomes start
    (counts_outcomes (mixed timeouts accepted) fresh ⟨rfl, rfl⟩)
  refine ⟨_, counts_outcomes _ fresh ⟨rfl, rfl⟩, ?_⟩
  rw [mixed, replicate_succ', ← append_assoc, foldl_append]
  change (Db.standing (reputed (afterAttempt
    (List.foldl _ _ (mixed timeouts accepted)) true "")) "n1").recoveredTimeouts = 5001
  generalize List.foldl _ _ (mixed timeouts accepted) = r at before ⊢
  have total : r.attemptTotal = 10000 := before.total.trans (by
    rw [nil_append, length_mixed, all]
    rfl)
  have rate : r.timeoutRate = 5000 := by
    have recovered : (r.timeoutRate * r.attemptTotal * 2 + 10000) / 20000 = _ :=
      before.recovered (by rw [nil_append, length_mixed, all])
    rw [nil_append, timeouts_mixed, total, half] at recovered
    omega
  change (r.afterAttempt true "").recoveredTimeouts = 5001
  simp only [recoveredTimeouts, afterAttempt, total, rate]
  decide

end Deployment

open Deployment in
theorem timeout_rate_faithful_twice : ∃ db db' : Db, (db.standing "n1").Untried ∧
    countOutcomes "n1" [⟨false, codeJobTimeout⟩, ⟨true, ""⟩] db = .ok db' ∧
    (db'.standing "n1").recoveredTimeouts = 1 ∧ (db'.standing "n1").Consistent := by
  have applied := counts_outcomes [⟨false, codeJobTimeout⟩, ⟨true, ""⟩]
    (untried_newReputation "n1").consistent ⟨rfl, rfl⟩
  obtain ⟨recovered, consistent⟩ := timeout_rate_faithful untried_reputed applied
  exact ⟨_, _, untried_reputed, applied, recovered (by decide), consistent⟩

open Deployment in
/-- The rate 0.5000 of 10001 attempts is read as 5001 timeouts, of which there were 5000. -/
theorem timeout_count_drifts : ∃ db db' : Db, (db.standing "n1").Untried ∧
    countOutcomes "n1" (mixed 5000 5001) db = .ok db' ∧
    (mixed 5000 5001).countP AttemptOutcome.timedOut = 5000 ∧
    (db'.standing "n1").recoveredTimeouts = 5001 := by
  obtain ⟨db', applied, recovered⟩ := @drift 5000 5000 rfl rfl
  exact ⟨_, db', untried_reputed, applied, timeouts_mixed 5000 5001, recovered⟩

end Thirdshift
