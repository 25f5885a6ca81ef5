import Thirdshift.Reputation.Rates
import Thirdshift.Registration.Calls

/-!
# Quarantine by challenges

A failed challenge that is not the first of the node quarantines it once its failures reach the
threshold. The count that has to exceed one is that of the challenges, not that of the failures:
with a threshold of one a node that has passed before is quarantined at its first failure.
-/

namespace Thirdshift

open Foundation List Table Tx Option NodeReputation

def NodeReputation.reaches (r : NodeReputation) (failure : Bool) (threshold : Int) : Bool :=
  failure && 1 < (r.afterChallenge failure).challengeTotal &&
    threshold ≤ (r.afterChallenge failure).challengeFailed

def Db.quarantinedSince (db : Db) (nodeID : NodeID) : Option Time :=
  (db.nodes.find? nodeID).bind Node.quarantinedAt

def Node.quarantinedBy (nodeID : NodeID) (now : Time) : Node → Node :=
  Table.updateWhere (fun n => n.id = nodeID)
    fun n => { n with quarantinedAt := some (n.quarantinedAt.getD now) }

/-- A call of `RecordChallengeOutcome`. -/
structure Challenge where
  ids : Nat → String
  outcome : Store.ChallengeOutcome
  failureThreshold : Int

namespace Challenge

def limit (c : Challenge) : Int := if c.failureThreshold ≤ 0 then 3 else c.failureThreshold

def fails (c : Challenge) : Bool := !c.outcome.passed

def tx (c : Challenge) : SqlTx Unit :=
  Store.recordChallengeOutcome c.ids c.outcome c.failureThreshold

def Records (nodeID : NodeID) (c : Challenge) (db db' : Db) : Prop :=
  c.outcome.nodeID = nodeID ∧ Tx.run schema c.tx db = .ok ((), db')

def quarantines (c : Challenge) (db : Db) : Bool :=
  (db.standing c.outcome.nodeID).reaches c.fails c.limit

end Challenge

inductive Challenges (nodeID : NodeID) (db : Db) : List Challenge → Db → Prop
  | nil : Challenges nodeID db [] db
  | snoc {past : List Challenge} {c : Challenge} {mid db' : Db}
      (earlier : Challenges nodeID db past mid) (records : c.Records nodeID mid db') :
      Challenges nodeID db (past ++ [c]) db'

def failures (cs : List Challenge) : Nat := cs.countP Challenge.fails

section

variable {nodeID : NodeID} {failure q : Bool} {threshold : Int} {now : Time} {db db' : Db}

theorem Store.updateChallengeReputationTx_ok
    (ok : Tx.exec schema (updateChallengeReputationTx nodeID failure threshold now) db =
      .ok (q, db')) :
    q = (db.standing nodeID).reaches failure threshold ∧
      db'.standing nodeID = { (db.standing nodeID).afterChallenge failure with
        quarantinedAt := if q then some now else (db.standing nodeID).quarantinedAt } ∧
      db'.nodes.find? nodeID =
        (db.nodes.find? nodeID).map (if q then Node.quarantinedBy nodeID now else id) := by
  obtain ⟨_, ensured, ensuring, rest⟩ := exec_bind_ok ok
  obtain ⟨row, -⟩ := ensureReputation_ok ensuring
  have nodes : ensured.nodes = db.nodes :=
    (writesTo_ensureReputation nodeID).nodes (by decide) ensuring
  obtain ⟨found, _, locking, updating⟩ := exec_bind_ok rest
  obtain ⟨which, rfl⟩ := selectForUpdate_ok (fun r read => by
    have same : ensured.reputation.put r = ensured.reputation :=
      put_self (key_of_find? read ▸ read)
    simp [Db.put, same]) locking
  rw [row] at which
  subst which
  obtain ⟨_, counted, written, deciding⟩ := exec_bind_ok updating
  have kept : counted.nodes = db.nodes :=
    ((writesTo_updateReputation (mem_singleton.mpr rfl)).nodes (by decide) written).trans nodes
  obtain ⟨-, -, after⟩ := exec_write_ok written
  rw [updated_key, row] at after
  have standing : counted.standing nodeID = { (db.standing nodeID).afterChallenge failure with
      quarantinedAt := if (db.standing nodeID).reaches failure threshold then some now
        else (db.standing nodeID).quarantinedAt } := by
    subst after
    change ((Table.put _ _).find? nodeID).getD _ = _
    rw [find?_put, if_pos (show (db.standing nodeID).nodeID = nodeID from
      key_of_find? row)]
    rfl
  change Tx.exec schema (if (db.standing nodeID).reaches failure threshold then _ else _) counted = _
    at deciding
  split at deciding
  next reached =>
    obtain ⟨_, _, marked, done⟩ := exec_bind_ok deciding
    obtain ⟨rfl, rfl⟩ := exec_done_ok done
    refine ⟨reached.symm, ?_, ?_⟩
    · rw [reached] at standing
      rw [Db.standing, (writesTo_updateNodes (mem_singleton.mpr rfl)).reputation (by decide)
        marked]
      exact standing
    · rw [maps_updateNodes (f := fun n => { n with quarantinedAt := some (n.quarantinedAt.getD now) })
        (fun _ _ => rfl) _ _ _ marked nodeID, kept]
      rfl
  next short =>
    obtain ⟨rfl, rfl⟩ := exec_done_ok deciding
    rw [Bool.not_eq_true] at short
    rw [short] at standing
    exact ⟨short.symm, standing, by rw [kept]; simp⟩

variable {c : Challenge}

theorem Challenge.Records.effect (records : c.Records nodeID db db') :
    db'.standing nodeID = { (db.standing nodeID).afterChallenge c.fails with
        quarantinedAt := if c.quarantines db then some c.outcome.occurredAt
          else (db.standing nodeID).quarantinedAt } ∧
      db'.nodes.find? nodeID = (db.nodes.find? nodeID).map
        (if c.quarantines db then Node.quarantinedBy nodeID c.outcome.occurredAt else id) := by
  obtain ⟨rfl, ok⟩ := records
  obtain ⟨_, noted, inserted, rest⟩ := exec_bind_ok (run_ok ok).1
  obtain ⟨q, updated, updating, closing⟩ := exec_bind_ok rest
  obtain ⟨which, standing, nodes⟩ := Store.updateChallengeReputationTx_ok updating
  have event {d d' : Db} {u : Unit} {e : VerificationEvent}
      (ok : Tx.exec schema (insertRow (.event e)) d = .ok (u, d')) :
      d'.standing = d.standing ∧ d'.nodes = d.nodes := by
    have writes : WritesTo [.events] (insertRow (.event e)) :=
      writesTo_insertRow (mem_singleton.mpr rfl)
    exact ⟨by unfold Db.standing; rw [writes.reputation (by decide) ok], writes.nodes (by decide) ok⟩
  have last : db'.standing = updated.standing ∧ db'.nodes = updated.nodes := by
    cases q with
    | true => exact event closing
    | false =>
      obtain ⟨-, rfl⟩ := exec_done_ok closing
      exact ⟨rfl, rfl⟩
  rw [(event inserted).1] at standing which
  rw [last.1, last.2, standing, nodes, (event inserted).2, which]
  exact ⟨rfl, rfl⟩

theorem Challenge.Records.since (records : c.Records nodeID db db') {t : Time}
    (since : db.quarantinedSince nodeID = some t) : db'.quarantinedSince nodeID = some t := by
  obtain ⟨n, found, quarantined⟩ := bind_eq_some_iff.mp since
  rw [Db.quarantinedSince, records.effect.2, found]
  split
  · have own : n.id = nodeID := key_of_find? found
    simp [Node.quarantinedBy, Table.updateWhere, own, quarantined]
  · exact quarantined

variable {past rest : List Challenge} {start mid last : Db}

theorem Challenges.since (later : Challenges nodeID db rest last) {t : Time}
    (since : db.quarantinedSince nodeID = some t) : last.quarantinedSince nodeID = some t := by
  induction later with
  | nil => exact since
  | snoc _ records ih => exact records.since ih

theorem Challenges.known (run : Challenges nodeID start past mid)
    (known : (start.nodes.find? nodeID).isSome = true) : (mid.nodes.find? nodeID).isSome = true := by
  induction run with
  | nil => exact known
  | snoc _ records ih => rw [records.effect.2, isSome_map]; exact ih

def Db.Unchallenged (db : Db) (nodeID : NodeID) : Prop :=
  (db.standing nodeID).challengeTotal = 0 ∧ (db.standing nodeID).challengeFailed = 0

section

variable (run : Challenges nodeID start past mid) (fresh : start.Unchallenged nodeID)
include run fresh

theorem Challenges.counted : (mid.standing nodeID).challengeTotal = past.length ∧
      (mid.standing nodeID).challengeFailed = failures past := by
  induction run with
  | nil => exact fresh
  | @snoc past c _ _ _ records ih =>
    rw [records.effect.1]
    simp only [afterChallenge, ih.1, ih.2, failures, countP_append,
      length_append]
    cases fails : c.fails <;> simp [fails]

theorem Challenges.quarantines_iff (own : c.outcome.nodeID = nodeID) :
    c.quarantines mid = true ↔ c.fails = true ∧ past ≠ [] ∧ c.limit ≤ failures (past ++ [c]) := by
  obtain ⟨total, failed⟩ := run.counted fresh
  unfold Challenge.quarantines reaches
  rw [own]
  simp only [afterChallenge, total, failed, failures, countP_append,
    Bool.and_eq_true, decide_eq_true_eq, and_assoc]
  refine and_congr_right fun fails => and_congr ?_ ?_
  · rw [← length_pos_iff]
    omega
  · simp [fails]

end

end

/-- A quarantine by challenges is earned, unless a threshold of one meets the first failure of a
node that has passed before; and it sticks. -/
theorem challenge_quarantine_earned {nodeID : NodeID} {start mid db' last : Db}
    {past rest : List Challenge} {c : Challenge} (known : (start.nodes.find? nodeID).isSome = true)
    (fresh : start.Unchallenged nodeID) (earlier : Challenges nodeID start past mid)
    (records : c.Records nodeID mid db') (later : Challenges nodeID db' rest last) :
    (mid.quarantinedSince nodeID = none →
      ((db'.quarantinedSince nodeID ≠ none →
        c.fails = true ∧ 2 ≤ failures (past ++ [c]) ∧ c.limit ≤ failures (past ++ [c])) ↔
      ¬ (c.fails = true ∧ c.limit = 1 ∧ failures past = 0 ∧ past ≠ []))) ∧
    (∀ t, db'.quarantinedSince nodeID = some t → last.quarantinedSince nodeID = some t) ∧
    (c.quarantines mid = true → (db'.quarantinedSince nodeID).isSome = true ∧
      (db'.standing nodeID).quarantinedAt.isSome = true) := by
  have counted (fails : c.fails = true) : failures (past ++ [c]) = failures past + 1 := by
    simp [failures, countP_append, fails]
  have shown (quarantines : c.quarantines mid = true) :
      (db'.quarantinedSince nodeID).isSome = true ∧
        (db'.standing nodeID).quarantinedAt.isSome = true := by
    have standing := records.effect.1
    obtain ⟨n, found⟩ := isSome_iff_exists.mp (earlier.known known)
    have own : n.id = nodeID := key_of_find? found
    rw [Db.quarantinedSince, records.effect.2, found, standing, quarantines]
    simp [Node.quarantinedBy, Table.updateWhere, own]
  refine ⟨fun free => ⟨fun earned => ?_, fun plural taken => ?_⟩, fun t => later.since, shown⟩
  · rintro ⟨fails, one, none, before⟩
    have reached : c.limit ≤ failures (past ++ [c]) := by
      rw [counted fails]
      omega
    have quarantines := (earlier.quarantines_iff fresh records.1).mpr ⟨fails, before, reached⟩
    obtain ⟨-, second, -⟩ := earned (Option.isSome_iff_ne_none.mp (shown quarantines).1)
    rw [counted fails] at second
    omega
  · have quarantines : c.quarantines mid = true := by
      by_contra short
      rw [Db.quarantinedSince, records.effect.2, if_neg short, Option.map_id] at taken
      exact taken free
    obtain ⟨fails, before, reached⟩ := (earlier.quarantines_iff fresh records.1).mp quarantines
    refine ⟨fails, ?_, reached⟩
    by_contra single
    have positive : 0 < c.limit := by unfold Challenge.limit; split <;> omega
    rw [counted fails] at single reached
    exact plural ⟨fails, by omega, by omega, before⟩

/-! ### Two challenges -/

def challengedDb : Db :=
  let registered := Db.registered .empty ["n1"]
  { registered with
    jobs := registered.jobs.put ⟨"j1", "o1", "k1", "m", .queued, 100, 0, 0, none⟩ }

def plainChallenge (passed : Bool) (threshold : Int) (occurredAt : Time) (id id' : String) :
    Challenge :=
  ⟨fun n => if n = 0 then id else id', ⟨"j1", "", "n1", "m", passed, "", occurredAt⟩, threshold⟩

/-- What a check finds of the databases after the first and the second of two challenges. -/
def afterTwo (first second : Challenge) (check : Db → Db → Bool) : Bool :=
  match Tx.run schema first.tx challengedDb with
  | .error _ => false
  | .ok (_, mid) =>
    match Tx.run schema second.tx mid with
    | .error _ => false
    | .ok (_, db') => check mid db'

theorem exists_of_afterTwo {first second : Challenge} {check : Db → Db → Bool}
    (ok : afterTwo first second check = true) : ∃ mid db',
      Challenges first.outcome.nodeID challengedDb [first] mid ∧
      second.Records second.outcome.nodeID mid db' ∧ check mid db' = true := by
  unfold afterTwo at ok
  split at ok
  · cases ok
  next one =>
    split at ok
    · cases ok
    next two => exact ⟨_, _, .snoc .nil ⟨rfl, one⟩, ⟨rfl, two⟩, ok⟩

theorem challenge_quarantine_earned_twice : ∃ mid db',
    Challenges "n1" challengedDb [plainChallenge false 2 10 "e" "f"] mid ∧
    (plainChallenge false 2 20 "g" "h").Records "n1" mid db' ∧
    db'.quarantinedSince "n1" = some 20 ∧ (db'.standing "n1").quarantinedAt.isSome = true := by
  have ran : afterTwo (plainChallenge false 2 10 "e" "f") (plainChallenge false 2 20 "g" "h")
      (fun mid db' => decide ((plainChallenge false 2 20 "g" "h").quarantines mid = true ∧
        db'.quarantinedSince "n1" = some 20)) = true := by decide +kernel
  obtain ⟨mid, db', earlier, records, checked⟩ := exists_of_afterTwo ran
  obtain ⟨quarantines, since⟩ := of_decide_eq_true checked
  exact ⟨mid, db', earlier, records, since, ((challenge_quarantine_earned (by decide +kernel)
    ⟨rfl, rfl⟩ earlier records .nil).2.2 quarantines).2⟩

/-- A node that has passed is quarantined at its first failure by a threshold of one. -/
theorem first_failure_quarantines : ∃ mid db',
    Challenges "n1" challengedDb [plainChallenge true 1 10 "e" "f"] mid ∧
    (plainChallenge false 1 20 "g" "h").Records "n1" mid db' ∧
    mid.quarantinedSince "n1" = none ∧ db'.quarantinedSince "n1" = some 20 ∧
    failures [plainChallenge true 1 10 "e" "f", plainChallenge false 1 20 "g" "h"] = 1 := by
  have ran : afterTwo (plainChallenge true 1 10 "e" "f") (plainChallenge false 1 20 "g" "h")
      (fun mid db' => decide (mid.quarantinedSince "n1" = none ∧
        db'.quarantinedSince "n1" = some 20)) = true := by decide +kernel
  obtain ⟨mid, db', earlier, records, checked⟩ := exists_of_afterTwo ran
  obtain ⟨free, since⟩ := of_decide_eq_true checked
  exact ⟨mid, db', earlier, records, free, since, by decide⟩

end Thirdshift
