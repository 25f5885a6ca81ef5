import Thirdshift.Coordinator.Duties
import Thirdshift.Reputation.Counts

/-!
# Hash mismatches

A completion whose model or runtime hash does not match is refused, but `FailJob` and
`MarkVerificationAttemptFailed` are called with the code `job_failed`, and both the counter of the
node and the alert look for the cause in the code. They only ever see what a node says about itself.
-/

namespace Thirdshift

open Foundation Deployment

/-- The test of `updateAttemptReputationTx` on the code of a failure. -/
def AttemptOutcome.mismatch (o : AttemptOutcome) : Bool :=
  !o.accepted && (stringContains o.code "hash_mismatch" || stringContains o.code "hash mismatch")

/-- `error_code LIKE '%hash_mismatch%' OR error_code LIKE '%hash mismatch%'`, where an underscore
stands for any character. -/
def likeHashMismatch (code : String) : Bool :=
  code.toList.tails.any fun rest => decide (rest.take 4 = "hash".toList ∧ 4 < rest.length ∧
    (rest.drop 5).take 8 = "mismatch".toList)

structure Alert where
  code : String
  severity : String
  message : String
  count : Nat

/-- What `AlertsList` shows of hash mismatches. -/
def OperatorStore.hashMismatchAlert (db : Db) : Option Alert :=
  let hashMismatches := db.attempts.rows.countP fun a => a.errorCode.any likeHashMismatch
  if 0 < hashMismatches then
    some ⟨"hash_mismatch", "critical", "Hash mismatch events require review.", hashMismatches⟩
  else none

theorem hashMismatchCount_after {input : Input} {call : StoreCall} {db db' : Db} {r : call.Result}
    (ok : Tx.exec schema (call.tx input) db = .ok (r, db'))
    (unmentioned : ∀ counted ∈ call.counts, counted.2.mismatch = false) (n : NodeID) :
    (db'.standing n).hashMismatchCount = (db.standing n).hashMismatchCount := by
  cases counts : call.counts with
  | none =>
    have counters := StoreCall.counters_of_uncounted ok counts n
    simp only [NodeReputation.counters, Prod.mk.injEq] at counters
    exact counters.2.2
  | some counted =>
    obtain ⟨attemptID, o⟩ := counted
    obtain ⟨a, -, standing⟩ := StoreCall.standing_of_counts ok counts
    rw [standing n]
    split
    · have clean : o.mismatch = false := unmentioned _ counts
      exact if_neg (by rw [← Bool.not_eq_true] at clean; exact clean)
    · rfl

/-! ### Refused completions -/

/-- The attempt and the code of the call by which a refusal is stored. -/
def StoreCall.refusal : StoreCall → Option (AttemptID × String)
  | .failJob _ attemptID code .. | .markVerificationAttemptFailed _ attemptID code _ =>
    some (attemptID, code)
  | _ => none

/-- The attempt whose completion is refused for its hashes, at the event that stores this. -/
def Ev.refusesHash (past : Trace) (event : Ev) : Option Attempt :=
  match hashCheck (localTrace event.thread past) with
  | .mismatched payload => if (event.commits.bind StoreCall.refusal).isSome then
      event.before.db.attempts.find? payload.attemptID else none
  | _ => none

def RefusedHash (ls : Trace) : Prop :=
  ∃ past event rest, ls = past ++ .act event :: rest ∧ (Ev.refusesHash past event).isSome = true

/-- Refusing a completion for its hashes counts one mismatch for the node of the attempt, nothing
else counts one, and from then on the alert is shown. -/
structure MismatchCounted (past : Trace) (event : Ev) : Prop where
  counted : ∀ n, (event.after.db.standing n).hashMismatchCount =
    (event.before.db.standing n).hashMismatchCount +
      if (event.refusesHash past).map Attempt.nodeID = some n then 1 else 0
  alerted : RefusedHash (past ++ [.act event]) →
    (OperatorStore.hashMismatchAlert event.after.db).isSome = true

/-- The refusal is stored as a failed job. No count changes, and no alert is raised. -/
structure RefusalUncounted (event : Ev) : Prop where
  code : (event.commits.bind StoreCall.refusal).map Prod.snd = some codeJobFailed
  counts : ∀ n, (event.after.db.standing n).hashMismatchCount =
    (event.before.db.standing n).hashMismatchCount
  alert : (OperatorStore.hashMismatchAlert event.after.db).isSome = true →
    (OperatorStore.hashMismatchAlert event.before.db).isSome = true

/-- No completion is refused for its hashes, and no failure is reported under such a code. -/
def HashClean (past : Trace) (event : Ev) : Prop :=
  event.refusesHash past = none ∧
    ∀ call ∈ event.commits, ∀ counted ∈ call.counts, counted.2.mismatch = false

section

variable {settings : Settings} {s : State} {past : Trace} {mid next : Config steps State} {event : Ev}
  {a : Attempt}

theorem code_of_refusesHash (run : Ran settings s past mid) (step : Acts settings mid event next)
    (refuses : event.refusesHash past = some a) :
    ∃ call, event.commits = some call ∧ call.refusal = some (a.id, codeJobFailed) := by
  obtain ⟨entry, -, due⟩ := run.allowed (due_program settings) step
  unfold Ev.refusesHash at refuses
  split at refuses
  next payload mismatched =>
    split at refuses
    next stored =>
      obtain ⟨⟨attemptID, code⟩, named⟩ := Option.isSome_iff_exists.mp stored
      obtain ⟨call, commits, named⟩ := Option.bind_eq_some_iff.mp named
      obtain ⟨ctx, called⟩ := committed_eq_some commits
      rw [called] at due
      have key := Table.key_of_find? refuses
      refine ⟨call, commits, named.trans ?_⟩
      cases call with
      | failJob | markVerificationAttemptFailed =>
        cases named
        obtain ⟨rfl, rfl⟩ := due payload mismatched
        rw [key]
      | _ => cases named
    · cases refuses
  · cases refuses

theorem StoreCall.counts_of_refusal {call : StoreCall} {attemptID : AttemptID} {code : String}
    (refusal : call.refusal = some (attemptID, code)) :
    ∀ counted ∈ call.counts, counted.2 = ⟨false, code⟩ := by
  intro counted counts
  cases call with
  | failJob | markVerificationAttemptFailed =>
    cases refusal
    simp only [StoreCall.counts, Option.mem_def, Option.ite_none_left_eq_some] at counts
    first | rw [← Option.some.inj counts] | rw [← Option.some.inj counts.2]
  | _ => cases refusal

theorem errorCode_of_refusal (input : Input) {call : StoreCall} {attemptID : AttemptID}
    {code : String} (refusal : call.refusal = some (attemptID, code)) (b : Attempt) :
    (call.onAttempt input b).errorCode = b.errorCode ∨
      (call.onAttempt input b).errorCode = some code := by
  cases call with
  | failJob | markVerificationAttemptFailed =>
    cases refusal
    simp only [StoreCall.onAttempt, Table.updateWhere]
    split
    · exact .inr rfl
    · exact .inl rfl
  | _ => cases refusal

theorem alert_isSome {db : Db} : (OperatorStore.hashMismatchAlert db).isSome = true ↔
    ∃ a ∈ db.attempts.rows, a.errorCode.any likeHashMismatch = true := by
  rw [← List.countP_pos_iff, OperatorStore.hashMismatchAlert]
  by_cases shown : 0 < db.attempts.rows.countP fun a => a.errorCode.any likeHashMismatch <;>
    simp [shown]

theorem refusalUncounted (run : Ran settings s past mid) (step : Acts settings mid event next)
    (refuses : event.refusesHash past = some a) : RefusalUncounted event := by
  obtain ⟨call, commits, refusal⟩ := code_of_refusesHash run step refuses
  obtain ⟨v, ok⟩ := exec_of_committed step.exec commits
  constructor
  case code => simp [commits, refusal]
  case counts =>
    refine hashMismatchCount_after ok fun counted counts => ?_
    rw [StoreCall.counts_of_refusal refusal counted counts]
    decide +kernel
  case alert =>
    rw [alert_isSome, alert_isSome]
    rintro ⟨b, member, shown⟩
    rcases Ev.attempt_origin step.exec (Table.mem_rows_iff.mp member) with
      ⟨old, was, rfl⟩ | ⟨-, new, -⟩
    · refine ⟨old, Table.mem_of_find? was, ?_⟩
      simp only [Ev.onAttempt, commits] at shown
      rcases errorCode_of_refusal event.input refusal old with same | failed
      · rwa [same] at shown
      · rw [failed] at shown
        exact absurd shown (by decide +kernel)
    · obtain ⟨other, same, added⟩ := Option.bind_eq_some_iff.mp new
      cases commits.symm.trans same
      cases call with
      | failJob | markVerificationAttemptFailed => cases added
      | _ => cases refusal

theorem HashClean.counted (step : Acts settings mid event next) (clean : HashClean past event)
    (n : NodeID) : (event.after.db.standing n).hashMismatchCount =
      (event.before.db.standing n).hashMismatchCount := by
  cases commits : event.commits with
  | none =>
    rw [db_of_uncommitted step.exec commits]
    rfl
  | some call =>
    obtain ⟨r, ok⟩ := exec_of_committed step.exec commits
    exact hashMismatchCount_after ok (clean.2 call commits) n

theorem MismatchCounted.clean (run : Ran settings s past mid) (step : Acts settings mid event next)
    (counted : MismatchCounted past event) : HashClean past event := by
  have accepted : event.refusesHash past = none := by
    by_contra some'
    obtain ⟨a, refuses⟩ := Option.ne_none_iff_exists'.mp some'
    have kept := (refusalUncounted run step refuses).counts a.nodeID
    have grown := counted.counted a.nodeID
    rw [refuses, kept] at grown
    simp at grown
  refine ⟨accepted, fun call commits o counts => ?_⟩
  obtain ⟨r, ok⟩ := exec_of_committed step.exec commits
  obtain ⟨a, -, standing⟩ := StoreCall.standing_of_counts ok counts
  have kept := counted.counted a.nodeID
  rw [accepted, if_neg (by simp), standing, if_pos rfl] at kept
  by_contra mentioned
  have mentioned : o.2.mismatch = true := by simpa using mentioned
  have grown : ((event.before.db.standing a.nodeID).afterAttempt o.2.accepted
      o.2.code).hashMismatchCount = (event.before.db.standing a.nodeID).hashMismatchCount + 1 :=
    if_pos mentioned
  omega

end

namespace Deployment

def otherModel : List (Choice Input Entry) :=
  connect 0 "n1" ++ request 1 "j" "a" ++ accept 0 "j0" "a0" ++
  [.act 0 (reading (.job (.completed { payload "j0" "a0" with modelHash := "sha256:cc" })))] ++
  advance 0 6

end Deployment

end Thirdshift
