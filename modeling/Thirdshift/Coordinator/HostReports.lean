import Thirdshift.Coordinator.Verification

/-!
# Host reports

Three reports say what a node has earned. The public list adds up its credit holds that are not
reversed, the contribution card the holds of its attempts that have succeeded, and the fleet report
those of all its attempts. They differ by what was reversed and by what is held for attempts that
are not marked as succeeded.
-/

namespace Thirdshift

open Foundation List Table StoreCall Deployment

variable {db db' : Db} {h : HostCreditHold} {j : Job} {p q : HostCreditHold → Bool}

section

variable {α β : Type} {on : α → List β}

/-- `LEFT JOIN`: each row with every row that joins it, or once with none. -/
def leftJoin (on : α → List β) (xs : List α) : List (α × Option β) :=
  xs.flatMap fun x => match on x with
    | [] => [(x, none)]
    | ys => ys.map fun y => (x, some y)

def sumOf (f : β → Int) (rows : List (α × Option β)) : Int :=
  (rows.map fun row => (row.2.map f).getD 0).sum

theorem leftJoin_cons (x : α) (xs : List α) :
    leftJoin on (x :: xs) = leftJoin on [x] ++ leftJoin on xs := by
  simp [leftJoin]

theorem sumOf_leftJoin (f : β → Int) (xs : List α) :
    sumOf f (leftJoin on xs) = (xs.map fun x => ((on x).map f).sum).sum := by
  induction xs with
  | nil => rfl
  | cons x xs ih =>
    rw [leftJoin_cons, sumOf, map_append, sum_append, ← sumOf, ← sumOf, ih, map_cons,
      sum_cons]
    cases joined : on x <;> simp [leftJoin, sumOf, joined, Function.comp_def]

theorem leftJoin_fst {xs : List α} (single : ∀ x ∈ xs, (on x).length ≤ 1) :
    (leftJoin on xs).map Prod.fst = xs := by
  induction xs with
  | nil => rfl
  | cons x xs ih =>
    rw [leftJoin_cons, map_append, ih fun y member => single y (mem_cons_of_mem _ member)]
    have few := single x mem_cons_self
    cases joined : on x with
    | nil => simp [leftJoin, joined]
    | cons y ys =>
      rw [joined, length_cons] at few
      simp [leftJoin, joined, eq_nil_of_length_eq_zero (by omega : ys.length = 0)]

theorem sumOf_through {γ : Type} {g : α → List γ} (f : γ → Int) {xs : List α}
    (single : ∀ x ∈ xs, (on x).length ≤ 1) : sumOf f (leftJoin (fun row => g row.1) (leftJoin on xs)) =
      (xs.map fun x => ((g x).map f).sum).sum := by
  conv_rhs => rw [← leftJoin_fst single, map_map]
  exact sumOf_leftJoin f _

theorem mem_leftJoin {xs : List α} {x : α} {y : Option β} : (x, y) ∈ leftJoin on xs ↔
    x ∈ xs ∧ (y = none ∧ on x = [] ∨ ∃ z ∈ on x, y = some z) := by
  simp only [leftJoin, mem_flatMap]
  constructor
  · rintro ⟨x', inside, here⟩
    cases joined : on x' <;> simp [joined] at here <;> grind
  · rintro ⟨inside, found⟩
    refine ⟨x, inside, ?_⟩
    cases joined : on x <;> simp [joined] at found ⊢ <;> grind

end

/-! ### The reports -/

structure PublicHost where
  nodeID : NodeID
  creditedMicrodollarsTotal : Int

structure ContributionCard where
  jobsAccepted : Nat
  tokensServed : Int
  creditEarnedMicrodollars : Int

/-- A row of the fleet report. The jobs are the ones that `count(DISTINCT …)` counts. -/
structure FleetRow where
  nodeID : NodeID
  jobsSucceeded : List JobID
  jobsFailed : List JobID
  promptTokens : Int
  completionTokens : Int
  hostCreditMicrodollars : Int

namespace OperatorStore

def creditSum (p : HostCreditHold → Bool) (db : Db) : Int :=
  ((db.holds.rows.filter p).map HostCreditHold.amountMicrodollars).sum

def publicHost (db : Db) (now : Time) (n : Node) : Option PublicHost :=
  let credited := creditSum (fun h => h.state ≠ .reversed ∧ h.nodeID = n.id) db
  (latestBy NodeSession.connectedAt (db.sessions.rows.filter fun s => s.nodeID = n.id)).bind fun s =>
    if now - seconds 86400 ≤ s.lastHeartbeatAt.getD s.connectedAt ∧
        (0 < credited ∨ s.state = .connected) then some ⟨n.id, credited⟩
    else none

/-- Totals are scanned into an `int64`. -/
def publicHosts (db : Db) (now : Time) : Except GoError (List PublicHost) :=
  let hosts := db.nodes.rows.filterMap (publicHost db now)
  if hosts.all fun h => isInt8 h.creditedMicrodollarsTotal then .ok hosts
  else .error (.other "scan public host")

def acceptedResults (db : Db) (a : Attempt) : List JobResult :=
  db.results.rows.filter fun r => r.attemptID = a.id ∧ r.accepted

def holdsOf (db : Db) (a : Attempt) : List HostCreditHold :=
  db.holds.rows.filter fun h => h.attemptID = a.id

/-- `strings.TrimSpace`. -/
def trimSpace (s : String) : String :=
  .ofList ((s.toList.dropWhile isSpace).reverse.dropWhile isSpace).reverse

def contributionCard (db : Db) (id : String) : Except GoError ContributionCard :=
  let nodeID := trimSpace id
  let attempts := db.attempts.rows.filter fun a => a.nodeID = nodeID ∧ a.status = .succeeded
  let results := leftJoin (acceptedResults db) attempts
  let rows := leftJoin (fun row => holdsOf db row.1) results
  let tokens := sumOf (fun r => r.promptTokens + r.completionTokens) (rows.map Prod.fst)
  let credit := sumOf HostCreditHold.amountMicrodollars rows
  if nodeID = "" then .error (.other "node id is required")
  else if db.hasNode nodeID = false then .error (.other ("node " ++ nodeID ++ " not found"))
  else if isInt8 tokens && isInt8 credit then .ok ⟨attempts.length, tokens, credit⟩
  else .error (.other "query contribution card totals")

/-- The row of a node over all jobs; a node without attempts has nothing to add up. -/
def fleetRow (db : Db) (nodeID : NodeID) : FleetRow :=
  let jobs := leftJoin (fun a : Attempt => (db.jobs.find? a.jobID).toList)
    (db.attempts.rows.filter fun a => a.nodeID = nodeID)
  let results := leftJoin (fun row => if row.2.isSome then acceptedResults db row.1 else []) jobs
  let rows := leftJoin (fun row => if row.1.2.isSome then holdsOf db row.1.1 else []) results
  let inState := fun state => (((jobs.filterMap Prod.snd).filter fun j => j.state = state).map
    Job.id).eraseDups
  ⟨nodeID, inState .succeeded, inState .failed,
    sumOf JobResult.promptTokens (rows.map Prod.fst),
    sumOf JobResult.completionTokens (rows.map Prod.fst),
    sumOf HostCreditHold.amountMicrodollars rows⟩

def fleetReport (db : Db) (fleet : Node → Bool) : Except GoError (List FleetRow) :=
  let rows := (db.nodes.rows.filter fleet).map fun n => fleetRow db n.id
  if rows.all fun row => isInt8 row.promptTokens && isInt8 row.completionTokens &&
      isInt8 row.hostCreditMicrodollars then .ok rows
  else .error (.other "scan fleet report")

end OperatorStore

/-! ### What the reports rely on -/

/-- Every hold is for an attempt of its node, every attempt has a job, and a succeeded job has an
attempt whose result was accepted. -/
structure Db.Reported (db : Db) : Prop where
  unique : schema.Unique db
  leased : ∀ h ∈ db.holds.rows, ∃ a, db.attempts.find? h.attemptID = some a ∧ a.nodeID = h.nodeID
  ofJob : ∀ a ∈ db.attempts.rows, (db.jobs.find? a.jobID).isSome = true
  accepted : ∀ j ∈ db.jobs.rows, j.state = .succeeded → ∃ r ∈ db.results.rows,
    r.accepted = true ∧ ∃ a, db.attempts.find? r.attemptID = some a ∧ a.jobID = j.id

/-- The databases that the calls of the coordinator lead to, with payouts and anything else in
between. Those change nothing about holds but their state and their batch. -/
inductive Stored : Db → Prop
  | boot (catalog : Catalog) (nodes : Table Node.id) : Stored (boot catalog nodes).db
  | store {input : Input} {call : StoreCall} {r : call.Result} {db db' : Db} (before : Stored db)
      (ran : Tx.exec schema (call.tx input) db = .ok (r, db')) : Stored db'
  | other {db db' : Db} (before : Stored db) (unique : schema.Unique db') (jobs : db'.jobs = db.jobs)
      (attempts : db'.attempts = db.attempts) (results : db'.results = db.results)
      (holds : ∀ h ∈ db'.holds.rows, ∃ old ∈ db.holds.rows,
        h = { old with state := h.state, payoutBatchID := h.payoutBatchID }) : Stored db'

namespace Db.Reported

section

variable {input : Input} {call : StoreCall} {r : call.Result}
  (ok : Tx.exec schema (call.tx input) db = .ok (r, db'))

include ok

theorem attempt_kept {id : AttemptID} {a : Attempt} (found : db.attempts.find? id = some a) :
    ∃ a', db'.attempts.find? id = some a' ∧ a'.SameLease a := by
  refine ⟨_, ?_, sameLease_onAttempt input call a⟩
  rw [attempts_after ok, found]
  rfl

theorem job_kept {id : JobID} (found : (db.jobs.find? id).isSome = true) :
    (db'.jobs.find? id).isSome = true := by
  rw [jobs_after ok]
  obtain ⟨j, there⟩ := Option.isSome_iff_exists.mp found
  rw [there]
  rfl

theorem new_hold (member : h ∈ db'.holds.rows) : h ∈ db.holds.rows ∨
    ∃ a, db.attempts.find? h.attemptID = some a ∧ a.nodeID = h.nodeID := by
  cases call
  case completeJob payload receivedAt creditHold status cls attempts =>
    obtain ⟨a, completable⟩ := completeJob_checked ok
    have leased : LeasedTo a.nodeID payload.attemptID db := by
      intro b found
      cases completable.found.symm.trans found
      rfl
    have credits := StoreCall.creditsOnly ⟨fun _ _ names => (by cases names; exact leased),
      fun _ names => (by cases names)⟩ ok
    obtain ⟨ws, rfl, posts, fresh⟩ :=
      (emits_call input _).exec (by simp) (schema.overlay_nil db ▸ ok)
    obtain ⟨new, attempt, holds⟩ := holds_completion fresh
      (fun k old => (keepsAccounts_call input _).exec ok) posts
    rcases credits.holds h member with old | node
    · exact .inl old
    · refine ((holds h).mp member).symm.imp_right ?_
      rintro rfl
      exact ⟨a, attempt ▸ completable.found, node.symm⟩
  case postVerificationOverhead payload creditHold receivedAt =>
    obtain ⟨pricing, hold, priced, holder, attempt, -, holds, -⟩ :=
      Ledger.postVerificationOverhead_ok ok
    obtain ⟨a, found, -, leased⟩ := Db.pricing_attempt priced
    rw [holds] at member
    rcases mem_put.mp member with rfl | ⟨old, -⟩
    · exact .inr ⟨a, attempt ▸ found, (holder.trans leased).symm⟩
    · exact .inl old
  all_goals
    rw [(writesTo_tables input _).holds (by simp [StoreCall.tables]) ok] at member
    exact .inl member

theorem results_after : ∃ new : Option JobResult,
    new.map (fun r => (r.jobID, r.attemptID)) = call.completion ∧
      (∀ r ∈ new, r.accepted = true) ∧ ∀ r, r ∈ db'.results.rows ↔ new = some r ∨ r ∈ db.results.rows := by
  obtain ⟨ws, rfl, posts, fresh⟩ :=
    (emits_call input call).exec (by simp) (schema.overlay_nil db ▸ ok)
  exact results_commit fresh (fun k old => (keepsAccounts_call input call).exec ok) posts

omit ok in
theorem completes_of_onJob (succeeded : (call.onJob input j).state = .succeeded) :
    j.state = .succeeded ∨ ∃ attemptID, call.completion = some (j.id, attemptID) := by
  cases call
  case completeJob payload receivedAt creditHold status cls attempts =>
    simp only [StoreCall.onJob, Table.updateWhere] at succeeded
    split at succeeded
    next here => exact .inr ⟨_, congrArg some (Prod.ext (of_decide_eq_true here).symm rfl)⟩
    · exact .inl succeeded
  all_goals
    simp only [StoreCall.onJob, Table.updateWhere, id] at succeeded
    first
      | exact .inl succeeded
      | (split at succeeded
         · cases succeeded
         · exact .inl succeeded)

theorem new_success (member : j ∈ db'.jobs.rows) (succeeded : j.state = .succeeded) :
    (∃ i ∈ db.jobs.rows, i.id = j.id ∧ i.state = .succeeded) ∨
    ∃ attemptID, call.completion = some (j.id, attemptID) := by
  have found := find?_of_mem member
  rw [jobs_after ok] at found
  cases old : db.jobs.find? j.id with
  | some i =>
    rw [old] at found
    cases found
    have same : i.id = _ := key_of_find? old
    rw [← same]
    exact (completes_of_onJob succeeded).imp_left fun before =>
      ⟨i, mem_of_find? old, rfl, before⟩
  | none =>
    rw [old] at found
    obtain ⟨new, -⟩ := Option.filter_eq_some_iff.mp found
    cases call <;> cases new
    cases succeeded

theorem store (reported : db.Reported) : db'.Reported := by
  obtain ⟨new, completes, accepts, results⟩ := results_after ok
  refine ⟨Tx.unique_exec reported.unique ok, fun h member => ?_, fun a member => ?_,
    fun j member succeeded => ?_⟩
  · obtain ⟨a, found, same⟩ := (new_hold ok member).elim (reported.leased h) id
    obtain ⟨a', there, lease⟩ := attempt_kept ok found
    exact ⟨a', there, lease.nodeID.trans same⟩
  · apply job_kept ok
    have found := find?_of_mem member
    rw [attempts_after ok] at found
    cases old : db.attempts.find? a.id with
    | some b =>
      rw [old] at found
      cases found
      rw [(sameLease_onAttempt input call b).jobID]
      exact reported.ofJob b (mem_of_find? old)
    | none =>
      rw [old] at found
      exact hasJob_of_newAttempt ok (Option.filter_eq_some_iff.mp found).1
  · rcases new_success ok member succeeded with ⟨i, before, same, done⟩ | ⟨attemptID, completed⟩
    · obtain ⟨r, stored, accepted, a, found, ofJob⟩ := reported.accepted i before done
      obtain ⟨a', there, lease⟩ := attempt_kept ok found
      exact ⟨r, (results r).mpr (.inr stored), accepted, a', there,
        lease.jobID.trans (ofJob.trans same)⟩
    · obtain ⟨result, rfl, names⟩ := Option.map_eq_some_iff.mp (completes.trans completed)
      cases call
      case completeJob =>
        obtain ⟨ofJob, attempt⟩ := Prod.mk.inj (Option.some.inj completed)
        obtain ⟨a, completable⟩ := completeJob_checked ok
        obtain ⟨a', there, lease⟩ := attempt_kept ok completable.found
        exact ⟨result, (results result).mpr (.inl rfl), accepts result rfl, a',
          (show result.attemptID = _ from (congrArg Prod.snd names).trans attempt.symm) ▸ there,
          lease.jobID.trans (completable.ofJob.trans ofJob)⟩
      all_goals cases completed

end

theorem payout (unique : schema.Unique db') (jobs : db'.jobs = db.jobs)
    (attempts : db'.attempts = db.attempts) (results : db'.results = db.results)
    (holds : ∀ h ∈ db'.holds.rows, ∃ old ∈ db.holds.rows,
      h = { old with state := h.state, payoutBatchID := h.payoutBatchID })
    (reported : db.Reported) : db'.Reported := by
  refine ⟨unique, fun h member => ?_, ?_, ?_⟩
  · obtain ⟨old, before, same⟩ := holds h member
    rw [attempts, same]
    exact reported.leased old before
  · rw [attempts, jobs]
    exact reported.ofJob
  · rw [attempts, jobs, results]
    exact reported.accepted

end Db.Reported

theorem Stored.reported (stored : Stored db) : db.Reported := by
  induction stored with
  | boot catalog nodes =>
    refine ⟨unique_boot catalog nodes, ?_, ?_, ?_⟩ <;> simp [Thirdshift.boot]
  | store _ ran ih => exact Db.Reported.store ran ih
  | other _ unique jobs attempts results holds ih =>
    exact Db.Reported.payout unique jobs attempts results holds ih

theorem stored_of_run {settings : Settings} {catalog : Catalog} {nodes : Table Node.id} {ls : Trace}
    {c : Config steps State} (run : Ran settings (boot catalog nodes) ls c) : Stored c.state.db := by
  refine run.state_invariant (I := fun s => Stored s.db) (.boot catalog nodes) ?_
  intro event _ exec stored
  cases commits : Ev.commits event with
  | none =>
    rw [db_of_uncommitted exec commits]
    exact .other stored stored.reported.unique rfl rfl rfl fun h member => ⟨h, member, rfl⟩
  | some call =>
    obtain ⟨v, ran⟩ := exec_of_committed exec commits
    exact .store stored ran

/-! ### The reports compared -/

namespace OperatorStore

variable {nodeID : NodeID}

theorem acceptedResults_single (reported : db.Reported) (a : Attempt) :
    (acceptedResults db a).length ≤ 1 := by
  have nodup : (acceptedResults db a).Nodup := (List.Nodup.of_map _ db.results.nodup).filter _
  have one : ∀ r ∈ acceptedResults db a, ∀ s ∈ acceptedResults db a, r = s := by
    intro r member s member'
    obtain ⟨stored, ofAttempt, -⟩ := mem_filter.mp member |>.imp_right of_decide_eq_true
    obtain ⟨stored', ofAttempt', -⟩ := mem_filter.mp member' |>.imp_right of_decide_eq_true
    have same := reported.unique (mem_results.mp stored) (mem_results.mp stored')
      mem_cons_self (mem_singleton.mpr (ofAttempt.trans ofAttempt'.symm ▸ rfl))
    exact eq_of_key stored stored' (congrArg Key.id same)
  match listed : acceptedResults db a with
  | [] | [_] => simp
  | r :: s :: _ =>
    rw [listed] at nodup one
    simp [one r (by simp) s (by simp)] at nodup

theorem holds_of_attempts (db : Db) (p : Attempt → Bool) : ((db.attempts.rows.filter p).map fun a =>
      ((holdsOf db a).map HostCreditHold.amountMicrodollars).sum).sum =
    creditSum (fun h => (db.attempts.find? h.attemptID).any p) db := by
  have keys : ((db.attempts.rows.filter p).map Attempt.id).Nodup :=
    db.attempts.nodup.sublist (filter_sublist.map _)
  refine (sum_by_key keys db.holds.rows HostCreditHold.attemptID).trans ?_
  simp only [creditSum, mem_keys_filter, Bool.decide_eq_true]

theorem leased_to (nodeID : NodeID) (reported : db.Reported)
    (member : h ∈ db.holds.rows) (p : Attempt → Bool) :
    (db.attempts.find? h.attemptID).any (fun a => a.nodeID = nodeID ∧ p a) =
      decide (h.nodeID = nodeID ∧ (db.attempts.find? h.attemptID).any p) := by
  obtain ⟨a, found, same⟩ := reported.leased h member
  rw [found, ← same]
  rfl

theorem creditSum_congr (same : ∀ h ∈ db.holds.rows, p h = q h) :
    creditSum p db = creditSum q db := by
  rw [creditSum, filter_congr same, creditSum]

theorem fleetRow_credit (reported : db.Reported) : (fleetRow db nodeID).hostCreditMicrodollars =
    creditSum (fun h => h.nodeID = nodeID) db := by
  have jobs : ∀ a ∈ db.attempts.rows.filter fun a => a.nodeID = nodeID,
      ((db.jobs.find? a.jobID).toList).length ≤ 1 := by
    intro a _
    cases db.jobs.find? a.jobID <;> simp
  have results : ∀ row ∈ leftJoin (fun a : Attempt => (db.jobs.find? a.jobID).toList)
      (db.attempts.rows.filter fun a => a.nodeID = nodeID),
      (if row.2.isSome then acceptedResults db row.1 else []).length ≤ 1 := by
    intro row _
    split
    · exact acceptedResults_single reported row.1
    · simp
  refine (sumOf_through (g := fun row : Attempt × Option Job => if row.2.isSome then
    holdsOf db row.1 else []) HostCreditHold.amountMicrodollars results).trans ?_
  have joined := holds_of_attempts db fun a => a.nodeID = nodeID
  rw [← leftJoin_fst jobs, map_map] at joined
  refine (congrArg List.sum (map_congr_left fun row member => ?_)).trans (joined.trans ?_)
  · obtain ⟨inside, ⟨-, none⟩ | ⟨j, -, some⟩⟩ := mem_leftJoin.mp member
    · have there := reported.ofJob row.1 (mem_of_mem_filter inside)
      rw [Option.toList_eq_nil_iff.mp none] at there
      cases there
    · simp [some]
  · refine creditSum_congr fun h member => ?_
    obtain ⟨a, found, same⟩ := reported.leased h member
    simp [found, same]

theorem card_credit (reported : db.Reported) {card : ContributionCard} {id : String}
    (trimmed : trimSpace id = nodeID) (shown : contributionCard db id = .ok card) : card.creditEarnedMicrodollars =
      creditSum (fun h => h.nodeID = nodeID ∧ (db.attempts.find? h.attemptID).any fun a =>
        a.status = .succeeded) db := by
  simp only [contributionCard, trimmed] at shown
  split at shown
  · cases shown
  split at shown
  · cases shown
  split at shown
  · cases shown
    refine (sumOf_through _ fun a _ => acceptedResults_single reported a).trans ?_
    rw [holds_of_attempts]
    refine creditSum_congr fun h member => ?_
    have same := leased_to nodeID reported member fun a => a.status = .succeeded
    simpa using same
  · cases shown

theorem publicHosts_credit {now : Time} {hosts : List PublicHost} {host : PublicHost}
    (listed : publicHosts db now = .ok hosts) (member : host ∈ hosts) :
    host.creditedMicrodollarsTotal =
      creditSum (fun h => h.state ≠ .reversed ∧ h.nodeID = host.nodeID) db := by
  simp only [publicHosts] at listed
  split at listed
  · cases listed
    obtain ⟨n, -, shown⟩ := mem_filterMap.mp member
    obtain ⟨s, -, shown⟩ := Option.bind_eq_some_iff.mp shown
    split at shown
    · cases shown
      rfl
    · cases shown
  · cases listed

/-- Holds that were reversed, and holds of attempts that are not marked as succeeded. -/
def reversedCredit (db : Db) (nodeID : NodeID) : Int :=
  creditSum (fun h => h.nodeID = nodeID ∧ h.state = .reversed) db

def unmarkedCredit (db : Db) (nodeID : NodeID) : Int :=
  creditSum (fun h => h.nodeID = nodeID ∧ ¬(db.attempts.find? h.attemptID).any fun a =>
    a.status = .succeeded) db

theorem creditSum_split (db : Db) :
    creditSum p db = creditSum (fun h => p h && q h) db + creditSum (fun h => p h && !q h) db := by
  unfold creditSum
  rw [← sum_filter_or db.holds.rows fun h both => by simp_all]
  refine creditSum_congr fun h _ => ?_
  cases p h <;> cases q h <;> rfl

theorem counted_iff (member : j ∈ db.jobs.rows) (succeeded : j.state = .succeeded) :
    j.id ∈ (fleetRow db nodeID).jobsSucceeded ↔
      ∃ a ∈ db.attempts.rows, a.nodeID = nodeID ∧ a.jobID = j.id := by
  have found := find?_of_mem member
  simp only [fleetRow, mem_eraseDups, mem_map, mem_filter, mem_filterMap,
    Prod.exists, mem_leftJoin, decide_eq_true_eq, Option.mem_toList]
  constructor
  · rintro ⟨i, ⟨⟨a, y, ⟨⟨inside, here⟩, joined⟩, rfl⟩, -⟩, same⟩
    obtain ⟨lost, -⟩ | ⟨z, there, again⟩ := joined
    · cases lost
    · cases again
      exact ⟨a, inside, here, (key_of_find? there).symm.trans same⟩
  · rintro ⟨a, inside, here, same⟩
    exact ⟨j, ⟨⟨a, some j, ⟨⟨inside, here⟩, .inr ⟨j, same ▸ found, rfl⟩⟩, rfl⟩, succeeded⟩, rfl⟩

end OperatorStore

open OperatorStore

/-- The reports on a listed node agree exactly when nothing of its credit was reversed and nothing
is held for attempts that are not marked as succeeded. A succeeded job has an accepted attempt, and
is counted for exactly the node of that attempt if all its attempts were on that node. -/
theorem host_reports_agree_iff {db : Db} (stored : Stored db) :
    (∀ now hosts fleet rows id card, publicHosts db now = .ok hosts →
      fleetReport db fleet = .ok rows → contributionCard db id = .ok card →
      ∀ host ∈ hosts, trimSpace id = host.nodeID → ∀ row ∈ rows, row.nodeID = host.nodeID →
      (host.creditedMicrodollarsTotal = card.creditEarnedMicrodollars ∧
        card.creditEarnedMicrodollars = row.hostCreditMicrodollars ↔
      reversedCredit db host.nodeID = 0 ∧ unmarkedCredit db host.nodeID = 0)) ∧
    ∀ j ∈ db.jobs.rows, j.state = .succeeded → ∃ r ∈ db.results.rows, r.accepted = true ∧
      ∃ a, db.attempts.find? r.attemptID = some a ∧ a.jobID = j.id ∧
      ((∀ nodeID, j.id ∈ (fleetRow db nodeID).jobsSucceeded ↔ nodeID = a.nodeID) ↔
        ∀ b ∈ db.attempts.rows, b.jobID = j.id → b.nodeID = a.nodeID) := by
  have reported := stored.reported
  refine ⟨?_, fun j member succeeded => ?_⟩
  · intro now hosts fleet rows id card listed printed shown host member trimmed row inside same
    have total := publicHosts_credit listed member
    have earned := card_credit reported trimmed shown
    have credit : row.hostCreditMicrodollars = creditSum (fun h => h.nodeID = host.nodeID) db := by
      simp only [fleetReport] at printed
      split at printed
      · cases printed
        obtain ⟨n, -, rfl⟩ := mem_map.mp inside
        rw [← same]
        exact fleetRow_credit reported
      · cases printed
    have reversed := creditSum_split (p := fun h => h.nodeID = host.nodeID)
      (q := fun h => h.state = .reversed) db
    have unmarked := creditSum_split (p := fun h => h.nodeID = host.nodeID)
      (q := fun h => (db.attempts.find? h.attemptID).any fun a => a.status = .succeeded) db
    simp only [Bool.decide_and, and_comm, Bool.decide_eq_true, decide_not, ne_eq] at total earned
    simp only [reversedCredit, unmarkedCredit, Bool.decide_and, Bool.decide_eq_true, decide_not]
    omega
  · obtain ⟨r, stored, accepted, a, found, ofJob⟩ := reported.accepted j member succeeded
    refine ⟨r, stored, accepted, a, found, ofJob, ?_⟩
    simp only [counted_iff member succeeded]
    constructor
    · intro only b inside same
      exact (only b.nodeID).mp ⟨b, inside, rfl, same⟩
    · intro only nodeID
      constructor
      · rintro ⟨b, inside, rfl, same⟩
        exact only b inside same
      · rintro rfl
        exact ⟨a, mem_of_find? found, rfl, ofJob⟩

theorem exists_stored {c : Db → Bool}
    (checked : ((coordinator settings).runSchedule (verifiedWith "hello")
      (.boot sampled)).any (fun r => c r.2.state.db) = true) :
    ∃ db, Stored db ∧ c db = true := by
  obtain ⟨ls, last, run, checks⟩ := Machine.exists_run checked
  exact ⟨last.state.db, stored_of_run run, checks⟩

theorem host_reports_agree_iff_accepted : ∃ db, Stored db ∧ ∃ hosts rows card host row,
    publicHosts db 0 = .ok hosts ∧ fleetReport db (fun _ => true) = .ok rows ∧ host ∈ hosts ∧
    row ∈ rows ∧ contributionCard db host.nodeID = .ok card ∧
    host.creditedMicrodollarsTotal = card.creditEarnedMicrodollars ∧
    card.creditEarnedMicrodollars = row.hostCreditMicrodollars := by
  obtain ⟨db, stored, checks⟩ := exists_stored (c := fun db =>
    (publicHosts db 0).toOption.any fun hosts =>
      (fleetReport db fun _ => true).toOption.any fun rows => hosts.any fun host =>
        (contributionCard db host.nodeID).toOption.any fun _ => rows.any fun row =>
          trimSpace host.nodeID = host.nodeID ∧ row.nodeID = host.nodeID ∧
          reversedCredit db host.nodeID = 0 ∧ unmarkedCredit db host.nodeID = 0) (by decide +kernel)
  obtain ⟨hosts, listed, checks⟩ := Deployment.ok_of_check checks
  obtain ⟨rows, printed, checks⟩ := Deployment.ok_of_check checks
  obtain ⟨host, member, checks⟩ := any_eq_true.mp checks
  obtain ⟨card, shown, checks⟩ := Deployment.ok_of_check checks
  obtain ⟨row, inside, checks⟩ := any_eq_true.mp checks
  obtain ⟨trimmed, same, clear⟩ := of_decide_eq_true checks
  have agree := (host_reports_agree_iff stored).1 0 hosts _ rows _ card listed printed shown host
    member trimmed row inside same
  exact ⟨db, stored, hosts, rows, card, host, row, listed, printed, member, inside, shown,
    agree.mpr clear⟩

/-- A second node verifies the result. Its credit is not on its card, and the job is counted for
both nodes. -/
theorem verifier_reports_disagree : ∃ db, Stored db ∧ ∃ hosts card host,
    publicHosts db 0 = .ok hosts ∧ host ∈ hosts ∧ contributionCard db host.nodeID = .ok card ∧
    host.creditedMicrodollarsTotal ≠ card.creditEarnedMicrodollars ∧
    "j0" ∈ (fleetRow db "n1").jobsSucceeded ∧ "j0" ∈ (fleetRow db "n2").jobsSucceeded := by
  obtain ⟨db, stored, checks⟩ := exists_stored (c := fun db =>
    (publicHosts db 0).toOption.any fun hosts => hosts.any fun host =>
      (contributionCard db host.nodeID).toOption.any fun card =>
        host.creditedMicrodollarsTotal ≠ card.creditEarnedMicrodollars ∧
        "j0" ∈ (fleetRow db "n1").jobsSucceeded ∧ "j0" ∈ (fleetRow db "n2").jobsSucceeded)
    (by decide +kernel)
  obtain ⟨hosts, listed, checks⟩ := Deployment.ok_of_check checks
  obtain ⟨host, member, checks⟩ := any_eq_true.mp checks
  obtain ⟨card, shown, checks⟩ := Deployment.ok_of_check checks
  exact ⟨db, stored, hosts, card, host, listed, member, shown, of_decide_eq_true checks⟩

end Thirdshift
