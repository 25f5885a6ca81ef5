import Thirdshift.Coordinator.Waiters
import Thirdshift.Coordinator.Replays

/-!
# Tenants

A developer request acts for the organization of its API key. What a request of one organization is
told comes from its own jobs and records, and what it changes are its own, but for the leases of
others that it finds lapsed when it looks for a node.
-/

namespace Thirdshift

open Foundation List Table Tx StoreCall Ev Store

variable {ls past : Trace} {orgID apiKeyID : String} {i : Nat} {event : Ev} {id : JobID} {j : Job}
  {response : OpenAIResponse} {ctx : Ctx}

/-! ### Jobs of an organization -/

def TenantOf (ls : Trace) (i : Nat) (orgID : String) : Prop :=
  ∃ entry, (entries ls)[i]? = some entry ∧ entry.orgID? = some orgID

def CreatedFor (ls : Trace) (orgID : String) (jobID : JobID) : Prop :=
  ∃ i, TenantOf ls i orgID ∧ CreatedJob (localTrace i ls) jobID

theorem TenantOf.append (tenant : TenantOf ls i orgID) (rest : Trace) :
    TenantOf (ls ++ rest) i orgID := by
  obtain ⟨entry, started, acts⟩ := tenant
  exact ⟨entry, entry_kept started rest, acts⟩

theorem CreatedFor.append {jobID : JobID} (created : CreatedFor ls orgID jobID) (rest : Trace) :
    CreatedFor (ls ++ rest) orgID jobID := by
  obtain ⟨i, tenant, creates⟩ := created
  exact ⟨i, tenant.append rest, creates.mono (localTrace_of_append i ls rest)⟩

theorem StoreCall.organizationID_onJob (input : Input) (call : StoreCall) (j : Job) :
    (call.onJob input j).organizationID = j.organizationID := by
  cases call <;> first
    | rfl
    | (simp only [StoreCall.onJob, Table.updateWhere]
       split <;> rfl)

/-- Every job is filed under the organization of the request that created it. -/
structure Tenancy (ls : Trace) (s : State) : Prop where
  filed : ∀ id j, s.db.jobs.find? id = some j → CreatedFor ls j.organizationID id
  own : ∀ i jobID, CreatedJob (localTrace i ls) jobID →
    ∃ j, s.db.jobs.find? jobID = some j ∧ TenantOf ls i j.organizationID

section

variable {settings : Settings} {start : State} {mid next c : Config steps State}

theorem Ev.job_tenant (valid : event.Valid settings)
    (found : event.before.db.jobs.find? id = some j) :
    ∃ j', event.after.db.jobs.find? id = some j' ∧ j'.organizationID = j.organizationID := by
  refine ⟨event.onJob j, job_kept valid found, ?_⟩
  cases commits : event.commits with
  | none =>
    simp only [Ev.onJob, commits]
    rfl
  | some call => simp only [Ev.onJob, commits, organizationID_onJob]

section

variable (run : Ran settings start past mid) (step : Acts settings mid event next)
include run step

theorem filed_of_newJob (new : event.newJob = some j) :
    TenantOf past event.thread j.organizationID ∧ createdJob event.op event.resp = some j.id := by
  obtain ⟨call, commits, adds⟩ := Option.bind_eq_some_iff.mp new
  obtain ⟨entry, started, conduct⟩ := conducts run step
  have valid : event.Valid settings := step.exec
  obtain ⟨thread, op, input, s, s', r⟩ := event
  obtain ⟨ctx, called⟩ := committed_eq_some commits
  cases called
  cases call with
  | createJob orgID apiKeyID modelID deadlineAt =>
    cases adds
    rcases conduct.front_or_serves with ⟨acts, -⟩ | ⟨own, serves⟩
    · refine ⟨⟨entry, started, acts⟩, ?_⟩
      cases r with
      | error e => cases commits
      | ok jobID =>
        have ran := exec_of_ok (show Thirdshift.step settings _ input s = some (s', _) from valid)
        obtain ⟨_, mid, -, done⟩ := exec_bind_ok ran
        obtain ⟨rfl, -⟩ := exec_done_ok done
        rfl
    · exact serves.elim
  | _ => cases adds

theorem Tenancy.act
    (tenancy : Tenancy past event.before) : Tenancy (past ++ [.act event]) event.after := by
  have valid : event.Valid settings := step.exec
  have added : ∀ {j}, event.newJob = some j →
      CreatedFor (past ++ [.act event]) j.organizationID j.id := by
    intro j new
    obtain ⟨tenant, creates⟩ := filed_of_newJob run step new
    refine ⟨event.thread, tenant.append _, ⟨event.op, event.resp⟩, ?_, creates⟩
    rw [localTrace_snoc_act, if_pos rfl]
    exact mem_concat_self
  constructor
  case filed =>
    intro id j found
    rw [Ev.jobs_after valid, Option.or_eq_some_iff] at found
    rcases found with kept | ⟨-, new⟩
    · obtain ⟨old, before, rfl⟩ := Option.map_eq_some_iff.mp kept
      obtain ⟨j', after, same⟩ := job_tenant valid before
      rw [job_kept valid before] at after
      rw [Option.some.inj after, same]
      exact (tenancy.filed id old before).append _
    · obtain ⟨new, named⟩ := Option.filter_eq_some_iff.mp new
      rw [← of_decide_eq_true named]
      exact added new
  case own =>
    intro i jobID created
    rcases createdJob_after created with old | ⟨rfl, creates⟩
    · obtain ⟨j, found, tenant⟩ := tenancy.own i jobID old
      obtain ⟨j', after, same⟩ := job_tenant valid found
      exact ⟨j', after, same ▸ tenant.append _⟩
    · obtain ⟨fresh, j, found⟩ := fresh_of_createdJob valid creates
      rw [Ev.jobs_after valid, fresh, Option.map_none, Option.none_or] at found
      obtain ⟨new, -⟩ := Option.filter_eq_some_iff.mp found
      refine ⟨j, ?_, (filed_of_newJob run step new).1.append _⟩
      rw [Ev.jobs_after valid, fresh, Option.map_none, Option.none_or, found]

end

theorem tenancy_of_run {catalog : Catalog} {nodes : Table Node.id}
    (run : Ran settings (boot catalog nodes) ls c) : Tenancy ls c.state := by
  refine run.invariant (I := Tenancy) ?_ ?_ ?_
  · constructor
    case filed => exact fun id j found => nomatch found
    case own =>
      rintro i jobID ⟨obs, member, -⟩
      cases member
  · intro past mid entry _ tenancy
    constructor
    case filed => exact fun id j found => (tenancy.filed id j found).append _
    case own =>
      intro i jobID created
      rw [localTrace_snoc_spawn] at created
      obtain ⟨j, found, tenant⟩ := tenancy.own i jobID created
      exact ⟨j, found, tenant.append _⟩
  · exact fun past event mid next before step tenancy => tenancy.act before step

end

/-! ### What a status is read from -/

/-- Two databases with the same jobs of an organization and the same results of these. -/
structure SameTenant (orgID : String) (db db' : Db) : Prop where
  jobs : ∀ id, (db.jobs.find? id).filter (fun j => j.organizationID = orgID) =
    (db'.jobs.find? id).filter fun j => j.organizationID = orgID
  results : ∀ id j, db.jobs.find? id = some j → j.organizationID = orgID →
    (db.results.rows.filter fun r => r.jobID = id) = db'.results.rows.filter fun r => r.jobID = id

theorem getJob_congr {db db' : Db} (same : SameTenant orgID db db')
    {status : Store.JobStatus} (found : Store.getJob db orgID id = .ok status) :
    Store.getJob db' orgID id = .ok status := by
  unfold Store.getJob at found ⊢
  split at found
  next j here =>
    split at found
    next mine =>
      have jobs := same.jobs id
      rw [here, Option.filter_some, if_pos (decide_eq_true mine)] at jobs
      obtain ⟨there, -⟩ := Option.filter_eq_some_iff.mp jobs.symm
      have results := same.results id j here mine
      simp only [there, if_pos mine]
      rw [← found]
      have accepted : ∀ rows : List JobResult,
          (rows.filter fun r => r.jobID = id ∧ r.accepted) =
            (rows.filter fun r => r.jobID = id).filter fun r => r.accepted := by
        intro rows
        rw [filter_filter]
        refine filter_congr fun r _ => ?_
        simp [Bool.and_comm]
      rw [accepted, accepted, results]
    · cases found
  · cases found

/-! ### What the answers are made from -/

/-- A status that the thread has read of a job of the organization, and that no other job, nor any
result of another job, has a part in. -/
def StatusOf (ls : Trace) (i : Nat) (orgID : String) (jobID : JobID) (found : Store.JobStatus) :
    Prop :=
  ∃ past event rest, ls = past ++ .act event :: rest ∧ event.thread = i ∧
    event.op = .store .caller (.getJob orgID jobID) ∧ CreatedFor past orgID jobID ∧
    ∀ db, SameTenant orgID event.before.db db → Store.getJob db orgID jobID = .ok found

/-- A response that is made from a completion of the job by a node, the data class of its model, and
a count of the attempts of the job. -/
def ResponseOf (ls : Trace) (jobID : JobID) (response : OpenAIResponse) : Prop :=
  ∃ past event rest ctx payload receivedAt hold status dataClass attempts,
    ls = past ++ .act event :: rest ∧
    event.op = .store ctx (.completeJob payload receivedAt hold status dataClass attempts) ∧
    payload.jobID = jobID ∧
    response = completionResponse (event.input.ids 0) payload dataClass attempts ∧
    (attempts = 1 ∨ Counted (localTrace event.thread past) jobID attempts)

def StoredUnder (ls : Trace) (apiKeyID : String) (response : OpenAIResponse) : Prop :=
  ∃ i entry endpoint key requestHash jobID, (entries ls)[i]? = some entry ∧
    entry.apiKeyID? = some apiKeyID ∧
    Happened (fun event : Ev => event.thread = i ∧ ∃ ctx, event.op = .store ctx
      (.storeIdempotencyResponse apiKeyID endpoint key requestHash jobID response)) ls

theorem StoredUnder.append (stored : StoredUnder ls apiKeyID response) (rest : Trace) :
    StoredUnder (ls ++ rest) apiKeyID response := by
  obtain ⟨i, entry, endpoint, key, requestHash, jobID, started, acts, happened⟩ := stored
  exact ⟨i, entry, endpoint, key, requestHash, jobID, entry_kept started rest, acts,
    happened.append rest⟩

section

variable {settings : Settings} {catalog : Catalog} {nodes : Table Node.id} {start : State}
  {mid next c : Config steps State} {jobID : JobID}

theorem statusOf_seen (run : Ran settings (boot catalog nodes) ls c) {found : Store.JobStatus}
    (seen : ⟨.store .caller (.getJob orgID jobID), .ok found⟩ ∈ localTrace i ls) :
    StatusOf ls i orgID jobID found := by
  obtain ⟨event, member, mine, same⟩ := mem_localTrace.mp seen
  obtain ⟨past, rest, mid, next, cut, before, step⟩ := run.around member
  have tenancy := tenancy_of_run before
  rw [← step.start] at tenancy
  have read : Store.getJob event.before.db orgID jobID = .ok found := by
    have valid : Ev.Valid settings event := step.exec
    obtain ⟨thread, op, input, s, s', r⟩ := event
    cases same
    have ran := exec_of_ok (show Thirdshift.step settings _ input s = some (s', _) from valid)
    obtain ⟨got, _, selected, rest⟩ := exec_bind_ok ran
    obtain ⟨rfl, rfl⟩ := exec_select_ok selected
    split at rest
    next status is =>
      obtain ⟨rfl, -⟩ := exec_done_ok rest
      exact is
    · cases rest
  have created : CreatedFor past orgID jobID := by
    have filed := read
    unfold Store.getJob at filed
    split at filed
    next j here =>
      split at filed
      next org => exact org ▸ tenancy.filed jobID j here
      · cases filed
    · cases filed
  exact ⟨past, event, rest, cut, mine, (congrArg Obs.op same).symm, created,
    fun db same => getJob_congr same read⟩

theorem responseOf_responded (run : Ran settings start ls c)
    (responds : Responded ls jobID response) : ResponseOf ls jobID response := by
  obtain ⟨event, member, responds⟩ := responds
  obtain ⟨past, rest, mid, next, cut, before, step⟩ := run.around member
  obtain ⟨entry, -, conduct⟩ := conducts before step
  have valid : Ev.Valid settings event := step.exec
  obtain ⟨thread, op, input, s, s', r⟩ := event
  cases op with
  | store ctx call =>
    cases call with
    | completeJob payload receivedAt hold status dataClass attempts =>
      cases r with
      | error e => cases responds
      | ok told =>
        cases responds
        have ran := exec_of_ok (show Thirdshift.step settings _ input s = some (s', _) from valid)
        obtain ⟨_, _, -, done⟩ := exec_bind_ok ran
        obtain ⟨rfl, -⟩ := exec_done_ok done
        rcases conduct.front_or_serves with front | ⟨own, -, -, counted⟩
        · exact front.elim
        · exact ⟨past, _, rest, ctx, payload, receivedAt, hold, status, dataClass, attempts, cut, rfl,
            rfl, rfl, counted⟩
    | _ => cases responds
  | _ => cases responds

theorem ResponseOf.carries (made : ResponseOf ls jobID response) :
    response.thirdshift.jobID = jobID := by
  obtain ⟨_, _, _, _, payload, _, _, _, _, _, -, -, same, rfl, -⟩ := made
  exact same

theorem storedRow_written (db : Db) (row : IdempotencyRow) :
    (db.storedRow row).apiKeyID = row.apiKeyID ∧ (db.storedRow row).response = row.response := by
  refine ⟨(storedRow_sameKey db row).1, ?_⟩
  unfold Db.storedRow
  split <;> rfl

theorem apiKey_of_store (run : Ran settings start past mid) (step : Acts settings mid event next)
    {endpoint key requestHash : String} (stores : event.op =
      .store ctx (.storeIdempotencyResponse apiKeyID endpoint key requestHash jobID response)) :
    ∃ entry, (entries past)[event.thread]? = some entry ∧ entry.apiKeyID? = some apiKeyID := by
  obtain ⟨entry, started, conduct⟩ := conducts run step
  rw [stores] at conduct
  rcases conduct.front_or_serves with acts | ⟨own, serves⟩
  · exact ⟨entry, started, acts⟩
  · exact serves.elim

theorem storedUnder_of_run (run : Ran settings (boot catalog nodes) ls c) :
    ∀ row ∈ c.state.db.idempotency.rows, StoredUnder ls row.apiKeyID row.response := by
  refine run.invariant
    (I := fun ls s => ∀ row ∈ s.db.idempotency.rows, StoredUnder ls row.apiKeyID row.response) ?_ ?_ ?_
  · intro row member
    cases member
  · exact fun past mid entry _ stored row member => (stored row member).append _
  · intro past event mid next before step stored row member
    rcases idempotency_after step.exec with same | ⟨ctx, apiKeyID, endpoint, key, requestHash, jobID,
      response, op, written, rfl, rfl, rfl, rfl, rfl, rfl, after⟩
    · rw [same] at member
      exact (stored row member).append _
    · rw [after, mem_put] at member
      rcases member with rfl | ⟨old, -⟩
      · obtain ⟨entry, started, acts⟩ := apiKey_of_store before step op
        obtain ⟨sameKey, sameResponse⟩ := storedRow_written event.before.db written
        rw [sameKey, sameResponse]
        refine ⟨event.thread, entry, _, _, _, _, entry_kept started _, acts, event, ?_, rfl, ctx, op⟩
        exact mem_events.mpr mem_concat_self
      · exact (stored row old).append _

theorem storedUnder_seen (run : Ran settings (boot catalog nodes) ls c)
    {call : ChatCall} {row : IdempotencyRow}
    (seen : ⟨call.lookup, .ok (some row)⟩ ∈ localTrace i ls) :
    row.apiKeyID = call.principal.id ∧ StoredUnder ls row.apiKeyID row.response := by
  obtain ⟨event, member, -, same⟩ := mem_localTrace.mp seen
  obtain ⟨past, rest, mid, next, cut, before, step⟩ := run.around member
  have stored := storedUnder_of_run before
  rw [← step.start] at stored
  have valid : Ev.Valid settings event := step.exec
  obtain ⟨thread, op, input, s, s', r⟩ := event
  cases same
  have exec : Thirdshift.step settings call.lookup input s = some (s', .ok (some row)) := valid
  obtain ⟨inside, keys⟩ := row_of_lookup exec
  exact ⟨keys.1, cut ▸ (stored row inside).append _⟩

end

/-! ### What a request changes -/

section

variable {settings : Settings} {mid next : Config steps State} {entry : Entry} {call : StoreCall}

theorem named_of_conducts {seen : Seen} (acts : entry.orgID? = some orgID)
    (conduct : Conducts entry seen (.store ctx call)) (names : call.jobOf = some id) :
    CreatedJob seen id ∨ Swept seen id ∨ call = .cancelJob orgID id := by
  cases conduct with
  | front fronts =>
    cases call with
    | failJob jobID =>
      cases names
      exact .inl fronts.2
    | cancelJob other jobID =>
      cases names
      have same : entry.orgID? = some other := fronts
      cases acts.symm.trans same
      exact .inr (.inr rfl)
    | operatorCancelJob | operatorRetryJob => cases acts.symm.trans fronts.1
    | createAttempt | markAccepted | markStarted | completeJob | failAttempt => exact fronts.elim
    | _ => cases names
  | @service own owns serves =>
    have created : CreatedJob seen own := by
      cases entry with
      | chat => exact owns
      | session => cases acts
      | _ => exact owns.elim
    have minded : ∀ {other}, Minds own seen other → CreatedJob seen other ∨ Swept seen other := by
      rintro other (rfl | swept)
      · exact .inl created
      · exact .inr swept
    cases call with
    | createAttempt | failAttempt | failJob =>
      cases names
      exact (minded serves).imp_right .inl
    | markAccepted | markStarted =>
      cases names
      have same : id = own := serves
      exact .inl (same ▸ created)
    | completeJob payload =>
      cases names
      have same : payload.jobID = own := serves.1
      exact .inl (same ▸ created)
    | cancelJob | operatorCancelJob | operatorRetryJob => exact serves.elim
    | _ => cases names
  | release session =>
    obtain ⟨frames, rfl⟩ := session
    cases acts

theorem jobs_of_tenant {catalog : Catalog} {nodes : Table Node.id}
    (run : Ran settings (boot catalog nodes) past mid) (step : Acts settings mid event next)
    (started : (entries past)[event.thread]? = some entry) (acts : entry.orgID? = some orgID)
    (id : JobID) : event.after.db.jobs.find? id = event.before.db.jobs.find? id ∨
      (∃ j, event.after.db.jobs.find? id = some j ∧ j.organizationID = orgID ∧
        ∀ old, event.before.db.jobs.find? id = some old → old.organizationID = orgID) ∨
      Swept (localTrace event.thread past) id := by
  have valid : event.Valid settings := step.exec
  have tenancy := tenancy_of_run run
  rw [← step.start] at tenancy
  have tenant : ∀ {other}, TenantOf past event.thread other → other = orgID := by
    rintro other ⟨_, started', acts'⟩
    cases started.symm.trans started'
    exact Option.some.inj (acts'.symm.trans acts)
  cases found : event.before.db.jobs.find? id with
  | none =>
    cases after : event.after.db.jobs.find? id with
    | none => exact .inl rfl
    | some j =>
      have added := after
      rw [Ev.jobs_after valid, found, Option.map_none, Option.none_or] at added
      obtain ⟨new, -⟩ := Option.filter_eq_some_iff.mp added
      exact .inr (.inl ⟨j, rfl, tenant (filed_of_newJob run step new).1, nofun⟩)
  | some j =>
    have kept := job_kept valid found
    rw [kept]
    cases commits : event.commits with
    | none =>
      left
      simp only [Ev.onJob, commits]
      rfl
    | some call =>
      have same : event.onJob j = call.onJob event.input j := by simp only [Ev.onJob, commits]
      rw [same]
      by_cases names : call.jobOf = some id
      · obtain ⟨ctx, called⟩ := committed_eq_some commits
        obtain ⟨entry', started', conduct⟩ := conducts run step
        cases started.symm.trans started'
        rw [called] at conduct
        have mine (owner : j.organizationID = orgID) :
            (call.onJob event.input j).organizationID = orgID ∧
              ∀ old, some j = some old → old.organizationID = orgID :=
          ⟨(organizationID_onJob event.input call j).trans owner,
            fun _ same => Option.some.inj same ▸ owner⟩
        rcases named_of_conducts acts conduct names with created | swept | rfl
        · obtain ⟨j', found', owner⟩ := tenancy.own _ _ created
          cases found.symm.trans found'
          exact .inr (.inl ⟨_, rfl, mine (tenant owner)⟩)
        · exact .inr (.inr swept)
        · by_cases owner : j.organizationID = orgID
          · exact .inr (.inl ⟨_, rfl, mine owner⟩)
          · exact .inl (congrArg some (if_neg (by simp [owner])))
      · refine .inl (congrArg some (onJob_of_other ?_))
        rw [key_of_find? found]
        exact names

theorem idempotency_of_tenant {start : State} (run : Ran settings start past mid)
    (step : Acts settings mid event next)
    (started : (entries past)[event.thread]? = some entry) (id : String) :
    event.after.db.idempotency.find? id = event.before.db.idempotency.find? id ∨
      ∃ row, event.after.db.idempotency.find? id = some row ∧ entry.apiKeyID? = some row.apiKeyID ∧
        ∀ old, event.before.db.idempotency.find? id = some old → old.apiKeyID = row.apiKeyID := by
  have valid : event.Valid settings := step.exec
  cases commits : event.commits with
  | none =>
    rw [db_of_uncommitted valid commits]
    exact .inl rfl
  | some call =>
    obtain ⟨v, ran⟩ := exec_of_committed valid commits
    obtain ⟨ctx, called⟩ := committed_eq_some commits
    cases call with
    | storeIdempotencyResponse apiKeyID endpoint key requestHash jobID response =>
      obtain ⟨entry', started', acts⟩ := apiKey_of_store run step called
      cases started.symm.trans started'
      obtain ⟨after, apart⟩ := idempotency_after_store ran
      have sameKey := (storedRow_written event.before.db ⟨event.input.ids 0, apiKeyID, endpoint, key,
        requestHash, 200, response, jobID, event.input.now + seconds (24 * 60 * 60)⟩).1
      rw [after, find?_put]
      split
      next here =>
        refine .inr ⟨_, rfl, acts.trans (congrArg some sameKey.symm), fun old found => ?_⟩
        -- the row that is replaced has the same key
        by_contra other
        refine apart old (mem_of_find? found) (fun same => ?_)
          ((key_of_find? found).trans here.symm)
        exact other (same.1.trans sameKey.symm)
      · exact .inl rfl
    | _ =>
      refine .inl ?_
      rw [(writesTo_tables event.input _).idempotency
        (by simp [tables, Ledger.tables]) ran]

end

/-- However requests of any organizations and messages of nodes interleave: a request is told the
status of its organization's jobs, the response of the job it has created, or a record of its own
API key; it changes jobs of its organization and those it has found lapsed, and records of its own
API key; and what it receives was sent for the job it has created. -/
theorem tenants_isolated {settings : Settings} {catalog : Catalog} {nodes : Table Node.id}
    {ls past rest : Trace} {c : Config steps State} {event : Ev} {entry : Entry} {orgID : String}
    (run : (coordinator settings).Run (.boot (boot catalog nodes)) ls c)
    (cut : ls = past ++ .act event :: rest)
    (started : (entries past)[event.thread]? = some entry) (acts : entry.orgID? = some orgID) :
    (∀ about code found, event.op = .answer about (.status code found) →
      ∃ jobID, about = some jobID ∧ StatusOf past event.thread orgID jobID found) ∧
    (∀ about response, event.op = .answer about (.completion response) →
      ∃ jobID, about = some jobID ∧ CreatedJob (localTrace event.thread past) jobID ∧
        ResponseOf past jobID response) ∧
    (∀ about row, event.op = .answer about (.replay row) →
      entry.apiKeyID? = some row.apiKeyID ∧ StoredUnder past row.apiKeyID row.response) ∧
    (∀ id, event.after.db.jobs.find? id = event.before.db.jobs.find? id ∨
      (∃ j, event.after.db.jobs.find? id = some j ∧ j.organizationID = orgID ∧
        ∀ old, event.before.db.jobs.find? id = some old → old.organizationID = orgID) ∨
      Swept (localTrace event.thread past) id) ∧
    (∀ id, event.after.db.idempotency.find? id = event.before.db.idempotency.find? id ∨
      ∃ row, event.after.db.idempotency.find? id = some row ∧
        entry.apiKeyID? = some row.apiKeyID ∧
        ∀ old, event.before.db.idempotency.find? id = some old → old.apiKeyID = row.apiKeyID) ∧
    (∀ channel result, (⟨event.op, event.resp⟩ : Obs steps) = ⟨.await channel, some result⟩ →
      ∃ jobID, CreatedJob (localTrace event.thread past) jobID ∧
        Taken (past ++ [.act event]) jobID result channel ∧
        (result.error.code = "" → result.response.thirdshift.jobID = jobID)) := by
  obtain ⟨mid, next, before, step, -⟩ := run.split cut
  obtain ⟨entry', started', conduct⟩ := conducts before step
  cases started.symm.trans started'
  -- an answer is given by the handler itself
  have answers : ∀ about a, event.op = .answer about a →
      a.From entry (localTrace event.thread past) about := by
    intro about a same
    rw [same] at conduct
    rcases conduct.front_or_serves with known | ⟨own, serves⟩
    · exact known
    · exact serves.elim
  refine ⟨?_, ?_, ?_, jobs_of_tenant before step started acts,
    idempotency_of_tenant before step started, ?_⟩
  · intro about code found same
    obtain ⟨org, jobID, mine, is, seen⟩ := answers _ _ same
    cases acts.symm.trans mine
    exact ⟨jobID, is, statusOf_seen before seen⟩
  · intro about response same
    obtain ⟨-, jobID, is, delivered⟩ := answers _ _ same
    exact ⟨jobID, is, delivered.1,
      responseOf_responded before (responded_of_delivered before delivered)⟩
  · intro about row same
    obtain ⟨call, rfl, seen⟩ := answers _ _ same
    obtain ⟨mine, stored⟩ := storedUnder_seen before seen
    exact ⟨congrArg some mine.symm, stored⟩
  · intro channel result same
    have after := before.snoc step
    have seen : (⟨.await channel, some result⟩ : Obs steps) ∈
        localTrace event.thread (past ++ [.act event]) := by
      rw [localTrace_snoc_act, if_pos rfl, ← same]
      exact mem_concat_self
    have called : event.op = .await channel := congrArg Obs.op same
    rw [called] at conduct
    rcases conduct.front_or_serves with ⟨-, jobID, created, waited⟩ | ⟨own, serves⟩
    · have told := (waiting_of_run after).told
        ((localTrace_of_append event.thread past [.act event]).subset waited) seen
      exact ⟨jobID, created, told, fun ok =>
        (responseOf_responded after (responded_of_taken after told ok)).carries⟩
    · exact serves.elim

namespace Deployment

/-- A job is asked for by a rival of the organization that created it, and by the organization. -/
def askedTwice : List (Choice Input Entry) :=
  connect 0 "n1" ++ request 1 "j" "a" ++
  [.spawn (.getJob "org" "j0"), .spawn (.getJob "rival" "j0")] ++ advance 3 2 ++ advance 2 2

def turnsAway : Op → Bool
  | .answer _ (.error e) => e.code = codeInvalidRequest
  | _ => false

end Deployment

def givesStatus (past : Trace) (event : Ev) : Bool :=
  match (entries past)[event.thread]?, event.op with
  | some (.getJob orgID jobID), .answer (some about) (.status code _) =>
    decide (orgID = "org" ∧ jobID = "j0" ∧ about = "j0" ∧ code = 200)
  | _, _ => false

open Deployment in
/-- The organization is told the status of its job, and the rival that there is none. -/
theorem tenants_isolated_status : ∃ ls c,
    (coordinator settings).Run (.boot start) ls c ∧
    Happened (fun event => event.thread = 3 ∧ turnsAway event.op = true) ls ∧
    ∃ past event rest found, ls = past ++ .act event :: rest ∧
      (entries past)[event.thread]? = some (.getJob "org" "j0") ∧
      event.op = .answer (some "j0") (.status 200 found) ∧
      StatusOf past event.thread "org" "j0" found := by
  obtain ⟨ls, c, run, away, found⟩ := run_of_check
    (p := fun ls _ => Happened (fun event => event.thread = 3 ∧ turnsAway event.op = true) ls ∧
      Machine.cutAt (ls.length - 1) (fun past event _ => givesStatus past event) ls = true)
    askedTwice (by decide +kernel)
  obtain ⟨past, event, rest, cut, holds⟩ := Machine.exists_cut found
  unfold givesStatus at holds
  split at holds
  next orgID jobID about code status started answers =>
    obtain ⟨rfl, rfl, rfl, rfl⟩ := of_decide_eq_true holds
    obtain ⟨told, -⟩ := tenants_isolated run cut started rfl
    obtain ⟨jobID, is, of⟩ := told _ _ _ answers
    cases is
    exact ⟨ls, c, run, away, past, event, rest, status, cut, started, answers, of⟩
  · cases holds

end Thirdshift
