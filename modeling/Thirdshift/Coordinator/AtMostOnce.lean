import Thirdshift.Coordinator.Billing
import Thirdshift.Coordinator.Replays

/-!
# At most one execution per key

Requests with one key and one body are executed at most once as long as they do not overlap, the
response of an accepted job is on record when the key is looked up again, and no job is completed
after its request was answered. None of the three can be left out.
-/

namespace Thirdshift

open Foundation List Deployment

variable {ls : Trace} {past' : Seen} {other : ChatCall} {i : Nat} {s : State}

def Answered (past : Seen) : Prop := ∃ obs ∈ past, Op.answers obs.op = true
  deriving Decidable

def LookedUp (past : Seen) : Prop := ∃ obs ∈ past, Op.looksUp obs.op = true
  deriving Decidable

def Db.Replays (db : Db) (call : ChatCall) (now : Time) : Prop :=
  ∃ row ∈ Store.idempotencyRecord db call.principal.id chatCompletionsEndpoint call.idempotencyKey
    now, row.requestHash = call.bodyHash ∧ 0 < row.responseStatus
  deriving Decidable

def Begins (past : Trace) (event : Ev) : Prop :=
  Op.looksUp event.op = true ∧ ¬HasCreated (localTrace event.thread past)
  deriving Decidable

structure OneAtATime (past : Trace) (event : Ev) : Prop where
  /-- When a request begins, those like it that have begun are answered. -/
  alone : ∀ call ∈ callOf past event.thread, Begins past event → ∀ i < (entries past).length,
    i ≠ event.thread → Alike past call i → LookedUp (localTrace i past) →
    Answered (localTrace i past)
  /-- When a request begins and the job of one like it is accepted, the record is there. -/
  recorded : ∀ call ∈ callOf past event.thread, Begins past event →
    (∃ r ∈ event.before.db.results.rows, r.accepted = true ∧ Requested past call r.jobID) →
    event.before.db.Replays call event.input.dbNow
  /-- The job of a request with a key is completed before the request is answered. -/
  timely : ∀ jobID ∈ Op.completing event.op, ∀ i < (entries past).length,
    (∃ call ∈ callOf past i, call.idempotencyKey ≠ "") → CreatedJob (localTrace i past) jobID →
    ¬Answered (localTrace i past)

set_option synthInstance.maxSize 512 in
instance (past : Trace) (event : Ev) : Decidable (OneAtATime past event) :=
  decidable_of_iff ((∀ call ∈ callOf past event.thread, Begins past event →
      ∀ i < (entries past).length, i ≠ event.thread → Alike past call i →
      LookedUp (localTrace i past) → Answered (localTrace i past)) ∧
    (∀ call ∈ callOf past event.thread, Begins past event →
      (∃ r ∈ event.before.db.results.rows, r.accepted = true ∧ Requested past call r.jobID) →
      event.before.db.Replays call event.input.dbNow) ∧
    ∀ jobID ∈ Op.completing event.op, ∀ i < (entries past).length,
      (∃ call ∈ callOf past i, call.idempotencyKey ≠ "") → CreatedJob (localTrace i past) jobID →
      ¬Answered (localTrace i past))
    ⟨fun ⟨a, b, c⟩ => ⟨a, b, c⟩, fun ⟨a, b, c⟩ => ⟨a, b, c⟩⟩

variable {past : Seen} {call : ChatCall}

theorem Answered.mono (answered : Answered past) (extended : past <+: past') : Answered past' := by
  obtain ⟨obs, member, answers⟩ := answered
  exact ⟨obs, extended.subset member, answers⟩

theorem Missed.mono (missed : Missed call past) (extended : past <+: past') : Missed call past' := by
  obtain ⟨record, member, nothing⟩ := missed
  exact ⟨record, extended.subset member, nothing⟩

theorem Missed.lookedUp (missed : Missed call past) : LookedUp past := by
  obtain ⟨record, member, -⟩ := missed
  exact ⟨_, member, rfl⟩

@[simp] theorem callOf_snoc_act (ls : Trace) (event : Ev) (i : Nat) :
    callOf (ls ++ [.act event]) i = callOf ls i := by
  simp [callOf]

theorem Alike.of_same (alike : Alike ls call i) (same : other.Same call) : Alike ls other i := by
  obtain ⟨like, serves, apiKey, key, hash⟩ := alike
  exact ⟨like, serves, apiKey.trans same.1.symm, key.trans same.2.1.symm, hash.trans same.2.2.symm⟩

theorem lt_of_alike (alike : Alike ls call i) : i < (entries ls).length := by
  obtain ⟨like, serves, -⟩ := alike
  exact lt_of_callOf serves

theorem Requested.of_same {jobID : JobID} (requested : Requested ls call jobID)
    (same : other.Same call) : Requested ls other jobID := by
  obtain ⟨i, started, alike, created⟩ := requested
  exact ⟨i, started, alike.of_same same, created⟩

theorem not_replays_of_missed {settings : Settings} {input : Input} {s' : State}
    {record : Option IdempotencyRow}
    (exec : step settings call.lookup input s = some (s', .ok record))
    (missed : ∀ row ∈ record, resolveIdempotency row call.bodyHash = none) :
    ¬s.db.Replays call input.dbNow := by
  rintro ⟨row, found, hash, replayable⟩
  obtain ⟨rfl, -⟩ := Tx.exec_select_ok (exec_of_ok exec)
  have resolved := missed row found
  simp [resolveIdempotency, hash, replayable] at resolved

section

variable {settings : Settings} {catalog : Catalog} {nodes : Table Node.id} {past : Trace}
  {c mid next : Config steps State} {event : Ev} {call : ChatCall}

variable {jobID : JobID}

section

variable (run : Ran settings s ls c)
include run

section

variable (serves : callOf ls i = some call)
include serves

theorem untouched_of_creates {earlier later : Seen}
    {obs : Obs steps} (trace : localTrace i ls = earlier ++ obs :: later)
    (creates : Op.createsJob obs.op = true) :
    Untouched earlier ∧ (call.idempotencyKey ≠ "" → Missed call earlier) := by
  obtain ⟨past, ⟨thread, op, input, s, s', r⟩, rest, cut, rfl, rfl, rfl⟩ := localTrace_eq_append trace
  obtain ⟨mid, next, before, step, -⟩ := run.split cut
  obtain ⟨entry, started, allowed⟩ := disciplined before step
  have chat := callOf_chat.mp (callOf_of_step before step (cut ▸ serves))
  rw [started] at chat
  cases op with
  | store ctx request =>
    cases request with
    | createJob => exact (allowed.2 call (Option.some.inj chat)).2.2
    | _ => cases creates
  | _ => cases creates

theorem missed_of_created (keyed : call.idempotencyKey ≠ "")
    (created : HasCreated (localTrace i ls)) : Missed call (localTrace i ls) := by
  obtain ⟨obs, member, creates⟩ := created
  obtain ⟨earlier, later, trace⟩ := append_of_mem member
  have missed := (untouched_of_creates run serves trace creates).2 keyed
  exact missed.mono (trace ▸ prefix_append _ _)

theorem created_once {jobID' : JobID}
    (created : CreatedJob (localTrace i ls) jobID) (created' : CreatedJob (localTrace i ls) jobID') :
    jobID = jobID' := by
  have asks : ∀ {obs : Obs steps} {id}, createdJob obs.op obs.resp = some id →
      Op.createsJob obs.op = true := by
    intro obs id creates
    have created : CreatedJob [obs] id := ⟨obs, mem_cons_self, creates⟩
    obtain ⟨other, member, asks⟩ := created.hasCreated
    exact mem_singleton.mp member ▸ asks
  obtain ⟨obs, member, creates⟩ := created
  obtain ⟨obs', member', creates'⟩ := created'
  obtain ⟨earlier, later, trace⟩ := append_of_mem member
  rw [trace, mem_append, mem_cons] at member'
  rcases member' with before | rfl | after
  · have untouched := (untouched_of_creates run serves trace (asks creates)).1
    exact absurd ((untouched obs' before).1.symm.trans (asks creates')) Bool.false_ne_true
  · exact Option.some.inj (creates.symm.trans creates')
  · obtain ⟨between, rest, split⟩ := append_of_mem after
    have trace' : localTrace i ls = (earlier ++ obs :: between) ++ obs' :: rest := by
      simp [trace, split]
    have untouched := (untouched_of_creates run serves trace' (asks creates')).1
    exact absurd ((untouched obs (by simp)).1.symm.trans (asks creates)) Bool.false_ne_true

end

end

theorem completing_of_createdJob {op : Op} {r : op.Resp}
    (creates : createdJob op r = some jobID) : op.completing = none := by
  cases op with
  | store ctx request => cases request <;> first | rfl | cases creates
  | _ => cases creates

theorem known_of_accepted (run : Ran settings (boot catalog nodes) ls c)
    (accepted : Accepted c.state.db jobID) : ∃ j, c.state.db.jobs.find? jobID = some j := by
  refine run.invariant (I := fun _ (s : State) => ∀ jobID, Accepted s.db jobID →
    ∃ j, s.db.jobs.find? jobID = some j) ?_ (fun _ _ _ _ known => known) ?_ jobID accepted
  · rintro jobID ⟨r, member, -⟩
    cases member
  · intro past event mid next _ step known jobID accepted
    have valid : Ev.Valid settings event := step.exec
    refine Ev.job_persists valid ?_
    rcases (Ev.accepted_after valid).mp accepted with before | ⟨attemptID, completes⟩
    · exact known jobID before
    · obtain ⟨call, commits, completion⟩ := Option.bind_eq_some_iff.mp completes
      obtain ⟨v, ran⟩ := exec_of_committed valid commits
      cases call with
      | completeJob =>
        cases completion
        exact StoreCall.job_of_completeJob ran
      | _ => cases completion

theorem createdJob_before (run : Ran settings (boot catalog nodes) past mid)
    (step : Acts settings mid event next) (accepted : Accepted event.after.db jobID)
    (created : CreatedJob (localTrace i (past ++ [.act event])) jobID) :
    CreatedJob (localTrace i past) jobID := by
  have valid : Ev.Valid settings event := step.exec
  obtain ⟨obs, member, creates⟩ := created
  rw [localTrace_snoc_act, mem_append] at member
  rcases member with old | new
  · exact ⟨obs, old, creates⟩
  · split at new
    · rw [mem_singleton.mp new] at creates
      have fresh := (fresh_of_createdJob step.exec creates).1
      rcases (Ev.accepted_after valid).mp accepted with before | ⟨attemptID, completes⟩
      · obtain ⟨j, found⟩ := known_of_accepted run (step.start ▸ before)
        rw [step.start, found] at fresh
        cases fresh
      · have completing := completing_of_completes completes
        rw [completing_of_createdJob creates] at completing
        cases completing
    · cases new

/-! ### The invariant -/

structure Once (call : ChatCall) (ls : Trace) (s : State) : Prop where
  overlap : ∀ i i', Alike ls call i → Alike ls call i' → i ≠ i' → LookedUp (localTrace i ls) →
    LookedUp (localTrace i' ls) → Answered (localTrace i ls) ∨ Answered (localTrace i' ls)
  first : ∀ i i' other jobID, Alike ls call i → callOf ls i' = some other → other.Same call →
    i ≠ i' → CreatedJob (localTrace i ls) jobID → Accepted s.db jobID →
    Missed other (localTrace i' ls) → Answered (localTrace i' ls)
  once : ∀ jobID jobID', Requested ls call jobID → Requested ls call jobID' →
    Accepted s.db jobID → Accepted s.db jobID' → jobID = jobID'

theorem keyed_of_same (keyed : call.idempotencyKey ≠ "")
    (same : other.Same call) : other.idempotencyKey ≠ "" :=
  same.2.1 ▸ keyed

theorem begins_or_before (run : Ran settings s past mid)
    (keyed : call.idempotencyKey ≠ "") (alike : Alike past call i)
    (looked : LookedUp (localTrace i (past ++ [.act event]))) :
    LookedUp (localTrace i past) ∨ event.thread = i ∧ Begins past event := by
  obtain ⟨obs, member, looks⟩ := looked
  rw [localTrace_snoc_act, mem_append] at member
  rcases member with old | new
  · exact .inl ⟨obs, old, looks⟩
  · split at new
    next mine =>
      subst mine
      rw [mem_singleton.mp new] at looks
      by_cases created : HasCreated (localTrace event.thread past)
      · obtain ⟨other, serves, same⟩ := alike
        exact .inl (missed_of_created run serves (keyed_of_same keyed same) created).lookedUp
      · exact .inr ⟨rfl, looks, created⟩
    · cases new

theorem missed_before (run : Ran settings s past mid)
    (step : Acts settings mid event next) (one : OneAtATime past event)
    (keyed : call.idempotencyKey ≠ "") (serves : callOf past i = some other)
    (same : other.Same call) (requested : Requested past call jobID)
    (accepted : Accepted event.after.db jobID)
    (missed : Missed other (localTrace i (past ++ [.act event]))) :
    Missed other (localTrace i past) := by
  obtain ⟨record, member, nothing⟩ := missed
  rw [localTrace_snoc_act, mem_append] at member
  rcases member with old | new
  · exact ⟨record, old, nothing⟩
  · split at new
    next mine =>
      subst mine
      by_cases created : HasCreated (localTrace event.thread past)
      · exact missed_of_created run serves (keyed_of_same keyed same) created
      · have valid : Ev.Valid settings event := step.exec
        have sooner := (Ev.accepted_after valid).mp accepted
        obtain ⟨thread, op, input, before, after, r⟩ := event
        cases mem_singleton.mp new
        rcases sooner with ⟨r, member, accepts⟩ | ⟨attemptID, completes⟩
        · have found := one.recorded other serves ⟨rfl, created⟩
            ⟨r, member, accepts.1, accepts.2 ▸ requested.of_same same⟩
          exact absurd found (not_replays_of_missed valid nothing)
        · cases completing_of_completes completes
    · cases new

theorem unanswered_of_completes (one : OneAtATime past event)
    (keyed : call.idempotencyKey ≠ "") (alike : Alike past call i) {attemptID : AttemptID}
    (created : CreatedJob (localTrace i past) jobID)
    (completes : event.completes = some (jobID, attemptID)) : ¬Answered (localTrace i past) := by
  obtain ⟨other, serves, same⟩ := alike
  exact one.timely jobID (completing_of_completes completes) i (lt_of_callOf serves)
    ⟨other, serves, keyed_of_same keyed same⟩ created

theorem Once.step (run : Ran settings (boot catalog nodes) past mid)
    (step : Acts settings mid event next) (one : OneAtATime past event)
    (keyed : call.idempotencyKey ≠ "") (once : Once call past event.before) :
    Once call (past ++ [.act event]) event.after := by
  have valid : Ev.Valid settings event := step.exec
  have longer : ∀ i, localTrace i past <+: localTrace i (past ++ [.act event]) :=
    fun i => localTrace_of_append i past _
  have before : ∀ {i}, Alike (past ++ [.act event]) call i → Alike past call i := by
    rintro i ⟨other, serves, same⟩
    exact ⟨other, by simpa using serves, same⟩
  have missed : ∀ {i jobID}, Alike past call i → CreatedJob (localTrace i past) jobID →
      ∃ other, callOf past i = some other ∧ other.Same call ∧ Missed other (localTrace i past) := by
    rintro i jobID ⟨other, serves, same⟩ created
    exact ⟨other, serves, same,
      missed_of_created run serves (keyed_of_same keyed same) created.hasCreated⟩
  have requested : ∀ {i jobID}, Alike past call i → CreatedJob (localTrace i past) jobID →
      Requested past call jobID := by
    rintro i jobID ⟨other, serves, same⟩ created
    exact ⟨i, lt_of_callOf serves, ⟨other, serves, same⟩, created⟩
  constructor
  · -- of two threads that have looked, the one that looked second found the first one answered
    intro i i' alike alike' apart looked looked'
    have begun := begins_or_before run keyed (before alike) looked
    have begun' := begins_or_before run keyed (before alike') looked'
    rcases begun with old | ⟨rfl, begins⟩
    · rcases begun' with old' | ⟨rfl, begins⟩
      · rcases once.overlap i i' (before alike) (before alike') apart old old' with first | second
        · exact .inl (first.mono (longer i))
        · exact .inr (second.mono (longer i'))
      · obtain ⟨other, serves, same⟩ := before alike'
        have like := (before alike).of_same same
        exact .inl ((one.alone other serves begins i (lt_of_alike like) apart like old).mono (longer i))
    · rcases begun' with old' | ⟨same, -⟩
      · obtain ⟨other, serves, same⟩ := before alike
        have like := (before alike').of_same same
        exact .inr ((one.alone other serves begins i' (lt_of_alike like) apart.symm like old').mono
          (longer i'))
      · exact absurd same apart
  · -- a miss beside an accepted job: it was there before, or the job is completed just now
    intro i i' other jobID alike serves same apart created accepted missing
    have serves : callOf past i' = some other := by simpa using serves
    have created := createdJob_before run step accepted created
    have alike := before alike
    have missing := missed_before run step one keyed serves same (requested alike created) accepted
      missing
    have answered : Answered (localTrace i' past) := by
      rcases (Ev.accepted_after valid).mp accepted with old | ⟨attemptID, completes⟩
      · exact once.first i i' other jobID alike serves same apart created old missing
      · obtain ⟨_, -, -, looked⟩ := missed alike created
        have either := once.overlap i i' alike ⟨other, serves, same⟩ apart looked.lookedUp
          missing.lookedUp
        exact either.resolve_left (unanswered_of_completes one keyed alike created completes)
    exact answered.mono (longer i')
  · -- a job is completed only while no job of another request is accepted
    have clash : ∀ {i i' jobID jobID'}, Alike past call i → Alike past call i' →
        CreatedJob (localTrace i past) jobID → CreatedJob (localTrace i' past) jobID' →
        Accepted event.before.db jobID → (∃ attemptID, event.completes = some (jobID', attemptID)) →
        jobID = jobID' := by
      intro i i' jobID jobID' alike alike' created created' accepted ⟨attemptID, completes⟩
      by_cases apart : i = i'
      · subst apart
        obtain ⟨other, serves, -⟩ := alike
        exact created_once run serves created created'
      · obtain ⟨other, serves, same, missing⟩ := missed alike' created'
        exact absurd (once.first i i' other jobID alike serves same apart created accepted missing)
          (unanswered_of_completes one keyed alike' created' completes)
    intro jobID jobID' ⟨i, _, alike, created⟩ ⟨i', _, alike', created'⟩ accepted accepted'
    have created := createdJob_before run step accepted created
    have created' := createdJob_before run step accepted' created'
    have alike := before alike
    have alike' := before alike'
    rcases (Ev.accepted_after valid).mp accepted with old | new <;>
      rcases (Ev.accepted_after valid).mp accepted' with old' | new'
    · exact once.once jobID jobID' (requested alike created) (requested alike' created') old old'
    · exact clash alike alike' created created' old new'
    · exact (clash alike' alike created' created old' new).symm
    · obtain ⟨attemptID, completes⟩ := new
      obtain ⟨attemptID', completes'⟩ := new'
      exact congrArg Prod.fst (Option.some.inj (completes.symm.trans completes'))

theorem callOf_of_acted (run : Ran settings s past mid) {rest : Trace}
    (serves : callOf (past ++ rest) i = some call) (acted : localTrace i past ≠ []) :
    callOf past i = some call := by
  have started : i < (entries past).length := by
    by_contra unstarted
    exact acted (run.localTrace_unstarted (Nat.le_of_not_lt unstarted))
  have entry := getElem?_eq_getElem started
  have kept := entry_kept entry rest
  rw [callOf_chat.mp serves] at kept
  exact callOf_chat.mpr (entry.trans kept.symm)

theorem Once.spawn (run : Ran settings s past mid) {entry : Entry}
    (once : Once call past mid.state) : Once call (past ++ [.spawn entry]) mid.state := by
  have acts : ∀ {p : Obs steps → Prop} {i}, (∃ obs ∈ localTrace i past, p obs) →
      localTrace i past ≠ [] := by
    rintro p i ⟨obs, member, -⟩
    exact ne_nil_of_mem member
  have before : ∀ {i}, Alike (past ++ [.spawn entry]) call i → localTrace i past ≠ [] →
      Alike past call i := by
    rintro i ⟨other, serves, same⟩ acted
    exact ⟨other, callOf_of_acted run serves acted, same⟩
  constructor
  · simp only [localTrace_snoc_spawn]
    intro i i' alike alike' apart looked looked'
    exact once.overlap i i' (before alike (acts looked)) (before alike' (acts looked')) apart looked
      looked'
  · simp only [localTrace_snoc_spawn]
    intro i i' other jobID alike serves same apart created accepted missed
    have serves := callOf_of_acted run serves (acts missed.lookedUp)
    exact once.first i i' other jobID (before alike (acts created)) serves same apart created accepted
      missed
  · have requested : ∀ {jobID}, Requested (past ++ [.spawn entry]) call jobID →
        Requested past call jobID := by
      rintro jobID ⟨i, -, alike, created⟩
      rw [localTrace_snoc_spawn] at created
      have like := before alike (acts created)
      exact ⟨i, lt_of_alike like, like, created⟩
    intro jobID jobID' asked asked'
    exact once.once jobID jobID' (requested asked) (requested asked')

theorem once_of_run (run : Ran settings (boot catalog nodes) ls c)
    (one : Along OneAtATime ls) (keyed : call.idempotencyKey ≠ "") : Once call ls c.state := by
  refine run.along_invariant one ?_ (fun _ _ _ before once => once.spawn before) ?_
  · constructor
    · rintro i i' ⟨other, serves, -⟩
      cases serves
    · rintro i i' other jobID ⟨like, serves, -⟩
      cases serves
    · rintro jobID jobID' ⟨i, started, -⟩
      cases started
  · intro past event mid next before step here once
    exact once.step before step here keyed

end

/-- Among the requests with one API key, one idempotency key and one body, at most one job is
accepted and at most one charge is posted. -/
theorem keyed_requests_execute_once {settings : Settings} {catalog : Catalog}
    {nodes : Table Node.id} {ls : Trace} {c : Config steps State}
    (run : (coordinator settings).Run (.boot (boot catalog nodes)) ls c)
    (one : Along OneAtATime ls) {call : ChatCall} (keyed : call.idempotencyKey ≠ "") :
    (∀ jobID jobID', Requested ls call jobID → Requested ls call jobID' →
      Accepted c.state.db jobID → Accepted c.state.db jobID' → jobID = jobID') ∧
    ∀ jobID jobID', Requested ls call jobID → Requested ls call jobID' →
      ∀ t ∈ c.state.db.transactions.rows, ∀ t' ∈ c.state.db.transactions.rows,
        t.Charges jobID → t'.Charges jobID' → t = t' := by
  have once := (once_of_run run one keyed).once
  refine ⟨once, fun jobID jobID' asked asked' t member t' member' charges charges' => ?_⟩
  have books := books_of_run run
  have same : jobID = jobID' := once jobID jobID' asked asked'
    (books.charging_iff.mp ⟨t, member, charges⟩) (books.charging_iff.mp ⟨t', member', charges'⟩)
  subst same
  exact (oneCharge_of_charged books.unique books.charged jobID).transaction t member t' member'
    charges charges'

namespace Deployment

/-- The same request twice, the second before the first is answered: both jobs complete. -/
def overlapping : List (Choice Input Entry) :=
  connect 0 "n1" ++ keyedRequest 1 "h1" "j" "a" ++ accept 0 "j0" "a0" ++
  complete 0 (payload "j0" "a0") "c" ++ advance 0 4 ++
  keyedRequest 2 "h1" "q" "b" ++ accept 0 "q0" "b0" ++ complete 0 (payload "q0" "b0") "d"

end Deployment

/-- The repeated request is answered from the record, and its job stays the only accepted one. -/
theorem keyed_requests_execute_once_repeated : ∃ ls c,
    (coordinator settings).Run (.boot start) ls c ∧ Along OneAtATime ls ∧
    Requested ls (keyed "h1") "j0" ∧ Accepted c.state.db "j0" ∧
    ∀ jobID, Requested ls (keyed "h1") jobID → Accepted c.state.db jobID →
      jobID = "j0" := by
  obtain ⟨ls, c, run, one, requested, accepted⟩ := run_of_check
    (p := fun ls c => Along OneAtATime ls ∧ Requested ls (keyed "h1") "j0" ∧
      Accepted c.state.db "j0") repeated (by decide +kernel)
  have keyed : (keyed "h1").idempotencyKey ≠ "" := by decide
  exact ⟨ls, c, run, one, requested, accepted, fun jobID asked accepted' =>
    (keyed_requests_execute_once run one keyed).1 jobID "j0" asked requested accepted' accepted⟩

/-- Two overlapping requests with one key and one body are both executed and both charged. -/
theorem keyed_requests_charged_twice : ∃ ls c,
    (coordinator settings).Run (.boot start) ls c ∧
    Requested ls (keyed "h1") "j0" ∧ Requested ls (keyed "h1") "q0" ∧
    Accepted c.state.db "j0" ∧ Accepted c.state.db "q0" ∧
    Charging c.state.db "j0" ∧ Charging c.state.db "q0" :=
  run_of_check overlapping (by decide +kernel)

end Thirdshift
