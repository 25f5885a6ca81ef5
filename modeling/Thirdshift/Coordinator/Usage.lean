import Thirdshift.Coordinator.Waiters
import Thirdshift.Coordinator.Retries

/-!
# Accepted usage

A completion is judged against the request of its run, which the service keeps in memory until its
waiter is told or gives up. A request that gives up removes the run and leaves the attempt, so a
later completion is judged against the zero request, with the default limit. As long as the run is
there, its request is the one that every offer of the job has carried.
-/

namespace Thirdshift

open Foundation List Option Deployment

/-! ### What the checks imply -/

/-- The counts are values of the source's `int`. -/
def Usage.Fits (usage : Usage) : Prop :=
  isInt8 usage.promptTokens = true ∧ isInt8 usage.completionTokens = true ∧
    isInt8 usage.totalTokens = true
  deriving Decidable

theorem wrap64_le {n : Int} (low : -9223372036854775808 ≤ n) : wrap64 n ≤ n := by
  unfold wrap64
  omega

section

variable {request : ChatRequest} {payload : JobCompletedPayload}

theorem plausible_of_accepted
    (accepted : (validateCompletionForAcceptance request payload).2 = none) :
    ∀ issue ∈ plausibilityIssues request payload, issue.severity ≠ .reject := by
  intro issue member rejects
  have none := map_eq_none_iff.mp accepted
  rw [find?_eq_none] at none
  exact none issue member (decide_eq_true rejects)

theorem not_of_absent {c : Prop} [Decidable c] {issue : MeteringIssue}
    (rejects : issue.severity = .reject)
    (absent : ∀ other ∈ (if c then [issue] else []), other.severity ≠ .reject) : ¬c := by
  intro holds
  rw [if_pos holds] at absent
  exact absent issue mem_cons_self rejects

structure Plausible (request : ChatRequest) (usage : Usage) : Prop where
  nonneg : 0 ≤ usage.promptTokens ∧ 0 ≤ usage.completionTokens ∧ 0 ≤ usage.totalTokens
  total : usage.totalTokens = wrap64 (usage.promptTokens + usage.completionTokens)
  bounded : usage.completionTokens ≤
    wrap64 ((if request.maxTokens ≤ 0 then 1024 else request.maxTokens) * 2 + 16)

theorem plausible_of_validated
    (accepted : (validateCompletionForAcceptance request payload).2 = none) :
    Plausible request payload.usage := by
  have sound := plausible_of_accepted accepted
  unfold plausibilityIssues at sound
  split at sound
  · exact absurd rfl (sound _ mem_cons_self)
  · simp only [mem_append, or_imp, forall_and, usageIssues] at sound
    obtain ⟨⟨⟨⟨⟨⟨-, -⟩, negative, mismatch⟩, -⟩, outlier⟩, -⟩, -⟩ := sound
    have negative := not_of_absent rfl negative
    have mismatch := not_of_absent rfl mismatch
    have outlier := not_of_absent rfl outlier
    exact ⟨by omega, not_not.mp mismatch, by omega⟩

theorem Plausible.exact {usage : Usage} (sound : Plausible request usage) (fits : usage.Fits) :
    usage.totalTokens = usage.promptTokens + usage.completionTokens := by
  obtain ⟨⟨prompt, completion, total⟩, sum, -⟩ := sound
  obtain ⟨promptFits, completionFits, -⟩ := fits
  simp only [isInt8, Bool.and_eq_true, decide_eq_true_eq] at promptFits completionFits
  unfold wrap64 at sum
  omega

theorem Plausible.within {usage : Usage} (sound : Plausible request usage)
    (positive : 0 < request.maxTokens) : usage.completionTokens ≤ 2 * request.maxTokens + 16 := by
  have bounded := sound.bounded
  rw [if_neg (Int.not_le.mpr positive)] at bounded
  have wraps : wrap64 (request.maxTokens * 2 + 16) ≤ request.maxTokens * 2 + 16 :=
    wrap64_le (by omega)
  omega

end

/-! ### The request of a job -/

def Op.asks : Op → Option (JobID × ChatRequest)
  | .mem (.startRun jobID _ request _) => some (jobID, request)
  | _ => none

def Asked (ls : Trace) (jobID : JobID) (request : ChatRequest) : Prop :=
  Happened (fun event : Ev => event.op.asks = some (jobID, request)) ls

/-- Every run in memory is kept under its job with the request that the job was scheduled for. -/
def RunsAsked (ls : Trace) (s : State) : Prop :=
  ∀ jobID ref, s.mem.runs jobID = some ref →
    ∃ run, s.mem.runStates[ref]? = some run ∧ Asked ls jobID run.request

section

variable {settings : Settings} {start : State} {past ls : Trace} {mid next c : Config steps State}
  {event : Ev} {jobID : JobID}

theorem request_of_runChange {m : Memory} {op : Op} {r : op.Resp} {ref : Nat}
    {change : RunState → RunState} (changes : runChange m op r = some (ref, change)) (run : RunState) :
    (change run).request = run.request := by
  cases op with
  | mem call =>
    cases call with
    | reserve place job candidates =>
      change Option Candidate at r
      cases r <;> cases changes
      rfl
    | prepareRetry job node =>
      change Bool at r
      cases r with
      | false => cases changes
      | true =>
        obtain ⟨found, -, same⟩ := map_eq_some_iff.mp changes
        cases same
        rfl
    | _ => cases changes
  | _ => cases changes

theorem newRun_of_asks {op : Op} (starts : op.startsRun = some jobID) :
    ∃ run, op.newRun = some run ∧ op.asks = some (jobID, run.request) := by
  cases op with
  | mem call =>
    cases call with
    | startRun =>
      cases starts
      exact ⟨_, rfl, rfl⟩
    | _ => cases starts
  | _ => cases starts

theorem RunsAsked.act (valid : event.Valid settings) (asked : RunsAsked past event.before) :
    RunsAsked (past ++ [.act event]) event.after := by
  intro jobID ref current
  rcases runs_step valid current with old | ⟨starts, rfl⟩
  · obtain ⟨run, found, request⟩ := asked jobID ref old
    have request := request.append [.act event]
    rcases run_step valid found with ⟨change, changes, after⟩ | ⟨-, after⟩
    · refine ⟨change run, after, ?_⟩
      rw [request_of_runChange changes run]
      exact request
    · exact ⟨run, after, request⟩
  · obtain ⟨run, new, asks⟩ := newRun_of_asks starts
    exact ⟨run, newRun_step valid new, happened_snoc_act.mpr (.inr asks)⟩

section

variable (run : Ran settings start ls c)
include run

theorem runsAsked_of_run (fresh : start.mem.runs = fun _ => none) : RunsAsked ls c.state := by
  refine run.invariant (I := RunsAsked) ?_ ?_ ?_
  · intro jobID ref current
    have empty : start.mem.runs jobID = some ref := current
    rw [fresh] at empty
    cases empty
  · intro past mid entry _ asked jobID ref current
    obtain ⟨run, found, request⟩ := asked jobID ref current
    exact ⟨run, found, request.append _⟩
  · exact fun past event mid next _ step asked => asked.act step.exec

theorem creator_of_asked {request : ChatRequest} (asked : Asked ls jobID request) :
    ∃ i call, (entries ls)[i]? = some (.chat call) ∧ request = call.request ∧
      CreatedJob (localTrace i ls) jobID := by
  obtain ⟨event, member, asks⟩ := asked
  obtain ⟨past, rest, mid, next, rfl, before, step⟩ := run.around member
  obtain ⟨entry, started, conduct⟩ := conducts before step
  have front : Fronts entry (localTrace event.thread past) event.op := by
    rcases conduct.front_or_serves with front | ⟨own, serves⟩
    · exact front
    · revert serves asks
      cases event.op with
      | mem call =>
        cases call with
        | startRun => exact fun _ no => no.elim
        | _ => exact fun asks => nomatch asks
      | _ => exact fun asks => nomatch asks
  revert front asks
  cases event.op with
  | mem call =>
    cases call with
    | startRun job model asking deadlineAt =>
      rintro ⟨⟩ ⟨⟨call, rfl, rfl⟩, created⟩
      exact ⟨event.thread, call, entry_kept started _, rfl,
        created.mono (localTrace_of_append _ _ _)⟩
    | _ => exact fun asks => nomatch asks
  | _ => exact fun asks => nomatch asks

theorem asked_once {request request' : ChatRequest} (asked : Asked ls jobID request)
    (asked' : Asked ls jobID request') : request = request' := by
  obtain ⟨i, call, started, rfl, created⟩ := creator_of_asked run asked
  obtain ⟨i', call', started', rfl, created'⟩ := creator_of_asked run asked'
  obtain rfl := (creators_of_run run).single i i' jobID created created'
  cases started.symm.trans started'
  rfl

theorem asked_of_foundRun {i : Nat} {run' : RunState} (fresh : start.mem.runs = fun _ => none)
    (found : FoundRun (localTrace i ls) jobID run') : Asked ls jobID run'.request := by
  -- at the event that found it, the memory held it
  have here : ∀ {past event rest ref}, ls = past ++ .act event :: rest →
      event.before.mem.run? jobID = some (ref, run') → Asked ls jobID run'.request := by
    intro past event rest ref cut held
    obtain ⟨mid, next, before, step, -⟩ := run.split cut
    obtain ⟨place, current, stored⟩ := bind_eq_some_iff.mp held
    obtain ⟨other, at', same⟩ := map_eq_some_iff.mp stored
    cases same
    rw [step.start] at current at'
    obtain ⟨known, there, asked⟩ := runsAsked_of_run before fresh jobID _ current
    cases there.symm.trans at'
    rw [cut]
    exact asked.append _
  rcases found with ⟨ref, seen⟩ | seen
  · obtain ⟨event, member, -, same⟩ := mem_localTrace.mp seen
    obtain ⟨past, rest, mid, next, cut, -, step⟩ := run.around member
    refine here cut (show _ = some (ref, run') from ?_)
    have exec := step.exec
    obtain ⟨thread, op, input, s, s', r⟩ := event
    cases same
    exact (Prod.mk.inj (Option.some.inj exec)).2
  · obtain ⟨event, member, -, same⟩ := mem_localTrace.mp seen
    obtain ⟨past, rest, mid, next, cut, -, step⟩ := run.around member
    have exec := step.exec
    obtain ⟨thread, op, input, s, s', r⟩ := event
    cases same
    have read : (s.mem.run? jobID).map Prod.snd = some run' :=
      (Prod.mk.inj (Option.some.inj exec)).2
    obtain ⟨⟨ref, other⟩, held, rfl⟩ := map_eq_some_iff.mp read
    exact here cut held

end

end

/-! ### Offers and completions -/

def Op.offer? : Op → Option JobOfferPayload
  | .send _ offer => some offer
  | _ => none

def Offered (ls : Trace) (offer : JobOfferPayload) : Prop :=
  Happened (fun event : Ev => event.op.offer? = some offer) ls

def Op.judges : Op → Option JobID
  | .mem (.runSnapshot jobID) => some jobID
  | _ => none

def JudgedInTime (jobID : JobID) (_ : Trace) (event : Ev) : Prop :=
  event.op.judges = some jobID → (event.before.mem.run? jobID).isSome = true
  deriving Decidable

section

variable {settings : Settings} {start : State} {past ls : Trace} {mid next c : Config steps State}
  {event : Ev} {jobID : JobID}

theorem asked_of_offered {offer : JobOfferPayload} (run : Ran settings start ls c)
    (fresh : start.mem.runs = fun _ => none) (offered : Offered ls offer) :
    Asked ls offer.jobID offer.request := by
  obtain ⟨event, member, offers⟩ := offered
  obtain ⟨past, rest, mid, next, rfl, before, step⟩ := run.around member
  obtain ⟨entry, -, conduct⟩ := conducts before step
  obtain ⟨sessionID, sends⟩ : ∃ sessionID, event.op = .send sessionID offer := by
    cases called : event.op with
    | send sessionID sent =>
      rw [called] at offers
      cases offers
      exact ⟨sessionID, rfl⟩
    | _ => rw [called] at offers; cases offers
  rw [sends] at conduct
  rcases conduct.front_or_serves with front | ⟨own, found, known, same⟩
  · exact front.elim
  · rw [same]
    exact (asked_of_foundRun before fresh known).append _

theorem judged_of_completed {payload : JobCompletedPayload} {receivedAt : Time} {hold : Duration}
    {status dataClass : String} {attempts : Nat} (run : Ran settings start past mid)
    (step : Acts settings mid event next)
    (completes : event.commits = some (.completeJob payload receivedAt hold status dataClass attempts)) :
    Judged (localTrace event.thread past) payload := by
  obtain ⟨entry, -, conduct⟩ := conducts run step
  obtain ⟨ctx, same⟩ := committed_eq_some completes
  rw [same] at conduct
  rcases conduct.front_or_serves with front | ⟨own, -, judged, -⟩
  · exact front.elim
  · exact judged

theorem snapshot_of_inTime {i : Nat} {found : Option RunState}
    (run : Ran settings start ls c) (inTime : Along (JudgedInTime jobID) ls)
    (seen : ⟨.mem (.runSnapshot jobID), found⟩ ∈ localTrace i ls) : ∃ run', found = some run' := by
  obtain ⟨event, member, -, same⟩ := mem_localTrace.mp seen
  obtain ⟨past, rest, mid, next, cut, -, step⟩ := run.around member
  have held := inTime past event rest cut
  have exec := step.exec
  obtain ⟨thread, op, input, s, s', r⟩ := event
  cases same
  have read : (s.mem.run? jobID).map Prod.snd = r := (Prod.mk.inj (Option.some.inj exec)).2
  have there : (s.mem.run? jobID).isSome = true := held rfl
  obtain ⟨pair, here⟩ := isSome_iff_exists.mp there
  rw [here] at read
  exact ⟨pair.2, read.symm⟩

/-- The usage of an accepted completion is sound, and where completions of the job were judged while
its run was in memory, it is bounded by the request that the offers of the job have carried. -/
theorem accepted_usage_bounded {rest : Trace} {payload : JobCompletedPayload} {receivedAt : Time}
    {hold : Duration} {status dataClass : String} {attempts : Nat}
    (run : (coordinator settings).Run (.boot start) ls c)
    (fresh : start.mem.runs = fun _ => none) (cut : ls = past ++ .act event :: rest)
    (completes : event.commits = some (.completeJob payload receivedAt hold status dataClass attempts))
    (fits : payload.usage.Fits) :
    0 ≤ payload.usage.promptTokens ∧ 0 ≤ payload.usage.completionTokens ∧
    0 ≤ payload.usage.totalTokens ∧
    payload.usage.totalTokens = payload.usage.promptTokens + payload.usage.completionTokens ∧
    (Along (JudgedInTime payload.jobID) past → ∀ offer, Offered ls offer →
      offer.jobID = payload.jobID → 0 < offer.request.maxTokens →
      payload.usage.completionTokens ≤ 2 * offer.request.maxTokens + 16) := by
  obtain ⟨mid, next, before, step, -⟩ := run.split cut
  obtain ⟨found, seen, accepted⟩ := judged_of_completed before step completes
  have sound := plausible_of_validated accepted
  obtain ⟨prompt, completion, total⟩ := sound.nonneg
  refine ⟨prompt, completion, total, sound.exact fits, fun inTime offer offered ofJob limit => ?_⟩
  obtain ⟨run', rfl⟩ := snapshot_of_inTime before inTime seen
  -- the run that judged the completion and the offer carry the one request of the job
  have judged : Asked ls payload.jobID run'.request := by
    rw [cut]
    exact (asked_of_foundRun before fresh (.inr seen)).append _
  have same : run'.request = offer.request :=
    asked_once run judged (ofJob ▸ asked_of_offered run fresh offered)
  rw [← same] at limit ⊢
  exact sound.within limit

end

namespace Deployment

def completedInTime : List (Choice Input Entry) :=
  connect 0 "n1" ++ request 1 "j" "a" ++ accept 0 "j0" "a0" ++ complete 0 (payload "j0" "a0") "c"

def completedLate : List (Choice Input Entry) :=
  connect 0 "n1" ++ request 1 "j" "a" ++ accept 0 "j0" "a0" ++ advance 1 4 ++
  [.act 0 (reading (.job (.completed { payload "j0" "a0" with usage := ⟨3, 2000, 2003⟩ })))] ++
  advance 0 10 ++ [.act 0 (drawing "c")]

theorem completed_of_check (p : Trace → Usage → Prop) [∀ past usage, Decidable (p past usage)]
    (schedule : List (Choice Input Entry))
    (checked : ((coordinator settings).runSchedule schedule (.boot start)).any (fun r =>
      decide (Happened (fun event : Ev => (event.op.offer?.any fun offer =>
        offer.jobID = "j0" && offer.request.maxTokens = 8) = true) r.1) &&
      Machine.cutAt (r.1.length - 1) (fun past (event : Ev) _ => match event.commits with
        | some (.completeJob payload ..) => decide (payload.jobID = "j0" ∧ payload.usage.Fits ∧
            p past payload.usage)
        | _ => false) r.1) = true) :
    ∃ ls c, Ran settings start ls c ∧
      ∃ past event rest payload receivedAt hold status dataClass attempts,
        ls = past ++ .act event :: rest ∧ Ev.commits event =
          some (.completeJob payload receivedAt hold status dataClass attempts) ∧
        payload.jobID = "j0" ∧ payload.usage.Fits ∧ p past payload.usage ∧
        ∃ offer, Offered ls offer ∧ offer.jobID = payload.jobID ∧ offer.request.maxTokens = 8 := by
  obtain ⟨ls, c, run, found⟩ := Machine.exists_run checked
  rw [Bool.and_eq_true] at found
  obtain ⟨event', member, offers⟩ := of_decide_eq_true found.1
  obtain ⟨offer, sent, matching⟩ := (any_eq_true _ _).mp offers
  rw [Bool.and_eq_true] at matching
  obtain ⟨past, event, rest, cut, holds⟩ := Machine.exists_cut found.2
  split at holds
  next payload receivedAt hold status dataClass attempts completes =>
    obtain ⟨ofJob, fits, counts⟩ := of_decide_eq_true holds
    exact ⟨ls, c, run, past, event, rest, payload, receivedAt, hold, status, dataClass, attempts,
      cut, completes, ofJob, fits, counts, offer, ⟨event', member, sent⟩,
      (of_decide_eq_true matching.1).trans ofJob.symm, of_decide_eq_true matching.2⟩
  · cases holds

end Deployment

/-- A completion of two tokens for a request of at most eight. -/
theorem accepted_usage_bounded_inTime : ∃ ls c,
    (coordinator settings).Run (.boot start) ls c ∧
    ∃ past event rest payload receivedAt hold status dataClass attempts,
      ls = past ++ .act event :: rest ∧ Ev.commits event =
        some (.completeJob payload receivedAt hold status dataClass attempts) ∧
      payload.usage.Fits ∧ Along (JudgedInTime payload.jobID) past ∧
      payload.usage.completionTokens = 2 ∧ payload.usage.completionTokens ≤ 2 * 8 + 16 ∧
      payload.usage.totalTokens = payload.usage.promptTokens + payload.usage.completionTokens := by
  obtain ⟨ls, c, run, past, event, rest, payload, receivedAt, hold, status, dataClass, attempts, cut,
    completes, ofJob, fits, ⟨inTime, two⟩, offer, offered, same, limit⟩ :=
    completed_of_check
      (fun past usage => Along (JudgedInTime "j0") past ∧ usage.completionTokens = 2)
      completedInTime (by decide +kernel)
  rw [← ofJob] at inTime
  obtain ⟨-, -, -, total, bounded⟩ := accepted_usage_bounded run rfl cut completes fits
  have within := bounded inTime offer offered same (by omega)
  rw [limit] at within
  exact ⟨ls, c, run, past, event, rest, payload, receivedAt, hold, status, dataClass, attempts, cut,
    completes, fits, inTime, two, within, total⟩

/-- The waiter of the request has given up and its run is gone: two thousand tokens are accepted for
a request of at most eight. -/
theorem late_usage_unbounded : ∃ ls c,
    (coordinator settings).Run (.boot start) ls c ∧
    ∃ past event rest payload receivedAt hold status dataClass attempts,
      ls = past ++ .act event :: rest ∧ Ev.commits event =
        some (.completeJob payload receivedAt hold status dataClass attempts) ∧
      payload.usage.Fits ∧ ∃ offer, Offered ls offer ∧ offer.jobID = payload.jobID ∧
        0 < offer.request.maxTokens ∧
        ¬payload.usage.completionTokens ≤ 2 * offer.request.maxTokens + 16 := by
  obtain ⟨ls, c, run, past, event, rest, payload, receivedAt, hold, status, dataClass, attempts, cut,
    completes, -, fits, many, offer, offered, same, limit⟩ :=
    completed_of_check (fun _ usage => usage.completionTokens = 2000)
      completedLate (by decide +kernel)
  refine ⟨ls, c, run, past, event, rest, payload, receivedAt, hold, status, dataClass, attempts, cut,
    completes, fits, offer, offered, same, ?_, ?_⟩ <;> omega

end Thirdshift
