import Thirdshift.Coordinator.Discipline

/-!
# Conduct of the handlers

The discipline says what a thread has seen when it makes a call that others rely on; the conduct
says which calls a handler makes at all. The methods of the service concern one job and the jobs
whose leases they sweep, conclude a duplicate run after they have found it, and complete a job with
a result that they have judged. The handlers in front of them name the organization, the API key or
the node they act for, and a session reads no frame after one that it does not take. Each handler is
followed once, for both and against arbitrary responses.
-/

namespace Thirdshift

open Foundation List Service Entry
open Prog (obeys_call obeys_then)

variable {past' earlier : Seen} {own : JobID} {nodeID : NodeID} {ctx : Ctx}
  {deadlineAt leaseExpiresAt : Time} {frames : Nat} {e apiErr : APIError} {sessionID : SessionID}
  {chosen : Candidate} {transient : Bool} {modelID : ModelID} {requestHash orgID : String}
  {a : Answer}

/-! ### Duplicate runs -/

/-- How far a thread is with the run of a verification attempt: it has found it in the memory, and
it has removed it. -/
inductive DupPhase
  | idle
  | tested (attemptID : AttemptID)
  | took (attemptID : AttemptID)
  deriving DecidableEq

def DupPhase.next : DupPhase → (op : Op) → op.Resp → DupPhase
  | _, .mem (.isDuplicateAttempt attemptID), true => .tested attemptID
  | _, .mem (.isDuplicateAttempt _), false => .idle
  | .tested attemptID, .mem (.removeDuplicateRun other), _ =>
    if other = attemptID then .took attemptID else .tested attemptID
  | _, .store _ (.recordDuplicateOutcome _), _ => .idle
  | phase, _, _ => phase

def concluding (past : Seen) : DupPhase :=
  past.foldl (fun phase obs => phase.next obs.op obs.resp) .idle

@[simp] theorem concluding_snoc (past : Seen) (op : Op) (r : op.Resp) :
    concluding (past ++ [⟨op, r⟩]) = (concluding past).next op r := by
  simp [concluding]

variable {op : Op} {past : Seen} {jobID : JobID} {entry : Entry}

theorem concluding_next {r : op.Resp} {phase : DupPhase} (here : concluding past = phase) :
    concluding (past ++ [⟨op, r⟩]) = phase.next op r := by
  rw [concluding_snoc, here]

theorem took_of_tested {attemptID : AttemptID} {dup : Option DuplicateRun}
    (tested : concluding past = .tested attemptID) :
    concluding (past ++ [⟨.mem (.removeDuplicateRun attemptID), dup⟩]) = .took attemptID :=
  (concluding_next tested).trans (if_pos rfl)

/-- The verification attempt that a thread has created and not yet registered a run for. -/
def registersNext : Option AttemptID → (op : Op) → op.Resp → Option AttemptID
  | _, .store _ (.createVerificationAttempt ..), .ok attemptID => some attemptID
  | _, .mem (.setDuplicateRun ..), _ => none
  | pending, _, _ => pending

def unregistered (past : Seen) : Option AttemptID :=
  past.foldl (fun pending obs => registersNext pending obs.op obs.resp) none

@[simp] theorem unregistered_snoc (past : Seen) (op : Op) (r : op.Resp) :
    unregistered (past ++ [⟨op, r⟩]) = registersNext (unregistered past) op r := by
  simp [unregistered]

/-! ### The service -/

def Swept (past : Seen) (jobID : JobID) : Prop :=
  ∃ (ctx : Ctx) (now : Time) (expired : List ExpiredAttempt),
    ⟨.store ctx (.expireLeases now), .ok expired⟩ ∈ past ∧
    ∃ attempt ∈ expired, attempt.jobID = jobID

/-- The job is the thread's own, or one whose lease it has swept. -/
def Minds (own : JobID) (past : Seen) (jobID : JobID) : Prop := jobID = own ∨ Swept past jobID

def FoundRun (past : Seen) (jobID : JobID) (run : RunState) : Prop :=
  (∃ ref, ⟨.mem (.lookupRun jobID), some (ref, run)⟩ ∈ past) ∨
    ⟨.mem (.runSnapshot jobID), some run⟩ ∈ past

def judgedBy : Option RunState → ChatRequest
  | some run => run.request
  | none => ChatRequest.zero

/-- The thread has judged the completion against what it found of the run of the job. -/
def Judged (past : Seen) (payload : JobCompletedPayload) : Prop :=
  ∃ run, ⟨.mem (.runSnapshot payload.jobID), run⟩ ∈ past ∧
    (validateCompletionForAcceptance (judgedBy run) payload).2 = none

def Counted (past : Seen) (jobID : JobID) (attempts : Nat) : Prop :=
  ∃ ctx, ⟨.store ctx (.attemptCount jobID), .ok attempts⟩ ∈ past

def StoreCall.Serves (own : JobID) (past : Seen) : StoreCall → Prop
  | .eligibleNodes .. | .nextAttemptNumber _ | .dataClass _ | .attemptCount _ => True
  | .modelHash _ | .runtimeHashes _ | .publicKeyForNode _ | .expireLeases _ => True
  | .createAttempt jobID .. | .failAttempt jobID .. | .failJob jobID .. => Minds own past jobID
  | .createVerificationAttempt jobID .. | .markAccepted jobID _ | .markStarted jobID _ => jobID = own
  | .markVerificationAttemptCompleted jobID .. => jobID = own
  | .markVerificationAttemptFailed jobID .. => jobID = own
  | .postVerificationOverhead payload .. | .recordMeteringIssues payload .. => payload.jobID = own
  | .completeJob payload _ _ _ _ attempts => payload.jobID = own ∧ Judged past payload ∧
    (attempts = 1 ∨ Counted past payload.jobID attempts)
  | .recordDuplicateOutcome outcome => concluding past = .took outcome.attemptID
  | _ => False

def MemCall.Serves (own : JobID) (past : Seen) : MemCall → Prop
  | .setDuplicateRun attemptID _ => unregistered past = some attemptID
  | .removeDuplicateRun attemptID => concluding past = .tested attemptID ∨ SendFailed past
  | .takePending jobID _ => Minds own past jobID
  | .attachSession .. | .detachSession .. | .startRun .. | .registerWait _ | .abandonWait _ => False
  | _ => True

/-- The calls that the service makes for a job of its caller. -/
def Serves (own : JobID) (past : Seen) : Op → Prop
  | .store _ call => call.Serves own past
  | .mem call => call.Serves own past
  | .send _ offer => ∃ run, FoundRun past offer.jobID run ∧ offer.request = run.request
  | .now | .put .. => True
  | _ => False

/-- The calls that place a job on a node, sweep lapsed leases and fail what cannot be placed. -/
def Op.scheduling : Op → Prop
  | .store _ (.eligibleNodes ..) | .store _ (.nextAttemptNumber _) => True
  | .store _ (.expireLeases _) | .store _ (.createAttempt ..) => True
  | .store _ (.failAttempt ..) | .store _ (.failJob ..) => True
  | .mem (.clearActive _) | .mem (.prepareRetry ..) | .mem (.lookupRun _) => True
  | .mem (.reserve ..) | .mem (.setActive ..) | .mem (.removeRun _) | .mem (.takePending ..) => True
  | .now | .send .. | .put .. => True
  | _ => False

def Schedules (own : JobID) (past : Seen) (op : Op) : Prop := Serves own past op ∧ op.scheduling

theorem Minds.mono (minds : Minds own past jobID) (extended : past <+: past') :
    Minds own past' jobID := by
  refine minds.imp_right ?_
  rintro ⟨ctx, now, expired, seen, named⟩
  exact ⟨ctx, now, expired, extended.subset seen, named⟩

theorem FoundRun.mono {run : RunState} (found : FoundRun past jobID run) (extended : past <+: past') :
    FoundRun past' jobID run := by
  rcases found with ⟨ref, seen⟩ | seen
  · exact .inl ⟨ref, extended.subset seen⟩
  · exact .inr (extended.subset seen)

/-! ### Scheduling -/

abbrev Attends (settings : Settings) (entry : Entry) (own : JobID) (past : Seen) (op : Op) : Prop :=
  Disciplined settings entry past op ∧ Serves own past op

abbrev Scheduling (settings : Settings) (entry : Entry) (own : JobID) (past : Seen) (op : Op) :
    Prop :=
  Disciplined settings entry past op ∧ Schedules own past op

/-- The attempt was named to the thread, and its job is the thread's own or was swept. -/
structure Ours (entry : Entry) (own : JobID) (past : Seen) (jobID : JobID) (attemptID : AttemptID) :
    Prop where
  mine : Mine entry past jobID attemptID
  minds : Minds own past jobID

theorem Ours.mono {attemptID : AttemptID} (ours : Ours entry own past jobID attemptID)
    (extended : past <+: past') : Ours entry own past' jobID attemptID :=
  ⟨ours.mine.mono extended, ours.minds.mono extended⟩

section

variable {settings : Settings} {entry : Entry}

variable {past : Seen} {α : Type} {result : Except GoError α} {jobID : JobID}
  {attemptID : AttemptID} {candidates : List Candidate} {occurredAt : Time}
  {attempt : ExpiredAttempt} {payload : JobCompletedPayload} {call : ChatCall}

theorem excused_ok {a : α} : Excused past (.ok a) :=
  fun _ same => nomatch same

theorem excused_api : Excused past (.error (.api e) : Except GoError α) :=
  fun _ same => nomatch same

theorem excused_of_faulty {obs : Obs steps} (seen : obs ∈ past)
    (bad : faulty obs.op obs.resp = true) : Excused past result :=
  fun _ _ => ⟨obs, seen, bad⟩

theorem SendFailed.excused (failed : SendFailed past) : Excused past result := by
  obtain ⟨sessionID, offer, e, seen⟩ := failed
  exact excused_of_faulty seen rfl

theorem SendFailed.mono (failed : SendFailed past)
    (extended : past <+: past') : SendFailed past' := by
  obtain ⟨sessionID, offer, e, seen⟩ := failed
  exact ⟨sessionID, offer, e, extended.subset seen⟩

theorem obeys_send {I : Seen → Op → Prop} {Q : Seen → α → Prop}
    {offer : JobOfferPayload} {f : Except GoError Unit → Proc α}
    (allowed : I past (.send sessionID offer))
    (rest : ∀ sent past', past <+: past' → (∀ e, sent = .error e → SendFailed past') →
      (f sent).Obeys I Q past') : (send sessionID offer >>= f).Obeys I Q past := by
  refine obeys_call allowed fun sent => rest sent _ (prefix_append _ _) ?_
  rintro e rfl
  exact ⟨sessionID, offer, e, mem_concat_self⟩

theorem Faulted.mono (faulted : Faulted past) (extended : past <+: past') : Faulted past' := by
  obtain ⟨obs, seen, bad⟩ := faulted
  exact ⟨obs, extended.subset seen, bad⟩

theorem obeys_notify {result : Result} (reports : Reports past jobID result)
    (ours : Ours entry own past jobID attemptID) :
    (notify jobID result).Heeds (Scheduling settings entry own) past := by
  refine obeys_call ⟨⟨reports, ours.mine.job⟩, ours.minds, trivial⟩ fun taken => ?_
  cases taken with
  | none => trivial
  | some channel =>
    refine ⟨⟨⟨jobID, ours.mine.job.mono (prefix_append _ _), ?_⟩, trivial, trivial⟩,
      fun _ => trivial⟩
    simp

theorem obeys_createAttempt {ref : Nat}
    (reserved : past = earlier ++ [⟨.mem (.reserve ref jobID candidates), some chosen⟩])
    (ours : Ours entry own past jobID attemptID) :
    (createAttempt ctx jobID chosen.nodeID leaseExpiresAt deadlineAt).Obeys
      (Scheduling settings entry own)
      (fun past' created => Excused past' created ∧ ∀ attempt, created = .ok attempt →
        Placed past' chosen.nodeID) past := by
  subst reserved
  refine obeys_call ⟨trivial, trivial, trivial⟩ fun read => ?_
  cases read with
  | error e => exact ⟨excused_of_faulty mem_concat_self rfl, fun _ same => nomatch same⟩
  | ok number =>
    have chose : Reserved (earlier ++ [⟨.mem (.reserve ref jobID candidates), some chosen⟩] ++
        [⟨.store ctx (.nextAttemptNumber jobID), .ok number⟩]) jobID chosen.nodeID :=
      ⟨earlier, ctx, ref, candidates, chosen, number, rfl, by simp⟩
    have ours := ours.mono (prefix_append _ [⟨.store ctx (.nextAttemptNumber jobID), .ok number⟩])
    refine obeys_call ⟨⟨chose, ours.mine.job⟩, ours.minds, trivial⟩ fun created => ?_
    cases created with
    | error e => exact ⟨excused_of_faulty mem_concat_self rfl, fun _ same => nomatch same⟩
    | ok attemptID =>
      exact ⟨excused_ok, fun _ _ => ⟨_, ctx, jobID, number, leaseExpiresAt, deadlineAt, attemptID,
        .inl ⟨chose, rfl⟩⟩⟩

theorem obeys_placeAttempt {now : Time} (ours : Ours entry own past jobID attemptID) :
    (placeAttempt settings ctx jobID now).Obeys (Scheduling settings entry own) Excused
      past := by
  refine obeys_call ⟨trivial, trivial, trivial⟩ fun found => ?_
  cases found with
  | none => exact excused_of_faulty mem_concat_self rfl
  | some found =>
    refine obeys_call ⟨trivial, trivial, trivial⟩ fun eligible => ?_
    cases eligible with
    | error e => exact excused_of_faulty mem_concat_self rfl
    | ok candidates =>
      refine obeys_call ⟨⟨found.2, by simp [append_assoc]⟩, trivial, trivial⟩
        fun reserved => ?_
      cases reserved with
      | none => exact excused_api
      | some chosen =>
        refine (obeys_createAttempt rfl (ours.mono (by simp [append_assoc]))).bind
          fun created past₁ extended₁ ⟨excused, placed⟩ => ?_
        have known : FoundRun past₁ jobID found.2 := .inl ⟨found.1, extended₁.subset (by simp)⟩
        have minds := ours.minds.mono (List.IsPrefix.trans (by simp [append_assoc]) extended₁)
        cases created with
        | error e =>
          refine obeys_call ⟨trivial, trivial, trivial⟩ fun _ message same => ?_
          exact (excused message same).mono (prefix_append _ _)
        | ok attempt =>
          -- the offer carries the request of the run that was looked up
          refine obeys_then ⟨placed attempt rfl, trivial, trivial⟩ fun _ past₂ extended₂ =>
            obeys_send ⟨trivial, ⟨found.2, known.mono extended₂, rfl⟩, trivial⟩
            fun sent past₃ extended₃ failed => ?_
          cases sent with
          | ok _ => exact excused_ok
          | error e =>
            refine obeys_then ⟨trivial, trivial, trivial⟩ fun _ past₄ extended₄ => ?_
            have unsent := (failed e rfl).mono extended₄
            exact obeys_call ⟨.inr unsent, ((minds.mono extended₂).mono extended₃).mono
              extended₄, trivial⟩ fun _ => (unsent.mono (prefix_append _ _)).excused

theorem obeys_failAndNotify {code : String}
    (named : apiErr.code ≠ "") (ours : Ours entry own past jobID attemptID) :
    (failAndNotify ctx jobID attemptID code transient occurredAt apiErr).Obeys
      (Scheduling settings entry own) Excused past := by
  refine obeys_call ⟨ours.mine, ours.minds, trivial⟩ fun failed => ?_
  cases failed with
  | error e => exact excused_of_faulty mem_concat_self rfl
  | ok u =>
    refine obeys_call ⟨trivial, trivial, trivial⟩ fun _ =>
      (obeys_notify (.inr ⟨named, ?_⟩) (ours.mono (by simp [append_assoc]))).bind
        fun _ _ _ _ => excused_ok
    exact ⟨ctx, attemptID, code, transient, occurredAt, .ok u, by simp⟩

theorem obeys_retryExpired (ours : Ours entry own past attempt.jobID attemptID) :
    (retryExpired settings ctx attempt).Heeds (Scheduling settings entry own) past := by
  refine obeys_call ⟨trivial, trivial, trivial⟩ fun allowed => ?_
  cases allowed with
  | false => trivial
  | true =>
    refine obeys_call ⟨trivial, trivial, trivial⟩ fun at' =>
      (obeys_placeAttempt (ours.mono (by simp [append_assoc]))).bind fun placed _ _ _ => ?_
    cases placed <;> trivial

theorem obeys_handleExpiredAttempt
    (ours : Ours entry own past attempt.jobID attempt.attemptID) :
    (handleExpiredAttempt settings ctx attempt occurredAt).Obeys
      (Scheduling settings entry own) Excused past := by
  refine obeys_then ⟨trivial, trivial, trivial⟩ fun _ past₁ extended₁ =>
    (obeys_retryExpired (ours.mono extended₁)).bind fun retried past₂ extended₂ _ => ?_
  cases retried with
  | true => exact excused_ok
  | false => exact obeys_failAndNotify (by decide) ((ours.mono extended₁).mono extended₂)

theorem obeys_expireLeases {now : Time} :
    (expireLeases settings ctx now).Obeys (Scheduling settings entry own) Excused past := by
  have all : ∀ (expired : List ExpiredAttempt) (past : Seen),
      (∀ attempt ∈ expired, Ours entry own past attempt.jobID attempt.attemptID) →
      (handleExpiredAttempts settings ctx now expired).Obeys (Scheduling settings entry own)
        Excused past := by
    intro expired
    induction expired with
    | nil => exact fun _ _ => excused_ok
    | cons attempt rest ih =>
      intro past ours
      refine (obeys_handleExpiredAttempt (ours attempt mem_cons_self)).bind
        fun handled past' extended excused => ?_
      cases handled with
      | ok _ => exact ih past' fun a member => (ours a (mem_cons_of_mem _ member)).mono extended
      | error e => exact fun message same => excused message (by rw [Except.error.inj same])
  refine obeys_call ⟨trivial, trivial, trivial⟩ fun swept => ?_
  cases swept with
  | error e => exact excused_of_faulty mem_concat_self rfl
  | ok expired =>
    refine all expired _ fun attempt member => ⟨fun nodeID frames _ _ => .inr ?_, .inr ?_⟩
    · exact ⟨ctx, now, expired, by simp, attempt, member, rfl, rfl⟩
    · exact ⟨ctx, now, expired, by simp, attempt, member, rfl⟩

theorem obeys_scheduleAttempt (ours : Ours entry own past jobID attemptID) :
    (scheduleAttempt settings ctx jobID).Obeys (Scheduling settings entry own) Excused
      past := by
  refine obeys_then ⟨trivial, trivial, trivial⟩ fun at' past₁ extended₁ =>
    obeys_expireLeases.bind fun swept past₂ extended₂ excused => ?_
  cases swept with
  | error e => exact fun message same => excused message (by rw [Except.error.inj same])
  | ok _ => exact obeys_placeAttempt ((ours.mono extended₁).mono extended₂)

theorem obeys_handleAttemptFailure {attemptCode : String}
    (named : apiErr.code ≠ "") (mine : Mine entry past own attemptID) :
    (handleAttemptFailure settings ctx nodeID own attemptID apiErr transient occurredAt
      attemptCode).Heeds (Scheduling settings entry own) past := by
  have ours : Ours entry own past own attemptID := ⟨mine, .inl rfl⟩
  have allowed : (retryAllowed transient own nodeID).Safe (Scheduling settings entry own) := by
    unfold retryAllowed
    split
    · exact Prog.safe_perform fun _ => ⟨trivial, trivial, trivial⟩
    · exact Prog.safe_ret
  have failing : ∀ {past' : Seen} {code : String}, past <+: past' →
      (failAndNotify ctx own attemptID code transient occurredAt apiErr).Heeds
        (Scheduling settings entry own) past' := fun extended =>
    (obeys_failAndNotify named (ours.mono extended)).mono (fun _ _ ok => ok) fun _ _ _ => trivial
  refine obeys_then ⟨trivial, trivial, trivial⟩ fun _ past₀ extended₀ =>
    allowed.before fun retry past₁ extended₁ => ?_
  have extended₁ := extended₀.trans extended₁
  cases retry with
  | false => exact failing extended₁
  | true =>
    refine obeys_then ⟨.inl (mine.mono extended₁), .inl rfl, trivial⟩
      fun failed past₂ extended₂ => ?_
    have extended₂ := extended₁.trans extended₂
    cases failed with
    | error e => trivial
    | ok _ =>
      refine (obeys_scheduleAttempt (ours.mono extended₂)).bind fun scheduled past₃ extended₃ _ => ?_
      cases scheduled with
      | ok _ => trivial
      | error e => exact failing (extended₂.trans extended₃)

theorem outcome_of_session {other : NodeID} {more : Nat}
    (same : session nodeID frames = .session other more) : nodeID = other :=
  (session.inj same).1

theorem serving_of_scheduling {p : Proc α} {Q : Seen → α → Prop}
    (schedules : p.Obeys (Scheduling settings entry own) Q past) :
    p.Obeys (Attends settings entry own) Q past :=
  schedules.mono (fun _ _ allowed => ⟨allowed.1, allowed.2.1⟩) fun _ _ done => done

/-! ### Completions -/

theorem obeys_modelHashes (ctx : Ctx) (modelID : ModelID) (past : Seen) :
    (modelHashes ctx modelID).Obeys (Attends settings entry own)
      (fun past' read => concluding past' = concluding past ∧
        ∀ hash hashes, read = .ok (hash, hashes) → hashes ≠ [] → ∃ releaseID,
          ⟨.store ctx (.modelHash modelID), .ok (hash, some releaseID)⟩ ∈ past' ∧
          ⟨.store ctx (.runtimeHashes releaseID), .ok hashes⟩ ∈ past') past := by
  refine obeys_call ⟨trivial, trivial⟩ fun version => ?_
  rcases version with e | ⟨hash, _ | releaseID⟩
  · exact ⟨concluding_snoc .., fun _ _ ok => nomatch ok⟩
  · refine ⟨concluding_snoc .., ?_⟩
    rintro _ _ ok hashes
    cases ok
    exact absurd rfl hashes
  · refine obeys_call ⟨trivial, trivial⟩ fun read => ?_
    cases read with
    | error e => exact ⟨(concluding_snoc ..).trans (concluding_snoc ..), fun _ _ ok => nomatch ok⟩
    | ok runtimeHashes =>
      refine ⟨(concluding_snoc ..).trans (concluding_snoc ..), ?_⟩
      rintro _ _ ok -
      cases ok
      exact ⟨releaseID, by simp, by simp⟩

theorem obeys_verifyCompletion (ctx : Ctx) (nodeID : NodeID) (payload : JobCompletedPayload)
    (past : Seen) :
    (verifyCompletion settings ctx nodeID payload).Obeys (Attends settings entry own)
      (fun past' verified => concluding past' = concluding past ∧
        (verified = .ok () → Verified settings past' nodeID payload)) past := by
  refine (obeys_modelHashes ctx payload.modelID past).bind fun read past' _ ⟨same, pinned⟩ => ?_
  cases read with
  | error e => exact ⟨same, fun ok => nomatch ok⟩
  | ok found =>
    obtain ⟨modelHash, runtimeHashes⟩ := found
    simp only
    split
    · exact ⟨same, fun ok => nomatch ok⟩
    next sameHash =>
      split
      · exact ⟨same, fun ok => nomatch ok⟩
      next offered =>
        rw [not_not] at sameHash offered
        obtain ⟨releaseID, model, runtime⟩ :=
          pinned modelHash runtimeHashes rfl (ne_nil_of_mem offered)
        refine obeys_call ⟨trivial, trivial⟩ fun key => ?_
        have kept : concluding (past' ++ [⟨.store ctx (.publicKeyForNode nodeID), key⟩]) =
            concluding past := (concluding_snoc ..).trans same
        cases key with
        | error e => exact ⟨kept, fun ok => nomatch ok⟩
        | ok encoded =>
          simp only
          split
          · exact ⟨kept, fun ok => nomatch ok⟩
          next publicKey decoded =>
            refine ⟨kept, fun signed => ⟨⟨ctx, releaseID, runtimeHashes, ?_, ?_, offered⟩,
              ⟨ctx, encoded, publicKey, by simp, decoded, signed⟩⟩⟩
            · exact mem_append_left _ (sameHash ▸ model)
            · exact mem_append_left _ runtime

theorem obeys_recordIssues {issues : List MeteringIssue} {at' : Time} :
    (recordIssues ctx payload issues at').Obeys (Attends settings entry payload.jobID)
      (fun past' _ => concluding past' = concluding past) past := by
  unfold recordIssues
  split
  · rfl
  · exact obeys_call ⟨trivial, rfl⟩ fun _ => concluding_snoc ..

theorem safe_flagIssues (ctx : Ctx) (payload : JobCompletedPayload)
    (issues : List MeteringIssue) :
    (flagIssues ctx payload issues).Safe (Attends settings entry payload.jobID) := by
  unfold flagIssues
  split
  · exact Prog.safe_ret
  · exact Prog.safe_call (fun _ => ⟨trivial, trivial⟩) fun at' _ =>
      obeys_recordIssues.mono (fun _ _ allowed => allowed) fun _ _ _ => trivial

section

variable (mine : Mine entry past payload.jobID payload.attemptID)
include mine

theorem obeys_rejectCompletion {message : String} :
    (rejectCompletion ctx nodeID payload message).Heeds
      (Attends settings entry payload.jobID) past := by
  have ours : Ours entry payload.jobID past payload.jobID payload.attemptID := ⟨mine, .inl rfl⟩
  refine obeys_call ⟨trivial, trivial⟩ fun _ => obeys_call ⟨trivial, trivial⟩ fun at' =>
    obeys_call ⟨mine.mono (by simp [append_assoc]), .inl rfl⟩ fun failed =>
    obeys_call ⟨trivial, trivial⟩ fun _ => serving_of_scheduling
      (obeys_notify (.inr ⟨?_, ?_⟩) (ours.mono (by simp [append_assoc])))
  · simp [Result.ofError, codeJobFailed]
  · exact ⟨ctx, _, _, _, _, failed, by simp⟩

theorem obeys_markDuplicate {agreement : Bool} {reason : String} {at' : Time} :
    (markDuplicate ctx payload agreement reason at').Obeys
      (Attends settings entry payload.jobID)
      (fun past' marked => concluding past' = concluding past ∧ (agreement = true → marked = .ok () →
        MarkedVerified past' payload.jobID payload.attemptID at')) past := by
  cases agreement with
  | true =>
    refine ⟨⟨mine, rfl⟩, fun marked => ⟨concluding_snoc .., fun _ ok => ⟨ctx, ?_⟩⟩⟩
    subst ok
    exact mem_concat_self
  | false => exact ⟨⟨.inl mine, rfl⟩, fun _ => ⟨concluding_snoc .., fun agreed => nomatch agreed⟩⟩

end

theorem obeys_createVerificationAttempt {originalNodeID : NodeID}
    (reserved : past = earlier ++
      [⟨.mem (.reserveDuplicate jobID originalNodeID candidates), some chosen⟩])
    (saw : SawCompleted past jobID) :
    (createVerificationAttempt ctx jobID chosen.nodeID leaseExpiresAt deadlineAt).Obeys
      (Attends settings entry jobID) (fun past' created => ∀ attempt, created = .ok attempt →
        Placed past' chosen.nodeID ∧ Verifying past' jobID attempt.attemptID ∧
        unregistered past' = some attempt.attemptID) past := by
  subst reserved
  refine obeys_call ⟨trivial, trivial⟩ fun read => ?_
  cases read with
  | error e => exact fun _ same => nomatch same
  | ok number =>
    have chose : ReservedDuplicate (earlier ++
        [⟨.mem (.reserveDuplicate jobID originalNodeID candidates), some chosen⟩] ++
        [⟨.store ctx (.nextAttemptNumber jobID), .ok number⟩]) jobID chosen.nodeID :=
      ⟨earlier, ctx, originalNodeID, candidates, chosen, number, rfl, by simp⟩
    refine obeys_call ⟨⟨chose, saw.mono (prefix_append _ _)⟩, rfl⟩ fun created => ?_
    cases created with
    | error e => exact fun _ same => nomatch same
    | ok attemptID =>
      rintro attempt same
      cases same
      exact ⟨⟨_, ctx, jobID, number, leaseExpiresAt, deadlineAt, attemptID, .inr ⟨chose, rfl⟩⟩,
        ⟨_, mem_concat_self, rfl⟩, unregistered_snoc ..⟩

theorem obeys_startDuplicate {run : Option RunState} (saw : SawCompleted past payload.jobID)
    (text : ∀ message, payload.message = some message → SawText past payload.jobID message.content)
    (found : ⟨.mem (.runSnapshot payload.jobID), run⟩ ∈ past) :
    (startDuplicate settings ctx nodeID payload run).Heeds
      (Attends settings entry payload.jobID) past := by
  cases run with
  | none => trivial
  | some run =>
    have found : FoundRun past payload.jobID run := .inr found
    simp only [startDuplicate, maybeStartDuplicate]
    split
    · trivial
    next message said =>
      split
      · trivial
      · refine obeys_call ⟨trivial, trivial⟩ fun at' =>
          obeys_call ⟨trivial, trivial⟩ fun eligible => ?_
        cases eligible with
        | error e => trivial
        | ok candidates =>
          refine obeys_call ⟨trivial, trivial⟩ fun reserved => ?_
          cases reserved with
          | none => trivial
          | some chosen =>
            refine (obeys_createVerificationAttempt rfl (saw.mono (by simp [append_assoc]))).bind
              fun created past₁ extended₁ placed => ?_
            have extended₁ : past <+: past₁ :=
              List.IsPrefix.trans (by simp [append_assoc]) extended₁
            cases created with
            | error e => exact obeys_call ⟨trivial, trivial⟩ fun _ => trivial
            | ok attempt =>
              -- the run is remembered with the text of the completion it is compared to
              obtain ⟨active, verifies, pending⟩ := placed attempt rfl
              have texts := (text message said).mono extended₁
              refine obeys_call ⟨active, trivial⟩ fun _ => obeys_call
                ⟨⟨verifies.mono (prefix_append _ _), texts.mono (prefix_append _ _)⟩,
                  (unregistered_snoc ..).trans pending⟩ fun _ => obeys_send
                ⟨trivial, run, (found.mono extended₁).mono (by simp [append_assoc]), rfl⟩
                fun sent past₂ _ failed => ?_
              cases sent with
              | ok _ => trivial
              | error e =>
                -- an offer that was not sent may fail its own attempt
                have unsent := failed e rfl
                exact obeys_then ⟨trivial, trivial⟩ fun _ past₃ extended₃ =>
                  obeys_then ⟨trivial, .inr (unsent.mono extended₃)⟩ fun _ past₄ extended₄ =>
                  obeys_call ⟨.inr ((unsent.mono extended₃).mono extended₄), rfl⟩ fun _ =>
                  trivial

section

variable (mine : Mine (.session nodeID frames) past payload.jobID payload.attemptID)
include mine

section

variable (verified : Verified settings past nodeID payload)
include verified

theorem obeys_completeJob {status : String} (judged : Judged past payload) :
    (completeJob settings ctx payload status).Obeys
      (Attends settings (.session nodeID frames) payload.jobID)
      (fun past' completed => ∀ response, completed = .ok response →
        SawCompleted past' payload.jobID ∧ SawResponse past' payload.jobID response ∧
        ∀ message, payload.message = some message →
          SawText past' payload.jobID message.content) past := by
  obtain ⟨run, read, judged⟩ := judged
  refine obeys_call ⟨trivial, trivial⟩ fun receivedAt =>
    obeys_call ⟨trivial, trivial⟩ fun dataClass =>
    obeys_call ⟨trivial, trivial⟩ fun attempts =>
    ⟨⟨⟨⟨nodeID, frames, rfl, verified.mono ?_⟩, mine.mono ?_⟩, rfl, ⟨run, by simp [read], judged⟩,
      ?_⟩, ?_⟩
  · simp [append_assoc]
  · simp [append_assoc]
  · cases attempts with
    | error e => exact .inl rfl
    | ok attempts => exact .inr ⟨ctx, mem_concat_self⟩
  · rintro completed response rfl
    refine ⟨⟨_, mem_concat_self, payload.attemptID, rfl⟩,
      ⟨_, mem_concat_self, rfl⟩, fun message said => ?_⟩
    refine ⟨_, mem_concat_self, ?_⟩
    simp [completedText, said]

theorem obeys_acceptCompletion : (acceptCompletion settings ctx nodeID payload).Heeds
      (Attends settings (.session nodeID frames) payload.jobID) past := by
  refine obeys_call ⟨trivial, trivial⟩ fun run => ?_
  simp only
  generalize verdict : validateCompletionForAcceptance _ payload = judged
  replace verdict : validateCompletionForAcceptance (judgedBy run) payload = judged := by
    cases run <;> exact verdict
  obtain ⟨issues, refusal⟩ := judged
  refine (safe_flagIssues ctx payload issues).before fun _ past₁ extended₁ => ?_
  have read := extended₁.subset mem_concat_self
  have extended₁ := (prefix_append past _).trans extended₁
  cases refusal with
  | some message => exact (obeys_rejectCompletion (mine.mono extended₁)).bind fun _ _ _ _ => trivial
  | none =>
    refine (obeys_completeJob (mine.mono extended₁) (verified.mono extended₁)
      ⟨run, read, by rw [verdict]⟩).bind fun completed past₂ extended₂ saw =>
      obeys_then ⟨trivial, trivial⟩ fun _ past₃ extended₃ => ?_
    cases completed with
    | error e => trivial
    | ok response =>
      obtain ⟨completes, responds, texts⟩ := saw response rfl
      have completes := completes.mono extended₃
      refine (obeys_startDuplicate completes (fun message said => (texts message said).mono extended₃)
        (extended₃.subset (extended₂.subset read))).bind fun _ past₄ extended₄ _ =>
        obeys_then ⟨trivial, trivial⟩ fun _ past₅ extended₅ => ?_
      have later := extended₄.trans extended₅
      have ours : Ours (.session nodeID frames) payload.jobID past₅ payload.jobID
          payload.attemptID :=
        ⟨mine.mono (((extended₁.trans extended₂).trans extended₃).trans later), .inl rfl⟩
      exact (serving_of_scheduling (obeys_notify (.inl ⟨rfl, completes.mono later,
        responds.mono (extended₃.trans later)⟩) ours)).bind fun _ _ _ _ => trivial

theorem obeys_payDuplicate {refusal : Option String} {at' : Time} {dup : DuplicateRun}
    (took : TookDuplicate past payload.attemptID dup)
    (marked : refusal = none → dup.agrees payload = true →
      MarkedVerified past payload.jobID payload.attemptID at') :
    (payDuplicate settings ctx payload refusal at').Heeds
      (Attends settings (.session nodeID frames) payload.jobID) past := by
  cases refusal with
  | none =>
    exact obeys_call ⟨⟨mine, nodeID, frames, dup, rfl, verified, took, marked rfl⟩, rfl⟩
      fun _ => trivial
  | some _ => trivial

end

theorem obeys_handleDuplicateCompletion (tested : concluding past = .tested payload.attemptID) :
    (handleDuplicateCompletion settings ctx nodeID payload).Heeds
      (Attends settings (.session nodeID frames) payload.jobID) past := by
  refine obeys_call ⟨trivial, .inl tested⟩ fun dup =>
    obeys_call ⟨trivial, trivial⟩ fun _ => ?_
  cases dup with
  | none => trivial
  | some dup =>
    refine obeys_call ⟨trivial, trivial⟩ fun at' => (obeys_verifyCompletion ctx nodeID payload
      _).bind fun checked past₁ extended₁ ⟨same, verified⟩ => ?_
    have mine : Mine (.session nodeID frames) past₁ payload.jobID payload.attemptID :=
      mine.mono (List.IsPrefix.trans (by simp [append_assoc]) extended₁)
    have took : TookDuplicate past₁ payload.attemptID dup :=
      extended₁.subset (by simp [append_assoc])
    have concludes : concluding past₁ = .took payload.attemptID :=
      same.trans (concluding_next (concluding_next (took_of_tested tested)))
    cases checked with
    | error message =>
      -- a completion that does not verify fails the attempt of its own session
      exact obeys_call ⟨.inl mine, rfl⟩ fun _ =>
        obeys_call ⟨fun _ _ => outcome_of_session, concluding_next concludes⟩ fun _ => trivial
    | ok _ =>
      simp only
      generalize validateCompletionForAcceptance _ payload = judged
      obtain ⟨issues, refusal⟩ := judged
      refine obeys_recordIssues.bind fun _ past₂ extended₂ kept =>
        (obeys_markDuplicate (mine.mono extended₂)).bind
        fun marked past₃ extended₃ ⟨still, completes⟩ => ?_
      have mine := (mine.mono extended₂).mono extended₃
      have verified := ((verified rfl).mono extended₂).mono extended₃
      have took := extended₃.subset (extended₂.subset took)
      cases marked with
      | error e => trivial
      | ok _ =>
        refine obeys_call ⟨fun _ _ => outcome_of_session, (still.trans kept).trans concludes⟩
          fun recorded => ?_
        cases recorded with
        | error e => trivial
        | ok _ =>
          refine (obeys_payDuplicate (mine.mono (prefix_append _ _))
            (verified.mono (prefix_append _ _)) (mem_append_left _ took) ?_).bind
            fun _ _ _ _ => trivial
          -- the credit is posted only once the attempt is marked completed
          intro unrefused agrees
          subst unrefused
          obtain ⟨ctx', seen⟩ := completes agrees rfl
          exact ⟨ctx', mem_append_left _ seen⟩

theorem obeys_handleJobCompleted : (handleJobCompleted settings ctx nodeID payload).Heeds
      (Attends settings (.session nodeID frames) payload.jobID) past := by
  refine obeys_call ⟨trivial, trivial⟩ fun duplicate => ?_
  have mine := mine.mono (prefix_append past [⟨.mem (.isDuplicateAttempt _), duplicate⟩])
  cases duplicate with
  | true => exact obeys_handleDuplicateCompletion mine (concluding_snoc ..)
  | false =>
    refine (obeys_verifyCompletion ctx nodeID payload _).bind
      fun checked past' extended ⟨_, verified⟩ => ?_
    cases checked with
    | error message =>
      exact (obeys_rejectCompletion (mine.mono extended)).bind fun _ _ _ _ => trivial
    | ok _ => exact obeys_acceptCompletion (mine.mono extended) (verified rfl)

end

/-! ### Node messages -/

/-- What a rejection and a failure have in common: a duplicate attempt is marked as failed, and any
other may be retried. -/
def turnDown (settings : Settings) (ctx : Ctx) (nodeID : NodeID) (jobID : JobID)
    (attemptID : AttemptID) (apiErr : APIError) (transient : Bool) (code : String)
    (rest : Option DuplicateRun → Proc Outcome) : Proc Outcome := do
  if ← isDuplicateAttempt attemptID then
    clearActive nodeID
    let dup ← mem (.removeDuplicateRun attemptID)
    let at' ← now
    let _ ← store ctx (.markVerificationAttemptFailed jobID attemptID code at')
    rest dup
  else
    let occurredAt ← now
    let result ← handleAttemptFailure settings ctx nodeID jobID attemptID apiErr transient
      occurredAt code
    pure (.done result)

theorem obeys_turnDown {code : String} {rest : Option DuplicateRun → Proc Outcome}
    (mine : Mine (.session nodeID frames) past own attemptID) (named : apiErr.code ≠ "")
    (outcome : ∀ dup {past'}, concluding past' = .took attemptID →
      (rest dup).Heeds (Attends settings (.session nodeID frames) own) past') :
    (turnDown settings ctx nodeID own attemptID apiErr transient code rest).Heeds
      (Attends settings (.session nodeID frames) own) past := by
  refine obeys_call ⟨trivial, trivial⟩ fun duplicate => ?_
  cases duplicate with
  | true =>
    have tested : concluding (past ++ [⟨.mem (.isDuplicateAttempt attemptID), true⟩]) =
        .tested attemptID := concluding_snoc ..
    exact obeys_call ⟨trivial, trivial⟩ fun _ =>
      obeys_call ⟨trivial, .inl (concluding_next tested)⟩ fun dup =>
      obeys_call ⟨trivial, trivial⟩ fun _ =>
      obeys_call ⟨.inl (mine.mono (by simp [append_assoc])), rfl⟩ fun _ =>
      outcome dup (concluding_next (concluding_next (took_of_tested (concluding_next tested))))
  | false =>
    exact obeys_call ⟨trivial, trivial⟩ fun _ => (serving_of_scheduling
      (obeys_handleAttemptFailure named (mine.mono (by simp [append_assoc])))).bind
      fun _ _ _ _ => trivial

theorem obeys_handleNodeMessage {message : JobMessage}
    (mine : Mine (.session nodeID frames) past message.jobID message.attemptID) :
    (handleNodeMessage settings ctx nodeID message).Heeds
      (Attends settings (.session nodeID frames) message.jobID) past := by
  cases message with
  | accepted payload | started payload => exact obeys_call ⟨mine, rfl⟩ fun _ => trivial
  | rejected payload =>
    exact obeys_turnDown mine (by simp [codeNoCapacity]) fun _ _ took =>
      obeys_call ⟨fun _ _ => outcome_of_session, took⟩ fun _ => trivial
  | failed payload =>
    refine obeys_turnDown mine (by simp [codeJobFailed]) fun dup _ took => ?_
    cases dup with
    | none => trivial
    | some _ => exact obeys_call ⟨fun _ _ => outcome_of_session, took⟩ fun _ => trivial
  | completed payload => exact (obeys_handleJobCompleted mine).bind fun _ _ _ _ => trivial

end

/-! ### The handlers -/

def Entry.orgID? : Entry → Option String
  | .chat call => some call.principal.organizationID
  | .createJob principal .. => some principal.organizationID
  | .getJob orgID _ | .cancelJob orgID _ => some orgID
  | _ => none

def Entry.apiKeyID? : Entry → Option String
  | .chat call => some call.principal.id
  | .createJob principal .. => some principal.id
  | _ => none

/-- Whether a session of the node takes the frame, as its first one or as a later one. -/
def Frame.taken (nodeID : NodeID) (first : Bool) : Frame → Bool
  | .hello other _ => first && other = nodeID
  | .heartbeat payload => !first && payload.nodeID = nodeID && payload.state.isSome
  | .stateChanged payload => !first && payload.nodeID = nodeID && payload.state.isSome
  | .safetyEvent payload => !first && payload.nodeID = nodeID
  | .job _ => !first
  | .unsupported | .invalid => false

/-- What a session has read: nothing, frames that it takes, or one that it does not take. -/
inductive Heard
  | nothing
  | taken
  | refused
  deriving DecidableEq

def Heard.next (nodeID : NodeID) : Heard → (op : Op) → op.Resp → Heard
  | .nothing, .recv _, some frame => if frame.taken nodeID true then .taken else .refused
  | .taken, .recv _, some frame => if frame.taken nodeID false then .taken else .refused
  | phase, _, _ => phase

def heard (nodeID : NodeID) (past : Seen) : Heard :=
  past.foldl (fun phase obs => phase.next nodeID obs.op obs.resp) .nothing

@[simp] theorem heard_snoc (nodeID : NodeID) (past : Seen) (op : Op) (r : op.Resp) :
    heard nodeID (past ++ [⟨op, r⟩]) = (heard nodeID past).next nodeID op r := by
  simp [heard]

theorem heard_next {r : op.Resp} {phase : Heard} (here : heard nodeID past = phase) :
    heard nodeID (past ++ [⟨op, r⟩]) = phase.next nodeID op r := by
  rw [heard_snoc, here]

def Opened (past : Seen) (nodeID : NodeID) (sessionID : SessionID) : Prop :=
  ⟨.store .caller (.openSession nodeID), .ok sessionID⟩ ∈ past

/-- The thread has detached its session and is left with the job the node was reserved for. -/
def Released (past : Seen) (nodeID : NodeID) (jobID : JobID) : Prop :=
  ∃ sessionID active, Opened past nodeID sessionID ∧
    ⟨.mem (.detachSession nodeID sessionID), some active⟩ ∈ past ∧ active.jobID = jobID

def Entry.IsChat (entry : Entry) : Prop := ∃ call, entry = .chat call

def Entry.IsSession (entry : Entry) (nodeID : NodeID) : Prop := ∃ frames, entry = .session nodeID frames

/-- A session that has read only frames it takes. -/
def Taking (entry : Entry) (past : Seen) (nodeID : NodeID) : Prop :=
  entry.IsSession nodeID ∧ heard nodeID past = .taken

def Answer.From (entry : Entry) (past : Seen) (jobID : Option JobID) : Answer → Prop
  | status _ found => ∃ orgID id, entry.orgID? = some orgID ∧ jobID = some id ∧
      ⟨.store .caller (.getJob orgID id), .ok found⟩ ∈ past
  | completion response => entry.IsChat ∧ ∃ id, jobID = some id ∧ Delivered past id response
  | replay row => ∃ call, entry = .chat call ∧ ⟨call.lookup, .ok (some row)⟩ ∈ past
  | error _ => True

def StoreCall.Fronts (entry : Entry) (past : Seen) : StoreCall → Prop
  | .modelInfo _ => entry.orgID?.isSome = true
  | .createJob orgID apiKeyID .. => entry.orgID? = some orgID ∧ entry.apiKeyID? = some apiKeyID
  | .getJob orgID _ | .cancelJob orgID _ => entry.orgID? = some orgID
  | .idempotencyRecord apiKeyID .. => entry.apiKeyID? = some apiKeyID
  | .storeIdempotencyResponse apiKeyID .. => entry.apiKeyID? = some apiKeyID
  | .failJob jobID .. => entry.IsChat ∧ CreatedJob past jobID
  | .openSession nodeID =>
    Taking entry past nodeID ∧ ∀ sessionID, ¬Opened past nodeID sessionID
  | .recordHeartbeat sessionID payload _ =>
    Taking entry past payload.nodeID ∧ Opened past payload.nodeID sessionID
  | .recordStateChanged nodeID _ => Taking entry past nodeID
  | .recordSafetyEvent payload => Taking entry past payload.nodeID
  | .closeSession sessionID nodeID _ => entry.IsSession nodeID ∧ Opened past nodeID sessionID
  | .markStale _ | .operatorCancelJob _ | .operatorRetryJob _ | .drainNode _ | .pauseNode _ |
    .quarantineNode _ => entry.orgID? = none ∧ NoSession entry
  | _ => False

def Fronts (entry : Entry) (past : Seen) : Op → Prop
  | .store _ call => call.Fronts entry past
  | .mem (.startRun jobID _ request _) =>
    (∃ call, entry = .chat call ∧ request = call.request) ∧ CreatedJob past jobID
  | .mem (.registerWait jobID) | .mem (.abandonWait jobID) => entry.IsChat ∧ CreatedJob past jobID
  | .mem (.attachSession nodeID sessionID) => Taking entry past nodeID ∧ Opened past nodeID sessionID
  | .mem (.detachSession nodeID sessionID) =>
    entry.IsSession nodeID ∧ Opened past nodeID sessionID
  | .recv nodeID => entry.IsSession nodeID ∧ heard nodeID past ≠ .refused
  | .greet sessionID => ∃ nodeID, Taking entry past nodeID ∧ Opened past nodeID sessionID
  | .close nodeID => entry.IsSession nodeID
  | .answer jobID a => a.From entry past jobID
  | .await channel =>
    entry.IsChat ∧ ∃ jobID, CreatedJob past jobID ∧ Waited past jobID channel
  | .now => True
  | .syncManifest _ => entry.orgID? = none ∧ NoSession entry
  | _ => False

/-- The job that a thread calls the service for: the one it has created, or one that a frame has
named to a session. -/
def Owns (entry : Entry) (past : Seen) (own : JobID) : Prop :=
  match entry with
  | .chat _ => CreatedJob past own
  | .session nodeID _ => heard nodeID past = .taken
  | _ => False

/-- A thread makes the calls of its handler, has the service serve a job it owns, or schedules the
job that its session has released. -/
inductive Conducts (entry : Entry) (past : Seen) (op : Op) : Prop
  | front (fronts : Fronts entry past op)
  | service {own : JobID} (owns : Owns entry past own) (serves : Serves own past op)
  | release {nodeID : NodeID} {own : JobID} (session : entry.IsSession nodeID)
      (released : Released past nodeID own) (schedules : Schedules own past op)

theorem Conducts.front_or_serves (conducts : Conducts entry past op) :
    Fronts entry past op ∨ ∃ own, Serves own past op := by
  cases conducts with
  | front fronts => exact .inl fronts
  | service _ serves => exact .inr ⟨_, serves⟩
  | release _ _ schedules => exact .inr ⟨_, schedules.1⟩

theorem Released.mono (released : Released past nodeID jobID) (extended : past <+: past') :
    Released past' nodeID jobID := by
  obtain ⟨sessionID, active, opened, detached, same⟩ := released
  exact ⟨sessionID, active, extended.subset opened, extended.subset detached, same⟩

theorem heard_of_serves (serves : Serves own past op) (nodeID : NodeID) (r : op.Resp) :
    heard nodeID (past ++ [⟨op, r⟩]) = heard nodeID past := by
  rw [heard_snoc]
  cases op with
  | recv => exact serves.elim
  | _ => cases heard nodeID past <;> rfl

theorem Owns.kept (r : op.Resp) (serves : Serves own past op) (owns : Owns entry past own) :
    Owns entry (past ++ [⟨op, r⟩]) own := by
  cases entry with
  | chat call => exact CreatedJob.mono owns (prefix_append _ _)
  | session nodeID frames => exact (heard_of_serves serves nodeID r).trans owns
  | _ => exact owns.elim

abbrev Behaves (settings : Settings) (entry : Entry) (past : Seen) (op : Op) : Prop :=
  Disciplined settings entry past op ∧ Conducts entry past op

section

variable {settings : Settings} {entry : Entry} {past : Seen} {α : Type} {p : Proc α}
  {Q : Seen → α → Prop} {principal : APIKeyPrincipal}
  {call : ChatCall} {jobID : JobID} {response : OpenAIResponse}

theorem behaves_of_serving (owns : Owns entry past own)
    (serves : p.Obeys (Attends settings entry own) Q past) :
    p.Obeys (Behaves settings entry) (fun past' a => Q past' a ∧ Owns entry past' own) past :=
  (serves.keeping (K := fun past => Owns entry past own) owns
    fun _ _ r allowed owns => owns.kept r allowed.2).mono
    (fun _ _ allowed => ⟨allowed.1.1, .service allowed.2 allowed.1.2⟩) fun _ _ done => done

theorem behaves_of_scheduling (released : Released past nodeID own)
    (schedules : p.Obeys (Scheduling settings (.session nodeID frames) own) Q past) :
    p.Obeys (Behaves settings (.session nodeID frames)) Q past :=
  (schedules.keeping (K := fun past => Released past nodeID own) released
    fun _ _ _ _ released => released.mono (prefix_append _ _)).mono
    (fun _ _ allowed => ⟨allowed.1.1, .release ⟨frames, rfl⟩ allowed.2 allowed.1.2⟩)
    fun _ _ done => done.1

section

variable (opened : Opened past nodeID sessionID)
include opened

theorem obeys_handleFrame {frame : Frame} (received : ⟨.recv nodeID, some frame⟩ ∈ past)
    (hears : heard nodeID past = if frame.taken nodeID false then .taken else .refused) :
    (handleFrame settings nodeID sessionID frame).Obeys (Behaves settings (.session nodeID frames))
      (fun past' next => next = .continue → heard nodeID past' = .taken) past := by
  have session : (session nodeID frames).IsSession nodeID := ⟨frames, rfl⟩
  have leave : ∀ {past'}, (closeWith nodeID).Obeys (Behaves settings (.session nodeID frames))
      (fun past' next => next = .continue → heard nodeID past' = .taken) past' :=
    obeys_call ⟨trivial, .front session⟩ fun _ same => nomatch same
  -- a frame that is stored, or is not
  have stores : ∀ call, call.Disciplined settings (.session nodeID frames) past →
      call.Fronts (.session nodeID frames) past → heard nodeID past = .taken →
      (store .caller call >>= leaveOnError nodeID).Obeys (Behaves settings (.session nodeID frames))
        (fun past' next => next = .continue → heard nodeID past' = .taken) past := by
    intro call disciplined allowed taken
    refine obeys_call ⟨disciplined, .front allowed⟩ fun stored => ?_
    cases stored with
    | error e => exact leave
    | ok => exact fun _ => heard_next taken
  cases frame with
  | heartbeat payload | stateChanged payload =>
    simp only [handleFrame]
    split
    · exact leave
    next mine =>
      rw [not_not] at mine
      split
      · exact leave
      next state known =>
        have taken : heard nodeID past = .taken := by simpa [Frame.taken, mine, known] using hears
        first
          | exact stores _ trivial ⟨mine ▸ session, mine ▸ taken⟩ taken
          | exact stores _ trivial ⟨⟨mine ▸ session, mine ▸ taken⟩, mine ▸ opened⟩ taken
  | safetyEvent payload =>
    simp only [handleFrame]
    split
    · exact leave
    next mine =>
      rw [not_not] at mine
      have taken : heard nodeID past = .taken := by simpa [Frame.taken, mine] using hears
      exact stores _ trivial ⟨mine ▸ session, mine ▸ taken⟩ taken
  | job message =>
    have taken : heard nodeID past = .taken := by simpa [Frame.taken] using hears
    have owns : Owns (.session nodeID frames) past message.jobID := taken
    -- the frame just received is what makes the attempt the session's own
    have mine : Mine (.session nodeID frames) past message.jobID message.attemptID := by
      intro other more same _
      cases same
      exact .inl ⟨message, received, rfl, rfl⟩
    refine (behaves_of_serving owns (obeys_handleNodeMessage mine)).bind
      fun outcome past' _ ⟨_, still⟩ => ?_
    cases outcome with
    | panicked => exact fun same => nomatch same
    | done result =>
      cases result with
      | ok => exact fun _ => still
      | error e => exact leave
  | hello | unsupported | invalid => exact leave

theorem obeys_readLoop {remaining : Nat} (taken : heard nodeID past = .taken) :
    (readLoop settings nodeID sessionID remaining).Heeds
      (Behaves settings (.session nodeID frames)) past := by
  induction remaining generalizing past with
  | zero => trivial
  | succ remaining ih =>
    refine obeys_call ⟨trivial, .front ⟨⟨frames, rfl⟩, by simp [taken]⟩⟩ fun read => ?_
    cases read with
    | none => trivial
    | some frame =>
      have opened : Opened (past ++ [⟨.recv nodeID, some frame⟩]) nodeID sessionID :=
        mem_append_left _ opened
      refine (obeys_handleFrame opened mem_concat_self (heard_next taken)).bind
        fun next past' extended goes => ?_
      cases next with
      | «continue» => exact ih (extended.subset opened) (goes rfl)
      | leave => trivial

theorem obeys_detach :
    (detach settings nodeID sessionID).Heeds (Behaves settings (.session nodeID frames))
      past := by
  refine obeys_call ⟨trivial, .front ⟨⟨frames, rfl⟩, opened⟩⟩ fun detached => ?_
  cases detached with
  | none => trivial
  | some active =>
    simp only
    split
    · trivial
    · refine obeys_then ⟨trivial, .front trivial⟩ fun occurredAt past' extended => ?_
      have left := extended.subset mem_concat_self
      have released : Released past' nodeID active.jobID :=
        ⟨sessionID, active, extended.subset (mem_append_left _ opened), left, rfl⟩
      refine (behaves_of_scheduling released (obeys_handleAttemptFailure (by decide)
        fun _ _ _ undetached => ?_)).bind fun _ _ _ _ => trivial
      cases undetached _ left

theorem obeys_serveSession (taken : heard nodeID past = .taken) :
    (serveSession settings nodeID sessionID frames).Heeds
      (Behaves settings (.session nodeID frames)) past := by
  have session : (session nodeID frames).IsSession nodeID := ⟨frames, rfl⟩
  refine obeys_call ⟨trivial, .front ⟨nodeID, ⟨session, taken⟩, opened⟩⟩ fun greeted => ?_
  cases greeted with
  | error e => trivial
  | ok =>
    have opened := mem_append_left [⟨.greet sessionID, .ok ()⟩] opened
    refine obeys_call ⟨trivial, .front ⟨⟨session, heard_next taken⟩, opened⟩⟩ fun attached => ?_
    refine (obeys_readLoop (mem_append_left _ opened)
      (heard_next (heard_next taken))).bind fun _ past' extended _ => ?_
    exact obeys_detach (extended.subset (mem_append_left _ opened))

end

theorem obeys_handleSession :
    (handleSession settings nodeID frames).Heeds (Behaves settings (.session nodeID frames)) [] := by
  have session : (session nodeID frames).IsSession nodeID := ⟨frames, rfl⟩
  have leave : ∀ {past'}, (close nodeID).Heeds (Behaves settings (.session nodeID frames)) past' :=
    ⟨⟨trivial, .front session⟩, fun _ => trivial⟩
  refine obeys_call ⟨trivial, .front ⟨session, nofun⟩⟩ fun hello => ?_
  split
  next other version =>
    split
    · exact leave
    next mine =>
      rw [not_not] at mine
      have taken : heard nodeID ([] ++ [⟨.recv nodeID, some (.hello other version)⟩]) = .taken := by
        simp [heard, Heard.next, Frame.taken, mine]
      have unopened : ∀ sessionID, ¬Opened ([] ++ [⟨.recv nodeID, some (.hello other version)⟩])
          nodeID sessionID := fun _ opened => nomatch mem_singleton.mp opened
      refine obeys_call ⟨trivial, .front ⟨⟨session, taken⟩, unopened⟩⟩ fun stored => ?_
      cases stored with
      | error e => exact leave
      | ok sessionID =>
        refine obeys_call ⟨trivial, .front trivial⟩ fun openedAt => ?_
        have opened : Opened ([] ++ [⟨.recv nodeID, some (.hello other version)⟩] ++
            [⟨.store .caller (.openSession nodeID), .ok sessionID⟩] ++ [⟨.now, openedAt⟩])
            nodeID sessionID := by simp [Opened]
        refine (obeys_serveSession opened (heard_next (heard_next taken))).bind
          fun _ past' extended _ => ?_
        exact obeys_call ⟨trivial, .front ⟨session, extended.subset opened⟩⟩ fun _ => trivial
  · exact leave
  · trivial

theorem Untouched.append {obs : Obs steps} (untouched : Untouched past)
    (quiet : Op.createsJob obs.op = false ∧ Op.answers obs.op = false) :
    Untouched (past ++ [obs]) := by
  intro other member
  rcases mem_append.mp member with old | new
  · exact untouched other old
  · rw [mem_singleton.mp new]
    exact quiet

theorem obeys_authorizedModel (request : entry.orgID?.isSome = true) :
    (authorizedModel principal modelID).Obeys (Behaves settings entry)
      (fun past' _ => Untouched past → Untouched past') past := by
  unfold authorizedModel
  split
  · exact id
  · split
    · exact id
    · refine obeys_call ⟨trivial, .front request⟩ fun found => ?_
      rcases found with (e | e) | model <;> exact fun untouched => untouched.append ⟨rfl, rfl⟩

theorem eq_of_resolved {record row : IdempotencyRow}
    (resolved : resolveIdempotency record requestHash = some (.replay row)) :
    row = record ∧ row.requestHash = requestHash := by
  unfold resolveIdempotency at resolved
  split at resolved
  · cases resolved
  next same =>
    split at resolved
    · cases resolved
      exact ⟨rfl, not_not.mp same⟩
    · cases resolved

theorem resolved_cases {record : IdempotencyRow}
    (resolved : resolveIdempotency record requestHash = some a) :
    (∃ e, a = .error e) ∨ ∃ row, a = .replay row := by
  unfold resolveIdempotency at resolved
  repeat' split at resolved
  all_goals cases resolved
  · exact .inl ⟨_, rfl⟩
  · exact .inr ⟨_, rfl⟩

def Recorded (call : ChatCall) (past : Seen) (a : Answer) : Prop :=
  (∃ e, a = .error e) ∨ ∃ row, a = .replay row ∧ FromRecord call past row

theorem obeys_replayed (untouched : Untouched past) :
    (replayed call).Obeys (Behaves settings (.chat call)) (fun past' known => Untouched past' ∧
      (known = none → call.idempotencyKey ≠ "" → Missed call past') ∧
      ∀ a, known = some a → Recorded call past' a) past := by
  unfold replayed
  split
  next keyless =>
    exact ⟨untouched, fun _ keyed => absurd keyless keyed, fun a same => nomatch same⟩
  · refine obeys_call ⟨trivial, .front rfl⟩ fun found => ?_
    have quiet : Untouched (past ++ [⟨call.lookup, found⟩]) := untouched.append ⟨rfl, rfl⟩
    have last : (⟨call.lookup, found⟩ : Obs steps) ∈ past ++ [⟨call.lookup, found⟩] :=
      mem_concat_self
    rcases found with e | _ | record
    · refine ⟨quiet, fun same => (nomatch same), ?_⟩
      rintro a ⟨⟩
      exact .inl ⟨_, rfl⟩
    · exact ⟨quiet, fun _ _ => ⟨none, last, fun row member => (nomatch member)⟩,
        fun a same => nomatch same⟩
    · refine ⟨quiet, fun resolved _ => ⟨some record, last, ?_⟩, fun a resolved => ?_⟩
      · rintro row ⟨⟩
        exact resolved
      · rcases resolved_cases resolved with refused | ⟨row, rfl⟩
        · exact .inl refused
        · obtain ⟨rfl, hash⟩ := eq_of_resolved resolved
          exact .inr ⟨row, rfl, past, [], rfl, .inl hash⟩

theorem obeys_freshAnswer (served : Delivered past jobID response) :
    (freshAnswer call jobID response).Obeys (Behaves settings (.chat call))
      (fun past' a => a = .completion response ∨
        ∃ row, a = .replay row ∧ FromRecord call past' row) past := by
  unfold freshAnswer
  split
  · exact .inl rfl
  · refine obeys_call ⟨⟨call, rfl, rfl, rfl, rfl, rfl, served⟩, .front rfl⟩ fun stored =>
      obeys_call ⟨trivial, .front rfl⟩ fun read => ?_
    have created : HasCreated (past ++ [⟨.store .caller (.storeIdempotencyResponse call.principal.id
        chatCompletionsEndpoint call.idempotencyKey call.bodyHash jobID response), stored⟩]) :=
      (served.1.mono (prefix_append _ _)).hasCreated
    rcases read with e | _ | record
    · exact .inl rfl
    · exact .inl rfl
    · simp only
      split
      · exact .inr ⟨record, rfl, _, [], rfl, .inr created⟩
      · exact .inl rfl

theorem FromRecord.mem {row : IdempotencyRow} (found : FromRecord call past row) :
    ⟨call.lookup, .ok (some row)⟩ ∈ past := by
  obtain ⟨earlier, later, rfl, -⟩ := found
  simp

theorem obeys_recorded (recorded : Recorded call past a) :
    (answer none a).Heeds (Behaves settings (.chat call)) past := by
  refine ⟨⟨?_, .front ?_⟩, fun _ => trivial⟩
  · rintro _ ⟨⟩
    refine ⟨fun id member => (nomatch member), ?_⟩
    rcases recorded with ⟨e, rfl⟩ | ⟨row, rfl, found⟩
    · exact fun row same => nomatch same
    · rintro row ⟨⟩
      exact found
  · rcases recorded with ⟨e, rfl⟩ | ⟨row, rfl, found⟩
    · trivial
    · exact ⟨call, rfl, found.mem⟩

theorem obeys_refused (ends : Ends past jobID (.error e)) :
    (answer (some jobID) (.error e)).Heeds (Behaves settings (.chat call)) past := by
  refine ⟨⟨?_, .front trivial⟩, fun _ => trivial⟩
  rintro _ ⟨⟩
  refine ⟨?_, fun row same => nomatch same⟩
  rintro id ⟨⟩
  exact ends

theorem Delivered.mono (served : Delivered past jobID response)
    (extended : past <+: past') : Delivered past' jobID response := by
  obtain ⟨created, channel, result, waited, received, ok, same⟩ := served
  exact ⟨created.mono extended, channel, result, extended.subset waited, extended.subset received,
    ok, same⟩

theorem obeys_runJob {model : ModelInfo} {apiKeyID : String}
    {deadline : Time} (created : past.getLast? =
      some ⟨.store ctx (.createJob orgID apiKeyID modelID deadline), .ok jobID⟩) :
    (runJob settings call model jobID deadlineAt).Heeds (Behaves settings (.chat call)) past := by
  have chat : (chat call).IsChat := ⟨call, rfl⟩
  have older : CreatedJob past jobID := ⟨_, mem_of_getLast? created, rfl⟩
  have own : ∀ (past : Seen) attemptID, Mine (.chat call) past jobID attemptID :=
    fun _ _ nodeID frames session => nomatch session
  refine obeys_call ⟨⟨ctx, orgID, apiKeyID, modelID, deadline, created⟩,
    .front ⟨chat, older⟩⟩ fun channel => ?_
  have older := older.mono (prefix_append past [⟨.mem (.registerWait jobID), channel⟩])
  have schedule : (schedule settings .caller jobID model call.request deadlineAt).Obeys
      (Behaves settings (.chat call)) Excused (past ++ [⟨.mem (.registerWait jobID), channel⟩]) := by
    refine obeys_then ⟨trivial, .front ⟨⟨call, rfl, rfl⟩, older⟩⟩ fun _ past' extended => ?_
    have owns : Owns (.chat call) past' jobID := older.mono extended
    exact (behaves_of_serving owns (serving_of_scheduling (obeys_scheduleAttempt
      ⟨own _ "", .inl rfl⟩))).mono (fun _ _ allowed => allowed) fun _ _ done => done.1
  refine schedule.bind fun scheduled past' extended excused => ?_
  have waited : Waited past' jobID channel := extended.subset (by simp)
  have older := older.mono extended
  have abandoned : ∀ {past' : Seen} {ctx : Ctx} {e : APIError}, CreatedJob past' jobID →
      Abandoned past' jobID → (now >>= fun at' =>
        store ctx (.failJob jobID "" e.code true at') >>= fun _ =>
        answer (some jobID) (.error e)).Heeds (Behaves settings (.chat call)) past' := by
    intro past' ctx e older ⟨u, left⟩
    exact obeys_call ⟨trivial, .front trivial⟩ fun at' =>
      obeys_call ⟨own _ _, .front ⟨chat, older.mono (prefix_append _ _)⟩⟩ fun failed =>
      obeys_refused (.abandoned ⟨u, by simp [left]⟩ ⟨_, _, _, _, _, failed, by simp⟩)
  cases scheduled with
  | error e =>
    refine obeys_call ⟨⟨channel, waited⟩, .front ⟨chat, older⟩⟩ fun u => ?_
    cases e with
    | other message =>
      have faulted := (excused message rfl).mono (prefix_append past' [⟨_, u⟩])
      exact obeys_refused (.unscheduled ⟨u, by simp⟩ faulted)
    | api apiErr => exact abandoned (older.mono (prefix_append _ _)) ⟨u, by simp⟩
  | ok attempt =>
    refine obeys_call ⟨trivial, .front ⟨chat, jobID, older, waited⟩⟩ fun received => ?_
    have older := older.mono (prefix_append past' [⟨.await channel, received⟩])
    have waited : Waited (past' ++ [⟨.await channel, received⟩]) jobID channel :=
      mem_append_left _ waited
    cases received with
    | none =>
      exact obeys_call ⟨⟨channel, waited⟩, .front ⟨chat, older⟩⟩ fun u =>
        abandoned (older.mono (prefix_append _ _)) ⟨u, by simp⟩
    | some result =>
      have received : Received (past' ++ [⟨.await channel, some result⟩]) channel result :=
        mem_concat_self
      simp only
      split
      next failed => exact obeys_refused (.reported waited received failed)
      next ok =>
        have served : Delivered (past' ++ [⟨.await channel, some result⟩]) jobID result.response :=
          ⟨older, channel, result, waited, received, not_not.mp ok, rfl⟩
        refine (obeys_freshAnswer served).bind fun a past'' extended' known =>
          ⟨⟨?_, .front ?_⟩, fun _ => trivial⟩
        · rintro _ ⟨⟩
          refine ⟨?_, ?_⟩
          · rintro id ⟨⟩
            refine .completed (extended'.subset waited) (extended'.subset received) (not_not.mp ok) ?_
            rcases known with rfl | ⟨row, rfl, -⟩ <;> exact fun e same => nomatch same
          · rintro row rfl
            rcases known with same | ⟨_, ⟨⟩, found⟩
            · cases same
            · exact found
        · rcases known with rfl | ⟨row, rfl, found⟩
          · exact ⟨chat, jobID, rfl, served.mono extended'⟩
          · exact ⟨call, rfl, found.mem⟩

theorem obeys_chatCompletionsHandler :
    (chatCompletionsHandler settings call).Heeds (Behaves settings (.chat call)) [] := by
  have fresh : Untouched [] := fun obs member => absurd member not_mem_nil
  refine (obeys_authorizedModel rfl).bind fun authorized past₁ _ untouched => ?_
  cases authorized with
  | error e => exact obeys_recorded (.inl ⟨e, rfl⟩)
  | ok model =>
    refine (obeys_replayed (untouched fresh)).bind
      fun known past₂ _ ⟨untouched, nothing, found⟩ => ?_
    cases known with
    | some a => exact obeys_recorded (found a rfl)
    | none =>
      refine obeys_call ⟨trivial, .front trivial⟩ fun at' =>
        obeys_call ⟨⟨fun _ _ => Entry.noConfusion, ?_⟩, .front ⟨rfl, rfl⟩⟩ fun created => ?_
      · -- a keyed request creates its job only after a lookup that found nothing to replay
        rintro _ ⟨⟩
        refine ⟨rfl, rfl, untouched.append ⟨rfl, rfl⟩, fun keyed => ?_⟩
        obtain ⟨record, looked, resolved⟩ := nothing rfl keyed
        exact ⟨record, mem_append_left _ looked, resolved⟩
      · cases created with
        | error e => exact obeys_recorded (.inl ⟨_, rfl⟩)
        | ok jobID => exact obeys_runJob getLast?_concat

section

variable (other : ∀ call, entry ≠ .chat call)
include other

theorem obeys_answer {jobID : Option JobID} (known : a.From entry past jobID) :
    (answer jobID a).Heeds (Behaves settings entry) past :=
  ⟨⟨fun call same => absurd same (other call), .front known⟩, fun _ => trivial⟩

theorem obeys_writeErr {jobID : Option JobID} (e : GoError) :
    (answer jobID (writeErr e)).Heeds (Behaves settings entry) past := by
  cases e <;> exact obeys_answer other trivial

theorem obeys_getJobHandler (mine : entry.orgID? = some orgID) :
    (getJobHandler orgID jobID).Heeds (Behaves settings entry) past := by
  refine obeys_call ⟨trivial, .front mine⟩ fun loaded => ?_
  cases loaded with
  | error e => exact obeys_writeErr other e
  | ok status => exact obeys_answer other ⟨orgID, jobID, mine, rfl, mem_concat_self⟩

variable (request : NoSession entry)
include request

theorem obeys_createJobHandler {deadlineSeconds : Int}
    (mine : entry.orgID? = some principal.organizationID)
    (key : entry.apiKeyID? = some principal.id) :
    (createJobHandler principal modelID deadlineSeconds).Heeds (Behaves settings entry) past := by
  refine (obeys_authorizedModel (by rw [mine]; rfl)).bind fun authorized past₁ _ _ => ?_
  cases authorized with
  | error e => exact obeys_answer other trivial
  | ok model =>
    simp only
    generalize (if deadlineSeconds = 0 then 900 else deadlineSeconds) = deadline
    split
    · exact obeys_answer other trivial
    · refine obeys_call ⟨trivial, .front trivial⟩ fun at' => obeys_call
        ⟨⟨request, fun call same => absurd same (other call)⟩, .front ⟨mine, key⟩⟩ fun created => ?_
      cases created with
      | error e => exact obeys_answer other trivial
      | ok jobID =>
        refine obeys_call ⟨trivial, .front mine⟩ fun loaded => ?_
        cases loaded with
        | error e => exact obeys_answer other trivial
        | ok status => exact obeys_answer other ⟨_, jobID, mine, rfl, mem_concat_self⟩

theorem obeys_cancelJobHandler (mine : entry.orgID? = some orgID) :
    (cancelJobHandler orgID jobID).Heeds (Behaves settings entry) past := by
  refine obeys_call ⟨request, .front mine⟩ fun cancelled => ?_
  cases cancelled with
  | error e => exact obeys_writeErr other e
  | ok => exact obeys_getJobHandler other mine

end

theorem behaves_program (settings : Settings) (entry : Entry) :
    (program settings entry).Heeds (Behaves settings entry) [] := by
  cases entry with
  | chat call => exact obeys_chatCompletionsHandler
  | createJob =>
    exact obeys_createJobHandler (fun _ => Entry.noConfusion) (fun _ _ => Entry.noConfusion) rfl rfl
  | getJob => exact obeys_getJobHandler (fun _ => Entry.noConfusion) rfl
  | cancelJob =>
    exact obeys_cancelJobHandler (fun _ => Entry.noConfusion) (fun _ _ => Entry.noConfusion) rfl
  | session nodeID frames => exact obeys_handleSession
  | syncManifest => exact ⟨⟨trivial, .front ⟨rfl, fun _ _ => Entry.noConfusion⟩⟩, fun _ => trivial⟩
  | operatorCancel | operatorRetry | quarantineNode =>
    exact obeys_call ⟨fun _ _ => Entry.noConfusion, .front ⟨rfl, fun _ _ => Entry.noConfusion⟩⟩
      fun _ => trivial
  | _ =>
    exact obeys_call ⟨trivial, .front ⟨rfl, fun _ _ => Entry.noConfusion⟩⟩ fun _ => trivial

end

section

variable {settings : Settings} {s : State} {past : Trace} {mid next : Config steps State} {event : Ev}
  (run : Ran settings s past mid) (step : Acts settings mid event next)
include run step

theorem disciplined : ∃ entry, (entries past)[event.thread]? = some entry ∧
      Disciplined settings entry (localTrace event.thread past) event.op := by
  obtain ⟨entry, started, behaves⟩ := run.allowed (behaves_program settings) step
  exact ⟨entry, started, behaves.1⟩

theorem conducts : ∃ entry, (entries past)[event.thread]? = some entry ∧
      Conducts entry (localTrace event.thread past) event.op := by
  obtain ⟨entry, started, behaves⟩ := run.allowed (behaves_program settings) step
  exact ⟨entry, started, behaves.2⟩

end

end Thirdshift
