import Thirdshift.Coordinator.Conduct

/-!
# What a handler has left to do

The handler of a message drops the entry of its node first and concludes the attempt later, and a
session that ends does the same. Between the two calls the attempt is recorded nowhere but with the
handler. The handlers make the second call before they read again, wait or return. A completion that
is refused for its hashes is concluded with the code of any other failure.
-/

namespace Thirdshift

open Foundation List Service

/-- The attempt that a session handles a message of, and the attempt whose entry it has dropped and
has not tried to conclude since. -/
structure Duty where
  handling : Option AttemptID
  owed : Option AttemptID
  deriving DecidableEq

def StoreCall.concludes : StoreCall → Option (JobID × AttemptID)
  | .failAttempt jobID attemptID .. | .failJob jobID attemptID .. => some (jobID, attemptID)
  | .markVerificationAttemptCompleted jobID attemptID _ => some (jobID, attemptID)
  | .markVerificationAttemptFailed jobID attemptID .. => some (jobID, attemptID)
  | _ => none

/-- A completion that is stored, or whose duplicate run is gone, is not concluded another time. -/
def Duty.next : Duty → (op : Op) → op.Resp → Duty
  | d, .recv _, some (.job message) => ⟨some message.attemptID, d.owed⟩
  | d, .recv _, _ => ⟨none, d.owed⟩
  | d, .mem (.clearActive _), _ => ⟨none, d.owed.or d.handling⟩
  | d, .mem (.detachSession ..), some (active : ActiveJob) =>
    ⟨none, if active.jobID = "" then d.owed else d.owed.or (some active.attemptID)⟩
  | d, .mem (.removeDuplicateRun _), none => ⟨none, d.owed⟩
  | d, .store _ (.completeJob ..), _ => ⟨none, d.owed⟩
  | d, .store _ call, _ =>
    if call.concludes.map Prod.snd = d.owed then ⟨d.handling, none⟩ else d
  | d, _, _ => d

def duty (seen : Seen) : Duty := seen.foldl (fun d obs => d.next obs.op obs.resp) ⟨none, none⟩

/-- How far a session is with the hashes of the completion it has read last; the model hash is read
first, and compared once the runtime hashes are there. -/
inductive HashCheck
  | idle
  | checking (payload : JobCompletedPayload) (otherModel : Bool)
  | mismatched (payload : JobCompletedPayload)

/-- Without a runtime release there is no hash that a completion could match. The key of the node is
looked up once the hashes match. -/
def HashCheck.next : HashCheck → (op : Op) → op.Resp → HashCheck
  | _, .recv _, some (.job (.completed payload)) => .checking payload false
  | _, .recv _, _ => .idle
  | _, .mem (.detachSession ..), _ => .idle
  | .checking payload _, .store _ (.modelHash _), .ok (_, none) => .mismatched payload
  | .checking payload _, .store _ (.modelHash _), .ok (hash, some _) =>
    .checking payload (payload.modelHash ≠ hash)
  | .checking payload otherModel, .store _ (.runtimeHashes _), .ok (hashes : List String) =>
    if otherModel ∨ payload.runtimeHash ∉ hashes then .mismatched payload
    else .checking payload false
  | .checking _ _, .store _ (.publicKeyForNode _), _ => .idle
  | _, .store _ (.failJob ..), _ => .idle
  | _, .store _ (.markVerificationAttemptFailed ..), _ => .idle
  | check, _, _ => check

def hashCheck (seen : Seen) : HashCheck :=
  seen.foldl (fun check obs => check.next obs.op obs.resp) .idle

/-- A refusal for the hashes is stored for the attempt of the completion, as a failed job. -/
def RefusedAs (seen : Seen) (attemptID : AttemptID) (code : String) : Prop :=
  ∀ payload, hashCheck seen = .mismatched payload →
    attemptID = payload.attemptID ∧ code = codeJobFailed

/-- A thread that reads or waits owes no attempt a conclusion. -/
def Due (seen : Seen) : Op → Prop
  | .recv _ | .await _ => (duty seen).owed = none
  | .store _ (.failJob _ attemptID code ..) => RefusedAs seen attemptID code
  | .store _ (.markVerificationAttemptFailed _ attemptID code _) => RefusedAs seen attemptID code
  | _ => True

/-! ### The automaton -/

structure At (d : Duty) (check : HashCheck) (seen : Seen) : Prop where
  duty : duty seen = d
  check : hashCheck seen = check

variable {seen : Seen} {op : Op} {d : Duty} {check : HashCheck} {settings : Settings} {entry : Entry}
  {own jobID : JobID} {attemptID : AttemptID} {ctx : Ctx} {nodeID : NodeID} {α β : Type}

theorem At.next (at' : At d check seen) (op : Op) (r : op.Resp) :
    At (d.next op r) (check.next op r) (seen ++ [⟨op, r⟩]) :=
  ⟨by simp [Thirdshift.duty, ← at'.duty], by simp [hashCheck, ← at'.check]⟩

/-- Nothing is being handled, owed or checked. -/
abbrev Rest (seen : Seen) : Prop := At ⟨none, none⟩ .idle seen

abbrev Clear (seen : Seen) : Prop := (duty seen).owed = none

/-- The program makes the calls that are due, and owes nothing when it returns. -/
abbrev Discharges (p : Proc α) (seen : Seen) : Prop := p.Obeys Due (fun seen _ => Clear seen) seen

theorem At.clear (at' : At d check seen) (none' : d.owed = none) : Clear seen := by
  rw [Clear, at'.duty, none']

theorem RefusedAs.of_idle {code : String} (idle : hashCheck seen = .idle) :
    RefusedAs seen attemptID code := by
  intro payload other
  rw [idle] at other
  cases other

/-- The conclusion that was owed. -/
theorem At.concluded {call : StoreCall} (at' : At ⟨none, some attemptID⟩ check seen)
    (concludes : call.concludes = some (jobID, attemptID))
    (idle : check.next (.store ctx call) = fun _ => .idle) (r : Except GoError call.Result) :
    Rest (seen ++ [⟨.store ctx call, r⟩]) := by
  have next := at'.next (.store ctx call) r
  rw [idle] at next
  refine ⟨next.duty.trans ?_, next.check⟩
  cases call <;> cases concludes <;> simp [Duty.next, StoreCall.concludes]

theorem Rest.serves (rest : Rest seen) (serves : Serves own seen op) (r : op.Resp) :
    Rest (seen ++ [⟨op, r⟩]) := by
  have next := rest.next op r
  refine ⟨next.duty.trans ?_, next.check.trans ?_⟩
  · cases op with
    | store ctx call => cases call <;> rfl
    | mem call =>
      cases call
      case removeDuplicateRun => cases r <;> rfl
      all_goals first | rfl | exact serves.elim
    | recv | close | greet | await | answer | syncManifest => exact serves.elim
    | now | send | put => rfl
  · cases op with
    | store ctx call => cases call <;> rfl
    | mem call => cases call <;> rfl
    | recv | close | greet | await | answer | syncManifest => exact serves.elim
    | now | send | put => rfl

theorem Rest.due (rest : Rest seen) : Due seen op := by
  cases op with
  | recv | await =>
    show (duty seen).owed = none
    rw [rest.duty]
  | store ctx call =>
    cases call
    case failJob | markVerificationAttemptFailed => exact .of_idle rest.check
    all_goals trivial
  | _ => trivial

/-- At rest, whatever the service does is due and leaves nothing to do. -/
theorem Rest.run {p : Proc α} {Q : Seen → α → Prop} (rest : Rest seen)
    (attends : p.Obeys (Attends settings entry own) Q seen) :
    Discharges p seen := by
  refine (attends.keeping rest fun _ _ r allowed rest => rest.serves allowed.2 r).mono
    (fun _ _ allowed => allowed.2.due) fun _ _ done => ?_
  rw [Clear, done.2.duty]

/-! ### The handlers of messages -/

section

variable {f : Except GoError Unit → Proc β} {apiErr : APIError} {transient : Bool} {occurredAt : Time}
  {code : String}

theorem due_handleAttemptFailure (at' : At d .idle seen)
    (owes : d.next (.mem (.clearActive nodeID)) () = ⟨none, some attemptID⟩)
    (attends : (handleAttemptFailure settings ctx nodeID jobID attemptID apiErr transient occurredAt
      code >>= f).Heeds (Attends settings entry own) seen) :
    Discharges (handleAttemptFailure settings ctx nodeID jobID attemptID apiErr transient occurredAt
      code >>= f) seen := by
  have dropped := at'.next (.mem (.clearActive nodeID)) ()
  rw [owes] at dropped
  refine ⟨trivial, fun _ => ?_⟩
  have attends := attends.2 ()
  cases transient with
  | false =>
    exact ⟨.of_idle dropped.check, fun failed => Rest.run (dropped.concluded rfl rfl failed)
      (attends.2 failed)⟩
  | true =>
    refine ⟨trivial, fun retry => ?_⟩
    have prepared := dropped.next (.mem (.prepareRetry jobID nodeID)) retry
    have attends := attends.2 retry
    cases retry with
    | false =>
      exact ⟨.of_idle prepared.check, fun failed => Rest.run (prepared.concluded rfl rfl failed)
        (attends.2 failed)⟩
    | true =>
      exact ⟨trivial, fun failed => Rest.run (prepared.concluded rfl rfl failed) (attends.2 failed)⟩

end

section

variable {payload : JobCompletedPayload}

/-- The check is that of the payload. -/
def Checks (payload : JobCompletedPayload) (check : HashCheck) : Prop :=
  ∀ other, check = .mismatched other → other = payload

theorem Checks.refused (checks : Checks payload check) (at' : At d check seen) :
    RefusedAs seen payload.attemptID codeJobFailed := by
  intro other mismatched
  rw [checks other (at'.check.symm.trans mismatched)]
  exact ⟨rfl, rfl⟩

theorem due_rejectCompletion {message : String} {f : Unit → Proc β} (checks : Checks payload check)
    (at' : At ⟨some payload.attemptID, none⟩ check seen)
    (attends : (rejectCompletion ctx nodeID payload message >>= f).Heeds
      (Attends settings entry own) seen) :
    Discharges (rejectCompletion ctx nodeID payload message >>= f) seen := by
  have dropped := at'.next (.mem (.clearActive nodeID)) ()
  refine ⟨trivial, fun _ => ⟨trivial, fun occurredAt => ?_⟩⟩
  have timed := dropped.next .now occurredAt
  have same : (check.next (.mem (.clearActive nodeID)) ()).next .now occurredAt = check := by
    cases check <;> rfl
  rw [same] at timed
  refine ⟨checks.refused timed, fun failed => Rest.run (timed.concluded rfl ?_ failed)
    (((attends.2 ()).2 occurredAt).2 failed)⟩
  funext r
  cases check <;> rfl

theorem At.read (at' : At d check seen) (op : Op) (r : op.Resp)
    (reads : d.next op r = if none = d.owed then ⟨d.handling, none⟩ else d) :
    At d (check.next op r) (seen ++ [⟨op, r⟩]) := by
  have next := at'.next op r
  rw [reads] at next
  rcases d with ⟨handling, _ | owed⟩ <;> exact next

theorem due_modelHashes {modelID : ModelID} (at' : At d (.checking payload false) seen) :
    (modelHashes ctx modelID).Obeys Due (fun seen read => ∃ check, At d check seen ∧
      Checks payload check ∧ ∀ hash hashes, read = .ok (hash, hashes) →
        payload.modelHash = hash → payload.runtimeHash ∈ hashes → check = .checking payload false)
      seen := by
  refine ⟨trivial, fun version => ?_⟩
  have model := at'.read (.store ctx (.modelHash modelID)) version rfl
  rcases version with e | ⟨hash, _ | releaseID⟩
  · exact ⟨_, model, fun _ => nofun, fun _ _ => nofun⟩
  · refine ⟨_, model, ?_, ?_⟩
    · rintro _ ⟨⟩
      rfl
    · rintro _ _ ⟨⟩ _ inside
      cases inside
  · refine ⟨trivial, fun read => ?_⟩
    have runtime := model.read (.store ctx (.runtimeHashes releaseID)) read rfl
    cases read with
    | error e => exact ⟨_, runtime, fun _ => nofun, fun _ _ => nofun⟩
    | ok hashes =>
      refine ⟨_, runtime, ?_, ?_⟩
      · intro other same
        simp only [HashCheck.next] at same
        split at same <;> cases same
        rfl
      · rintro _ _ ⟨⟩ rfl inside
        simp [HashCheck.next, inside]

/-- Unless the hashes match, a completion is not verified. -/
theorem due_verifyCompletion (settings : Settings) (ctx : Ctx) (nodeID : NodeID)
    (at' : At d (.checking payload false) seen) :
    (verifyCompletion settings ctx nodeID payload).Obeys Due (fun seen verified =>
      ∃ check, At d check seen ∧ Checks payload check ∧ (verified = .ok () → check = .idle)) seen := by
  refine (due_modelHashes at').bind fun read seen' _ ⟨check, here, checks, passes⟩ => ?_
  rcases read with e | ⟨modelHash, runtimeHashes⟩
  · exact ⟨check, here, checks, nofun⟩
  · simp only
    split
    · exact ⟨check, here, checks, nofun⟩
    next model =>
      split
      · exact ⟨check, here, checks, nofun⟩
      next runtime =>
        rw [passes modelHash runtimeHashes rfl (not_not.mp model) (not_not.mp runtime)] at here
        refine Prog.obeys_call trivial fun key => ?_
        have keyed := here.read (.store ctx (.publicKeyForNode nodeID)) key rfl
        have done : ∀ verified : Except String Unit, ∃ check, At d check
            (seen' ++ [⟨.store ctx (.publicKeyForNode nodeID), key⟩]) ∧ Checks payload check ∧
              (verified = .ok () → check = .idle) :=
          fun _ => ⟨_, keyed, fun _ => nofun, fun _ => rfl⟩
        cases key with
        | error e => exact done _
        | ok encoded =>
          simp only
          split <;> exact done _

theorem due_acceptCompletion (at' : At ⟨some payload.attemptID, none⟩ .idle seen)
    (attends : (acceptCompletion settings ctx nodeID payload).Heeds
      (Attends settings entry own) seen) :
    Discharges (acceptCompletion settings ctx nodeID payload) seen := by
  refine Prog.obeys_call trivial fun run => ?_
  have found := at'.next (.mem (.runSnapshot payload.jobID)) run
  have attends := Prog.Obeys.after attends run
  revert attends
  simp only
  generalize validateCompletionForAcceptance _ payload = judged
  obtain ⟨issues, refusal⟩ := judged
  intro attends
  have flagged : (flagIssues ctx payload issues).Obeys Due
      (fun seen _ => At ⟨some payload.attemptID, none⟩ .idle seen)
      (seen ++ [⟨.mem (.runSnapshot payload.jobID), run⟩]) := by
    unfold flagIssues
    split
    · exact found
    · refine ⟨trivial, fun at' => ?_⟩
      have timed := found.next .now at'
      unfold recordIssues
      split
      · exact timed
      · exact ⟨trivial, fun r => timed.next (.store ctx (.recordMeteringIssues ..)) r⟩
  refine (flagged.and (Prog.Obeys.unbind attends)).bind fun _ seen₁ _ ⟨here, attends⟩ => ?_
  cases refusal with
  | some message =>
    have idle : Checks payload .idle := fun _ => nofun
    exact due_rejectCompletion idle here attends
  | none =>
    refine ⟨trivial, fun at' => ⟨trivial, fun dataClass => ⟨trivial, fun attempts =>
      ⟨trivial, fun completed => ?_⟩⟩⟩⟩
    have counted := ((here.next .now at').next (.store ctx (.dataClass _)) dataClass).next
      (.store ctx (.attemptCount _)) attempts
    have stored := counted.next (.store ctx (.completeJob ..)) completed
    exact Rest.run stored ((((attends.2 at').2 dataClass).2 attempts).2 completed)

theorem due_markDuplicate {agreement : Bool} {reason : String} {at' : Time}
    {f : Except GoError Unit → Proc β} (here : At ⟨none, some payload.attemptID⟩ .idle seen)
    (attends : (markDuplicate ctx payload agreement reason at' >>= f).Heeds
      (Attends settings entry own) seen) :
    Discharges (markDuplicate ctx payload agreement reason at' >>= f) seen := by
  cases agreement with
  | true => exact Prog.obeys_call trivial fun marked =>
      Rest.run (here.concluded rfl rfl marked) (Prog.Obeys.after attends marked)
  | false => exact Prog.obeys_call (.of_idle here.check) fun marked =>
      Rest.run (here.concluded rfl rfl marked) (Prog.Obeys.after attends marked)

theorem due_handleDuplicateCompletion
    (at' : At ⟨some payload.attemptID, none⟩ (.checking payload false) seen)
    (attends : (handleDuplicateCompletion settings ctx nodeID payload).Heeds
      (Attends settings entry own) seen) :
    Discharges (handleDuplicateCompletion settings ctx nodeID payload) seen := by
  refine Prog.obeys_call trivial fun dup => Prog.obeys_call trivial fun _ => ?_
  have attends := Prog.Obeys.after (Prog.Obeys.after attends dup) ()
  have dropped := (at'.next (.mem (.removeDuplicateRun payload.attemptID)) dup).next
    (.mem (.clearActive nodeID)) ()
  cases dup with
  | none => exact dropped.clear rfl
  | some dup =>
    refine Prog.obeys_call trivial fun at' => ?_
    have attends := Prog.Obeys.after attends at'
    have verifies := due_verifyCompletion settings ctx nodeID (dropped.next .now at')
    refine (verifies.and (Prog.Obeys.unbind attends)).bind
      fun verified seen₁ _ ⟨⟨check, here, checks, idle⟩, attends⟩ => ?_
    cases verified with
    | error message =>
      refine Prog.obeys_call (checks.refused here) fun failed => ?_
      refine Rest.run (here.concluded rfl ?_ failed) (Prog.Obeys.after attends failed)
      funext r
      cases check <;> rfl
    | ok _ =>
      obtain rfl := idle rfl
      revert attends
      simp only
      generalize validateCompletionForAcceptance _ payload = judged
      obtain ⟨issues, refusal⟩ := judged
      intro attends
      have recorded : (recordIssues ctx payload issues at').Obeys Due
          (fun seen _ => At ⟨none, some payload.attemptID⟩ .idle seen) seen₁ := by
        unfold recordIssues
        split
        · exact here
        · exact ⟨trivial, fun r => here.next (.store ctx (.recordMeteringIssues ..)) r⟩
      refine (recorded.and (Prog.Obeys.unbind attends)).bind fun _ seen₂ _ ⟨here, attends⟩ => ?_
      exact due_markDuplicate here attends

theorem due_handleJobCompleted
    (at' : At ⟨some payload.attemptID, none⟩ (.checking payload false) seen)
    (attends : (handleJobCompleted settings ctx nodeID payload).Heeds
      (Attends settings entry own) seen) :
    Discharges (handleJobCompleted settings ctx nodeID payload) seen := by
  refine Prog.obeys_call trivial fun duplicate => ?_
  have here := at'.next (.mem (.isDuplicateAttempt payload.attemptID)) duplicate
  have attends := Prog.Obeys.after attends duplicate
  cases duplicate with
  | true => exact due_handleDuplicateCompletion here attends
  | false =>
    have verifies := due_verifyCompletion settings ctx nodeID here
    refine (verifies.and (Prog.Obeys.unbind attends)).bind
      fun verified seen₁ _ ⟨⟨check, here, checks, idle⟩, attends⟩ => ?_
    cases verified with
    | error message => exact due_rejectCompletion checks here attends
    | ok _ =>
      obtain rfl := idle rfl
      exact due_acceptCompletion here attends

end

theorem due_turnDown {apiErr : APIError} {transient : Bool} {code : String}
    {rest : Option DuplicateRun → Proc Outcome} (at' : At ⟨some attemptID, none⟩ .idle seen)
    (attends : (turnDown settings ctx nodeID jobID attemptID apiErr transient code rest).Heeds
      (Attends settings entry own) seen) :
    Discharges (turnDown settings ctx nodeID jobID attemptID apiErr transient code rest) seen := by
  refine Prog.obeys_call trivial fun duplicate => ?_
  have here := at'.next (.mem (.isDuplicateAttempt attemptID)) duplicate
  have attends := Prog.Obeys.after attends duplicate
  cases duplicate with
  | true =>
    refine ⟨trivial, fun _ => ⟨trivial, fun dup => ⟨trivial, fun occurredAt => ?_⟩⟩⟩
    have dropped := (here.next (.mem (.clearActive nodeID)) ()).next
      (.mem (.removeDuplicateRun attemptID)) dup
    have attends := ((attends.2 ()).2 dup).2 occurredAt
    cases dup <;>
      exact ⟨.of_idle (dropped.next .now occurredAt).check, fun failed => Rest.run
        ((dropped.next .now occurredAt).concluded rfl rfl failed) (attends.2 failed)⟩
  | false =>
    refine Prog.obeys_call trivial fun occurredAt => ?_
    exact due_handleAttemptFailure (here.next .now occurredAt) rfl
      (Prog.Obeys.after attends occurredAt)

/-! ### Sessions -/

variable {sessionID : SessionID} {remaining : Nat}

theorem due_handleNodeMessage {message : JobMessage} (clear : Clear seen) :
    Discharges (handleNodeMessage settings ctx nodeID message)
      (seen ++ [⟨.recv nodeID, some (.job message)⟩]) := by
  have mine : Mine (.session nodeID 0) (seen ++ [⟨.recv nodeID, some (.job message)⟩])
      message.jobID message.attemptID := by
    intro other more same _
    cases same
    exact .inl ⟨message, mem_concat_self, rfl, rfl⟩
  have attends : (handleNodeMessage settings ctx nodeID message).Heeds
      (Attends settings (.session nodeID 0) message.jobID) _ := obeys_handleNodeMessage mine
  have here : At ⟨some message.attemptID, none⟩
      ((hashCheck seen).next (.recv nodeID) (some (.job message)))
      (seen ++ [⟨.recv nodeID, some (.job message)⟩]) := by
    have next := (At.mk rfl rfl : At (duty seen) (hashCheck seen) seen).next
      (.recv nodeID) (some (.job message))
    exact ⟨next.duty.trans (congrArg (Duty.mk _) clear), next.check⟩
  cases message with
  | accepted payload =>
    exact ⟨trivial, fun r => (here.next (.store ctx (.markAccepted ..)) r).clear rfl⟩
  | started payload =>
    exact ⟨trivial, fun r => (here.next (.store ctx (.markStarted ..)) r).clear rfl⟩
  | rejected payload | failed payload => exact due_turnDown here attends
  | completed payload =>
    exact (due_handleJobCompleted here (Prog.Obeys.unbind attends)).bind fun _ _ _ clear => clear

theorem Clear.next (clear : Clear seen) (op : Op) (r : op.Resp)
    (kept : ∀ handling, (Duty.mk handling none |>.next op r).owed = none) :
    Clear (seen ++ [⟨op, r⟩]) := by
  have here : At ⟨(duty seen).handling, none⟩ (hashCheck seen) seen :=
    ⟨congrArg (Duty.mk _) clear, rfl⟩
  exact (here.next op r).clear (kept _)

theorem due_closeWith (clear : Clear seen) :
    Discharges (closeWith nodeID) seen :=
  ⟨trivial, fun _ => clear.next (.close nodeID) () fun _ => rfl⟩

theorem due_handleFrame {frame : Frame} (clear : Clear seen) :
    Discharges (handleFrame settings nodeID sessionID frame)
      (seen ++ [⟨.recv nodeID, some frame⟩]) := by
  have received : Clear (seen ++ [⟨.recv nodeID, some frame⟩]) :=
    clear.next (.recv nodeID) (some frame) fun _ => by cases frame <;> rfl
  -- a frame that is stored, or is not
  have stores : ∀ call : StoreCall,
      Due (seen ++ [⟨.recv nodeID, some frame⟩]) (.store .caller call) →
      (∀ handling r, (Duty.mk handling none |>.next (.store .caller call) r).owed = none) →
      Discharges (store .caller call >>= leaveOnError nodeID)
        (seen ++ [⟨.recv nodeID, some frame⟩]) := by
    intro call due kept
    refine Prog.obeys_call due fun stored => ?_
    have clear := received.next (.store .caller call) stored fun handling => kept handling stored
    cases stored with
    | ok => exact clear
    | error e => exact due_closeWith clear
  cases frame with
  | heartbeat payload | stateChanged payload =>
    simp only [handleFrame]
    split
    · exact due_closeWith received
    · split
      · exact due_closeWith received
      · exact stores _ trivial fun _ _ => rfl
  | safetyEvent payload =>
    simp only [handleFrame]
    split
    · exact due_closeWith received
    · exact stores _ trivial fun _ _ => rfl
  | job message =>
    refine (due_handleNodeMessage clear).bind fun outcome _ _ clear => ?_
    rcases outcome with (e | _) | _
    · exact due_closeWith clear
    · exact clear
    · exact clear
  | hello | unsupported | invalid => exact due_closeWith received

theorem due_readLoop (clear : Clear seen) :
    Discharges (readLoop settings nodeID sessionID remaining) seen := by
  induction remaining generalizing seen with
  | zero => exact clear
  | succ remaining ih =>
    refine Prog.obeys_call clear fun read => ?_
    cases read with
    | none => exact clear.next (.recv nodeID) none fun _ => rfl
    | some frame =>
      refine (due_handleFrame clear).bind fun next _ _ clear => ?_
      cases next with
      | «continue» => exact ih clear
      | leave => exact clear

theorem due_detach (clear : Clear seen) :
    Discharges (detach settings nodeID sessionID) seen := by
  refine Prog.obeys_call trivial fun detached => ?_
  have here : At ⟨(duty seen).handling, none⟩ (hashCheck seen) seen :=
    ⟨congrArg (Duty.mk _) clear, rfl⟩
  have left := here.next (.mem (.detachSession nodeID sessionID)) detached
  cases detached with
  | none => exact left.clear rfl
  | some active =>
    simp only
    split
    next unnamed => exact left.clear (if_pos unnamed)
    next named =>
      refine Prog.obeys_call trivial fun occurredAt => ?_
      have owes : Duty.next (Duty.mk (duty seen).handling none)
          (.mem (.detachSession nodeID sessionID)) (some active) = ⟨none, some active.attemptID⟩ :=
        congrArg (Duty.mk none) (if_neg named)
      rw [owes] at left
      have mine : ∀ past, Mine (.getJob "" "") past active.jobID active.attemptID :=
        fun _ _ _ => nofun
      exact due_handleAttemptFailure (left.next .now occurredAt) rfl
        ((serving_of_scheduling (obeys_handleAttemptFailure (by decide) (mine _))).bind
          fun _ _ _ _ => trivial)

theorem due_serveSession {frames : Nat} (clear : Clear seen) :
    Discharges (serveSession settings nodeID sessionID frames) seen := by
  refine Prog.obeys_call trivial fun greeted => ?_
  have welcome := clear.next (.greet sessionID) greeted fun _ => rfl
  cases greeted with
  | error e => exact welcome
  | ok =>
    refine Prog.obeys_call trivial fun _ => ?_
    have attached := welcome.next (.mem (.attachSession nodeID sessionID)) () fun _ => rfl
    exact (due_readLoop attached).bind fun _ _ _ clear => due_detach clear

theorem due_handleSession (settings : Settings) (nodeID : NodeID) (frames : Nat) :
    Discharges (handleSession settings nodeID frames) [] := by
  have start : Clear [] := rfl
  refine Prog.obeys_call start fun hello => ?_
  have greeted : Clear ([] ++ [⟨.recv nodeID, hello⟩]) :=
    start.next (.recv nodeID) hello fun _ => by rcases hello with _ | (_ | _) <;> rfl
  have leave : ∀ {seen : Seen}, Clear seen →
      Discharges (close nodeID) seen :=
    fun clear => ⟨trivial, fun _ => clear.next (.close nodeID) () fun _ => rfl⟩
  split
  · split
    · exact leave greeted
    · refine Prog.obeys_call trivial fun stored => ?_
      have opened := greeted.next (.store .caller (.openSession nodeID)) stored fun _ => rfl
      cases stored with
      | error e => exact leave opened
      | ok sessionID =>
        refine Prog.obeys_call trivial fun openedAt => ?_
        have timed := opened.next .now openedAt fun _ => rfl
        refine (due_serveSession timed).bind fun _ _ _ clear => Prog.obeys_call trivial fun r => ?_
        exact clear.next (.store .background (.closeSession ..)) r fun _ => rfl
  · exact leave greeted
  · exact greeted

/-- Every thread makes the calls that are due, and owes nothing when it returns. -/
theorem due_program (settings : Settings) (entry : Entry) :
    Discharges (program settings entry) [] := by
  by_cases session : ∃ nodeID frames, entry = .session nodeID frames
  · obtain ⟨nodeID, frames, rfl⟩ := session
    exact due_handleSession settings nodeID frames
  · -- only a session reads and detaches
    have other : ∀ nodeID, ¬entry.IsSession nodeID :=
      fun nodeID ⟨frames, same⟩ => session ⟨nodeID, frames, same⟩
    refine ((behaves_program settings entry).keeping (K := Rest) ⟨rfl, rfl⟩ ?_).mono
      (fun _ _ allowed => allowed.2.due) fun _ _ done => done.2.clear rfl
    intro seen op r allowed rest
    rcases allowed.2.front_or_serves with fronts | ⟨own, serves⟩
    · have next := rest.next op r
      cases op with
      | recv nodeID => exact absurd fronts.1 (other nodeID)
      | mem call =>
        cases call
        case detachSession nodeID sessionID => exact absurd fronts.1 (other nodeID)
        all_goals first | exact next | exact fronts.elim
      | store ctx call => cases call <;> exact next
      | _ => exact next
    · exact rest.serves serves r

end Thirdshift
