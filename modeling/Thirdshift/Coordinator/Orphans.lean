import Thirdshift.Coordinator.Duties
import Thirdshift.Coordinator.Leases

/-!
# Leases that nobody can conclude

A node's attempt is reached through the entry of the node in the memory, by a disconnect and by the
node's messages. An attempt that is accepted or running is recorded there, or with the handler that
has dropped the entry and is about to conclude the attempt, as long as acceptances come from the node
that is recorded, no other entry is dropped or replaced while an attempt of the node is under way,
and the conclusions are stored.
-/

namespace Thirdshift

open Foundation Deployment MemCall Table

deriving instance DecidableEq for ActiveJob

def Memory.Records (m : Memory) (a : Attempt) : Prop :=
  m.activeByNode a.nodeID = some ⟨a.jobID, a.id⟩ ∧ (m.sessions a.nodeID).isSome = true
  deriving Decidable

def State.NoOrphans (s : State) : Prop :=
  ∀ a ∈ s.db.attempts.rows, a.status.taken = true → s.mem.Records a
  deriving Decidable

/-- What is left of a handler: nothing, or to wait for a message or a result. -/
def waits : Prog steps Unit → Bool
  | .ret _ => true
  | .call (.recv _) _ => true
  | .call (.await _) _ => true
  | _ => false

/-- No handler is in the middle of running. -/
def Quiet (c : Config steps State) : Prop := ∀ prog ∈ c.threads, waits prog = true
  deriving Decidable

def Op.replaces (m : Memory) : Op → Option NodeID
  | .mem (.setActive nodeID _) => some nodeID
  | op => op.frees m

def Op.accepts : Op → Option AttemptID
  | .store _ (.markAccepted _ attemptID) => some attemptID
  | _ => none

def Op.concludes : Op → Option (JobID × AttemptID)
  | .store _ call => call.concludes
  | _ => none

/-- What the acting thread has left to do after the event. -/
def Ev.dutyAfter (past : Trace) (event : Ev) : Duty :=
  (duty (localTrace event.thread past)).next event.op event.resp

/-- An attempt is accepted while it is the one recorded for its connected node. The entry of a node
is dropped or replaced while none of its attempts is accepted or running but the one that the thread
then has to conclude. The conclusion of such an attempt is stored, under its own job. -/
structure KeepsRecords (past : Trace) (event : Ev) : Prop where
  accepts : ∀ attemptID ∈ event.op.accepts, ∀ a ∈ event.before.db.attempts.find? attemptID,
    event.before.mem.Records a
  replaces : ∀ nodeID ∈ event.op.replaces event.before.mem, ∀ a ∈ event.before.db.attempts.rows,
    a.nodeID = nodeID → a.status.taken = true → (event.dutyAfter past).owed = some a.id
  concludes : ∀ named ∈ event.op.concludes,
    (duty (localTrace event.thread past)).owed = some named.2 → event.commits.isSome = true ∧
      named.2 ≠ "" ∧ ∀ a ∈ event.before.db.attempts.find? named.2, a.jobID = named.1

instance (past : Trace) (event : Ev) : Decidable (KeepsRecords past event) :=
  decidable_of_iff (_ ∧ _ ∧ _) ⟨fun ⟨a, b, c⟩ => ⟨a, b, c⟩, fun ⟨a, b, c⟩ => ⟨a, b, c⟩⟩

/-! ### Attempts under way -/

section

variable {settings : Settings} {past : Trace} {event : Ev}

variable {a : Attempt}

theorem StoreCall.taken_of_onAttempt {input : Input} {call : StoreCall} (ctx : Ctx)
    (taken : (call.onAttempt input a).status.taken = true) :
    a.status.taken = true ∨ (Op.store ctx call).accepts = some a.id := by
  cases call
  case markAccepted jobID attemptID =>
    simp only [onAttempt, updateWhere] at taken
    split at taken
    next matched => exact .inr (congrArg some (of_decide_eq_true matched).1.symm)
    · exact .inl taken
  case markStarted jobID attemptID =>
    simp only [onAttempt, updateWhere] at taken
    split at taken
    next matched => exact .inl (of_decide_eq_true matched).2.2
    · exact .inl taken
  all_goals
    simp only [onAttempt, updateWhere, id] at taken
    first
      | exact .inl taken
      | (split at taken
         · cases taken
         · exact .inl taken)

theorem Ev.taken_origin (valid : event.Valid settings) (member : a ∈ event.after.db.attempts.rows)
    (taken : a.status.taken = true) :
    ∃ old ∈ event.before.db.attempts.rows, a = event.onAttempt old ∧
      (old.status.taken = true ∨ event.op.accepts = some old.id) := by
  rcases Ev.attempt_origin valid (mem_rows_iff.mp member) with ⟨old, was, rfl⟩ | ⟨-, new, -⟩
  · refine ⟨old, mem_of_find? was, rfl, ?_⟩
    cases commits : event.commits with
    | none =>
      left
      simpa [Ev.onAttempt, commits] using taken
    | some call =>
      obtain ⟨ctx, called⟩ := committed_eq_some commits
      simp only [Ev.onAttempt, commits] at taken
      rw [called]
      exact StoreCall.taken_of_onAttempt ctx taken
  · obtain ⟨call, -, added⟩ := Option.bind_eq_some_iff.mp new
    cases call <;> cases added <;> cases taken

theorem Memory.Records.not_chosen {m : Memory} {chosen : Candidate} (records : m.Records a)
    (free : m.free chosen = true) : a.nodeID ≠ chosen.nodeID := by
  intro same
  rw [Memory.free, Bool.and_eq_true, Option.isNone_iff_eq_none, ← same, records.1] at free
  cases free.2

theorem records_step {op : Op} {r : op.Resp} {input : Input} {s s' : State}
    (exec : step settings op input s = some (s', r)) (records : s.mem.Records a)
    (kept : op.replaces s.mem ≠ some a.nodeID) : s'.mem.Records a := by
  have ⟨active, attached⟩ := records
  rw [mem_of_step exec]
  cases op with
  | mem call =>
    cases call
    case attachSession nodeID sessionID =>
      refine ⟨active, ?_⟩
      simp only [Op.onMemory, run, Function.update_apply]
      split
      · rfl
      · exact attached
    case detachSession nodeID sessionID =>
      simp only [Op.onMemory, run]
      split
      next here =>
        -- only the session that is attached detaches the node
        have apart : a.nodeID ≠ nodeID := by
          rintro rfl
          exact kept (if_pos here)
        exact ⟨by simpa [Memory.clearActive, apart] using active, by simpa [apart] using attached⟩
      · exact ⟨active, attached⟩
    case reserve ref jobID candidates =>
      simp only [Op.onMemory, run]
      split
      next chosen choice =>
        -- a node with a record is not free, so it is not chosen
        have apart := records.not_chosen (free_of_choose choice).2
        exact ⟨by simpa [Memory.setActive, Memory.updateRun, apart] using active, attached⟩
      · exact ⟨active, attached⟩
    case reserveDuplicate jobID original candidates =>
      simp only [Op.onMemory, run]
      split
      next chosen choice =>
        have apart := records.not_chosen (free_of_choose choice).2
        exact ⟨by simpa [Memory.setActive, apart] using active, attached⟩
      · exact ⟨active, attached⟩
    case setActive nodeID entry =>
      have apart : a.nodeID ≠ nodeID := fun same => kept (by rw [same]; rfl)
      exact ⟨by simpa [Op.onMemory, run, Memory.setActive, apart] using active, attached⟩
    case clearActive nodeID =>
      have apart : a.nodeID ≠ nodeID := fun same => kept (by rw [same]; rfl)
      exact ⟨by simpa [Op.onMemory, run, Memory.clearActive, apart] using active, attached⟩
    case prepareRetry =>
      simp only [Op.onMemory, run]
      repeat' split
      all_goals exact ⟨active, attached⟩
    all_goals exact ⟨active, attached⟩
  | await =>
    simp only [Op.onMemory]
    split <;> exact ⟨active, attached⟩
  | _ => exact ⟨active, attached⟩

theorem StoreCall.not_taken_of_concludes {input : Input} {call : StoreCall}
    (concludes : call.concludes = some (a.jobID, a.id)) (named : a.id ≠ "") :
    (call.onAttempt input a).status.taken = false := by
  have live : a.status.live = false → a.status.taken = false := by cases a.status <;> decide
  cases call with
  | failJob =>
    cases concludes
    simp [onAttempt, updateWhere, named, Store.Attempt.fail, AttemptStatus.taken]
  | markVerificationAttemptCompleted =>
    cases concludes
    simp only [onAttempt, updateWhere, true_and, Bool.decide_eq_true]
    split
    · rfl
    next untaken => exact Bool.eq_false_iff.mpr untaken
  | failAttempt | markVerificationAttemptFailed =>
    cases concludes
    simp only [onAttempt, updateWhere, true_and, Bool.decide_eq_true]
    split
    · rfl
    next dead => exact live (Bool.eq_false_iff.mpr dead)
  | _ => cases concludes

theorem Duty.owed_next {d : Duty} {attemptID : AttemptID} (owed : d.owed = some attemptID) (op : Op)
    (r : op.Resp) : (d.next op r).owed = some attemptID ∨
      ∃ jobID, op.concludes = some (jobID, attemptID) := by
  cases op with
  | recv =>
    left
    rcases r with _ | (_ | _) <;> exact owed
  | mem call =>
    left
    cases call
    case clearActive => simp [Duty.next, owed]
    case detachSession =>
      cases r with
      | none => exact owed
      | some active => simp [Duty.next, owed]
    case removeDuplicateRun => cases r <;> exact owed
    all_goals exact owed
  | store ctx call =>
    cases call
    case completeJob => exact .inl owed
    all_goals
      simp only [Duty.next, Op.concludes, StoreCall.concludes, owed]
      split
      next same =>
        cases same <;> exact .inr ⟨_, rfl⟩
      · exact .inl owed
  | _ => exact .inl owed

/-- An attempt under way is recorded, or some thread owes its conclusion. -/
def Reached (ls : Trace) (s : State) : Prop :=
  ∀ a ∈ s.db.attempts.rows, a.status.taken = true →
    s.mem.Records a ∨ ∃ i, (duty (localTrace i ls)).owed = some a.id

theorem Reached.act (valid : event.Valid settings) (keeps : KeepsRecords past event)
    (reached : Reached past event.before) : Reached (past ++ [.act event]) event.after := by
  intro a member taken
  obtain ⟨old, was, rfl, before⟩ := Ev.taken_origin valid member taken
  have same := event.sameLease old
  rw [Memory.Records, same.nodeID, same.jobID, same.id]
  have acting : (duty (localTrace event.thread (past ++ [.act event]))) = event.dutyAfter past := by
    rw [localTrace_snoc_act, if_pos rfl]
    exact (At.next ⟨rfl, rfl⟩ event.op event.resp).duty
  have recorded : event.before.mem.Records old →
      (event.after.mem.activeByNode old.nodeID = some ⟨old.jobID, old.id⟩ ∧
        (event.after.mem.sessions old.nodeID).isSome = true) ∨
      ∃ i, (duty (localTrace i (past ++ [.act event]))).owed = some old.id := by
    intro recorded
    by_cases replaces : event.op.replaces event.before.mem = some old.nodeID
    · rcases before with still | accepts
      · exact .inr ⟨event.thread, acting ▸ keeps.replaces _ replaces old was rfl still⟩
      · generalize event.op = op at replaces accepts
        cases op with
        | store => cases replaces
        | _ => cases accepts
    · exact .inl (records_step valid recorded replaces)
  rcases before with still | accepts
  · rcases reached old was still with here | ⟨i, owed⟩
    · exact recorded here
    · refine .inr ⟨i, ?_⟩
      by_cases mine : event.thread = i
      · subst mine
        rw [acting]
        rcases Duty.owed_next owed event.op event.resp with stays | ⟨jobID, concludes⟩
        · exact stays
        · -- the attempt is concluded by this very call
          obtain ⟨stored, named, job⟩ := keeps.concludes _ concludes owed
          obtain ⟨call, commits⟩ := Option.isSome_iff_exists.mp stored
          obtain ⟨ctx, called⟩ := committed_eq_some commits
          obtain rfl : old.jobID = jobID := job old (mem_rows_iff.mp was)
          rw [called] at concludes
          have ended : (call.onAttempt event.input old).status.taken = false :=
            StoreCall.not_taken_of_concludes concludes named
          simp only [Ev.onAttempt, commits] at taken
          cases taken.symm.trans ended
      · rwa [localTrace_snoc_act, if_neg mine, List.append_nil]
  · exact recorded (keeps.accepts old.id accepts old (mem_rows_iff.mp was))

end

/-- A thread that waits or has returned owes nothing. -/
theorem clear_of_quiet {settings : Settings} {start : State} {ls : Trace} {c : Config steps State}
    (run : Ran settings start ls c) (quiet : Quiet c) (i : Nat) : Clear (localTrace i ls) := by
  cases current : c.threads[i]? with
  | none =>
    rw [run.localTrace_unstarted (run.length_threads ▸ List.getElem?_eq_none_iff.mp current)]
    rfl
  | some prog =>
    obtain ⟨entry, -, due⟩ := run.thread_obeys (due_program settings) current
    have waits := quiet prog (List.mem_of_getElem? current)
    match prog with
    | .ret _ => exact due
    | .call (.recv _) _ => exact due.1
    | .call (.await _) _ => exact due.1
    | .call (.store ..) _ | .call (.mem _) _ | .call .now _ | .call (.close _) _ => cases waits
    | .call (.send ..) _ | .call (.greet _) _ | .call (.put ..) _ => cases waits
    | .call (.answer ..) _ | .call (.syncManifest _) _ => cases waits

/-- In a run in which records are kept, no lease is orphaned when no handler is in the middle of
running. -/
theorem no_orphaned_leases {settings : Settings} {catalog : Catalog} {nodes : Table Node.id}
    {ls : Trace} {c : Config steps State}
    (run : (coordinator settings).Run (.boot (boot catalog nodes)) ls c)
    (keeps : Along KeepsRecords ls) (quiet : Quiet c) : c.state.NoOrphans := by
  have reached : Reached ls c.state := by
    refine run.along_invariant (I := Reached) keeps ?_ ?_ ?_
    · intro a member
      simp [boot, Config.boot] at member
    · intro past mid entry _ reached
      simpa only [Reached, localTrace_snoc_spawn] using reached
    · exact fun past event mid next _ step here reached => reached.act step.exec here
  intro a member taken
  refine (reached a member taken).resolve_right ?_
  rintro ⟨i, owed⟩
  rw [clear_of_quiet run quiet i] at owed
  cases owed

namespace Deployment

/-- The node of an accepted attempt reports a failure: its entry is dropped, the attempt is failed, and
the job goes to the other node, which accepts it. -/
def handedOver : List (Choice Input Entry) :=
  connect 0 "n1" ++ connect 1 "n2" ++ request 2 "j" "a" ++ accept 0 "j0" "a0" ++
  [.act 0 (reading (.job (.failed ⟨"j0", "a0", "job_failed", "", true, 0⟩)))] ++
  List.replicate 14 (.act 0 (drawing "b")) ++ accept 1 "j0" "b0"

end Deployment

theorem no_orphaned_leases_handedOver : ∃ ls c,
    (coordinator settings).Run (.boot start) ls c ∧
    (Along KeepsRecords ls ∧ Quiet c ∧ c.state.db.attemptStatus "a0" = some .failed ∧
      c.state.db.attemptStatus "b0" = some .accepted) ∧
    c.state.NoOrphans := by
  obtain ⟨ls, c, run, keeps, quiet, ended, underWay⟩ := run_of_check
    (p := fun ls c => Along KeepsRecords ls ∧ Quiet c ∧
      c.state.db.attemptStatus "a0" = some .failed ∧
      c.state.db.attemptStatus "b0" = some .accepted)
    handedOver (by decide +kernel)
  exact ⟨ls, c, run, ⟨keeps, quiet, ended, underWay⟩, no_orphaned_leases run keeps quiet⟩

/-- The result of an accepted attempt comes after its deadline: it is refused, the entry of the node is
dropped and the session ends. -/
def Deployment.lateResult : List (Choice Input Entry) :=
  connect 0 "n1" ++ request 1 "j" "a" ++ accept 0 "j0" "a0" ++
  [.act 0 (reading (.job (.completed (payload "j0" "a0"))))] ++ advance 0 5 ++
  [.act 0 { idle with now := 1000 + seconds 200 }] ++ advance 0 7

theorem lease_orphaned : ∃ ls c,
    (coordinator settings).Run (.boot start) ls c ∧ Quiet c ∧
    ¬c.state.NoOrphans :=
  run_of_check lateResult (by decide +kernel)

end Thirdshift
