import Thirdshift.Coordinator.Conduct
import Thirdshift.Coordinator.Runs

/-!
# Waiting requests

A request waits on a channel of its own, and what it receives there was sent for its job: channels
are numbered apart, a job is registered once, and a channel holds only what a handler has taken it
out of the waiter map for.
-/

namespace Thirdshift

open Foundation List Op MemCall

variable {s : State} {channel i : Nat} {ls past : Trace} {event : Ev}

/-! ### Events on waiters -/

def registered : (op : Op) → op.Resp → Option (JobID × Nat)
  | .mem (.registerWait jobID), channel => some (jobID, channel)
  | _, _ => none

def taken : (op : Op) → op.Resp → Option (JobID × Result × Nat)
  | .mem (.takePending jobID result), some channel => some (jobID, result, channel)
  | _, _ => none

def awaited : (op : Op) → op.Resp → Option (Nat × Result)
  | .await channel, some result => some (channel, result)
  | _, _ => none

def Registered (ls : Trace) (jobID : JobID) (channel : Nat) : Prop :=
  Happened (fun event => registered event.op event.resp = some (jobID, channel)) ls

def Taken (ls : Trace) (jobID : JobID) (result : Result) (channel : Nat) : Prop :=
  Happened (fun event => taken event.op event.resp = some (jobID, result, channel)) ls

def Awaited (ls : Trace) (channel : Nat) (result : Result) : Prop :=
  Happened (fun event => awaited event.op event.resp = some (channel, result)) ls

/-- What an operation makes of the waiter of a job, when so many channels exist. -/
def Op.onPending (channels : Nat) (jobID : JobID) (old : Option Nat) : Op → Option Nat
  | .mem (.registerWait j) => if j = jobID then some channels else old
  | .mem (.abandonWait j) => if j = jobID then none else old
  | .mem (.takePending j _) => if j = jobID then none else old
  | _ => old

theorem MemCall.channels_run (weights : SchedulerWeights) (m : Memory) (call : MemCall) :
    (call.run weights m).1.channels =
      match call with
      | .registerWait _ => m.channels ++ [none]
      | _ => m.channels := by
  cases call <;> simp only [run] <;> repeat' split
  all_goals rfl

section

variable {settings : Settings} {op : Op} {input : Input} {s' : State} {r : op.Resp}

theorem pending_of_step (exec : step settings op input s = some (s', r)) (jobID : JobID) :
    s'.mem.pending jobID = op.onPending s.mem.channels.length jobID (s.mem.pending jobID) := by
  rw [mem_of_step exec]
  cases op with
  | mem call =>
    cases call with
    | registerWait | abandonWait | takePending =>
      simp [onMemory, run, onPending, Function.update_apply, eq_comm]
    | detachSession | reserve | reserveDuplicate | prepareRetry =>
      simp only [onMemory, run, onPending]
      repeat' split
      all_goals rfl
    | _ => rfl
  | await channel =>
    simp only [onMemory]
    split <;> rfl
  | _ => rfl

variable {jobID : JobID} {result : Result}

section

variable (exec : step settings op input s = some (s', r))
include exec

theorem channel_of_registered (registers : registered op r = some (jobID, channel)) :
    op = .mem (.registerWait jobID) ∧ channel = s.mem.channels.length := by
  cases op with
  | mem call =>
    cases call with
    | registerWait j =>
      cases registers
      cases exec
      exact ⟨rfl, rfl⟩
    | _ => cases registers
  | _ => cases registers

theorem registered_of_pending (waiting : s'.mem.pending jobID = some channel) :
    s.mem.pending jobID = some channel ∨ registered op r = some (jobID, channel) := by
  rw [pending_of_step exec] at waiting
  cases op with
  | mem call =>
    cases call with
    | registerWait j =>
      cases exec
      simp only [onPending] at waiting
      split at waiting
      next same =>
        cases waiting
        exact .inr (by rw [same]; rfl)
      · exact .inl waiting
    | abandonWait j | takePending j told =>
      simp only [onPending] at waiting
      split at waiting
      · cases waiting
      · exact .inl waiting
    | _ => exact .inl waiting
  | _ => exact .inl waiting

theorem pending_of_taken (takes : taken op r = some (jobID, result, channel)) :
    op = .mem (.takePending jobID result) ∧ s.mem.pending jobID = some channel := by
  cases op with
  | mem call =>
    cases call with
    | takePending j told =>
      cases r with
      | none => cases takes
      | some ch =>
        cases takes
        exact ⟨rfl, (congrArg Prod.snd (Option.some.inj exec))⟩
    | _ => cases takes
  | _ => cases takes

theorem fresh_of_createdJob (creates : createdJob op r = some jobID) :
    s.db.jobs.find? jobID = none ∧ ∃ j, s'.db.jobs.find? jobID = some j := by
  cases op with
  | store ctx call =>
    cases call with
    | createJob orgID apiKeyID modelID deadlineAt =>
      cases r with
      | error e => cases creates
      | ok id =>
        cases creates
        exact StoreCall.createJob_result (exec_of_ok exec)
    | _ => cases creates
  | _ => cases creates

theorem full_of_step (full : s'.mem.channels[channel]? = some (some result)) :
    s.mem.channels[channel]? = some (some result) ∨ op = .put channel result := by
  rw [mem_of_step exec] at full
  cases op with
  | put ch told =>
    simp only [onMemory, getElem?_set] at full
    -- the channel is the one that was put into, or another
    split at full
    next here =>
      split at full
      · simp only [Option.some.injEq] at full
        exact .inr (by rw [here, full])
      · cases full
    · exact .inl full
  | await ch =>
    simp only [onMemory] at full
    split at full
    · simp only [getElem?_set] at full
      split at full
      · split at full <;> cases full
      · exact .inl full
    · exact .inl full
  | mem call =>
    simp only [onMemory, channels_run] at full
    split at full
    · -- a channel that is made now is empty
      rw [getElem?_append] at full
      split at full
      · exact .inl full
      · simp [getElem?_singleton] at full
    · exact .inl full
  | _ => exact .inl full

theorem full_of_awaited (receives : awaited op r = some (channel, result)) :
    s.mem.channels[channel]? = some (some result) := by
  cases op with
  | await ch =>
    simp only [step] at exec
    split at exec
    · split at exec
      next told full =>
        cases exec
        cases receives
        exact full
      · cases exec
    · cases exec
      cases receives
  | _ => cases receives

theorem channels_length_of_step :
    s'.mem.channels.length = s.mem.channels.length + if (registered op r).isSome then 1 else 0 := by
  rw [mem_of_step exec]
  cases op with
  | mem call =>
    simp only [onMemory, channels_run]
    cases call <;> simp [registered]
  | put => simp [onMemory, registered]
  | await =>
    simp only [onMemory]
    split <;> simp [registered]
  | _ => simp [onMemory, registered]

end

end

/-! ### The waiters of a run -/

def justCreated (past : Seen) : Option JobID :=
  past.getLast?.bind fun obs => createdJob obs.op obs.resp

structure Waiting (ls : Trace) (s : State) : Prop where
  registered : ∀ jobID channel, s.mem.pending jobID = some channel → Registered ls jobID channel
  numbered : ∀ jobID channel, Registered ls jobID channel → channel < s.mem.channels.length
  apart : ∀ jobID jobID' channel, Registered ls jobID channel → Registered ls jobID' channel →
    jobID = jobID'
  filled : ∀ channel result, s.mem.channels[channel]? = some (some result) →
    ∃ jobID, Taken ls jobID result channel
  awaited : ∀ channel result, Awaited ls channel result → ∃ jobID, Taken ls jobID result channel
  taken : ∀ jobID result channel, Taken ls jobID result channel → Registered ls jobID channel
  completed : ∀ jobID result channel, Taken ls jobID result channel → result.error.code = "" →
    ∃ attemptID, Completed ls jobID attemptID
  known : ∀ jobID channel, Registered ls jobID channel → ∃ j, s.db.jobs.find? jobID = some j
  created : ∀ i jobID, justCreated (localTrace i ls) = some jobID →
    (∃ j, s.db.jobs.find? jobID = some j) ∧ (∀ channel, ¬Registered ls jobID channel) ∧
      ∀ i', justCreated (localTrace i' ls) = some jobID → i' = i

theorem waiting_boot (catalog : Catalog) (nodes : Table Node.id) :
    Waiting [] (boot catalog nodes) := by
  constructor <;> simp [boot, Memory.init, Registered, Taken, Awaited, justCreated, localTrace]

theorem Waiting.spawn (waiting : Waiting ls s) (entry : Entry) :
    Waiting (ls ++ [.spawn entry]) s := by
  obtain ⟨h₁, h₂, h₃, h₄, h₅, h₆, h₇, h₈, h₉⟩ := waiting
  constructor <;> simpa only [Registered, Taken, Awaited, Completed, happened_snoc_spawn,
    localTrace_snoc_spawn] using by assumption

theorem Ev.job_persists {settings : Settings} (valid : event.Valid settings)
    {jobID : JobID} (known : ∃ j, event.before.db.jobs.find? jobID = some j) :
    ∃ j, event.after.db.jobs.find? jobID = some j := by
  obtain ⟨j, found⟩ := known
  exact ⟨_, Ev.job_kept valid found⟩

section

variable {settings : Settings} {mid next : Config steps State}

section

variable (run : Ran settings s past mid) (acts : Acts settings mid event next)
include run acts

theorem justCreated_of_registered {jobID : JobID}
    (registers : Thirdshift.registered event.op event.resp = some (jobID, channel)) :
    justCreated (localTrace event.thread past) = some jobID := by
  obtain ⟨entry, -, allowed⟩ := disciplined run acts
  rw [(channel_of_registered acts.exec registers).1] at allowed
  obtain ⟨ctx, orgID, apiKeyID, modelID, deadlineAt, last⟩ := allowed
  simp [justCreated, last, createdJob]

theorem taken_of_put {result : Result}
    (puts : event.op = .put channel result) : ∃ jobID, Taken past jobID result channel := by
  obtain ⟨entry, -, allowed⟩ := disciplined run acts
  rw [puts] at allowed
  obtain ⟨jobID, -, last⟩ := allowed
  have seen := happened_of_seen taken (mem_of_getLast? last)
  exact ⟨jobID, seen⟩

theorem completed_of_taken {jobID : JobID} {result : Result}
    (takes : taken event.op event.resp = some (jobID, result, channel))
    (ok : result.error.code = "") : ∃ attemptID, Completed past jobID attemptID := by
  obtain ⟨entry, -, allowed⟩ := disciplined run acts
  rw [(pending_of_taken acts.exec takes).1] at allowed
  rcases allowed.1 with ⟨-, ⟨obs, member, attemptID, completes⟩, -⟩ | ⟨failed, -⟩
  · have seen := happened_of_seen
      (fun op r => (committed op r).bind StoreCall.completion) member
    simp only [completes] at seen
    exact ⟨attemptID, seen⟩
  · exact absurd ok failed

theorem Waiting.step (waiting : Waiting past event.before) :
    Waiting (past ++ [.act event]) event.after := by
  have valid : Ev.Valid settings event := acts.exec
  have older : ∀ {jobID channel}, Registered past jobID channel →
      Registered (past ++ [.act event]) jobID channel :=
    fun earlier => happened_snoc_act.mpr (.inl earlier)
  have length := channels_length_of_step acts.exec
  -- a job that is registered by this event has been created by the same thread just before
  have registering : ∀ {jobID channel}, Thirdshift.registered event.op event.resp =
      some (jobID, channel) → justCreated (localTrace event.thread past) = some jobID :=
    justCreated_of_registered run acts
  have taking : ∀ {jobID result channel}, Taken past jobID result channel →
      Taken (past ++ [.act event]) jobID result channel :=
    fun earlier => happened_snoc_act.mpr (.inl earlier)
  refine ⟨?_, ?_, ?_, ?_, ?_, ?_, ?_, ?_, ?_⟩
  · intro jobID channel pending
    rcases registered_of_pending acts.exec pending with old | new
    · exact older (waiting.registered jobID channel old)
    · exact happened_snoc_act.mpr (.inr new)
  · intro jobID channel registered
    rcases happened_snoc_act.mp registered with old | new
    · have := waiting.numbered jobID channel old
      omega
    · rw [(channel_of_registered acts.exec new).2, length, new]
      simp
  · intro jobID jobID' channel registered registered'
    rcases happened_snoc_act.mp registered with old | new <;>
      rcases happened_snoc_act.mp registered' with old' | new'
    · exact waiting.apart jobID jobID' channel old old'
    · have below := waiting.numbered jobID channel old
      rw [(channel_of_registered acts.exec new').2] at below
      exact absurd below (Nat.lt_irrefl _)
    · have below := waiting.numbered jobID' channel old'
      rw [(channel_of_registered acts.exec new).2] at below
      exact absurd below (Nat.lt_irrefl _)
    · exact congrArg Prod.fst (Option.some.inj (new.symm.trans new'))
  · intro channel result full
    have earlier : ∃ jobID, Taken past jobID result channel := by
      rcases full_of_step acts.exec full with old | puts
      · exact waiting.filled channel result old
      · exact taken_of_put run acts puts
    exact earlier.imp fun jobID => taking
  · intro channel result received
    have earlier : ∃ jobID, Taken past jobID result channel := by
      rcases happened_snoc_act.mp received with old | new
      · exact waiting.awaited channel result old
      · exact waiting.filled channel result (full_of_awaited acts.exec new)
    exact earlier.imp fun jobID => taking
  · intro jobID result channel taken
    rcases happened_snoc_act.mp taken with old | new
    · exact older (waiting.taken jobID result channel old)
    · exact older (waiting.registered jobID channel (pending_of_taken acts.exec new).2)
  · intro jobID result channel taken ok
    have earlier : ∃ attemptID, Completed past jobID attemptID := by
      rcases happened_snoc_act.mp taken with old | new
      · exact waiting.completed jobID result channel old ok
      · exact completed_of_taken run acts new ok
    exact earlier.imp fun attemptID before => happened_snoc_act.mpr (.inl before)
  · intro jobID channel registered
    refine Ev.job_persists valid ?_
    rcases happened_snoc_act.mp registered with old | new
    · exact waiting.known jobID channel old
    · exact (waiting.created event.thread jobID (registering new)).1
  · -- a job created by this event was not known before it
    have fresh : ∀ {jobID}, createdJob event.op event.resp = some jobID →
        ¬∃ j, event.before.db.jobs.find? jobID = some j := by
      rintro jobID creates ⟨j, found⟩
      rw [(fresh_of_createdJob acts.exec creates).1] at found
      cases found
    intro i jobID created
    rw [localTrace_snoc_act] at created
    by_cases mine : event.thread = i
    · have creates : createdJob event.op event.resp = some jobID := by
        simpa [justCreated, mine] using created
      refine ⟨(fresh_of_createdJob acts.exec creates).2, fun channel registered => ?_, fun i' other => ?_⟩
      · rcases happened_snoc_act.mp registered with old | new
        · exact fresh creates (waiting.known jobID channel old)
        · exact fresh creates (waiting.created event.thread jobID (registering new)).1
      · by_contra apart
        have notMine : event.thread ≠ i' := fun same => apart (same.symm.trans mine)
        rw [localTrace_snoc_act, if_neg notMine, append_nil] at other
        exact fresh creates (waiting.created i' jobID other).1
    · rw [if_neg mine, append_nil] at created
      obtain ⟨known, unregistered, alone⟩ := waiting.created i jobID created
      refine ⟨Ev.job_persists valid known, fun channel registered => ?_, fun i' other => ?_⟩
      · rcases happened_snoc_act.mp registered with old | new
        · exact unregistered channel old
        · exact mine (alone _ (registering new))
      · by_cases here : event.thread = i'
        · have creates : createdJob event.op event.resp = some jobID := by
            simpa [justCreated, localTrace_snoc_act, here] using other
          exact absurd known (fresh creates)
        · rw [localTrace_snoc_act, if_neg here, append_nil] at other
          exact alone i' other

end

end

theorem Waiting.told (waiting : Waiting ls s) {jobID : JobID}
    {result : Result} (waited : Waited (localTrace i ls) jobID channel)
    (received : Received (localTrace i ls) channel result) : Taken ls jobID result channel := by
  have mine := happened_of_seen Thirdshift.registered waited
  have told := happened_of_seen Thirdshift.awaited received
  obtain ⟨other, taken⟩ := waiting.awaited channel result told
  rw [waiting.apart jobID other channel mine (waiting.taken other result channel taken)]
  exact taken

theorem waiting_of_run {settings : Settings} {catalog : Catalog} {nodes : Table Node.id}
    {c : Config steps State} (run : Ran settings (boot catalog nodes) ls c) : Waiting ls c.state :=
  run.invariant (waiting_boot catalog nodes) (fun _ _ entry _ waiting => waiting.spawn entry)
    fun _ _ _ _ before step waiting => waiting.step before step

/-! ### Who created a job -/

structure Creators (ls : Trace) (s : State) : Prop where
  known : ∀ i jobID, CreatedJob (localTrace i ls) jobID →
    (s.db.jobs.find? jobID).isSome = true
  single : ∀ i j jobID, CreatedJob (localTrace i ls) jobID →
    CreatedJob (localTrace j ls) jobID → i = j

section

variable {settings : Settings} {start : State} {mid next c : Config steps State}

theorem createdJob_after {jobID : JobID}
    (created : CreatedJob (localTrace i (past ++ [.act event])) jobID) :
    CreatedJob (localTrace i past) jobID ∨
      event.thread = i ∧ createdJob event.op event.resp = some jobID := by
  obtain ⟨obs, member, creates⟩ := created
  rw [localTrace_snoc_act, mem_append] at member
  rcases member with old | new
  · exact .inl ⟨obs, old, creates⟩
  · split at new
    next mine =>
      cases mem_singleton.mp new
      exact .inr ⟨mine, creates⟩
    · cases new

theorem Creators.act (valid : event.Valid settings) (creators : Creators past event.before) :
    Creators (past ++ [.act event]) event.after := by
  have fresh : ∀ {i jobID}, createdJob event.op event.resp = some jobID →
      ¬CreatedJob (localTrace i past) jobID := by
    intro i jobID creates created
    have held := creators.known i jobID created
    rw [(fresh_of_createdJob valid creates).1] at held
    cases held
  constructor
  case known =>
    intro i jobID created
    rcases createdJob_after created with old | ⟨-, creates⟩
    · obtain ⟨j, found⟩ := Option.isSome_iff_exists.mp (creators.known i jobID old)
      rw [Ev.job_kept valid found]
      rfl
    · obtain ⟨-, j, found⟩ := fresh_of_createdJob valid creates
      rw [found]
      rfl
  case single =>
    intro i j jobID first second
    rcases createdJob_after first with old | ⟨mine, creates⟩ <;>
      rcases createdJob_after second with old' | ⟨mine', creates'⟩
    · exact creators.single i j jobID old old'
    · exact absurd old (fresh creates')
    · exact absurd old' (fresh creates)
    · exact mine.symm.trans mine'

theorem creators_of_run (run : Ran settings start ls c) : Creators ls c.state := by
  refine run.invariant (I := Creators) ?_ ?_ ?_
  · constructor
    case known => rintro i jobID ⟨obs, member, -⟩; cases member
    case single => rintro i j jobID ⟨obs, member, -⟩; cases member
  · intro past mid entry _ creators
    constructor
    case known => simpa only [localTrace_snoc_spawn] using creators.known
    case single => simpa only [localTrace_snoc_spawn] using creators.single
  · exact fun past event mid next _ step creators => creators.act step.exec

end

end Thirdshift
