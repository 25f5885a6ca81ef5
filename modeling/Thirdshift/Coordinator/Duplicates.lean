import Thirdshift.Coordinator.Waiters
import Thirdshift.Coordinator.Verification

/-!
# Conclusion of a duplicate run

A message about a verification attempt is recognised by a look into the map of duplicate runs, and
its handler takes the run out of the map in a second section. Two messages that both look before
either takes the run are both handled: a failure then dereferences a run that is gone, and a
rejection records a second outcome. Where no run is taken between another thread's look and its
removal, every run is taken once and one outcome is recorded.
-/

namespace Thirdshift

open Foundation List Deployment Ev

variable {found : Bool} {past ls : Trace} {i : Nat}

/-! ### What an operation does to duplicate runs -/

inductive DupStep
  | created (attemptID : AttemptID)
  | registered (attemptID : AttemptID)
  | tested (attemptID : AttemptID) (found : Bool)
  | removed (attemptID : AttemptID) (found : Bool)
  | recorded (attemptID : AttemptID) (committed : Bool)
  | other
  deriving DecidableEq

def dupStepOf : (op : Op) → op.Resp → DupStep
  | .store _ (.createVerificationAttempt ..), .ok attemptID => .created attemptID
  | .mem (.setDuplicateRun attemptID _), _ => .registered attemptID
  | .mem (.isDuplicateAttempt attemptID), found => .tested attemptID found
  | .mem (.removeDuplicateRun attemptID), some _ => .removed attemptID true
  | .mem (.removeDuplicateRun attemptID), none => .removed attemptID false
  | .store _ (.recordDuplicateOutcome outcome), .ok _ => .recorded outcome.attemptID true
  | .store _ (.recordDuplicateOutcome outcome), .error _ => .recorded outcome.attemptID false
  | _, _ => .other

def Ev.dupStep (event : Ev) : DupStep := dupStepOf event.op event.resp

def takes (attemptID : AttemptID) (ls : Trace) : Nat :=
  (events ls).countP fun event => dupStep event = .removed attemptID true

def outcomes (attemptID : AttemptID) (ls : Trace) : Nat :=
  (events ls).countP fun event => dupStep event = .recorded attemptID true

def RunRegistered (attemptID : AttemptID) (ls : Trace) : Prop :=
  Happened (fun event => dupStep event = .registered attemptID) ls
  deriving Decidable

def DupPhase.step : DupPhase → DupStep → DupPhase
  | _, .tested attemptID true => .tested attemptID
  | _, .tested _ false => .idle
  | .tested attemptID, .removed other _ =>
    if other = attemptID then .took attemptID else .tested attemptID
  | _, .recorded .. => .idle
  | phase, _ => phase

def registersStep : Option AttemptID → DupStep → Option AttemptID
  | _, .created attemptID => some attemptID
  | _, .registered _ => none
  | pending, _ => pending

def holdsStep (attemptID : AttemptID) (held : Bool) : DupStep → Bool
  | .registered other => held || other = attemptID
  | .removed other _ => held && other ≠ attemptID
  | _ => held

theorem DupPhase.next_eq (phase : DupPhase) (op : Op) (r : op.Resp) :
    phase.next op r = phase.step (dupStepOf op r) := by
  cases op with
  | store ctx call =>
    cases call with
    | recordDuplicateOutcome => cases phase <;> cases r <;> rfl
    | createVerificationAttempt => cases phase <;> cases r <;> rfl
    | _ => cases phase <;> rfl
  | mem call =>
    cases call with
    | isDuplicateAttempt attemptID =>
      change Bool at r
      cases phase <;> cases r <;> rfl
    | removeDuplicateRun attemptID =>
      change Option DuplicateRun at r
      cases phase <;> cases r <;> rfl
    | _ => cases phase <;> rfl
  | _ => cases phase <;> rfl

theorem registersNext_eq (pending : Option AttemptID) (op : Op) (r : op.Resp) :
    registersNext pending op r = registersStep pending (dupStepOf op r) := by
  cases op with
  | store ctx call =>
    cases call with
    | createVerificationAttempt => cases r <;> rfl
    | recordDuplicateOutcome => cases r <;> rfl
    | _ => rfl
  | mem call =>
    cases call with
    | removeDuplicateRun attemptID =>
      change Option DuplicateRun at r
      cases r <;> rfl
    | _ => rfl
  | _ => rfl

section

variable {settings : Settings} {event : Ev} {attemptID : AttemptID}

section

variable (valid : event.Valid settings)
include valid

theorem Ev.holds_after : (event.after.mem.duplicates attemptID).isSome =
      holdsStep attemptID (event.before.mem.duplicates attemptID).isSome event.dupStep := by
  obtain ⟨thread, op, input, s, s', r⟩ := event
  have exec : Thirdshift.step settings op input s = some (s', r) := valid
  have memory : s'.mem = op.onMemory settings.weights input s.mem := mem_of_step exec
  simp only [memory, dupStep]
  cases op with
  | mem call =>
    cases call with
    | setDuplicateRun other run =>
      simp only [Op.onMemory, MemCall.run, Function.update_apply, dupStepOf, holdsStep]
      by_cases same : attemptID = other
      · simp [same]
      · simp [same, Ne.symm same]
    | removeDuplicateRun other =>
      change Option DuplicateRun at r
      by_cases same : attemptID = other
      · cases r <;> simp [Op.onMemory, MemCall.run, dupStepOf, holdsStep, same]
      · cases r <;> simp [Op.onMemory, MemCall.run, dupStepOf, holdsStep, same, Ne.symm same]
    | _ =>
      simp only [Op.onMemory, MemCall.run, dupStepOf, holdsStep]
      first
        | rfl
        | (repeat' split
           all_goals rfl)
  | store ctx call =>
    cases call with
    | createVerificationAttempt => cases r <;> rfl
    | recordDuplicateOutcome => cases r <;> rfl
    | _ => rfl
  | await channel =>
    simp only [Op.onMemory, dupStepOf, holdsStep]
    split <;> rfl
  | _ => rfl

theorem Ev.held_after_iff : (event.after.mem.duplicates attemptID).isSome = true ↔
    event.dupStep = .registered attemptID ∨ (event.before.mem.duplicates attemptID).isSome = true ∧
      ∀ found, event.dupStep ≠ .removed attemptID found := by
  rw [holds_after valid]
  cases event.dupStep <;> simp [holdsStep, or_comm]

theorem Ev.found_of_removed (removed : event.dupStep = .removed attemptID found) :
    found = (event.before.mem.duplicates attemptID).isSome := by
  obtain ⟨thread, op, input, s, s', r⟩ := event
  change Thirdshift.step settings op input s = some (s', r) at valid
  change dupStepOf op r = _ at removed
  revert valid
  revert removed
  fun_cases dupStepOf op r <;> rintro ⟨⟩ exec <;>
    exact congrArg Option.isSome (Prod.mk.inj (Option.some.inj exec)).2.symm

theorem Ev.found_of_tested (tested : event.dupStep = .tested attemptID found) :
    found = (event.before.mem.duplicates attemptID).isSome := by
  obtain ⟨thread, op, input, s, s', r⟩ := event
  change Thirdshift.step settings op input s = some (s', r) at valid
  change dupStepOf op r = _ at tested
  revert valid
  revert tested
  fun_cases dupStepOf op r <;> rintro ⟨⟩ exec
  exact (Prod.mk.inj (Option.some.inj exec)).2.symm

theorem Ev.fresh_of_created (created : event.dupStep = .created attemptID) :
    event.before.db.attempts.find? attemptID = none ∧
      (event.after.db.attempts.find? attemptID).isSome = true := by
  obtain ⟨thread, op, input, s, s', r⟩ := event
  change Thirdshift.step settings op input s = some (s', r) at valid
  change dupStepOf op r = _ at created
  revert valid
  revert created
  fun_cases dupStepOf op r <;> rintro ⟨⟩ exec
  obtain ⟨a, found, -⟩ := verifying_step exec rfl
  have ran := exec_of_ok exec
  have fresh : s.db.attempts.find? (input.ids 0) = none := StoreCall.fresh_newAttempt ran rfl
  obtain ⟨_, _, -, done⟩ := Tx.exec_bind_ok ran
  obtain ⟨rfl, -⟩ := Tx.exec_done_ok done
  exact ⟨fresh, by rw [found]; rfl⟩

theorem Ev.attempt_stays (held : (event.before.db.attempts.find? attemptID).isSome = true) :
    (event.after.db.attempts.find? attemptID).isSome = true := by
  obtain ⟨a, found⟩ := Option.isSome_iff_exists.mp held
  rw [attempt_kept valid found]
  rfl

end

end

/-! ### What a thread does with duplicate runs -/

section

variable {settings : Settings} {start : State} {mid next : Config steps State}
  {event : Ev} {attemptID : AttemptID}

theorem phase_after (i : Nat) (past : Trace) (event : Ev) :
    concluding (localTrace i (past ++ [.act event])) = if event.thread = i then
      (concluding (localTrace i past)).step event.dupStep else concluding (localTrace i past) := by
  rw [localTrace_snoc_act]
  split
  · exact (concluding_snoc ..).trans (DupPhase.next_eq ..)
  · rw [append_nil]

theorem pending_after (i : Nat) (past : Trace) (event : Ev) :
    unregistered (localTrace i (past ++ [.act event])) = if event.thread = i then
      registersStep (unregistered (localTrace i past)) event.dupStep
      else unregistered (localTrace i past) := by
  rw [localTrace_snoc_act]
  split
  · exact (unregistered_snoc ..).trans (registersNext_eq ..)
  · rw [append_nil]

theorem pending_origin
    (waits : unregistered (localTrace i (past ++ [.act event])) = some attemptID) :
    event.thread = i ∧ event.dupStep = .created attemptID ∨
      unregistered (localTrace i past) = some attemptID ∧
        (event.thread = i → event.dupStep ≠ .registered attemptID) := by
  rw [pending_after] at waits
  revert waits
  fun_cases registersStep (unregistered (localTrace i past)) event.dupStep <;> grind

theorem tested_origin
    (tested : concluding (localTrace i (past ++ [.act event])) = .tested attemptID) :
    event.thread = i ∧ event.dupStep = .tested attemptID true ∨
      concluding (localTrace i past) = .tested attemptID ∧
        (event.thread = i → ∀ found, event.dupStep ≠ .removed attemptID found) := by
  rw [phase_after] at tested
  revert tested
  fun_cases DupPhase.step (concluding (localTrace i past)) event.dupStep <;> grind

theorem took_origin (took : concluding (localTrace i (past ++ [.act event])) = .took attemptID) :
    event.thread = i ∧ concluding (localTrace i past) = .tested attemptID ∧
        (∃ found, event.dupStep = .removed attemptID found) ∨
      concluding (localTrace i past) = .took attemptID ∧
        (event.thread = i → ∀ done, event.dupStep ≠ .recorded attemptID done) := by
  rw [phase_after] at took
  revert took
  fun_cases DupPhase.step (concluding (localTrace i past)) event.dupStep <;>
    intro took <;> split at took <;> simp_all

theorem conduct_of_dupStep (run : Ran settings start past mid)
    (step : Acts settings mid event next) : (event.dupStep = .registered attemptID →
      unregistered (localTrace event.thread past) = some attemptID) ∧
    (∀ found, event.dupStep = .removed attemptID found →
      concluding (localTrace event.thread past) = .tested attemptID ∨
        SendFailed (localTrace event.thread past)) ∧
    ∀ committed, event.dupStep = .recorded attemptID committed →
      concluding (localTrace event.thread past) = .took attemptID := by
  obtain ⟨entry, -, conduct⟩ := conducts run step
  have conducts := conduct.front_or_serves
  clear conduct
  generalize localTrace event.thread past = seen at conducts ⊢
  obtain ⟨thread, op, input, s, s', r⟩ := event
  revert conducts
  change _ → (dupStepOf op r = _ → _) ∧ (∀ found, dupStepOf op r = _ → _) ∧
    ∀ committed, dupStepOf op r = _ → _
  fun_cases dupStepOf op r <;> rintro (front | ⟨own, known⟩) <;>
    refine ⟨?_, fun found => ?_, fun committed => ?_⟩ <;> rintro ⟨⟩
  all_goals first
    | exact front.elim
    | exact known

end

/-! ### A run is registered once -/

section

variable {event : Ev} {attemptID : AttemptID}

theorem takes_snoc : takes attemptID (past ++ [.act event]) =
    takes attemptID past + if event.dupStep = .removed attemptID true then 1 else 0 := by
  simp [takes, countP_append, countP_singleton]

theorem outcomes_snoc : outcomes attemptID (past ++ [.act event]) =
    outcomes attemptID past + if event.dupStep = .recorded attemptID true then 1 else 0 := by
  simp [outcomes, countP_append, countP_singleton]

theorem runRegistered_snoc : RunRegistered attemptID (past ++ [.act event]) ↔
    RunRegistered attemptID past ∨ event.dupStep = .registered attemptID :=
  happened_snoc_act

end

/-- The run of an attempt is registered at most once, by the thread that created the attempt, and
taken at most once after that. -/
structure RegisteredOnce (attemptID : AttemptID) (ls : Trace) (s : State) : Prop where
  created : ∀ i, unregistered (localTrace i ls) = some attemptID →
    (s.db.attempts.find? attemptID).isSome = true ∧ ¬RunRegistered attemptID ls
  single : ∀ i j, unregistered (localTrace i ls) = some attemptID →
    unregistered (localTrace j ls) = some attemptID → i = j
  known : RunRegistered attemptID ls → (s.db.attempts.find? attemptID).isSome = true
  held : (s.mem.duplicates attemptID).isSome = true →
    RunRegistered attemptID ls ∧ takes attemptID ls = 0
  gone : (s.mem.duplicates attemptID).isSome = false → RunRegistered attemptID ls →
    takes attemptID ls = 1
  never : ¬RunRegistered attemptID ls → takes attemptID ls = 0

section

variable {settings : Settings} {start : State} {mid next : Config steps State}
  {event : Ev} {attemptID : AttemptID}

theorem RegisteredOnce.act (run : Ran settings start past mid) (step : Acts settings mid event next)
    (once : RegisteredOnce attemptID past event.before) :
    RegisteredOnce attemptID (past ++ [.act event]) event.after := by
  have valid : event.Valid settings := step.exec
  have registers : event.dupStep = .registered attemptID → _ := (conduct_of_dupStep run step).1
  have stays := @attempt_stays settings event attemptID valid
  have holds := @held_after_iff settings event attemptID valid
  -- nothing waits for or is registered under an identifier that no attempt has
  have fresh : event.dupStep = .created attemptID → ¬RunRegistered attemptID past ∧
      (∀ i, unregistered (localTrace i past) ≠ some attemptID) ∧
      (event.after.db.attempts.find? attemptID).isSome = true := by
    intro created
    obtain ⟨absent, present⟩ := fresh_of_created valid created
    refine ⟨fun set => ?_, fun i waits => ?_, present⟩
    · simpa [absent] using once.known set
    · simpa [absent] using (once.created i waits).1
  constructor
  case created =>
    intro i waits
    rw [runRegistered_snoc]
    rcases pending_origin waits with ⟨-, created⟩ | ⟨waited, kept⟩
    · simp [created, fresh created]
    · obtain ⟨present, unset⟩ := once.created i waited
      refine ⟨stays present, ?_⟩
      rintro (old | new)
      · exact unset old
      · exact kept (once.single _ i (registers new) waited) new
  case single =>
    intro i j first second
    rcases pending_origin first with ⟨rfl, created⟩ | ⟨waited, -⟩ <;>
      rcases pending_origin second with ⟨rfl, created'⟩ | ⟨waited', -⟩
    · rfl
    · exact absurd waited' ((fresh created).2.1 j)
    · exact absurd waited ((fresh created').2.1 i)
    · exact once.single i j waited waited'
  case known =>
    intro set
    rcases runRegistered_snoc.mp set with old | new
    · exact stays (once.known old)
    · exact stays (once.created _ (registers new)).1
  case held =>
    intro held
    rw [runRegistered_snoc, takes_snoc]
    rcases holds.mp held with new | ⟨old, kept⟩
    · simp [new, once.never (once.created _ (registers new)).2]
    · simp [kept, once.held old]
  case gone =>
    intro gone set
    have unheld := mt holds.mpr (Bool.not_eq_true _ ▸ gone)
    have old := (runRegistered_snoc.mp set).resolve_right fun new => unheld (.inl new)
    rw [takes_snoc]
    cases held : (event.before.mem.duplicates attemptID).isSome with
    | true =>
      obtain ⟨found, removed⟩ : ∃ found, event.dupStep = .removed attemptID found := by
        by_contra kept
        exact unheld (.inr ⟨held, fun found removed => kept ⟨found, removed⟩⟩)
      have hit : found = true := (found_of_removed valid removed).trans held
      simp [removed, hit, (once.held held).2]
    | false =>
      have kept : event.dupStep ≠ .removed attemptID true := by
        intro removed
        cases (found_of_removed valid removed).trans held
      simp [kept, once.gone held old]
  case never =>
    intro unset
    have old := mt (fun set => runRegistered_snoc.mpr (.inl set)) unset
    have kept : event.dupStep ≠ .removed attemptID true := fun removed =>
      old (once.held (found_of_removed valid removed).symm).1
    simp [takes_snoc, kept, once.never old]

theorem registeredOnce_of_run {c : Config steps State} (run : Ran settings start ls c)
    (fresh : start.mem.duplicates attemptID = none) : RegisteredOnce attemptID ls c.state := by
  refine run.invariant (I := RegisteredOnce attemptID) ?_ ?_ ?_
  · have unset : ¬RunRegistered attemptID [] := happened_nil
    refine ⟨nofun, nofun, fun set => absurd set unset, fun held => ?_,
      fun _ set => absurd set unset, fun _ => rfl⟩
    have empty : (start.mem.duplicates attemptID).isSome = true := held
    rw [fresh] at empty
    cases empty
  · intro past mid entry _ once
    have registered : RunRegistered attemptID (past ++ [.spawn entry]) ↔ RunRegistered attemptID past :=
      happened_snoc_spawn
    have taken : takes attemptID (past ++ [.spawn entry]) = takes attemptID past := by
      simp [takes]
    obtain ⟨created, single, known, held, gone, never⟩ := once
    constructor
    case created => simpa only [localTrace_snoc_spawn, registered] using created
    case single => simpa only [localTrace_snoc_spawn] using single
    case known => simpa only [registered] using known
    case held => simpa only [registered, taken] using held
    case gone => simpa only [registered, taken] using gone
    case never => simpa only [registered, taken] using never
  · exact fun past event mid next run step once => once.act run step

end

/-! ### RemovedAlone removals -/

/-- No thread removes the run of the attempt while another one has found it and not removed it. -/
def RemovedAlone (attemptID : AttemptID) (past : Trace) (event : Ev) : Prop :=
  (∃ found, event.dupStep = .removed attemptID found) → ∀ i < (entries past).length,
    i ≠ event.thread → concluding (localTrace i past) ≠ .tested attemptID

instance (attemptID : AttemptID) (past : Trace) (event : Ev) :
    Decidable (RemovedAlone attemptID past event) :=
  inferInstanceAs (Decidable (_ → _))

/-- The thread has found the run of the attempt, and there is none any more when it removes it. -/
def Misses (attemptID : AttemptID) (past : Trace) (event : Ev) : Prop :=
  concluding (localTrace event.thread past) = .tested attemptID ∧
    event.dupStep = .removed attemptID false
  deriving Decidable

/-- What a thread has found is there until it takes it, and the one thread that has taken the run
has not recorded an outcome before. -/
structure Concluded (attemptID : AttemptID) (ls : Trace) (s : State) : Prop where
  found : ∀ i, concluding (localTrace i ls) = .tested attemptID →
    (s.mem.duplicates attemptID).isSome = true
  took : ∀ i, concluding (localTrace i ls) = .took attemptID →
    1 ≤ takes attemptID ls ∧ outcomes attemptID ls = 0
  single : ∀ i j, concluding (localTrace i ls) = .took attemptID →
    concluding (localTrace j ls) = .took attemptID → i = j
  recorded : outcomes attemptID ls ≤ 1
  after : 1 ≤ outcomes attemptID ls → 1 ≤ takes attemptID ls

section

variable {settings : Settings} {start : State} {mid next : Config steps State}
  {event : Ev} {attemptID : AttemptID}

theorem RemovedAlone.others (run : Ran settings start past mid)
    (undisturbed : RemovedAlone attemptID past event)
    (removed : event.dupStep = .removed attemptID found) (apart : i ≠ event.thread) :
    concluding (localTrace i past) ≠ .tested attemptID := by
  by_cases started : i < (entries past).length
  · exact undisturbed ⟨found, removed⟩ i started apart
  · rw [run.localTrace_unstarted (Nat.le_of_not_lt started)]
    exact nofun

theorem Concluded.act (run : Ran settings start past mid) (step : Acts settings mid event next)
    (undisturbed : RemovedAlone attemptID past event)
    (once : RegisteredOnce attemptID past event.before)
    (concluded : Concluded attemptID past event.before) :
    Concluded attemptID (past ++ [.act event]) event.after := by
  have valid : event.Valid settings := step.exec
  have records : event.dupStep = .recorded attemptID true →
      concluding (localTrace event.thread past) = .took attemptID := (conduct_of_dupStep run step).2.2 true
  have holds := @held_after_iff settings event attemptID valid
  -- a thread that has found the run takes it as the first, and no outcome is known before
  have takes_first : ∀ i, concluding (localTrace i past) = .tested attemptID → ∀ found,
      event.dupStep = .removed attemptID found →
        found = true ∧ takes attemptID past = 0 ∧ outcomes attemptID past = 0 := by
    intro i tested found removed
    have held := concluded.found i tested
    have untaken := (once.held held).2
    have early := mt concluded.after (by omega)
    exact ⟨(found_of_removed valid removed).trans held, untaken, by omega⟩
  have more : takes attemptID past ≤ takes attemptID (past ++ [.act event]) := by simp [takes_snoc]
  constructor
  case found =>
    intro i tested
    refine holds.mpr (.inr ?_)
    rcases tested_origin tested with ⟨-, looked⟩ | ⟨old, kept⟩
    · exact ⟨(found_of_tested valid looked).symm, by simp [looked]⟩
    · refine ⟨concluded.found i old, fun found removed => ?_⟩
      by_cases mine : event.thread = i
      · exact kept mine found removed
      · exact undisturbed.others run removed (Ne.symm mine) old
  case took =>
    intro i took
    rw [takes_snoc, outcomes_snoc]
    rcases took_origin took with ⟨-, tested, found, removed⟩ | ⟨old, kept⟩
    · obtain ⟨rfl, untaken, unrecorded⟩ := takes_first i tested found removed
      simp [removed, untaken, unrecorded]
    · obtain ⟨first, unrecorded⟩ := concluded.took i old
      have still : event.dupStep ≠ .recorded attemptID true := fun recorded =>
        kept (concluded.single _ i (records recorded) old) true recorded
      exact ⟨by omega, by simp [still, unrecorded]⟩
  case single =>
    intro i j first second
    rcases took_origin first with ⟨rfl, tested, found, removed⟩ | ⟨old, -⟩ <;>
      rcases took_origin second with ⟨rfl, tested', found', removed'⟩ | ⟨old', -⟩
    · rfl
    · have taken := (concluded.took j old').1
      have untaken := (takes_first _ tested found removed).2.1
      omega
    · have taken := (concluded.took i old).1
      have untaken := (takes_first _ tested' found' removed').2.1
      omega
    · exact concluded.single i j old old'
  case recorded =>
    rw [outcomes_snoc]
    split
    next recorded => rw [(concluded.took _ (records recorded)).2]
    next => exact concluded.recorded
  case after =>
    rw [outcomes_snoc]
    split
    next recorded => exact fun _ => (concluded.took _ (records recorded)).1.trans more
    next => exact fun some => (concluded.after some).trans more

theorem concluded_of_run {c : Config steps State} (run : Ran settings start ls c)
    (fresh : start.mem.duplicates attemptID = none) (undisturbed : Along (RemovedAlone attemptID) ls) :
    Concluded attemptID ls c.state := by
  refine run.along_invariant (I := Concluded attemptID) undisturbed ?_ ?_ ?_
  · exact ⟨nofun, nofun, nofun, Nat.zero_le 1, nofun⟩
  · intro past mid entry _ concluded
    have taken : takes attemptID (past ++ [.spawn entry]) = takes attemptID past := by
      simp [takes]
    have counted : outcomes attemptID (past ++ [.spawn entry]) = outcomes attemptID past := by
      simp [outcomes]
    obtain ⟨found, took, single, recorded, after⟩ := concluded
    constructor
    case found => simpa only [localTrace_snoc_spawn] using found
    case took => simpa only [localTrace_snoc_spawn, taken, counted] using took
    case single => simpa only [localTrace_snoc_spawn] using single
    case recorded => simpa only [counted] using recorded
    case after => simpa only [taken, counted] using after
  · intro past event mid next run step here concluded
    exact concluded.act run step here (step.start ▸ registeredOnce_of_run run fresh)

end

theorem returns_panicked {settings : Settings} {ctx : Ctx} {nodeID : NodeID}
    {payload : JobFailedPayload} {seen : Seen}
    (returns : (Service.handleJobFailed settings ctx nodeID payload).Returns seen .panicked) :
    ∃ u rest, seen = ⟨.mem (.isDuplicateAttempt payload.attemptID), true⟩ ::
      ⟨.mem (.clearActive nodeID), u⟩ ::
      ⟨.mem (.removeDuplicateRun payload.attemptID), none⟩ :: rest := by
  obtain ⟨duplicate, seen₁, rfl, afterTest⟩ := Prog.returns_call returns
  change Bool at duplicate
  cases duplicate with
  | false =>
    obtain ⟨_, _, -, afterClock⟩ := Prog.returns_call afterTest
    obtain ⟨result, _, ended⟩ := Prog.returns_bind afterClock
    cases ended
  | true =>
    obtain ⟨u, seen₂, rfl, afterClear⟩ := Prog.returns_call afterTest
    obtain ⟨dup, seen₃, rfl, afterRemoval⟩ := Prog.returns_call afterClear
    obtain ⟨_, _, -, afterClock⟩ := Prog.returns_call afterRemoval
    obtain ⟨_, _, -, afterMark⟩ := Prog.returns_call afterClock
    change Option DuplicateRun at dup
    cases dup with
    | none => exact ⟨u, seen₃, rfl⟩
    | some dup =>
      obtain ⟨_, _, -, ended⟩ := Prog.returns_call afterMark
      cases ended

/-- In a run in which no run of the attempt is removed under another thread's hands: every handler
finds the run it has looked up, so none panics; a run that was registered and is gone was taken
once; and at most one outcome is recorded. -/
theorem duplicates_concluded_once {settings : Settings} {start : State} {ls : Trace}
    {c : Config steps State} {attemptID : AttemptID}
    (run : (coordinator settings).Run (.boot start) ls c)
    (fresh : start.mem.duplicates attemptID = none)
    (undisturbed : Along (RemovedAlone attemptID) ls) :
    Along (fun past event => ¬Misses attemptID past event) ls ∧
    (∀ i earlier seen later ctx nodeID payload, localTrace i ls = earlier ++ seen ++ later →
      payload.attemptID = attemptID →
      ¬(Service.handleJobFailed settings ctx nodeID payload).Returns seen .panicked) ∧
    takes attemptID ls ≤ 1 ∧
    (RunRegistered attemptID ls → c.state.mem.duplicates attemptID = none → takes attemptID ls = 1) ∧
    outcomes attemptID ls ≤ 1 := by
  have once := registeredOnce_of_run run fresh
  have concluded := concluded_of_run run fresh undisturbed
  have finds : Along (fun past event => ¬Misses attemptID past event) ls := by
    rintro past event rest rfl ⟨tested, removed⟩
    obtain ⟨mid, next, before, step, -⟩ := run.split rfl
    have held := (concluded_of_run before fresh undisturbed.left).found _ tested
    rw [← step.start, ← found_of_removed step.exec removed] at held
    cases held
  refine ⟨finds, ?_, ?_, ?_, concluded.recorded⟩
  · rintro i earlier seen later ctx nodeID payload trace rfl panics
    obtain ⟨u, rest, rfl⟩ := returns_panicked panics
    -- the removal of that call is the event that misses
    have cut : localTrace i ls =
        (earlier ++ [⟨.mem (.isDuplicateAttempt payload.attemptID), true⟩] ++
          [⟨.mem (.clearActive nodeID), u⟩]) ++
        ⟨.mem (.removeDuplicateRun payload.attemptID), none⟩ :: (rest ++ later) := by
      simp [trace]
    have tested : concluding (earlier ++ [⟨.mem (.isDuplicateAttempt payload.attemptID), true⟩]) =
        .tested payload.attemptID := concluding_snoc ..
    obtain ⟨past, event, tail, rfl, rfl, same, seen⟩ := localTrace_eq_append cut
    refine finds past event tail rfl ⟨?_, ?_⟩
    · rw [seen]
      exact concluding_next tested
    · have step : dupStep event = dupStepOf _ _ := congrArg
        (fun obs : Obs steps => dupStepOf obs.op obs.resp) same.symm
      exact step
  · by_cases set : RunRegistered attemptID ls
    · cases held : (c.state.mem.duplicates attemptID).isSome with
      | true => exact (once.held held).2.le.trans (Nat.zero_le 1)
      | false => exact (once.gone held set).le
    · exact (once.never set).le.trans (Nat.zero_le 1)
  · exact fun set gone => once.gone (by rw [gone]; rfl) set

namespace Deployment

/-- The second node has been offered the verification of the first one's completion. -/
def offered : List (Choice Input Entry) :=
  connect 0 "n1" ++ request 1 "j" "a" ++ accept 0 "j0" "a0" ++ connect 2 "n2" ++
  complete 0 (payload "j0" "a0") "c" ++ advance 0 5 ++ [.act 0 (drawing "v")] ++ advance 0 6

def bothLook (message : JobMessage) : List (Choice Input Entry) :=
  [.act 2 (reading (.job message)), .act 2 idle, .act 0 (reading (.job message)), .act 0 idle]

def failedMessage : JobMessage := .failed ⟨"j0", "v0", codeJobFailed, "stopped", false, 1000⟩

def rejectedMessage : JobMessage := .rejected ⟨"j0", "v0", "busy", "busy", true, 1000⟩

end Deployment

/-- The node of the verification completes it: its run is taken and one outcome recorded. -/
theorem duplicates_concluded_once_verified : ∃ ls c,
    (coordinator settings).Run (.boot sampled) ls c ∧
    Along (RemovedAlone "v0") ls ∧ RunRegistered "v0" ls ∧ takes "v0" ls = 1 ∧
    outcomes "v0" ls = 1 ∧ Along (fun past event => ¬Misses "v0" past event) ls := by
  obtain ⟨ls, c, run, undisturbed, set, taken, recorded⟩ := run_from
    (p := fun ls _ => Along (RemovedAlone "v0") ls ∧ RunRegistered "v0" ls ∧ takes "v0" ls = 1 ∧
      outcomes "v0" ls = 1) sampled (verifiedWith "hello") (by decide +kernel)
  exact ⟨ls, c, run, undisturbed, set, taken, recorded,
    (duplicates_concluded_once run rfl undisturbed).1⟩

def lastFailed (attemptID : AttemptID) (past : Seen) : Bool :=
  past.foldl (fun last obs => match obs.op, obs.resp with
    | .recv _, some (.job (.failed payload)) => payload.attemptID = attemptID
    | .recv _, _ => false
    | _, _ => last) false

/-- Two sessions look the run up before either removes it. The failure that removes it second goes
on without it, where the source dereferences it; two rejections record two outcomes. -/
theorem duplicate_run_missed :
    (∃ ls c, (coordinator settings).Run (.boot sampled) ls c ∧
      ∃ past event rest, ls = past ++ .act event :: rest ∧ Misses "v0" past event ∧
        lastFailed "v0" (localTrace event.thread past) = true) ∧
    ∃ ls c, (coordinator settings).Run (.boot sampled) ls c ∧
      outcomes "v0" ls = 2 := by
  constructor
  · exact event_from _
      (offered ++ bothLook failedMessage ++
        advance 2 2 ++ advance 0 2) 62 (by decide +kernel)
  · exact run_from _
      (offered ++ bothLook rejectedMessage ++
        advance 2 4 ++ [.act 2 (drawing "w")] ++
        advance 0 4 ++ [.act 0 (drawing "y")]) (by decide +kernel)

end Thirdshift
