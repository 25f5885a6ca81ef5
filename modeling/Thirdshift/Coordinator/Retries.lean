import Thirdshift.Coordinator.Leases

/-!
# The bound on retries

A run counts the reservations made for its job and keeps the nodes that failed it. The count is
checked when a retry is asked for and raised when a node is reserved, and nothing keeps a second
handler from asking in between. The bound holds as long as a retry is granted once, for the node of
the one attempt the job has, and each later reservation rests on it.
-/

namespace Thirdshift

open Foundation List Option Deployment Op Ev

variable {event : Ev} {holds' : Nat → NodeID → Prop} {db db' : Db} {op : Op} {s : State}
  {ref : Nat} {nodeID : NodeID}

/-- The attempt that a call has created for a job, and its node. -/
def createdAttempt : (op : Op) → op.Resp → Option (JobID × AttemptID × NodeID)
  | .store _ (.createAttempt jobID nodeID ..), .ok attemptID => some (jobID, attemptID, nodeID)
  | _, _ => none

def Ev.attemptFor (event : Ev) (jobID : JobID) : Option (AttemptID × NodeID) :=
  (createdAttempt event.op event.resp).bind fun created =>
    if created.1 = jobID then some created.2 else none

def attemptsOf (ls : Trace) (jobID : JobID) : List (AttemptID × NodeID) :=
  (events ls).filterMap fun event => attemptFor event jobID

@[simp] theorem attemptsOf_snoc_spawn (ls : Trace) (entry : Entry) (jobID : JobID) :
    attemptsOf (ls ++ [.spawn entry]) jobID = attemptsOf ls jobID := by
  simp [attemptsOf]

@[simp] theorem attemptsOf_snoc_act (ls : Trace) (event : Ev) (jobID : JobID) :
    attemptsOf (ls ++ [.act event]) jobID =
      attemptsOf ls jobID ++ (event.attemptFor jobID).toList := by
  rw [attemptsOf, events_snoc_act, filterMap_append]
  cases created : event.attemptFor jobID <;> simp [attemptsOf, created]

def Db.Ended (db : Db) (attemptID : AttemptID) : Prop :=
  ∃ a ∈ db.attempts.find? attemptID, a.status.live = false
  deriving Decidable

theorem Ev.ended_kept {settings : Settings} (valid : event.Valid settings)
    {attemptID : AttemptID} (ended : event.before.db.Ended attemptID) :
    event.after.db.Ended attemptID := by
  obtain ⟨a, found, done⟩ := ended
  refine ⟨_, attempt_kept valid found, ?_⟩
  by_contra live
  rw [Bool.not_eq_false] at live
  cases commits : event.commits with
  | none =>
    simp only [onAttempt, commits, id, done] at live
    cases live
  | some call =>
    simp only [onAttempt, commits] at live
    rw [StoreCall.live_of_onAttempt live] at done
    cases done

/-- An attempt is created for a job that has at most one, which has ended on another node. -/
def BoundedRetry (past : Trace) (event : Ev) : Prop :=
  ∀ created ∈ createdAttempt event.op event.resp,
    (attemptsOf past created.1).length ≤ 1 ∧ ∀ earlier ∈ attemptsOf past created.1,
      earlier.2 ≠ created.2.2 ∧ event.before.db.Ended earlier.1
  deriving Decidable

/-! ### Runs -/

def Op.startsRun : Op → Option JobID
  | .mem (.startRun jobID ..) => some jobID
  | _ => none

def Ev.startedRun (event : Ev) : Option (JobID × Nat) :=
  event.op.startsRun.map fun jobID => (jobID, event.before.mem.runStates.length)

def RunOf (ls : Trace) (jobID : JobID) (ref : Nat) : Prop :=
  Happened (fun event => startedRun event = some (jobID, ref)) ls

def lookedUp : (op : Op) → op.Resp → Option (JobID × Nat)
  | .mem (.lookupRun jobID), some (ref, _) => some (jobID, ref)
  | _, _ => none

def reservedFor : (op : Op) → op.Resp → Option (JobID × NodeID)
  | .mem (.reserve _ jobID _), some chosen => some (jobID, chosen.nodeID)
  | _, _ => none

/-- The retry that a section asks for and would be granted, with the run. -/
def Op.grants (m : Memory) : Op → Option (JobID × NodeID × RunState)
  | .mem (.prepareRetry jobID nodeID) =>
    (m.run? jobID).bind fun found =>
      if found.2.attempts < 2 then some (jobID, nodeID, found.2) else none
  | _ => none

def Op.reservesFor (m : Memory) : Op → Option (JobID × RunState)
  | .mem (.reserve ref jobID _) => (m.runStates[ref]?).map fun run => (jobID, run)
  | _ => none

/-- A job is scheduled once, a retry is granted once and for the node of the only attempt, and a run
is reserved for again only on a granted retry and when its attempts have ended. -/
structure CarefulRetry (past : Trace) (event : Ev) : Prop where
  once : ∀ jobID ∈ event.op.startsRun,
    ¬Happened (fun earlier : Ev => earlier.op.startsRun = some jobID) past
  granted : ∀ retry ∈ event.op.grants event.before.mem,
    retry.2.2.excluded = [] ∧ (attemptsOf past retry.1).map Prod.snd = [retry.2.1]
  backed : ∀ reservation ∈ event.op.reservesFor event.before.mem,
    reservation.2.attempts ≤ reservation.2.excluded.length ∧
      ∀ earlier ∈ attemptsOf past reservation.1, event.before.db.Ended earlier.1

instance (past : Trace) (event : Ev) : Decidable (CarefulRetry past event) :=
  decidable_of_iff (_ ∧ _ ∧ _) ⟨fun ⟨a, b, c⟩ => ⟨a, b, c⟩, fun ⟨a, b, c⟩ => ⟨a, b, c⟩⟩

/-- How far a job has come: the threads that hold a node for it, the attempts created for it, and what
its run has counted. -/
inductive Phase (holds : Nat → NodeID → Prop) (created : List (AttemptID × NodeID)) (db : Db)
    (run : RunState) : Prop
  | scheduled (count : run.attempts = 0) (none : run.excluded = []) (unleased : created = [])
      (free : ∀ i nodeID, ¬holds i nodeID)
  | reserved (thread : Nat) (count : run.attempts = 1) (none : run.excluded = [])
      (unleased : created = []) (own : ∀ i nodeID, holds i nodeID → i = thread)
  | leased (attemptID : AttemptID) (nodeID : NodeID) (count : run.attempts = 1)
      (none : run.excluded = []) (one : created = [(attemptID, nodeID)])
      (free : ∀ i other, ¬holds i other)
  | retrying (attemptID : AttemptID) (nodeID : NodeID) (count : run.attempts = 1)
      (failed : run.excluded = [nodeID]) (one : created = [(attemptID, nodeID)])
      (free : ∀ i other, ¬holds i other)
  | again (attemptID : AttemptID) (nodeID : NodeID) (thread : Nat) (count : run.attempts = 2)
      (failed : run.excluded.length ≤ 1) (one : created = [(attemptID, nodeID)])
      (ended : db.Ended attemptID) (own : ∀ i other, holds i other → i = thread ∧ other ≠ nodeID)
  | releases (count : run.attempts = 2) (failed : run.excluded.length ≤ 1)
      (two : created.length = 2) (free : ∀ i other, ¬holds i other)

theorem Phase.weaken {holds : Nat → NodeID → Prop} {created : List (AttemptID × NodeID)}
    {run : RunState} (phase : Phase holds created db run)
    (fewer : ∀ i nodeID, holds' i nodeID → holds i nodeID)
    (ended : ∀ attemptID, db.Ended attemptID → db'.Ended attemptID) :
    Phase holds' created db' run := by
  cases phase with
  | scheduled count none unleased free =>
    exact .scheduled count none unleased fun i n holds => free i n (fewer i n holds)
  | reserved thread count none unleased own =>
    exact .reserved thread count none unleased fun i n holds => own i n (fewer i n holds)
  | leased a n count none one free =>
    exact .leased a n count none one fun i n holds => free i n (fewer i n holds)
  | retrying a n count failed one free =>
    exact .retrying a n count failed one fun i n holds => free i n (fewer i n holds)
  | again a n thread count failed one done own =>
    exact .again a n thread count failed one (ended a done)
      fun i n holds => own i n (fewer i n holds)
  | releases count failed two free =>
    exact .releases count failed two fun i n holds => free i n (fewer i n holds)

/-! ### What a section makes of the runs -/

/-- The place of a run that an operation has changed, and the change. -/
def runChange (m : Memory) : (op : Op) → op.Resp → Option (Nat × (RunState → RunState))
  | .mem (.reserve ref _ _), some _ =>
    some (ref, fun run => { run with attempts := run.attempts + 1 })
  | .mem (.prepareRetry jobID nodeID), true =>
    (m.run? jobID).map fun found =>
      (found.1, fun run => { run with excluded := nodeID :: run.excluded })
  | _, _ => none

def Op.newRun : Op → Option RunState
  | .mem (.startRun _ model request deadlineAt) => some ⟨model, request, deadlineAt, [], 0⟩
  | _ => none

section

variable {settings : Settings} {r : op.Resp} {input : Input} {s' : State}

theorem runStates_step (exec : step settings op input s = some (s', r)) :
    s'.mem.runStates = (((runChange s.mem op r).map fun change =>
      s.mem.runStates.modify change.1 change.2).getD s.mem.runStates) ++ op.newRun.toList := by
  cases op with
  | mem call =>
    cases exec
    cases call
    case detachSession =>
      simp only
      split <;> simp [runChange, newRun, Memory.clearActive]
    case reserve =>
      simp only
      split <;> simp [runChange, newRun, Memory.setActive, Memory.updateRun]
    case reserveDuplicate =>
      simp only
      split <;> simp [runChange, newRun, Memory.setActive]
    case prepareRetry =>
      simp only
      split
      · simp [runChange, newRun]
      next found =>
        split <;> simp [runChange, newRun, Memory.updateRun, found]
    all_goals simp [runChange, newRun, Memory.setActive, Memory.clearActive]
  | await =>
    rw [mem_of_step exec, onMemory]
    split <;> simp [runChange, newRun]
  | _ =>
    rw [mem_of_step exec]
    simp [onMemory, runChange, newRun]

variable {jobID : JobID}

theorem run_step (exec : step settings op input s = some (s', r)) {run : RunState}
    (found : s.mem.runStates[ref]? = some run) :
    (∃ change, runChange s.mem op r = some (ref, change) ∧
        s'.mem.runStates[ref]? = some (change run)) ∨
      (∀ change, runChange s.mem op r ≠ some (ref, change)) ∧ s'.mem.runStates[ref]? = some run := by
  have bound := (List.getElem?_eq_some_iff.mp found).1
  rw [runStates_step exec]
  cases changes : runChange s.mem op r with
  | none =>
    refine .inr ⟨by simp, ?_⟩
    rw [map_none, getD_none, getElem?_append_left bound]
    exact found
  | some change =>
    rw [map_some, getD_some,
      getElem?_append_left (by rw [length_modify]; exact bound), getElem?_modify]
    by_cases here : change.1 = ref
    · refine .inl ⟨change.2, by rw [← here], ?_⟩
      rw [found]
      simp [here]
    · refine .inr ⟨fun other same => here ?_, ?_⟩
      · rw [Option.some.inj same]
      · rw [found]
        simp [here]

theorem newRun_of_startsRun (starts : op.startsRun = some jobID) :
    ∃ run, op.newRun = some run ∧ run.attempts = 0 ∧ run.excluded = [] := by
  cases op with
  | mem call =>
    cases call with
    | startRun => exact ⟨_, rfl, rfl, rfl⟩
    | _ => cases starts
  | _ => cases starts

section

variable (exec : step settings op input s = some (s', r))
include exec

theorem newRun_step {run : RunState} (starts : op.newRun = some run) :
    s'.mem.runStates[s.mem.runStates.length]? = some run := by
  rw [runStates_step exec, starts]
  cases runChange s.mem op r <;> simp

theorem runs_step (current : s'.mem.runs jobID = some ref) :
    s.mem.runs jobID = some ref ∨ op.startsRun = some jobID ∧ ref = s.mem.runStates.length := by
  rw [mem_of_step exec] at current
  cases op with
  | mem call =>
    cases call
    case startRun other model request deadlineAt =>
      simp only [onMemory, MemCall.run, Function.update_apply] at current
      split at current
      next same => exact .inr ⟨by rw [same]; rfl, (Option.some.inj current).symm⟩
      · exact .inl current
    case abandonWait | removeRun =>
      simp only [onMemory, MemCall.run, Function.update_apply] at current
      split at current
      · cases current
      · exact .inl current
    all_goals
      simp only [onMemory, MemCall.run] at current
      first
        | exact .inl current
        | (repeat' split at current
           all_goals exact .inl current)
  | await =>
    simp only [onMemory] at current
    split at current <;> exact .inl current
  | _ => exact .inl current

theorem lookedUp_step (looks : lookedUp op r = some (jobID, ref)) : s.mem.runs jobID = some ref := by
  cases op with
  | mem call =>
    cases call with
    | lookupRun other =>
      cases exec
      cases found : s.mem.run? other with
      | none => simp [lookedUp, found] at looks
      | some pair =>
        simp only [lookedUp, found, Option.some.injEq, Prod.mk.injEq] at looks
        obtain ⟨rfl, rfl⟩ := looks
        obtain ⟨ref, current, stored⟩ := bind_eq_some_iff.mp found
        obtain ⟨run, -, rfl⟩ := map_eq_some_iff.mp stored
        exact current
    | _ => cases looks
  | _ => cases looks

theorem reservedFor_step (reserves : reservedFor op r = some (jobID, nodeID)) :
    ∃ ref candidates, op = .mem (.reserve ref jobID candidates) ∧
      runChange s.mem op r = some (ref, fun run => { run with attempts := run.attempts + 1 }) ∧
      ∀ run, s.mem.runStates[ref]? = some run → nodeID ∉ run.excluded := by
  cases op with
  | mem call =>
    cases call with
    | reserve ref other candidates =>
      cases exec
      revert reserves
      split
      next chosen choice =>
        intro reserves
        cases reserves
        refine ⟨ref, candidates, rfl, rfl, fun run found => ?_⟩
        obtain ⟨-, open'⟩ := mem_filter.mp (mem_of_choose choice)
        rw [Bool.and_eq_true, found] at open'
        exact of_decide_eq_true open'.1
      · exact nofun
    | _ => cases reserves
  | _ => cases reserves

theorem granted_step {change : RunState → RunState}
    (changes : runChange s.mem op r = some (ref, change)) (unreserved : reservedFor op r = none) :
    ∃ jobID nodeID run, s.mem.runs jobID = some ref ∧ s.mem.runStates[ref]? = some run ∧
      op.grants s.mem = some (jobID, nodeID, run) ∧ run.attempts < 2 ∧
      change run = { run with excluded := nodeID :: run.excluded } := by
  cases op with
  | mem call =>
    cases call with
    | reserve other jobID candidates =>
      cases exec
      revert changes unreserved
      split
      · exact fun _ unreserved => nomatch unreserved
      · exact fun changes => nomatch changes
    | prepareRetry jobID nodeID =>
      -- granted below two attempts, refused from then on
      cases exec
      cases found : s.mem.run? jobID with
      | none => simp [runChange, found] at changes
      | some pair =>
        obtain ⟨place, current, stored⟩ := bind_eq_some_iff.mp found
        obtain ⟨run, at', rfl⟩ := map_eq_some_iff.mp stored
        by_cases below : run.attempts < 2
        · have allowed : ¬run.attempts ≥ 2 := Nat.not_le.mpr below
          simp only [found, allowed, if_false, runChange, map_some, Option.some.injEq,
            Prod.mk.injEq] at changes
          obtain ⟨rfl, rfl⟩ := changes
          have grants : grants s.mem (.mem (.prepareRetry jobID nodeID)) =
              some (jobID, nodeID, run) := by
            rw [grants, found]
            exact if_pos below
          exact ⟨jobID, nodeID, run, current, at', grants, below, rfl⟩
        · have refused : run.attempts ≥ 2 := Nat.le_of_not_lt below
          simp [found, refused, runChange] at changes
    | _ => cases changes
  | _ => cases changes

end

end

/-! ### The phases of a run -/

def HoldsFor (ls : Trace) (jobID : JobID) (i : Nat) (nodeID : NodeID) : Prop :=
  heldBy reservedFor (localTrace i ls) = some (jobID, nodeID)

/-- Every job that was scheduled has one run, which is in one of the phases; for a job that was not
scheduled nothing is held or created. -/
structure Retries (ls : Trace) (s : State) : Prop where
  current : ∀ jobID ref, s.mem.runs jobID = some ref → RunOf ls jobID ref
  seen : ∀ jobID ref, Happened (fun event : Ev =>
    lookedUp event.op event.resp = some (jobID, ref)) ls → RunOf ls jobID ref
  one : ∀ jobID ref ref', RunOf ls jobID ref → RunOf ls jobID ref' → ref = ref'
  apart : ∀ jobID jobID' ref, RunOf ls jobID ref → RunOf ls jobID' ref → jobID = jobID'
  phase : ∀ jobID ref, RunOf ls jobID ref → ∃ run, s.mem.runStates[ref]? = some run ∧
    Phase (HoldsFor ls jobID) (attemptsOf ls jobID) s.db run
  unscheduled : ∀ jobID, (∀ ref, ¬RunOf ls jobID ref) →
    attemptsOf ls jobID = [] ∧ ∀ i nodeID, ¬HoldsFor ls jobID i nodeID

section

variable {settings : Settings} {past : Trace} {mid next : Config steps State} {jobID : JobID}

theorem startsRun_of_runOf (runs : RunOf past jobID ref) :
    Happened (fun event : Ev => event.op.startsRun = some jobID) past := by
  obtain ⟨event, member, starts⟩ := runs
  obtain ⟨other, started, same⟩ := map_eq_some_iff.mp starts
  cases same
  exact ⟨event, member, started⟩

theorem startedRun_eq (starts : event.startedRun = some (jobID, ref)) :
    event.op.startsRun = some jobID ∧ ref = event.before.mem.runStates.length := by
  obtain ⟨other, started, same⟩ := map_eq_some_iff.mp starts
  cases same
  exact ⟨started, rfl⟩

theorem createdAttempt_eq {r : op.Resp} {created : JobID × AttemptID × NodeID}
    (creates : createdAttempt op r = some created) : ∃ ctx number leaseExpiresAt deadlineAt,
      op = .store ctx (.createAttempt created.1 created.2.2 number leaseExpiresAt deadlineAt) ∧
      committed op r =
        some (.createAttempt created.1 created.2.2 number leaseExpiresAt deadlineAt) := by
  cases op with
  | store ctx call =>
    cases call with
    | createAttempt =>
      cases r with
      | error e => cases creates
      | ok attemptID =>
        cases creates
        exact ⟨ctx, _, _, _, rfl, rfl⟩
    | _ => cases creates
  | _ => cases creates

variable {created : AttemptID × NodeID}

theorem attemptFor_eq (creates : event.attemptFor jobID = some created) :
    ∃ ctx number leaseExpiresAt deadlineAt,
      event.op = .store ctx (.createAttempt jobID created.2 number leaseExpiresAt deadlineAt) ∧
      event.commits = some (.createAttempt jobID created.2 number leaseExpiresAt deadlineAt) := by
  obtain ⟨found, creating, same⟩ := bind_eq_some_iff.mp creates
  split at same
  next here =>
    cases same
    rw [← here]
    exact createdAttempt_eq creating
  · cases same

theorem holdsFor_of_created (run : Ran settings s past mid) (step : Acts settings mid event next)
    (creates : event.attemptFor jobID = some created) :
    HoldsFor past jobID event.thread created.2 := by
  obtain ⟨entry, -, allowed⟩ := disciplined run step
  obtain ⟨ctx, number, leaseExpiresAt, deadlineAt, called, -⟩ := attemptFor_eq creates
  rw [called] at allowed
  obtain ⟨⟨earlier, ctx', ref, candidates, chosen, number', here, seen⟩, -⟩ := allowed
  rw [HoldsFor, seen, ← here]
  simp [heldBy, heldAfter, reservedFor, readsNumber]

theorem newAttempt_of_created (creates : event.attemptFor jobID = some created) :
    event.newAttempt.isSome = true := by
  obtain ⟨ctx, number, leaseExpiresAt, deadlineAt, -, commits⟩ := attemptFor_eq creates
  rw [newAttempt, commits]
  rfl

theorem holdsFor_before {i : Nat}
    (other : ∀ nodeID, reservedFor event.op event.resp ≠ some (jobID, nodeID))
    (holds : HoldsFor (past ++ [.act event]) jobID i nodeID) : HoldsFor past jobID i nodeID := by
  rcases heldBy_origin reservedFor holds with ⟨-, reserves, -⟩ | ⟨old, -⟩
  · exact absurd reserves (other nodeID)
  · exact old

theorem not_holdsFor_of_created (creates : event.attemptFor jobID = some created) :
    ¬HoldsFor (past ++ [.act event]) jobID event.thread nodeID := by
  intro holds
  have adds := newAttempt_of_created creates
  rcases heldBy_origin reservedFor holds with ⟨-, -, still⟩ | ⟨-, still⟩
  · rw [newAttempt_of_held reservedFor (fun _ _ _ => rfl) still] at adds
    cases adds
  · rw [newAttempt_of_held reservedFor (fun _ _ _ => rfl) (still rfl)] at adds
    cases adds

theorem unreserved_of_store {r : op.Resp} {ctx : Ctx} {call : StoreCall} {m : Memory}
    (called : op = .store ctx call) : reservedFor op r = none ∧ runChange m op r = none := by
  subst called
  exact ⟨rfl, rfl⟩

theorem unreserved_of_created (creates : event.attemptFor jobID = some created) :
    reservedFor event.op event.resp = none ∧
      runChange event.before.mem event.op event.resp = none := by
  obtain ⟨ctx, number, leaseExpiresAt, deadlineAt, called, -⟩ := attemptFor_eq creates
  exact unreserved_of_store called

variable {run : RunState}

theorem Phase.create (creates : event.attemptFor jobID = some created)
    (holds : HoldsFor past jobID event.thread created.2)
    (phase : Phase (HoldsFor past jobID) (attemptsOf past jobID) event.before.db run) :
    Phase (HoldsFor (past ++ [.act event]) jobID) (attemptsOf past jobID ++ [created])
      event.after.db run := by
  have before : ∀ {i nodeID}, HoldsFor (past ++ [.act event]) jobID i nodeID →
      HoldsFor past jobID i nodeID :=
    holdsFor_before (by simp [(unreserved_of_created creates).1])
  cases phase with
  | scheduled _ _ _ free => exact absurd holds (free _ _)
  | leased _ _ _ _ _ free => exact absurd holds (free _ _)
  | retrying _ _ _ _ _ free => exact absurd holds (free _ _)
  | releases _ _ _ free => exact absurd holds (free _ _)
  | reserved thread count none unleased own =>
    refine .leased created.1 created.2 count none (by simp [unleased]) fun i nodeID still => ?_
    have this : i = event.thread := (own i nodeID (before still)).trans (own _ _ holds).symm
    rw [this] at still
    exact not_holdsFor_of_created creates still
  | again a n thread count failed one ended own =>
    refine .releases count failed (by simp [one]) fun i nodeID still => ?_
    have this : i = event.thread :=
      (own i nodeID (before still)).1.trans (own _ _ holds).1.symm
    rw [this] at still
    exact not_holdsFor_of_created creates still

theorem Phase.reserve (valid : event.Valid settings)
    (reserves : reservedFor event.op event.resp = some (jobID, nodeID))
    (backed : run.attempts ≤ run.excluded.length)
    (ended : ∀ earlier ∈ attemptsOf past jobID, event.before.db.Ended earlier.1)
    (allowed : nodeID ∉ run.excluded)
    (phase : Phase (HoldsFor past jobID) (attemptsOf past jobID) event.before.db run) :
    Phase (HoldsFor (past ++ [.act event]) jobID) (attemptsOf past jobID) event.after.db
      { run with attempts := run.attempts + 1 } := by
  have origin : ∀ {i n}, HoldsFor (past ++ [.act event]) jobID i n →
      (i = event.thread ∧ n = nodeID) ∨ HoldsFor past jobID i n := by
    intro i n holds
    rcases heldBy_origin reservedFor holds with ⟨this, other, -⟩ | ⟨old, -⟩
    · rw [reserves] at other
      cases other
      exact .inl ⟨this, rfl⟩
    · exact .inr old
  cases phase with
  | scheduled count none unleased free =>
    refine .reserved event.thread (by simp [count]) none unleased fun i n holds => ?_
    exact (origin holds).elim And.left fun old => absurd old (free i n)
  | retrying a n count failed one free =>
    have apart : nodeID ≠ n := by simpa [failed] using allowed
    refine .again a n event.thread (by simp [count]) (by simp [failed]) one
      (ended_kept valid (ended (a, n) (by simp [one]))) fun i n' holds => ?_
    rcases origin holds with ⟨this, rfl⟩ | old
    · exact ⟨this, apart⟩
    · exact absurd old (free i n')
  | reserved _ count none | leased _ _ count none =>
    rw [count, none] at backed
    cases backed
  | again _ _ _ count failed | releases count failed =>
    rw [count] at backed
    omega

theorem Phase.grant {holds : Nat → NodeID → Prop} {created : List (AttemptID × NodeID)}
    (below : run.attempts < 2) (first : run.excluded = [])
    (only : created.map Prod.snd = [nodeID]) (fewer : ∀ i n, holds' i n → holds i n)
    (phase : Phase holds created db run) :
    Phase holds' created db' { run with excluded := nodeID :: run.excluded } := by
  cases phase with
  | leased a n count none one free =>
    have same : n = nodeID := by simpa [one] using only
    exact .retrying a n count (by simp [none, same]) one fun i m holds => free i m (fewer i m holds)
  | scheduled _ _ unleased | reserved _ _ _ unleased =>
    rw [unleased] at only
    cases only
  | retrying _ _ _ failed =>
    rw [failed] at first
    cases first
  | again _ _ _ count | releases count => omega

theorem attemptFor_of_startsRun (other : JobID) (starts : event.op.startsRun = some jobID) :
    event.attemptFor other = none ∧ reservedFor event.op event.resp = none := by
  generalize event.resp = r
  cases creates : event.attemptFor other with
  | some created =>
    obtain ⟨ctx, number, leaseExpiresAt, deadlineAt, called, -⟩ := attemptFor_eq creates
    rw [called] at starts
    cases starts
  | none =>
    refine ⟨rfl, ?_⟩
    revert r
    generalize event.op = op at starts
    intro r
    cases op with
    | mem call =>
      cases call with
      | startRun => rfl
      | _ => cases starts
    | _ => cases starts

variable (ran : Ran settings s past mid)
  (acts : Acts settings mid event next) (inv : Retries past event.before)
include ran acts inv

theorem Retries.runOf_reserved {place : Nat} {candidates : List Candidate}
    (called : event.op = .mem (.reserve place jobID candidates)) : RunOf past jobID place := by
  obtain ⟨entry, -, allowed⟩ := disciplined ran acts
  rw [called] at allowed
  obtain ⟨found, looked⟩ := allowed
  exact inv.seen jobID place (happened_of_seen lookedUp looked)

theorem Retries.phase_step (careful : CarefulRetry past event) (runs : RunOf past jobID ref) :
    ∃ run, event.after.mem.runStates[ref]? = some run ∧
      Phase (HoldsFor (past ++ [.act event]) jobID) (attemptsOf (past ++ [.act event]) jobID)
        event.after.db run := by
  have valid : event.Valid settings := acts.exec
  obtain ⟨before, found, phase⟩ := inv.phase jobID ref runs
  rw [attemptsOf_snoc_act]
  cases creates : event.attemptFor jobID with
  | some created =>
    -- an attempt is created on a node that was reserved before
    rcases run_step acts.exec found with ⟨change, changes, -⟩ | ⟨-, after⟩
    · rw [(unreserved_of_created creates).2] at changes
      cases changes
    · exact ⟨before, after, phase.create creates (holdsFor_of_created ran acts creates)⟩
  | none =>
    rw [toList_none, append_nil]
    cases reserves : reservedFor event.op event.resp with
    | some reservation =>
      obtain ⟨other, nodeID⟩ := reservation
      obtain ⟨place, candidates, called, changes, allowed⟩ := reservedFor_step acts.exec reserves
      have runs' := inv.runOf_reserved ran acts called
      by_cases same : other = jobID
      · -- a node is reserved for this job
        subst same
        cases inv.one _ _ _ runs' runs
        obtain ⟨backed, ended⟩ := careful.backed (other, before) (by simp [called, reservesFor, found])
        rcases run_step acts.exec found with ⟨change, changes', after⟩ | ⟨unchanged, -⟩
        · rw [changes] at changes'
          cases changes'
          exact ⟨_, after, phase.reserve valid reserves backed ended (allowed before found)⟩
        · exact absurd changes (unchanged _)
      · rcases run_step acts.exec found with ⟨change, changes', -⟩ | ⟨-, after⟩
        · rw [changes] at changes'
          cases changes'
          exact absurd (inv.apart _ _ _ runs' runs) same
        · refine ⟨before, after, phase.weaken (fun i n => holdsFor_before fun n' mine => same ?_)
            fun _ => ended_kept valid⟩
          rw [reserves] at mine
          cases mine
          rfl
    | none =>
      have fewer : ∀ i n, HoldsFor (past ++ [.act event]) jobID i n → HoldsFor past jobID i n :=
        fun i n => holdsFor_before (by simp [reserves])
      -- what is left of the changes to a run is that a retry is granted
      rcases run_step acts.exec found with ⟨change, changes, after⟩ | ⟨-, after⟩
      · obtain ⟨other, nodeID, run', current, found', grants, below, effect⟩ :=
          granted_step acts.exec changes reserves
        cases found'.symm.trans found
        cases inv.apart _ _ _ (inv.current other ref current) runs
        obtain ⟨first, only⟩ := careful.granted _ grants
        rw [effect] at after
        exact ⟨_, after, phase.grant below first only fewer⟩
      · exact ⟨before, after, phase.weaken fewer fun _ => ended_kept valid⟩

theorem Retries.step (careful : CarefulRetry past event) :
    Retries (past ++ [.act event]) event.after := by
  have older : ∀ {jobID ref}, RunOf past jobID ref → RunOf (past ++ [.act event]) jobID ref :=
    fun earlier => happened_snoc_act.mpr (.inl earlier)
  -- a run that starts now is the job's first, and comes after the others
  have first : ∀ {jobID ref ref'}, event.startedRun = some (jobID, ref) → ¬RunOf past jobID ref' :=
    fun starts earlier =>
      careful.once _ (startedRun_eq starts).1 (startsRun_of_runOf earlier)
  have later : ∀ {jobID jobID' ref}, event.startedRun = some (jobID, ref) → ¬RunOf past jobID' ref := by
    intro jobID jobID' ref starts earlier
    obtain ⟨run, found, -⟩ := inv.phase jobID' ref earlier
    have bound := (List.getElem?_eq_some_iff.mp found).1
    rw [(startedRun_eq starts).2] at bound
    exact absurd bound (Nat.lt_irrefl _)
  refine ⟨?_, ?_, ?_, ?_, ?_, ?_⟩
  · intro jobID ref current
    rcases runs_step acts.exec current with old | ⟨starts, rfl⟩
    · exact older (inv.current jobID ref old)
    · exact happened_snoc_act.mpr (.inr (by simp [startedRun, starts]))
  · intro jobID ref looked
    rcases happened_snoc_act.mp looked with old | now
    · exact older (inv.seen jobID ref old)
    · exact older (inv.current jobID ref (lookedUp_step acts.exec now))
  · intro jobID ref ref' runs runs'
    rcases happened_snoc_act.mp runs with old | now <;>
      rcases happened_snoc_act.mp runs' with old' | now'
    · exact inv.one jobID ref ref' old old'
    · exact absurd old (first now')
    · exact absurd old' (first now)
    · exact (startedRun_eq now).2.trans (startedRun_eq now').2.symm
  · intro jobID jobID' ref runs runs'
    rcases happened_snoc_act.mp runs with old | now <;>
      rcases happened_snoc_act.mp runs' with old' | now'
    · exact inv.apart jobID jobID' ref old old'
    · exact absurd old (later now')
    · exact absurd old' (later now)
    · exact Option.some.inj ((startedRun_eq now).1.symm.trans (startedRun_eq now').1)
  · intro jobID ref runs
    rcases happened_snoc_act.mp runs with old | now
    · exact inv.phase_step ran acts careful old
    · obtain ⟨starts, rfl⟩ := startedRun_eq now
      obtain ⟨fresh, new, count, none⟩ := newRun_of_startsRun starts
      obtain ⟨unleased, free⟩ := inv.unscheduled jobID fun ref => first now
      have quiet := attemptFor_of_startsRun jobID starts
      refine ⟨fresh, newRun_step acts.exec new, .scheduled count none ?_ fun i n holds => ?_⟩
      · rw [attemptsOf_snoc_act, unleased, quiet.1]
        rfl
      · exact free i n (holdsFor_before (by simp [quiet.2]) holds)
  · intro jobID unscheduled
    obtain ⟨unleased, free⟩ := inv.unscheduled jobID fun ref earlier => unscheduled ref (older earlier)
    refine ⟨?_, fun i n holds => ?_⟩
    · rw [attemptsOf_snoc_act, unleased]
      cases creates : event.attemptFor jobID with
      | none => rfl
      | some created => exact absurd (holdsFor_of_created ran acts creates) (free _ _)
    · rcases heldBy_origin reservedFor holds with ⟨-, reserves, -⟩ | ⟨old, -⟩
      · obtain ⟨place, candidates, called, -⟩ := reservedFor_step acts.exec reserves
        exact unscheduled place (older (inv.runOf_reserved ran acts called))
      · exact free i n old

end

theorem retries_of_run {settings : Settings} {catalog : Catalog} {nodes : Table Node.id}
    {ls : Trace} {c : Config steps State} (run : Ran settings (boot catalog nodes) ls c)
    (careful : Along CarefulRetry ls) : Retries ls c.state := by
  refine run.along_invariant (I := Retries) careful ?_ ?_ ?_
  · constructor <;> simp [boot, Config.boot, Memory.init, RunOf, attemptsOf, HoldsFor, heldBy,
      localTrace, events]
  · intro past mid entry _ retries
    obtain ⟨current, seen, one, apart, phase, unscheduled⟩ := retries
    have same : ∀ jobID, HoldsFor (past ++ [.spawn entry]) jobID = HoldsFor past jobID := by
      intro jobID
      funext i nodeID
      rw [HoldsFor, HoldsFor, localTrace_snoc_spawn]
    constructor <;> simpa only [RunOf, happened_snoc_spawn, same, attemptsOf_snoc_spawn] using
      by assumption
  · exact fun past event mid next before step here inv => inv.step before step here

/-- In a run in which retries are careful, a job gets at most two attempts, the second on another node
and after the first has ended. -/
theorem retries_bounded {settings : Settings} {catalog : Catalog} {nodes : Table Node.id}
    {ls : Trace} {c : Config steps State}
    (run : (coordinator settings).Run (.boot (boot catalog nodes)) ls c)
    (careful : Along CarefulRetry ls) :
    (∀ jobID, (attemptsOf ls jobID).length ≤ 2) ∧ Along BoundedRetry ls := by
  constructor
  · intro jobID
    have inv := retries_of_run run careful
    by_cases scheduled : ∃ ref, RunOf ls jobID ref
    · obtain ⟨ref, runs⟩ := scheduled
      obtain ⟨run, -, phase⟩ := inv.phase jobID ref runs
      cases phase with
      | scheduled _ _ unleased | reserved _ _ _ unleased => simp [unleased]
      | leased _ _ _ _ one | retrying _ _ _ _ one | again _ _ _ _ _ one => simp [one]
      | releases _ _ two => exact Nat.le_of_eq two
    · rw [(inv.unscheduled jobID fun ref runs => scheduled ⟨ref, runs⟩).1]
      exact Nat.zero_le 2
  · intro past event rest cut created creates
    obtain ⟨mid, next, before, step, -⟩ := run.split cut
    have inv : Retries past event.before :=
      step.start ▸ retries_of_run before (cut ▸ careful).left
    have mine : attemptFor event created.1 = some created.2 := by
      simp [attemptFor, mem_def.mp creates]
    have holds := holdsFor_of_created before step mine
    have scheduled : ∃ ref, RunOf past created.1 ref := by
      by_contra none
      exact (inv.unscheduled _ fun ref runs => none ⟨ref, runs⟩).2 _ _ holds
    obtain ⟨ref, runs⟩ := scheduled
    obtain ⟨run, -, phase⟩ := inv.phase _ ref runs
    cases phase with
    | scheduled _ _ _ free | leased _ _ _ _ _ free | retrying _ _ _ _ _ free | releases _ _ _ free =>
      exact absurd holds (free _ _)
    | reserved _ _ _ unleased => simp [unleased]
    | again attemptID nodeID _ _ _ one ended own =>
      refine ⟨by simp [one], fun earlier member => ?_⟩
      rw [one, mem_singleton] at member
      rw [member]
      exact ⟨Ne.symm (own _ _ holds).2, ended⟩

namespace Deployment

def rejects (thread : Nat) : List (Choice Input Entry) :=
  [.act thread (reading (.job (.rejected ⟨"j0", "a0", "busy", "", true, 0⟩)))]

def retriedOnce : List (Choice Input Entry) :=
  connect 0 "n1" ++ request 1 "j" "a" ++ connect 2 "n2" ++ rejects 0 ++ advance 0 11 ++
  [.act 0 (drawing "b")]

def threeNodes : State := boot catalog
  (((Table.empty.put (node "n1")).put (node "n2")).put (node "n3"))

/-- The node rejects its attempt, reconnects and rejects it again before the first rejection has been
dealt with. Both are granted a retry. -/
def retriedTwice : List (Choice Input Entry) :=
  connect 0 "n1" ++ request 1 "j" "a" ++ connect 2 "n2" ++ connect 3 "n3" ++
  rejects 0 ++ advance 0 4 ++
  [.spawn (.session "n1" 8), .act 4 (reading (.hello "n1" "1.0")), .act 4 (drawing "t")] ++
  advance 4 3 ++ rejects 4 ++ advance 4 11 ++ [.act 4 (drawing "b")] ++
  advance 0 7 ++ [.act 0 (drawing "c")]

end Deployment

theorem retries_bounded_retriedOnce : ∃ ls c,
    (coordinator settings).Run (.boot start) ls c ∧
    (Along CarefulRetry ls ∧ attemptsOf ls "j0" = [("a0", "n1"), ("b0", "n2")]) ∧
    Along BoundedRetry ls := by
  obtain ⟨ls, c, run, careful, two⟩ := run_of_check
    (p := fun ls _ => Along CarefulRetry ls ∧ attemptsOf ls "j0" = [("a0", "n1"), ("b0", "n2")])
    retriedOnce (by decide +kernel)
  exact ⟨ls, c, run, ⟨careful, two⟩, (retries_bounded run careful).2⟩

theorem job_attempted_three_times : ∃ ls c,
    (coordinator settings).Run (.boot threeNodes) ls c ∧
    attemptsOf ls "j0" = [("a0", "n1"), ("b0", "n2"), ("c0", "n3")] :=
  run_from _ retriedTwice (by decide +kernel)

end Thirdshift
