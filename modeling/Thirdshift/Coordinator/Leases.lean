import Thirdshift.Coordinator.Confinement

/-!
# One lease per node

A thread that schedules an attempt reads the nodes that are idle, reserves one in the memory, and
only then adds the attempt. Until then nothing in the database says that the node is taken, and the
reservation is kept under the node, not under the thread. The node is leased once as long as nobody
else drops the reservation and what the memory calls free is idle.
-/

namespace Thirdshift

open Foundation Deployment Memory

variable {past : Trace} {event : Ev} {seen : Seen} {nodeID other : NodeID} {input : Input}
  {a : Attempt} {s : State} {m : Memory}

def Op.readsNumber : Op → Bool
  | .store _ (.nextAttemptNumber _) => true
  | _ => false

section

variable {α : Type} (reserves : (op : Op) → op.Resp → Option α)

/-- What a thread still holds after an operation: what it reserves, or what it held when it only reads
the number of the attempt. -/
def heldAfter (held : Option α) (obs : Obs steps) : Option α :=
  (reserves obs.op obs.resp).or (if Op.readsNumber obs.op then held else none)

def heldBy (seen : Seen) : Option α := seen.foldl (heldAfter reserves) none

@[simp] theorem heldBy_snoc (seen : Seen) (obs : Obs steps) :
    heldBy reserves (seen ++ [obs]) = heldAfter reserves (heldBy reserves seen) obs := by
  simp [heldBy]

theorem heldBy_origin {i : Nat} {x : α}
    (holds : heldBy reserves (localTrace i (past ++ [.act event])) = some x) :
    (i = event.thread ∧ reserves event.op event.resp = some x ∧
      heldAfter reserves (heldBy reserves (localTrace i past)) ⟨event.op, event.resp⟩ = some x) ∨
    heldBy reserves (localTrace i past) = some x ∧ (i = event.thread →
      heldAfter reserves (heldBy reserves (localTrace i past)) ⟨event.op, event.resp⟩ = some x) := by
  rw [localTrace_snoc_act] at holds
  by_cases mine : event.thread = i
  · rw [if_pos mine, heldBy_snoc] at holds
    cases reserved : reserves event.op event.resp with
    | some y =>
      have same : some y = some x := by simpa [heldAfter, reserved] using holds
      exact .inl ⟨mine.symm, same, holds⟩
    | none =>
      have still : event.op.readsNumber = true ∧ heldBy reserves (localTrace i past) = some x := by
        simpa [heldAfter, reserved] using holds
      exact .inr ⟨still.2, fun _ => holds⟩
  · rw [if_neg mine, List.append_nil] at holds
    exact .inr ⟨holds, fun same => absurd same.symm mine⟩

theorem newAttempt_of_held (quiet : ∀ ctx call r, reserves (.store ctx call) r = none)
    {held : Option α} {x : α} (holds : heldAfter reserves held ⟨event.op, event.resp⟩ = some x) :
    event.newAttempt = none := by
  cases new : event.newAttempt with
  | none => rfl
  | some a =>
    obtain ⟨call, commits, added⟩ := Option.bind_eq_some_iff.mp new
    obtain ⟨ctx, called⟩ := committed_eq_some commits
    generalize event.resp = r at holds
    revert holds r
    rw [called]
    intro r holds
    have number : Op.readsNumber (.store ctx call) = true := by
      by_contra other
      rw [heldAfter, quiet ctx call r, if_neg other] at holds
      cases holds
    cases call
    case createAttempt => cases number
    case createVerificationAttempt => cases number
    all_goals cases added

end

def reservedNode : (op : Op) → op.Resp → Option NodeID
  | .mem (.reserve ..), some chosen => some chosen.nodeID
  | .mem (.reserveDuplicate ..), some chosen => some chosen.nodeID
  | _, _ => none

abbrev holding : Seen → Option NodeID := heldBy reservedNode

theorem holding_of_reserved {jobID : JobID}
    (reserved : Reserved seen jobID nodeID) : holding seen = some nodeID := by
  obtain ⟨earlier, ctx, ref, candidates, chosen, number, rfl, rfl⟩ := reserved
  simp [heldBy, heldAfter, reservedNode, Op.readsNumber]

theorem holding_of_reservedDuplicate {jobID : JobID}
    (reserved : ReservedDuplicate seen jobID nodeID) : holding seen = some nodeID := by
  obtain ⟨earlier, ctx, original, candidates, chosen, number, rfl, rfl⟩ := reserved
  simp [heldBy, heldAfter, reservedNode, Op.readsNumber]

/-- No attempt of the node is offered, accepted or running. -/
def Db.Idle (db : Db) (nodeID : NodeID) : Prop :=
  ∀ a ∈ db.attempts.rows, a.nodeID = nodeID → a.status.live = false
  deriving Decidable

def Db.OneLease (db : Db) : Prop :=
  ∀ a ∈ db.attempts.rows, ∀ a' ∈ db.attempts.rows, a.status.live = true → a'.status.live = true →
    a.nodeID = a'.nodeID → a.id = a'.id
  deriving Decidable

def Op.choosesFrom : Op → List Candidate
  | .mem (.reserve _ _ candidates) => candidates
  | .mem (.reserveDuplicate _ _ candidates) => candidates
  | _ => []

def Op.frees (m : Memory) : Op → Option NodeID
  | .mem (.clearActive nodeID) => some nodeID
  | .mem (.detachSession nodeID sessionID) =>
    if m.sessions nodeID = some sessionID then some nodeID else none
  | _ => none

/-- A candidate that is free in the memory is idle in the database, and a reservation that waits for
its attempt is not dropped by another thread. -/
structure KeepsReservations (past : Trace) (event : Ev) : Prop where
  idle : ∀ candidate ∈ event.op.choosesFrom, event.before.mem.free candidate = true →
    event.before.db.Idle candidate.nodeID
  kept : ∀ nodeID ∈ event.op.frees event.before.mem, ∀ i < (entries past).length,
    i ≠ event.thread → holding (localTrace i past) ≠ some nodeID

instance (past : Trace) (event : Ev) : Decidable (KeepsReservations past event) :=
  decidable_of_iff (_ ∧ _) ⟨fun ⟨a, b⟩ => ⟨a, b⟩, fun ⟨a, b⟩ => ⟨a, b⟩⟩

/-- Each node is leased once, and a node that a thread holds is idle and marked as taken. -/
structure Exclusive (ls : Trace) (s : State) : Prop where
  one : s.db.OneLease
  idle : ∀ i nodeID, holding (localTrace i ls) = some nodeID → s.db.Idle nodeID
  marked : ∀ i nodeID, holding (localTrace i ls) = some nodeID →
    (s.mem.activeByNode nodeID).isSome = true
  apart : ∀ i i' nodeID, holding (localTrace i ls) = some nodeID →
    holding (localTrace i' ls) = some nodeID → i = i'

/-! ### Attempts that are live -/

section

variable {settings : Settings}

theorem StoreCall.live_of_onAttempt {call : StoreCall}
    (live : (call.onAttempt input a).status.live = true) : a.status.live = true := by
  have ofTaken : ∀ {status : AttemptStatus}, status.taken = true → status.live = true := by
    intro status taken
    cases status <;> first | rfl | cases taken
  cases call
  case markStarted jobID attemptID =>
    simp only [onAttempt, Table.updateWhere] at live
    split at live
    next matched => exact ofTaken (of_decide_eq_true matched).2.2
    · exact live
  all_goals
    simp only [onAttempt, Table.updateWhere, id] at live
    first
      | exact live
      | (split at live
         · simp_all [AttemptStatus.live, AttemptStatus.taken, Store.Attempt.fail]
         · exact live)

section

variable (valid : event.Valid settings)
include valid

theorem Ev.live_origin (member : a ∈ event.after.db.attempts.rows) (live : a.status.live = true) :
    (∃ old ∈ event.before.db.attempts.rows, old.status.live = true ∧ a = event.onAttempt old) ∨
      event.newAttempt = some a := by
  rcases Ev.attempt_origin valid (Table.mem_rows_iff.mp member) with ⟨old, was, rfl⟩ | ⟨-, new, -⟩
  · refine .inl ⟨old, Table.mem_of_find? was, ?_, rfl⟩
    cases commits : event.commits with
    | none => simpa [Ev.onAttempt, commits] using live
    | some call =>
      simp only [Ev.onAttempt, commits] at live
      exact StoreCall.live_of_onAttempt live
  · exact .inr new

theorem Ev.idle_kept (idle : event.before.db.Idle nodeID)
    (other : ∀ a ∈ event.newAttempt, a.nodeID ≠ nodeID) : event.after.db.Idle nodeID := by
  intro a member leased
  by_contra live
  rw [Bool.not_eq_false] at live
  rcases Ev.live_origin valid member live with ⟨old, was, lived, rfl⟩ | new
  · have still := idle old was ((event.sameLease old).nodeID ▸ leased)
    rw [lived] at still
    cases still
  · exact other a new leased

theorem Ev.oneLease_kept (one : event.before.db.OneLease)
    (idle : ∀ a ∈ event.newAttempt, event.before.db.Idle a.nodeID) : event.after.db.OneLease := by
  -- an old attempt that is live is not on the node of the new one
  have apart : ∀ {old new : Attempt}, old ∈ event.before.db.attempts.rows →
      old.status.live = true → event.newAttempt = some new → old.nodeID ≠ new.nodeID := by
    intro old new was lived added same
    have still := idle new added old was same
    rw [lived] at still
    cases still
  intro a member a' member' live live' same
  rcases Ev.live_origin valid member live with ⟨old, was, lived, rfl⟩ | new <;>
    rcases Ev.live_origin valid member' live' with ⟨old', was', lived', rfl⟩ | new'
  · rw [(event.sameLease old).nodeID, (event.sameLease old').nodeID] at same
    rw [(event.sameLease old).id, (event.sameLease old').id]
    exact one old was old' was' lived lived' same
  · rw [(event.sameLease old).nodeID] at same
    exact absurd same (apart was lived new')
  · rw [(event.sameLease old').nodeID] at same
    exact absurd same.symm (apart was' lived' new)
  · rw [Option.some.inj (new.symm.trans new')]

end

end

/-! ### Reservations -/

section

variable {settings : Settings} {op : Op} {r : op.Resp} {s' : State}

theorem free_of_choose {weights : SchedulerWeights} {candidates : List Candidate}
    {p : Candidate → Bool} {chosen : Candidate}
    (choice : Scheduler.choose weights (candidates.filter fun c => p c && m.free c) =
      some chosen) : chosen ∈ candidates ∧ m.free chosen = true := by
  obtain ⟨member, passes⟩ := List.mem_filter.mp (mem_of_choose choice)
  rw [Bool.and_eq_true] at passes
  exact ⟨member, passes.2⟩

theorem reserved_step (exec : step settings op input s = some (s', r))
    (reserves : reservedNode op r = some nodeID) :
    (∃ candidate ∈ op.choosesFrom, candidate.nodeID = nodeID ∧ s.mem.free candidate = true) ∧
      (s'.mem.activeByNode nodeID).isSome = true := by
  cases op with
  | mem call =>
    cases call with
    | reserve | reserveDuplicate =>
      cases exec
      simp only at reserves ⊢
      split at reserves
      next chosen choice =>
        cases reserves
        obtain ⟨member, free⟩ := free_of_choose choice
        exact ⟨⟨chosen, member, rfl, free⟩, by simp [setActive, updateRun]⟩
      · cases reserves
    | _ => cases reserves
  | _ => cases reserves

theorem Memory.isSome_setActive {active : ActiveJob}
    (marked : (m.activeByNode nodeID).isSome = true) :
    ((m.setActive other active).activeByNode nodeID).isSome = true := by
  simp only [setActive, Function.update_apply]
  split
  · rfl
  · exact marked

theorem Memory.isSome_clearActive (apart : other ≠ nodeID)
    (marked : (m.activeByNode nodeID).isSome = true) :
    ((m.clearActive other).activeByNode nodeID).isSome = true := by
  simpa [Memory.clearActive, Function.update_apply, Ne.symm apart] using marked

theorem marked_step (exec : step settings op input s = some (s', r))
    (marked : (s.mem.activeByNode nodeID).isSome = true) (kept : op.frees s.mem ≠ some nodeID) :
    (s'.mem.activeByNode nodeID).isSome = true := by
  rw [mem_of_step exec]
  cases op with
  | mem call =>
    cases call
    case reserve =>
      simp only [Op.onMemory, MemCall.run]
      split
      · exact isSome_setActive (m := s.mem) marked
      · exact marked
    case reserveDuplicate =>
      simp only [Op.onMemory, MemCall.run]
      split
      · exact isSome_setActive marked
      · exact marked
    case setActive => exact isSome_setActive marked
    case clearActive other =>
      exact isSome_clearActive (fun same => kept (by rw [← same]; rfl)) marked
    case detachSession other sessionID =>
      simp only [Op.onMemory, MemCall.run]
      split
      next attached =>
        -- a session that is not the attached one frees nothing
        refine isSome_clearActive (m := s.mem) (fun same => kept ?_) marked
        rw [← same]
        exact if_pos attached
      · exact marked
    case prepareRetry =>
      simp only [Op.onMemory, MemCall.run]
      repeat' split
      all_goals exact marked
    all_goals exact marked
  | await =>
    simp only [Op.onMemory]
    split <;> exact marked
  | _ => exact marked

end

section

variable {settings : Settings} {mid next : Config steps State}

theorem holding_of_newAttempt (run : Ran settings s past mid) (step : Acts settings mid event next)
    (new : event.newAttempt = some a) : holding (localTrace event.thread past) = some a.nodeID := by
  obtain ⟨call, commits, added⟩ := Option.bind_eq_some_iff.mp new
  obtain ⟨ctx, called⟩ := committed_eq_some commits
  obtain ⟨entry, -, allowed⟩ := disciplined run step
  rw [called] at allowed
  cases call with
  | createAttempt =>
    cases added
    exact holding_of_reserved allowed.1
  | createVerificationAttempt =>
    cases added
    exact holding_of_reservedDuplicate allowed.1
  | _ => cases added

theorem not_frees_of_continued {held : Option NodeID}
    (holds : heldAfter reservedNode held ⟨event.op, event.resp⟩ = some nodeID) :
    event.op.frees m ≠ some other := by
  generalize event.resp = r at holds
  revert holds r
  generalize event.op = op
  intro r holds frees
  cases op with
  | mem call =>
    cases call
    case clearActive => cases holds
    case detachSession => cases holds
    all_goals cases frees
  | _ => cases frees

theorem Exclusive.step (run : Ran settings s past mid) (step : Acts settings mid event next)
    (exclusive : Exclusive past event.before) (keeps : KeepsReservations past event) :
    Exclusive (past ++ [.act event]) event.after := by
  have valid : event.Valid settings := step.exec
  refine ⟨?_, ?_, ?_, ?_⟩
  · refine Ev.oneLease_kept valid exclusive.one fun a new => ?_
    exact exclusive.idle event.thread a.nodeID (holding_of_newAttempt run step new)
  · intro i nodeID holds
    rcases heldBy_origin reservedNode holds with ⟨rfl, reserves, continued⟩ | ⟨old, mine⟩
    · obtain ⟨⟨candidate, listed, rfl, free⟩, -⟩ := reserved_step step.exec reserves
      refine Ev.idle_kept valid (keeps.idle candidate listed free) fun a new => ?_
      rw [newAttempt_of_held reservedNode (fun _ _ _ => rfl) continued] at new
      cases new
    · refine Ev.idle_kept valid (exclusive.idle i nodeID old) fun a new same => ?_
      -- the thread that adds the attempt holds its node, so it is this one, which goes on holding it
      have adds := holding_of_newAttempt run step new
      have this := exclusive.apart i event.thread nodeID old (same ▸ adds)
      rw [newAttempt_of_held reservedNode (fun _ _ _ => rfl) (mine this)] at new
      cases new
  · intro i nodeID holds
    rcases heldBy_origin reservedNode holds with ⟨rfl, reserves, -⟩ | ⟨old, mine⟩
    · exact (reserved_step step.exec reserves).2
    · refine marked_step step.exec (exclusive.marked i nodeID old) fun frees => ?_
      by_cases this : i = event.thread
      · exact not_frees_of_continued (mine this) frees
      · refine keeps.kept nodeID frees i ?_ this old
        by_contra unstarted
        rw [run.localTrace_unstarted (Nat.le_of_not_lt unstarted)] at old
        cases old
  · -- a node that is reserved was free, so no thread held it
    have fresh : ∀ {i nodeID}, reservedNode event.op event.resp = some nodeID →
        holding (localTrace i past) ≠ some nodeID := by
      intro i nodeID reserves old
      obtain ⟨⟨candidate, -, rfl, free⟩, -⟩ := reserved_step step.exec reserves
      have marked := exclusive.marked i _ old
      rw [Memory.free, Bool.and_eq_true, Option.isNone_iff_eq_none] at free
      rw [free.2] at marked
      cases marked
    intro i i' nodeID holds holds'
    rcases heldBy_origin reservedNode holds with ⟨rfl, reserves, -⟩ | ⟨old, -⟩ <;>
      rcases heldBy_origin reservedNode holds' with ⟨rfl, reserves', -⟩ | ⟨old', -⟩
    · rfl
    · exact absurd old' (fresh reserves)
    · exact absurd old (fresh reserves')
    · exact exclusive.apart i i' nodeID old old'

end

theorem exclusive_of_run {settings : Settings} {catalog : Catalog} {nodes : Table Node.id}
    {ls : Trace} {c : Config steps State} (run : Ran settings (boot catalog nodes) ls c)
    (keeps : Along KeepsReservations ls) : Exclusive ls c.state := by
  refine run.along_invariant (I := Exclusive) keeps ?_ ?_ ?_
  · constructor <;> simp [boot, Config.boot, Db.OneLease, localTrace, heldBy]
  · intro past mid entry _ exclusive
    obtain ⟨one, idle, marked, apart⟩ := exclusive
    constructor <;> simpa only [localTrace_snoc_spawn] using by assumption
  · exact fun past event mid next before step here exclusive => exclusive.step before step here

/-- In a run in which reservations are kept, each node has at most one lease. -/
theorem one_lease_per_node {settings : Settings} {catalog : Catalog} {nodes : Table Node.id}
    {ls : Trace} {c : Config steps State}
    (run : (coordinator settings).Run (.boot (boot catalog nodes)) ls c)
    (keeps : Along KeepsReservations ls) : c.state.db.OneLease :=
  (exclusive_of_run run keeps).one

theorem one_lease_per_node_served : ∃ ls c,
    (coordinator settings).Run (.boot start) ls c ∧
    Along KeepsReservations ls ∧ ¬c.state.db.Idle "n1" ∧ c.state.db.OneLease := by
  obtain ⟨ls, c, run, keeps, busy⟩ := run_of_check
    (p := fun ls c => Along KeepsReservations ls ∧ ¬c.state.db.Idle "n1")
    (connect 0 "n1" ++ request 1 "j" "a") (by decide +kernel)
  exact ⟨ls, c, run, keeps, busy, one_lease_per_node run keeps⟩

/-- A request reads the node as idle, and another is given to it. The node rejects an attempt that is
not its own, which drops its entry in the memory, and the first request reserves it. -/
def Deployment.reservedAgain : List (Choice Input Entry) :=
  connect 0 "n1" ++ [.spawn (.chat call)] ++ advance 1 2 ++ [.act 1 (drawing "k")] ++ advance 1 6 ++
  request 2 "j" "a" ++ [.act 0 (reading (.job (.rejected ⟨"zz", "zz", "busy", "", true, 0⟩)))] ++
  advance 0 3 ++ advance 1 2 ++ [.act 1 (drawing "b")]

theorem node_leased_twice : ∃ ls c,
    (coordinator settings).Run (.boot start) ls c ∧ ¬c.state.db.OneLease :=
  run_of_check reservedAgain (by decide +kernel)

end Thirdshift
