import Thirdshift.Coordinator.Usage
import Thirdshift.Coordinator.Replays
import Thirdshift.Coordinator.Confinement
import Thirdshift.Coordinator.Verification

/-!
# What every run keeps

These hold from the boot on, in whatever order the threads go and whatever fails: nothing is asked
of the interleaving. A waiter is told once, so that telling it never waits, and every thread can
always be run to its end.
-/

namespace Thirdshift

open Foundation List Op Tx

variable {settings : Settings} {catalog : Catalog} {nodes : Table Node.id} {ls past : Trace}
  {s : State} {c mid next : Config steps State} {event : Ev} {result : Result} {channel i : Nat}

/-! ### Waiters are told once -/

def took (op : Op) (r : op.Resp) : Option Nat := (taken op r).map fun told => told.2.2

/-- The channel that a thread has taken out of the waiter map and not yet put into. -/
def justTook (past : Seen) : Option Nat := past.getLast?.bind fun obs => took obs.op obs.resp

theorem justTook_snoc : justTook (localTrace i (past ++ [.act event])) =
    if event.thread = i then took event.op event.resp else justTook (localTrace i past) := by
  by_cases mine : event.thread = i <;> simp [justTook, mine]

theorem taken_of_justTook (took : justTook (localTrace i ls) = some channel) :
    ∃ jobID result, Taken ls jobID result channel := by
  obtain ⟨obs, last, told⟩ := Option.bind_eq_some_iff.mp took
  obtain ⟨⟨jobID, result, same⟩, takes, rfl⟩ := Option.map_eq_some_iff.mp told
  have seen := happened_of_seen taken (mem_of_getLast? last)
  exact ⟨jobID, result, by rwa [takes] at seen⟩

/-- The waiter of a job that was told is gone, and a thread that has taken a channel is alone with
it. -/
structure Telling (ls : Trace) (s : State) : Prop where
  done : ∀ jobID result channel, Taken ls jobID result channel → s.mem.pending jobID = none
  alone : ∀ i j channel, justTook (localTrace i ls) = some channel →
    justTook (localTrace j ls) = some channel → i = j
  empty : ∀ i channel, justTook (localTrace i ls) = some channel →
    s.mem.channels[channel]? = some none

section

variable (telling : Telling past event.before) (waiting : Waiting past event.before)
  (valid : event.Valid settings) (takes : took event.op event.resp = some channel)
include telling waiting valid takes

theorem Telling.untold (jobID : JobID) (result : Result) : ¬Taken past jobID result channel := by
  intro told
  obtain ⟨⟨own, report, same⟩, taking, rfl⟩ := Option.map_eq_some_iff.mp takes
  have pending := (pending_of_taken valid taking).2
  have registered := waiting.taken jobID result same told
  obtain rfl := waiting.apart own jobID same (waiting.registered own same pending) registered
  rw [telling.done own result same told] at pending
  cases pending

theorem Telling.untaken (i : Nat) : justTook (localTrace i past) ≠ some channel := by
  intro took
  obtain ⟨jobID, result, told⟩ := taken_of_justTook took
  exact telling.untold waiting valid takes jobID result told

end

theorem justTook_of_put {entry : Entry} {past : Seen}
    (allowed : Disciplined settings entry past (.put channel result)) :
    justTook past = some channel := by
  obtain ⟨jobID, -, last⟩ := allowed
  simp [justTook, last, took, taken]

theorem Telling.step (run : Ran settings (boot catalog nodes) past mid)
    (acts : Acts settings mid event next) (telling : Telling past event.before) :
    Telling (past ++ [.act event]) event.after := by
  have waiting : Waiting past event.before := acts.start ▸ waiting_of_run run
  have later := waiting.step run acts
  refine ⟨?_, ?_, ?_⟩
  · intro jobID result channel told
    by_contra pending
    obtain ⟨current, waits⟩ := Option.ne_none_iff_exists'.mp pending
    rcases happened_snoc_act.mp told with old | new
    · rcases registered_of_pending acts.exec waits with was | registers
      · rw [telling.done jobID result channel old] at was
        cases was
      · -- only a job that has just been created is registered
        have created := justCreated_of_registered run acts registers
        exact (waiting.created _ jobID created).2.1 channel (waiting.taken jobID result channel old)
    · rw [pending_of_step acts.exec, (pending_of_taken acts.exec new).1] at waits
      simp [onPending] at waits
  · intro i j channel tookI tookJ
    rw [justTook_snoc] at tookI tookJ
    split at tookI <;> split at tookJ
    next mine mine' => exact mine.symm.trans mine'
    · exact absurd tookJ (telling.untaken waiting acts.exec tookI j)
    · exact absurd tookI (telling.untaken waiting acts.exec tookJ i)
    · exact telling.alone i j channel tookI tookJ
  · intro i channel took
    obtain ⟨jobID, result, told⟩ := taken_of_justTook took
    have inside := later.numbered jobID channel (later.taken jobID result channel told)
    rw [justTook_snoc] at took
    cases here : event.after.mem.channels[channel]? with
    | none =>
      rw [getElem?_eq_none_iff] at here
      omega
    | some content =>
      cases content with
      | none => rfl
      | some result' =>
        exfalso
        rcases full_of_step acts.exec here with full | puts
        · split at took
          · obtain ⟨jobID', told'⟩ := waiting.filled channel result' full
            exact telling.untold waiting acts.exec took jobID' result' told'
          · rw [telling.empty i channel took] at full
            cases full
        · obtain ⟨entry, -, allowed⟩ := disciplined run acts
          rw [puts] at allowed
          have putting := justTook_of_put allowed
          split at took
          · exact telling.untaken waiting acts.exec took _ putting
          next other => exact other (telling.alone _ i channel putting took)

theorem telling_of_run (run : Ran settings (boot catalog nodes) ls c) : Telling ls c.state := by
  refine run.invariant (I := Telling) ?_ ?_ fun _ _ _ _ before acts telling => telling.step before acts
  · constructor <;> simp [Taken, justTook, localTrace]
  · rintro past mid entry - ⟨done, alone, empty⟩
    constructor <;> simpa only [Taken, happened_snoc_spawn, localTrace_snoc_spawn] using by assumption

/-! ### No thread waits for another -/

/-- The input of a step at which no result has come for a request that waits. -/
def Input.impatient (input : Input) : Input := { input with resultReady := false }

theorem step_ready (run : Ran settings (boot catalog nodes) ls c) {op : Op}
    {k : op.Resp → Prog steps Unit} (current : c.threads[i]? = some (.call op k)) (input : Input) :
    ∃ s r, step settings op input.impatient c.state = some (s, r) := by
  suffices ready : (step settings op input.impatient c.state).isSome = true by
    obtain ⟨⟨s, r⟩, stepped⟩ := Option.isSome_iff_exists.mp ready
    exact ⟨s, r, stepped⟩
  cases op with
  | store ctx call =>
    simp only [step]
    repeat' split
    all_goals rfl
  | put channel result =>
    -- the channel was taken for this, and nobody else can have put into it since
    obtain ⟨entry, -, obeys⟩ := run.thread_obeys (behaves_program settings) current
    simp [step, (telling_of_run run).empty i channel (justTook_of_put obeys.1.1)]
  | _ => rfl

theorem finishes_alone (p : Prog steps Unit) (run : Ran settings (boot catalog nodes) ls c)
    (current : c.threads[i]? = some p) (inputs : Nat → Input) : ∃ n done,
      (coordinator settings).runSchedule
        ((range n).map fun t => .act i (inputs t).impatient) c = some done ∧
      done.2.threads[i]? = some (.ret ()) := by
  induction p generalizing ls c inputs with
  | ret => exact ⟨0, ([], c), rfl, current⟩
  | call op k ih =>
    obtain ⟨s, r, stepped⟩ := step_ready run current (inputs 0)
    obtain ⟨l, performed⟩ : ∃ l, (coordinator settings).perform (.act i (inputs 0).impatient) c =
        some (l, ⟨s, c.threads.set i (k r)⟩) := by
      simp only [Machine.perform, current]
      rw [show (coordinator settings).exec op _ _ = _ from stepped]
      exact ⟨_, rfl⟩
    have inside := (List.getElem?_eq_some_iff.mp current).1
    obtain ⟨n, ⟨ls, last⟩, rest, ended⟩ := ih r (run.snoc (Machine.step_of_perform performed))
      (getElem?_set_self inside) (fun t => inputs (t + 1))
    refine ⟨n + 1, (l :: ls, last), ?_, ended⟩
    rw [range_succ_eq_map, map_cons, Machine.runSchedule, performed, map_map]
    exact congrArg (Option.map _) rest

/-! ### Attempts -/

structure Attempt.WindsDown (a' a : Attempt) : Prop where
  lease : a'.SameLease a
  ended : a'.status.live = true → a.status.live = true

theorem Ev.windsDown {a a' : Attempt} (event : Ev) (winds : a'.WindsDown a) :
    (event.onAttempt a').WindsDown a := by
  have same := Ev.sameLease event a'
  refine ⟨?_, fun live => winds.ended ?_⟩
  · constructor <;> grind [Attempt.SameLease, Attempt.WindsDown]
  · unfold Ev.onAttempt at live
    cases commits : event.commits with
    | none => rwa [commits] at live
    | some call =>
      rw [commits] at live
      exact StoreCall.live_of_onAttempt live

/-! ### The ledger -/

namespace Ledger

/-- Every posted transaction balances, and these entries are still there. -/
structure Sound (es : List LedgerEntry) (db : Db) : Prop where
  filed : db.Filed
  balanced : db.balanced = true
  kept : es <+: db.entries.rows

namespace Sound

variable {es new : List LedgerEntry} {db db' : Db} {id : String} (sound : Sound es db)
include sound

theorem frame {α : Type} {a : α} {tables : List TableName} {t : SqlTx α} (writes : WritesTo tables t)
    (apart : .transactions ∉ tables ∧ .entries ∉ tables) (ok : Tx.exec schema t db = .ok (a, db')) :
    Sound es db' := by
  have frame : Enters db db' "" [] := enters_of_frame writes apart.1 apart.2 ok
  exact ⟨frame.filed sound.filed, frame.balanced_eq.trans sound.balanced,
    sound.kept.trans ⟨[], frame.entries.symm⟩⟩

theorem recorded (recorded : Recorded db db' id new) (zero : entrySum new = 0) : Sound es db' :=
  ⟨recorded.filed sound.filed, (recorded.balanced_iff sound.filed).mpr ⟨sound.balanced, zero⟩,
    sound.kept.trans ⟨new, recorded.entries.symm⟩⟩

theorem call {input : Input} {call : StoreCall} {v : call.Result}
    (ok : Tx.exec schema (call.tx input) db = .ok (v, db')) : Sound es db' := by
  by_cases plain : .transactions ∉ call.tables ∧ .entries ∉ call.tables
  · exact sound.frame (StoreCall.writesTo_tables input call) plain ok
  cases call with
  | completeJob payload receivedAt =>
    obtain ⟨_, _, completed, done⟩ := exec_bind_ok ok
    obtain ⟨-, rfl⟩ := exec_done_ok done
    obtain ⟨attempt, -, accepted⟩ := StoreCall.completeJob_ok completed
    obtain ⟨_, _, inserted, rest⟩ := exec_bind_ok accepted
    obtain ⟨_, _, posted, rest⟩ := exec_bind_ok rest
    obtain ⟨_, _, priced, concluded⟩ := exec_bind_ok rest
    obtain ⟨pricing, new, -, posting, -, zero⟩ := recorded_postAcceptedJob posted
    have before := sound.frame (writesTo_insertRow (mem_singleton.mpr rfl))
      (by simp [Row.table, Row.key]) inserted
    have after := (before.recorded posting (zero.mpr Int.le_rfl)).frame
      (writesTo_updateResults (mem_singleton.mpr rfl)) (by decide) priced
    exact after.frame (Store.writesTo_conclusion payload receivedAt) (by decide) concluded
  | postVerificationOverhead =>
    obtain ⟨new, posting, zero⟩ := recorded_postVerificationOverhead ok
    exact sound.recorded posting zero
  | _ => exact absurd (by simp [StoreCall.tables]) plain

end Sound

end Ledger

theorem Ledger.Sound.step {es : List LedgerEntry} (valid : event.Valid settings)
    (sound : Sound es event.before.db) : Sound es event.after.db := by
  cases commits : event.commits with
  | none =>
    rw [db_of_uncommitted valid commits]
    exact ⟨⟨sound.filed.1, sound.filed.2⟩, sound.balanced, sound.kept⟩
  | some call =>
    obtain ⟨v, ran⟩ := exec_of_committed valid commits
    exact sound.call ran

/-! ### Executions -/

/-- A run from the boot. -/
structure Execution (settings : Settings) (catalog : Catalog) (nodes : Table Node.id) where
  trace : Trace
  last : Config steps State
  run : Ran settings (boot catalog nodes) trace last

namespace Execution

def ofSchedule (schedule : List (Choice Input Entry))
    (done : ((coordinator settings).runSchedule schedule (.boot (boot catalog nodes))).isSome = true) :
    Execution settings catalog nodes :=
  ⟨_, _, Machine.run_of_schedule (Option.some_get done).symm⟩

open Deployment in
/-- A request is served: its job is completed on a node, and it is answered. -/
def served : Execution Deployment.settings Deployment.catalog
    ((Table.empty.put (node "n1")).put (node "n2")) :=
  ofSchedule (completedInTime ++ advance 0 4 ++ [.act 1 { idle with resultReady := true }] ++
    advance 1 1) (by decide +kernel)

variable (e : Execution settings catalog nodes)

/-- Whoever takes the waiter of a job to tell it something is the first to do so. -/
theorem waiters_told_once : Along (fun past event => ∀ told ∈ taken event.op event.resp,
    ∀ result channel, ¬Taken past told.1 result channel) e.trace := by
  rintro past event rest cut ⟨jobID, told, own⟩ takes result channel earlier
  obtain ⟨mid, next, before, acts, -⟩ := e.run.split cut
  have pending := (pending_of_taken acts.exec takes).2
  rw [acts.start, (telling_of_run before).done jobID result channel earlier] at pending
  cases pending

theorem waiters_told_once_served :
    (events served.trace).any (fun event => (taken event.op event.resp).isSome) = true ∧
    Along (fun past event => ∀ told ∈ taken event.op event.resp,
      ∀ result channel, ¬Taken past told.1 result channel) served.trace :=
  ⟨by decide +kernel, served.waiters_told_once⟩

/-- However its calls turn out, a thread that is run alone from here comes to its end. -/
theorem threads_finish (i : Fin e.last.threads.length) (inputs : Nat → Input) : ∃ n done,
      (coordinator settings).runSchedule
        ((range n).map fun t => .act i (inputs t).impatient) e.last = some done ∧
      done.2.threads[i.val]? = some (.ret ()) :=
  finishes_alone e.last.threads[i] e.run (getElem?_eq_getElem i.isLt) inputs

theorem threads_finish_served : served.last.threads.length = 2 ∧ ∃ n done,
    (coordinator Deployment.settings).runSchedule
      ((range n).map fun _ => .act 0 Deployment.idle.impatient) served.last = some done ∧
    done.2.threads[0]? = some (.ret ()) := by
  have two : served.last.threads.length = 2 := by decide +kernel
  exact ⟨two, served.threads_finish ⟨0, by omega⟩ fun _ => Deployment.idle⟩

/-- Every offer carries the request of the one call that has created its job. -/
theorem offers_carry_request : Along (fun _ (event : Ev) => ∀ offer ∈ event.op.offer?, ∃ i call,
    (entries e.trace)[i]? = some (.chat call) ∧ offer.request = call.request ∧
      ∀ j, CreatedJob (localTrace j e.trace) offer.jobID ↔ j = i) e.trace := by
  intro past event rest cut offer offers
  have member : event ∈ events e.trace := mem_events.mpr (by simp [cut])
  obtain ⟨i, call, started, same, created⟩ :=
    creator_of_asked e.run (asked_of_offered e.run rfl ⟨event, member, offers⟩)
  refine ⟨i, call, started, same, fun j => ⟨fun other => ?_, fun here => here ▸ created⟩⟩
  exact (creators_of_run e.run).single j i offer.jobID other created

theorem offers_carry_request_served :
    (events served.trace).any (fun event => event.op.offer?.isSome) = true ∧
    Along (fun _ (event : Ev) => ∀ offer ∈ event.op.offer?, ∃ i call,
      (entries served.trace)[i]? = some (.chat call) ∧ offer.request = call.request ∧
        ∀ j, CreatedJob (localTrace j served.trace) offer.jobID ↔ j = i) served.trace :=
  ⟨by decide +kernel, served.offers_carry_request⟩

/-- A completion is only ever answered with the response that `CompleteJob` has committed for the
job that the request itself has created, and that job is charged by then. -/
theorem answers_committed : Along (fun past (event : Ev) => ∀ jobID response,
    event.op = .answer jobID (.completion response) → ∃ id, jobID = some id ∧
      CreatedJob (localTrace event.thread past) id ∧ Responded past id response ∧
      Charging event.before.db id) e.trace := by
  intro past event rest cut jobID response answers
  obtain ⟨mid, next, before, acts, -⟩ := e.run.split cut
  obtain ⟨entry, -, conduct⟩ := conducts before acts
  rw [answers] at conduct
  rcases conduct.front_or_serves with ⟨-, id, rfl, delivered⟩ | ⟨own, serves⟩
  · refine ⟨id, rfl, delivered.1, responded_of_delivered before delivered, ?_⟩
    rw [acts.start, (books_of_run before).charging_iff, accepted_iff_completed before]
    obtain ⟨-, channel, result, waited, received, ok, -⟩ := delivered
    have waiting := waiting_of_run before
    exact waiting.completed id result channel (waiting.told waited received) ok
  · exact serves.elim

theorem answers_committed_served :
    (events served.trace).any (fun event => match event.op with
      | .answer _ (.completion _) => true
      | _ => false) = true ∧
    Along (fun past (event : Ev) => ∀ jobID response,
      event.op = .answer jobID (.completion response) → ∃ id, jobID = some id ∧
        CreatedJob (localTrace event.thread past) id ∧ Responded past id response ∧
        Charging event.before.db id) served.trace :=
  ⟨by decide +kernel, served.answers_committed⟩

/-- The row of an attempt stays and keeps its lease, and an attempt that has ended is not live again. -/
theorem attempts_wind_down : Along (fun _ (event : Ev) => ∀ id a,
    event.before.db.attempts.find? id = some a → ∃ a', a'.WindsDown a ∧
      e.last.state.db.attempts.find? id = some a') e.trace := by
  intro past event rest cut id a found
  obtain ⟨mid, next, -, acts, after⟩ := e.run.split cut
  refine (Machine.Run.cons acts after).state_invariant
    (I := fun s => ∃ a', a'.WindsDown a ∧ s.db.attempts.find? id = some a')
    ⟨a, ⟨⟨rfl, rfl, rfl, rfl, rfl, rfl⟩, fun live => live⟩, acts.start ▸ found⟩ ?_
  rintro later - valid ⟨old, winds, was⟩
  exact ⟨_, Ev.windsDown later winds, Ev.attempt_kept valid was⟩

theorem attempts_wind_down_served : served.last.state.db.attemptStatus "a0" = some .succeeded ∧
    Along (fun _ (event : Ev) => ∀ id a, event.before.db.attempts.find? id = some a →
      ∃ a', a'.WindsDown a ∧ served.last.state.db.attempts.find? id = some a') served.trace :=
  ⟨by decide +kernel, served.attempts_wind_down⟩

theorem attempts_worked_in_time : WorkedInTime e.last.state.db :=
  e.run.state_invariant (I := fun s => WorkedInTime s.db) (by simp [WorkedInTime, boot, Config.boot])
    fun _ _ exec => .step exec

theorem attempts_worked_in_time_served : served.last.state.db.attemptStatus "a0" = some .succeeded ∧
    WorkedInTime served.last.state.db :=
  ⟨by decide +kernel, served.attempts_worked_in_time⟩

/-- Entries are only ever added, and every posted transaction balances. -/
theorem ledger_grows_balanced : e.last.state.db.balanced = true ∧ Along (fun _ (event : Ev) =>
    event.before.db.entries.rows <+: e.last.state.db.entries.rows) e.trace := by
  have keeps : ∀ {es ls c c'}, (coordinator settings).Run c ls c' → Ledger.Sound es c.state.db →
      Ledger.Sound es c'.state.db := fun run sound =>
    run.state_invariant (I := fun s => Ledger.Sound _ s.db) sound fun _ _ exec => .step exec
  have start : Ledger.Sound [] (boot catalog nodes).db :=
    ⟨⟨by simp [boot], by simp [boot]⟩, by rfl, nil_prefix⟩
  refine ⟨(keeps e.run start).balanced, fun past event rest cut => ?_⟩
  obtain ⟨mid, next, before, acts, after⟩ := e.run.split cut
  have sound := keeps before start
  rw [acts.start]
  exact (keeps (.cons acts after) ⟨sound.filed, sound.balanced, prefix_rfl⟩).kept

theorem ledger_grows_balanced_served : served.last.state.db.entries.rows ≠ [] ∧
    served.last.state.db.balanced = true :=
  ⟨by decide +kernel, served.ledger_grows_balanced.1⟩

end Execution

end Thirdshift
