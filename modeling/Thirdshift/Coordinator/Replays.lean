import Thirdshift.Coordinator.Waiters
import Thirdshift.Coordinator.Idempotency

/-!
# Replayed answers

Where the rows of the idempotency table come from along a run, and what a request may be answered
with from it. The look-up, the job, the store and the read-back of a request are separate calls, so
requests with one key can come between them.
-/

namespace Thirdshift

open Foundation List Deployment

variable {i : Nat} {ls : Trace} {event : Ev} {s : State}

/-! ### Requests of a run -/

def Entry.call? : Entry → Option ChatCall
  | .chat call => some call
  | _ => none

def callOf (ls : Trace) (i : Nat) : Option ChatCall := (entries ls)[i]?.bind Entry.call?

namespace ChatCall

/-- The two requests come under one API key, with one idempotency key and one body hash. -/
def Same (a b : ChatCall) : Prop :=
  a.principal.id = b.principal.id ∧ a.idempotencyKey = b.idempotencyKey ∧ a.bodyHash = b.bodyHash
  deriving Decidable

def Keys (call : ChatCall) (row : IdempotencyRow) : Prop :=
  row.apiKeyID = call.principal.id ∧ row.endpoint = chatCompletionsEndpoint ∧
    row.idempotencyKey = call.idempotencyKey
  deriving Decidable

end ChatCall

/-- Thread `i` serves a request like this one. -/
def Alike (ls : Trace) (call : ChatCall) (i : Nat) : Prop := ∃ other ∈ callOf ls i, other.Same call
  deriving Decidable

instance (past : Seen) (jobID : JobID) : Decidable (CreatedJob past jobID) :=
  inferInstanceAs (Decidable (∃ obs ∈ past, _))

instance (past : Seen) : Decidable (HasCreated past) :=
  inferInstanceAs (Decidable (∃ obs ∈ past, _))

def Requested (ls : Trace) (call : ChatCall) (jobID : JobID) : Prop :=
  ∃ i < (entries ls).length, Alike ls call i ∧ CreatedJob (localTrace i ls) jobID

instance (ls : Trace) (call : ChatCall) (jobID : JobID) : Decidable (Requested ls call jobID) :=
  inferInstanceAs (Decidable (∃ i < _, _))

/-- `CompleteJob` has committed for the job with the response. -/
def Responded (ls : Trace) (jobID : JobID) (response : OpenAIResponse) : Prop :=
  Happened (fun event => responded event.op event.resp = some (jobID, response)) ls

variable {call : ChatCall}

theorem callOf_kept (serves : callOf ls i = some call) (rest : Trace) :
    callOf (ls ++ rest) i = some call := by
  obtain ⟨entry, started, chat⟩ := Option.bind_eq_some_iff.mp serves
  exact Option.bind_eq_some_iff.mpr ⟨entry, entry_kept started rest, chat⟩

theorem callOf_chat : callOf ls i = some call ↔ (entries ls)[i]? = some (.chat call) := by
  unfold callOf
  cases started : (entries ls)[i]? with
  | none => simp
  | some entry => cases entry <;> simp [Entry.call?]

theorem lt_of_callOf (serves : callOf ls i = some call) : i < (entries ls).length :=
  (List.getElem?_eq_some_iff.mp (callOf_chat.mp serves)).1

/-! ### The idempotency table along a run -/

theorem Ev.idempotency_after {settings : Settings} (valid : event.Valid settings) :
    event.after.db.idempotency = event.before.db.idempotency ∨
      ∃ ctx apiKeyID endpoint key requestHash jobID response, event.op = .store ctx
          (.storeIdempotencyResponse apiKeyID endpoint key requestHash jobID response) ∧
        ∃ row : IdempotencyRow, row.apiKeyID = apiKeyID ∧ row.endpoint = endpoint ∧
          row.idempotencyKey = key ∧ row.requestHash = requestHash ∧ row.jobID = jobID ∧
          row.response = response ∧ event.after.db.idempotency =
            event.before.db.idempotency.put (event.before.db.storedRow row) := by
  cases commits : event.commits with
  | none =>
    rw [db_of_uncommitted valid commits]
    exact .inl rfl
  | some call =>
    obtain ⟨v, ran⟩ := exec_of_committed valid commits
    obtain ⟨ctx, op⟩ := committed_eq_some commits
    cases call with
    | storeIdempotencyResponse apiKeyID endpoint key requestHash jobID response =>
      exact .inr ⟨ctx, apiKeyID, endpoint, key, requestHash, jobID, response, op, _, rfl, rfl, rfl,
        rfl, rfl, rfl, (idempotency_after_store ran).1⟩
    | _ =>
      exact .inl ((StoreCall.writesTo_tables event.input _).idempotency
        (by simp [StoreCall.tables, Ledger.tables]) ran)

def Originates (ls : Trace) (row : IdempotencyRow) : Prop :=
  ∃ i call, callOf ls i = some call ∧ call.Keys row ∧ row.requestHash = call.bodyHash ∧
    CreatedJob (localTrace i ls) row.jobID ∧ Responded ls row.jobID row.response

theorem Originates.append {row : IdempotencyRow} (origin : Originates ls row) (rest : Trace) :
    Originates (ls ++ rest) row := by
  obtain ⟨i, call, serves, keys, hash, created, responds⟩ := origin
  exact ⟨i, call, callOf_kept serves rest, keys, hash, created.mono (localTrace_of_append i ls rest),
    responds.append rest⟩

def Op.storesResponse : Op → Bool
  | .store _ (.storeIdempotencyResponse ..) => true
  | _ => false

def Op.looksUp : Op → Bool
  | .store _ (.idempotencyRecord ..) => true
  | _ => false

/-- When a request stores its response, and when it reads the record back, no row under its key has
another request hash. -/
def OneBody (past : Trace) (event : Ev) : Prop :=
  ∀ call ∈ callOf past event.thread,
    (Op.storesResponse event.op = true ∨
      Op.looksUp event.op = true ∧ HasCreated (localTrace event.thread past)) →
    ∀ row ∈ event.before.db.idempotency.rows, call.Keys row → row.requestHash = call.bodyHash
  deriving Decidable

section

variable {settings : Settings} {catalog : Catalog} {nodes : Table Node.id} {past : Trace}
  {c mid next : Config steps State}

theorem callOf_of_step (run : Ran settings s past mid)
    (step : Acts settings mid event next) {call : ChatCall} {rest : Trace}
    (serves : callOf (past ++ rest) event.thread = some call) :
    callOf past event.thread = some call := by
  obtain ⟨entry, started, -⟩ := disciplined run step
  have kept := entry_kept started rest
  rw [callOf_chat.mp serves] at kept
  exact callOf_chat.mpr (started.trans kept.symm)

theorem responded_of_taken (run : Ran settings (boot catalog nodes) ls c)
    {jobID : JobID} {result : Result} {channel : Nat} (told : Taken ls jobID result channel)
    (ok : result.error.code = "") : Responded ls jobID result.response := by
  obtain ⟨event, member, takes⟩ := told
  obtain ⟨past, rest, mid, next, cut, before, step⟩ := run.around member
  obtain ⟨entry, -, allowed⟩ := disciplined before step
  rw [(pending_of_taken step.exec takes).1] at allowed
  rcases allowed.1 with ⟨-, -, obs, seen, responds⟩ | ⟨failed, -⟩
  · have happened := happened_of_seen responded seen
    rw [responds] at happened
    exact cut ▸ happened.append _
  · exact absurd ok failed

theorem responded_of_delivered (run : Ran settings (boot catalog nodes) ls c) {jobID : JobID}
    {response : OpenAIResponse} (delivered : Delivered (localTrace i ls) jobID response) :
    Responded ls jobID response := by
  obtain ⟨-, channel, result, waited, received, ok, rfl⟩ := delivered
  exact responded_of_taken run ((waiting_of_run run).told waited received) ok

theorem originates_step (run : Ran settings (boot catalog nodes) past mid)
    (step : Acts settings mid event next) (one : OneBody past event)
    (origin : ∀ row ∈ event.before.db.idempotency.rows, Originates past row) :
    ∀ row ∈ event.after.db.idempotency.rows, Originates (past ++ [.act event]) row := by
  intro row member
  rcases Ev.idempotency_after step.exec with same | ⟨ctx, apiKeyID, endpoint, key, requestHash, jobID,
    response, op, stored, rfl, rfl, rfl, rfl, rfl, rfl, after⟩
  · rw [same] at member
    exact (origin row member).append _
  · rw [after, Table.mem_put] at member
    rcases member with rfl | ⟨old, -⟩
    · obtain ⟨entry, started, allowed⟩ := disciplined run step
      rw [op] at allowed
      obtain ⟨call, rfl, apiKey, endpoint, key, hash, delivered⟩ := allowed
      have serves := callOf_chat.mpr started
      have sameKey := storedRow_sameKey event.before.db stored
      have keys : call.Keys (event.before.db.storedRow stored) :=
        ⟨sameKey.1.trans apiKey, sameKey.2.1.trans endpoint, sameKey.2.2.trans key⟩
      have written : (event.before.db.storedRow stored).requestHash = call.bodyHash ∧
          (event.before.db.storedRow stored).jobID = stored.jobID ∧
          (event.before.db.storedRow stored).response = stored.response := by
        unfold Db.storedRow at keys ⊢
        split
        next old found =>
          -- a row that is replaced keeps its hash, which one body per key makes the same
          rw [found] at keys
          exact ⟨one call serves (.inl (by rw [op]; rfl)) old (mem_of_find?_eq_some found) keys,
            rfl, rfl⟩
        · exact ⟨hash, rfl, rfl⟩
      refine Originates.append ⟨event.thread, call, serves, keys, written.1, ?_, ?_⟩ _
      · exact written.2.1 ▸ delivered.1
      · rw [written.2.1, written.2.2]
        exact responded_of_delivered run delivered
    · exact (origin row old).append _

theorem originates_of_run (run : Ran settings (boot catalog nodes) ls c)
    (one : Along OneBody ls) : ∀ row ∈ c.state.db.idempotency.rows, Originates ls row := by
  refine run.along_invariant
    (I := fun ls s => ∀ row ∈ s.db.idempotency.rows, Originates ls row) one ?_ ?_ ?_
  · intro row member
    cases member
  · intro past mid entry _ origin row member
    exact (origin row member).append _
  · intro past event mid next before step here origin
    exact originates_step before step here origin

theorem row_of_lookup {input : Input} {s' : State} {call : ChatCall} {row : IdempotencyRow}
    (exec : step settings call.lookup input s = some (s', .ok (some row))) :
    row ∈ s.db.idempotency.rows ∧ call.Keys row := by
  have ran := exec_of_ok exec
  obtain ⟨found, -⟩ := Tx.exec_select_ok ran
  have matched := find?_some found.symm
  simp only [decide_eq_true_eq] at matched
  exact ⟨mem_of_find?_eq_some found.symm, matched.1, matched.2.1, matched.2.2.1⟩

end

/-- A request that is answered from the idempotency table is answered with the response of a job
that a request with its key and its body hash has created. -/
theorem replay_belongs_to_request {settings : Settings} {catalog : Catalog} {nodes : Table Node.id}
    {ls : Trace} {c : Config steps State}
    (run : (coordinator settings).Run (.boot (boot catalog nodes)) ls c) (one : Along OneBody ls)
    {event : Ev} (member : event ∈ events ls) {call : ChatCall}
    (serves : callOf ls event.thread = some call) {about : Option JobID} {row : IdempotencyRow}
    (replays : event.op = .answer about (.replay row)) :
    Requested ls call row.jobID ∧ Responded ls row.jobID row.response := by
  obtain ⟨past, rest, mid, next, cut, before, step⟩ := run.around member
  obtain ⟨entry, started, allowed⟩ := disciplined before step
  rw [replays] at allowed
  have chat : entry = .chat call := by
    rw [callOf_chat.mp (callOf_of_step before step (cut ▸ serves))] at started
    exact (Option.some.inj started).symm
  obtain ⟨-, found⟩ := allowed call chat
  obtain ⟨earlier, later, trace, hash⟩ := found row rfl
  -- the look-up that returned the row
  obtain ⟨past₀, looked, rest₀, cut₀, thread, obs, trace₀⟩ := localTrace_eq_append trace
  obtain ⟨mid₀, next₀, before₀, step₀, -⟩ := before.split cut₀
  have whole : ls = past₀ ++ .act looked :: (rest₀ ++ .act event :: rest) := by simp [cut, cut₀]
  obtain ⟨i, op, input, s, s', r⟩ := looked
  cases obs
  cases thread
  have exec : Thirdshift.step settings call.lookup input s = some (s', .ok (some row)) := step₀.exec
  obtain ⟨inside, keys⟩ := row_of_lookup exec
  have origin : Originates past₀ row := by
    refine originates_of_run before₀ (whole ▸ one).left row ?_
    exact step₀.start ▸ inside
  have agrees : row.requestHash = call.bodyHash := by
    rcases hash with early | created
    · exact early
    · have already := callOf_of_step before₀ step₀ (whole ▸ serves)
      exact one past₀ _ _ whole call already (.inr ⟨rfl, trace₀ ▸ created⟩) row inside keys
  obtain ⟨j, other, requests, otherKeys, otherHash, creates, responds⟩ := origin
  rw [whole]
  have same : other.Same call := by
    refine ⟨?_, ?_, otherHash.symm.trans agrees⟩
    · exact otherKeys.1.symm.trans keys.1
    · exact otherKeys.2.2.symm.trans keys.2.2
  constructor
  · exact ⟨j, lt_of_callOf (callOf_kept requests _), ⟨other, callOf_kept requests _, same⟩,
      creates.mono (localTrace_of_append j past₀ _)⟩
  · exact responds.append _

namespace Deployment

def keyed (bodyHash : String) : ChatCall :=
  ⟨⟨"ak", "org", ["m"]⟩, "m", ⟨[⟨"user", "hi"⟩], none, 8, none, false⟩, "k", bodyHash⟩

def keyedRequest (thread : Nat) (bodyHash job attempt : String) : List (Choice Input Entry) :=
  [.spawn (.chat (keyed bodyHash))] ++ advance thread 3 ++ [.act thread (drawing job)] ++
  advance thread 8 ++ [.act thread (drawing attempt)] ++ advance thread 2

def receive (thread : Nat) : List (Choice Input Entry) :=
  [.act thread { idle with resultReady := true }]

/-- Requests with different bodies under one key: both find no record, and the first stores its
response between the store and the read-back of the second. -/
def crossed : List (Choice Input Entry) :=
  connect 0 "n1" ++ keyedRequest 1 "h1" "j" "a" ++ accept 0 "j0" "a0" ++
  complete 0 (payload "j0" "a0") "c" ++ advance 0 4 ++ receive 1 ++
  keyedRequest 2 "h2" "q" "b" ++ accept 0 "q0" "b0" ++
  complete 0 (payload "q0" "b0") "d" ++ advance 0 4 ++ receive 2 ++
  [.act 2 (drawing "i")] ++ [.act 1 (drawing "i")] ++ advance 2 2

/-- A request is served and its response stored; the same request is then answered from the table. -/
def repeated : List (Choice Input Entry) :=
  connect 0 "n1" ++ keyedRequest 1 "h1" "j" "a" ++ accept 0 "j0" "a0" ++
  complete 0 (payload "j0" "a0") "c" ++ advance 0 4 ++ receive 1 ++ [.act 1 (drawing "i")] ++
  advance 1 2 ++ [.spawn (.chat (keyed "h1"))] ++ advance 2 3

end Deployment

def Ev.replay (ls : Trace) (event : Ev) : Option (ChatCall × IdempotencyRow) :=
  match callOf ls event.thread, event.op with
  | some call, .answer _ (.replay row) => some (call, row)
  | _, _ => none

theorem replay_eq_some {row : IdempotencyRow}
    (replays : event.replay ls = some (call, row)) :
    callOf ls event.thread = some call ∧ ∃ about, event.op = .answer about (.replay row) := by
  unfold Ev.replay at replays
  split at replays
  next serves answers =>
    cases replays
    exact ⟨serves, _, answers⟩
  · cases replays

/-- The repeated request is answered with the response of the job of the first. -/
theorem replay_belongs_to_request_repeated : ∃ ls c event call row,
    (coordinator settings).Run (.boot start) ls c ∧ Along OneBody ls ∧
    event ∈ events ls ∧ Ev.replay ls event = some (call, row) ∧ Requested ls call row.jobID ∧
    Responded ls row.jobID row.response := by
  obtain ⟨ls, c, run, one, event, member, replays⟩ := run_of_check
    (p := fun ls _ => Along OneBody ls ∧ ∃ event ∈ events ls, (Ev.replay ls event).isSome = true)
    repeated (by decide +kernel)
  obtain ⟨⟨call, row⟩, found⟩ := Option.isSome_iff_exists.mp replays
  obtain ⟨serves, about, answers⟩ := replay_eq_some found
  exact ⟨ls, c, event, call, row, run, one, member, found,
    replay_belongs_to_request run one member serves answers⟩

/-- The second request is answered with the response of the job of the first, whose body differs. -/
theorem replay_of_another_body : ∃ ls c,
    (coordinator settings).Run (.boot start) ls c ∧
    ∃ event ∈ events ls, ∃ answered ∈ Ev.replay ls event,
      ¬Requested ls answered.1 answered.2.jobID :=
  run_of_check crossed (by decide +kernel)

end Thirdshift
