import Mathlib.Logic.Function.Basic
import Thirdshift.Jobs.Calls

/-!
# The coordinator as a machine

The memory of the job service, its sections under `Service.mu`, and the machine that interleaves
the coordinator's handlers over the database and that memory. Maps are partial functions; run
contexts and result channels are referred to by number, since handlers keep pointers to them.
-/

namespace Thirdshift

open Foundation

structure ActiveJob where
  jobID : JobID
  attemptID : AttemptID

structure RunState where
  model : ModelInfo
  request : ChatRequest
  deadlineAt : Time
  excluded : List NodeID
  attempts : Nat

structure DuplicateRun where
  jobID : JobID
  attemptID : AttemptID
  originalAttemptID : AttemptID
  originalNodeID : NodeID
  expectedContent : String
  model : ModelInfo
  request : ChatRequest
  deadlineAt : Time

structure Memory where
  sessions : NodeID → Option SessionID
  activeByNode : NodeID → Option ActiveJob
  pending : JobID → Option Nat
  runs : JobID → Option Nat
  runStates : List RunState
  duplicates : AttemptID → Option DuplicateRun
  channels : List (Option Result)

def Memory.init : Memory where
  sessions := fun _ => none
  activeByNode := fun _ => none
  pending := fun _ => none
  runs := fun _ => none
  runStates := []
  duplicates := fun _ => none
  channels := []

structure State where
  db : Db
  mem : Memory

/-- The library functions verification rests on. -/
structure Crypto where
  decodeString : String → Option (List UInt8)
  marshal : JobCompletedPayload → List UInt8
  verify : List UInt8 → List UInt8 → List UInt8 → Bool

/-- How a coordinator is set up. `sampleValue` is the 64-bit value that sampling derives from a job
identifier. -/
structure Settings where
  staleAfter : Duration
  leaseTTL : Duration
  syncTimeout : Duration
  creditHold : Duration
  weights : SchedulerWeights
  crypto : Crypto
  sampleValue : JobID → Nat

/-! ### Sections under the mutex -/

inductive MemCall
  | attachSession (nodeID : NodeID) (sessionID : SessionID)
  | detachSession (nodeID : NodeID) (sessionID : SessionID)
  | startRun (jobID : JobID) (model : ModelInfo) (request : ChatRequest) (deadlineAt : Time)
  | lookupRun (jobID : JobID)
  | reserve (run : Nat) (jobID : JobID) (candidates : List Candidate)
  | reserveDuplicate (jobID : JobID) (originalNodeID : NodeID) (candidates : List Candidate)
  | setActive (nodeID : NodeID) (active : ActiveJob)
  | clearActive (nodeID : NodeID)
  | registerWait (jobID : JobID)
  | abandonWait (jobID : JobID)
  | takePending (jobID : JobID) (result : Result)
  | prepareRetry (jobID : JobID) (failedNodeID : NodeID)
  | runSnapshot (jobID : JobID)
  | isDuplicateAttempt (attemptID : AttemptID)
  | setDuplicateRun (attemptID : AttemptID) (run : DuplicateRun)
  | removeDuplicateRun (attemptID : AttemptID)
  | removeRun (jobID : JobID)

def MemCall.Result : MemCall → Type
  | .detachSession .. => Option ActiveJob
  | .lookupRun _ => Option (Nat × RunState)
  | .reserve .. => Option Candidate
  | .reserveDuplicate .. => Option Candidate
  | .registerWait _ => Nat
  | .takePending .. => Option Nat
  | .prepareRetry .. => Bool
  | .runSnapshot _ => Option RunState
  | .isDuplicateAttempt _ => Bool
  | .removeDuplicateRun _ => Option DuplicateRun
  | _ => Unit

namespace Memory

def run? (m : Memory) (jobID : JobID) : Option (Nat × RunState) :=
  (m.runs jobID).bind fun ref => (m.runStates[ref]?).map fun run => (ref, run)

/-- A candidate on its attached session that nothing is reserved for; a session without an identifier
is none. -/
def free (m : Memory) (c : Candidate) : Bool :=
  (c.sessionID ≠ "" && m.sessions c.nodeID = some c.sessionID) && (m.activeByNode c.nodeID).isNone

def setActive (m : Memory) (nodeID : NodeID) (active : ActiveJob) : Memory :=
  { m with activeByNode := Function.update m.activeByNode nodeID (some active) }

def clearActive (m : Memory) (nodeID : NodeID) : Memory :=
  { m with activeByNode := Function.update m.activeByNode nodeID none }

def updateRun (m : Memory) (ref : Nat) (f : RunState → RunState) : Memory :=
  { m with runStates := m.runStates.modify ref f }

end Memory

def MemCall.run (weights : SchedulerWeights) (m : Memory) :
    (call : MemCall) → Memory × call.Result
  | .attachSession nodeID sessionID =>
    ({ m with sessions := Function.update m.sessions nodeID (some sessionID) }, ())
  | .detachSession nodeID sessionID =>
    if m.sessions nodeID = some sessionID then
      ({ m.clearActive nodeID with sessions := Function.update m.sessions nodeID none },
        m.activeByNode nodeID)
    else (m, none)
  | .startRun jobID model request deadlineAt =>
    ({ m with
        runs := Function.update m.runs jobID (some m.runStates.length)
        runStates := m.runStates ++ [⟨model, request, deadlineAt, [], 0⟩] }, ())
  | .lookupRun jobID => (m, m.run? jobID)
  | .reserve ref jobID candidates =>
    let excluded := ((m.runStates[ref]?).map RunState.excluded).getD []
    let filtered := candidates.filter fun c => c.nodeID ∉ excluded && m.free c
    match Scheduler.choose weights filtered with
    | some chosen =>
      ((m.setActive chosen.nodeID ⟨jobID, ""⟩).updateRun ref
        (fun run => { run with attempts := run.attempts + 1 }), some chosen)
    | none => (m, none)
  | .reserveDuplicate jobID originalNodeID candidates =>
    let filtered := candidates.filter fun c => c.nodeID ≠ originalNodeID && m.free c
    match Scheduler.choose weights filtered with
    | some chosen => (m.setActive chosen.nodeID ⟨jobID, ""⟩, some chosen)
    | none => (m, none)
  | .setActive nodeID active => (m.setActive nodeID active, ())
  | .clearActive nodeID => (m.clearActive nodeID, ())
  | .registerWait jobID =>
    ({ m with
        pending := Function.update m.pending jobID (some m.channels.length)
        channels := m.channels ++ [none] }, m.channels.length)
  | .abandonWait jobID =>
    ({ m with
        pending := Function.update m.pending jobID none
        runs := Function.update m.runs jobID none }, ())
  | .takePending jobID _ =>
    ({ m with pending := Function.update m.pending jobID none }, m.pending jobID)
  | .prepareRetry jobID failedNodeID =>
    match m.run? jobID with
    | none => (m, false)
    | some (ref, run) =>
      if run.attempts ≥ 2 then (m, false)
      else (m.updateRun ref fun run => { run with excluded := failedNodeID :: run.excluded }, true)
  | .runSnapshot jobID => (m, (m.run? jobID).map Prod.snd)
  | .isDuplicateAttempt attemptID => (m, (m.duplicates attemptID).isSome)
  | .setDuplicateRun attemptID run =>
    ({ m with duplicates := Function.update m.duplicates attemptID (some run) }, ())
  | .removeDuplicateRun attemptID =>
    ({ m with duplicates := Function.update m.duplicates attemptID none }, m.duplicates attemptID)
  | .removeRun jobID => ({ m with runs := Function.update m.runs jobID none }, ())

/-! ### Steps -/

/-- The context a database call is made under: that of the caller, which can be cancelled, or the
background context. -/
inductive Ctx
  | caller
  | background
  deriving DecidableEq

inductive Answer
  | completion (response : OpenAIResponse)
  | replay (row : IdempotencyRow)
  | status (code : Nat) (status : Store.JobStatus)
  | error (e : APIError)

inductive Op
  | store (ctx : Ctx) (call : StoreCall)
  | mem (call : MemCall)
  | now
  | recv (nodeID : NodeID)
  | close (nodeID : NodeID)
  | send (sessionID : SessionID) (offer : JobOfferPayload)
  | greet (sessionID : SessionID)
  | put (channel : Nat) (result : Result)
  | await (channel : Nat)
  | answer (jobID : Option JobID) (answer : Answer)
  | syncManifest (manifest : Manifest)

def Op.Resp : Op → Type
  | .store _ call => Except GoError call.Result
  | .mem call => call.Result
  | .now => Time
  | .recv _ => Option Frame
  | .send .. => Except GoError Unit
  | .greet _ => Except GoError Unit
  | .await _ => Option Result
  | _ => Unit

def steps : Signature := ⟨Op, Op.Resp⟩

abbrev Proc := Prog steps

def storeFailure : GoError := .other "database error"
def sendFailure : GoError := .other "failed to write frame"

/-- Whether a database call under `ctx` fails before it has any effect. -/
def Input.fails (input : Input) (ctx : Ctx) : Bool :=
  input.databaseFails || (ctx = .caller && input.contextCancelled)

def manifestIDs (ids : Nat → String) (m : Manifest) : ManifestIDs where
  runtime := ids 0
  version := ids 1
  artifact := ids 2
  price := ids 3
  releaseArtifact := fun platformKey =>
    ids (4 + (m.releaseArtifacts.map Prod.fst).idxOf platformKey)

/-- One step on the shared state; `none` when the step has to wait. -/
def step (settings : Settings) (op : Op) (input : Input) (s : State) : Option (State × op.Resp) :=
  match op with
  | .store ctx call =>
    if input.fails ctx then some (s, .error storeFailure)
    else match Tx.run schema (call.tx input) s.db with
      | .ok (r, db) => some ({ s with db }, .ok r)
      | .error e => some (s, .error e)
  | .mem call =>
    let (mem, r) := call.run settings.weights s.mem
    some ({ s with mem }, r)
  | .now => some (s, input.now)
  | .recv _ => some (s, input.frame)
  | .close _ => some (s, ())
  | .send .. => some (s, if input.sendFails then .error sendFailure else .ok ())
  | .greet _ => some (s, if input.sendFails then .error sendFailure else .ok ())
  | .put channel result =>
    match s.mem.channels[channel]? with
    | some none => some ({ s with mem :=
        { s.mem with channels := s.mem.channels.set channel (some result) } }, ())
    | _ => none
  | .await channel =>
    if input.resultReady then
      match s.mem.channels[channel]? with
      | some (some result) => some ({ s with mem :=
          { s.mem with channels := s.mem.channels.set channel none } }, some result)
      | _ => none
    else some (s, none)
  | .answer .. => some (s, ())
  | .syncManifest m => some ({ s with db := { s.db with
      catalog := s.db.catalog.upsertManifest m (manifestIDs input.ids m) input.dbNow } }, ())

end Thirdshift
