import Thirdshift.Coordinator.Events

/-!
# Runs of the coordinator

The state a coordinator starts in, what can be read off the database at any point, and a small
deployment on which runs are evaluated.
-/

namespace Thirdshift

open Foundation

/-- A coordinator that has just been started on a registry of models and nodes. -/
def boot (catalog : Catalog) (nodes : Table Node.id) : State where
  db :=
    { jobs := .empty
      attempts := .empty
      results := .empty
      events := .empty
      idempotency := .empty
      accounts := .empty
      transactions := .empty
      entries := .empty
      holds := .empty
      batches := .empty
      items := .empty
      reputation := .empty
      nodes := nodes
      sessions := .empty
      heartbeats := .empty
      catalog := catalog }
  mem := .init

theorem unique_boot (catalog : Catalog) (nodes : Table Node.id) :
    schema.Unique (boot catalog nodes).db := by
  rintro ⟨table, id⟩ l r q ix found - entry -
  cases table with
  | nodes =>
    obtain ⟨n, -, rfl⟩ := Option.map_eq_some_iff.mp found
    cases entry
  | _ => cases found

namespace Db

def jobState (db : Db) (id : JobID) : Option JobState := (db.jobs.find? id).map Job.state

def attemptStatus (db : Db) (id : AttemptID) : Option AttemptStatus :=
  (db.attempts.find? id).map Attempt.status

end Db

/-! ### A small deployment -/

namespace Deployment

def crypto : Crypto := ⟨fun _ => some (List.replicate 32 0), fun _ => [], fun _ _ _ => true⟩

def settings : Settings :=
  ⟨seconds 45, seconds 10, seconds 120, 0, .zero, crypto, fun _ => 0⟩

/-- One model with one price, served from one artifact by one runtime. -/
def catalog : Catalog where
  models := [⟨"m", "active", "public"⟩]
  versions := [⟨"mv", "m", "v1", some "rt", 0⟩]
  artifacts := [⟨"art", "mv", "gguf", "aa"⟩]
  releases := [⟨"rt", "llama", "b1"⟩]
  releaseArtifacts := [⟨"rra", "rt", "linux", "bb"⟩]
  profiles := [⟨"mv", "alpha-default", 4096, 0⟩]
  prices := [⟨"p", "mv", "alpha", 1000000, 2000000, 500000, 0, none⟩]
  limits := []
  nodeKeys := [⟨"n1", "k1", true, 0⟩, ⟨"n2", "k2", true, 0⟩]

def node (id : NodeID) : Node := ⟨id, .available, some "m", none, none⟩

def start : State := boot catalog ((Table.empty.put (node "n1")).put (node "n2"))

def idle : Input := ⟨1000, 1000, fun n => "x" ++ toString n, false, false, false, none, false⟩

def drawing (tag : String) : Input := { idle with ids := fun n => tag ++ toString n }

def reading (frame : Frame) : Input := { idle with frame := some frame }

/-- `n` steps of a thread in which nothing is drawn, read or fails. -/
def advance (thread n : Nat) : List (Choice Input Entry) := List.replicate n (.act thread idle)

def connect (thread : Nat) (nodeID : NodeID) : List (Choice Input Entry) :=
  [.spawn (.session nodeID 8), .act thread (reading (.hello nodeID "1.0")),
    .act thread (drawing ("s" ++ nodeID))] ++ advance thread 3 ++
  [.act thread (reading (.heartbeat ⟨nodeID, 1, some .available, "m", "sha256:bb", "sha256:aa",
      "in_window", "normal", false, false⟩)),
    .act thread (drawing ("h" ++ nodeID))]

def call : ChatCall := ⟨⟨"ak", "org", ["m"]⟩, "m", ⟨[⟨"user", "hi"⟩], none, 8, none, false⟩,
  "", "h"⟩

/-- A request up to the step that offers its first attempt to a node. -/
def request (thread : Nat) (job attempt : String) : List (Choice Input Entry) :=
  [.spawn (.chat call)] ++ advance thread 2 ++ [.act thread (drawing job)] ++ advance thread 8 ++
  [.act thread (drawing attempt)] ++ advance thread 2

def accept (thread : Nat) (jobID : JobID) (attemptID : AttemptID) : List (Choice Input Entry) :=
  [.act thread (reading (.job (.accepted ⟨jobID, attemptID, 0⟩))), .act thread idle]

def payload (jobID : JobID) (attemptID : AttemptID) : JobCompletedPayload :=
  ⟨jobID, attemptID, "m", "sha256:bb", "sha256:aa", some ⟨"assistant", "hello"⟩, ⟨3, 2, 5⟩, 10,
    "stop", 1000, some ⟨"k", "ed25519", "sig", 0⟩⟩

def complete (thread : Nat) (payload : JobCompletedPayload) (tag : String) :
    List (Choice Input Entry) :=
  [.act thread (reading (.job (.completed payload)))] ++ advance thread 8 ++
  [.act thread (drawing tag)]

section

variable (s : State) (schedule : List (Choice Input Entry))

theorem run_from {p : Trace → Config steps State → Prop} [∀ ls c, Decidable (p ls c)]
    (checked : ((coordinator settings).runSchedule schedule (.boot s)).any
      (fun r => decide (p r.1 r.2)) = true) : ∃ ls c, Ran settings s ls c ∧ p ls c := by
  obtain ⟨ls, c, run, holds⟩ := Machine.exists_run checked
  exact ⟨ls, c, run, of_decide_eq_true holds⟩

theorem event_from (n : Nat) {p : Trace → Ev → Prop} [∀ past event, Decidable (p past event)]
    (checked : ((coordinator settings).runSchedule schedule (.boot s)).any
      (fun r => Machine.cutAt n (fun past event _ => decide (p past event)) r.1) = true) :
    ∃ ls c, Ran settings s ls c ∧
      ∃ past event rest, ls = past ++ .act event :: rest ∧ p past event := by
  obtain ⟨ls, c, run, found⟩ := Machine.exists_run checked
  obtain ⟨past, event, rest, cut, holds⟩ := Machine.exists_cut found
  exact ⟨ls, c, run, past, event, rest, cut, of_decide_eq_true holds⟩

end

theorem run_of_check {p : Trace → Config steps State → Prop} [∀ ls c, Decidable (p ls c)]
    (schedule : List (Choice Input Entry))
    (checked : ((coordinator settings).runSchedule schedule (.boot start)).any
      (fun r => decide (p r.1 r.2)) = true) : ∃ ls c, Ran settings start ls c ∧ p ls c :=
  run_from start schedule checked

theorem ok_of_check {α : Type} {result : Except GoError α} {p : α → Bool}
    (checked : result.toOption.any p = true) : ∃ a, result = .ok a ∧ p a = true := by
  cases result with
  | error e => cases checked
  | ok a => exact ⟨a, rfl, checked⟩

end Deployment

end Thirdshift
