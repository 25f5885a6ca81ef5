import Thirdshift.Jobs.Types

/-!
# Scheduler
-/

namespace Thirdshift

structure SchedulerWeights where
  warmModelBonus : Int
  rollingSuccessRate : Int
  normalizedTokensPerSecond : Int
  lowRecentFailureBonus : Int
  thermalHeadroom : Int
  hostFairness : Int
  regionalPreference : Int
  deriving DecidableEq

def SchedulerWeights.zero : SchedulerWeights := ⟨0, 0, 0, 0, 0, 0, 0⟩

def defaultSchedulerWeights : SchedulerWeights := ⟨40, 20, 15, 10, 5, 5, 5⟩

/-- The score in ten-thousandths: every term but the success rate is one. -/
def scoreCandidate (c : Candidate) (w : SchedulerWeights) : Int :=
  w.warmModelBonus * 10000 + w.rollingSuccessRate * c.rollingSuccessRate +
    w.normalizedTokensPerSecond * 10000 + w.lowRecentFailureBonus * 10000 +
    w.thermalHeadroom * 10000 + w.hostFairness * 10000 + w.regionalPreference * 10000

def ranksBefore (w : SchedulerWeights) (left right : Candidate) : Bool :=
  if scoreCandidate left w = scoreCandidate right w then left.nodeID < right.nodeID
  else scoreCandidate left w > scoreCandidate right w

def bestOf (w : SchedulerWeights) : List Candidate → Option Candidate
  | [] => none
  | c :: rest =>
    match bestOf w rest with
    | none => some c
    | some d => if ranksBefore w d c then some d else some c

/-- The head of the candidates after the stable sort of the source. -/
def Scheduler.choose (weights : SchedulerWeights) (candidates : List Candidate) :
    Option Candidate :=
  bestOf (if weights = .zero then defaultSchedulerWeights else weights) candidates

theorem mem_of_choose {weights : SchedulerWeights} {candidates : List Candidate} {c : Candidate}
    (chosen : Scheduler.choose weights candidates = some c) : c ∈ candidates := by
  unfold Scheduler.choose at chosen
  generalize (if weights = SchedulerWeights.zero then _ else _) = w at chosen
  induction candidates with
  | nil => cases chosen
  | cons d rest ih =>
    simp only [bestOf] at chosen
    split at chosen
    · simp only [Option.some.injEq] at chosen
      simp [chosen]
    next e later =>
      split at chosen
      · exact List.mem_cons_of_mem _ (ih (later.trans chosen))
      · simp only [Option.some.injEq] at chosen
        simp [chosen]

end Thirdshift
