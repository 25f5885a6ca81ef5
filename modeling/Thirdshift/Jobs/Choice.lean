import Mathlib.Data.List.Sort
import Mathlib.Data.Prod.Lex
import Mathlib.Data.String.Basic
import Thirdshift.Jobs.Machine

/-!
# The choice of a node

The source filters the candidates in place, sorts what is left with a stable sort and takes the
first. The loop over the shared array keeps what a filter keeps, because it writes behind the place
it reads. The first element after the sort is a greatest one by score with ties broken by the node's
identifier, so which node it is depends on the set of candidates only.
-/

namespace Thirdshift

open Foundation List Memory

variable {α : Type} {a b c : Candidate}

/-! ### Filtering in place -/

section

variable (keep : α → Bool)

/-- `filtered := candidates[:0]` and the loop that appends to it: `n` elements are left to read, the
next one at `i`, and `k` have been kept. -/
def filterLoop : Nat → Nat → Nat → List α → List α
  | 0, _, k, array => array.take k
  | n + 1, i, k, array =>
    match array[i]? with
    | some c => if keep c then filterLoop n (i + 1) (k + 1) (array.set k c)
      else filterLoop n (i + 1) k array
    | none => array.take k

def filterInPlace (candidates : List α) : List α := filterLoop keep candidates.length 0 0 candidates

variable {keep}

theorem filterLoop_eq {n i k : Nat} {array rest : List α} (behind : k ≤ i)
    (unread : array.drop i = rest) (left : rest.length = n) :
    filterLoop keep n i k array = array.take k ++ rest.filter keep := by
  induction n generalizing i k array rest with
  | zero =>
    rw [filterLoop, eq_nil_of_length_eq_zero left, filter_nil, append_nil]
  | succ n ih =>
    obtain ⟨c, rest, rfl⟩ := exists_cons_of_length_eq_add_one left
    have inside : i < array.length := by
      by_contra far
      rw [drop_eq_nil_of_le (by omega)] at unread
      cases unread
    have here : array[i]? = some c := by
      rw [← head?_drop, unread, head?_cons]
    have after : array.drop (i + 1) = rest := by
      rw [← drop_drop, unread, drop_one, tail_cons]
    have fewer : rest.length = n := by simpa using left
    rw [filterLoop, here]
    dsimp only
    split
    next kept =>
      -- The write at `k` is behind what is still to be read.
      have unread' : (array.set k c).drop (i + 1) = rest := by
        rw [drop_set_of_lt (by omega), after]
      rw [ih (by omega) unread' fewer, filter_cons_of_pos kept, take_add_one,
        take_set_of_le (by omega), getElem?_set_self (by omega)]
      simp
    next dropped => rw [ih (by omega) after fewer, filter_cons_of_neg dropped]

theorem filterInPlace_eq (candidates : List α) :
    filterInPlace keep candidates = candidates.filter keep := by
  have whole : filterLoop keep candidates.length 0 0 candidates =
      candidates.take 0 ++ candidates.filter keep :=
    filterLoop_eq (Nat.le_refl 0) drop_zero rfl
  rwa [take_zero, nil_append] at whole

end

/-! ### Sorting and choosing -/

section

variable [LinearOrder α] (score : Candidate → α)

def ranksBy (left right : Candidate) : Bool :=
  if score left = score right then left.nodeID < right.nodeID else score right < score left

/-- `Choose`: the first candidate after a stable sort. -/
def chooseBy (candidates : List Candidate) : Option Candidate :=
  (candidates.insertionSort fun a b => ranksBy score b a = false).head?

/-- The place of a candidate in the order: greater scores first, then smaller identifiers. -/
def rank (c : Candidate) : Lex (αᵒᵈ × String) := toLex (OrderDual.toDual (score c), c.nodeID)

variable {score}

theorem ranksBy_iff : ranksBy score a b = true ↔ rank score a < rank score b := by
  unfold ranksBy rank
  rw [Prod.Lex.toLex_lt_toLex, OrderDual.toDual_lt_toDual]
  split
  next same => simp [same]
  next other =>
    have apart : OrderDual.toDual (score a) ≠ OrderDual.toDual (score b) := other
    simp [other]

theorem not_ranksBy_iff : ranksBy score b a = false ↔ rank score a ≤ rank score b := by
  rw [← not_lt, ← ranksBy_iff, Bool.not_eq_true]

variable {candidates : List Candidate}

theorem best_of_chooseBy (chosen : chooseBy score candidates = some c) :
    c ∈ candidates ∧ ∀ d ∈ candidates, rank score c ≤ rank score d := by
  unfold chooseBy at chosen
  induction candidates generalizing c with
  | nil => cases chosen
  | cons a rest ih =>
    rw [insertionSort_cons] at chosen
    cases sorted : rest.insertionSort fun a b => ranksBy score b a = false with
    | nil =>
      have empty : rest = [] := by
        have perm := perm_insertionSort (fun a b => ranksBy score b a = false) rest
        rw [sorted] at perm
        exact perm.symm.eq_nil
      subst empty
      rw [sorted] at chosen
      cases chosen
      simp
    | cons d tail =>
      obtain ⟨member, best⟩ := ih (c := d) (by rw [sorted]; rfl)
      rw [sorted, List.orderedInsert] at chosen
      split at chosen
      next first =>
        cases chosen
        have ahead := not_ranksBy_iff.mp first
        refine ⟨mem_cons_self, forall_mem_cons.mpr ⟨le_rfl, fun e inside => ?_⟩⟩
        exact ahead.trans (best e inside)
      next later =>
        cases chosen
        have ahead := ranksBy_iff.mp (Bool.not_eq_false _ ▸ later)
        exact ⟨mem_cons_of_mem _ member, forall_mem_cons.mpr ⟨ahead.le, best⟩⟩

theorem chooseBy_eq_none : chooseBy score candidates = none ↔ candidates = [] := by
  unfold chooseBy
  rw [head?_eq_none_iff]
  constructor
  · intro empty
    have perm := perm_insertionSort (fun a b => ranksBy score b a = false) candidates
    rw [empty] at perm
    exact perm.symm.eq_nil
  · rintro rfl
    rfl

end

theorem choose_eq_chooseBy (weights : SchedulerWeights) (candidates : List Candidate) :
    Scheduler.choose weights candidates = chooseBy (fun c => scoreCandidate c
      (if weights = .zero then defaultSchedulerWeights else weights)) candidates := by
  unfold Scheduler.choose chooseBy
  generalize (if weights = SchedulerWeights.zero then _ else _) = w
  induction candidates with
  | nil => rfl
  | cons c rest ih =>
    rw [bestOf, ih, insertionSort_cons]
    cases rest.insertionSort fun a b => ranksBy (fun c => scoreCandidate c w) b a = false with
    | nil => rfl
    | cons d tail =>
      have same : ranksBefore w d c = ranksBy (fun c => scoreCandidate c w) d c := rfl
      rw [head?_cons, List.orderedInsert]
      dsimp only
      rw [same]
      cases ranksBy (fun c => scoreCandidate c w) d c <;> rfl

/-! ### The reservation -/

/-- Not excluded for the job, attached through the session its row names, and not marked active. -/
structure Memory.Admissible (m : Memory) (ref : Nat) (c : Candidate) : Prop where
  excluded : ∀ run, m.runStates[ref]? = some run → c.nodeID ∉ run.excluded
  attached : c.sessionID ≠ "" ∧ m.sessions c.nodeID = some c.sessionID
  idle : m.activeByNode c.nodeID = none

/-- The section of `scheduleAttemptInternal` under the mutex that reserves a node. -/
def reserveBy {α : Type} [LinearOrder α] (score : Candidate → α) (m : Memory) (ref : Nat)
    (jobID : JobID) (candidates : List Candidate) : Memory × Option Candidate :=
  let excluded := ((m.runStates[ref]?).map RunState.excluded).getD []
  let filtered := filterInPlace (fun c => c.nodeID ∉ excluded && m.free c) candidates
  match chooseBy score filtered with
  | some chosen =>
    ((m.setActive chosen.nodeID ⟨jobID, ""⟩).updateRun ref
      (fun run => { run with attempts := run.attempts + 1 }), some chosen)
  | none => (m, none)

theorem run_reserve (weights : SchedulerWeights) (m : Memory) (ref : Nat) (jobID : JobID)
    (candidates : List Candidate) :
    MemCall.run weights m (.reserve ref jobID candidates) =
      reserveBy (fun c => scoreCandidate c
        (if weights = .zero then defaultSchedulerWeights else weights)) m ref jobID candidates := by
  simp only [MemCall.run, reserveBy, filterInPlace_eq, choose_eq_chooseBy]
  rfl

/-- The node is marked active for the job, the run counts one more attempt, and nothing else is
different. -/
structure Memory.OnlyReserves (m m' : Memory) (ref : Nat) (jobID : JobID) (nodeID : NodeID) :
    Prop where
  active : m'.activeByNode nodeID = some ⟨jobID, ""⟩
  others : ∀ n, n ≠ nodeID → m'.activeByNode n = m.activeByNode n
  run : m'.runStates[ref]? =
    (m.runStates[ref]?).map fun run => { run with attempts := run.attempts + 1 }
  runs : ∀ other, other ≠ ref → m'.runStates[other]? = m.runStates[other]?
  maps : m'.sessions = m.sessions ∧ m'.pending = m.pending ∧ m'.runs = m.runs ∧
    m'.duplicates = m.duplicates ∧ m'.channels = m.channels

section

variable [LinearOrder α] {score : Candidate → α} {m : Memory} {ref : Nat} {jobID : JobID}
  {candidates : List Candidate}

theorem onlyReserves (m : Memory) (ref : Nat) (jobID : JobID) (nodeID : NodeID) :
    m.OnlyReserves ((m.setActive nodeID ⟨jobID, ""⟩).updateRun ref
      (fun run => { run with attempts := run.attempts + 1 })) ref jobID nodeID where
  active := by simp [setActive, updateRun]
  others n other := by simp [setActive, updateRun, other]
  run := by simp [setActive, updateRun]
  runs n other := by simp [setActive, updateRun, Ne.symm other]
  maps := ⟨rfl, rfl, rfl, rfl, rfl⟩

theorem mem_filtered :
    c ∈ filterInPlace (fun c => decide (c.nodeID ∉ ((m.runStates[ref]?).map RunState.excluded).getD [])
      && m.free c) candidates ↔ c ∈ candidates ∧ m.Admissible ref c := by
  rw [filterInPlace_eq, mem_filter]
  refine and_congr_right fun _ => ?_
  simp only [free, Bool.and_eq_true, decide_eq_true_eq, Option.isNone_iff_eq_none]
  constructor
  · rintro ⟨free, attached, idle⟩
    refine ⟨fun run found => ?_, attached, idle⟩
    rwa [found] at free
  · rintro ⟨excluded, attached, idle⟩
    refine ⟨?_, attached, idle⟩
    cases found : m.runStates[ref]? with
    | none => simp
    | some run => exact excluded run found

theorem reserveBy_cases (score : Candidate → α) (m : Memory) (ref : Nat) (jobID : JobID)
    (candidates : List Candidate) :
    (reserveBy score m ref jobID candidates = (m, none) ∧ ∀ c ∈ candidates, ¬ m.Admissible ref c) ∨
    ∃ c ∈ candidates, (reserveBy score m ref jobID candidates).2 = some c ∧ m.Admissible ref c ∧
      (∀ d ∈ candidates, m.Admissible ref d → rank score c ≤ rank score d) ∧
      (reserveBy score m ref jobID candidates).1 = (m.setActive c.nodeID ⟨jobID, ""⟩).updateRun ref
        (fun run => { run with attempts := run.attempts + 1 }) := by
  unfold reserveBy
  dsimp only
  split
  next chosen best =>
    obtain ⟨member, least⟩ := best_of_chooseBy best
    obtain ⟨inside, admissible⟩ := mem_filtered.mp member
    refine Or.inr ⟨chosen, inside, rfl, admissible, fun d there fits => ?_, rfl⟩
    exact least d (mem_filtered.mpr ⟨there, fits⟩)
  next none =>
    refine Or.inl ⟨rfl, fun c inside admissible => ?_⟩
    have member := mem_filtered.mpr ⟨inside, admissible⟩
    rw [chooseBy_eq_none.mp none] at member
    cases member

end

/-- The scheduler picks the best admissible node, whatever the order of the candidates, and changes
only the entries of that node and of the job's run. -/
theorem scheduler_picks_best {α : Type} [LinearOrder α] (score : Candidate → α) (m : Memory)
    (ref : Nat) (jobID : JobID) (candidates : List Candidate) :
    ((reserveBy score m ref jobID candidates).2 = none ↔
      ∀ c ∈ candidates, ¬ m.Admissible ref c) ∧
    ((reserveBy score m ref jobID candidates).2 = none →
      (reserveBy score m ref jobID candidates).1 = m) ∧
    (∀ c, (reserveBy score m ref jobID candidates).2 = some c →
      c ∈ candidates ∧ m.Admissible ref c ∧
      (∀ d ∈ candidates, m.Admissible ref d →
        score d ≤ score c ∧ (score d = score c → c.nodeID ≤ d.nodeID)) ∧
      m.OnlyReserves (reserveBy score m ref jobID candidates).1 ref jobID c.nodeID) ∧
    ∀ reordered : List Candidate, (∀ c, c ∈ reordered ↔ c ∈ candidates) →
      (reserveBy score m ref jobID reordered).2.map Candidate.nodeID =
        (reserveBy score m ref jobID candidates).2.map Candidate.nodeID ∧
      (reserveBy score m ref jobID reordered).1 = (reserveBy score m ref jobID candidates).1 := by
  have byScore : ∀ {c d : Candidate}, rank score c ≤ rank score d →
      score d ≤ score c ∧ (score d = score c → c.nodeID ≤ d.nodeID) := by
    intro c d ahead
    rcases Prod.Lex.toLex_le_toLex.mp ahead with greater | ⟨same, smaller⟩
    · have above : score d < score c := greater
      exact ⟨above.le, fun same => absurd same above.ne⟩
    · have equal : score c = score d := same
      exact ⟨equal.ge, fun _ => smaller⟩
  refine ⟨?_, ?_, ?_, ?_⟩
  · rcases reserveBy_cases score m ref jobID candidates with ⟨none, nothing⟩ | ⟨c, inside, some, fits, -⟩
    · rw [none]
      exact iff_of_true rfl nothing
    · rw [some]
      exact iff_of_false (by simp) fun nothing => nothing c inside fits
  · intro none
    rcases reserveBy_cases score m ref jobID candidates with ⟨unchanged, -⟩ | ⟨c, -, some, -⟩
    · rw [unchanged]
    · rw [some] at none
      cases none
  · intro c chosen
    rcases reserveBy_cases score m ref jobID candidates with
      ⟨none, -⟩ | ⟨d, inside, some, fits, least, after⟩
    · rw [none] at chosen
      cases chosen
    · rw [some] at chosen
      cases chosen
      rw [after]
      exact ⟨inside, fits, fun d there admissible => byScore (least d there admissible),
        onlyReserves m ref jobID _⟩
  · intro reordered same
    rcases reserveBy_cases score m ref jobID candidates with
      ⟨none, nothing⟩ | ⟨c, inside, some, fits, least, after⟩ <;>
    rcases reserveBy_cases score m ref jobID reordered with
      ⟨none', nothing'⟩ | ⟨c', inside', some', fits', least', after'⟩
    · rw [none, none']
      exact ⟨rfl, rfl⟩
    · exact absurd fits' (nothing c' ((same c').mp inside'))
    · exact absurd fits (nothing' c ((same c).mpr inside))
    · -- Two best candidates have the same rank, so they are rows of one node.
      have equal : rank score c = rank score c' :=
        (least c' ((same c').mp inside') fits').antisymm (least' c ((same c).mpr inside) fits)
      have node : c'.nodeID = c.nodeID := by
        have pair := (Prod.mk.inj (toLex.injective equal)).2
        exact pair.symm
      rw [some, some', after, after', node]
      exact ⟨by simp [node], rfl⟩

end Thirdshift
