import Mathlib.Algebra.Order.Ring.Int

/-!
# Interleaved programs

A program is a tree of calls: it either returns or performs one atomic call and continues with the
response. A machine says what each call does to a shared state; a configuration is the shared state
and the list of threads. Threads are started at any time and scheduled in any order, and every
call takes an input that stands for what the machine does not control (clocks, fresh identifiers,
faults, messages), so a theorem about all runs is a theorem about every interleaving.

`Prog.Obeys` reasons about one thread against arbitrary responses: what a thread has observed so
far constrains the call it makes next. `Run.obeys` carries that to every event of every run.
-/

namespace Foundation

open List Option

structure Signature where
  Op : Type
  Resp : Op → Type

inductive Prog (S : Signature) (α : Type) : Type
  | ret (a : α)
  | call (op : S.Op) (k : S.Resp op → Prog S α)

/-- A call a thread has performed, with the response it received. -/
structure Obs (S : Signature) where
  op : S.Op
  resp : S.Resp op

namespace Prog

variable {S : Signature} {α β : Type}

def bind : Prog S α → (α → Prog S β) → Prog S β
  | .ret a, f => f a
  | .call op k, f => .call op (fun r => bind (k r) f)

instance : Monad (Prog S) where
  pure := .ret
  bind := bind

@[simp] theorem pure_eq (a : α) : (pure a : Prog S α) = .ret a := rfl

@[simp] theorem ret_bind (a : α) (f : α → Prog S β) : (.ret a : Prog S α) >>= f = f a := rfl

@[simp] theorem call_bind (op : S.Op) (k : S.Resp op → Prog S α) (f : α → Prog S β) :
    (.call op k : Prog S α) >>= f = .call op (fun r => k r >>= f) := rfl

def perform (op : S.Op) : Prog S (S.Resp op) := .call op .ret

/-- Along every branch of the program, started after the observations `past`, each call satisfies
`I` at the observations made before it, and the result satisfies `Q` at those made in all. -/
def Obeys (I : List (Obs S) → S.Op → Prop) (Q : List (Obs S) → α → Prop) :
    Prog S α → List (Obs S) → Prop
  | .ret a, past => Q past a
  | .call op k, past => I past op ∧ ∀ r, Obeys I Q (k r) (past ++ [⟨op, r⟩])

variable {I : List (Obs S) → S.Op → Prop}

variable {Q : List (Obs S) → α → Prop} {R : List (Obs S) → β → Prop} {f : α → Prog S β}
  {p : Prog S α} {past : List (Obs S)} {op : S.Op}

theorem Obeys.bind (first : Obeys I Q p past)
    (rest : ∀ a past', past <+: past' → Q past' a → Obeys I R (f a) past') :
    Obeys I R (p >>= f) past := by
  induction p generalizing past with
  | ret a => exact rest a past (prefix_refl past) first
  | call op k ih =>
    refine ⟨first.1, fun r => ih r (first.2 r) fun a past' extends' post => ?_⟩
    exact rest a past' ((prefix_append past _).trans extends') post

theorem Obeys.mono {I' : List (Obs S) → S.Op → Prop} {Q' : List (Obs S) → α → Prop}
    (obeys : Obeys I Q p past) (weakerCall : ∀ past op, I past op → I' past op)
    (weaker : ∀ past a, Q past a → Q' past a) : Obeys I' Q' p past := by
  induction p generalizing past with
  | ret a => exact weaker past a obeys
  | call op k ih => exact ⟨weakerCall past op obeys.1, fun r => ih r (obeys.2 r)⟩

theorem Obeys.keeping {K : List (Obs S) → Prop} (obeys : Obeys I Q p past) (start : K past)
    (keep : ∀ past op r, I past op → K past → K (past ++ [⟨op, r⟩])) :
    Obeys (fun past op => I past op ∧ K past) (fun past a => Q past a ∧ K past) p past := by
  induction p generalizing past with
  | ret a => exact ⟨obeys, start⟩
  | call op k ih =>
    exact ⟨⟨obeys.1, start⟩, fun r => ih r (obeys.2 r) (keep past op r obeys.1 start)⟩

theorem Obeys.and {I' : List (Obs S) → S.Op → Prop} {Q' : List (Obs S) → α → Prop}
    (obeys : Obeys I Q p past) (obeys' : Obeys I' Q' p past) :
    Obeys I (fun past a => Q past a ∧ Q' past a) p past := by
  induction p generalizing past with
  | ret a => exact ⟨obeys, obeys'⟩
  | call op k ih => exact ⟨obeys.1, fun r => ih r (obeys.2 r) (obeys'.2 r)⟩

theorem Obeys.unbind (whole : Obeys I R (p >>= f) past) :
    Obeys I (fun past' a => Obeys I R (f a) past') p past := by
  induction p generalizing past with
  | ret a => exact whole
  | call op k ih => exact ⟨whole.1, fun r => ih r (whole.2 r)⟩

theorem obeys_call {R : List (Obs S) → α → Prop} {f : S.Resp op → Prog S α} (allowed : I past op)
    (rest : ∀ r, Obeys I R (f r) (past ++ [⟨op, r⟩])) : Obeys I R (perform op >>= f) past :=
  ⟨allowed, rest⟩

theorem Obeys.after {R : List (Obs S) → α → Prop} {f : S.Resp op → Prog S α}
    (whole : Obeys I R (perform op >>= f) past) (r : S.Resp op) :
    Obeys I R (f r) (past ++ [⟨op, r⟩]) := whole.2 r

theorem obeys_then {R : List (Obs S) → α → Prop} {f : S.Resp op → Prog S α} (allowed : I past op)
    (rest : ∀ r past', past <+: past' → Obeys I R (f r) past') : Obeys I R (perform op >>= f) past :=
  obeys_call allowed fun r => rest r _ (prefix_append past _)

abbrev Heeds (I : List (Obs S) → S.Op → Prop) (p : Prog S α) (past : List (Obs S)) : Prop :=
  Obeys I (fun _ _ => True) p past

/-- Every call is allowed wherever the program is run. -/
def Safe (I : List (Obs S) → S.Op → Prop) (p : Prog S α) : Prop :=
  ∀ past, Obeys I (fun _ _ => True) p past

theorem safe_ret {a : α} : Safe I (.ret a) := fun _ => trivial

theorem safe_perform (allowed : ∀ past, I past op) : Safe I (perform op) :=
  fun past => ⟨allowed past, fun _ => trivial⟩

theorem safe_call {f : S.Resp op → Prog S α} (allowed : ∀ past, I past op)
    (rest : ∀ r, Safe I (f r)) : Safe I (perform op >>= f) :=
  fun past => obeys_call (allowed past) fun r => rest r _

theorem Safe.before (first : Safe I p) (rest : ∀ a past', past <+: past' → Obeys I R (f a) past') :
    Obeys I R (p >>= f) past :=
  (first past).bind fun a past' extends' _ => rest a past' extends'

/-- The program makes the calls in turn, is answered as they say, and returns. -/
inductive Returns : Prog S α → List (Obs S) → α → Prop
  | ret (a : α) : Returns (.ret a) [] a
  | call {op : S.Op} {k : S.Resp op → Prog S α} {r : S.Resp op} {rest : List (Obs S)} {a : α}
      (returns : Returns (k r) rest a) : Returns (.call op k) (⟨op, r⟩ :: rest) a

theorem returns_call {f : S.Resp op → Prog S α} {seen : List (Obs S)} {a : α}
    (returns : Returns (perform op >>= f) seen a) :
    ∃ r rest, seen = ⟨op, r⟩ :: rest ∧ Returns (f r) rest a := by
  cases returns with
  | call returns => exact ⟨_, _, rfl, returns⟩

theorem returns_bind {seen : List (Obs S)} {b : β} (returns : Returns (p >>= f) seen b) :
    ∃ a rest, Returns (f a) rest b := by
  induction p generalizing seen with
  | ret a => exact ⟨a, seen, returns⟩
  | call op k ih =>
    cases returns with
    | call returns => exact ih _ returns

/-- Along every branch whose responses are admissible, the result satisfies `Q`. -/
def Yields (A : (op : S.Op) → S.Resp op → Prop) (Q : α → Prop) : Prog S α → Prop
  | .ret a => Q a
  | .call op k => ∀ r, A op r → Yields A Q (k r)

variable {A : (op : S.Op) → S.Resp op → Prop}

theorem Yields.bind {P : α → Prop} {Q : β → Prop} (first : Yields A P p)
    (rest : ∀ a, P a → Yields A Q (f a)) : Yields A Q (p >>= f) := by
  induction p with
  | ret a => exact rest a first
  | call op k ih => exact fun r admissible => ih r (first r admissible)

theorem yields_call {Q : α → Prop} {f : S.Resp op → Prog S α}
    (rest : ∀ r, A op r → Yields A Q (f r)) : Yields A Q (perform op >>= f) :=
  rest

end Prog

/-- What each call does (`none`: the caller has to wait) and which program each entry starts. -/
structure Machine (S : Signature) (State Input Entry : Type) where
  exec : (op : S.Op) → Input → State → Option (State × S.Resp op)
  program : Entry → Prog S Unit

structure Event (S : Signature) (State Input : Type) where
  thread : Nat
  op : S.Op
  input : Input
  before : State
  after : State
  resp : S.Resp op

inductive Label (S : Signature) (State Input Entry : Type)
  | spawn (entry : Entry)
  | act (event : Event S State Input)

inductive Choice (Input Entry : Type)
  | spawn (entry : Entry)
  | act (thread : Nat) (input : Input)

structure Config (S : Signature) (State : Type) where
  state : State
  threads : List (Prog S Unit)

def Config.boot {S : Signature} {State : Type} (state : State) : Config S State := ⟨state, []⟩

variable {S : Signature} {State Input Entry : Type}

namespace Machine

variable (m : Machine S State Input Entry)

def perform (choice : Choice Input Entry) (c : Config S State) :
    Option (Label S State Input Entry × Config S State) :=
  match choice with
  | .spawn entry => some (.spawn entry, { c with threads := c.threads ++ [m.program entry] })
  | .act i input =>
    match c.threads[i]? with
    | some (.call op k) =>
      match m.exec op input c.state with
      | some (s, r) => some (.act ⟨i, op, input, c.state, s, r⟩, ⟨s, c.threads.set i (k r)⟩)
      | none => none
    | _ => none

def runSchedule : List (Choice Input Entry) → Config S State →
    Option (List (Label S State Input Entry) × Config S State)
  | [], c => some ([], c)
  | choice :: rest, c =>
    match m.perform choice c with
    | some (l, c') => (runSchedule rest c').map (fun result => (l :: result.1, result.2))
    | none => none

inductive Step (c : Config S State) : Label S State Input Entry → Config S State → Prop
  | spawn (entry : Entry) :
      Step c (.spawn entry) { c with threads := c.threads ++ [m.program entry] }
  | act (event : Event S State Input) (k : S.Resp event.op → Prog S Unit)
      (current : c.threads[event.thread]? = some (.call event.op k))
      (start : event.before = c.state)
      (exec : m.exec event.op event.input c.state = some (event.after, event.resp)) :
      Step c (.act event) ⟨event.after, c.threads.set event.thread (k event.resp)⟩

inductive Run (c : Config S State) : List (Label S State Input Entry) → Config S State → Prop
  | nil : Run c [] c
  | snoc {ls c' l c''} (run : Run c ls c') (step : m.Step c' l c'') : Run c (ls ++ [l]) c''

end Machine

namespace Machine

variable {m : Machine S State Input Entry}
  {c c' c'' : Config S State} {ls ls' : List (Label S State Input Entry)}

variable {event : Event S State Input} {l : Label S State Input Entry}
  {schedule : List (Choice Input Entry)}

theorem Step.exec (step : m.Step c (.act event) c') :
    m.exec event.op event.input event.before = some (event.after, event.resp) := by
  cases step with
  | act _ k current start exec => rw [start]; exact exec

theorem Step.start (step : m.Step c (.act event) c') : event.before = c.state := by
  cases step with
  | act _ k current start exec => exact start

theorem step_of_perform {choice : Choice Input Entry}
    (performed : m.perform choice c = some (l, c')) : m.Step c l c' := by
  cases choice with
  | spawn entry =>
    simp only [perform, Option.some.injEq, Prod.mk.injEq] at performed
    obtain ⟨rfl, rfl⟩ := performed
    exact .spawn entry
  | act i input =>
    simp only [perform] at performed
    split at performed
    next op k current =>
      split at performed
      next s r exec =>
        simp only [Option.some.injEq, Prod.mk.injEq] at performed
        obtain ⟨rfl, rfl⟩ := performed
        exact .act ⟨i, op, input, c.state, s, r⟩ k current rfl exec
      · cases performed
    · cases performed

theorem Run.trans (first : m.Run c ls c') (second : m.Run c' ls' c'') : m.Run c (ls ++ ls') c'' := by
  induction second with
  | nil => simpa using first
  | snoc _ step ih => rw [← append_assoc]; exact .snoc ih step

theorem Run.cons (step : m.Step c l c') (run : m.Run c' ls c'') : m.Run c (l :: ls) c'' :=
  Run.trans (.snoc .nil step) run

theorem run_of_schedule (done : m.runSchedule schedule c = some (ls, c')) : m.Run c ls c' := by
  induction schedule generalizing c ls with
  | nil =>
    simp only [runSchedule, Option.some.injEq, Prod.mk.injEq] at done
    obtain ⟨rfl, rfl⟩ := done
    exact .nil
  | cons choice rest ih =>
    simp only [runSchedule] at done
    split at done
    next l mid performed =>
      obtain ⟨⟨tail, last⟩, ran, eq⟩ := map_eq_some_iff.mp done
      simp only [Prod.mk.injEq] at eq
      obtain ⟨rfl, rfl⟩ := eq
      exact Run.cons (step_of_perform performed) (ih ran)
    · cases done

theorem exists_run {check : List (Label S State Input Entry) × Config S State → Bool}
    (ok : (m.runSchedule schedule c).any check = true) :
    ∃ ls c', m.Run c ls c' ∧ check (ls, c') = true := by
  obtain ⟨⟨ls, c'⟩, done, checked⟩ := (any_eq_true _ _).mp ok
  exact ⟨ls, c', run_of_schedule done, checked⟩

theorem Run.split (run : m.Run c ls c') {past rest : List (Label S State Input Entry)}
    (cut : ls = past ++ l :: rest) :
    ∃ mid next, m.Run c past mid ∧ m.Step mid l next ∧ m.Run next rest c' := by
  induction run generalizing rest with
  | nil => simp at cut
  | @snoc before mid last final run step ih =>
    rcases eq_nil_or_concat rest with rfl | ⟨init, tail, rfl⟩
    · rw [← concat_eq_append, ← concat_eq_append, concat_inj] at cut
      obtain ⟨rfl, rfl⟩ := cut
      exact ⟨mid, final, run, step, .nil⟩
    · have parts : before ++ [last] = (past ++ l :: init) ++ [tail] := by simp [cut]
      obtain ⟨rfl, eq⟩ := append_inj' parts rfl
      rw [singleton_inj] at eq
      obtain ⟨start, next, first, here, later⟩ := ih rfl
      rw [concat_eq_append]
      exact ⟨start, next, first, here, .snoc later (eq ▸ step)⟩

/-- Checks the event at place `n` of a run, with the labels before and after it. -/
def cutAt (n : Nat) (check : List (Label S State Input Entry) → Event S State Input →
    List (Label S State Input Entry) → Bool) (ls : List (Label S State Input Entry)) : Bool :=
  match ls.drop n with
  | .act event :: rest => check (ls.take n) event rest
  | _ => false

/-- What is found of the event at some place of a run is found of a way to cut the run. -/
theorem exists_cut {n : Nat} {check : List (Label S State Input Entry) → Event S State Input →
      List (Label S State Input Entry) → Bool} (ok : cutAt n check ls = true) :
    ∃ past event rest, ls = past ++ .act event :: rest ∧ check past event rest = true := by
  unfold cutAt at ok
  split at ok
  next event rest here =>
    refine ⟨ls.take n, event, rest, ?_, ok⟩
    rw [← here, take_append_drop]
  next => cases ok

theorem Run.exec_of_mem (run : m.Run c ls c') (member : .act event ∈ ls) :
    m.exec event.op event.input event.before = some (event.after, event.resp) := by
  induction run with
  | nil => cases member
  | snoc _ step ih =>
    rcases mem_append.mp member with earlier | last
    · exact ih earlier
    · rw [mem_singleton] at last
      subst last
      exact step.exec

theorem Run.state_invariant {I : State → Prop} (run : m.Run c ls c') (start : I c.state)
    (keep : ∀ event : Event S State Input, .act event ∈ ls →
      m.exec event.op event.input event.before = some (event.after, event.resp) →
      I event.before → I event.after) : I c'.state := by
  induction run with
  | nil => exact start
  | snoc run step ih =>
    have before := ih (fun event member => keep event (mem_append_left _ member))
    cases step with
    | spawn entry => exact before
    | act event k current same exec =>
      exact keep event (by simp) (same ▸ exec) (same ▸ before)

end Machine

/-! ### What one thread has seen -/

section

/-- The calls of thread `i`, in order, with their responses. -/
def localTrace (i : Nat) (ls : List (Label S State Input Entry)) : List (Obs S) :=
  ls.filterMap fun
    | .act event => if event.thread = i then some ⟨event.op, event.resp⟩ else none
    | .spawn _ => none

def events (ls : List (Label S State Input Entry)) : List (Event S State Input) :=
  ls.filterMap fun
    | .act event => some event
    | .spawn _ => none

variable {event : Event S State Input} {entry : Entry} {i : Nat} {obs : Obs S}
  {ls : List (Label S State Input Entry)}

theorem mem_events : event ∈ events ls ↔ .act event ∈ ls := by
  simp only [events, mem_filterMap]
  constructor
  · rintro ⟨l, member, same⟩
    cases l with
    | spawn entry => cases same
    | act e =>
      cases same
      exact member
  · exact fun member => ⟨_, member, rfl⟩

theorem events_left {past rest : List (Label S State Input Entry)} (cut : ls = past ++ rest)
    (member : event ∈ events past) : event ∈ events ls := by
  rw [mem_events] at member ⊢
  exact cut ▸ mem_append_left _ member

theorem Machine.Run.around {m : Machine S State Input Entry} {c c' : Config S State}
    (run : m.Run c ls c') (member : event ∈ events ls) :
    ∃ past rest mid next, ls = past ++ .act event :: rest ∧ m.Run c past mid ∧
      m.Step mid (.act event) next := by
  obtain ⟨past, rest, cut⟩ := append_of_mem (mem_events.mp member)
  obtain ⟨mid, next, before, step, -⟩ := run.split cut
  exact ⟨past, rest, mid, next, cut, before, step⟩

@[simp] theorem events_snoc_spawn : events (ls ++ [.spawn entry]) = events ls := by
  simp [events]

@[simp] theorem events_snoc_act : events (ls ++ [.act event]) = events ls ++ [event] := by
  simp [events]

/-- An event of the run satisfies `P`. -/
def Happened (P : Event S State Input → Prop) (ls : List (Label S State Input Entry)) : Prop :=
  ∃ event ∈ events ls, P event

section

variable {P : Event S State Input → Prop}

instance (ls : List (Label S State Input Entry)) [DecidablePred P] : Decidable (Happened P ls) :=
  inferInstanceAs (Decidable (∃ event ∈ events ls, P event))

@[simp] theorem happened_nil : ¬Happened P ([] : List (Label S State Input Entry)) := by
  simp [Happened, events]

@[simp] theorem happened_snoc_spawn : Happened P (ls ++ [.spawn entry]) ↔ Happened P ls := by
  simp [Happened]

@[simp] theorem happened_snoc_act : Happened P (ls ++ [.act event]) ↔ Happened P ls ∨ P event := by
  simp [Happened, or_and_right, exists_or]

theorem Happened.append (happened : Happened P ls)
    (rest : List (Label S State Input Entry)) : Happened P (ls ++ rest) := by
  obtain ⟨event, member, holds⟩ := happened
  exact ⟨event, events_left rfl member, holds⟩

end

/-- The entries started, in order: thread `i` runs the `i`-th of them. -/
def entries (ls : List (Label S State Input Entry)) : List Entry :=
  ls.filterMap fun
    | .spawn entry => some entry
    | .act _ => none

@[simp] theorem localTrace_snoc_spawn : localTrace i (ls ++ [.spawn entry]) = localTrace i ls := by
  simp [localTrace]

@[simp] theorem localTrace_snoc_act : localTrace i (ls ++ [.act event]) =
      localTrace i ls ++ if event.thread = i then [⟨event.op, event.resp⟩] else [] := by
  by_cases mine : event.thread = i <;> simp [localTrace, mine]

theorem mem_localTrace : obs ∈ localTrace i ls ↔
      Happened (fun event => event.thread = i ∧ obs = ⟨event.op, event.resp⟩) ls := by
  simp only [localTrace, mem_filterMap]
  constructor
  · rintro ⟨l, member, same⟩
    cases l with
    | spawn entry => cases same
    | act event =>
      obtain ⟨mine, same⟩ := ite_none_right_eq_some.mp same
      exact ⟨event, mem_events.mpr member, mine, (Option.some.inj same).symm⟩
  · rintro ⟨event, member, mine, rfl⟩
    exact ⟨.act event, mem_events.mp member, by simp [mine]⟩

theorem localTrace_eq_append {earlier later : List (Obs S)}
    (cut : localTrace i ls = earlier ++ obs :: later) :
    ∃ past event rest, ls = past ++ .act event :: rest ∧ event.thread = i ∧
      obs = ⟨event.op, event.resp⟩ ∧ localTrace i past = earlier := by
  obtain ⟨past, tail, rfl, left, right⟩ := filterMap_eq_append_iff.mp cut
  obtain ⟨front, l, rest, rfl, silent, here, -⟩ := filterMap_eq_cons_iff.mp right
  cases l with
  | spawn entry => cases here
  | act event =>
    obtain ⟨mine, same⟩ := ite_none_right_eq_some.mp here
    refine ⟨past ++ front, event, rest, by simp, mine, (Option.some.inj same).symm, ?_⟩
    rw [localTrace, filterMap_append, left, filterMap_eq_nil_iff.mpr silent,
      append_nil]

theorem localTrace_of_append (i : Nat) (ls rest : List (Label S State Input Entry)) :
    localTrace i ls <+: localTrace i (ls ++ rest) := by
  rw [localTrace, localTrace, filterMap_append]
  exact prefix_append _ _

/-- What can be read off a call a thread has seen can be read off an event of the run. -/
theorem happened_of_seen {α : Type} (f : (op : S.Op) → S.Resp op → α)
    (seen : obs ∈ localTrace i ls) :
    Happened (fun event => f event.op event.resp = f obs.op obs.resp) ls := by
  obtain ⟨event, member, -, rfl⟩ := mem_localTrace.mp seen
  exact ⟨event, member, rfl⟩

@[simp] theorem entries_snoc_spawn : entries (ls ++ [.spawn entry]) = entries ls ++ [entry] := by
  simp [entries]

@[simp] theorem entries_snoc_act : entries (ls ++ [.act event]) = entries ls := by
  simp [entries]

theorem entry_kept (started : (entries ls)[i]? = some entry)
    (rest : List (Label S State Input Entry)) : (entries (ls ++ rest))[i]? = some entry := by
  rw [entries, filterMap_append, getElem?_append_left]
  · exact started
  · exact (List.getElem?_eq_some_iff.mp started).1

variable {m : Machine S State Input Entry} {s : State} {c : Config S State}

theorem Machine.Run.length_threads (run : m.Run (.boot s) ls c) :
    c.threads.length = (entries ls).length := by
  induction run with
  | nil => rfl
  | snoc _ step ih => cases step <;> simp [ih]

theorem Machine.Run.localTrace_unstarted (run : m.Run (.boot s) ls c)
    (unstarted : (entries ls).length ≤ i) : localTrace i ls = [] := by
  rw [← run.length_threads] at unstarted
  induction run with
  | nil => rfl
  | snoc _ step ih =>
    cases step with
    | spawn entry =>
      simp only [length_append] at unstarted
      simpa using ih (by omega)
    | act event k current start exec =>
      simp only [length_set] at unstarted
      have inside := (List.getElem?_eq_some_iff.mp current).1
      have other : event.thread ≠ i := by omega
      simpa [other] using ih unstarted

variable {I : Entry → List (Obs S) → S.Op → Prop} {Q : Entry → List (Obs S) → Unit → Prop}

section

variable (program : ∀ entry, (m.program entry).Obeys (I entry) (Q entry) [])
  (run : m.Run (.boot s) ls c)
include program run

/-- In every run, what remains of each thread obeys what its program obeys from the start. -/
theorem Machine.Run.thread_obeys {p : Prog S Unit} (current : c.threads[i]? = some p) :
    ∃ entry, (entries ls)[i]? = some entry ∧ p.Obeys (I entry) (Q entry) (localTrace i ls) := by
  induction run generalizing p with
  | nil => simp [Config.boot] at current
  | @snoc past mid l final run step ih =>
    have count := run.length_threads
    cases step with
    | spawn entry =>
      simp only [localTrace_snoc_spawn, entries_snoc_spawn]
      -- an older thread, the one that is spawned, or none
      rcases Nat.lt_trichotomy i mid.threads.length with old | here | beyond
      · rw [getElem?_append_left old] at current
        rw [getElem?_append_left (count ▸ old)]
        exact ih current
      · subst here
        simp only [getElem?_concat_length, Option.some.injEq] at current
        subst current
        refine ⟨entry, by rw [count]; simp, ?_⟩
        rw [run.localTrace_unstarted (Nat.le_of_eq count.symm)]
        exact program entry
      · have outside := (List.getElem?_eq_some_iff.mp current).1
        simp only [length_append, length_singleton] at outside
        omega
    | act event k performing start exec =>
      simp only [localTrace_snoc_act, entries_snoc_act]
      by_cases mine : event.thread = i
      · -- its program goes on from the response, which is now part of what it has seen
        subst mine
        have inside := (List.getElem?_eq_some_iff.mp performing).1
        simp only [getElem?_set_self inside, Option.some.injEq] at current
        obtain ⟨entry, started, obeys⟩ := ih performing
        exact ⟨entry, started, by simpa [← current] using obeys.2 event.resp⟩
      · simp only [ne_eq, mine, not_false_eq_true, getElem?_set_ne] at current
        simpa [mine] using ih current

/-- A step after a run is a call its thread was allowed to make after what it had seen. -/
theorem Machine.Run.allowed {c' : Config S State} (step : m.Step c (.act event) c') :
    ∃ entry, (entries ls)[event.thread]? = some entry ∧
      I entry (localTrace event.thread ls) event.op := by
  cases step with
  | act _ k current start exec =>
    obtain ⟨entry, started, obeys⟩ := run.thread_obeys program current
    exact ⟨entry, started, obeys.1⟩

end

end

/-! ### Conditions on every step of a run -/

section

/-- `P` holds of every event, given the labels before it. -/
def Along (P : List (Label S State Input Entry) → Event S State Input → Prop)
    (ls : List (Label S State Input Entry)) : Prop :=
  ∀ past event rest, ls = past ++ .act event :: rest → P past event

variable {P : List (Label S State Input Entry) → Event S State Input → Prop}

theorem along_nil : Along P [] := by
  intro past event rest cut
  simp at cut

variable {ls : List (Label S State Input Entry)}
  {I : List (Label S State Input Entry) → State → Prop} {m : Machine S State Input Entry}

theorem Along.left {rest : List (Label S State Input Entry)} (all : Along P (ls ++ rest)) :
    Along P ls :=
  fun past event tail cut => all past event (tail ++ rest) (by simp [cut])

theorem along_snoc_spawn {entry : Entry} : Along P (ls ++ [.spawn entry]) ↔ Along P ls := by
  constructor
  · intro all past event rest cut
    exact all past event (rest ++ [.spawn entry]) (by simp [cut])
  · intro all past event rest cut
    rcases eq_nil_or_concat rest with rfl | ⟨init, last, rfl⟩
    · obtain ⟨_, eq⟩ := append_inj' cut rfl
      simp at eq
    · have parts : ls ++ [.spawn entry] = (past ++ .act event :: init) ++ [last] := by simp [cut]
      exact all past event init (append_inj' parts rfl).1

theorem along_snoc_act {event : Event S State Input} :
    Along P (ls ++ [.act event]) ↔ Along P ls ∧ P ls event := by
  constructor
  · intro all
    exact ⟨fun past e rest cut => all past e (rest ++ [.act event]) (by simp [cut]),
      all ls event [] rfl⟩
  · rintro ⟨all, here⟩ past e rest cut
    rcases eq_nil_or_concat rest with rfl | ⟨init, last, rfl⟩
    · obtain ⟨rfl, eq⟩ := append_inj' cut rfl
      simp only [List.cons.injEq, Label.act.injEq, and_true] at eq
      exact eq ▸ here
    · have parts : ls ++ [.act event] = (past ++ .act e :: init) ++ [last] := by simp [cut]
      exact all past e init (append_inj' parts rfl).1

/-- The rule for properties of a run: what holds at the start and is kept by every event, given the
condition on it, holds of the labels and the state at the end. -/
theorem Machine.Run.along_invariant {c c' : Config S State} (run : m.Run c ls c')
    (along : Along P ls) (start : I [] c.state)
    (spawn : ∀ past mid entry, m.Run c past mid → I past mid.state →
      I (past ++ [.spawn entry]) mid.state)
    (act : ∀ past event mid next, m.Run c past mid → m.Step mid (.act event) next →
      P past event → I past event.before → I (past ++ [.act event]) event.after) :
    I ls c'.state := by
  induction run with
  | nil => exact start
  | @snoc past mid l next run step ih =>
    cases step with
    | spawn entry => exact spawn past mid entry run (ih (along_snoc_spawn.mp along))
    | act event k current same exec =>
      obtain ⟨before, here⟩ := along_snoc_act.mp along
      exact act past event mid _ run (.act event k current same exec) here (same ▸ ih before)

theorem Machine.Run.invariant {c c' : Config S State} (run : m.Run c ls c') (start : I [] c.state)
    (spawn : ∀ past mid entry, m.Run c past mid → I past mid.state →
      I (past ++ [.spawn entry]) mid.state)
    (act : ∀ past event mid next, m.Run c past mid → m.Step mid (.act event) next →
      I past event.before → I (past ++ [.act event]) event.after) : I ls c'.state :=
  run.along_invariant (P := fun _ _ => True) (fun _ _ _ _ => trivial) start spawn
    fun past event mid next before step _ => act past event mid next before step

def alongFrom (p : List (Label S State Input Entry) → Event S State Input → Bool)
    (past : List (Label S State Input Entry)) : List (Label S State Input Entry) → Bool
  | [] => true
  | .spawn entry :: rest => alongFrom p (past ++ [.spawn entry]) rest
  | .act event :: rest => p past event && alongFrom p (past ++ [.act event]) rest

theorem along_append_iff (p : List (Label S State Input Entry) → Event S State Input → Bool)
    (rest past : List (Label S State Input Entry)) :
    Along (fun past event => p past event = true) (past ++ rest) ↔
      Along (fun past event => p past event = true) past ∧ alongFrom p past rest = true := by
  induction rest generalizing past with
  | nil => simp [alongFrom]
  | cons l rest ih =>
    have shift : past ++ l :: rest = (past ++ [l]) ++ rest := by simp
    rw [shift, ih]
    cases l with
    | spawn entry => rw [along_snoc_spawn, alongFrom]
    | act event => rw [along_snoc_act, alongFrom, Bool.and_eq_true, and_assoc]

/-- A condition that can be decided of each event can be decided of a whole run. -/
instance (ls : List (Label S State Input Entry)) [∀ past event, Decidable (P past event)] :
    Decidable (Along P ls) :=
  decidable_of_iff (alongFrom (fun past event => decide (P past event)) [] ls = true) (by
    have all := along_append_iff (fun past event => decide (P past event)) ls []
    simpa [along_nil, Along] using all.symm)

end

end Foundation
