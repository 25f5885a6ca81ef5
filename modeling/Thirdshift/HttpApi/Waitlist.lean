import Mathlib.Data.List.Induction
import Thirdshift.Jobs.Choice

/-!
# The waitlist limiter

`allow` keeps the times of the calls it has allowed, key by key, and drops those that have left the
window, in the array it reads. They stay outside every later window, because the clock does not go
back; so what it counts is what it has allowed.
-/

namespace Thirdshift.Waitlist

open List Function

structure RateLimiter where
  limit : Int
  window : Int
  hits : String → List Int

def newWaitlistRateLimiter (limit window : Int) : RateLimiter :=
  ⟨if limit ≤ 0 then 5 else limit, if window ≤ 0 then 60000000000 else window, fun _ => []⟩

structure Call where
  key : String
  now : Int

namespace RateLimiter

variable (l : RateLimiter) (call : Call)

def allow : RateLimiter × Bool :=
  let kept := filterInPlace (call.now - l.window < ·) (l.hits call.key)
  if l.limit ≤ kept.length then ({ l with hits := update l.hits call.key kept }, false)
  else ({ l with hits := update l.hits call.key (kept ++ [call.now]) }, true)

def after (calls : List Call) : RateLimiter := calls.foldl (fun l call => (l.allow call).1) l

def allowed : RateLimiter → List Call → List Call
  | _, [] => []
  | l, call :: calls =>
    if (l.allow call).2 then call :: (l.allow call).1.allowed calls else (l.allow call).1.allowed calls

end RateLimiter

/-- The calls are in the order of the clock, which now shows `now`. -/
abbrev Clocked (calls : List Call) (now : Int) : Prop :=
  calls.Pairwise (·.now ≤ ·.now) ∧ ∀ c ∈ calls, c.now ≤ now

theorem clocked_of_append {past rest : List Call} {call : Call}
    (clock : (past ++ call :: rest).Pairwise (·.now ≤ ·.now)) : Clocked past call.now := by
  obtain ⟨first, -, before⟩ := pairwise_append.mp clock
  exact ⟨first, fun c member => before c member call mem_cons_self⟩

def times (key : String) (calls : List Call) : List Int :=
  (calls.filter (·.key = key)).map Call.now

@[simp] theorem times_append (key : String) (calls calls' : List Call) :
    times key (calls ++ calls') = times key calls ++ times key calls' := by
  simp [times]

namespace RateLimiter

variable {l : RateLimiter} {past : List Call} {call : Call} {key : String}

theorem after_snoc : l.after (past ++ [call]) = ((l.after past).allow call).1 := by
  simp [after]

theorem allowed_snoc (l : RateLimiter) (past : List Call) (call : Call) :
    l.allowed (past ++ [call]) =
      l.allowed past ++ if ((l.after past).allow call).2 then [call] else [] := by
  induction past generalizing l with
  | nil => rfl
  | cons first past ih =>
    simp only [cons_append, allowed, ih]
    split <;> rfl

theorem allowed_sublist (l : RateLimiter) (past : List Call) : l.allowed past <+ past := by
  induction past generalizing l with
  | nil => exact .refl []
  | cons call past ih =>
    simp only [allowed]
    split
    · exact (ih _).cons_cons _
    · exact (ih _).cons _

theorem le_of_mem_times {t now : Int} (clock : Clocked past now)
    (member : t ∈ times key (l.allowed past)) : t ≤ now := by
  obtain ⟨c, inside, rfl⟩ := mem_map.mp member
  exact clock.2 c ((allowed_sublist l past).subset (mem_filter.mp inside).1)

theorem settings_after (l : RateLimiter) (past : List Call) :
    (l.after past).limit = l.limit ∧ (l.after past).window = l.window := by
  induction past using reverseRecOn with
  | nil => exact ⟨rfl, rfl⟩
  | append_singleton past call ih =>
    rw [after_snoc, allow]
    split <;> exact ih

section

variable (fresh : ∀ key, l.hits key = [])
include fresh

/-- What is stored of a key and what was allowed are the same inside every later window. -/
theorem hits_after {t : Int} (clock : Clocked past t) :
    ((l.after past).hits key).filter (t - l.window < ·) =
      (times key (l.allowed past)).filter (t - l.window < ·) := by
  induction past using reverseRecOn generalizing t with
  | nil => simp [after, allowed, fresh, times]
  | append_singleton past call ih =>
    have earlier := clocked_of_append clock.1
    have now : call.now ≤ t := clock.2 call (by simp)
    have stored := ih ⟨earlier.1, fun c member => Int.le_trans (earlier.2 c member) now⟩
    rw [allowed_snoc, after_snoc, times_append, filter_append, ← stored, allow, filterInPlace_eq,
      (settings_after l past).1, (settings_after l past).2]
    by_cases same : key = call.key
    · -- what the call drops is outside the windows that end later
      subst same
      have again : (((l.after past).hits call.key).filter (call.now - l.window < ·)).filter
          (t - l.window < ·) = ((l.after past).hits call.key).filter (t - l.window < ·) := by
        rw [filter_filter]
        refine filter_congr fun hit _ => ?_
        simp only [Bool.and_eq_decide, decide_eq_decide, decide_eq_true_eq]
        omega
      split <;> simp [again, times]
    · split <;> simp [times, update_of_ne same, Ne.symm same]

/-- A call is allowed as long as fewer calls than the limit were in the window that ends now. -/
theorem allow_iff (clock : Clocked past call.now) : ((l.after past).allow call).2 = true ↔
    ((times call.key (l.allowed past)).filter (call.now - l.window < ·)).length < l.limit := by
  rw [← hits_after fresh clock, allow, filterInPlace_eq, (settings_after l past).1,
    (settings_after l past).2]
  split <;> simp <;> omega

theorem allowed_le {inside : Int → Bool} (clock : past.Pairwise (·.now ≤ ·.now))
    (positive : 0 < l.limit)
    (narrow : ∀ t t', t ≤ t' → inside t = true → inside t' = true → t' - l.window < t) :
    ((times key (l.allowed past)).filter inside).length ≤ l.limit := by
  induction past using reverseRecOn with
  | nil => simpa [allowed, times] using Int.le_of_lt positive
  | append_singleton past call ih =>
    have earlier := clocked_of_append clock
    rw [allowed_snoc, times_append, filter_append, length_append]
    by_cases counts : ((l.after past).allow call).2 = true ∧ call.key = key ∧ inside call.now = true
    · -- what is in this window is in the one that ends with the call
      obtain ⟨admitted, rfl, here⟩ := counts
      have few := (allow_iff fresh earlier).mp admitted
      have le : ((times call.key (l.allowed past)).filter inside).length ≤
          ((times call.key (l.allowed past)).filter (call.now - l.window < ·)).length := by
        simp only [← countP_eq_length_filter]
        refine countP_mono_left fun t member within => decide_eq_true ?_
        exact narrow _ _ (le_of_mem_times earlier member) within here
      have one : ((times call.key [call]).filter inside).length = 1 := by simp [times, here]
      rw [if_pos admitted, one]
      omega
    · have none : (times key (if ((l.after past).allow call).2 then [call] else [])).filter inside =
          [] := by
        by_contra other
        split at other <;> simp_all [times]
      rw [none, length_nil]
      exact ih earlier.1

theorem allow_filter (clock : Clocked past call.now)
    (same : times call.key (l.allowed past) =
      times call.key (l.allowed (past.filter (·.key = call.key)))) :
    ((l.after past).allow call).2 = ((l.after (past.filter (·.key = call.key))).allow call).2 := by
  rw [Bool.eq_iff_iff, allow_iff fresh clock, same, allow_iff fresh]
  exact ⟨clock.1.filter _, fun c member => clock.2 c (mem_filter.mp member).1⟩

theorem times_allowed (clock : past.Pairwise (·.now ≤ ·.now)) :
    times key (l.allowed past) = times key (l.allowed (past.filter (·.key = key))) := by
  induction past using reverseRecOn with
  | nil => rfl
  | append_singleton past call ih =>
    have earlier := clocked_of_append clock
    rw [filter_append, allowed_snoc, times_append, ih earlier.1]
    by_cases same : call.key = key
    · subst same
      rw [filter_cons_of_pos (by simp), filter_nil, allowed_snoc, times_append,
        allow_filter fresh earlier (ih earlier.1)]
    · split <;> simp [times, same]

end

end RateLimiter

open RateLimiter

/-- The limiter is a sliding window: of each key it allows no more calls than the limit in any
window, it denies a call only when that many were allowed in the window that ends now, and its
answers depend on the calls with the same key. -/
theorem waitlist_window {limit window : Int} {calls : List Call} (positive : 0 < limit)
    (wide : 0 < window) (clock : calls.Pairwise (·.now ≤ ·.now)) :
    let l := newWaitlistRateLimiter limit window
    (∀ key start,
      ((times key (l.allowed calls)).filter fun t => start ≤ t ∧ t < start + window).length ≤ limit ∧
      ((times key (l.allowed calls)).filter fun t => start < t ∧ t ≤ start + window).length ≤ limit) ∧
    ∀ past call rest, calls = past ++ call :: rest →
      (((l.after past).allow call).2 = false → limit ≤ ((times call.key (l.allowed past)).filter
        fun t => call.now - window < t ∧ t ≤ call.now).length) ∧
      ((l.after past).allow call).2 = ((l.after (past.filter (·.key = call.key))).allow call).2 := by
  intro l
  have limited : l.limit = limit := if_neg (Int.not_le.mpr positive)
  have windowed : l.window = window := if_neg (Int.not_le.mpr wide)
  have fresh : ∀ key, l.hits key = [] := fun _ => rfl
  refine ⟨fun key start => ?_, ?_⟩
  · constructor
    all_goals
      rw [← limited]
      refine allowed_le fresh clock (by omega) fun t t' _ => ?_
      simp only [decide_eq_true_eq, windowed]
      omega
  · rintro past call rest rfl
    have earlier := clocked_of_append clock
    refine ⟨fun denied => ?_, allow_filter fresh earlier (times_allowed fresh earlier.1)⟩
    have full := mt (allow_iff fresh earlier).mpr (by simp [denied])
    rw [limited, windowed, Int.not_lt] at full
    have ends : (times call.key (l.allowed past)).filter (call.now - window < ·) =
        (times call.key (l.allowed past)).filter fun t => call.now - window < t ∧ t ≤ call.now :=
      filter_congr fun t member => by simp [le_of_mem_times earlier member]
    rwa [ends] at full

theorem waitlist_window_two :
    (((newWaitlistRateLimiter 1 60).after [⟨"a", 0⟩]).allow ⟨"a", 59⟩).2 = false ∧
      (1 : Int) ≤ ((times "a" ((newWaitlistRateLimiter 1 60).allowed [⟨"a", 0⟩])).filter
        fun t => (59 : Int) - 60 < t ∧ t ≤ 59).length :=
  have ran := @waitlist_window 1 60 [⟨"a", 0⟩, ⟨"a", 59⟩] (by decide) (by decide) (by simp)
  ⟨by decide +kernel, (ran.2 [_] _ [] rfl).1 (by decide +kernel)⟩

end Thirdshift.Waitlist
