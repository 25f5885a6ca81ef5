import Mathlib.Data.List.Infix

/-!
# Secrets and the log of the runtime

`Write` redacts what it is given and appends it to the log. Each call redacts its own bytes only: a
string that is cut by the end of a call is written as it is.
-/

namespace Thirdshift.Log

open List

/-! ### Replacement -/

section

variable {α : Type} [DecidableEq α] (old new : List α)

/-- `bytes.ReplaceAll`, from the left, after `skip` elements of a replaced occurrence. -/
def replaceFrom : Nat → List α → List α
  | _, [] => []
  | skip + 1, _ :: s => replaceFrom skip s
  | 0, a :: s =>
    if old <+: a :: s then new ++ replaceFrom (old.length - 1) s else a :: replaceFrom 0 s

def replaceAll (s : List α) : List α := replaceFrom old new 0 s

variable {old new} {s x : List α}

theorem replaceFrom_eq_drop {skip : Nat} :
    replaceFrom old new skip s = replaceAll old new (s.drop skip) := by
  induction s generalizing skip with
  | nil => cases skip <;> rfl
  | cons a s ih =>
    cases skip with
    | zero => rfl
    | succ skip => exact ih

theorem replaceAll_cons_of_not {a : α} (other : ¬old <+: a :: s) :
    replaceAll old new (a :: s) = a :: replaceAll old new s := if_neg other

theorem replaceAll_append (some : old ≠ []) :
    replaceAll old new (old ++ s) = new ++ replaceAll old new s := by
  obtain ⟨a, rest, rfl⟩ := exists_cons_of_ne_nil some
  refine (if_pos ⟨s, rfl⟩).trans (congrArg (new ++ ·) ?_)
  rw [replaceFrom_eq_drop]
  simp

/-- Without an element of the replacement, nothing is left but what was there, and not `old`. -/
theorem prefix_of_replaceAll {c : α} (nonempty : x ≠ []) (absent : c ∉ x)
    (first : x <+: replaceAll old [c] s) : x <+: s ∧ x ≠ old := by
  induction s generalizing x with
  | nil => exact absurd (prefix_nil.mp first) nonempty
  | cons a s ih =>
    obtain ⟨b, x, rfl⟩ := exists_cons_of_ne_nil nonempty
    unfold replaceAll replaceFrom at first
    split at first
    · exact absurd (cons_prefix_cons.mp first).1 fun same => absent (same ▸ mem_cons_self)
    next other =>
      obtain ⟨rfl, later⟩ := cons_prefix_cons.mp first
      have whole : b :: x <+: b :: s := by
        by_cases empty : x = []
        · simp [empty]
        · exact cons_prefix_cons.mpr ⟨rfl, (ih empty (not_mem_of_not_mem_cons absent) later).1⟩
      exact ⟨whole, fun same => other (same ▸ whole)⟩

theorem infix_of_replaceFrom {c : α} {skip : Nat} (nonempty : x ≠ []) (absent : c ∉ x)
    (inside : x <:+: replaceFrom old [c] skip s) : x <:+: s ∧ x ≠ old := by
  induction s generalizing skip with
  | nil =>
    cases skip <;> exact absurd (infix_nil.mp inside) nonempty
  | cons a s ih =>
    cases skip with
    | succ skip => exact (ih inside).imp_left infix_cons
    | zero =>
      by_cases first : x <+: replaceAll old [c] (a :: s)
      · exact (prefix_of_replaceAll nonempty absent first).imp_left IsPrefix.isInfix
      · unfold replaceFrom at inside
        unfold replaceAll replaceFrom at first
        split at inside
        next same =>
          rw [if_pos same] at first
          exact (ih ((infix_cons_iff.mp inside).resolve_left first)).imp_left infix_cons
        next other =>
          rw [if_neg other] at first
          exact (ih ((infix_cons_iff.mp inside).resolve_left first)).imp_left infix_cons

end

/-! ### Occurrences in a concatenation -/

section

variable {α : Type} {x a b : List α}

theorem infix_append_cases (inside : x <:+: a ++ b) :
    x <:+: b ∨ ∃ t, t ≠ [] ∧ t <:+ a ∧ x <+: t ++ b := by
  induction a with
  | nil => exact .inl inside
  | cons c a ih =>
    rcases infix_cons_iff.mp inside with first | later
    · exact .inr ⟨c :: a, cons_ne_nil c a, suffix_refl _, first⟩
    · refine (ih later).imp_right ?_
      rintro ⟨t, nonempty, last, first⟩
      exact ⟨t, nonempty, last.trans (suffix_cons c a), first⟩

/-- An occurrence of the string that a boundary between two pieces divides. -/
def Straddles (x : List α) (pieces : List (List α)) : Prop :=
  ∃ before after y z, pieces = before ++ after ∧ x = y ++ z ∧ y ≠ [] ∧ z ≠ [] ∧
    y <:+ before.flatten ∧ z <+: after.flatten

variable {pieces : List (List α)}

theorem Straddles.infix (straddles : Straddles x pieces) : x <:+: pieces.flatten := by
  obtain ⟨before, after, y, z, rfl, rfl, -, -, ⟨s, last⟩, ⟨t, first⟩⟩ := straddles
  exact ⟨s, t, by rw [flatten_append, ← last, ← first]; simp⟩

theorem Straddles.append (more : List (List α)) (straddles : Straddles x pieces) :
    Straddles x (more ++ pieces) := by
  obtain ⟨before, after, y, z, rfl, split, some, some', last, first⟩ := straddles
  refine ⟨more ++ before, after, y, z, (append_assoc ..).symm, split, some, some', ?_, first⟩
  rw [flatten_append]
  exact suffix_append_of_suffix last

theorem infix_flatten (nonempty : x ≠ []) (inside : x <:+: pieces.flatten) :
    (∃ p ∈ pieces, x <:+: p) ∨ Straddles x pieces := by
  induction pieces with
  | nil => exact absurd (infix_nil.mp inside) nonempty
  | cons p pieces ih =>
    rcases infix_append_cases inside with later | ⟨y, some, last, first⟩
    · rcases ih later with ⟨q, member, within⟩ | straddles
      · exact .inl ⟨q, mem_cons_of_mem p member, within⟩
      · exact .inr (straddles.append [p])
    · rcases prefix_or_prefix_of_prefix first (prefix_append y pieces.flatten) with short | ⟨z, rfl⟩
      · exact .inl ⟨p, mem_cons_self, short.isInfix.trans last.isInfix⟩
      · by_cases empty : z = []
        · exact .inl ⟨p, mem_cons_self, by simpa [empty] using last.isInfix⟩
        · exact .inr ⟨[p], pieces, y, z, rfl, rfl, some, empty, by simpa using last,
            (prefix_append_right_inj y).mp first⟩

end

/-! ### The writer -/

abbrev Bytes := List UInt8

/-- The bytes of `[REDACTED]`. -/
def marker : Bytes := [91, 82, 69, 68, 65, 67, 84, 69, 68, 93]

structure RotatingLogWriter where
  maxBytes : Int
  redactions : List Bytes

structure Files where
  log : Option Bytes
  rotated : Option Bytes

inductive Call
  | stat | remove | rename | openFile
  deriving DecidableEq

/-- The calls that fail, and how many bytes the file takes. -/
structure Disk where
  fails : Call → Bool
  room : Nat

/-- Nothing fails, and all the bytes fit. -/
def Disk.Takes (disk : Disk) (bytes : Bytes) : Prop :=
  (∀ call, disk.fails call = false) ∧ bytes.length ≤ disk.room

def redact (redactions : List Bytes) (p : Bytes) : Bytes :=
  redactions.foldl (fun redacted secret =>
    if secret = [] then redacted else replaceAll secret marker redacted) p

namespace RotatingLogWriter

def rotateIfNeeded (w : RotatingLogWriter) (nextBytes : Nat) (disk : Disk) (files : Files) :
    Files × Bool :=
  if w.maxBytes ≤ 0 then (files, true)
  else if disk.fails .stat then (files, false)
  else match files.log with
    | none => (files, true)
    | some log =>
      if log.length + nextBytes ≤ w.maxBytes then (files, true)
      else if disk.fails .rename then
        (⟨files.log, if disk.fails .remove then files.rotated else none⟩, false)
      else (⟨none, files.log⟩, true)

/-- The files after the call, and the count it returns when it does not fail. -/
def write (w : RotatingLogWriter) (p : Bytes) (disk : Disk) (files : Files) : Files × Option Nat :=
  let redacted := redact w.redactions p
  match w.rotateIfNeeded redacted.length disk files with
  | (files, false) => (files, none)
  | (files, true) =>
    if disk.fails .openFile then (files, none)
    else (⟨some (files.log.getD [] ++ redacted.take disk.room), files.rotated⟩,
      if redacted.length ≤ disk.room then some p.length else none)

def run (w : RotatingLogWriter) (files : Files) (writes : List (Bytes × Disk)) : Files :=
  writes.foldl (fun files call => (w.write call.1 call.2 files).1) files

end RotatingLogWriter

def Files.text (files : Files) : Bytes := files.rotated.getD [] ++ files.log.getD []

/-! ### What a redaction leaves -/

/-- An end of one is a beginning of the other, or one is within the other. -/
def Overlaps (s m : Bytes) : Prop :=
  (∃ t ∈ s.tails, t ≠ [] ∧ (t <+: m ∨ m <+: t)) ∨ ∃ t ∈ m.tails, t ≠ [] ∧ (t <+: s ∨ s <+: t)

instance (s m : Bytes) : Decidable (Overlaps s m) := by
  unfold Overlaps
  infer_instance

/-- The replacements, with `none` in the place of an occurrence. -/
def cover (redactions : List Bytes) (left : List (Option UInt8)) : List (Option UInt8) :=
  redactions.foldl (fun left secret =>
    if secret = [] then left else replaceAll (secret.map some) [none] left) left

/-- The bytes of the call that its own redaction leaves. -/
def survivors (redactions : List Bytes) (p : Bytes) : List (Option UInt8) :=
  cover redactions (p.map some)

def expand (left : List (Option UInt8)) : Bytes := left.flatMap fun o => o.elim marker ([·])

variable {w : RotatingLogWriter} {redactions : List Bytes} {files : Files} {secret p : Bytes}
  {left : List (Option UInt8)}

theorem expand_append {left' : List (Option UInt8)} :
    expand (left ++ left') = expand left ++ expand left' := flatMap_append

theorem expand_some : expand (p.map some) = p := by
  induction p with
  | nil => rfl
  | cons b p ih => exact congrArg (b :: ·) ih

theorem not_prefix_marker {t rest : Bytes} (apart : ¬Overlaps secret marker) (nonempty : t ≠ [])
    (last : t <:+ marker) : ¬secret <+: t ++ rest := by
  intro first
  rcases prefix_or_prefix_of_prefix first (prefix_append t rest) with short | long
  · exact apart (.inr ⟨t, (mem_tails t _).mpr last, nonempty, .inr short⟩)
  · exact apart (.inr ⟨t, (mem_tails t _).mpr last, nonempty, .inl long⟩)

theorem prefix_expand (apart : ¬Overlaps secret marker) {t : Bytes} (nonempty : t ≠ [])
    (last : t <:+ secret) : t <+: expand left ↔ t.map some <+: left := by
  constructor
  · intro first
    induction left generalizing t with
    | nil => exact absurd (prefix_nil.mp first) nonempty
    | cons o left ih =>
      cases o with
      | none =>
        have along : marker <+: expand (none :: left) := prefix_append ..
        have touches := prefix_or_prefix_of_prefix first along
        exact absurd (.inl ⟨t, (mem_tails t _).mpr last, nonempty, touches⟩) apart
      | some b =>
        obtain ⟨c, t, rfl⟩ := exists_cons_of_ne_nil nonempty
        obtain ⟨rfl, later⟩ := cons_prefix_cons.mp first
        refine cons_prefix_cons.mpr ⟨rfl, ?_⟩
        by_cases empty : t = []
        · simp [empty]
        · exact ih empty ((suffix_cons c t).trans last) later
  · rintro ⟨rest, rfl⟩
    exact ⟨expand rest, by rw [expand_append, expand_some]⟩

theorem infix_expand (apart : ¬Overlaps secret marker) (nonempty : secret ≠ []) :
    secret <:+: expand left ↔ secret.map some <:+: left := by
  constructor
  · intro inside
    induction left with
    | nil => exact absurd (infix_nil.mp inside) nonempty
    | cons o left ih =>
      rcases infix_append_cases (a := o.elim marker ([·])) inside with
        later | ⟨t, nonempty', last, first⟩
      · exact infix_cons (ih later)
      · cases o with
        | none => exact absurd first (not_prefix_marker apart nonempty' last)
        | some b =>
          rcases suffix_cons_iff.mp last with rfl | empty
          · have whole : secret <+: expand (some b :: left) := first
            exact ((prefix_expand apart nonempty (suffix_refl _)).mp whole).isInfix
          · exact absurd (suffix_nil.mp empty) nonempty'
  · rintro ⟨before, after, rfl⟩
    exact ⟨expand before, expand after, by simp only [expand_append, expand_some]⟩

/-- No occurrence begins in a marker that is there already. -/
theorem replaceAll_marker {rest t : Bytes} (apart : ¬Overlaps secret marker) (last : t <:+ marker) :
    replaceAll secret marker (t ++ rest) = t ++ replaceAll secret marker rest := by
  induction t with
  | nil => rfl
  | cons b t ih =>
    refine (replaceAll_cons_of_not (not_prefix_marker apart (cons_ne_nil b t) last)).trans ?_
    exact congrArg (b :: ·) (ih ((suffix_cons b t).trans last))

theorem replaceAll_expand (apart : ¬Overlaps secret marker) (nonempty : secret ≠ []) :
    replaceAll secret marker (expand left) =
      expand (replaceAll (secret.map some) [none] left) := by
  -- on the length: an occurrence is dropped at once
  induction h : left.length using Nat.strong_induction_on generalizing left with
  | _ n ih =>
    subst h
    by_cases here : secret.map some <+: left
    · obtain ⟨rest, rfl⟩ := here
      rw [expand_append, expand_some, replaceAll_append nonempty,
        replaceAll_append (by simpa using nonempty), expand_append,
        ih rest.length (by simp [length_pos_iff, nonempty]) rfl]
      rfl
    · match left with
      | [] => rfl
      | none :: left =>
        rw [replaceAll_cons_of_not here]
        exact (replaceAll_marker apart (suffix_refl _)).trans
          (congrArg (marker ++ ·) (ih left.length (Nat.lt_succ_self _) rfl))
      | some b :: left =>
        rw [replaceAll_cons_of_not here]
        have other := mt (prefix_expand apart nonempty (suffix_refl _)).mp here
        exact (replaceAll_cons_of_not other).trans
          (congrArg (b :: ·) (ih left.length (Nat.lt_succ_self _) rfl))

/-- No string is within or across the marker. -/
def Apart (redactions : List Bytes) : Prop :=
  ∀ secret ∈ redactions, secret ≠ [] ∧ ¬Overlaps secret marker

theorem redact_expand (apart : Apart redactions) :
    redact redactions (expand left) = expand (cover redactions left) := by
  induction redactions generalizing left with
  | nil => rfl
  | cons secret rest ih =>
    obtain ⟨nonempty, own⟩ := apart secret mem_cons_self
    rw [redact, cover, foldl_cons, foldl_cons, if_neg nonempty, if_neg nonempty,
      replaceAll_expand own nonempty]
    exact ih fun s member => apart s (mem_cons_of_mem _ member)

theorem redact_eq (apart : Apart redactions) :
    redact redactions p = expand (survivors redactions p) := by
  rw [survivors, ← redact_expand apart, expand_some]

theorem infix_of_cover (nonempty : secret ≠ [])
    (inside : secret.map some <:+: cover redactions left) :
    secret.map some <:+: left ∧ secret ∉ redactions := by
  induction redactions generalizing left with
  | nil => exact ⟨inside, not_mem_nil⟩
  | cons other rest ih =>
    obtain ⟨before, apart⟩ := ih inside
    dsimp only at before
    split at before
    next empty => exact ⟨before, by simp [empty, nonempty, apart]⟩
    next =>
      obtain ⟨before, differs⟩ := infix_of_replaceFrom (by simpa using nonempty) (by simp) before
      refine ⟨before, not_mem_cons_of_ne_of_not_mem ?_ apart⟩
      exact fun same => differs (same ▸ rfl)

/-! ### The files -/

/-- The two files hold the last pieces that were written, in order. -/
def Holds (pieces : List Bytes) (files : Files) : Prop :=
  ∃ gone older recent, pieces = gone ++ (older ++ recent) ∧
    files.rotated.getD [] = older.flatten ∧ files.log.getD [] = recent.flatten

/-- Where nothing fails, the log stays or becomes the rotated file. -/
theorem rotate_of_works (w : RotatingLogWriter) (files : Files) (next : Nat) {disk : Disk}
    (works : ∀ call, disk.fails call = false) :
    w.rotateIfNeeded next disk files = (files, true) ∨
      w.rotateIfNeeded next disk files = (⟨none, files.log⟩, true) := by
  simp only [RotatingLogWriter.rotateIfNeeded, works, Bool.false_eq_true, if_false]
  repeat' split
  all_goals simp

theorem Holds.write {pieces : List Bytes} {disk : Disk} (holds : Holds pieces files)
    (takes : disk.Takes (redact w.redactions p)) :
    Holds (pieces ++ [redact w.redactions p]) (w.write p disk files).1 := by
  obtain ⟨gone, older, recent, rfl, rotated, log⟩ := holds
  obtain ⟨works, fits⟩ := takes
  rw [RotatingLogWriter.write]
  rcases rotate_of_works w files (redact w.redactions p).length works with stays | moves
  · simp only [stays, works, take_of_length_le fits, Bool.false_eq_true, if_false]
    exact ⟨gone, older, recent ++ [redact w.redactions p], by simp, rotated, by simp [log]⟩
  · simp only [moves, works, take_of_length_le fits, Bool.false_eq_true, if_false]
    exact ⟨gone ++ older, recent, [redact w.redactions p], by simp, log, by simp⟩

theorem Holds.text {pieces : List Bytes} (holds : Holds pieces files) :
    ∃ gone kept, pieces = gone ++ kept ∧ files.text = kept.flatten := by
  obtain ⟨gone, older, recent, same, rotated, log⟩ := holds
  exact ⟨gone, older ++ recent, same, by rw [Files.text, rotated, log, flatten_append]⟩

/-- Every call goes through. -/
def Delivered (redactions : List Bytes) (writes : List (Bytes × Disk)) : Prop :=
  ∀ call ∈ writes, call.2.Takes (redact redactions call.1)

variable {writes : List (Bytes × Disk)}

theorem holds_run (delivered : Delivered w.redactions writes) {pieces : List Bytes}
    (holds : Holds pieces files) :
    Holds (pieces ++ writes.map fun call => redact w.redactions call.1) (w.run files writes) := by
  induction writes generalizing files pieces with
  | nil => simpa [RotatingLogWriter.run] using holds
  | cons call writes ih =>
    have next := ih (fun c member => delivered c (mem_cons_of_mem _ member))
      (holds.write (delivered call mem_cons_self))
    rwa [append_assoc] at next

/-- Without a limit no piece is lost. -/
theorem text_unlimited (delivered : Delivered redactions writes) :
    ((RotatingLogWriter.mk 0 redactions).run files writes).text =
      files.text ++ (writes.map fun call => redact redactions call.1).flatten := by
  induction writes generalizing files with
  | nil => simp [RotatingLogWriter.run]
  | cons call writes ih =>
    obtain ⟨works, fits⟩ := delivered call mem_cons_self
    refine (ih fun c member => delivered c (mem_cons_of_mem _ member)).trans ?_
    simp [RotatingLogWriter.write, RotatingLogWriter.rotateIfNeeded, Files.text, works,
      take_of_length_le fits]

/-- A delivery keeps the strings from the files, whatever the limit, if and only if the bytes that
each call leaves have no occurrence across the end of a call. -/
theorem log_secret_free_iff (apart : Apart redactions) (delivered : Delivered redactions writes) :
    (∀ maxBytes, ∀ secret ∈ redactions,
        ¬secret <:+: ((RotatingLogWriter.mk maxBytes redactions).run ⟨none, none⟩ writes).text) ↔
      ∀ secret ∈ redactions,
        ¬Straddles (secret.map some) (writes.map fun call => survivors redactions call.1) := by
  have expanded : ∀ writes' : List (Bytes × Disk),
      (writes'.map fun call => redact redactions call.1).flatten =
        expand (writes'.map fun call => survivors redactions call.1).flatten := by
    intro writes'
    induction writes' with
    | nil => rfl
    | cons call writes' ih =>
      rw [map_cons, map_cons, flatten_cons, flatten_cons, expand_append, ih, redact_eq apart]
  constructor
  · intro safe secret member straddles
    obtain ⟨nonempty, own⟩ := apart secret member
    refine safe 0 secret member ?_
    rw [text_unlimited delivered, expanded]
    exact (infix_expand own nonempty).mpr straddles.infix
  · intro whole maxBytes secret member inside
    obtain ⟨nonempty, own⟩ := apart secret member
    have holds := holds_run (w := ⟨maxBytes, redactions⟩) delivered
      (⟨[], [], [], rfl, rfl, rfl⟩ : Holds [] ⟨none, none⟩)
    obtain ⟨gone, kept, pieces, text⟩ := holds.text
    obtain ⟨lost, last, rfl, -, rfl⟩ := map_eq_append_iff.mp pieces
    rw [text, expanded] at inside
    rcases infix_flatten (by simpa using nonempty) ((infix_expand own nonempty).mp inside) with
      ⟨left, written, within⟩ | straddles
    · obtain ⟨call, -, rfl⟩ := mem_map.mp written
      exact (infix_of_cover nonempty within).2 member
    · rw [map_append] at whole
      exact whole secret member (straddles.append _)

/-- Two occurrences within calls, and a beginning of one that is not continued. -/
theorem log_secret_free_iff_within :
    let writes : List (Bytes × Disk) := [([9, 1, 2, 1, 2], ⟨fun _ => false, 99⟩),
      ([1], ⟨fun _ => false, 99⟩), ([3, 2], ⟨fun _ => false, 99⟩)]
    Apart [[1, 2]] ∧ Delivered [[1, 2]] writes ∧
    ∀ maxBytes,
      ¬[1, 2] <:+: ((RotatingLogWriter.mk maxBytes [[1, 2]]).run ⟨none, none⟩ writes).text := by
  intro writes
  have apart : Apart [[1, 2]] := by simp only [Apart, forall_mem_singleton]; decide
  have delivered : Delivered [[1, 2]] writes := by
    simp only [Delivered, writes, forall_mem_cons, Disk.Takes, implies_true, true_and]
    exact ⟨by decide, by decide, by decide, forall_mem_nil _⟩
  refine ⟨apart, delivered, fun maxBytes =>
    (log_secret_free_iff apart delivered).mpr ?_ maxBytes [1, 2] mem_cons_self⟩
  intro secret member straddles
  obtain rfl := mem_singleton.mp member
  have inside := straddles.infix
  revert inside
  decide +kernel

/-- A string of two bytes, none of them in the marker, reaches the log in two calls. -/
theorem split_secret_logged : (∀ b ∈ [1, 2], b ∉ marker) ∧
    ((RotatingLogWriter.mk 0 [[1, 2]]).run ⟨none, none⟩
      [([1], ⟨fun _ => false, 1⟩), ([2], ⟨fun _ => false, 1⟩)]).log = some [1, 2] := by
  decide +kernel

end Thirdshift.Log
