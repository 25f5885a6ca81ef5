import Mathlib.Data.List.Infix

/-!
# File URLs

`FromPath` cleans a path before it writes it into a URL, and `path.Clean` knows no drives and no
shares: the slash of a root is a trailing one to it. `toPathFor` takes the host `localhost` for none.
So a path comes back, except for a root on Windows and the shares of `localhost`.
-/

namespace Thirdshift.FileURL

open List

/-- A path; its bytes are written as characters. -/
abbrev Path := List Char

/-- A component after those that are kept, the last one first. -/
def cleanStep (rooted : Bool) (out : List Path) (c : Path) : List Path :=
  if c = [] ∨ c = ['.'] then out
  else if c = ['.', '.'] then
    match out with
    | [] => if rooted then [] else [c]
    | last :: before => if last = ['.', '.'] then c :: out else before
  else c :: out

abbrev join (cs : List Path) : Path := ['/'].intercalate cs

/-- `path.Clean`. -/
def clean (path : Path) : Path :=
  let rooted : Bool := path.head? = some '/'
  let cleaned := (if rooted then ['/'] else []) ++
    join ((path.splitOn '/').foldl (cleanStep rooted) []).reverse
  if cleaned = [] then ['.'] else cleaned

structure Url where
  host : Path
  path : Path

/-- The libraries: `strings.TrimSpace` leaves something of a path with a separator in it, and parsing
a URL gives back the host and the path it was formatted from. -/
structure Library where
  Text : Type
  format : Url → Text
  parse : Text → Option Url
  blank : Path → Bool
  abs : Path → Except String Path
  parse_format (u : Url) : parse (format u) = some u
  not_blank (p : Path) : '/' ∈ p ∨ '\\' ∈ p → blank p = false

inductive OS
  | linux | windows
  deriving DecidableEq

def toSlash (p : Path) : Path := p.map fun c => if c = '\\' then '/' else c

/-- `filepath.FromSlash`. -/
def fromSlash (goos : OS) (p : Path) : Path :=
  match goos with
  | .linux => p
  | .windows => p.map fun c => if c = '/' then '\\' else c

def toPathFor (goos : OS) (parsed : Url) : Path :=
  if parsed.host ≠ [] ∧ parsed.host ≠ "localhost".toList then
    match goos with
    | .windows => '\\' :: '\\' :: (parsed.host ++ fromSlash goos parsed.path)
    | .linux =>
      clean ('/' :: (parsed.host ++ if parsed.path = [] then [] else '/' :: parsed.path))
  else
    fromSlash goos (if goos = .windows ∧ parsed.path[0]? = some '/' ∧ parsed.path[2]? = some ':' then
      parsed.path.drop 1 else parsed.path)

def isWindowsDrivePath : Path → Bool
  | c :: ':' :: '/' :: _ => 'A' ≤ c ∧ c ≤ 'Z' ∨ 'a' ≤ c ∧ c ≤ 'z'
  | _ => false

def fromPath (lib : Library) (filename : Path) : Except String lib.Text :=
  if lib.blank filename then .error "file path is required"
  else
    let normalized := toSlash filename
    if isWindowsDrivePath normalized then .ok (lib.format ⟨[], '/' :: clean normalized⟩)
    else if ['/', '/'] <+: normalized then
      let withoutSlashes := normalized.dropWhile (· = '/')
      let host := withoutSlashes.takeWhile (· ≠ '/')
      if host = [] then
        .error ("file path " ++ (String.ofList filename).quote ++ " has an empty UNC host")
      else match withoutSlashes.dropWhile (· ≠ '/') with
        | _ :: c :: rest => .ok (lib.format ⟨host, '/' :: clean (c :: rest)⟩)
        | _ => .ok (lib.format ⟨host, ['/']⟩)
    else if normalized.head? = some '/' then .ok (lib.format ⟨[], clean normalized⟩)
    else match lib.abs filename with
      | .error e => .error ("absolute file path: " ++ e)
      | .ok absolute =>
        let normalized := toSlash absolute
        if isWindowsDrivePath normalized then .ok (lib.format ⟨[], '/' :: clean normalized⟩)
        else .ok (lib.format
          ⟨[], clean (if normalized.head? = some '/' then normalized else '/' :: normalized)⟩)

/-- A component that `path.Clean` leaves alone. -/
def Plain (c : Path) : Prop := c ≠ [] ∧ c ≠ ['.'] ∧ c ≠ ['.', '.'] ∧ '/' ∉ c

theorem foldl_cleanStep {rooted : Bool} {cs : List Path} (plain : ∀ c ∈ cs, c = [] ∨ Plain c)
    (out : List Path) :
    cs.foldl (cleanStep rooted) out = (cs.filter (· ≠ [])).reverse ++ out := by
  induction cs generalizing out with
  | nil => rfl
  | cons c cs ih =>
    rw [foldl_cons, ih fun d inside => plain d (mem_cons_of_mem _ inside)]
    rcases plain c mem_cons_self with rfl | ⟨some, dot, dots, -⟩
    · simp [cleanStep]
    · simp [cleanStep, some, dot, dots]

theorem join_cons (c : Path) (cs : List Path) : ∃ rest, join (c :: cs) = c ++ rest := by
  cases cs with
  | nil => exact ⟨[], by simp [join]⟩
  | cons d cs => exact ⟨_, by rw [join, intercalate_cons_cons, append_assoc]⟩

theorem join_cons_cons (c d : Path) (cs : List Path) :
    join (c :: d :: cs) = c ++ '/' :: join (d :: cs) := by
  simp [join, intercalate_cons_cons]

/-- `path.Clean` drops the slash at the end, and nothing else of plain components. -/
theorem clean_join {c : Path} {cs : List Path} (first : Plain c) (plain : ∀ c ∈ cs, c = [] ∨ Plain c) :
    clean (join (c :: cs)) = join (c :: cs.filter (· ≠ [])) := by
  have all : ∀ d ∈ c :: cs, d = [] ∨ Plain d := forall_mem_cons.mpr ⟨.inr first, plain⟩
  have split : (join (c :: cs)).splitOn '/' = c :: cs :=
    splitOn_intercalate '/' (fun d inside => (all d inside).elim (by rintro rfl; simp) (·.2.2.2))
      (cons_ne_nil _ _)
  have relative : (join (c :: cs)).head? ≠ some '/' := by
    obtain ⟨rest, eq⟩ := join_cons c cs
    obtain ⟨d, ds, rfl⟩ := exists_cons_of_ne_nil first.1
    rw [eq]
    rintro ⟨⟩
    exact first.2.2.2 mem_cons_self
  have kept : (c :: cs).filter (· ≠ []) = c :: cs.filter (· ≠ []) := by simp [first.1]
  unfold clean
  simp only [relative, split, foldl_cleanStep all, kept, decide_false, append_nil, reverse_reverse,
    Bool.false_eq_true, if_false, nil_append]
  refine if_neg fun empty => first.1 ?_
  obtain ⟨rest, eq⟩ := join_cons c (cs.filter (· ≠ []))
  exact (append_eq_nil_iff.mp (eq ▸ empty)).1

theorem toSlash_fromSlash (p : Path) : toSlash (fromSlash .windows p) = toSlash p := by
  simp only [toSlash, fromSlash, map_map]
  refine map_congr_left fun c _ => ?_
  by_cases slash : c = '/' <;> simp [slash]

theorem toSlash_toSlash (p : Path) : toSlash (toSlash p) = toSlash p := by
  simp only [toSlash, map_map]
  refine map_congr_left fun c _ => ?_
  by_cases back : c = '\\' <;> simp [back]

theorem toSlash_of_notMem {p : Path} (none : '\\' ∉ p) : toSlash p = p := by
  refine (map_congr_left fun c inside => if_neg ?_).trans (map_id p)
  rintro rfl
  exact none inside

theorem not_blank_of_toSlash (lib : Library) {p : Path} (slash : '/' ∈ toSlash p) :
    lib.blank p = false := by
  obtain ⟨c, inside, eq⟩ := mem_map.mp slash
  refine lib.not_blank p ?_
  split at eq
  next back => exact .inr (back ▸ inside)
  · exact .inl (eq ▸ inside)

variable (lib : Library) {filename : Path}

/-- `fromPath` for the path with the separators that it works on. -/
theorem fromPath_drive (drive : isWindowsDrivePath (toSlash filename) = true) :
    fromPath lib filename = .ok (lib.format ⟨[], '/' :: clean (toSlash filename)⟩) := by
  have slash : '/' ∈ toSlash filename := by
    unfold isWindowsDrivePath at drive
    split at drive
    next eq => simp [eq]
    · cases drive
  simp [fromPath, not_blank_of_toSlash lib slash, drive]

theorem isWindowsDrivePath_slash (rest : Path) : isWindowsDrivePath ('/' :: rest) = false := by
  unfold isWindowsDrivePath
  split
  next eq =>
    cases eq
    decide
  · rfl

theorem fromPath_posix {rest : Path} (single : rest.head? ≠ some '/')
    (cleaned : clean ('/' :: rest) = '/' :: rest) (none : '\\' ∉ rest) :
    fromPath lib ('/' :: rest) = .ok (lib.format ⟨[], '/' :: rest⟩) := by
  have same : toSlash ('/' :: rest) = '/' :: rest := toSlash_of_notMem (by simpa using none)
  have local' : ¬['/', '/'] <+: '/' :: rest := by
    rw [cons_prefix_cons]
    rintro ⟨-, more, rfl⟩
    exact single rfl
  simp [fromPath, not_blank_of_toSlash lib (same ▸ mem_cons_self), same,
    isWindowsDrivePath_slash, local', cleaned]

theorem fromPath_unc {host rest : Path} (named : host ≠ []) (plain : '/' ∉ host) (some : rest ≠ [])
    (unc : toSlash filename = '/' :: '/' :: (host ++ '/' :: rest)) :
    fromPath lib filename = .ok (lib.format ⟨host, '/' :: clean rest⟩) := by
  obtain ⟨c, rest, rfl⟩ := exists_cons_of_ne_nil some
  have slash : '/' ∈ toSlash filename := unc ▸ mem_cons_self
  have inside : ∀ d ∈ host, (!decide (d = '/')) = true := by
    intro d member
    simpa using fun same : d = '/' => plain (same ▸ member)
  have head : (host ++ '/' :: c :: rest).dropWhile (· = '/') = host ++ '/' :: c :: rest := by
    obtain ⟨d, ds, rfl⟩ := exists_cons_of_ne_nil named
    exact dropWhile_cons_of_neg (by simpa using inside d mem_cons_self)
  simp [fromPath, not_blank_of_toSlash lib slash, unc, isWindowsDrivePath_slash, head,
    takeWhile_append_of_pos inside, dropWhile_append_of_pos inside, named]

/-- A path is turned into a URL and the URL is parsed; this is the path it stands for. -/
def Back (goos : OS) (filename back : Path) : Prop :=
  ∃ url u, fromPath lib filename = .ok url ∧ lib.parse url = some u ∧ back = toPathFor goos u

variable {lib} in
theorem back_of_ok {goos : OS} {u : Url} (ok : fromPath lib filename = .ok (lib.format u)) :
    Back lib goos filename (toPathFor goos u) :=
  ⟨_, u, ok, lib.parse_format u, rfl⟩

theorem clean_join_plain {c : Path} {cs : List Path} (first : Plain c) (plain : ∀ c ∈ cs, Plain c) :
    clean (join (c :: cs)) = join (c :: cs) := by
  have kept : cs.filter (· ≠ []) = cs :=
    filter_eq_self.mpr fun d inside => decide_eq_true (plain d inside).1
  rw [clean_join first fun d inside => .inr (plain d inside), kept]

theorem toPathFor_drive (letter : Char) (p : Path) :
    toPathFor .windows ⟨[], '/' :: letter :: ':' :: p⟩ = fromSlash .windows (letter :: ':' :: p) := by
  simp [toPathFor]

theorem toSlash_remote {host : Path} (named : host ≠ []) (remote : host ≠ "localhost".toList)
    (p : Path) : toSlash (toPathFor .windows ⟨host, p⟩) = toSlash ('/' :: '/' :: (host ++ p)) := by
  rw [toPathFor, if_pos ⟨named, remote⟩]
  have tail := toSlash_fromSlash p
  simp only [toSlash, map_cons, map_append] at tail ⊢
  rw [tail]
  rfl

theorem length_localhost (p : Path) :
    (toSlash (toPathFor .windows ⟨"localhost".toList, p⟩)).length ≤ p.length := by
  rw [toPathFor, if_neg (by simp)]
  split <;> simp [toSlash, fromSlash]

/-- A clean path comes back on Linux. On Windows a path on a drive comes back unless it is the root,
and a UNC path unless it is the root of the share or the host is `localhost`. -/
theorem file_url_round_trip_iff :
    (∀ rest : Path, rest.head? ≠ some '/' → clean ('/' :: rest) = '/' :: rest → '\\' ∉ rest →
      Back lib .linux ('/' :: rest) ('/' :: rest)) ∧
    (∀ filename letter cs, ('A' ≤ letter ∧ letter ≤ 'Z' ∨ 'a' ≤ letter ∧ letter ≤ 'z') →
      (∀ c ∈ cs, Plain c) → toSlash filename = letter :: ':' :: '/' :: join cs →
      ∃ back, Back lib .windows filename back ∧ (toSlash back = toSlash filename ↔ cs ≠ [])) ∧
    ∀ filename host share cs, host ≠ [] → '/' ∉ host → Plain share →
      (∀ c ∈ cs, Plain c) ∨ cs = [[]] →
      toSlash filename = '/' :: '/' :: (host ++ '/' :: join (share :: cs)) →
      ∃ back, Back lib .windows filename back ∧
        (toSlash back = toSlash filename ↔ host ≠ "localhost".toList ∧ cs ≠ [[]]) := by
  refine ⟨?_, ?_, ?_⟩
  · intro rest single cleaned none
    exact back_of_ok (fromPath_posix lib single cleaned none)
  · intro filename letter cs alpha plain drive
    have is : isWindowsDrivePath (toSlash filename) = true := by
      rw [drive]
      exact decide_eq_true alpha
    have first : Plain [letter, ':'] := by
      refine ⟨by simp, by simp, by simp, ?_⟩
      simp only [mem_cons, not_mem_nil, or_false, not_or]
      refine ⟨?_, by decide⟩
      rintro rfl
      revert alpha
      decide
    refine ⟨_, back_of_ok (fromPath_drive lib is), ?_⟩
    cases cs with
    | nil =>
      have root : clean (toSlash filename) = [letter, ':'] :=
        drive ▸ @clean_join [letter, ':'] [[]] first (by simp)
      rw [root, toPathFor_drive, drive]
      simp [toSlash, fromSlash]
    | cons c cs =>
      have whole : toSlash filename = join ([letter, ':'] :: c :: cs) := by
        rw [drive, join_cons_cons]
        rfl
      have cleaned : clean (toSlash filename) = toSlash filename := by
        rw [whole, clean_join_plain first plain]
      rw [cleaned, drive, toPathFor_drive, toSlash_fromSlash, ← drive, toSlash_toSlash]
      simp
  · intro filename host share cs named plain first rest unc
    have some : join (share :: cs) ≠ [] := by
      obtain ⟨more, eq⟩ := join_cons share cs
      exact fun empty => first.1 (append_eq_nil_iff.mp (eq ▸ empty)).1
    refine ⟨_, back_of_ok (fromPath_unc lib named plain some unc), ?_⟩
    by_cases remote : host = "localhost".toList
    · refine iff_of_false (fun same => ?_) fun both => both.1 remote
      have short : (clean (join (share :: cs))).length ≤ (join (share :: cs)).length := by
        rcases rest with rest | rfl
        · rw [clean_join_plain first rest]
        · rw [@clean_join share [[]] first (by simp)]
          simp [join]
      have shorter := length_localhost ('/' :: clean (join (share :: cs)))
      rw [← remote, same, unc] at shorter
      simp at shorter
      omega
    rw [toSlash_remote named remote, ← toSlash_toSlash filename, unc]
    rcases rest with rest | rfl
    · have proper : cs ≠ [[]] := by
        rintro rfl
        exact (rest [] mem_cons_self).1 rfl
      rw [clean_join_plain first rest]
      exact iff_of_true rfl ⟨remote, proper⟩
    · refine iff_of_false (fun same => ?_) fun both => both.2 rfl
      rw [@clean_join share [[]] first (by simp)] at same
      have := congrArg length same
      simp [toSlash, join] at this

/-- A library in which a URL is its own text. -/
def plainLibrary : Library where
  Text := Url
  format := id
  parse := some
  blank _ := false
  abs := .ok
  parse_format _ := rfl
  not_blank _ _ := rfl

theorem file_url_round_trip_iff_file :
    ∃ back, Back plainLibrary .windows ['C', ':', '\\', 'x'] back ∧ toSlash back = ['C', ':', '/', 'x'] := by
  obtain ⟨back, ran, iff⟩ := (file_url_round_trip_iff plainLibrary).2.1 ['C', ':', '\\', 'x'] 'C' [['x']]
    (by decide) (by simp [Plain]) (by decide)
  exact ⟨back, ran, iff.mpr (by simp)⟩

/-- The root of a drive comes back as the drive. -/
theorem drive_root_lost : Back plainLibrary .windows ['C', ':', '\\'] ['C', ':'] ∧
    toSlash ['C', ':'] ≠ toSlash ['C', ':', '\\'] :=
  ⟨⟨_, ⟨[], ['/', 'C', ':']⟩, rfl, rfl, by decide⟩, by decide⟩

end Thirdshift.FileURL
