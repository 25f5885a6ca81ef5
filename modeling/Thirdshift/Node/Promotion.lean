import Mathlib.Logic.Function.Basic

/-!
# Promotion of an update

`promoteBinary` removes the previous binary before it renames the current one over it, and undoes a
failed promotion by renaming the previous binary back, whether it was the current one or not. The
removal is never undone, so a failure after it loses the binary that was there before.
-/

namespace Thirdshift.Update

inductive Path
  | newBinary | currentPath | previousPath
  deriving DecidableEq

abbrev Files (α : Type) := Path → Option α

inductive FileOp
  | statCurrent | removePrevious | retain | promote | statPrevious | undo
  deriving DecidableEq

section

variable {α : Type} (failing : Option FileOp)

def stat (op : FileOp) (files : Files α) (path : Path) : Bool :=
  failing ≠ some op && (files path).isSome

def remove (op : FileOp) (files : Files α) (path : Path) : Files α :=
  if failing = some op then files else Function.update files path none

/-- `os.Rename`, which replaces what is at the destination. -/
def rename (op : FileOp) (files : Files α) (source target : Path) : Option (Files α) :=
  if failing = some op ∨ files source = none then none
  else some (Function.update (Function.update files target (files source)) source none)

def promote (files : Files α) : Except String Unit × Files α :=
  match rename failing .promote files .newBinary .currentPath with
  | some files => (.ok (), files)
  | none =>
    (.error "promote updated binary",
      if stat failing .statPrevious files .previousPath then
        (rename failing .undo files .previousPath .currentPath).getD files
      else files)

def promoteBinary (files : Files α) : Except String Unit × Files α :=
  if stat failing .statCurrent files .currentPath then
    let files := remove failing .removePrevious files .previousPath
    match rename failing .retain files .currentPath .previousPath with
    | some files => promote failing files
    | none => (.error "retain previous binary", files)
  else promote failing files

end

/-- A promotion changes nothing, or all that it should. -/
def AllOrNothing {α : Type} (files : Files α) : Except String Unit × Files α → Prop
  | (.error _, after) => after .currentPath = files .currentPath ∧
      after .previousPath = files .previousPath
  | (.ok _, after) => after .currentPath = files .newBinary ∧
      (files .currentPath ≠ none → after .previousPath = files .currentPath)

/-- With at most one operation failing, a promotion changes nothing or all that it should if and only
if it does not fail where there was a previous binary to lose, and the current binary is seen. -/
theorem promotion_all_or_nothing_iff {α : Type} {failing : Option FileOp} {files : Files α}
    (new : files .newBinary ≠ none) : AllOrNothing files (promoteBinary failing files) ↔
      (failing = some .promote → files .previousPath = none) ∧
      (failing = some .retain → files .currentPath ≠ none → files .previousPath = none) ∧
      (failing = some .statCurrent → files .currentPath ≠ none →
        files .previousPath = files .currentPath) := by
  obtain ⟨binary, new⟩ := Option.ne_none_iff_exists'.mp new
  -- an operation that is not reached cannot fail
  rcases failing with - | (- | - | - | - | - | -) <;> cases current : files .currentPath <;>
    cases previous : files .previousPath <;>
    simp [AllOrNothing, promoteBinary, promote, stat, remove, rename, new, current, previous]

def updating (previous : Option String) : Files String
  | .newBinary => some "new"
  | .currentPath => some "current"
  | .previousPath => previous

/-- A first update that cannot retain the current binary leaves everything as it was. -/
theorem promotion_all_or_nothing_iff_first :
    AllOrNothing (updating none) (promoteBinary (some .retain) (updating none)) :=
  (promotion_all_or_nothing_iff (by simp [updating])).mpr (by simp [updating])

/-- A later update that cannot promote its binary loses the previous one. -/
theorem previous_binary_lost :
    ¬AllOrNothing (updating (some "old")) (promoteBinary (some .promote) (updating (some "old"))) := by
  simp [AllOrNothing, promoteBinary, promote, stat, remove, rename, updating]

end Thirdshift.Update
