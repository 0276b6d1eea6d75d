/-
What a command does to the files, told by what becomes of each path: writes,
removals, and what is to be known of the entries that it leaves.
-/
import Kettle.Host.FileSystem

namespace Kettle

inductive FileEffect where
  | write (path : Path) (file : File)
  | makeDir (path : Path)
  | remove (path : Path)
  | mark (path : Path) (known : Mark)
deriving DecidableEq, Repr

namespace FileEffect

def writes (path : Path) : FileEffect → Bool
  | write other _ => other = path
  | _ => false

def marks (path : Path) : FileEffect → Bool
  | mark other _ => other = path
  | _ => false

/-- A removal takes all that lies below along. -/
def removes (path : Path) : FileEffect → Bool
  | remove dir => dir.isPrefixOf path
  | _ => false

def apply (files : FileSystem) : FileEffect → FileSystem
  | write path file => files.put path (.file file)
  | makeDir path =>
      if files.isFile path then files else files.put path .dir
  | remove dir => files.without dir
  | mark path known => { files with marks := (path, known) :: files.marks }

def applyAll (files : FileSystem) (effects : List FileEffect) : FileSystem :=
  effects.foldl apply files

/-- Without a write, an effect leaves a file as it is or removes it. -/
theorem fileAt_apply {files : FileSystem} {path : Path} {effect : FileEffect}
    (hwrites : effect.writes path = false) :
    (effect.apply files).fileAt path =
      if effect.removes path then none else files.fileAt path := by
  cases effect with
  | write other file =>
      have hother : other ≠ path := by simpa [writes] using hwrites
      exact FileSystem.fileAt_put_of_ne hother
  | makeDir other =>
      simp only [apply]
      split
      · rfl
      · rename_i hfile
        by_cases hother : other = path
        · subst hother
          have hnone : files.fileAt other = none := by
            simpa [FileSystem.isFile] using hfile
          simp [removes, hnone, FileSystem.fileAt_put_dir hnone]
        · exact FileSystem.fileAt_put_of_ne hother
  | remove dir =>
      simp only [apply, removes, FileSystem.fileAt_without,
        List.isPrefixOf_iff_prefix]
      rfl
  | mark other known => rfl

/-- What becomes of a file that no effect writes. -/
theorem fileAt_applyAll {files : FileSystem} {path : Path}
    {effects : List FileEffect}
    (hwrites : ∀ effect ∈ effects, effect.writes path = false) :
    (applyAll files effects).fileAt path =
      if ∃ effect ∈ effects, effect.removes path then none
      else files.fileAt path := by
  induction effects generalizing files with
  | nil => simp [applyAll]
  | cons effect rest ih =>
      rw [List.forall_mem_cons] at hwrites
      have hstep : (applyAll files (effect :: rest)).fileAt path =
          (applyAll (effect.apply files) rest).fileAt path := rfl
      rw [hstep, ih hwrites.2, fileAt_apply hwrites.1]
      simp only [List.exists_mem_cons_iff]
      by_cases hlater : ∃ later ∈ rest, later.removes path
      · rw [if_pos hlater, if_pos (Or.inr hlater)]
      · rw [if_neg hlater]
        by_cases hnow : effect.removes path = true
        · rw [if_pos hnow, if_pos (Or.inl hnow)]
        · rw [if_neg hnow, if_neg (not_or.mpr ⟨hnow, hlater⟩)]

/-- Where no effect marks anything, nothing becomes known. -/
theorem unmarked_applyAll {files : FileSystem} {dir : Path}
    {effects : List FileEffect} (hunmarked : files.Unmarked dir)
    (houtside : ∀ effect ∈ effects, ∀ path, Path.Within dir path →
      effect.marks path = false) :
    (applyAll files effects).Unmarked dir := by
  induction effects generalizing files with
  | nil => exact hunmarked
  | cons effect rest ih =>
      rw [List.forall_mem_cons] at houtside
      refine ih ?_ houtside.2
      cases effect with
      | write path file =>
          refine hunmarked.of_subset ?_
          rw [apply, FileSystem.marks_put]
          exact List.Subset.refl _
      | makeDir path =>
          simp only [apply]
          split
          · exact hunmarked
          · refine hunmarked.of_subset ?_
            rw [FileSystem.marks_put]
            exact List.Subset.refl _
      | remove path => exact hunmarked.of_subset List.filter_sublist.subset
      | mark path known =>
          intro mark hmark hin
          rcases List.mem_cons.mp hmark with rfl | hmark
          · have hmarks := houtside.1 path hin
            simp [marks] at hmarks
          · exact hunmarked mark hmark hin

end FileEffect

end Kettle
