/-
The relative path from one directory to another.  It goes up to the last
common directory and then down, and where the two lie together does not
matter.
-/
import Kettle.Toolchain.CargoLock

namespace Kettle

open FileSystem (resolveStep)

namespace Toolchain

section Normal

/-- A component that leads into a directory of its name. -/
def NormalName (name : OsStr) : Prop := name ≠ "" ∧ name ≠ "." ∧ name ≠ ".."

/-- An absolute path without links, `.` or `..`. -/
structure CanonicalPath where
  components : Path
  normal : ∀ name ∈ components, NormalName name

/-- The components of a path, one after the other from the root. -/
def normalise (path : Path) : Path := path.foldl resolveStep []

/-- So many directories up, and then down by the names. -/
def upAndDown (ups : Nat) (names : Path) : Path :=
  List.replicate ups (.text "..") ++ names

theorem resolveStep_normal {name : OsStr} (hname : NormalName name)
    (here : Path) : resolveStep here name = here ++ [name] := by
  obtain ⟨hempty, hcurrent, hparent⟩ := hname
  rw [resolveStep, if_neg hparent, if_neg (by simp [hempty, hcurrent])]

theorem foldl_resolveStep_normal {names : Path}
    (hnames : ∀ name ∈ names, NormalName name) (here : Path) :
    names.foldl resolveStep here = here ++ names := by
  induction names generalizing here with
  | nil => exact (List.append_nil here).symm
  | cons name names ih =>
      rw [List.forall_mem_cons] at hnames
      rw [List.foldl_cons, resolveStep_normal hnames.1, ih hnames.2,
        List.append_assoc, List.singleton_append]

theorem foldl_resolveStep_ups (ups : Nat) (here : Path) :
    (List.replicate ups (OsStr.text "..")).foldl resolveStep here =
      here.take (here.length - ups) := by
  induction ups generalizing here with
  | zero => exact (List.take_length).symm
  | succ ups ih =>
      have hup : resolveStep here ".." = here.dropLast := if_pos rfl
      rw [List.replicate_succ, List.foldl_cons, hup, ih, List.length_dropLast,
        List.dropLast_eq_take, List.take_take]
      congr 1
      omega

/-- From a canonical path up and down again. -/
theorem normalise_upAndDown (source : CanonicalPath) (ups : Nat)
    {names : Path} (hnames : ∀ name ∈ names, NormalName name) :
    normalise (source.components ++ upAndDown ups names) =
      source.components.take (source.components.length - ups) ++ names := by
  rw [normalise, upAndDown, List.foldl_append, List.foldl_append,
    foldl_resolveStep_normal source.normal, List.nil_append,
    foldl_resolveStep_ups, foldl_resolveStep_normal hnames]

end Normal

section Relative

/-- Two paths part after a common front, and the relative path goes up what
is left of the first and down what is left of the second. -/
theorem exists_parting (source target : Path) :
    ∃ front up down, source = front ++ up ∧ target = front ++ down ∧
      (∀ name, up.head? = some name → down.head? ≠ some name) ∧
      relativePath source target = upAndDown up.length down := by
  induction source generalizing target with
  | nil =>
      refine ⟨[], [], target, rfl, rfl, ?_, ?_⟩
      · intro name hnone
        cases hnone
      · cases target <;> rfl
  | cons left source ih =>
      cases target with
      | nil =>
          refine ⟨[], left :: source, [], rfl, rfl, ?_, ?_⟩
          · intro name _ hnone
            cases hnone
          · rfl
      | cons right target =>
          by_cases heq : left = right
          · subst heq
            obtain ⟨front, up, down, rfl, rfl, hpart, hpath⟩ := ih target
            refine ⟨left :: front, up, down, rfl, rfl, hpart, ?_⟩
            rw [relativePath, if_pos rfl, hpath]
          · refine ⟨[], left :: source, right :: target, rfl, rfl, ?_, ?_⟩
            · intro name hleft hright
              cases hleft
              cases hright
              exact heq rfl
            · rw [relativePath, if_neg heq]
              rfl

theorem relativePath_append (front left right : Path) :
    relativePath (front ++ left) (front ++ right) =
      relativePath left right := by
  induction front with
  | nil => rfl
  | cons name front ih =>
      rw [List.cons_append, List.cons_append, relativePath, if_pos rfl, ih]

/-- Fewer steps up do not leave the directory in which the paths part. -/
theorem ups_le_of_reaches {front up down names : Path} {ups : Nat}
    (hpart : ∀ name, up.head? = some name → down.head? ≠ some name)
    (hreaches : (front ++ up).take ((front ++ up).length - ups) ++ names =
      front ++ down) :
    up.length ≤ ups := by
  by_contra hlt
  cases up with
  | nil => simp at hlt
  | cons name rest =>
      have hstay : (front ++ name :: rest).length - ups =
          front.length + (rest.length - ups + 1) := by
        simp only [List.length_append, List.length_cons] at hlt ⊢
        omega
      rw [hstay, List.take_length_add_append, List.take_succ_cons,
        List.append_assoc, List.append_cancel_left_eq,
        List.cons_append] at hreaches
      apply hpart name rfl
      rw [← hreaches]
      rfl

/-- The relative path leads from the source to the target, and goes up no
further than any path that does. -/
structure LeadsTo (source target : CanonicalPath) (ups : Nat) (names : Path) :
    Prop where
  normal : ∀ name ∈ names, NormalName name
  reaches : normalise (source.components ++ upAndDown ups names) =
    target.components
  fewest : ∀ (ups' : Nat) (names' : Path),
    (∀ name ∈ names', NormalName name) →
    normalise (source.components ++ upAndDown ups' names') =
      target.components → ups ≤ ups'

theorem exists_leadsTo (source target : CanonicalPath) :
    ∃ ups names, relativePath source.components target.components =
        upAndDown ups names ∧ LeadsTo source target ups names := by
  obtain ⟨front, up, down, hsource, htarget, hpart, hpath⟩ :=
    exists_parting source.components target.components
  have hdown : ∀ name ∈ down, NormalName name := by
    intro name hname
    apply target.normal
    rw [htarget]
    exact List.mem_append_right _ hname
  refine ⟨up.length, down, hpath, hdown, ?_, ?_⟩
  · rw [normalise_upAndDown source _ hdown, hsource, htarget,
      List.length_append, Nat.add_sub_cancel, List.take_left]
  · intro ups' names' hnames' hreaches
    rw [normalise_upAndDown source _ hnames', hsource, htarget] at hreaches
    exact ups_le_of_reaches hpart hreaches

/-- The relative path inverts, and is the same below any directory. -/
theorem relativePath_inverts :
    (∀ source target : CanonicalPath, ∃ ups names,
        relativePath source.components target.components =
          upAndDown ups names ∧ LeadsTo source target ups names) ∧
      ∀ front left right : Path,
        relativePath (front ++ left) (front ++ right) =
          relativePath left right :=
  ⟨exists_leadsTo, relativePath_append⟩

end Relative

end Toolchain

end Kettle
