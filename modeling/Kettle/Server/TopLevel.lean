/-
The directory that a result archive unpacks into.  It is named after the
project's own directory or else after the uploaded archive, from whose name a
path and an extension are stripped.
-/
import Kettle.Host.FileSystem

namespace Kettle

/-- `to_str`. -/
def OsStr.toStr? : OsStr → Option String
  | text name => some name
  | raw _ _ => none

namespace Server

section Names

/-- `strip_suffix` on strings. -/
def stripSuffix (ext text : String) : Option String :=
  if ext.toList <:+ text.toList then
    some (String.ofList (text.toList.take (text.length - ext.length)))
  else none

def archiveExtensions : List String :=
  [".tar.gz", ".tar.bz2", ".tar.xz", ".tgz", ".tbz2", ".txz", ".tar", ".zip"]

def isSeparator (c : Char) : Bool := c = '/' || c = '\\'

/-- What follows the last separator. -/
def baseName (name : String) : String :=
  String.ofList (name.toList.rtakeWhile fun c => !isSeparator c)

/-- The first extension that the name ends in is stripped. -/
def stripArchiveExtension (name : String) : String :=
  (archiveExtensions.findSome? fun ext =>
    stripSuffix ext (baseName name)).getD (baseName name)

/-- `file_name`: the last component, when it is a name. -/
def fileName? (path : Path) : Option OsStr :=
  path.getLast?.filter fun name => name ≠ ".."

/-- The name of the one top-level directory of a source. -/
def nestedName? (projectDir workDir : Path) : Option String :=
  if projectDir ≠ workDir then (fileName? projectDir).bind OsStr.toStr?
  else none

def outputTopLevel (projectDir workDir : Path) (sourceName : Option String) :
    String :=
  match nestedName? projectDir workDir with
  | some name => name
  | none =>
      match sourceName with
      | some name =>
          let stem := stripArchiveExtension name
          if stem ≠ "" then stem else "kettle-build"
      | none => "kettle-build"

end Names

section Stems

theorem stripSuffix_eq_some_iff {ext text stem : String} :
    stripSuffix ext text = some stem ↔ text = stem ++ ext := by
  unfold stripSuffix
  rw [Option.ite_none_right_eq_some, Option.some.injEq]
  constructor
  · rintro ⟨⟨front, hfront⟩, rfl⟩
    apply String.toList_inj.mp
    rw [String.toList_append, String.toList_ofList, ← String.length_toList,
      ← String.length_toList, ← hfront, List.length_append,
      Nat.add_sub_cancel, List.take_left]
  · rintro rfl
    rw [String.toList_append, String.length_append, Nat.add_sub_cancel,
      ← String.length_toList, List.take_left, String.ofList_toList]
    exact ⟨List.suffix_append _ _, rfl⟩

/-- No extension ends in another one. -/
theorem archiveExtensions_separate : ∀ left ∈ archiveExtensions,
    ∀ right ∈ archiveExtensions, left.toList <:+ right.toList →
      left = right := by
  decide

theorem extension_unique {left right front back : String}
    (hleft : left ∈ archiveExtensions) (hright : right ∈ archiveExtensions)
    (heq : front ++ left = back ++ right) : left = right ∧ front = back := by
  have hlists := congrArg String.toList heq
  rw [String.toList_append, String.toList_append] at hlists
  have hext : left = right := by
    rcases List.suffix_or_suffix_of_suffix
      (hlists ▸ List.suffix_append front.toList left.toList)
      (List.suffix_append back.toList right.toList) with hsuffix | hsuffix
    · exact archiveExtensions_separate left hleft right hright hsuffix
    · exact (archiveExtensions_separate right hright left hleft hsuffix).symm
  subst hext
  exact ⟨rfl, String.toList_inj.mp (List.append_cancel_right hlists)⟩

/-- What is left of a name: before its extension, or all of it. -/
theorem stripArchiveExtension_eq_iff {name stem : String} :
    stripArchiveExtension name = stem ↔
      (∃ ext ∈ archiveExtensions, baseName name = stem ++ ext) ∨
        (∀ ext ∈ archiveExtensions, ∀ other, baseName name ≠ other ++ ext) ∧
          baseName name = stem := by
  unfold stripArchiveExtension
  cases hfound : archiveExtensions.findSome? fun ext =>
      stripSuffix ext (baseName name) with
  | some found =>
      obtain ⟨ext, hext, hstripped⟩ := List.exists_of_findSome?_eq_some hfound
      rw [stripSuffix_eq_some_iff] at hstripped
      rw [Option.getD_some]
      constructor
      · rintro rfl
        exact .inl ⟨ext, hext, hstripped⟩
      · rintro (⟨other, hother, hbase⟩ | ⟨hnone, -⟩)
        · exact (extension_unique hext hother (hstripped.symm.trans hbase)).2
        · exact absurd hstripped (hnone ext hext found)
  | none =>
      have hnone : ∀ ext ∈ archiveExtensions, ∀ other,
          baseName name ≠ other ++ ext := by
        intro ext hext other hbase
        have hstripped := List.findSome?_eq_none_iff.mp hfound ext hext
        rw [stripSuffix_eq_some_iff.mpr hbase] at hstripped
        cases hstripped
      rw [Option.getD_none]
      constructor
      · rintro rfl
        exact .inr ⟨hnone, rfl⟩
      · rintro (⟨ext, hext, hbase⟩ | ⟨-, hbase⟩)
        · exact absurd hbase (hnone ext hext stem)
        · exact hbase

end Stems

section TopLevel

/-- A single component of a path that leads into a directory of its own. -/
structure Ordinary (name : String) : Prop where
  nonempty : name ≠ ""
  slash : '/' ∉ name.toList
  backslash : '\\' ∉ name.toList
  current : name ≠ "."
  parent : name ≠ ".."

/-- A name that a directory can have an entry by. -/
def EntryName : OsStr → Prop
  | .text name => name ≠ "" ∧ '/' ∉ name.toList ∧ name ≠ "." ∧ name ≠ ".."
  | .raw bytes _ => 0x2f ∉ bytes

/-- The project directory of a source in `workDir`. -/
inductive ProjectIn (workDir : Path) : Path → Prop
  | loose : ProjectIn workDir workDir
  | nested {name : OsStr} : EntryName name →
      ProjectIn workDir (workDir ++ [name])

/-- The name leaves `.` or `..` once its path and its extension are gone. -/
def LeavesDots (name : String) : Prop :=
  ∃ dots, (dots = "." ∨ dots = "..") ∧
    (baseName name = dots ∨
      ∃ ext ∈ archiveExtensions, baseName name = dots ++ ext)

/-- The one directory has no backslash in its name; or, where no directory
gives a name, the archive's name does not leave dots. -/
def NamesDirectory (projectDir workDir : Path) (sourceName : Option String) :
    Prop :=
  match nestedName? projectDir workDir with
  | some name => '\\' ∉ name.toList
  | none => ∀ name, sourceName = some name → ¬ LeavesDots name

theorem leavesDots_iff {name : String} :
    LeavesDots name ↔ stripArchiveExtension name = "." ∨
      stripArchiveExtension name = ".." := by
  have hdots : ∀ dots, (dots = "." ∨ dots = "..") →
      ∀ ext ∈ archiveExtensions, ∀ other, dots ≠ other ++ ext := by
    intro dots hdots ext hext other heq
    have hlength := congrArg String.length heq
    rw [String.length_append] at hlength
    have hlong : ∀ ext ∈ archiveExtensions, 4 ≤ ext.length := by decide
    have hshort : dots.length ≤ 2 := by
      rcases hdots with rfl | rfl <;> decide
    have hext := hlong ext hext
    omega
  have hstem : ∀ dots, (dots = "." ∨ dots = "..") →
      ((baseName name = dots ∨
          ∃ ext ∈ archiveExtensions, baseName name = dots ++ ext) ↔
        stripArchiveExtension name = dots) := by
    intro dots hspecial
    rw [stripArchiveExtension_eq_iff]
    constructor
    · rintro (hbase | hext)
      · exact .inr ⟨hbase ▸ hdots dots hspecial, hbase⟩
      · exact .inl hext
    · rintro (hext | ⟨-, hbase⟩)
      · exact .inr hext
      · exact .inl hbase
  constructor
  · rintro ⟨dots, hspecial, hleft⟩
    have hstrip := (hstem dots hspecial).mp hleft
    rcases hspecial with rfl | rfl
    · exact .inl hstrip
    · exact .inr hstrip
  · rintro (hstrip | hstrip)
    · exact ⟨".", .inl rfl, (hstem "." (.inl rfl)).mpr hstrip⟩
    · exact ⟨"..", .inr rfl, (hstem ".." (.inr rfl)).mpr hstrip⟩

/-- No separator is left in a stripped name. -/
theorem separator_notMem_strip (name : String) {c : Char}
    (hc : isSeparator c = true) :
    c ∉ (stripArchiveExtension name).toList := by
  have hbase : c ∉ (baseName name).toList := by
    rw [baseName, String.toList_ofList]
    intro hmem
    have hnot := List.mem_rtakeWhile_imp hmem
    rw [hc] at hnot
    cases hnot
  rcases stripArchiveExtension_eq_iff.mp (Eq.refl
    (stripArchiveExtension name)) with ⟨ext, -, hext⟩ | ⟨-, hwhole⟩
  · rw [hext, String.toList_append] at hbase
    exact fun hmem => hbase (List.mem_append_left _ hmem)
  · rwa [← hwhole]

theorem ordinary_strip_iff {name : String} :
    Ordinary (stripArchiveExtension name) ↔
      stripArchiveExtension name ≠ "" ∧ ¬ LeavesDots name := by
  rw [leavesDots_iff, not_or]
  constructor
  · intro hordinary
    exact ⟨hordinary.nonempty, hordinary.current, hordinary.parent⟩
  · rintro ⟨hne, hcurrent, hparent⟩
    exact ⟨hne, separator_notMem_strip name rfl,
      separator_notMem_strip name rfl, hcurrent, hparent⟩

theorem ordinary_default : Ordinary "kettle-build" :=
  ⟨by decide, by decide, by decide, by decide, by decide⟩

/-- Without a directory's name, the archive's name decides. -/
theorem ordinary_of_sourceName {projectDir workDir : Path}
    {sourceName : Option String}
    (hnested : nestedName? projectDir workDir = none) :
    Ordinary (outputTopLevel projectDir workDir sourceName) ↔
      ∀ name, sourceName = some name → ¬ LeavesDots name := by
  unfold outputTopLevel
  rw [hnested]
  cases sourceName with
  | none => simp [ordinary_default]
  | some name =>
      simp only [Option.some.injEq, forall_eq']
      by_cases hempty : stripArchiveExtension name = ""
      · simp [hempty, ordinary_default, leavesDots_iff]
      · simp [hempty, ordinary_strip_iff]

theorem nestedName?_ordinary {projectDir workDir : Path} {name : String}
    (hproject : ProjectIn workDir projectDir)
    (hnested : nestedName? projectDir workDir = some name) :
    Ordinary name ↔ '\\' ∉ name.toList := by
  unfold nestedName? at hnested
  cases hproject with
  | loose => simp at hnested
  | @nested entry hentry =>
      rw [if_pos (by simp), fileName?, List.getLast?_concat] at hnested
      cases entry with
      | raw => cases hnested
      | text text =>
          obtain ⟨hne, hslash, hcurrent, hparent⟩ := hentry
          simp only [Option.filter_some, ne_eq, OsStr.text.injEq, hparent,
            not_false_eq_true, decide_true, if_true, Option.bind_some]
            at hnested
          cases hnested
          constructor
          · exact fun hordinary => hordinary.backslash
          · exact fun hbackslash =>
              ⟨hne, hslash, hbackslash, hcurrent, hparent⟩

/-- The archive unpacks into its own directory exactly where a name is not
left as dots, nor has a backslash. -/
theorem outputTopLevel_ordinary_iff {projectDir workDir : Path}
    (hproject : ProjectIn workDir projectDir) (sourceName : Option String) :
    Ordinary (outputTopLevel projectDir workDir sourceName) ↔
      NamesDirectory projectDir workDir sourceName := by
  unfold NamesDirectory
  cases hnested : nestedName? projectDir workDir with
  | none => exact ordinary_of_sourceName hnested
  | some name =>
      have hname : outputTopLevel projectDir workDir sourceName = name := by
        unfold outputTopLevel
        rw [hnested]
      rw [hname]
      exact nestedName?_ordinary hproject hnested

def demoWork : Path := ["tmp", "work"]

theorem outputTopLevel_nested :
    Ordinary (outputTopLevel (demoWork ++ [.text "comp-graph"]) demoWork
      (some "upload.zip")) := by
  have hentry : EntryName "comp-graph" :=
    ⟨by decide, by decide, by decide, by decide⟩
  have hnested : nestedName? (demoWork ++ [.text "comp-graph"]) demoWork =
      some "comp-graph" := by
    decide
  apply (outputTopLevel_ordinary_iff (.nested hentry) _).mpr
  unfold NamesDirectory
  simp only [hnested]
  decide

/-- An archive that is called `..zip` in a source without a directory. -/
theorem not_ordinary_dots :
    ProjectIn demoWork demoWork ∧
      outputTopLevel demoWork demoWork (some "..zip") = "." ∧
      ¬ Ordinary (outputTopLevel demoWork demoWork (some "..zip")) := by
  have hdots : outputTopLevel demoWork demoWork (some "..zip") = "." := by
    decide +kernel
  refine ⟨.loose, hdots, fun hordinary => ?_⟩
  exact hordinary.current hdots

end TopLevel

end Server

end Kettle
