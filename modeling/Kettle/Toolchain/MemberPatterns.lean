/-
Which directories a member pattern of a workspace stands for, and which ones
are read.  The code trims the pattern to a directory; a glob matches the names
that continue what follows the last slash.
-/
import Kettle.Lib.Separated
import Kettle.Toolchain.Artifacts
import Kettle.Toolchain.PathDependencies

namespace Kettle

/-- The name continues the text. -/
def OsStr.StartsWith (front : List Char) : OsStr → Prop
  | text name => front <+: name.toList
  | raw bytes _ => JsonPretty.utf8 front <+: bytes

theorem OsStr.startsWith_nil (name : OsStr) : name.StartsWith [] := by
  cases name with
  | text name => exact List.nil_prefix
  | raw bytes _ => exact List.nil_prefix

theorem OsStr.startsWith_self (front : List Char) :
    (OsStr.text (String.ofList front)).StartsWith front := by
  have htext : (String.ofList front).toList = front := String.toList_ofList
  simp only [OsStr.StartsWith, htext, List.prefix_rfl]

namespace FileSystem

/-- A directory lists a name once. -/
theorem nodup_readDir {files : FileSystem} {dir : Path} {names : List OsStr}
    (hok : files.readDir dir = .ok names) : names.Nodup := by
  unfold readDir at hok
  split at hok
  · cases hok
    have hkeys : (files.nodes.entries.filterMap fun entry =>
        if entry.1.dropLast = dir then entry.1.getLast? else none) =
        (files.nodes.entries.map Prod.fst).filterMap fun path =>
          if path.dropLast = dir then path.getLast? else none := by
      rw [List.filterMap_map]
      rfl
    rw [hkeys]
    refine files.nodes.nodup.filterMap ?_
    intro path path' name hname hname'
    simp only [Option.mem_def, Option.ite_none_right_eq_some] at hname hname'
    rw [← List.dropLast_append_getLast? name hname.2,
      ← List.dropLast_append_getLast? name hname'.2, hname.1, hname'.1]
  · cases hok

theorem resolve_nil_iff {files : FileSystem} {here path : Path} :
    files.resolve here [] = some path ↔
      files.exists? here = true ∧ files.isLink here = false ∧ here = path := by
  simp [resolve, and_assoc]

/-- What is resolved is there, and is no link. -/
theorem resolve_eq_self {files : FileSystem} {here names path : Path}
    (hpath : files.resolve here names = some path) :
    files.resolve path [] = some path := by
  induction names generalizing here with
  | nil =>
      obtain rfl := (resolve_nil_iff.mp hpath).2.2
      exact hpath
  | cons name rest ih =>
      simp only [resolve, Option.ite_none_right_eq_some,
        Option.bind_eq_some_iff] at hpath
      obtain ⟨-, next, -, hrest⟩ := hpath
      exact ih hrest

theorem resolve_nil_of_isOwnDir {files : FileSystem} {here : Path}
    (hdir : files.isOwnDir here = true) :
    files.resolve here [] = some here := by
  rw [isOwnDir, Bool.and_eq_true, Bool.not_eq_true'] at hdir
  exact resolve_nil_iff.mpr ⟨by rw [exists?, hdir.1, Bool.true_or], hdir.2,
    rfl⟩

theorem isOwnDir_of_resolve {files : FileSystem} {here names path : Path}
    (hpath : files.resolve here names = some path)
    (hdir : files.isDir path = true) : files.isOwnDir path = true := by
  have hself := resolve_nil_iff.mp (resolve_eq_self hpath)
  rw [isOwnDir, hdir, hself.2.1]
  rfl

/-- The last name is taken in the directory that the others lead to. -/
theorem resolve_concat_iff {files : FileSystem} {here front : Path}
    {name : OsStr} {path : Path} :
    files.resolve here (front ++ [name]) = some path ↔
      ∃ parent, files.resolve here front = some parent ∧
        files.isOwnDir parent = true ∧
        files.followStep parent name = some path ∧
        files.resolve path [] = some path := by
  induction front generalizing here with
  | nil =>
      have hstep : files.resolve here ([] ++ [name]) = some path ↔
          files.isOwnDir here = true ∧ ∃ next,
            files.followStep here name = some next ∧
              files.resolve next [] = some path := by
        rw [List.nil_append, resolve.eq_2, Option.ite_none_right_eq_some,
          Option.bind_eq_some_iff]
      rw [hstep]
      constructor
      · rintro ⟨hdir, next, hnext, hpath⟩
        obtain rfl := (resolve_nil_iff.mp hpath).2.2
        exact ⟨here, resolve_nil_of_isOwnDir hdir, hdir, hnext, hpath⟩
      · rintro ⟨parent, hparent, hdir, hnext, hpath⟩
        obtain rfl := (resolve_nil_iff.mp hparent).2.2
        exact ⟨hdir, path, hnext, hpath⟩
  | cons step rest ih =>
      simp only [List.cons_append, resolve, Option.ite_none_right_eq_some,
        Option.bind_eq_some_iff, ih]
      constructor
      · rintro ⟨hdir, next, hnext, parent, hparent, hlast⟩
        exact ⟨parent, ⟨hdir, next, hnext, hparent⟩, hlast⟩
      · rintro ⟨parent, ⟨hdir, next, hnext, hparent⟩, hlast⟩
        exact ⟨hdir, next, hnext, parent, hparent, hlast⟩

/-- An empty last name asks for a directory and stays there. -/
theorem resolve_concat_empty_iff {files : FileSystem} {here front : Path}
    {path : Path} :
    files.resolve here (front ++ [.text ""]) = some path ↔
      files.resolve here front = some path ∧ files.isDir path = true := by
  have hstay : ∀ parent : Path,
      files.followStep parent (.text "") = some parent := by
    intro parent
    simp [followStep, resolveStep]
  rw [resolve_concat_iff]
  simp only [hstay, Option.some.injEq]
  constructor
  · rintro ⟨parent, hparent, hdir, rfl, -⟩
    rw [isOwnDir, Bool.and_eq_true] at hdir
    exact ⟨hparent, hdir.1⟩
  · rintro ⟨hpath, hdir⟩
    exact ⟨path, hpath, isOwnDir_of_resolve hpath hdir, rfl,
      resolve_eq_self hpath⟩

end FileSystem

namespace Toolchain

variable {files : FileSystem} {project : Path} {pattern : String}

theorem mem_globDirs_iff {base : Path}
    {dirs : List Path} (hok : globDirs files base = .ok dirs) (dir : Path) :
    dir ∈ dirs ↔
      ∃ name, dir = base ++ [name] ∧ files.isOwnDir dir = true := by
  obtain ⟨names, hnames, hdirs⟩ := bind_eq_ok_iff.mp hok
  cases hdirs
  rw [List.mem_filter, List.mem_map]
  constructor
  · rintro ⟨⟨name, -, rfl⟩, hdir⟩
    exact ⟨name, rfl, hdir⟩
  · rintro ⟨name, rfl, hdir⟩
    refine ⟨⟨name, ?_, rfl⟩, hdir⟩
    rw [FileSystem.mem_readDir_iff hnames]
    rw [FileSystem.isOwnDir, Bool.and_eq_true] at hdir
    have hnode := hdir.1
    unfold FileSystem.isDir dirIn at hnode
    unfold FileSystem.get?
    rw [Bool.or_eq_true, List.isEmpty_iff, decide_eq_true_eq] at hnode
    rcases hnode with hempty | hnode
    · simp at hempty
    · rw [hnode]
      rfl

theorem nodup_globDirs {base : Path}
    {dirs : List Path} (hok : globDirs files base = .ok dirs) : dirs.Nodup := by
  obtain ⟨names, hnames, hdirs⟩ := bind_eq_ok_iff.mp hok
  cases hdirs
  refine List.Nodup.filter _ ((FileSystem.nodup_readDir hnames).map ?_)
  intro name name' hname
  exact List.singleton_inj.mp (List.append_cancel_left hname)

theorem exists_globDirs_iff {base : Path} :
    (∃ dirs, globDirs files base = .ok dirs) ↔
      files.isDir base = true ∧ files.isDenied base = false := by
  unfold globDirs FileSystem.readDir
  by_cases hread : (files.isDir base && !files.isDenied base) = true
  · rw [if_pos hread, ok_bind]
    simpa using hread
  · rw [if_neg hread]
    simpa using hread

/-- What stands before the star. -/
def stem (pattern : String) : List Char := pattern.toList.dropLast

/-- The stem up to its last slash. -/
def dirPart (pattern : String) : List Char :=
  (stem pattern).rdropWhile (· ≠ '/')

/-- What follows the last slash of the stem. -/
def lastPart (pattern : String) : List Char :=
  (stem pattern).rtakeWhile (· ≠ '/')

/-- The directory is the literal one, or one in the directory part of the
pattern whose name continues the last part. -/
def Matches (files : FileSystem) (project : Path) (pattern : String)
    (dir : Path) : Prop :=
  if '*' ∈ pattern.toList then
    ∃ base name, files.canonicalize project (String.ofList (dirPart pattern)) =
        some base ∧
      dir = base ++ [name] ∧ files.isDir dir = true ∧
      name.StartsWith (lastPart pattern)
  else files.canonicalize project pattern = some dir

theorem dirPart_append_lastPart (pattern : String) :
    dirPart pattern ++ lastPart pattern = stem pattern :=
  List.rdropWhile_append_rtakeWhile

theorem slash_notMem_lastPart (pattern : String) :
    '/' ∉ lastPart pattern := by
  intro hmem
  have hne := List.mem_rtakeWhile_imp hmem
  simp at hne

theorem dirPart_eq (pattern : String) :
    dirPart pattern = [] ∨ ∃ front, dirPart pattern = front ++ ['/'] := by
  by_cases hnil : dirPart pattern = []
  · exact Or.inl hnil
  · have hlast : (dirPart pattern).getLast hnil = '/' := by
      have hne := List.rdropWhile_last_not (fun c => decide (c ≠ '/'))
        (stem pattern) hnil
      simpa [dirPart] using hne
    refine Or.inr ⟨(dirPart pattern).dropLast, ?_⟩
    have hsplit := List.dropLast_append_getLast hnil
    rw [hlast] at hsplit
    exact hsplit.symm

/-- A path of a directory part and a last name starts where the directory part
says. -/
theorem exists_canonicalize_append {front : List Char}
    (hfront : front = [] ∨ ∃ dir, front = dir ++ ['/']) :
    ∃ start names : Path, ∀ last : List Char, '/' ∉ last →
      files.canonicalize project (String.ofList (front ++ last)) =
        files.resolve start (names ++ [.text (String.ofList last)]) := by
  rcases hfront with rfl | ⟨dir, rfl⟩
  · refine ⟨project, [], ?_⟩
    intro last hlast
    have hhead : last.head? ≠ some '/' := fun h =>
      hlast (List.mem_of_head? h)
    unfold FileSystem.canonicalize FileSystem.components
    rw [List.nil_append, String.toList_ofList, if_neg hhead,
      List.splitOn_eq_singleton hlast]
    rfl
  · refine ⟨if (dir ++ ['/']).head? = some '/' then [] else project,
      (dir.splitOn '/').map fun name => .text (String.ofList name), ?_⟩
    intro last hlast
    have hhead : (dir ++ ['/'] ++ last).head? = (dir ++ ['/']).head? := by
      cases dir <;> rfl
    have hsplit : (dir ++ ['/'] ++ last).splitOn '/' =
        dir.splitOn '/' ++ [last] := by
      rw [List.append_assoc, List.singleton_append,
        List.splitOn_append_cons_self, List.splitOn_eq_singleton hlast]
    unfold FileSystem.canonicalize FileSystem.components
    rw [String.toList_ofList, hhead, hsplit, List.map_append]
    split <;> rfl

/-- The stem leads to its last part in the directory part. -/
theorem canonicalize_stem_iff {dir : Path} :
    files.canonicalize project (String.ofList (stem pattern)) = some dir ↔
      ∃ base, files.canonicalize project (String.ofList (dirPart pattern)) =
          some base ∧
        files.followStep base (.text (String.ofList (lastPart pattern))) =
          some dir ∧
        files.resolve dir [] = some dir := by
  obtain ⟨start, names, hresolve⟩ := @exists_canonicalize_append files project
    _ (dirPart_eq pattern)
  have hdir := hresolve [] (by simp)
  have hstem := hresolve (lastPart pattern) (slash_notMem_lastPart pattern)
  rw [List.append_nil] at hdir
  rw [dirPart_append_lastPart] at hstem
  rw [hdir, hstem, FileSystem.resolve_concat_iff]
  refine exists_congr fun base => ?_
  rw [show String.ofList [] = "" from rfl,
    FileSystem.resolve_concat_empty_iff, and_assoc]
  refine and_congr_right fun hbase => and_congr_left' ?_
  constructor
  · intro hown
    rw [FileSystem.isOwnDir, Bool.and_eq_true] at hown
    exact hown.1
  · exact FileSystem.isOwnDir_of_resolve hbase

/-- What a pattern matches lies in a directory that is no link. -/
theorem isOwnDir_of_canonicalize_dirPart {base : Path}
    (hbase : files.canonicalize project (String.ofList (dirPart pattern)) =
      some base) : files.isOwnDir base = true := by
  obtain ⟨start, names, hresolve⟩ := @exists_canonicalize_append files project
    _ (dirPart_eq pattern)
  have hdir := hresolve [] (by simp)
  rw [List.append_nil] at hdir
  rw [hdir, show String.ofList [] = "" from rfl,
    FileSystem.resolve_concat_empty_iff] at hbase
  exact FileSystem.isOwnDir_of_resolve hbase.1 hbase.2

/-- Slashes after a directory do not lead anywhere else. -/
theorem canonicalize_append_slashes {front slashes : List Char} {dir : Path}
    (hfront : front ≠ []) (hslashes : ∀ c ∈ slashes, c = '/')
    (hdir : files.isDir dir = true)
    (hcanon : files.canonicalize project (String.ofList front) = some dir) :
    files.canonicalize project (String.ofList (front ++ slashes)) =
      some dir := by
  induction slashes using List.reverseRecOn with
  | nil => rwa [List.append_nil]
  | append_singleton slashes c ih =>
      obtain ⟨hbefores, hlast⟩ := List.forall_mem_append.mp hslashes
      obtain rfl := hlast c (List.mem_singleton_self c)
      have hbefore := ih hbefores
      unfold FileSystem.canonicalize FileSystem.components at hbefore ⊢
      rw [String.toList_ofList] at hbefore ⊢
      have hhead : (front ++ (slashes ++ ['/'])).head? =
          (front ++ slashes).head? := by
        cases front with
        | nil => exact absurd rfl hfront
        | cons d rest => rfl
      have hsplit : (front ++ (slashes ++ ['/'])).splitOn '/' =
          (front ++ slashes).splitOn '/' ++ [[]] := by
        rw [← List.append_assoc, List.splitOn_append_cons_self,
          List.splitOn_nil]
      rw [hhead, hsplit, List.map_append]
      split at hbefore
      · rename_i habsolute
        rw [if_pos habsolute]
        exact FileSystem.resolve_concat_empty_iff.mpr ⟨hbefore, hdir⟩
      · rename_i hrelative
        rw [if_neg hrelative]
        exact FileSystem.resolve_concat_empty_iff.mpr ⟨hbefore, hdir⟩

theorem trimEnd_eq_self {c : Char} {text : List Char} (htext : c ∉ text) :
    trimEnd c text = text := by
  unfold trimEnd
  rw [List.rdropWhile_eq_self_iff]
  intro hne hlast
  rw [decide_eq_true_eq] at hlast
  exact htext (hlast ▸ List.getLast_mem hne)

/-- A glob reads the directories under its trimmed stem. -/
theorem expandMemberPattern_glob {members : List (Option Path × String)}
    (hok : expandMemberPattern files project pattern = .ok members)
    (hstar : '*' ∈ pattern.toList) :
    ∃ base dirs, files.canonicalize project
        (String.ofList (trimEnd '/' (stem pattern))) = some base ∧
      globDirs files base = .ok dirs ∧
      members = dirs.map fun member => (some member, member.display) := by
  unfold expandMemberPattern at hok
  rw [if_neg (not_not.mpr hstar)] at hok
  split at hok
  · cases hok
  · rename_i hsupported
    rw [not_or, not_not] at hsupported
    obtain ⟨hcount, hlast⟩ := hsupported
    have hsplit : stem pattern ++ ['*'] = pattern.toList :=
      List.dropLast_append_getLast? '*' hlast
    have hstem : '*' ∉ stem pattern := by
      rw [← hsplit, List.count_append, List.count_singleton_self] at hcount
      rw [← List.count_eq_zero]
      omega
    have htrim : trimEnd '*' pattern.toList = stem pattern := by
      rw [← hsplit]
      unfold trimEnd
      rw [List.rdropWhile_concat_pos _ _ _ (by simp)]
      exact trimEnd_eq_self hstem
    rw [htrim] at hok
    simp only at hok
    split at hok
    · cases hok
    · rename_i base hbase
      cases hdirs : globDirs files base with
      | error message =>
          rw [hdirs] at hok
          cases hok
      | ok dirs =>
          rw [hdirs] at hok
          cases hok
          exact ⟨base, dirs, hbase, hdirs, rfl⟩

theorem canonicalize_slashes {text : List Char} (hne : text ≠ [])
    (hslashes : ∀ c ∈ text, c = '/') :
    files.canonicalize project (String.ofList text) = some [] := by
  cases text with
  | nil => exact absurd rfl hne
  | cons c rest =>
      obtain ⟨rfl, hrest⟩ := List.forall_mem_cons.mp hslashes
      have hroot : files.canonicalize project (String.ofList ['/']) =
          some [] := by
        simp [FileSystem.canonicalize, FileSystem.components,
          FileSystem.resolve, FileSystem.followStep, FileSystem.resolveStep,
          FileSystem.isOwnDir, FileSystem.isDir, FileSystem.exists?, dirIn,
          List.splitOn_cons_eq_if_modifyHead]
      have hlist : '/' :: rest = ['/'] ++ rest := rfl
      rw [hlist]
      exact canonicalize_append_slashes (List.cons_ne_nil _ _) hrest rfl hroot

theorem canonicalize_empty {base : Path}
    (hbase : files.canonicalize project "" = some base) : base = project := by
  have hresolve : files.resolve project ([] ++ [.text ""]) = some base := hbase
  have hproject := (FileSystem.resolve_concat_empty_iff.mp hresolve).1
  simp only [FileSystem.resolve, Option.ite_none_right_eq_some,
    Option.some.injEq] at hproject
  exact hproject.2.symm

/-- Slashes alone are trimmed to the project, but name the root. -/
theorem canonicalize_trimmed_slashes {base : Path}
    (hbase : files.canonicalize project
      (String.ofList (trimEnd '/' (dirPart pattern))) = some base)
    (hne : dirPart pattern ≠ [])
    (hslashes : ∀ c ∈ dirPart pattern, c = '/') :
    base = project ∧ files.canonicalize project
      (String.ofList (dirPart pattern)) = some [] := by
  refine ⟨?_, canonicalize_slashes hne hslashes⟩
  have htrim : trimEnd '/' (dirPart pattern) = [] := by
    rw [trimEnd, List.rdropWhile_eq_nil_iff]
    exact fun c hc => decide_eq_true (hslashes c hc)
  rw [htrim] at hbase
  exact canonicalize_empty hbase

/-- Otherwise the directory that is read is the one in which the pattern
matches. -/
theorem canonicalize_trimmed {base : Path}
    (hbase : files.canonicalize project
      (String.ofList (trimEnd '/' (dirPart pattern))) = some base)
    (hdir : files.isDir base = true)
    (hother : ¬ (dirPart pattern ≠ [] ∧ ∀ c ∈ dirPart pattern, c = '/')) :
    files.canonicalize project (String.ofList (dirPart pattern)) =
      some base := by
  have hsplit : trimEnd '/' (dirPart pattern) ++
      (dirPart pattern).rtakeWhile (· = '/') = dirPart pattern :=
    List.rdropWhile_append_rtakeWhile
  have hback : ∀ c ∈ (dirPart pattern).rtakeWhile (· = '/'), c = '/' := by
    intro c hc
    simpa using List.mem_rtakeWhile_imp hc
  by_cases htrim : trimEnd '/' (dirPart pattern) = []
  · rw [htrim, List.nil_append] at hsplit
    rw [hsplit] at hback
    have hnil : dirPart pattern = [] :=
      not_not.mp fun hne => hother ⟨hne, hback⟩
    rw [htrim] at hbase
    rw [hnil]
    exact hbase
  · rw [← hsplit]
    exact canonicalize_append_slashes htrim hback hdir hbase

/-- A directory under the one that is read; a linked one is passed over. -/
def ReadUnder (files : FileSystem) (base dir : Path) : Prop :=
  ∃ name, dir = base ++ [name] ∧ files.isOwnDir dir = true

/-- The members are the directories that the pattern matches. -/
def SameDirs (files : FileSystem) (project : Path) (pattern : String)
    (base : Path) : Prop :=
  ∀ dir, ReadUnder files base dir ↔ Matches files project pattern dir

theorem matches_iff (hstar : '*' ∈ pattern.toList) {base : Path}
    (hbase : files.canonicalize project
      (String.ofList (dirPart pattern)) = some base) (dir : Path) :
    Matches files project pattern dir ↔
      ∃ name, dir = base ++ [name] ∧ files.isDir dir = true ∧
        name.StartsWith (lastPart pattern) := by
  unfold Matches
  rw [if_pos hstar]
  simp only [hbase, Option.some.injEq, ↓existsAndEq, true_and]

/-- The directories that continue the last part are those that are no
links. -/
def ContinueIffOwn (files : FileSystem) (last : List Char) (base : Path) :
    Prop :=
  ∀ name, files.isDir (base ++ [name]) = true →
    (name.StartsWith last ↔ files.isLink (base ++ [name]) = false)

/-- Read where the pattern matches. -/
theorem sameDirs_iff_of_same (hstar : '*' ∈ pattern.toList) {base : Path}
    (hbase : files.canonicalize project
      (String.ofList (dirPart pattern)) = some base) :
    SameDirs files project pattern base ↔
      ContinueIffOwn files (lastPart pattern) base := by
  have hown : ∀ dir, files.isOwnDir dir = true ↔
      files.isDir dir = true ∧ files.isLink dir = false := by
    simp [FileSystem.isOwnDir]
  unfold SameDirs ReadUnder ContinueIffOwn
  simp only [matches_iff hstar hbase, hown]
  constructor
  · intro hsame name hdir
    have hname : ∀ P : OsStr → Prop,
        (∃ other, base ++ [name] = base ++ [other] ∧
          files.isDir (base ++ [name]) = true ∧ P other) ↔ P name := by
      intro P
      simp [hdir]
    have hboth := hsame (base ++ [name])
    rw [hname fun _ => files.isLink (base ++ [name]) = false,
      hname fun other => other.StartsWith (lastPart pattern)] at hboth
    exact hboth.symm
  · intro hall dir
    refine exists_congr fun name => and_congr_right ?_
    rintro rfl
    exact and_congr_right fun hdir => (hall name hdir).symm

/-- Slashes alone stand for the root, but the project is read. -/
theorem sameDirs_iff_of_root (hstar : '*' ∈ pattern.toList)
    (hlast : lastPart pattern = [])
    (hdir : files.isDir project = true)
    (hroot : files.canonicalize project
      (String.ofList (dirPart pattern)) = some []) :
    SameDirs files project pattern project ↔
      project = [] ∧ ContinueIffOwn files (lastPart pattern) [] := by
  constructor
  · intro hsame
    have hproject : project = [] := by
      cases hcons : project with
      | nil => rfl
      | cons first rest =>
          have hfirst : files.isDir [first] = true := by
            rw [hcons] at hdir
            have hnode : files.get? (first :: rest) = some .dir := by
              simpa [FileSystem.isDir, dirIn, FileSystem.get?] using hdir
            rcases FileSystem.isDir_of_within hnode
              (List.prefix_append [first] rest) with heq | hparent
            · rwa [heq] at hdir
            · exact hparent
          obtain ⟨name, hname, -⟩ := (hsame [first]).mpr
            ((matches_iff hstar hroot _).mpr ⟨first, rfl, hfirst, by
              rw [hlast]
              exact first.startsWith_nil⟩)
          rw [hcons] at hname
          simp at hname
    refine ⟨hproject, (sameDirs_iff_of_same hstar hroot).mp ?_⟩
    rwa [hproject] at hsame ⊢
  · rintro ⟨rfl, hown⟩
    exact (sameDirs_iff_of_same hstar hroot).mpr hown

/-- Where a last name leads to. -/
theorem followStep_cases {parent base : Path} {last : List Char}
    (hne : last ≠ [])
    (hstep : files.followStep parent (.text (String.ofList last)) =
      some base) :
    last = ['.', '.'] ∧ base = parent.dropLast ∨
      last = ['.'] ∧ base = parent ∨
      last ≠ ['.', '.'] ∧ last ≠ ['.'] ∧
        files.follow (parent ++ [.text (String.ofList last)]) =
          some base := by
  have hname : ∀ text : List Char, OsStr.text (String.ofList last) =
      OsStr.text (String.ofList text) ↔ last = text := by
    intro text
    rw [OsStr.text.injEq, String.ofList_inj]
  have hup : OsStr.text (String.ofList last) = OsStr.text ".." ↔
      last = ['.', '.'] := hname ['.', '.']
  have hhere : OsStr.text (String.ofList last) = OsStr.text "." ↔
      last = ['.'] := hname ['.']
  have hempty : OsStr.text (String.ofList last) = OsStr.text "" ↔
      last = [] := hname []
  simp only [FileSystem.followStep, FileSystem.resolveStep, hup, hhere,
    hempty, hne, or_false] at hstep
  by_cases htwo : last = ['.', '.']
  · rw [if_pos (.inl htwo), if_pos htwo, Option.some.injEq] at hstep
    exact .inl ⟨htwo, hstep.symm⟩
  · by_cases hone : last = ['.']
    · rw [if_pos (.inr hone), if_neg htwo, if_pos hone, Option.some.injEq]
        at hstep
      exact .inr (.inl ⟨hone, hstep.symm⟩)
    · rw [if_neg (not_or.mpr ⟨htwo, hone⟩)] at hstep
      exact .inr (.inr ⟨htwo, hone, hstep⟩)

/-- A last part is a directory itself: the pattern matches it, but what lies
below it is read. -/
theorem sameDirs_iff_of_last (hstar : '*' ∈ pattern.toList)
    {base parent : Path} (hne : lastPart pattern ≠ [])
    (hparent : files.canonicalize project
      (String.ofList (dirPart pattern)) = some parent)
    (hstep : files.followStep parent
      (.text (String.ofList (lastPart pattern))) = some base)
    (hdir : files.isDir base = true) :
    SameDirs files project pattern base ↔
      (lastPart pattern = ['.'] ∨
        lastPart pattern = ['.', '.'] ∧ parent = []) ∧
      ContinueIffOwn files (lastPart pattern) parent := by
  have hparentDir := isOwnDir_of_canonicalize_dirPart hparent
  rcases followStep_cases hne hstep with
    ⟨hup, rfl⟩ | ⟨hhere, rfl⟩ | ⟨hup, hhere, hfollow⟩
  · rcases List.eq_nil_or_concat parent with rfl | ⟨front, name, rfl⟩
    · rw [List.dropLast_nil, sameDirs_iff_of_same hstar hparent]
      exact (and_iff_right (Or.inr ⟨hup, rfl⟩)).symm
    · -- the parent is read, but it is not in itself
      refine iff_of_false ?_ ?_
      · intro hsame
        obtain ⟨other, hother, -⟩ := (matches_iff hstar hparent _).mp
          ((hsame (front.concat name)).mp ⟨name, by
            rw [List.concat_eq_append, List.dropLast_concat],
            hparentDir⟩)
        simp at hother
      · rintro ⟨hdot | ⟨-, hnil⟩, -⟩
        · rw [hup] at hdot
          simp at hdot
        · simp at hnil
  · rw [sameDirs_iff_of_same hstar hparent]
    exact (and_iff_right (Or.inl hhere)).symm
  · obtain ⟨hkind, hlink⟩ := FileSystem.follow_eq_some hfollow
    refine iff_of_false ?_ ?_
    · intro hsame
      obtain ⟨other, hother, hown⟩ := (hsame _).mpr
        ((matches_iff hstar hparent _).mpr
          ⟨_, rfl, hkind.trans hdir, OsStr.startsWith_self _⟩)
      rcases hlink with heq | hlink
      · rw [heq] at hother
        simp at hother
      · rw [FileSystem.isOwnDir, hlink] at hown
        simp at hown
    · rintro ⟨hdot | ⟨htwo, -⟩, -⟩
      · exact hhere hdot
      · exact hup htwo

/-- The directory that is read is the one in which the pattern matches:
nothing follows the last slash, and there is more than slashes, or the project
is the root; or the last part is a dot that stays in its directory. -/
def ReadsInPlace (files : FileSystem) (project : Path) (pattern : String) :
    Prop :=
  if lastPart pattern = [] then
    dirPart pattern ≠ [] → (∀ c ∈ dirPart pattern, c = '/') → project = []
  else
    lastPart pattern = ['.'] ∨ lastPart pattern = ['.', '.'] ∧
      files.canonicalize project (String.ofList (dirPart pattern)) = some []

/-- The pattern has no star; or it is read in place, and the directories there
that continue its last part are those that are no links. -/
def ReadsMatches (files : FileSystem) (project : Path) (pattern : String) :
    Prop :=
  '*' ∈ pattern.toList → ReadsInPlace files project pattern ∧
    ∀ parent, files.canonicalize project
        (String.ofList (dirPart pattern)) = some parent →
      ContinueIffOwn files (lastPart pattern) parent

theorem sameDirs_iff (hstar : '*' ∈ pattern.toList) {base : Path}
    (hbase : files.canonicalize project
      (String.ofList (trimEnd '/' (stem pattern))) = some base)
    (hdir : files.isDir base = true) :
    SameDirs files project pattern base ↔
      ReadsMatches files project pattern := by
  unfold ReadsMatches ReadsInPlace
  rw [← dirPart_append_lastPart] at hbase
  by_cases hlast : lastPart pattern = []
  · rw [hlast, List.append_nil] at hbase
    rw [if_pos hlast, forall_prop_of_true hstar]
    by_cases hslashes :
        dirPart pattern ≠ [] ∧ ∀ c ∈ dirPart pattern, c = '/'
    · obtain ⟨rfl, hroot⟩ :=
        canonicalize_trimmed_slashes hbase hslashes.1 hslashes.2
      rw [sameDirs_iff_of_root hstar hlast hdir hroot]
      simp only [hroot, Option.some.injEq, forall_eq', hslashes.1,
        forall_prop_of_true hslashes.2, ne_eq, not_false_eq_true,
        true_imp_iff]
    · have htrimmed := canonicalize_trimmed hbase hdir hslashes
      rw [sameDirs_iff_of_same hstar htrimmed]
      simp only [htrimmed, Option.some.injEq, forall_eq']
      exact (and_iff_right fun hne hall => absurd ⟨hne, hall⟩ hslashes).symm
  · have htrim : trimEnd '/' (dirPart pattern ++ lastPart pattern) =
        dirPart pattern ++ lastPart pattern := by
      rw [trimEnd, List.rdropWhile_eq_self_iff]
      intro hne hslash
      rw [List.getLast_append_of_ne_nil hne hlast, decide_eq_true_eq]
        at hslash
      exact slash_notMem_lastPart pattern (hslash ▸ List.getLast_mem hlast)
    rw [htrim, dirPart_append_lastPart, canonicalize_stem_iff] at hbase
    obtain ⟨parent, hparent, hstep, -⟩ := hbase
    rw [sameDirs_iff_of_last hstar hlast hparent hstep hdir, if_neg hlast,
      forall_prop_of_true hstar]
    simp only [hparent, Option.some.injEq, forall_eq']

theorem exists_manifest_of_manifestsIn
    {members : List (Option Path × String)} {manifests : List Manifest}
    (hok : manifestsIn files pattern members = .ok manifests)
    {dir : Path} {shown : String} (hdir : (some dir, shown) ∈ members)
    (hmanifest : files.exists? (cargoToml dir) = true) :
    ∃ manifest ∈ manifests, manifest.dir = dir := by
  induction members generalizing manifests with
  | nil => cases hdir
  | cons member rest ih =>
      unfold manifestsIn at hok
      rcases List.mem_cons.mp hdir with heq | hrest
      · subst heq
        simp only [Option.filter_some, hmanifest, if_true] at hok
        obtain ⟨later, -, hmanifests⟩ := bind_eq_ok_iff.mp hok
        cases hmanifests
        exact ⟨_, List.mem_cons_self, rfl⟩
      · split at hok
        · obtain ⟨later, hlater, hmanifests⟩ := bind_eq_ok_iff.mp hok
          cases hmanifests
          obtain ⟨manifest, hmem, hsame⟩ := ih hlater hrest
          exact ⟨manifest, List.mem_cons_of_mem _ hmem, hsame⟩
        · split at hok
          · exact ih hok hrest
          · cases hok

/-- The manifests in the directories of an entry are among those that are
listed. -/
theorem exists_manifest_of_memberManifests {values : List Toml}
    {manifests : List Manifest}
    (hok : memberManifests files project values = .ok manifests)
    (hmember : .string pattern ∈ values)
    {members : List (Option Path × String)}
    (hmembers : expandMemberPattern files project pattern = .ok members)
    {dir : Path} {shown : String} (hdir : (some dir, shown) ∈ members)
    (hmanifest : files.exists? (cargoToml dir) = true) :
    ∃ manifest ∈ manifests, manifest.dir = dir := by
  induction values generalizing manifests with
  | nil => cases hmember
  | cons value rest ih =>
      unfold memberManifests at hok
      rcases List.mem_cons.mp hmember with rfl | hrest
      · simp only [Toml.asStr, hmembers, ok_bind] at hok
        obtain ⟨found, hfound, hok⟩ := bind_eq_ok_iff.mp hok
        obtain ⟨later, -, hmanifests⟩ := bind_eq_ok_iff.mp hok
        cases hmanifests
        obtain ⟨manifest, hmem, hsame⟩ :=
          exists_manifest_of_manifestsIn hfound hdir hmanifest
        exact ⟨manifest, List.mem_append_left _ hmem, hsame⟩
      · split at hok
        · exact ih hok hrest
        · obtain ⟨dirs, -, hok⟩ := bind_eq_ok_iff.mp hok
          obtain ⟨found, -, hok⟩ := bind_eq_ok_iff.mp hok
          obtain ⟨later, hlater, hmanifests⟩ := bind_eq_ok_iff.mp hok
          cases hmanifests
          obtain ⟨manifest, hmem, hsame⟩ := ih hlater hrest
          exact ⟨manifest, List.mem_append_right _ hmem, hsame⟩

/-- The members are the directories that the pattern matches, and the
manifest of each of them that has one is inspected. -/
structure MeansGlob (files : FileSystem) (project : Path) (pattern : String)
    (members : List (Option Path × String)) : Prop where
  exact : ∀ dir, (∃ shown, (some dir, shown) ∈ members) ↔
    Matches files project pattern dir
  inspected : ∀ host doc manifests,
    readManifest host files (rootManifest project) = .ok doc →
    .string pattern ∈ workspaceMembers doc →
    discoverManifests host files project = .ok manifests →
    ∀ dir, Matches files project pattern dir →
      files.exists? (cargoToml dir) = true →
      ∃ manifest ∈ manifests, manifest.dir = dir

theorem exact_iff {members : List (Option Path × String)}
    (hok : expandMemberPattern files project pattern = .ok members) :
    (∀ dir, (∃ shown, (some dir, shown) ∈ members) ↔
      Matches files project pattern dir) ↔
      ReadsMatches files project pattern := by
  by_cases hstar : '*' ∈ pattern.toList
  · obtain ⟨base, dirs, hbase, hdirs, rfl⟩ :=
      expandMemberPattern_glob hok hstar
    rw [← sameDirs_iff hstar hbase (exists_globDirs_iff.mp ⟨dirs, hdirs⟩).1]
    refine forall_congr' fun dir => iff_congr ?_ Iff.rfl
    rw [ReadUnder, ← mem_globDirs_iff hdirs]
    simp
  · unfold expandMemberPattern at hok
    rw [if_pos hstar] at hok
    cases hok
    refine iff_of_true ?_ fun h => absurd h hstar
    intro dir
    unfold Matches
    rw [if_neg hstar]
    simp [eq_comm]

/-- A pattern means what a glob means exactly when it is read where it
matches. -/
theorem meansGlob_iff {members : List (Option Path × String)}
    (hok : expandMemberPattern files project pattern = .ok members) :
    MeansGlob files project pattern members ↔
      ReadsMatches files project pattern := by
  rw [← exact_iff hok]
  constructor
  · exact MeansGlob.exact
  · intro hexact
    refine ⟨hexact, ?_⟩
    intro host doc manifests hdoc hmember hdiscover dir hmatches hmanifest
    obtain ⟨root, hroot, hrest⟩ := bind_eq_ok_iff.mp hdiscover
    rw [hdoc] at hroot
    cases hroot
    obtain ⟨found, hfound, hmanifests⟩ := bind_eq_ok_iff.mp hrest
    cases hmanifests
    obtain ⟨shown, hdir⟩ := (hexact dir).mpr hmatches
    obtain ⟨manifest, hmem, hsame⟩ := exists_manifest_of_memberManifests
      hfound hmember hok hdir hmanifest
    exact ⟨manifest, List.mem_cons_of_mem _ hmem, hsame⟩

/-- A workspace with the crates `foo` and `foobar`; there is a directory in
the first. -/
def cratesFiles : FileSystem where
  nodes := ⟨[
    (["app"], .dir), (["app", "crates"], .dir),
    (["app", "crates", "foo"], .dir), (["app", "crates", "foo", "src"], .dir),
    (["app", "crates", "foobar"], .dir)], by decide⟩
  closed := by decide

theorem meansGlob_iff_crates :
    ∃ members, expandMemberPattern cratesFiles ["app"] "crates/*" =
        .ok members ∧
      (MeansGlob cratesFiles ["app"] "crates/*" members ↔
        ReadsMatches cratesFiles ["app"] "crates/*") :=
  ⟨_, rfl, meansGlob_iff rfl⟩

/-- The crate `foobar` is left out, and what lies in `foo` is taken for a
member. -/
theorem crates_not_meansGlob :
    ∃ members, expandMemberPattern cratesFiles ["app"] "crates/foo*" =
        .ok members ∧
      members.map Prod.fst = [some (["app", "crates", "foo", "src"] : Path)] ∧
      ¬ MeansGlob cratesFiles ["app"] "crates/foo*" members := by
  obtain ⟨members, hok, hread⟩ : ∃ members,
      expandMemberPattern cratesFiles ["app"] "crates/foo*" = .ok members ∧
        members.map Prod.fst =
          [some (["app", "crates", "foo", "src"] : Path)] :=
    ⟨_, rfl, by decide +kernel⟩
  refine ⟨members, hok, hread, ?_⟩
  intro hmeans
  have hmatches : Matches cratesFiles ["app"] "crates/foo*"
      ["app", "crates", "foobar"] := by
    have hlast : lastPart "crates/foo*" <+: "foobar".toList := by
      decide +kernel
    unfold Matches
    rw [if_pos (by decide)]
    exact ⟨["app", "crates"], .text "foobar", by decide +kernel, rfl,
      by decide, hlast⟩
  obtain ⟨shown, hshown⟩ := (hmeans.exact _).mpr hmatches
  have hmember : some (["app", "crates", "foobar"] : Path) ∈
      members.map Prod.fst := List.mem_map.mpr ⟨_, hshown, rfl⟩
  rw [hread] at hmember
  exact absurd hmember (by decide +kernel)

end Toolchain

end Kettle
