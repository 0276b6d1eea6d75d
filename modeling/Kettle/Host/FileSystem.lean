/-
The files of the machine, and the calls that kettle makes on them.  A path
shows what it leads to, through symbolic links; marks tell which entries are
links, which files have several names, and what may not be read.
-/
import Kettle.Host.OsStr
import Kettle.Lib.AssocMap
import Kettle.Lib.Bytes
import Kettle.Lib.Result

namespace Kettle

/-- The components of an absolute path. -/
abbrev Path := List OsStr

namespace Path

def display (path : Path) : String :=
  "/" ++ String.intercalate "/" (path.map OsStr.toStringLossy)

/-- `path` is `dir` or lies below it (`starts_with`). -/
def Within (dir path : Path) : Prop := dir <+: path

instance (dir path : Path) : Decidable (Within dir path) :=
  inferInstanceAs (Decidable (dir <+: path))

end Path

structure File where
  executable : Bool
  contents : Bytes
deriving DecidableEq, Repr

inductive Node where
  | file (file : File)
  | dir
deriving DecidableEq, Repr

/-- What is to be known of an entry beside what it shows. -/
inductive Mark where
  /-- The entry is a symbolic link that leads there in the end. -/
  | link (target : Path)
  /-- The file goes by every name with this number, also when it is made
  through a link that leads nowhere yet. -/
  | shared (inode : Nat)
  /-- Kettle may not read it. -/
  | denied
deriving DecidableEq, Repr

/-- The root directory is always there. -/
def dirIn (nodes : AssocMap Path Node) (path : Path) : Bool :=
  path.isEmpty || nodes.get? path = some .dir

/-- A tree: everything lies in a directory. -/
structure FileSystem where
  nodes : AssocMap Path Node
  closed : ∀ entry ∈ nodes.entries,
    entry.1 ≠ [] ∧ dirIn nodes entry.1.dropLast = true
  marks : List (Path × Mark) := []

namespace FileSystem

def get? (files : FileSystem) (path : Path) : Option Node :=
  files.nodes.get? path

def isDir (files : FileSystem) (path : Path) : Bool :=
  dirIn files.nodes path

theorem isDir_of_get? {files : FileSystem} {path : Path} {node : Node}
    (hnode : files.get? path = some node) :
    path ≠ [] ∧ files.isDir path.dropLast = true :=
  files.closed (path, node) (AssocMap.mem_entries_iff.mpr hnode)

/-- Whether a node may be put there: in a directory, and not in place of
one, unless it is one itself. -/
def Puttable (files : FileSystem) (path : Path) (node : Node) : Prop :=
  path ≠ [] ∧ files.isDir path.dropLast = true ∧
    (files.get? path = some .dir → node = .dir)

instance (files : FileSystem) (path : Path) (node : Node) :
    Decidable (files.Puttable path node) :=
  inferInstanceAs (Decidable (_ ∧ _ ∧ _))

theorem dirIn_insert {files : FileSystem} {path parent : Path} {node : Node}
    (hput : files.Puttable path node)
    (hparent : dirIn files.nodes parent = true) :
    dirIn (files.nodes.insert path node) parent = true := by
  unfold dirIn at hparent ⊢
  rw [AssocMap.get?_insert]
  by_cases hpath : path = parent
  · subst hpath
    have hdir : files.get? path = some .dir := by
      simpa [hput.1, get?] using hparent
    rw [hput.2.2 hdir]
    simp
  · simpa [hpath] using hparent

def put (files : FileSystem) (path : Path) (node : Node) : FileSystem :=
  if hput : files.Puttable path node then
    { files with
      nodes := files.nodes.insert path node
      closed := by
        rintro ⟨other, value⟩ hentry
        rw [AssocMap.mem_entries_iff, AssocMap.get?_insert] at hentry
        by_cases hpath : path = other
        · subst hpath
          exact ⟨hput.1, dirIn_insert hput hput.2.1⟩
        · rw [if_neg hpath] at hentry
          have hother := isDir_of_get? hentry
          exact ⟨hother.1, dirIn_insert hput hother.2⟩ }
  else files

/-- All that does not lie in the directory. -/
def without (files : FileSystem) (dir : Path) : FileSystem where
  nodes := files.nodes.filterKeys fun path => !dir.isPrefixOf path
  closed := by
    rintro ⟨path, node⟩ hentry
    rw [AssocMap.mem_entries_iff, AssocMap.get?_filterKeys] at hentry
    split at hentry
    · rename_i hkeep
      have hpath := isDir_of_get? hentry
      refine ⟨hpath.1, ?_⟩
      have hparent := hpath.2
      unfold isDir dirIn at hparent
      unfold dirIn
      rw [AssocMap.get?_filterKeys]
      have hkeepParent : dir.isPrefixOf path.dropLast = false := by
        rw [← Bool.not_eq_true, List.isPrefixOf_iff_prefix]
        intro hin
        have hfront : dir.isPrefixOf path = true :=
          List.isPrefixOf_iff_prefix.mpr
            (hin.trans (List.dropLast_prefix path))
        simp [hfront] at hkeep
      simpa [hkeepParent] using hparent
    · cases hentry
  marks := files.marks.filter fun mark => !dir.isPrefixOf mark.1

def fileAt (files : FileSystem) (path : Path) : Option File :=
  match files.get? path with
  | some (.file file) => some file
  | _ => none

def isFile (files : FileSystem) (path : Path) : Bool :=
  (files.fileAt path).isSome

def exists? (files : FileSystem) (path : Path) : Bool :=
  files.isDir path || files.isFile path

/-- Where the symbolic link at a path leads; the root is none. -/
def linkTarget? (files : FileSystem) (path : Path) : Option Path :=
  files.marks.findSome? fun mark =>
    match mark.2 with
    | .link target =>
        if path ≠ [] ∧ mark.1 = path then some target else none
    | _ => none

/-- `symlink_metadata` says that it is a symbolic link. -/
def isLink (files : FileSystem) (path : Path) : Bool :=
  (files.linkTarget? path).isSome

/-- A file itself, not a link to one (`file_type`). -/
def isOwnFile (files : FileSystem) (path : Path) : Bool :=
  files.isFile path && !files.isLink path

/-- A directory itself, not a link to one (`file_type`). -/
def isOwnDir (files : FileSystem) (path : Path) : Bool :=
  files.isDir path && !files.isLink path

def isDenied (files : FileSystem) (path : Path) : Bool :=
  (path, .denied) ∈ files.marks

/-- Two names of one file. -/
def sameFile (files : FileSystem) (path other : Path) : Bool :=
  path = other || files.marks.any fun mark =>
    mark.1 = path && match mark.2 with
      | .shared inode => (other, .shared inode) ∈ files.marks
      | _ => false

def read (files : FileSystem) (path : Path) : Except String Bytes :=
  match files.fileAt path with
  | some file =>
      if files.isDenied path then .error s!"failed to open file {path.display}"
      else .ok file.contents
  | none => .error s!"failed to open file {path.display}"

/-- The names in a directory, in the order the system lists them. -/
def readDir (files : FileSystem) (dir : Path) :
    Except String (List OsStr) :=
  if files.isDir dir && !files.isDenied dir then
    .ok (files.nodes.entries.filterMap fun entry =>
      if entry.1.dropLast = dir then entry.1.getLast? else none)
  else .error s!"failed to read directory {dir.display}"

/-- Of a link, only the link itself is removed. -/
def removeDirAll (files : FileSystem) (dir : Path) :
    Except String FileSystem :=
  if files.isDir dir || files.isLink dir then .ok (files.without dir)
  else .error s!"failed to remove directory {dir.display}"

def removeFile (files : FileSystem) (path : Path) :
    Except String FileSystem :=
  if files.isFile path || files.isLink path then
    .ok { files.without path with
      marks := files.marks.filter fun mark => mark.1 ≠ path }
  else .error s!"failed to remove file {path.display}"

/-- A new directory, of which nothing is known yet. -/
def makeDir (files : FileSystem) (path : Path) : FileSystem :=
  { files.put path .dir with
    marks := files.marks.filter fun mark => !path.isPrefixOf mark.1 }

/-- The missing directories on the way from `dir` down. -/
def createDirs (files : FileSystem) (dir : Path) :
    Path → Except String FileSystem
  | [] => .ok files
  | name :: rest =>
      match files.get? (dir ++ [name]) with
      | some (.file _) =>
          .error s!"failed to create directory {Path.display (dir ++ [name])}"
      | some .dir => createDirs files (dir ++ [name]) rest
      | none =>
          -- a link that leads nowhere is in the way
          if files.isLink (dir ++ [name]) then
            .error s!"failed to create directory {Path.display (dir ++ [name])}"
          else createDirs (files.makeDir (dir ++ [name])) (dir ++ [name]) rest

def createDirAll (files : FileSystem) (path : Path) :
    Except String FileSystem :=
  files.createDirs [] path

/-- The names of the file at a path, itself first. -/
def namesOf (files : FileSystem) (path : Path) : List Path :=
  path :: (files.marks.map Prod.fst).filter (files.sameFile path)

def putAll (file : File) : List Path → FileSystem → FileSystem
  | [], files => files
  | name :: rest, files => putAll file rest (files.put name (.file file))

/-- What is written under one name is seen under all. -/
def writeThrough (files : FileSystem) (path : Path) (file : File) :
    FileSystem :=
  putAll file (files.namesOf path) files

/-- A file can be put there: in a directory, and in place of none.  So it is
where a link leads. -/
def Writable (files : FileSystem) (path : Path) : Prop :=
  path ≠ [] ∧ files.isDir path.dropLast = true ∧ files.isDir path = false ∧
    ∀ target ∈ files.linkTarget? path, files.isDir target.dropLast = true

instance (files : FileSystem) (path : Path) :
    Decidable (files.Writable path) :=
  inferInstanceAs (Decidable (_ ∧ _ ∧ _ ∧ ∀ target ∈ _, _))

/-- Create a file, or overwrite the one that the path leads to. -/
def writeFile (files : FileSystem) (path : Path) (file : File) :
    Except String FileSystem :=
  if files.Writable path then .ok (files.writeThrough path file)
  else .error s!"failed to write file {path.display}"

/-- The file may be read under all its names. -/
def allow (files : FileSystem) (path : Path) : FileSystem :=
  { files with
    marks := files.marks.filter fun mark =>
      !(files.sameFile path mark.1 && !files.isDir mark.1 &&
        mark.2 = .denied) }

/-- `std::fs::copy` takes the permissions along.  A file that is copied onto
itself is truncated before it is read. -/
def copy (files : FileSystem) (source dest : Path) :
    Except String FileSystem :=
  match files.fileAt source with
  | some file =>
      if files.isDenied source then
        .error s!"failed to copy file from {source.display}"
      else
        (files.writeFile dest (if files.sameFile source dest then
          { file with contents := [] } else file)).map fun files =>
            files.allow dest
  | none => .error s!"failed to copy file from {source.display}"

/-- `set_permissions` to `0o644`. -/
def setPermissions (files : FileSystem) (path : Path) : FileSystem :=
  match files.fileAt path with
  | some file =>
      (files.writeThrough path { file with executable := false }).allow path
  | none => files

/-- One component of a path that is resolved. -/
def resolveStep (here : Path) (name : OsStr) : Path :=
  if name = ".." then here.dropLast
  else if name = "." ∨ name = "" then here
  else here ++ [name]

/-- Where an entry leads.  A link may lead nowhere, or in a circle. -/
def follow (files : FileSystem) (path : Path) : Option Path :=
  match files.linkTarget? path with
  | none => some path
  | some target =>
      if files.isDir target = files.isDir path ∧ files.isLink target = false
      then some target
      else none

def followStep (files : FileSystem) (here : Path) (name : OsStr) :
    Option Path :=
  if name = ".." ∨ name = "." ∨ name = "" then some (resolveStep here name)
  else files.follow (here ++ [name])

/-- Components are resolved one after the other, each in a directory that is
there. -/
def resolve (files : FileSystem) : Path → Path → Option Path
  | here, [] =>
      if files.exists? here && !files.isLink here then some here else none
  | here, name :: rest =>
      if files.isOwnDir here then
        (files.followStep here name).bind fun next => files.resolve next rest
      else none

def components (text : String) : Path :=
  (text.toList.splitOn '/').map fun name => String.ofList name

/-- Where `base.join(text)` leads, if it is there (`canonicalize`). -/
def canonicalize (files : FileSystem) (base : Path) (text : String) :
    Option Path :=
  if text.toList.head? = some '/' then files.resolve [] (components text)
  else files.resolve base (components text)

/-- Where a name leads depends on the directories and the links alone. -/
theorem followStep_congr {left right : FileSystem}
    (hdir : ∀ path, left.isDir path = right.isDir path)
    (hlink : ∀ path, left.linkTarget? path = right.linkTarget? path)
    (here : Path) (name : OsStr) :
    left.followStep here name = right.followStep here name := by
  unfold followStep follow isLink
  simp only [hdir, hlink]

/-- An entry shows a directory exactly when it leads to one; where it leads
elsewhere, it is a link. -/
theorem follow_eq_some {files : FileSystem} {path target : Path}
    (hfollow : files.follow path = some target) :
    files.isDir path = files.isDir target ∧
      (path = target ∨ files.isLink path = true) := by
  unfold follow at hfollow
  cases hlink : files.linkTarget? path with
  | none =>
      rw [hlink, Option.some.injEq] at hfollow
      exact ⟨by rw [hfollow], .inl hfollow⟩
  | some other =>
      simp only [hlink, Option.ite_none_right_eq_some, Option.some.injEq]
        at hfollow
      obtain ⟨⟨hdir, -⟩, rfl⟩ := hfollow
      exact ⟨hdir.symm, .inr (by rw [isLink, hlink]; rfl)⟩

theorem isOwnDir_congr {left right : FileSystem}
    (hdir : ∀ path, left.isDir path = right.isDir path)
    (hlink : ∀ path, left.linkTarget? path = right.linkTarget? path)
    (path : Path) : left.isOwnDir path = right.isOwnDir path := by
  rw [isOwnDir, isOwnDir, isLink, isLink, hdir, hlink]

theorem read_eq_ok_iff {files : FileSystem} {path : Path} {bytes : Bytes} :
    files.read path = .ok bytes ↔
      (∃ file, files.fileAt path = some file ∧ file.contents = bytes) ∧
        files.isDenied path = false := by
  unfold read
  cases files.fileAt path with
  | none => simp
  | some file => cases files.isDenied path <;> simp

theorem fileAt_of_read {files : FileSystem} {path : Path} {bytes : Bytes}
    (hok : files.read path = .ok bytes) :
    ∃ file, files.fileAt path = some file ∧ file.contents = bytes :=
  (read_eq_ok_iff.mp hok).1

theorem get?_put (files : FileSystem) (path other : Path) (node : Node) :
    (files.put path node).get? other =
      if path = other ∧ files.Puttable path node then some node
      else files.get? other := by
  unfold put
  by_cases hput : files.Puttable path node
  · rw [dif_pos hput]
    simp only [get?, AssocMap.get?_insert, hput, and_true]
  · rw [dif_neg hput, if_neg fun h => hput h.2]

theorem get?_without (files : FileSystem) (dir path : Path) :
    (files.without dir).get? path =
      if Path.Within dir path then none else files.get? path := by
  simp only [get?, without, AssocMap.get?_filterKeys]
  by_cases hin : Path.Within dir path
  · have hfront : dir.isPrefixOf path = true :=
      List.isPrefixOf_iff_prefix.mpr hin
    simp [hin, hfront]
  · have hfront : dir.isPrefixOf path = false := by
      rw [← Bool.not_eq_true, List.isPrefixOf_iff_prefix]
      exact hin
    simp [hin, hfront]

theorem fileAt_put_of_ne {files : FileSystem} {path other : Path}
    {node : Node} (hne : path ≠ other) :
    (files.put path node).fileAt other = files.fileAt other := by
  unfold fileAt
  rw [get?_put, if_neg fun h => hne h.1]

/-- A new directory is no file. -/
theorem fileAt_put_dir {files : FileSystem} {path : Path}
    (hnone : files.fileAt path = none) :
    (files.put path .dir).fileAt path = none := by
  unfold fileAt
  rw [get?_put]
  by_cases hput : files.Puttable path .dir
  · rw [if_pos ⟨rfl, hput⟩]
  · rw [if_neg fun h => hput h.2]
    exact hnone

theorem fileAt_without (files : FileSystem) (dir path : Path) :
    (files.without dir).fileAt path =
      if Path.Within dir path then none else files.fileAt path := by
  unfold fileAt
  rw [get?_without]
  by_cases hin : Path.Within dir path
  · simp only [hin, if_true]
  · simp only [hin, if_false]

/-- A removal leaves no file below the directory, and all others. -/
theorem fileAt_removeDirAll {files rest : FileSystem} {dir : Path}
    (hok : files.removeDirAll dir = .ok rest) (path : Path) :
    rest.fileAt path =
      if Path.Within dir path then none else files.fileAt path := by
  unfold removeDirAll at hok
  split at hok
  · cases hok
    exact fileAt_without files dir path
  · cases hok

/-- What lies below a path is there only if the path is a directory. -/
theorem isDir_of_within {files : FileSystem} {dir path : Path} {node : Node}
    (hnode : files.get? path = some node) (hin : Path.Within dir path) :
    path = dir ∨ files.isDir dir = true := by
  obtain ⟨sub, rfl⟩ := hin
  induction sub using List.reverseRecOn generalizing node with
  | nil => exact Or.inl (List.append_nil dir)
  | append_singleton sub name ih =>
      right
      have hparent := (isDir_of_get? hnode).2
      rw [← List.append_assoc, List.dropLast_concat] at hparent
      unfold isDir dirIn at hparent
      rw [Bool.or_eq_true, decide_eq_true_eq] at hparent
      rcases hparent with hempty | hdir
      · have hroot : dir = [] := by
          simp only [List.isEmpty_iff, List.append_eq_nil_iff] at hempty
          exact hempty.1
        rw [hroot]
        rfl
      · rcases ih hdir with heq | hdir'
        · rw [List.append_right_eq_self] at heq
          subst heq
          rw [List.append_nil] at hdir
          unfold isDir dirIn
          simp [hdir]
        · exact hdir'

/-- A new directory changes no file. -/
theorem fileAt_makeDir {files : FileSystem} {path : Path}
    (hnone : files.fileAt path = none) (other : Path) :
    (files.makeDir path).fileAt other = files.fileAt other := by
  have hput : (files.makeDir path).fileAt other =
      (files.put path .dir).fileAt other := rfl
  rw [hput]
  by_cases hpath : path = other
  · rw [← hpath, fileAt_put_dir hnone, hnone]
  · exact fileAt_put_of_ne hpath

/-- Making directories does not touch files. -/
theorem fileAt_createDirs {files rest : FileSystem} {dir sub : Path}
    (hok : files.createDirs dir sub = .ok rest) (path : Path) :
    rest.fileAt path = files.fileAt path := by
  induction sub generalizing files dir with
  | nil =>
      cases hok
      rfl
  | cons name sub ih =>
      unfold createDirs at hok
      split at hok
      · cases hok
      · exact ih hok
      · rename_i hnone
        split at hok
        · cases hok
        · rw [ih hok]
          have hmissing : files.fileAt (dir ++ [name]) = none := by
            rw [fileAt, hnone]
          exact fileAt_makeDir hmissing path

theorem fileAt_createDirAll {files rest : FileSystem} {dir : Path}
    (hok : files.createDirAll dir = .ok rest) (path : Path) :
    rest.fileAt path = files.fileAt path :=
  fileAt_createDirs hok path

/-- Files are put where no directory is. -/
theorem isDir_put_file (files : FileSystem) (path : Path) (file : File)
    (other : Path) :
    (files.put path (.file file)).isDir other = files.isDir other := by
  unfold put
  split
  · rename_i hput
    unfold isDir dirIn
    simp only [AssocMap.get?_insert]
    by_cases hpath : path = other
    · subst hpath
      have hnotDir : files.nodes.get? path ≠ some .dir :=
        fun hdir => Node.noConfusion (hput.2.2 hdir)
      simp [hnotDir]
    · rw [if_neg hpath]
  · rfl

theorem Writable.put {files : FileSystem} {path : Path}
    (hpath : files.Writable path) (other : Path) (file : File) :
    (files.put other (.file file)).Writable path := by
  have hmarks : (files.put other (.file file)).marks = files.marks := by
    unfold FileSystem.put
    split <;> rfl
  unfold Writable linkTarget?
  simp only [isDir_put_file, hmarks]
  exact hpath

theorem Writable.fileAt_put {files : FileSystem} {path : Path}
    (hpath : files.Writable path) (file : File) :
    (files.put path (.file file)).fileAt path = some file := by
  have hput : files.Puttable path (.file file) := by
    refine ⟨hpath.1, hpath.2.1, fun hdir => ?_⟩
    have hisDir : files.isDir path = true := by
      unfold isDir dirIn
      rw [← get?, hdir]
      simp
    rw [hpath.2.2.1] at hisDir
    cases hisDir
  unfold fileAt
  rw [get?_put, if_pos ⟨rfl, hput⟩]

section PutAll

variable {files : FileSystem} {path other : Path} {file : File}
  {names : List Path}

@[simp] theorem marks_put (node : Node) :
    (files.put path node).marks = files.marks := by
  unfold put
  split <;> rfl

@[simp] theorem marks_putAll :
    (putAll file names files).marks = files.marks := by
  induction names generalizing files with
  | nil => rfl
  | cons name rest ih => exact ih.trans (marks_put _)

theorem isDir_putAll :
    (putAll file names files).isDir other = files.isDir other := by
  induction names generalizing files with
  | nil => rfl
  | cons name rest ih => exact ih.trans (isDir_put_file _ _ _ _)

theorem fileAt_putAll_of_notMem (hother : other ∉ names) :
    (putAll file names files).fileAt other = files.fileAt other := by
  induction names generalizing files with
  | nil => rfl
  | cons name rest ih =>
      rw [List.mem_cons, not_or] at hother
      exact (ih hother.2).trans (fileAt_put_of_ne (Ne.symm hother.1))

theorem fileAt_putAll_of_mem (hpath : files.Writable path)
    (hmem : path ∈ names) :
    (putAll file names files).fileAt path = some file := by
  induction names generalizing files with
  | nil => cases hmem
  | cons name rest ih =>
      by_cases hrest : path ∈ rest
      · exact ih (hpath.put _ _) hrest
      · obtain rfl : path = name :=
          (List.mem_cons.mp hmem).resolve_right hrest
        exact (fileAt_putAll_of_notMem hrest).trans (hpath.fileAt_put file)

end PutAll

section Names

variable {files rest : FileSystem} {path other : Path} {file : File}

theorem sameFile_self : files.sameFile path path = true := by
  simp [sameFile]

theorem sameFile_of_mem_namesOf (hmem : other ∈ files.namesOf path) :
    files.sameFile path other = true := by
  rcases List.mem_cons.mp hmem with rfl | hmem
  · exact sameFile_self
  · exact (List.mem_filter.mp hmem).2

theorem fileAt_writeThrough_of_other
    (hother : files.sameFile path other = false) :
    (files.writeThrough path file).fileAt other = files.fileAt other := by
  refine fileAt_putAll_of_notMem fun hmem => ?_
  rw [sameFile_of_mem_namesOf hmem] at hother
  cases hother

theorem writeFile_eq_ok_iff :
    files.writeFile path file = .ok rest ↔
      files.Writable path ∧ files.writeThrough path file = rest := by
  unfold writeFile
  split
  · rename_i hpath
    simp [hpath]
  · rename_i hpath
    simp [hpath]

theorem fileAt_writeFile_self (hok : files.writeFile path file = .ok rest) :
    rest.fileAt path = some file := by
  obtain ⟨hpath, rfl⟩ := writeFile_eq_ok_iff.mp hok
  exact fileAt_putAll_of_mem hpath List.mem_cons_self

/-- A file of another name is left as it is. -/
theorem fileAt_writeFile_of_other (hok : files.writeFile path file = .ok rest)
    (hother : files.sameFile path other = false) :
    rest.fileAt other = files.fileAt other := by
  obtain ⟨-, rfl⟩ := writeFile_eq_ok_iff.mp hok
  exact fileAt_writeThrough_of_other hother

theorem marks_writeFile (hok : files.writeFile path file = .ok rest) :
    rest.marks = files.marks := by
  obtain ⟨-, rfl⟩ := writeFile_eq_ok_iff.mp hok
  exact marks_putAll

theorem isDir_writeFile (hok : files.writeFile path file = .ok rest)
    (other : Path) : rest.isDir other = files.isDir other := by
  obtain ⟨-, rfl⟩ := writeFile_eq_ok_iff.mp hok
  exact isDir_putAll

/-- Two names have a number in common. -/
theorem sameFile_iff : files.sameFile path other = true ↔
    path = other ∨ ∃ inode, (path, .shared inode) ∈ files.marks ∧
      (other, .shared inode) ∈ files.marks := by
  unfold sameFile
  rw [Bool.or_eq_true, decide_eq_true_eq, List.any_eq_true]
  refine or_congr_right ⟨?_, ?_⟩
  · rintro ⟨⟨name, mark⟩, hmem, hsame⟩
    rw [Bool.and_eq_true, decide_eq_true_eq] at hsame
    obtain ⟨rfl, hsame⟩ := hsame
    cases mark with
    | shared inode => exact ⟨inode, hmem, by simpa using hsame⟩
    | link | denied => cases hsame
  · rintro ⟨inode, hpath, hother⟩
    exact ⟨_, hpath, by simp [hother]⟩

theorem sameFile_comm :
    files.sameFile path other = files.sameFile other path := by
  rw [Bool.eq_iff_iff, sameFile_iff, sameFile_iff]
  exact or_congr eq_comm (exists_congr fun inode => And.comm)

theorem isLink_eq_true_iff : files.isLink path = true ↔
    path ≠ [] ∧ ∃ target, (path, .link target) ∈ files.marks := by
  unfold isLink linkTarget?
  rw [List.findSome?_isSome_iff]
  constructor
  · rintro ⟨⟨other, mark⟩, hmem, hsome⟩
    cases mark with
    | link target =>
        simp only [Option.isSome_ite] at hsome
        obtain ⟨hne, rfl⟩ := hsome
        exact ⟨hne, target, hmem⟩
    | shared | denied => cases hsome
  · rintro ⟨hne, target, hmem⟩
    exact ⟨_, hmem, by simp [hne]⟩

@[simp] theorem isLink_nil : files.isLink [] = false := by
  rw [Bool.eq_false_iff]
  exact fun hlink => (isLink_eq_true_iff.mp hlink).1 rfl

/-- With fewer marks, fewer paths are known to be one file. -/
theorem sameFile_of_subset (hmarks : rest.marks ⊆ files.marks)
    (hother : files.sameFile path other = false) :
    rest.sameFile path other = false := by
  rw [Bool.eq_false_iff] at hother ⊢
  intro hsame
  refine hother (sameFile_iff.mpr ?_)
  rcases sameFile_iff.mp hsame with heq | ⟨inode, hpath, hname⟩
  · exact .inl heq
  · exact .inr ⟨inode, hmarks hpath, hmarks hname⟩

/-- The file at the path goes by no other name in these directories. -/
def Apart (files : FileSystem) (dirs : List Path) (path : Path) : Prop :=
  ∀ other, other.dropLast ∈ dirs → files.sameFile path other = true →
    other = path

theorem Apart.sameFile_eq_false {dirs : List Path}
    (hapart : files.Apart dirs path) (hother : other.dropLast ∈ dirs)
    (hne : path ≠ other) : files.sameFile path other = false :=
  Bool.eq_false_iff.mpr fun hsame => hne (hapart other hother hsame).symm

theorem Apart.of_subset {dirs : List Path} (hapart : files.Apart dirs path)
    (hmarks : rest.marks ⊆ files.marks) : rest.Apart dirs path := by
  intro other hother hsame
  by_contra hne
  have hdiffer := sameFile_of_subset hmarks
    (hapart.sameFile_eq_false hother (Ne.symm hne))
  rw [hsame] at hdiffer
  cases hdiffer

/-- Without marks, every file has one name. -/
theorem apart_of_marks_eq_nil (hmarks : files.marks = [])
    (dirs : List Path) (path : Path) : files.Apart dirs path := by
  intro other _ hsame
  rcases sameFile_iff.mp hsame with heq | ⟨inode, hpath, -⟩
  · exact heq.symm
  · rw [hmarks] at hpath
    cases hpath

theorem isLink_of_marks_eq_nil (hmarks : files.marks = []) :
    files.isLink path = false := by
  rw [isLink, linkTarget?, hmarks]
  rfl

theorem linkTarget?_of_marks (hmarks : rest.marks = files.marks) :
    rest.linkTarget? path = files.linkTarget? path := by
  rw [linkTarget?, hmarks, linkTarget?]

/-- Where a path leads is not changed by forgetting other marks. -/
theorem linkTarget?_filter (files : FileSystem) {keep : Path × Mark → Bool}
    (hkeep : ∀ target, keep (path, .link target) = true) :
    ({ files with marks := files.marks.filter keep }).linkTarget? path =
      files.linkTarget? path := by
  unfold linkTarget?
  induction files.marks with
  | nil => rfl
  | cons mark rest ih =>
      rw [List.filter_cons]
      split
      · rw [List.findSome?_cons, List.findSome?_cons, ih]
      · rename_i hforgotten
        obtain ⟨other, known⟩ := mark
        rw [ih, List.findSome?_cons]
        cases known with
        | link target =>
            have hother : ¬ (path ≠ [] ∧ other = path) := by
              rintro ⟨-, rfl⟩
              exact hforgotten (hkeep target)
            simp only [if_neg hother]
        | shared | denied => rfl

theorem linkTarget?_allow : (files.allow path).linkTarget? other =
    files.linkTarget? other :=
  linkTarget?_filter files fun target => by simp

theorem isDenied_allow : (files.allow path).isDenied other =
    (files.isDenied other &&
      !(files.sameFile path other && !files.isDir other)) := by
  rw [Bool.eq_iff_iff]
  simp [isDenied, allow]

theorem isLink_allow : (files.allow path).isLink other =
    files.isLink other := by
  rw [isLink, linkTarget?_allow, isLink]

theorem marks_allow_subset : (files.allow path).marks ⊆ files.marks :=
  List.filter_sublist.subset

/-- Nothing is known of the entries below the directory. -/
def Unmarked (files : FileSystem) (dir : Path) : Prop :=
  ∀ mark ∈ files.marks, Path.Within dir mark.1 → mark.1 = dir

theorem Unmarked.of_subset {dir : Path} (hdir : files.Unmarked dir)
    (hmarks : rest.marks ⊆ files.marks) : rest.Unmarked dir :=
  fun mark hmark => hdir mark (hmarks hmark)

theorem Unmarked.notMem {dir : Path} (hdir : files.Unmarked dir)
    (hin : Path.Within dir path) (hne : path ≠ dir) (mark : Mark) :
    (path, mark) ∉ files.marks :=
  fun hmem => hne (hdir _ hmem hin)

theorem Unmarked.sameFile_eq_false {dir : Path} (hdir : files.Unmarked dir)
    (hin : Path.Within dir path) (hne : path ≠ dir) (hother : path ≠ other) :
    files.sameFile path other = false := by
  rw [Bool.eq_false_iff]
  intro hsame
  rcases sameFile_iff.mp hsame with heq | ⟨inode, hpath, -⟩
  · exact hother heq
  · exact hdir.notMem hin hne _ hpath

end Names

theorem isDir_of_get?_eq_dir {files : FileSystem} {path : Path}
    (hdir : files.get? path = some .dir) : files.isDir path = true := by
  unfold get? at hdir
  simp [isDir, dirIn, hdir]

theorem isDir_makeDir {files : FileSystem} {dir : Path} {name : OsStr}
    (hdir : files.isDir dir = true) :
    (files.makeDir (dir ++ [name])).isDir (dir ++ [name]) = true := by
  refine isDir_of_get?_eq_dir (?_ : (files.put (dir ++ [name]) .dir).get?
    (dir ++ [name]) = _)
  rw [get?_put, if_pos]
  refine ⟨rfl, by simp, ?_, fun _ => rfl⟩
  rwa [List.dropLast_concat]

/-- What has been made is there. -/
theorem isDir_createDirs {files rest : FileSystem} {dir sub : Path}
    (hok : files.createDirs dir sub = .ok rest)
    (hdir : files.isDir dir = true) : rest.isDir (dir ++ sub) = true := by
  induction sub generalizing files dir with
  | nil =>
      cases hok
      rwa [List.append_nil]
  | cons name sub ih =>
      rw [List.append_cons]
      unfold createDirs at hok
      split at hok
      · cases hok
      · rename_i hfound
        exact ih hok (isDir_of_get?_eq_dir hfound)
      · split at hok
        · cases hok
        · exact ih hok (isDir_makeDir hdir)

theorem isDir_createDirAll {files rest : FileSystem} {path : Path}
    (hok : files.createDirAll path = .ok rest) : rest.isDir path = true :=
  isDir_createDirs hok rfl

/-- What is in a directory has one above it. -/
theorem isDir_of_isFile {files : FileSystem} {dir : Path} (name : OsStr)
    (hfile : files.isFile (dir ++ [name]) = true) :
    files.isDir dir = true := by
  unfold isFile fileAt at hfile
  cases hnode : files.get? (dir ++ [name]) with
  | none => simp [hnode] at hfile
  | some node =>
      have hparent := (isDir_of_get? hnode).2
      rwa [List.dropLast_concat] at hparent

theorem isDir_eq_false_of_fileAt {files : FileSystem} {path : Path}
    {file : File} (hfile : files.fileAt path = some file) :
    files.isDir path = false := by
  unfold fileAt at hfile
  split at hfile
  · rename_i found hnode
    have hpath := (isDir_of_get? hnode).1
    unfold get? at hnode
    simp [isDir, dirIn, hpath, hnode]
  · cases hfile

/-- A removal of an entry that is no directory takes no other along. -/
theorem get?_removeFile {files rest : FileSystem} {path other : Path}
    (hok : files.removeFile path = .ok rest)
    (hfile : files.isDir path = false) (hne : other ≠ path) :
    rest.get? other = files.get? other := by
  unfold removeFile at hok
  split at hok
  · cases hok
    change (files.without path).get? other = files.get? other
    rw [get?_without]
    split
    · rename_i hin
      cases hnode : files.get? other with
      | none => rfl
      | some node =>
          rcases isDir_of_within hnode hin with heq | hdir
          · exact absurd heq hne
          · rw [hdir] at hfile
            cases hfile
    · rfl
  · cases hok

theorem fileAt_removeFile {files rest : FileSystem} {path other : Path}
    (hok : files.removeFile path = .ok rest)
    (hfile : files.isDir path = false) (hne : other ≠ path) :
    rest.fileAt other = files.fileAt other := by
  rw [fileAt, get?_removeFile hok hfile hne, fileAt]

theorem marks_removeFile {files rest : FileSystem} {path : Path}
    (hok : files.removeFile path = .ok rest) :
    rest.marks = files.marks.filter fun mark => mark.1 ≠ path := by
  unfold removeFile at hok
  split at hok
  · cases hok
    rfl
  · cases hok

end FileSystem

end Kettle
