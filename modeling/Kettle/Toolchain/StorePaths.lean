/-
What the Nix collector finds under the store paths that were printed.  Copying
adds and replaces files in one directory, which is no `bin` directory, so that
what is found does not depend on what has been copied.
-/
import Kettle.Toolchain.Artifacts
import Kettle.Toolchain.Nix

namespace Kettle

namespace FileSystem

/-- The paths of the entries that lie directly in the directory. -/
def pathsIn (files : FileSystem) (dir : Path) : List Path :=
  (files.nodes.entries.map Prod.fst).filter fun path => path.dropLast = dir

/-- None of these entries of the directory is the file at the path. -/
def Unshared (files : FileSystem) (dir : Path) (touched : OsStr → Prop)
    (path : Path) : Prop :=
  ∀ name, touched name → files.sameFile (dir ++ [name]) path = false

/-- Only these files of the directory, and what shares them, have come,
changed or gone, or may be read now. -/
structure OnlyFilesIn (dir : Path) (touched : OsStr → Prop)
    (before after : FileSystem) : Prop where
  isDir : ∀ path, after.isDir path = before.isDir path
  pathsIn : ∀ other, other ≠ dir →
    (∀ path, path.dropLast = other → before.Unshared dir touched path) →
    after.pathsIn other = before.pathsIn other
  fileAt : ∀ path, before.Unshared dir touched path →
    after.fileAt path = before.fileAt path
  linkTarget? : ∀ path, before.isDir path = true →
    after.linkTarget? path = before.linkTarget? path
  isDenied : ∀ path,
    before.isDir path = true ∨ before.Unshared dir touched path →
    after.isDenied path = before.isDenied path
  marks : after.marks ⊆ before.marks

section OnlyFiles

variable {dir : Path} {touched : OsStr → Prop} {before after : FileSystem}
  {name : OsStr} {file : File}

theorem Unshared.of_subset {path : Path}
    (hpath : before.Unshared dir touched path)
    (hmarks : after.marks ⊆ before.marks) : after.Unshared dir touched path :=
  fun name hname => sameFile_of_subset hmarks (hpath name hname)

theorem OnlyFilesIn.refl (dir : Path) (touched : OsStr → Prop)
    (files : FileSystem) : OnlyFilesIn dir touched files files where
  isDir _ := rfl
  pathsIn _ _ _ := rfl
  fileAt _ _ := rfl
  linkTarget? _ _ := rfl
  isDenied _ _ := rfl
  marks := List.Subset.refl _

theorem OnlyFilesIn.trans {last : FileSystem}
    (hfirst : OnlyFilesIn dir touched before after)
    (hsecond : OnlyFilesIn dir touched after last) :
    OnlyFilesIn dir touched before last where
  isDir path := (hsecond.isDir path).trans (hfirst.isDir path)
  pathsIn other hother hpaths := by
    rw [hsecond.pathsIn other hother fun path hpath =>
        (hpaths path hpath).of_subset hfirst.marks,
      hfirst.pathsIn other hother hpaths]
  fileAt path hpath := by
    rw [hsecond.fileAt path (hpath.of_subset hfirst.marks),
      hfirst.fileAt path hpath]
  linkTarget? path hpath := by
    rw [hsecond.linkTarget? path (by rwa [hfirst.isDir]),
      hfirst.linkTarget? path hpath]
  isDenied path hpath := by
    rw [hsecond.isDenied path (hpath.imp (by rw [hfirst.isDir]; exact id)
      fun hpath => hpath.of_subset hfirst.marks),
      hfirst.isDenied path hpath]
  marks := List.Subset.trans hsecond.marks hfirst.marks

theorem OnlyFilesIn.mono {more : OsStr → Prop}
    (honly : OnlyFilesIn dir touched before after)
    (hmore : ∀ name, touched name → more name) :
    OnlyFilesIn dir more before after where
  isDir := honly.isDir
  pathsIn other hother hpaths := honly.pathsIn other hother
    fun path hpath name hname => hpaths path hpath name (hmore name hname)
  fileAt path hpath := honly.fileAt path fun name hname =>
    hpath name (hmore name hname)
  linkTarget? := honly.linkTarget?
  isDenied path hpath := honly.isDenied path (hpath.imp_right
    fun hpath name hname => hpath name (hmore name hname))
  marks := honly.marks

/-- A file is put into another directory. -/
theorem pathsIn_put {path other : Path} (hpath : path.dropLast ≠ other) :
    (before.put path (.file file)).pathsIn other = before.pathsIn other := by
  unfold FileSystem.put
  split
  · unfold pathsIn AssocMap.insert
    rw [AssocMap.map_fst_insertEntry]
    split
    · rfl
    · simp [hpath]
  · rfl

theorem pathsIn_putAll {names : List Path} {other : Path}
    (hnames : ∀ path ∈ names, path.dropLast ≠ other) :
    (FileSystem.putAll file names before).pathsIn other =
      before.pathsIn other := by
  induction names generalizing before with
  | nil => rfl
  | cons path rest ih =>
      obtain ⟨hpath, hrest⟩ := List.forall_mem_cons.mp hnames
      exact (ih hrest).trans (pathsIn_put hpath)

theorem OnlyFilesIn.writeThrough (hname : touched name) :
    OnlyFilesIn dir touched before
      (before.writeThrough (dir ++ [name]) file) where
  isDir _ := isDir_putAll
  pathsIn other _ hpaths := by
    refine pathsIn_putAll fun path hpath hin => ?_
    have hdiffer := hpaths path hin name hname
    rw [sameFile_of_mem_namesOf hpath] at hdiffer
    cases hdiffer
  fileAt path hpath := fileAt_writeThrough_of_other (hpath name hname)
  linkTarget? _ _ := linkTarget?_of_marks marks_putAll
  isDenied path _ := by
    rw [FileSystem.isDenied, FileSystem.writeThrough, marks_putAll,
      FileSystem.isDenied]
  marks := by
    rw [FileSystem.writeThrough, marks_putAll]
    exact List.Subset.refl _

theorem OnlyFilesIn.writeFile (hname : touched name)
    (hok : before.writeFile (dir ++ [name]) file = .ok after) :
    OnlyFilesIn dir touched before after := by
  obtain ⟨-, rfl⟩ := writeFile_eq_ok_iff.mp hok
  exact .writeThrough hname

theorem OnlyFilesIn.allow (hname : touched name) :
    OnlyFilesIn dir touched before (before.allow (dir ++ [name])) where
  isDir _ := rfl
  pathsIn _ _ _ := rfl
  fileAt _ _ := rfl
  linkTarget? _ _ := linkTarget?_allow
  isDenied path hpath := by
    rw [isDenied_allow]
    rcases hpath with hdir | hpath
    · simp [hdir]
    · simp [hpath name hname]
  marks := marks_allow_subset

theorem OnlyFilesIn.copy {source : Path} (hname : touched name)
    (hok : before.copy source (dir ++ [name]) = .ok after) :
    OnlyFilesIn dir touched before after := by
  unfold FileSystem.copy at hok
  split at hok
  · split at hok
    · cases hok
    · obtain ⟨written, hwritten, rfl⟩ := map_eq_ok_iff.mp hok
      exact (OnlyFilesIn.writeFile hname hwritten).trans (.allow hname)
  · cases hok

theorem OnlyFilesIn.setPermissions (hname : touched name) :
    OnlyFilesIn dir touched before
      (before.setPermissions (dir ++ [name])) := by
  unfold FileSystem.setPermissions
  split
  · exact (OnlyFilesIn.writeThrough hname).trans (.allow hname)
  · exact .refl _ _ _

theorem isDir_removeFile (hok : before.removeFile (dir ++ [name]) = .ok after)
    (hfile : before.isDir (dir ++ [name]) = false) (path : Path) :
    after.isDir path = before.isDir path := by
  by_cases hpath : path = dir ++ [name]
  · subst hpath
    unfold FileSystem.removeFile at hok
    split at hok
    · cases hok
      change (before.without (dir ++ [name])).isDir (dir ++ [name]) = _
      have hgone := get?_without before (dir ++ [name]) (dir ++ [name])
      have hself : Path.Within (dir ++ [name]) (dir ++ [name]) :=
        List.prefix_rfl
      rw [if_pos hself] at hgone
      unfold get? at hgone
      rw [hfile]
      simp [FileSystem.isDir, dirIn, hgone]
    · cases hok
  · have hget := get?_removeFile hok hfile hpath
    unfold get? at hget
    unfold FileSystem.isDir dirIn
    rw [hget]

theorem pathsIn_removeFile
    (hok : before.removeFile (dir ++ [name]) = .ok after)
    (hfile : before.isDir (dir ++ [name]) = false) {other : Path}
    (hother : other ≠ dir) : after.pathsIn other = before.pathsIn other := by
  unfold FileSystem.removeFile at hok
  split at hok
  · cases hok
    unfold pathsIn FileSystem.without AssocMap.filterKeys
    rw [List.filter_map, List.filter_map, List.filter_filter]
    congr 1
    refine List.filter_congr ?_
    rintro ⟨path, node⟩ hentry
    by_cases hparent : path.dropLast = other
    · have hout : ¬ Path.Within (dir ++ [name]) path := by
        intro hin
        rcases isDir_of_within (AssocMap.mem_entries_iff.mp hentry) hin with
          rfl | hdir
        · rw [List.dropLast_concat] at hparent
          exact hother hparent.symm
        · rw [hdir] at hfile
          cases hfile
      have hfront : (dir ++ [name]).isPrefixOf path = false := by
        rw [← Bool.not_eq_true, List.isPrefixOf_iff_prefix]
        exact hout
      simp [hfront]
    · simp [hparent]
  · cases hok

/-- An entry that is no link to a directory is removed. -/
theorem OnlyFilesIn.removeFile (hname : touched name)
    (hfile : before.isDir (dir ++ [name]) = false)
    (hok : before.removeFile (dir ++ [name]) = .ok after) :
    OnlyFilesIn dir touched before after := by
  have hmarks := marks_removeFile hok
  have hdirNe : ∀ path, before.isDir path = true → path ≠ dir ++ [name] := by
    rintro path hdir rfl
    rw [hdir] at hfile
    cases hfile
  have hne : ∀ path, before.Unshared dir touched path →
      path ≠ dir ++ [name] := by
    rintro path hpath rfl
    have hdiffer := hpath name hname
    rw [sameFile_self] at hdiffer
    cases hdiffer
  exact {
    isDir := isDir_removeFile hok hfile
    pathsIn := fun other hother _ => pathsIn_removeFile hok hfile hother
    fileAt := fun path hpath => fileAt_removeFile hok hfile (hne path hpath)
    linkTarget? := fun path hdir => by
      rw [FileSystem.linkTarget?, hmarks]
      exact linkTarget?_filter before
        fun target => by simpa using hdirNe path hdir
    isDenied := fun path hpath => by
      have hother := hpath.elim (hdirNe path) (hne path)
      simp [FileSystem.isDenied, hmarks, hother]
    marks := hmarks ▸ List.filter_sublist.subset }

theorem readDir_eq_pathsIn (files : FileSystem) (dir : Path) :
    files.readDir dir =
      if files.isDir dir && !files.isDenied dir then
        .ok ((files.pathsIn dir).filterMap List.getLast?)
      else .error s!"failed to read directory {dir.display}" := by
  unfold readDir pathsIn
  rw [List.filterMap_filter, List.filterMap_map]
  have hsame : (fun entry : Path × Node =>
      if entry.1.dropLast = dir then entry.1.getLast? else none) =
      (fun path => if decide (path.dropLast = dir) = true then
        path.getLast? else none) ∘ Prod.fst := by
    funext entry
    simp
  rw [← hsame]

/-- A directory that shares nothing with what was touched is read as
before. -/
theorem OnlyFilesIn.readDir_eq (honly : OnlyFilesIn dir touched before after)
    {other : Path} (hother : other ≠ dir)
    (hpaths : ∀ path, path.dropLast = other →
      before.Unshared dir touched path) :
    after.readDir other = before.readDir other := by
  have hreadable : (after.isDir other && !after.isDenied other) =
      (before.isDir other && !before.isDenied other) := by
    rw [honly.isDir]
    cases hdir : before.isDir other with
    | false => rfl
    | true => rw [honly.isDenied other (.inl hdir)]
  rw [readDir_eq_pathsIn, readDir_eq_pathsIn, hreadable,
    honly.pathsIn other hother hpaths]

theorem OnlyFilesIn.isOwnDir_eq (honly : OnlyFilesIn dir touched before after)
    (path : Path) : after.isOwnDir path = before.isOwnDir path := by
  unfold isOwnDir isLink
  rw [honly.isDir]
  cases hdir : before.isDir path with
  | false => rfl
  | true => rw [honly.linkTarget? path hdir]

/-- Where a directory leads has not changed. -/
theorem OnlyFilesIn.follow_eq (honly : OnlyFilesIn dir touched before after)
    {path : Path} (hdir : before.isDir path = true) :
    after.follow path = before.follow path := by
  unfold follow
  rw [honly.linkTarget? path hdir, honly.isDir, hdir]
  cases before.linkTarget? path with
  | none => rfl
  | some target =>
      simp only [honly.isDir]
      by_cases htarget : before.isDir target = true
      · rw [isLink, honly.linkTarget? target htarget, isLink]
      · simp [htarget]

/-- From what is no directory, none is reached. -/
theorem resolve_filter_eq_none {files : FileSystem} {here rest : Path}
    (hfile : files.isDir here = false) :
    (files.resolve here rest).filter files.isDir = none := by
  cases rest with
  | nil =>
      unfold resolve
      split
      · simp [Option.filter_some, hfile]
      · rfl
  | cons name rest => simp [resolve, isOwnDir, hfile]

/-- Which directory a path leads to depends on the directories alone. -/
theorem OnlyFilesIn.resolve_filter_isDir
    (honly : OnlyFilesIn dir touched before after) (here rest : Path) :
    (after.resolve here rest).filter after.isDir =
      (before.resolve here rest).filter before.isDir := by
  have hdirs : after.isDir = before.isDir := funext honly.isDir
  induction rest generalizing here with
  | nil =>
      have hfinal : ∀ files : FileSystem,
          (files.resolve here []).filter files.isDir =
            if files.isOwnDir here then some here else none := by
        intro files
        unfold resolve exists? isOwnDir
        cases hdir : files.isDir here <;> cases files.isFile here <;>
          cases files.isLink here <;> simp [hdir]
      rw [hfinal, hfinal, honly.isOwnDir_eq]
  | cons name rest ih =>
      unfold resolve
      rw [honly.isOwnDir_eq]
      split
      · unfold followStep
        split
        · exact ih _
        · cases hdir : before.isDir (here ++ [name]) with
          | true =>
              rw [honly.follow_eq hdir]
              cases before.follow (here ++ [name]) with
              | none => rfl
              | some next => exact ih next
          | false =>
              have hnone : ∀ files : FileSystem,
                  files.isDir (here ++ [name]) = false →
                  ((files.follow (here ++ [name])).bind fun next =>
                    files.resolve next rest).filter files.isDir = none := by
                intro files hfile
                cases hfollow : files.follow (here ++ [name]) with
                | none => rfl
                | some next =>
                    have hnext := (follow_eq_some hfollow).1
                    rw [hfile] at hnext
                    exact resolve_filter_eq_none hnext.symm
              rw [hnone before hdir, hnone after ((honly.isDir _).trans hdir)]
      · rfl

theorem OnlyFilesIn.canonicalize_filter_isDir
    (honly : OnlyFilesIn dir touched before after) (base : Path)
    (text : String) :
    (after.canonicalize base text).filter after.isDir =
      (before.canonicalize base text).filter before.isDir := by
  unfold canonicalize
  split
  · exact honly.resolve_filter_isDir _ _
  · exact honly.resolve_filter_isDir _ _

end OnlyFiles

/-- What has a directory below it is one. -/
theorem map_filter_isDir (files : FileSystem) (dir : Option Path)
    (name : OsStr) :
    (dir.map (· ++ [name])).filter files.isDir =
      ((dir.filter files.isDir).map (· ++ [name])).filter files.isDir := by
  cases dir with
  | none => rfl
  | some dir =>
      cases hdir : files.isDir dir with
      | true => simp only [Option.filter_some, hdir, if_true]
      | false =>
          have hbelow : files.isDir (dir ++ [name]) = false := by
            rw [Bool.eq_false_iff]
            intro hbelow
            have hnode : files.get? (dir ++ [name]) = some .dir := by
              simpa [isDir, dirIn, get?] using hbelow
            have hparent := (isDir_of_get? hnode).2
            rw [List.dropLast_concat, hdir] at hparent
            cases hparent
          simp [Option.filter_some, hdir, hbelow]

end FileSystem

namespace Toolchain

variable {host : Host} {files : FileSystem} {artifactsDir : Path}

/-- A `bin` directory is called `bin`. -/
theorem storeBinDir_getLast? {line : List Char} {binDir : Path}
    (hok : storeBinDir host files line = some binDir) :
    binDir.getLast? = some (.text "bin") := by
  unfold storeBinDir at hok
  simp only at hok
  split at hok
  · cases hok
  · obtain ⟨storePath, -, rfl⟩ :=
      Option.map_eq_some_iff.mp (Option.filter_eq_some_iff.mp hok).1
    exact List.getLast?_concat

/-- The executables among the names of a directory. -/
def executables (files : FileSystem) (binDir : Path) (names : List OsStr) :
    List Found :=
  foundAmong (fun _ file => file.executable) files binDir names

/-- The executables under the printed lines, in order. -/
def nixFoundAt (host : Host) (files : FileSystem)
    (lines : List (List Char)) : List Found :=
  lines.flatMap fun line =>
    match storeBinDir host files line with
    | none => []
    | some binDir =>
        executables files binDir ((files.readDir binDir).toOption.getD [])

theorem foundAmong_congr {takes : OsStr → File → Bool}
    {other : FileSystem} {dir : Path}
    (hsame : ∀ name, other.fileAt (dir ++ [name]) = files.fileAt (dir ++ [name]))
    (names : List OsStr) :
    foundAmong takes other dir names = foundAmong takes files dir names := by
  unfold foundAmong
  simp only [hsame]

/-- The places that these files are copied to. -/
def placesOf (found : List Found) (name : OsStr) : Prop :=
  ∃ entry ∈ found, name = .text entry.name.toStringLossy

/-- What is read is no file that is copied to. -/
theorem PlacesApart.unshared {dirs : List Path} {found : List Found}
    (hapart : PlacesApart artifactsDir dirs found files) {path : Path}
    (hdir : path.dropLast ∈ dirs) (hne : path.dropLast ≠ artifactsDir) :
    files.Unshared artifactsDir (placesOf found) path := by
  rintro name ⟨entry, hentry, rfl⟩
  refine (hapart entry hentry).sameFile_eq_false
    (List.mem_cons_of_mem _ hdir) ?_
  rintro rfl
  exact hne List.dropLast_concat

section Found

variable {dirs : List Path} {found : List Found} {other : FileSystem}

theorem executables_eq {binDir : Path}
    (honly : FileSystem.OnlyFilesIn artifactsDir (placesOf found) files other)
    (hapart : PlacesApart artifactsDir dirs found files)
    (hdir : binDir ∈ dirs) (hbin : binDir ≠ artifactsDir)
    (names : List OsStr) :
    executables other binDir names = executables files binDir names := by
  apply foundAmong_congr
  intro name
  exact honly.fileAt _ (hapart.unshared (by simpa using hdir)
    (by simpa using hbin))

theorem storeBinDir_eq
    (honly : FileSystem.OnlyFilesIn artifactsDir (placesOf found) files other)
    (line : List Char) :
    storeBinDir host other line = storeBinDir host files line := by
  unfold storeBinDir
  simp only
  rw [FileSystem.map_filter_isDir other, FileSystem.map_filter_isDir files,
    honly.canonicalize_filter_isDir, funext honly.isDir]

/-- The directories that the lines lead to are read. -/
def BinDirsIn (host : Host) (files : FileSystem) (lines : List (List Char))
    (dirs : List Path) : Prop :=
  ∀ line ∈ lines, ∀ binDir, storeBinDir host files line = some binDir →
    binDir ∈ dirs

theorem nixFoundAt_eq
    (honly : FileSystem.OnlyFilesIn artifactsDir (placesOf found) files other)
    (hapart : PlacesApart artifactsDir dirs found files)
    (hartifacts : artifactsDir.getLast? ≠ some (.text "bin"))
    {lines : List (List Char)} (hdirs : BinDirsIn host files lines dirs) :
    nixFoundAt host other lines = nixFoundAt host files lines := by
  unfold nixFoundAt
  apply List.flatMap_congr
  intro line hmem
  rw [storeBinDir_eq honly]
  cases hline : storeBinDir host files line with
  | none => rfl
  | some binDir =>
      have hbin : binDir ≠ artifactsDir := by
        rintro rfl
        exact hartifacts (storeBinDir_getLast? hline)
      have hread : ∀ path : Path, path.dropLast = binDir →
          files.Unshared artifactsDir (placesOf found) path := by
        rintro path rfl
        exact hapart.unshared (hdirs line hmem _ hline) hbin
      simp only [honly.readDir_eq hbin hread,
        executables_eq honly hapart (hdirs line hmem binDir hline) hbin]

end Found

/-- An old copy is removed even if it is a link, unless the link leads
nowhere. -/
def linkedNowhere (files : FileSystem) (path : Path) : Bool :=
  files.isLink path && !files.exists? path

section OldCopies

variable {dir : Path} {name : OsStr} {cleared : FileSystem}

theorem removeOldCopy_onlyFilesIn (hfile : files.isDir (dir ++ [name]) = false)
    (hok : removeOldCopy files (dir ++ [name]) = .ok cleared) :
    FileSystem.OnlyFilesIn dir (· = name) files cleared := by
  unfold removeOldCopy at hok
  split at hok
  · have hallowed : FileSystem.OnlyFilesIn dir (· = name) files
        (files.setPermissions (dir ++ [name])) := .setPermissions rfl
    exact hallowed.trans (.removeFile rfl ((hallowed.isDir _).trans hfile) hok)
  · cases hok
    exact .refl _ _ _

theorem linkTarget?_setPermissions (files : FileSystem) (path other : Path) :
    (files.setPermissions path).linkTarget? other =
      files.linkTarget? other := by
  unfold FileSystem.setPermissions
  split
  · exact FileSystem.linkTarget?_allow.trans
      (FileSystem.linkTarget?_of_marks FileSystem.marks_putAll)
  · rfl

/-- Only the old copy loses its link. -/
theorem removeOldCopy_isLink
    (hok : removeOldCopy files (dir ++ [name]) = .ok cleared) (path : Path) :
    cleared.isLink path =
      if path = dir ++ [name] then linkedNowhere files path
      else files.isLink path := by
  unfold removeOldCopy at hok
  split at hok
  · rename_i hexists
    have hmarks := FileSystem.marks_removeFile hok
    split
    · rename_i hpath
      subst hpath
      rw [linkedNowhere, hexists, Bool.not_true, Bool.and_false,
        Bool.eq_false_iff]
      intro hlink
      obtain ⟨-, target, hmem⟩ := FileSystem.isLink_eq_true_iff.mp hlink
      rw [hmarks] at hmem
      simpa using (List.mem_filter.mp hmem).2
    · rename_i hne
      rw [FileSystem.isLink, FileSystem.isLink,
        ← linkTarget?_setPermissions files (dir ++ [name]) path]
      congr 1
      rw [FileSystem.linkTarget?, hmarks]
      exact FileSystem.linkTarget?_filter
        (files.setPermissions (dir ++ [name]))
        fun target => by simpa using hne
  · rename_i hmissing
    cases hok
    split
    · rename_i hpath
      rw [hpath, linkedNowhere, Bool.eq_false_iff.mpr hmissing, Bool.not_false,
        Bool.and_true]
    · rfl

end OldCopies

/-- The hash is that of the copy, which is the file. -/
theorem copyStoreFile_spec {binDir : Path} {name : OsStr} {file : File}
    {result : Artifact × FileSystem}
    (hok : copyStoreFile host artifactsDir binDir name files = .ok result)
    (hfile : files.fileAt (binDir ++ [name]) = some file)
    (hplace : files.isDir
      (Found.stagedPath artifactsDir ⟨binDir, name, file⟩) = false)
    (hother : files.sameFile
      (Found.stagedPath artifactsDir ⟨binDir, name, file⟩)
      (binDir ++ [name]) = false) :
    result.1 = Found.artifactAt host ⟨binDir, name, file⟩
        (Found.stagedPath artifactsDir ⟨binDir, name, file⟩) ∧
      files.Copies (Found.stagedPath artifactsDir ⟨binDir, name, file⟩) file
        (linkedNowhere files
          (Found.stagedPath artifactsDir ⟨binDir, name, file⟩)) result.2 ∧
      FileSystem.OnlyFilesIn artifactsDir
        (· = .text name.toStringLossy) files result.2 := by
  obtain ⟨cleared, hcleared, hrest⟩ := bind_eq_ok_iff.mp hok
  obtain ⟨copied, hcopied, hrest⟩ := bind_eq_ok_iff.mp hrest
  obtain ⟨bytes, hbytes, hresult⟩ := bind_eq_ok_iff.mp hrest
  have honly := removeOldCopy_onlyFilesIn hplace hcleared
  have hunshared : ∀ path, files.sameFile
      (artifactsDir ++ [.text name.toStringLossy]) path = false →
      files.Unshared artifactsDir (· = .text name.toStringLossy) path := by
    rintro path hpath _ rfl
    exact hpath
  have hsource : cleared.fileAt (binDir ++ [name]) = some file :=
    (honly.fileAt _ (hunshared _ hother)).trans hfile
  have hcopies := FileSystem.copies_of_copy hcopied hsource
    (FileSystem.sameFile_of_subset honly.marks hother)
  have hcopy : files.Copies (artifactsDir ++ [.text name.toStringLossy]) file
      (linkedNowhere files (artifactsDir ++ [.text name.toStringLossy]))
      copied := {
    copy := hcopies.copy
    elsewhere := fun path hpath => by
      rw [hcopies.elsewhere path
        (FileSystem.sameFile_of_subset honly.marks hpath),
        honly.fileAt path (hunshared path hpath)]
    isDir := fun path => (hcopies.isDir path).trans (honly.isDir path)
    allowed := hcopies.allowed
    isDenied := fun path hpath => by
      rcases hpath with hdir | hpath
      · rw [hcopies.isDenied path (.inl ((honly.isDir path).trans hdir)),
          honly.isDenied path (.inl hdir)]
      · rw [hcopies.isDenied path
          (.inr (FileSystem.sameFile_of_subset honly.marks hpath)),
          honly.isDenied path (.inr (hunshared path hpath))]
    linked := by rw [hcopies.linked, removeOldCopy_isLink hcleared, if_pos rfl]
    isLink := fun path hpath => by
      rw [hcopies.isLink path hpath, removeOldCopy_isLink hcleared,
        if_neg (Ne.symm hpath)]
    marks := List.Subset.trans hcopies.marks honly.marks }
  have hread : bytes = file.contents := by
    obtain ⟨found, hfound, rfl⟩ := FileSystem.fileAt_of_read hbytes
    rw [hcopy.copy, Option.some.injEq] at hfound
    rw [hfound]
  cases hresult
  exact ⟨by rw [hread]; rfl, hcopy,
    honly.trans (FileSystem.OnlyFilesIn.copy rfl hcopied)⟩

theorem linkedNowhere_toldByEntry : ToldByEntry linkedNowhere := by
  intro files after path hfile hdir hlink
  rw [linkedNowhere, linkedNowhere, hlink, FileSystem.exists?,
    FileSystem.exists?, hdir, FileSystem.isFile, FileSystem.isFile, hfile]

section StagedFrom

variable {dirs : List Path} {all : List Found}

/-- Copying the executables of a directory stages them. -/
theorem copyExecutables_staged {binDir : Path} {names : List OsStr}
    {result : List Artifact × FileSystem}
    (hok : copyExecutables host artifactsDir binDir names files = .ok result)
    (hdir : binDir ∈ dirs) (hbin : binDir ≠ artifactsDir)
    (hall : executables files binDir names ⊆ all)
    (hapart : PlacesApart artifactsDir dirs all files)
    (hplaces : ∀ entry ∈ all,
      files.isDir (entry.stagedPath artifactsDir) = false) :
    Staged host linkedNowhere artifactsDir (executables files binDir names)
        files result.1 result.2 ∧
      FileSystem.OnlyFilesIn artifactsDir (placesOf all) files result.2 := by
  induction names generalizing files result with
  | nil =>
      cases hok
      exact ⟨Staged.nil, .refl _ _ _⟩
  | cons name rest ih =>
      unfold copyExecutables at hok
      unfold executables foundAmong at hall ⊢
      rw [List.filterMap_cons] at hall ⊢
      unfold executableAt at hok
      cases hfile : files.fileAt (binDir ++ [name]) with
      | none =>
          simp only [hfile, Option.any_none, Bool.false_eq_true, if_false]
            at hok
          simp only [hfile, Option.filter_none, Option.map_none] at hall
          exact ih hok hall hapart hplaces
      | some file =>
          by_cases hexec : file.executable = true
          · simp only [hfile, Option.any_some, hexec, if_true] at hok
            obtain ⟨⟨artifact, copied⟩, hcopied, hrest⟩ :=
              bind_eq_ok_iff.mp hok
            obtain ⟨⟨later, final⟩, hlater, hresult⟩ :=
              bind_eq_ok_iff.mp hrest
            cases hresult
            simp only [hfile, Option.filter_some, hexec, if_true,
              Option.map_some, List.cons_subset] at hall ⊢
            obtain ⟨hentry, hallRest⟩ := hall
            have hother : files.sameFile
                (Found.stagedPath artifactsDir ⟨binDir, name, file⟩)
                (binDir ++ [name]) = false :=
              hapart.unshared (by simpa using hdir) (by simpa using hbin)
                _ ⟨_, hentry, rfl⟩
            obtain ⟨hartifact, hcopy, honlyHere⟩ := copyStoreFile_spec hcopied
              hfile (hplaces _ hentry) hother
            have honly : FileSystem.OnlyFilesIn artifactsDir (placesOf all)
                files copied :=
              honlyHere.mono fun place hplace => ⟨_, hentry, hplace⟩
            have hsame := executables_eq honly hapart hdir hbin rest
            obtain ⟨hstaged, hlaterOnly⟩ := ih hlater
              (by rw [hsame]; exact hallRest)
              (hapart.of_subset honly.marks)
              (fun entry hmem => (honly.isDir _).trans (hplaces entry hmem))
            rw [hsame] at hstaged
            simp only at hartifact
            rw [hartifact]
            have hhere := hapart.of_found (List.cons_subset.mpr
              ⟨hentry, hallRest⟩)
            exact ⟨Staged.cons linkedNowhere_toldByEntry hhere hcopy hstaged,
              honly.trans hlaterOnly⟩
          · simp only [hfile, Option.any_some, hexec, Bool.false_eq_true,
              if_false] at hok
            simp only [hfile, Option.filter_some, hexec, Bool.false_eq_true,
              if_false, Option.map_none] at hall ⊢
            exact ih hok hall hapart hplaces

/-- Copying what is under the printed lines stages it. -/
theorem copyStorePaths_staged {lines : List (List Char)}
    {result : List Artifact × FileSystem}
    (hok : copyStorePaths host artifactsDir lines files = .ok result)
    (hartifacts : artifactsDir.getLast? ≠ some (.text "bin"))
    (hdirs : BinDirsIn host files lines dirs)
    (hall : nixFoundAt host files lines ⊆ all)
    (hapart : PlacesApart artifactsDir dirs all files)
    (hplaces : ∀ entry ∈ all,
      files.isDir (entry.stagedPath artifactsDir) = false) :
    Staged host linkedNowhere artifactsDir (nixFoundAt host files lines)
        files result.1 result.2 ∧
      FileSystem.OnlyFilesIn artifactsDir (placesOf all) files result.2 := by
  induction lines generalizing files result with
  | nil =>
      cases hok
      exact ⟨Staged.nil, .refl _ _ _⟩
  | cons line rest ih =>
      unfold copyStorePaths at hok
      unfold nixFoundAt at hall ⊢
      rw [List.flatMap_cons] at hall ⊢
      obtain ⟨hdirHere, hdirsRest⟩ := List.forall_mem_cons.mp hdirs
      cases hline : storeBinDir host files line with
      | none =>
          simp only [hline, List.nil_append] at hok hall ⊢
          exact ih hok hdirsRest hall hapart hplaces
      | some binDir =>
          simp only [hline] at hok
          obtain ⟨names, hnames, hrest⟩ := bind_eq_ok_iff.mp hok
          obtain ⟨⟨found, copied⟩, hcopied, hrest⟩ := bind_eq_ok_iff.mp hrest
          obtain ⟨⟨later, final⟩, hlater, hresult⟩ := bind_eq_ok_iff.mp hrest
          cases hresult
          have hbin : binDir ≠ artifactsDir := by
            rintro rfl
            exact hartifacts (storeBinDir_getLast? hline)
          simp only [hline, hnames, List.append_subset] at hall ⊢
          obtain ⟨hallHere, hallRest⟩ := hall
          obtain ⟨hstaged, honly⟩ := copyExecutables_staged hcopied
            (hdirHere binDir hline) hbin hallHere hapart hplaces
          have hsame := nixFoundAt_eq honly hapart hartifacts hdirsRest
          obtain ⟨hlaterStaged, hlaterOnly⟩ := ih hlater
            (fun other hother other' hline' => hdirsRest other hother other'
              (storeBinDir_eq honly other ▸ hline'))
            (by rw [hsame]; exact hallRest)
            (hapart.of_subset honly.marks)
            (fun entry hmem => (honly.isDir _).trans (hplaces entry hmem))
          rw [hsame] at hlaterStaged
          have hboth := hapart.of_found (List.append_subset.mpr
            ⟨hallHere, hallRest⟩)
          exact ⟨Staged.append linkedNowhere_toldByEntry hboth hstaged
            hlaterStaged, honly.trans hlaterOnly⟩

end StagedFrom

end Toolchain

end Kettle
