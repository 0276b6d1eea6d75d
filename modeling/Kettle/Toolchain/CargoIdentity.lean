/-
Whether the URI of a Cargo dependency identifies it.  The percent sign is not
encoded, so an encoded URL can also be read as another one; besides, two kinds
of source share one form of qualifier.
-/
import Kettle.Lib.Percent
import Kettle.Toolchain.CargoUri
import Mathlib.Data.Bool.AllAny

namespace Kettle

namespace Toolchain

/-- The characters that are encoded in a qualifier. -/
def purlReserved (c : Char) : Bool :=
  c = '?' || c = '#' || c = '&' || c = ' '

theorem purlReserved_suitable : Percent.Suitable purlReserved where
  ascii c hc := by
    simp only [purlReserved, Bool.or_eq_true, decide_eq_true_eq] at hc
    rcases hc with ((rfl | rfl) | rfl) | rfl <;> decide
  percent := by decide
  digit c h hdigit := by
    rw [← Bool.not_eq_true]
    intro hc
    simp only [purlReserved, Bool.or_eq_true, decide_eq_true_eq] at hc
    rcases hc with ((rfl | rfl) | rfl) | rfl <;> cases hdigit

theorem pctEncode_toList (text : String) :
    (pctEncode text).toList = Percent.encode purlReserved text.toList := by
  have hchar : ∀ c, pctEncodeChar c = Percent.encodeChar purlReserved c := by
    intro c
    by_cases hc : purlReserved c = true
    · have hcases := hc
      simp only [purlReserved, Bool.or_eq_true, decide_eq_true_eq] at hcases
      rcases hcases with ((rfl | rfl) | rfl) | rfl <;> decide +kernel
    · rw [Percent.encodeChar, if_neg hc]
      simp only [purlReserved, Bool.or_eq_true, decide_eq_true_eq, not_or]
        at hc
      obtain ⟨⟨⟨hquestion, hhash⟩, hand⟩, hspace⟩ := hc
      rw [pctEncodeChar, if_neg hquestion, if_neg hhash, if_neg hand,
        if_neg hspace]
  rw [pctEncode, String.toList_ofList, Percent.encode, funext hchar]

/-- What follows the first `?` of a URI. -/
def qualifierText (uri : String) : String :=
  String.ofList ((uri.toList.dropWhile (· ≠ '?')).drop 1)

/-- The value of the `vcs_url` qualifier. -/
def vcsUrl? (uri : String) : Option String :=
  stripPrefix "vcs_url=" (qualifierText uri)

theorem qualifierText_uri {origin : Origin} {name version : String}
    (hname : '?' ∉ name.toList) (hversion : '?' ∉ version.toList) :
    qualifierText (origin.uri name version) = origin.qualifier := by
  have hfront : '?' ∉ "pkg:cargo/".toList ++ name.toList ++ "@".toList ++
      version.toList := by
    simp only [List.mem_append, not_or]
    exact ⟨⟨⟨by decide, hname⟩, by decide⟩, hversion⟩
  have hchars : (origin.uri name version).toList =
      ("pkg:cargo/".toList ++ name.toList ++ "@".toList ++ version.toList) ++
        '?' :: origin.qualifier.toList := by
    simp [Origin.uri]
  rw [qualifierText, hchars, Separated.dropWhile_append_cons hfront,
    List.drop_one, List.tail_cons, String.ofList_toList]

theorem not_git_of_registry {src rest : String}
    (hregistry : stripPrefix "registry+" src = some rest) (rest' : String) :
    stripPrefix "git+" src ≠ some rest' := by
  intro hgit
  rw [stripPrefix_eq_some_iff] at hregistry hgit
  rw [hregistry] at hgit
  have hchars := congrArg String.toList hgit
  simp at hchars

theorem OriginOf.unique {host : Host} {files : FileSystem} {map : PathMap}
    {project : Path} {pkg : Toml} {name : String} {origin origin' : Origin}
    (horigin : OriginOf host files map project pkg name origin)
    (horigin' : OriginOf host files map project pkg name origin') :
    origin = origin' := by
  cases horigin with
  | registry hsource hstripped hchecksum =>
      cases horigin' with
      | registry hsource' hstripped' hchecksum' =>
          rw [hchecksum] at hchecksum'
          cases hchecksum'
          rfl
      | git hsource' hstripped' hsplit' =>
          rw [hsource] at hsource'
          cases hsource'
          exact absurd hstripped' (not_git_of_registry hstripped _)
      | path hsource' hdir' hcommit' =>
          rw [hsource] at hsource'
          cases hsource'
  | git hsource hstripped hsplit =>
      cases horigin' with
      | registry hsource' hstripped' hchecksum' =>
          rw [hsource] at hsource'
          cases hsource'
          exact absurd hstripped (not_git_of_registry hstripped' _)
      | git hsource' hstripped' hsplit' =>
          rw [hsource] at hsource'
          cases hsource'
          rw [hstripped] at hstripped'
          cases hstripped'
          rw [hsplit] at hsplit'
          cases hsplit'
          rfl
      | path hsource' hdir' hcommit' =>
          rw [hsource] at hsource'
          cases hsource'
  | path hsource hdir hcommit =>
      cases horigin' with
      | registry hsource' hstripped' hchecksum' =>
          rw [hsource] at hsource'
          cases hsource'
      | git hsource' hstripped' hsplit' =>
          rw [hsource] at hsource'
          cases hsource'
      | path hsource' hdir' hcommit' =>
          rw [hdir] at hdir'
          cases hdir'
          rw [hcommit] at hcommit'
          cases hcommit'
          rfl

/-- A package of a lock file that is accepted and recorded, with what it
stands for. -/
structure AcceptedPackage where
  host : Host
  files : FileSystem
  map : PathMap
  project : Path
  pkg : Toml
  dep : ResolvedDependency
  name : String
  version : String
  origin : Origin
  accepted : classifyPackage host files pkg map project = .ok (some dep)
  name_eq : pkg.getStr? "name" = some name
  version_eq : pkg.getStr? "version" = some version
  origin_of : OriginOf host files map project pkg name origin
  grammar : CargoGrammar pkg
  heads : HexadecimalHeads host files

/-- Every package that is recorded is one. -/
theorem AcceptedPackage.exists_of_classified {host : Host}
    {files : FileSystem} {map : PathMap} {project : Path} {pkg : Toml}
    {dep : ResolvedDependency} (hgrammar : CargoGrammar pkg)
    (hheads : HexadecimalHeads host files)
    (hok : classifyPackage host files pkg map project = .ok (some dep)) :
    ∃ p : AcceptedPackage, p.host = host ∧ p.files = files ∧ p.map = map ∧
      p.project = project ∧ p.pkg = pkg ∧ p.dep = dep := by
  obtain ⟨name, version, origin, hname, hversion, horigin, -⟩ :=
    classifyPackage_eq_some hok
  exact ⟨⟨host, files, map, project, pkg, dep, name, version, origin, hok,
    hname, hversion, horigin, hgrammar, hheads⟩, rfl, rfl, rfl, rfl, rfl, rfl⟩

namespace AcceptedPackage

theorem dep_eq (p : AcceptedPackage) :
    p.dep = p.origin.record p.name p.version := by
  obtain ⟨name, version, origin, hname, hversion, horigin, hdep⟩ :=
    classifyPackage_eq_some p.accepted
  rw [p.name_eq] at hname
  cases hname
  rw [p.version_eq] at hversion
  cases hversion
  rw [hdep, p.origin_of.unique horigin]

theorem uri_eq (p : AcceptedPackage) :
    p.dep.uri = p.origin.uri p.name p.version := by
  rw [p.dep_eq]
  rfl

theorem hexCommit (p : AcceptedPackage) : p.origin.HexCommit :=
  p.origin_of.hexCommit p.grammar p.heads

/-- Decoding the `vcs_url` gives the location and the commit. -/
def GivesUrlBack (p : AcceptedPackage) : Prop :=
  ∀ location commit, p.origin.vcs? = some (location, commit) →
    ∃ value, vcsUrl? p.dep.uri = some value ∧
      Percent.decode value.toList =
        JsonPretty.utf8 ("git+" ++ location ++ "@" ++ commit).toList

/-- Both URLs can be read from the URIs, and the same URI stands for the same
dependency. -/
def Identifies (left right : AcceptedPackage) : Prop :=
  left.GivesUrlBack ∧ right.GivesUrlBack ∧
    (left.dep.uri = right.dep.uri → left.name = right.name ∧
      left.version = right.version ∧ left.origin = right.origin)

end AcceptedPackage

/-- No location has a percent sign in front of two hexadecimal digits. -/
def Origin.Plain (origin : Origin) : Prop :=
  ∀ location commit, origin.vcs? = some (location, commit) →
    ¬ Percent.Escaped location.toList

/-- A repository whose URL is `file:` and a relative path, and the dependency
with this path; or two paths that are shown alike. -/
inductive Confused : Origin → Origin → Prop
  | gitFile (relPath : Path) (commit : String) :
      Confused (.git ("file:" ++ relText relPath) commit)
        (.path relPath commit)
  | fileGit (relPath : Path) (commit : String) :
      Confused (.path relPath commit)
        (.git ("file:" ++ relText relPath) commit)
  | lossy {relPath relPath' : Path} (commit : String) :
      relPath ≠ relPath' → relText relPath = relText relPath' →
      Confused (.path relPath commit) (.path relPath' commit)

theorem Confused.ne {left right : Origin} (hconfused : Confused left right) :
    left ≠ right := by
  cases hconfused with
  | gitFile => exact Origin.noConfusion
  | fileGit => exact Origin.noConfusion
  | lossy commit hne _ =>
      intro heq
      cases heq
      exact hne rfl

theorem Confused.qualifier_eq {left right : Origin}
    (hconfused : Confused left right) : left.qualifier = right.qualifier := by
  obtain ⟨location, commit, hleft, hright⟩ : ∃ location commit,
      left.vcs? = some (location, commit) ∧
        right.vcs? = some (location, commit) := by
    cases hconfused with
    | gitFile => exact ⟨_, _, rfl, rfl⟩
    | fileGit => exact ⟨_, _, rfl, rfl⟩
    | lossy _ _ htext => exact ⟨_, _, rfl, by rw [Origin.vcs?, htext]⟩
  rw [Origin.qualifier_of_vcs hleft, Origin.qualifier_of_vcs hright]

/-- Origins under version control with the same location and commit are the
same, or one of the pairs that are confused. -/
theorem eq_or_confused_of_vcs {left right : Origin} {location commit : String}
    (hleft : left.vcs? = some (location, commit))
    (hright : right.vcs? = some (location, commit)) :
    left = right ∨ Confused left right := by
  cases left with
  | registry checksum => cases hleft
  | git url commit' =>
      simp only [Origin.vcs?, Option.some.injEq, Prod.mk.injEq] at hleft
      obtain ⟨rfl, rfl⟩ := hleft
      cases right with
      | registry checksum => cases hright
      | git url' commit'' =>
          simp only [Origin.vcs?, Option.some.injEq, Prod.mk.injEq] at hright
          obtain ⟨rfl, rfl⟩ := hright
          exact Or.inl rfl
      | path relPath commit'' =>
          simp only [Origin.vcs?, Option.some.injEq, Prod.mk.injEq] at hright
          obtain ⟨rfl, rfl⟩ := hright
          exact Or.inr (.gitFile _ _)
  | path relPath commit' =>
      simp only [Origin.vcs?, Option.some.injEq, Prod.mk.injEq] at hleft
      obtain ⟨rfl, rfl⟩ := hleft
      cases right with
      | registry checksum => cases hright
      | git url' commit'' =>
          simp only [Origin.vcs?, Option.some.injEq, Prod.mk.injEq] at hright
          obtain ⟨rfl, rfl⟩ := hright
          exact Or.inr (.fileGit _ _)
      | path relPath' commit'' =>
          simp only [Origin.vcs?, Option.some.injEq, Prod.mk.injEq,
            String.append_right_inj] at hright
          obtain ⟨htext, rfl⟩ := hright
          by_cases hpath : relPath = relPath'
          · exact Or.inl (by rw [hpath])
          · exact Or.inr (.lossy _ hpath htext.symm)

theorem pctEncode_eq_self {text : String}
    (hall : ∀ c ∈ text.toList, purlReserved c = false) :
    pctEncode text = text := by
  apply String.toList_inj.mp
  rw [pctEncode_toList, Percent.encode_of_not_reserved hall]

theorem Hexadecimal.not_reserved {text : String} (hhex : Hexadecimal text) :
    ∀ c ∈ text.toList, purlReserved c = false ∧ c ≠ '%' := by
  have hdigits : ∀ c ∈ "0123456789abcdefABCDEF".toList,
      purlReserved c = false ∧ c ≠ '%' :=
    List.all_iff_forall_prop.mp (by decide)
  exact fun c hc => hdigits c (hhex c hc)

namespace AcceptedPackage

theorem givesUrlBack_iff (p : AcceptedPackage) :
    p.GivesUrlBack ↔ p.origin.Plain := by
  unfold GivesUrlBack Origin.Plain
  refine forall_congr' fun location => forall_congr' fun commit =>
    imp_congr_right fun hvcs => ?_
  have hname := (p.grammar.name _ p.name_eq).2
  have hversion := (p.grammar.version _ p.version_eq).2
  have hcommit := (p.hexCommit location commit hvcs).not_reserved
  have hjoined : "vcs_url=git+" = "vcs_url=" ++ "git+" := by rfl
  have hvalue : vcsUrl? p.dep.uri =
      some ("git+" ++ pctEncode location ++ "@" ++ commit) := by
    rw [vcsUrl?, p.uri_eq, qualifierText_uri hname hversion,
      Origin.qualifier_of_vcs hvcs, stripPrefix_eq_some_iff, hjoined]
    simp only [String.append_assoc]
  -- nothing around the location is changed by the encoding
  have hencoded : "git+" ++ pctEncode location ++ "@" ++ commit =
      pctEncode ("git+" ++ location ++ "@" ++ commit) := by
    rw [Origin.pctEncode_append, Origin.pctEncode_append,
      Origin.pctEncode_append,
      pctEncode_eq_self fun c hc => (hcommit c hc).1,
      @pctEncode_eq_self "git+" (List.all_iff_forall_prop.mp (by decide)),
      @pctEncode_eq_self "@" (List.all_iff_forall_prop.mp (by decide))]
  have hescaped : Percent.Escaped
      ("git+" ++ location ++ "@" ++ commit).toList ↔
        Percent.Escaped location.toList := by
    have hchars : ("git+" ++ location ++ "@" ++ commit).toList =
        "git+".toList ++ (location.toList ++ '@' :: commit.toList) := by
      simp
    have hback : '%' ∉ '@' :: commit.toList := by
      rw [List.mem_cons, not_or]
      exact ⟨by decide, fun h => (hcommit _ h).2 rfl⟩
    rw [hchars, Percent.escaped_append_of_no_percent (by decide),
      Percent.escaped_append_cons_iff (by decide) hback]
  rw [hvalue, hencoded]
  simp only [Option.some.injEq, exists_eq_left', pctEncode_toList,
    Percent.decode_encode_iff purlReserved_suitable, hescaped]

/-- Dependencies with one URI are the same exactly when their locations have
no escapes of their own and they are not one of the pairs that share a form of
qualifier. -/
theorem identifies_iff (left right : AcceptedPackage) :
    left.Identifies right ↔
      left.origin.Plain ∧ right.origin.Plain ∧
        ¬ (left.name = right.name ∧ left.version = right.version ∧
          Confused left.origin right.origin) := by
  have huri : left.dep.uri = right.dep.uri ↔ left.name = right.name ∧
      left.version = right.version ∧
        left.origin.qualifier = right.origin.qualifier := by
    rw [left.uri_eq, right.uri_eq]
    exact Origin.uri_eq_iff (left.grammar.name _ left.name_eq).1
      (right.grammar.name _ right.name_eq).1
      (left.grammar.version _ left.version_eq).2
      (right.grammar.version _ right.version_eq).2
  unfold Identifies
  rw [givesUrlBack_iff, givesUrlBack_iff, huri]
  refine and_congr_right fun hplain => and_congr_right fun hplain' => ?_
  constructor
  · rintro hsame ⟨hname, hversion, hconfused⟩
    exact hconfused.ne (hsame ⟨hname, hversion, hconfused.qualifier_eq⟩).2.2
  · rintro hclear ⟨hname, hversion, hqualifier⟩
    refine ⟨hname, hversion, ?_⟩
    rcases (Origin.qualifier_eq_iff left.hexCommit right.hexCommit).mp
        hqualifier with
      ⟨checksum, hleft, hright⟩ | ⟨location, location', commit, hleft, hright,
        hencoded⟩
    · rw [hleft, hright]
    · have hlocation : location = location' := by
        have hchars := congrArg String.toList hencoded
        rw [pctEncode_toList, pctEncode_toList] at hchars
        exact String.toList_inj.mp (Percent.encode_inj purlReserved_suitable
          (hplain _ _ hleft) (hplain' _ _ hright) hchars)
      subst hlocation
      exact (eq_or_confused_of_vcs hleft hright).resolve_right
        fun hconfused => hclear ⟨hname, hversion, hconfused⟩

end AcceptedPackage

/-- A package from a repository at the given URL. -/
def gitPackage (url : String) : Toml :=
  .table [
    ("name", .string "bar"), ("version", .string "1.0.0"),
    ("source", .string ("git+" ++ url ++ "#9fceb02d"))]

/-- The split is at the last occurrence. -/
theorem rsplitOnce_append {front back : List Char} {c : Char}
    (hback : c ∉ back) :
    rsplitOnce c (String.ofList (front ++ c :: back)) =
      some (String.ofList front, String.ofList back) := by
  unfold rsplitOnce
  rw [String.toList_ofList, if_pos (by simp),
    Separated.rtakeWhile_append_cons front hback]
  have hlength : (front ++ c :: back).length - back.length - 1 =
      front.length := by
    simp only [List.length_append, List.length_cons]
    omega
  simp only [hlength, List.take_left]

theorem gitPackage_split (url : String) :
    rsplitOnce '#' (url ++ "#9fceb02d") = some (url, "9fceb02d") := by
  have hparts := @rsplitOnce_append url.toList "9fceb02d".toList '#' (by decide)
  have htext : url ++ "#9fceb02d" =
      String.ofList (url.toList ++ '#' :: "9fceb02d".toList) := by
    apply String.toList_inj.mp
    simp
  rw [htext, hparts, String.ofList_toList, String.ofList_toList]

theorem gitPackage_stripped (url : String) :
    stripPrefix "git+" ("git+" ++ url ++ "#9fceb02d") =
      some (url ++ "#9fceb02d") := by
  rw [stripPrefix_eq_some_iff, String.append_assoc]

theorem gitPackage_grammar (url : String) : CargoGrammar (gitPackage url) where
  name name hname := by
    cases hname
    decide
  version version hversion := by
    cases hversion
    decide
  commit src rest url' commit hsource hstripped hsplit := by
    cases hsource
    rw [gitPackage_stripped] at hstripped
    cases hstripped
    rw [gitPackage_split] at hsplit
    cases hsplit
    decide

/-- No files, and a git that finds none. -/
noncomputable def emptyHost : Host :=
  .plain (fun _ _ _ => .error "not a git repository")
    (fun _ => .error "malformed")

def emptyFiles : FileSystem where
  nodes := ⟨[], by decide⟩
  closed := by decide

theorem gitPackage_accepted (url : String) :
    classifyPackage emptyHost emptyFiles (gitPackage url) .empty [] =
      .ok (some ((Origin.git url "9fceb02d").record "bar" "1.0.0")) := by
  have hname : (gitPackage url).getStr? "name" = some "bar" := rfl
  have hversion : (gitPackage url).getStr? "version" = some "1.0.0" := rfl
  have hsource : (gitPackage url).getStr? "source" =
      some ("git+" ++ url ++ "#9fceb02d") := rfl
  have hregistry : stripPrefix "registry+" ("git+" ++ url ++ "#9fceb02d") =
      none := by
    cases hstripped : stripPrefix "registry+" ("git+" ++ url ++ "#9fceb02d") with
    | none => rfl
    | some rest =>
        exact absurd (gitPackage_stripped url) (not_git_of_registry hstripped _)
  unfold classifyPackage
  simp only [hname, hversion, hsource, okOr_some, ok_bind, hregistry,
    gitPackage_stripped, gitDependency, gitPackage_split]
  rw [Origin.record, Origin.git_uri]
  rfl

noncomputable def acceptedGit (url : String) : AcceptedPackage where
  host := emptyHost
  files := emptyFiles
  map := .empty
  project := []
  pkg := gitPackage url
  dep := (Origin.git url "9fceb02d").record "bar" "1.0.0"
  name := "bar"
  version := "1.0.0"
  origin := .git url "9fceb02d"
  accepted := gitPackage_accepted url
  name_eq := rfl
  version_eq := rfl
  origin_of := .git rfl (gitPackage_stripped url) (gitPackage_split url)
  grammar := gitPackage_grammar url
  heads := fun _ _ hcommit => nomatch hcommit

/-- Two URLs that are recorded as one. -/
theorem acceptedGit_not_identifies :
    (acceptedGit "https://example.com/bar?rev=1").dep =
        (acceptedGit "https://example.com/bar%3Frev=1").dep ∧
      ¬ (acceptedGit "https://example.com/bar?rev=1").Identifies
        (acceptedGit "https://example.com/bar%3Frev=1") := by
  refine ⟨by decide +kernel, ?_⟩
  rintro ⟨-, -, hsame⟩
  have horigin := (hsame (by decide +kernel)).2.2
  exact absurd horigin (by decide +kernel)

end Toolchain

end Kettle
