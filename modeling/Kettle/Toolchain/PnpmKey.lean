/-
The keys of the packages of a pnpm lock file.  A key is cut at its first
parenthesis and at the `@` that ends the name; the name itself is not checked
against the names that npm allows.
-/
import Kettle.Toolchain.DigestLabels

namespace Kettle

namespace Toolchain

section Grammar

/-- A name without scope, or a part of a scoped one. -/
def NamePart (text : String) : Prop :=
  text ≠ "" ∧ ∀ c ∈ ['/', '@', '('], c ∉ text.toList

def NpmName (name : String) : Prop :=
  NamePart name ∨ ∃ scope pkg, NamePart scope ∧ NamePart pkg ∧
    name = "@" ++ scope ++ "/" ++ pkg

/-- The peers of a package in parentheses, if it has any. -/
def Parenthesised (suffix : String) : Prop :=
  suffix = "" ∨ ∃ peers, suffix = "(" ++ peers ++ ")"

/-- A key of the grammar. -/
structure PackageKey (key name version suffix : String) : Prop where
  key_eq : key = name ++ "@" ++ version ++ suffix
  name : NpmName name
  version_ne : version ≠ ""
  version : '(' ∉ version.toList
  suffix : Parenthesised suffix

end Grammar

section Cut

/-- What stands before the `@`, which a scope may also begin with. -/
def CutName (name : String) : Prop :=
  '(' ∉ name.toList ∧
    (name ≠ "" ∧ '@' ∉ name.toList ∨
      ∃ inner, name = "@" ++ inner ∧ '@' ∉ inner.toList)

/-- Nothing, or what a parenthesis opens. -/
def OpensPeers (suffix : String) : Prop :=
  suffix = "" ∨ ∃ peers, suffix = "(" ++ peers

/-- A key that can be cut, whatever stands between the cuts. -/
structure SplitKey (key name version suffix : String) : Prop where
  key_eq : key = name ++ "@" ++ version ++ suffix
  name : CutName name
  version : '(' ∉ version.toList
  suffix : OpensPeers suffix

variable {key name version suffix text : String}

theorem NamePart.not_mem (hpart : NamePart text) :
    '/' ∉ text.toList ∧ '@' ∉ text.toList ∧ '(' ∉ text.toList := by
  have hnot := hpart.2
  simp only [List.forall_mem_cons] at hnot
  exact ⟨hnot.1, hnot.2.1, hnot.2.2.1⟩

theorem NpmName.cutName (hname : NpmName name) : CutName name := by
  rcases hname with hpart | ⟨scope, pkg, hscope, hpkg, rfl⟩
  · exact ⟨hpart.not_mem.2.2, .inl ⟨hpart.1, hpart.not_mem.2.1⟩⟩
  · obtain ⟨-, hscopeAt, hscopeParen⟩ := hscope.not_mem
    obtain ⟨-, hpkgAt, hpkgParen⟩ := hpkg.not_mem
    constructor
    · simp [hscopeParen, hpkgParen]
    · refine .inr ⟨scope ++ "/" ++ pkg, ?_, ?_⟩
      · simp [String.append_assoc]
      · simp [hscopeAt, hpkgAt]

theorem Parenthesised.opens (hsuffix : Parenthesised suffix) :
    OpensPeers suffix := by
  rcases hsuffix with rfl | ⟨peers, rfl⟩
  · exact .inl rfl
  · exact .inr ⟨peers ++ ")", String.append_assoc⟩

/-- A key of the grammar can be cut; what is missing of the converse are the
checks of the parts. -/
theorem packageKey_iff :
    PackageKey key name version suffix ↔
      SplitKey key name version suffix ∧ NpmName name ∧ version ≠ "" ∧
        Parenthesised suffix := by
  constructor
  · intro hkey
    exact ⟨⟨hkey.key_eq, hkey.name.cutName, hkey.version,
      hkey.suffix.opens⟩, hkey.name, hkey.version_ne, hkey.suffix⟩
  · rintro ⟨hsplit, hname, hversion, hsuffix⟩
    exact ⟨hsplit.key_eq, hname, hversion, hsplit.version, hsuffix⟩

theorem stripPeers_append (htext : '(' ∉ text.toList)
    (hsuffix : OpensPeers suffix) : stripPeers (text ++ suffix) = text := by
  rcases hsuffix with rfl | ⟨peers, rfl⟩
  · have hall : text.toList.takeWhile (· ≠ '(') = text.toList :=
      List.takeWhile_eq_self_iff.mpr fun c hc =>
        decide_eq_true (ne_of_mem_of_not_mem hc htext)
    rw [String.append_empty, stripPeers, hall, String.ofList_toList]
  · have hchars : (text ++ ("(" ++ peers)).toList =
        text.toList ++ '(' :: peers.toList := by
      simp only [String.toList_append]
      rfl
    rw [stripPeers, hchars, Separated.takeWhile_append_cons htext,
      String.ofList_toList]

/-- A key is put together again from what is kept and what is cut off. -/
theorem exists_peers (key : String) :
    ∃ text suffix, '(' ∉ text.toList ∧ OpensPeers suffix ∧
      key = text ++ suffix := by
  by_cases hmem : '(' ∈ key.toList
  · obtain ⟨before, after, hkey, hbefore⟩ := List.eq_append_cons_of_mem hmem
    refine ⟨String.ofList before, "(" ++ String.ofList after, ?_,
      .inr ⟨_, rfl⟩, ?_⟩
    · rw [String.toList_ofList]
      exact hbefore
    · rw [← String.toList_inj, hkey]
      simp only [String.toList_append, String.toList_ofList]
      rfl
  · exact ⟨key, "", hmem, .inl rfl, String.append_empty.symm⟩

end Cut

section ParseKey

variable {host : Host} {key name version suffix : String}

theorem toList_name_version (name version : String) :
    (name ++ "@" ++ version).toList =
      name.toList ++ '@' :: version.toList := by
  simp only [String.toList_append, List.append_assoc]
  rfl

theorem SplitKey.stripPeers_eq (hsplit : SplitKey key name version suffix) :
    stripPeers key = name ++ "@" ++ version := by
  rw [hsplit.key_eq]
  apply stripPeers_append _ hsplit.suffix
  rw [toList_name_version]
  simp [hsplit.name.1, hsplit.version]

theorem stripPrefix_plain (hne : name ≠ "") (hat : '@' ∉ name.toList) :
    stripPrefix "@" (name ++ "@" ++ version) = none := by
  cases hstrip : stripPrefix "@" (name ++ "@" ++ version) with
  | none => rfl
  | some rest =>
      have hchars := congrArg String.toList
        (stripPrefix_eq_some_iff.mp hstrip)
      rw [toList_name_version, String.toList_append] at hchars
      cases hname : name.toList with
      | nil => exact absurd (String.toList_eq_nil_iff.mp hname) hne
      | cons c chars =>
          rw [hname] at hat hchars
          obtain rfl : c = '@' := List.head_eq_of_cons_eq hchars
          exact absurd List.mem_cons_self hat

theorem SplitKey.parseKey (hsplit : SplitKey key name version suffix) :
    parseKey host key = .ok (name, version) := by
  rw [Toolchain.parseKey, hsplit.stripPeers_eq]
  rcases hsplit.name.2 with ⟨hne, hat⟩ | ⟨inner, rfl, hat⟩
  · have hsplitOnce : splitOnce '@' (name ++ "@" ++ version) =
        some (name, version) :=
      splitOnce_eq_some_iff.mpr ⟨hat, toList_name_version name version⟩
    simp only [stripPrefix_plain hne hat, hsplitOnce, okOr_some]
  · have hstripped : stripPrefix "@" ("@" ++ inner ++ "@" ++ version) =
        some (inner ++ "@" ++ version) :=
      stripPrefix_eq_some_iff.mpr (by simp only [String.append_assoc])
    have hsplitOnce : splitOnce '@' (inner ++ "@" ++ version) =
        some (inner, version) :=
      splitOnce_eq_some_iff.mpr ⟨hat, toList_name_version inner version⟩
    simp only [hstripped, hsplitOnce]

/-- The two cuts of a key that is accepted. -/
theorem parseKey_eq_ok (hok : parseKey host key = .ok (name, version)) :
    stripPeers key = name ++ "@" ++ version ∧
      (name ≠ "" ∧ '@' ∉ name.toList ∨
        ∃ inner, name = "@" ++ inner ∧ '@' ∉ inner.toList) := by
  simp only [parseKey] at hok
  cases hstripped : stripPrefix "@" (stripPeers key) with
  | some rest =>
      cases hsplit : splitOnce '@' rest with
      | none => simp [hstripped, hsplit] at hok
      | some parts =>
          obtain ⟨inner, version'⟩ := parts
          simp only [hstripped, hsplit, Except.ok.injEq, Prod.mk.injEq] at hok
          obtain ⟨rfl, rfl⟩ := hok
          obtain ⟨hinner, hrest⟩ := splitOnce_eq_some_iff.mp hsplit
          rw [← toList_name_version, String.toList_inj] at hrest
          refine ⟨?_, .inr ⟨inner, rfl, hinner⟩⟩
          rw [stripPrefix_eq_some_iff.mp hstripped, hrest]
          simp only [String.append_assoc]
  | none =>
      simp only [hstripped, okOr_eq_ok_iff] at hok
      obtain ⟨hat, hkey⟩ := splitOnce_eq_some_iff.mp hok
      rw [← toList_name_version, String.toList_inj] at hkey
      refine ⟨hkey, .inl ⟨?_, hat⟩⟩
      -- without a name the key would begin with an `@`
      rintro rfl
      have hstrip : stripPrefix "@" (stripPeers key) = some version :=
        stripPrefix_eq_some_iff.mpr hkey
      rw [hstripped] at hstrip
      cases hstrip

theorem parseKey_ok_iff :
    parseKey host key = .ok (name, version) ↔
      ∃ suffix, SplitKey key name version suffix := by
  constructor
  · intro hok
    obtain ⟨hcut, hname⟩ := parseKey_eq_ok hok
    obtain ⟨text, suffix, htext, hsuffix, rfl⟩ := exists_peers key
    rw [stripPeers_append htext hsuffix] at hcut
    rw [hcut, toList_name_version, List.mem_append, List.mem_cons, not_or,
      not_or] at htext
    exact ⟨suffix, by rw [hcut], ⟨htext.1, hname⟩, htext.2.2, hsuffix⟩
  · rintro ⟨suffix, hsplit⟩
    exact hsplit.parseKey

/-- The keys of the grammar give their parts; what else is accepted can be
cut as they can, and has a part that the grammar forbids. -/
theorem parseKey_grammar (host : Host) (key name version : String) :
    (∀ suffix, PackageKey key name version suffix →
      parseKey host key = .ok (name, version)) ∧
    (parseKey host key = .ok (name, version) ↔
      ∃ suffix, SplitKey key name version suffix) ∧
    ∀ suffix, PackageKey key name version suffix ↔
      SplitKey key name version suffix ∧ NpmName name ∧ version ≠ "" ∧
        Parenthesised suffix := by
  refine ⟨?_, parseKey_ok_iff, fun suffix => packageKey_iff⟩
  intro suffix hkey
  exact (packageKey_iff.mp hkey).1.parseKey

end ParseKey

section Demo

/-- The slash before a name comes from an older version of the lock file. -/
theorem parseKey_accepts_olderKey :
    ¬ ∀ key name version, parseKey tableHost key = .ok (name, version) →
      ∃ suffix, PackageKey key name version suffix := by
  intro hgrammar
  obtain ⟨suffix, hkey⟩ :=
    hgrammar "/@babel/core@7.0.0" "/" "babel/core@7.0.0" rfl
  rcases hkey.name with hpart | ⟨scope, pkg, -, -, hname⟩
  · exact hpart.not_mem.1 (by decide)
  · have hchars := congrArg String.toList hname
    simp at hchars

end Demo

end Toolchain

end Kettle
