/-
Where a PE image has its `.cmdline` section.  The DOS header points to the
COFF header, an optional header of any size follows, and then the section
headers, each of which points to its raw data.
-/
import Kettle.Igvm.ForgedPage

namespace Kettle

namespace Igvm

section Layout

variable (image : Bytes)

/-- The little-endian number in `width` bytes. -/
def peField (off width : Nat) : Nat := Bytes.toNatLE (image.slice off width)

def peOffset : Nat := peField image 0x3c 4

/-- The end of the COFF fields that are read. -/
def coffEnd : Nat := peOffset image + 22

def sectionCount : Nat := peField image (peOffset image + 6) 2

def optionalSize : Nat := peField image (peOffset image + 20) 2

/-- The header of section `k`; after the last one the table ends. -/
def sectionHeader (k : Nat) : Nat :=
  peOffset image + 24 + optionalSize image + 40 * k

def sectionName (k : Nat) : Bytes := image.slice (sectionHeader image k) 8

/-- The end of the section fields that are read. -/
def sectionHeaderEnd (k : Nat) : Nat := sectionHeader image k + 24

def rawSize (k : Nat) : Nat := peField image (sectionHeader image k + 16) 4

def rawPointer (k : Nat) : Nat := peField image (sectionHeader image k + 20) 4

/-- The raw data of section `k`. -/
def rawData (k : Nat) : Bytes :=
  image.slice (rawPointer image k) (rawSize image k)

/-- The raw data of section `k` lies inside the image. -/
def RawInside (k : Nat) : Prop :=
  rawPointer image k + rawSize image k ≤ image.length

instance (k : Nat) : Decidable (RawInside image k) := Nat.decLe _ _

structure HasMz : Prop where
  dos : 0x40 ≤ image.length
  magic : image.take 2 = mzMagic

structure Signed : Prop extends HasMz image where
  signature : image.slice (peOffset image) 4 = peSignature

/-- The first section with the name. -/
structure FirstCmdline (k : Nat) : Prop where
  listed : k < sectionCount image
  named : sectionName image k = cmdlineName
  first : ∀ j < k, sectionName image j ≠ cmdlineName

/-- What is wrong with an image, and what is said of it. -/
inductive PeFailure : String → Prop
  | noMz : ¬ HasMz image →
      PeFailure "kernel blob is not a PE image (no MZ header)"
  | noSignature : HasMz image → ¬ Signed image →
      PeFailure "kernel blob is not a PE image (no PE signature)"
  | coffShort : Signed image → image.length < coffEnd image →
      PeFailure "truncated COFF header"
  | tableShort {k : Nat} : Signed image → coffEnd image ≤ image.length →
      k < sectionCount image → image.length < sectionHeader image k + 8 →
      (∀ j < k, sectionName image j ≠ cmdlineName) →
      PeFailure "truncated section table"
  | headerShort {k : Nat} : Signed image → coffEnd image ≤ image.length →
      FirstCmdline image k → image.length < sectionHeaderEnd image k →
      PeFailure "truncated section header"
  | rawOutside {k : Nat} : Signed image → coffEnd image ≤ image.length →
      FirstCmdline image k → sectionHeaderEnd image k ≤ image.length →
      ¬ RawInside image k →
      PeFailure "`.cmdline` section out of bounds"
  | noSection : Signed image → coffEnd image ≤ image.length →
      (∀ k < sectionCount image, sectionHeader image k + 8 ≤ image.length ∧
        sectionName image k ≠ cmdlineName) →
      PeFailure "kernel UKI has no `.cmdline` section"

/-- What is read of an image. -/
structure PeText (text : String) : Prop extends Signed image where
  coff : coffEnd image ≤ image.length
  found : ∃ k, FirstCmdline image k ∧
    sectionHeaderEnd image k ≤ image.length ∧ RawInside image k ∧
    text = sectionText (rawData image k)

end Layout

section Loop

variable {image : Bytes}

theorem field_eq_ite (image : Bytes) (off width : Nat) :
    (image.range? off (off + width)).map Bytes.toNatLE =
      if off + width ≤ image.length then some (peField image off width)
      else none := by
  split
  · rename_i hinside
    rw [Bytes.range?_eq_some_iff.mpr ⟨hinside, rfl⟩]
    rfl
  · rename_i hinside
    rw [Bytes.range?_eq_none_iff.mpr (by omega)]
    rfl

theorem u32At_eq_ite (image : Bytes) (off : Nat) :
    u32At image off =
      if off + 4 ≤ image.length then some (peField image off 4)
      else none :=
  field_eq_ite image off 4

theorem u16At_eq_ite (image : Bytes) (off : Nat) :
    u16At image off =
      if off + 2 ≤ image.length then some (peField image off 2)
      else none :=
  field_eq_ite image off 2

/-- The loop goes on after a header of another name. -/
theorem findCmdlineSection_pass {remaining sec : Nat}
    (hinside : sec + 8 ≤ image.length)
    (hname : image.slice sec 8 ≠ cmdlineName) :
    findCmdlineSection image (remaining + 1) sec =
      findCmdlineSection image remaining (sec + 40) := by
  rw [findCmdlineSection, Bytes.range?_eq_some_iff.mpr ⟨hinside, rfl⟩,
    okOr_some, ok_bind, if_neg hname]

theorem findCmdlineSection_short {remaining sec : Nat}
    (hshort : image.length < sec + 8) :
    findCmdlineSection image (remaining + 1) sec =
      .error "truncated section table" := by
  rw [findCmdlineSection, Bytes.range?_eq_none_iff.mpr hshort, okOr_none,
    error_bind]

theorem findCmdlineSection_named {remaining sec : Nat}
    (hinside : sec + 8 ≤ image.length)
    (hname : image.slice sec 8 = cmdlineName) :
    findCmdlineSection image (remaining + 1) sec =
      if image.length < sec + 24 then .error "truncated section header"
      else if peField image (sec + 20) 4 + peField image (sec + 16) 4 ≤
          image.length then
        .ok (sectionText (image.slice (peField image (sec + 20) 4)
          (peField image (sec + 16) 4)))
      else .error "`.cmdline` section out of bounds" := by
  rw [findCmdlineSection, Bytes.range?_eq_some_iff.mpr ⟨hinside, rfl⟩,
    okOr_some, ok_bind, if_pos hname, u32At_eq_ite, u32At_eq_ite]
  by_cases hsize : sec + 16 + 4 ≤ image.length
  · rw [if_pos hsize, okOr_some, ok_bind]
    by_cases hheader : sec + 20 + 4 ≤ image.length
    · rw [if_pos hheader, okOr_some, ok_bind,
        if_neg (show ¬ image.length < sec + 24 by omega)]
      split
      · rename_i hraw
        rw [Bytes.range?_eq_some_iff.mpr ⟨hraw, rfl⟩]
        rfl
      · rename_i hraw
        rw [Bytes.range?_eq_none_iff.mpr (by omega)]
        rfl
    · rw [if_neg hheader, okOr_none, error_bind, if_pos (by omega)]
  · rw [if_neg hsize, okOr_none, error_bind, if_pos (by omega)]

/-- A header of another name that lies inside the image. -/
def Passed (image : Bytes) (k : Nat) : Prop :=
  sectionHeader image k + 8 ≤ image.length ∧
    sectionName image k ≠ cmdlineName

theorem findCmdlineSection_passed {k count : Nat} (hk : k ≤ count)
    (hpassed : ∀ j < k, Passed image j) :
    findCmdlineSection image count (sectionHeader image 0) =
      findCmdlineSection image (count - k) (sectionHeader image k) := by
  induction k with
  | zero => rfl
  | succ k ih =>
      obtain ⟨hinside, hname⟩ := hpassed k (Nat.lt_succ_self k)
      have hleft : count - k = count - (k + 1) + 1 := by omega
      rw [ih (by omega) fun j hj => hpassed j (by omega), hleft,
        findCmdlineSection_pass hinside hname]
      rfl

/-- The loop stops at a first header that it does not pass, or at the end. -/
theorem exists_stop (image : Bytes) (count : Nat) :
    ∃ k ≤ count, (∀ j < k, Passed image j) ∧
      (k < count → ¬ Passed image k) := by
  induction count with
  | zero => exact ⟨0, le_rfl, fun j hj => by omega, fun hlt => by omega⟩
  | succ count ih =>
      obtain ⟨k, hk, hpassed, hstop⟩ := ih
      by_cases hlast : k = count ∧ Passed image k
      · obtain ⟨rfl, hpass⟩ := hlast
        refine ⟨k + 1, le_rfl, fun j hj => ?_, fun hlt => by omega⟩
        rcases Nat.lt_succ_iff_lt_or_eq.mp hj with hlt | rfl
        · exact hpassed j hlt
        · exact hpass
      · refine ⟨k, by omega, hpassed, fun _ hpass => ?_⟩
        exact hstop (by
          have hne : k ≠ count := fun heq => hlast ⟨heq, hpass⟩
          omega) hpass

theorem le_length_of_named {k : Nat}
    (hname : sectionName image k = cmdlineName) :
    sectionHeader image k + 8 ≤ image.length := by
  have hlength := congrArg List.length hname
  simp only [sectionName, Bytes.slice, List.length_take, List.length_drop,
    cmdlineName, List.length_cons, List.length_nil] at hlength
  omega

theorem FirstCmdline.passed {k : Nat} (hfirst : FirstCmdline image k) :
    ∀ j < k, Passed image j := by
  intro j hj
  refine ⟨?_, hfirst.first j hj⟩
  have hinside := le_length_of_named hfirst.named
  unfold sectionHeader at hinside ⊢
  omega

end Loop

section Parse

variable {image : Bytes}

theorem Signed.range? (hsigned : Signed image) :
    image.range? (peOffset image) (peOffset image + 4) =
      some peSignature := by
  rw [Bytes.range?_eq_some_iff]
  refine ⟨?_, hsigned.signature⟩
  have hlength := congrArg List.length hsigned.signature
  simp only [Bytes.slice, List.length_take, List.length_drop, peSignature,
    List.length_cons, List.length_nil] at hlength
  omega

theorem parsePeCmdline_of_hasMz (hmz : HasMz image) :
    parsePeCmdline image = parsePeHeaders image := by
  have hlong := hmz.dos
  rw [parsePeCmdline, if_neg]
  rintro (hshort | hmagic)
  · omega
  · exact hmagic hmz.magic

theorem parsePeHeaders_peOffset (hmz : HasMz image) :
    u32At image 0x3c = some (peOffset image) := by
  rw [u32At_eq_ite, if_pos hmz.dos]
  rfl

theorem parsePeCmdline_of_signed (hsigned : Signed image) :
    parsePeCmdline image =
      if image.length < coffEnd image then .error "truncated COFF header"
      else findCmdlineSection image (sectionCount image)
        (sectionHeader image 0) := by
  rw [parsePeCmdline_of_hasMz hsigned.toHasMz, parsePeHeaders,
    parsePeHeaders_peOffset hsigned.toHasMz, okOr_some, ok_bind,
    hsigned.range?, if_neg (not_not_intro rfl)]
  have hend : coffEnd image = peOffset image + 22 := rfl
  simp only [u16At_eq_ite]
  by_cases hcount : peOffset image + 4 + 2 + 2 ≤ image.length
  · rw [if_pos hcount, okOr_some, ok_bind]
    by_cases hopt : peOffset image + 4 + 16 + 2 ≤ image.length
    · rw [if_pos hopt, okOr_some, ok_bind, if_neg (by omega)]
      rfl
    · rw [if_neg hopt, okOr_none, error_bind, if_pos (by omega)]
  · rw [if_neg hcount, okOr_none, error_bind, if_pos (by omega)]

/-- The loop from a header on, when those before it are passed. -/
theorem parsePeCmdline_passed (hsigned : Signed image)
    (hcoff : coffEnd image ≤ image.length) {k : Nat}
    (hk : k ≤ sectionCount image) (hpassed : ∀ j < k, Passed image j) :
    parsePeCmdline image = findCmdlineSection image (sectionCount image - k)
      (sectionHeader image k) := by
  rw [parsePeCmdline_of_signed hsigned, if_neg (by omega),
    findCmdlineSection_passed hk hpassed]

theorem parsePeCmdline_first (hsigned : Signed image)
    (hcoff : coffEnd image ≤ image.length) {k : Nat}
    (hfirst : FirstCmdline image k) :
    parsePeCmdline image =
      if image.length < sectionHeaderEnd image k then
        .error "truncated section header"
      else if RawInside image k then
        .ok (sectionText (rawData image k))
      else .error "`.cmdline` section out of bounds" := by
  have hlisted := hfirst.listed
  rw [parsePeCmdline_passed hsigned hcoff hlisted.le hfirst.passed,
    show sectionCount image - k = sectionCount image - k - 1 + 1 by omega,
    findCmdlineSection_named (le_length_of_named hfirst.named) hfirst.named]
  rfl

theorem PeText.parse {text : String} (htext : PeText image text) :
    parsePeCmdline image = .ok text := by
  obtain ⟨k, hfirst, hheader, hraw, rfl⟩ := htext.found
  rw [parsePeCmdline_first htext.toSigned htext.coff hfirst,
    if_neg (Nat.not_lt.mpr hheader), if_pos hraw]

theorem PeFailure.parse {message : String}
    (hfailure : PeFailure image message) :
    parsePeCmdline image = .error message := by
  cases hfailure with
  | noMz hnot =>
      rw [parsePeCmdline, if_pos]
      by_contra hneither
      rw [not_or, Nat.not_lt, not_not] at hneither
      exact hnot ⟨hneither.1, hneither.2⟩
  | noSignature hmz hnot =>
      rw [parsePeCmdline_of_hasMz hmz, parsePeHeaders,
        parsePeHeaders_peOffset hmz, okOr_some, ok_bind, if_pos]
      intro hrange
      exact hnot ⟨hmz, (Bytes.range?_eq_some_iff.mp hrange).2⟩
  | coffShort hsigned hshort =>
      rw [parsePeCmdline_of_signed hsigned, if_pos hshort]
  | @tableShort k hsigned hcoff hk hshort hfirst =>
      -- an earlier header may be the first to be truncated
      obtain ⟨stop, hstop, hpassed, hnot⟩ :=
        exists_stop image (sectionCount image)
      have hle : stop ≤ k := by
        by_contra hlt
        have hinside := (hpassed k (by omega)).1
        omega
      have hbefore : image.length < sectionHeader image stop + 8 := by
        by_contra hinside
        rcases Nat.lt_or_eq_of_le hle with hlt | rfl
        · exact hnot (by omega) ⟨by omega, hfirst stop hlt⟩
        · omega
      rw [parsePeCmdline_passed hsigned hcoff hstop hpassed,
        show sectionCount image - stop = sectionCount image - stop - 1 + 1 by
          omega,
        findCmdlineSection_short hbefore]
  | headerShort hsigned hcoff hfirst hshort =>
      rw [parsePeCmdline_first hsigned hcoff hfirst, if_pos hshort]
  | rawOutside hsigned hcoff hfirst hheader hraw =>
      rw [parsePeCmdline_first hsigned hcoff hfirst,
        if_neg (Nat.not_lt.mpr hheader), if_neg hraw]
  | noSection hsigned hcoff hall =>
      rw [parsePeCmdline_passed hsigned hcoff le_rfl hall, Nat.sub_self]
      rfl

/-- An image has a text or something is wrong with it. -/
theorem exists_peText_or_peFailure (image : Bytes) :
    (∃ text, PeText image text) ∨ ∃ message, PeFailure image message := by
  by_cases hmz : HasMz image
  · by_cases hsigned : Signed image
    · rcases Nat.lt_or_ge image.length (coffEnd image) with hshort | hcoff
      · exact .inr ⟨_, .coffShort hsigned hshort⟩
      · obtain ⟨k, hk, hpassed, hnot⟩ :=
          exists_stop image (sectionCount image)
        rcases Nat.lt_or_eq_of_le hk with hlisted | rfl
        · have hfirst : ∀ j < k, sectionName image j ≠ cmdlineName :=
            fun j hj => (hpassed j hj).2
          by_cases hname : sectionName image k = cmdlineName
          · have hfound : FirstCmdline image k := ⟨hlisted, hname, hfirst⟩
            rcases Nat.lt_or_ge image.length (sectionHeaderEnd image k) with
              hshort | hheader
            · exact .inr ⟨_, .headerShort hsigned hcoff hfound hshort⟩
            · by_cases hraw : RawInside image k
              · exact .inl ⟨_, hsigned, hcoff, k, hfound, hheader, hraw, rfl⟩
              · exact .inr ⟨_, .rawOutside hsigned hcoff hfound hheader hraw⟩
          · refine .inr ⟨_, .tableShort hsigned hcoff hlisted ?_ hfirst⟩
            by_contra hinside
            exact hnot hlisted ⟨by omega, hname⟩
        · exact .inr ⟨_, .noSection hsigned hcoff hpassed⟩
    · exact .inr ⟨_, .noSignature hmz hsigned⟩
  · exact .inr ⟨_, .noMz hmz⟩

theorem parsePeCmdline_eq_ok_iff {text : String} :
    parsePeCmdline image = .ok text ↔ PeText image text := by
  constructor
  · intro hok
    rcases exists_peText_or_peFailure image with
      ⟨other, htext⟩ | ⟨message, hfailure⟩
    · cases hok.symm.trans htext.parse
      exact htext
    · cases hok.symm.trans hfailure.parse
  · exact PeText.parse

theorem parsePeCmdline_eq_error_iff {message : String} :
    parsePeCmdline image = .error message ↔ PeFailure image message := by
  constructor
  · intro herror
    rcases exists_peText_or_peFailure image with
      ⟨text, htext⟩ | ⟨other, hfailure⟩
    · cases herror.symm.trans htext.parse
    · cases herror.symm.trans hfailure.parse
      exact hfailure
  · exact PeFailure.parse

end Parse

section Text

/-- The text of a section that holds a command line before its padding. -/
theorem sectionText_padded {text : String} (padding : Nat)
    (htrimmed : Utf8.trim text.toList = text.toList)
    (hnul : '\x00' ∉ text.toList) :
    sectionText (text.toUTF8.data.toList ++ List.replicate padding 0) =
      text := by
  have hzero : ∀ b ∈ text.toUTF8.data.toList, b ≠ 0 := by
    intro b hb heq
    rw [Utf8.toUTF8_toList, heq] at hb
    obtain ⟨c, hc, hmem⟩ := List.mem_flatMap.mp hb
    exact Utf8.zero_notMem_utf8EncodeChar (fun hnone => hnul (hnone ▸ hc))
      hmem
  have hfront : (text.toUTF8.data.toList ++
      List.replicate padding 0).takeWhile (· ≠ 0) =
        text.toUTF8.data.toList := by
    rw [List.takeWhile_append_of_pos fun b hb => decide_eq_true (hzero b hb)]
    have hpadding : (List.replicate padding (0 : UInt8)).takeWhile (· ≠ 0) =
        [] := by
      cases padding <;> rfl
    rw [hpadding, List.append_nil]
  rw [sectionText, hfront, Utf8.fromUtf8Lossy_toUTF8, htrimmed,
    String.ofList_toList]

end Text

section Reader

/-- An image whose section table lies inside it. -/
structure PeImage where
  bytes : Bytes
  signed : Signed bytes
  table : sectionHeader bytes (sectionCount bytes) ≤ bytes.length

theorem PeImage.coffEnd_le (pe : PeImage) :
    coffEnd pe.bytes ≤ pe.bytes.length := by
  have htable := pe.table
  unfold sectionHeader at htable
  unfold coffEnd
  omega

theorem PeImage.sectionHeaderEnd_le (pe : PeImage) {k : Nat}
    (hk : k < sectionCount pe.bytes) :
    sectionHeaderEnd pe.bytes k ≤ pe.bytes.length := by
  have htable := pe.table
  unfold sectionHeaderEnd sectionHeader at *
  omega

/-- What a reader of the `.cmdline` section returns, of any image and of one
with its section table. -/
structure ReadsCmdline (parse : Bytes → Except String String) : Prop where
  accepts : ∀ image text, parse image = .ok text ↔ PeText image text
  refuses : ∀ image message,
    parse image = .error message ↔ PeFailure image message
  first : ∀ (pe : PeImage) (k : Nat), FirstCmdline pe.bytes k →
    RawInside pe.bytes k →
    parse pe.bytes = .ok (sectionText (rawData pe.bytes k))
  unchanged : ∀ (pe : PeImage) (k : Nat) (text : String) (padding : Nat),
    FirstCmdline pe.bytes k → RawInside pe.bytes k →
    rawData pe.bytes k =
      text.toUTF8.data.toList ++ List.replicate padding 0 →
    Utf8.trim text.toList = text.toList → '\x00' ∉ text.toList →
    parse pe.bytes = .ok text

theorem PeImage.parse_first (pe : PeImage) {k : Nat}
    (hfirst : FirstCmdline pe.bytes k) (hraw : RawInside pe.bytes k) :
    parsePeCmdline pe.bytes = .ok (sectionText (rawData pe.bytes k)) :=
  PeText.parse ⟨pe.signed, pe.coffEnd_le, k, hfirst,
    pe.sectionHeaderEnd_le hfirst.listed, hraw, rfl⟩

theorem parsePeCmdline_reads : ReadsCmdline parsePeCmdline where
  accepts _ _ := parsePeCmdline_eq_ok_iff
  refuses _ _ := parsePeCmdline_eq_error_iff
  first pe _ hfirst hraw := pe.parse_first hfirst hraw
  unchanged pe k text padding hfirst hraw hdata htrimmed hnul := by
    rw [pe.parse_first hfirst hraw, hdata,
      sectionText_padded padding htrimmed hnul]

/-- The header of a section, with the fields that are read. -/
def tinySection (name : Bytes) (rawSize rawPointer : Nat) : Bytes :=
  name ++ List.replicate 8 0 ++ Bytes.ofNatLE 4 rawSize ++
    Bytes.ofNatLE 4 rawPointer ++ List.replicate 16 0

/-- A `.text` section of four bytes, and a padded command line. -/
def tinyPe : PeImage where
  bytes :=
    mzMagic ++ List.replicate 0x3A 0 ++ Bytes.ofNatLE 4 0x40 ++
      peSignature ++ [0, 0] ++ Bytes.ofNatLE 2 2 ++ List.replicate 16 0 ++
      tinySection [0x2E, 0x74, 0x65, 0x78, 0x74, 0, 0, 0] 4 0xA8 ++
      tinySection cmdlineName 12 0xAC ++
      [0x90, 0x90, 0x90, 0xC3] ++ cmdlineBytes 0x30 ++ [0, 0]
  signed := ⟨⟨by decide +kernel, by decide +kernel⟩, by decide +kernel⟩
  table := by decide +kernel

theorem parsePeCmdline_tinyPe :
    sectionCount tinyPe.bytes = 2 ∧
      parsePeCmdline tinyPe.bytes = .ok "roothash=0" := by
  have hfirst : FirstCmdline tinyPe.bytes 1 :=
    ⟨by decide +kernel, by decide +kernel, fun j hj => by
      cases Nat.lt_one_iff.mp hj
      decide +kernel⟩
  exact ⟨by decide +kernel, parsePeCmdline_reads.unchanged tinyPe 1
    "roothash=0" 2 hfirst (by decide +kernel) (by decide +kernel) (by decide)
    (by decide)⟩

end Reader

end Igvm

end Kettle
