/-
The IGVM files on which the verification can panic: those with a page at the
very end of the address space, and those that count too many pages.
-/
import Kettle.Igvm.CheckedMeasure

namespace Kettle

namespace Igvm

/-- The PageData directives are at page-aligned addresses. -/
def PageAligned (igvm : IgvmFile) : Prop :=
  ∀ page, .pageData page ∈ igvm.directives → page.gpa.toNat % pageSize = 0

/-- No PageData with data ends at the end of the address space. -/
def NoTopPage (igvm : IgvmFile) : Prop :=
  ∀ page, .pageData page ∈ igvm.directives → page.data ≠ [] →
    page.gpa.toNat + pageSize < 2 ^ 64

/-- Every PageData with data has a page in the map. -/
theorem lookupPage_isSome {page : PageData}
    {directives : List IgvmDirectiveHeader}
    (hmem : .pageData page ∈ directives) (hdata : page.data ≠ []) :
    (lookupPage page.gpa.toNat directives).isSome := by
  induction directives with
  | nil => cases hmem
  | cons directive rest ih =>
      rw [lookupPage, Option.isSome_or, Bool.or_eq_true]
      rcases List.mem_cons.mp hmem with hhead | hrest
      · have hnonempty : page.data.isEmpty = false := by
          rwa [List.isEmpty_eq_false_iff]
        rw [← hhead, pageAt_of_isEmpty_eq_false hnonempty]
        exact .inr rfl
      · exact .inl (ih hrest)

theorem mem_pageMap_iff {igvm : IgvmFile} {gpa : Nat} :
    (∃ page, (gpa, page) ∈ (pageMap igvm).entries) ↔
      ∃ page, .pageData page ∈ igvm.directives ∧ page.data ≠ [] ∧
        page.gpa.toNat = gpa := by
  simp only [SortedMap.mem_entries_iff, pageMap_get?]
  constructor
  · rintro ⟨bytes, hlookup⟩
    obtain ⟨page, hmem, hdata, hgpa, -⟩ := exists_of_lookupPage hlookup
    exact ⟨page, hmem, hdata, hgpa⟩
  · rintro ⟨page, hmem, hdata, rfl⟩
    exact Option.isSome_iff_exists.mp (lookupPage_isSome hmem hdata)

theorem belowTop_pageMap_iff (igvm : IgvmFile) :
    Checked.BelowTop (pageMap igvm) ↔ NoTopPage igvm := by
  constructor
  · intro hbelow page hmem hdata
    obtain ⟨bytes, hentry⟩ :=
      mem_pageMap_iff.mpr ⟨page, hmem, hdata, rfl⟩
    exact hbelow _ hentry
  · rintro htop ⟨gpa, bytes⟩ hentry
    obtain ⟨page, hmem, hdata, rfl⟩ := mem_pageMap_iff.mp ⟨bytes, hentry⟩
    exact htop page hmem hdata

theorem PageAligned.entries {igvm : IgvmFile} (haligned : PageAligned igvm) :
    ∀ entry ∈ (pageMap igvm).entries, entry.1 % pageSize = 0 := by
  rintro ⟨gpa, bytes⟩ hentry
  obtain ⟨page, hmem, -, rfl⟩ := mem_pageMap_iff.mp ⟨bytes, hentry⟩
  exact haligned page hmem

/-- The verification of a page-aligned file does not panic exactly when no
page with data ends at the end of the address space, and, where the file is
measured, no page before another of its type and no page of a ParameterInsert
does, and fewer than 2^64 pages are counted. -/
theorem neverPanics_iff (sha384 : Bytes → Digest384) {igvm : IgvmFile}
    (haligned : PageAligned igvm) :
    Checked.measureSnp sha384 igvm ≠ .panic ∧
        Checked.kernelCmdline igvm ≠ .panic ↔
      (igvm.HasSnpPlatform → Checked.MeasureFits igvm) ∧ NoTopPage igvm := by
  have hmeasure := (@Checked.measureSnp_eq sha384 igvm).ne_panic_iff
  rw [hmeasure, Checked.kernelCmdline_eq haligned.entries,
    Outcome.ite_ofExcept_ne_panic_iff, belowTop_pageMap_iff]

/-- A normal page of one byte, for the first platform. -/
def oneBytePage (gpa : UInt64) : IgvmDirectiveHeader :=
  .pageData ⟨gpa, 1, {}, .normal, [1]⟩

def oneByteFile (directives : List IgvmDirectiveHeader) : IgvmFile where
  platforms := [⟨1, 0, .sevSnp, 1, 0⟩]
  initializations := []
  directives := directives

/-- A file with a page at the end of the address space and one after it. -/
def topPageFile : IgvmFile :=
  oneByteFile [oneBytePage 0xFFFFFFFFFFFFF000, oneBytePage 0]

theorem topPageFile_panics :
    PageAligned topPageFile ∧
      Checked.measureSnp (fun _ => zeros48) topPageFile = .panic ∧
      Checked.kernelCmdline topPageFile = .panic := by
  have hplat : topPageFile.HasSnpPlatform :=
    ⟨_, List.mem_cons_self, rfl⟩
  have haligned : PageAligned topPageFile := by
    intro page hpage
    simp only [topPageFile, oneByteFile, oneBytePage, List.mem_cons,
      IgvmDirectiveHeader.pageData.injEq, List.not_mem_nil, or_false] at hpage
    rcases hpage with rfl | rfl <;> decide
  refine ⟨haligned, ?_, ?_⟩
  · apply (Checked.measureSnp_eq topPageFile).panics
    intro hfits
    have hchain := (hfits hplat).1.1
    change List.IsChain Checked.PageFits
      [⟨0xFFFFFFFFFFFFF000, 1, {}, .normal, [1]⟩, ⟨0, 1, {}, .normal, [1]⟩]
        at hchain
    have hstep := (List.isChain_cons_cons.mp hchain).1 rfl rfl
    revert hstep
    decide
  · rw [Checked.kernelCmdline_eq haligned.entries, if_neg]
    rw [belowTop_pageMap_iff]
    intro htop
    have hpage := htop _ List.mem_cons_self (by decide)
    revert hpage
    decide

theorem lowPages_neverPanic :
    Checked.measureSnp (fun _ => zeros48)
        (oneByteFile [oneBytePage 0, oneBytePage 0x1000]) ≠ .panic ∧
      Checked.kernelCmdline
        (oneByteFile [oneBytePage 0, oneBytePage 0x1000]) ≠ .panic := by
  have hpages : ∀ page, .pageData page ∈
      (oneByteFile [oneBytePage 0, oneBytePage 0x1000]).directives →
        page.gpa.toNat % pageSize = 0 ∧
          page.gpa.toNat + pageSize < 2 ^ 64 := by
    intro page hpage
    simp only [oneByteFile, oneBytePage, List.mem_cons,
      IgvmDirectiveHeader.pageData.injEq, List.not_mem_nil, or_false] at hpage
    rcases hpage with rfl | rfl <;> decide
  have haligned : PageAligned
      (oneByteFile [oneBytePage 0, oneBytePage 0x1000]) :=
    fun page hpage => (hpages page hpage).1
  refine (neverPanics_iff (fun _ => zeros48) haligned).mpr
    ⟨fun _ => ⟨⟨?_, ?_⟩, ?_⟩, fun page hpage _ => (hpages page hpage).2⟩
  · change List.IsChain Checked.PageFits
      [⟨0, 1, {}, .normal, [1]⟩, ⟨0x1000, 1, {}, .normal, [1]⟩]
    exact List.isChain_pair.mpr fun _ _ => by decide
  · intro insert hinsert
    have hnone : IgvmDirectiveHeader.parameterInsert insert ∉
        [oneBytePage 0, oneBytePage 0x1000] := by
      simp [oneBytePage]
    exact absurd hinsert hnone
  · have hcount : Checked.countedPages
        (oneByteFile [oneBytePage 0, oneBytePage 0x1000]) = 2 := by
      decide +kernel
    rw [hcount]
    decide

end Igvm

end Kettle
