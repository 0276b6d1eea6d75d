/-
How far the launch digest fixes the kernel command line: it does when the page
map is made of measured NORMAL pages only, and one page that SNP ignores is
enough to change it otherwise.
-/
import Kettle.Igvm.LaunchDigest
import Kettle.Igvm.PageMap

namespace Kettle

namespace Igvm

/-- An SNP-compatible PageData whose contents are hashed. -/
def normalPage (snpCompat : UInt32) :
    IgvmDirectiveHeader → Option PageData
  | .pageData page =>
      if page.compatibilityMask &&& snpCompat ≠ 0 ∧
          page.measured.pageType = snpPageTypeNormal then
        some page
      else none
  | _ => none

def IgvmFile.normalPages (igvm : IgvmFile) : List PageData :=
  igvm.directives.filterMap (normalPage igvm.snpCompat)

def isNormal (page : MeasuredPage) : Bool :=
  page.pageType == snpPageTypeNormal

theorem insertPages_filter_isNormal (gpa areaSize : UInt64) :
    (insertPages gpa areaSize).filter isNormal = [] := by
  rw [List.filter_eq_nil_iff]
  intro page hpage
  obtain ⟨pageGpa, -, rfl⟩ := List.mem_map.mp hpage
  change ¬ (snpPageTypeUnmeasured == snpPageTypeNormal) = true
  decide

theorem vmsaPagesOf_filter_isNormal (snpCompat : UInt32)
    (directives : List IgvmDirectiveHeader) :
    (vmsaPagesOf snpCompat directives).filter isNormal = [] := by
  rw [List.filter_eq_nil_iff]
  intro page hpage
  obtain ⟨directive, -, hdirective⟩ := List.mem_filterMap.mp hpage
  cases directive with
  | snpVpContext context =>
      simp only at hdirective
      split at hdirective
      · cases hdirective
      · cases hdirective
        change ¬ (snpPageTypeVmsa == snpPageTypeNormal) = true
        decide
  | _ => cases hdirective

/-- The NORMAL pages one directive contributes. -/
theorem directivePages_filter_isNormal (snpCompat : UInt32)
    (paramAreas : UInt32 → Option UInt64) (directive : IgvmDirectiveHeader) :
    (directivePages snpCompat paramAreas directive).filter isNormal =
      ((normalPage snpCompat directive).map PageData.measured).toList := by
  cases directive with
  | pageData page =>
      by_cases hmask : page.compatibilityMask &&& snpCompat = 0
      · simp [directivePages, normalPage, hmask]
      · by_cases htype : page.measured.pageType = snpPageTypeNormal <;>
          simp [directivePages, normalPage, hmask, htype, isNormal]
  | parameterInsert insert =>
      simp only [directivePages, normalPage, Option.map_none,
        Option.toList_none]
      split
      · rfl
      · split
        · rfl
        · exact insertPages_filter_isNormal _ _
  | parameterArea _ _ _ | memoryMap _ | vpCount _ | snpVpContext _
  | x64NativeVpContext _ _ _ | other _ => rfl

/-- The NORMAL pages keep their file order in the measured sequence: only
UNMEASURED pages are moved. -/
theorem Placement.placeAll_filter_isNormal (snpCompat : UInt32)
    (paramAreas : UInt32 → Option UInt64) (dirIdx : Nat)
    (placement : Placement) (directives : List IgvmDirectiveHeader) :
    (placement.placeAll snpCompat paramAreas dirIdx directives).placed.filter
        isNormal =
      placement.placed.filter isNormal ++
        (directives.filterMap (normalPage snpCompat)).map
          PageData.measured := by
  induction directives generalizing placement dirIdx with
  | nil => simp [Placement.placeAll]
  | cons directive rest ih =>
      have hdirective :=
        directivePages_filter_isNormal snpCompat paramAreas directive
      have hplace : (placement.place snpCompat paramAreas dirIdx
          directive).placed.filter isNormal =
          placement.placed.filter isNormal ++
            ((normalPage snpCompat directive).map
              PageData.measured).toList := by
        rw [← hdirective]
        cases directive with
        | pageData page =>
            by_cases hmask : page.compatibilityMask &&& snpCompat = 0 <;>
              simp [Placement.place, directivePages, hmask]
        | parameterInsert insert =>
            simp only [normalPage, Option.map_none, Option.toList_none]
              at hdirective
            simp only [Placement.place, insertBefore, List.filter_append,
              hdirective, List.append_nil]
            rw [← List.filter_append, List.take_append_drop]
        | parameterArea _ _ _ | memoryMap _ | vpCount _ | snpVpContext _
        | x64NativeVpContext _ _ _ | other _ =>
            simp [Placement.place, directivePages]
      rw [Placement.placeAll, ih, hplace, List.append_assoc]
      congr 1
      cases hnormal : normalPage snpCompat directive with
      | none => simp [hnormal]
      | some page => simp [hnormal]

theorem measuredSequence_filter_isNormal (igvm : IgvmFile) :
    (measuredSequence igvm).filter isNormal =
      igvm.normalPages.map PageData.measured := by
  rw [measuredSequence, List.filter_append, vmsaPagesOf_filter_isNormal,
    List.append_nil, Placement.placeAll_filter_isNormal]
  simp [Placement.empty, IgvmFile.normalPages]

/-- Every page that reaches the page map is SNP-compatible and measured with
its contents. -/
def IgvmFile.CmdlineMeasured (igvm : IgvmFile) : Prop :=
  ∀ page, .pageData page ∈ igvm.directives → page.data ≠ [] →
    page.compatibilityMask &&& igvm.snpCompat ≠ 0 ∧
      page.measured.pageType = snpPageTypeNormal

/-- Which of the NORMAL pages come with data.  An empty page is hashed like a
page of zeros, but it does not reach the page map. -/
def IgvmFile.dataPresence (igvm : IgvmFile) : List Bool :=
  igvm.normalPages.map (fun page => page.data.isEmpty)

theorem IgvmFile.CmdlineMeasured.filterMap_mappedPage {igvm : IgvmFile}
    (hmeasured : igvm.CmdlineMeasured) :
    igvm.directives.filterMap mappedPage =
      igvm.normalPages.filterMap PageData.mapped := by
  rw [IgvmFile.normalPages, List.filterMap_filterMap]
  apply List.filterMap_congr
  intro directive hmem
  cases directive with
  | pageData page =>
      by_cases hempty : page.data = []
      · by_cases hnormal : page.compatibilityMask &&& igvm.snpCompat ≠ 0 ∧
            page.measured.pageType = snpPageTypeNormal <;>
          simp [mappedPage, normalPage, PageData.mapped, hempty, hnormal]
      · have hnormal := hmeasured page hmem hempty
        simp [mappedPage, normalPage, hnormal]
  | _ => rfl

theorem PageData.measured_of_isNormal {page : PageData}
    (hnormal : page.measured.pageType = snpPageTypeNormal) :
    page.measured =
      ⟨snpPageTypeNormal, page.gpa, some (page.data.zeroPad pageSize)⟩ := by
  revert hnormal
  unfold PageData.measured
  have hsecrets : snpPageTypeSecrets ≠ snpPageTypeNormal := by decide
  have hcpuid : snpPageTypeCpuid ≠ snpPageTypeNormal := by decide
  have hunmeasured : snpPageTypeUnmeasured ≠ snpPageTypeNormal := by decide
  split
  · exact fun h => absurd h hsecrets
  · exact fun h => absurd h hcpuid
  · exact fun h => absurd h hcpuid
  all_goals
    split
    · exact fun h => absurd h hunmeasured
    · exact fun _ => rfl

/-- Equal measurements and equal data presence leave equal map entries. -/
theorem PageData.mapped_eq {left right : PageData}
    (hleft : left.measured.pageType = snpPageTypeNormal)
    (hright : right.measured.pageType = snpPageTypeNormal)
    (hmeasured : left.measured = right.measured)
    (hdata : left.data.isEmpty = right.data.isEmpty) :
    left.mapped = right.mapped := by
  rw [PageData.measured_of_isNormal hleft,
    PageData.measured_of_isNormal hright, MeasuredPage.mk.injEq] at hmeasured
  obtain ⟨-, hgpa, hcontents⟩ := hmeasured
  have hpage : left.data.zeroPadVec pageSize =
      right.data.zeroPadVec pageSize :=
    List.Vector.eq _ _ (Option.some.inj hcontents)
  simp only [PageData.mapped, hgpa, hpage, hdata]

theorem filterMap_mapped_eq {left right : List PageData}
    (hleft : ∀ page ∈ left, page.measured.pageType = snpPageTypeNormal)
    (hright : ∀ page ∈ right, page.measured.pageType = snpPageTypeNormal)
    (hmeasured : left.map PageData.measured = right.map PageData.measured)
    (hdata : left.map (fun page => page.data.isEmpty) =
      right.map (fun page => page.data.isEmpty)) :
    left.filterMap PageData.mapped = right.filterMap PageData.mapped := by
  induction left generalizing right with
  | nil =>
      cases right with
      | nil => rfl
      | cons page rest => cases hmeasured
  | cons page rest ih =>
      cases right with
      | nil => cases hmeasured
      | cons page' rest' =>
          obtain ⟨hhead, htail⟩ := List.cons_eq_cons.mp hmeasured
          obtain ⟨hheadData, htailData⟩ := List.cons_eq_cons.mp hdata
          have hentry : page.mapped = page'.mapped :=
            PageData.mapped_eq (hleft _ List.mem_cons_self)
              (hright _ List.mem_cons_self) hhead hheadData
          have hrest := ih
            (fun other hmem => hleft other (List.mem_cons_of_mem _ hmem))
            (fun other hmem => hright other (List.mem_cons_of_mem _ hmem))
            htail htailData
          simp only [List.filterMap_cons, hentry, hrest]

theorem IgvmFile.normalPages_isNormal (igvm : IgvmFile) :
    ∀ page ∈ igvm.normalPages,
      page.measured.pageType = snpPageTypeNormal := by
  intro page hpage
  obtain ⟨directive, -, hdirective⟩ := List.mem_filterMap.mp hpage
  cases directive with
  | pageData data =>
      simp only [normalPage] at hdirective
      split at hdirective
      · rename_i hnormal
        cases hdirective
        exact hnormal.2
      · cases hdirective
  | _ => cases hdirective

/-- One measured sequence and one data presence give one page map. -/
theorem pageMap_eq_of_measuredSequence_eq {left right : IgvmFile}
    (hsequence : measuredSequence left = measuredSequence right)
    (hleft : left.CmdlineMeasured) (hright : right.CmdlineMeasured)
    (hdata : left.dataPresence = right.dataPresence) :
    pageMap left = pageMap right := by
  have hnormal : left.normalPages.map PageData.measured =
      right.normalPages.map PageData.measured := by
    rw [← measuredSequence_filter_isNormal,
      ← measuredSequence_filter_isNormal, hsequence]
  rw [pageMap_eq_foldl, pageMap_eq_foldl, hleft.filterMap_mappedPage,
    hright.filterMap_mappedPage,
    filterMap_mapped_eq left.normalPages_isNormal right.normalPages_isNormal
      hnormal hdata]

end Igvm

end Kettle
