/-
What a launch digest says about the file it was measured from: which list of
pages it folds, how that list differs from plain directive order, and that no
other list has the same digest.
-/
import Kettle.Igvm.MeasureRefinement

namespace Kettle

namespace Igvm

/-- A closed batch of PageData directives and the ParameterInsert pages that
were met while it was open. -/
structure PageGroup where
  batch : List IndexedPage
  inserts : List MeasuredPage

/-- The pages of a group in the order in which the directives name them. -/
def PageGroup.fileOrder (group : PageGroup) : List MeasuredPage :=
  group.batch.map (·.page.measured) ++ group.inserts

/-- The pages of a group in the order in which they are measured. -/
def PageGroup.measuredOrder (group : PageGroup) : List MeasuredPage :=
  group.inserts ++ group.batch.map (·.page.measured)

/-- The placement of the directives before `dirIdx`, whose pages in file order
are `order`, as closed groups and one open group.  An open group that has
inserts takes no more pages: its last page is at least two directives back. -/
structure Placement.Grouped (placement : Placement)
    (order : List MeasuredPage) (dirIdx : Nat) (closed : List PageGroup)
    (inserts : List MeasuredPage) : Prop where
  placed : placement.placed =
    closed.flatMap PageGroup.measuredOrder ++
      PageGroup.measuredOrder ⟨currentBatch placement.pages, inserts⟩
  order : order =
    closed.flatMap PageGroup.fileOrder ++
      PageGroup.fileOrder ⟨currentBatch placement.pages, inserts⟩
  chains : ∀ group ∈ closed, group.batch.IsChain Continues
  lastBefore : ∀ last ∈ placement.pages.getLast?, last.dirIdx < dirIdx
  insertsLater : inserts ≠ [] →
    ∀ last ∈ placement.pages.getLast?, last.dirIdx + 1 < dirIdx

theorem Placement.empty_grouped :
    Placement.empty.Grouped [] 0 [] [] where
  placed := rfl
  order := rfl
  chains := by simp
  lastBefore := by simp [Placement.empty]
  insertsLater := by simp

theorem Placement.Grouped.skip {placement : Placement}
    {order inserts : List MeasuredPage} {dirIdx : Nat}
    {closed : List PageGroup}
    (hgrouped : placement.Grouped order dirIdx closed inserts) :
    placement.Grouped order (dirIdx + 1) closed inserts where
  placed := hgrouped.placed
  order := hgrouped.order
  chains := hgrouped.chains
  lastBefore last hlast := by
    have := hgrouped.lastBefore last hlast
    omega
  insertsLater hne last hlast := by
    have := hgrouped.insertsLater hne last hlast
    omega

/-- A ParameterInsert joins the inserts of the open group. -/
theorem Placement.Grouped.insert {placement : Placement}
    {order inserts : List MeasuredPage} {dirIdx : Nat}
    {closed : List PageGroup}
    (hgrouped : placement.Grouped order dirIdx closed inserts)
    (inserted : List MeasuredPage) :
    Placement.Grouped
      { placement with
        placed := insertBefore placement.placed inserted
          (currentBatch placement.pages).length }
      (order ++ inserted) (dirIdx + 1) closed (inserts ++ inserted) where
  placed := by
    have hcut : placement.placed.length -
        (currentBatch placement.pages).length =
          (closed.flatMap PageGroup.measuredOrder ++ inserts).length := by
      simp only [hgrouped.placed, PageGroup.measuredOrder,
        List.length_append, List.length_map]
      omega
    have hsplit : placement.placed =
        (closed.flatMap PageGroup.measuredOrder ++ inserts) ++
          (currentBatch placement.pages).map (·.page.measured) := by
      simp only [hgrouped.placed, PageGroup.measuredOrder, List.append_assoc]
    simp only [insertBefore]
    rw [hcut, hsplit, List.take_left, List.drop_left]
    simp only [PageGroup.measuredOrder, List.append_assoc]
  order := by
    simp only [hgrouped.order, PageGroup.fileOrder, List.append_assoc]
  chains := hgrouped.chains
  lastBefore last hlast := by
    have := hgrouped.lastBefore last hlast
    omega
  insertsLater _ last hlast := by
    have := hgrouped.lastBefore last hlast
    omega

/-- A page either joins the open group or closes it and opens the next. -/
theorem Placement.Grouped.page {placement : Placement}
    {order inserts : List MeasuredPage} {dirIdx : Nat}
    {closed : List PageGroup}
    (hgrouped : placement.Grouped order dirIdx closed inserts)
    (page : PageData) :
    ∃ closed' inserts', Placement.Grouped
      ⟨placement.placed ++ [page.measured],
        placement.pages ++ [⟨dirIdx, page⟩]⟩
      (order ++ [page.measured]) (dirIdx + 1) closed' inserts' := by
  have hlastNew : ∀ last ∈ (placement.pages ++
      [(⟨dirIdx, page⟩ : IndexedPage)]).getLast?, last.dirIdx < dirIdx + 1 := by
    simp
  have hbatch := currentBatch_concat placement.pages ⟨dirIdx, page⟩
  by_cases hjoins : inserts = [] ∧
      ∀ prev ∈ placement.pages.getLast?, Continues prev ⟨dirIdx, page⟩
  · obtain ⟨hnone, hcont⟩ := hjoins
    subst hnone
    rw [if_pos hcont] at hbatch
    refine ⟨closed, [], ?_, ?_, hgrouped.chains, hlastNew, by simp⟩
    · simp [hgrouped.placed, hbatch, PageGroup.measuredOrder]
    · simp [hgrouped.order, hbatch, PageGroup.fileOrder]
  · have hopens : currentBatch (placement.pages ++ [⟨dirIdx, page⟩]) =
        [⟨dirIdx, page⟩] := by
      by_cases hcont : ∀ prev ∈ placement.pages.getLast?,
          Continues prev ⟨dirIdx, page⟩
      · -- an open group with inserts is no longer adjacent to this directive
        have hne : inserts ≠ [] := fun hnone => hjoins ⟨hnone, hcont⟩
        have hpages : placement.pages = [] := by
          by_contra hpages
          have hlast := List.getLast?_eq_some_getLast hpages
          have hlater := hgrouped.insertsLater hne _ hlast
          have hnext := (hcont _ hlast).2.2.2
          simp only at hnext
          omega
        rw [hpages]
        simp [currentBatch]
      · rw [hbatch, if_neg hcont]
    refine ⟨closed ++ [⟨currentBatch placement.pages, inserts⟩], [], ?_, ?_,
      ?_, hlastNew, by simp⟩
    · simp [hgrouped.placed, hopens, PageGroup.measuredOrder]
    · simp [hgrouped.order, hopens, PageGroup.fileOrder]
    · intro group hgroup
      rcases List.mem_append.mp hgroup with hold | hnew
      · exact hgrouped.chains group hold
      · rw [List.mem_singleton.mp hnew]
        exact currentBatch_isChain placement.pages

section

variable {snpCompat : UInt32} {paramAreas : UInt32 → Option UInt64}

theorem Placement.Grouped.place {placement : Placement}
    {order inserts : List MeasuredPage} {dirIdx : Nat}
    {closed : List PageGroup}
    (hgrouped : placement.Grouped order dirIdx closed inserts)
    (directive : IgvmDirectiveHeader) :
    ∃ closed' inserts',
      (placement.place snpCompat paramAreas dirIdx directive).Grouped
        (order ++ directivePages snpCompat paramAreas directive)
        (dirIdx + 1) closed' inserts' := by
  cases directive with
  | pageData page =>
      by_cases hmask : page.compatibilityMask &&& snpCompat = 0
      · exact ⟨closed, inserts, by
          simpa [Placement.place, directivePages, hmask] using hgrouped.skip⟩
      · simpa [Placement.place, directivePages, hmask] using
          hgrouped.page page
  | parameterInsert insert => exact ⟨closed, _, hgrouped.insert _⟩
  | parameterArea _ _ _ | memoryMap _ | vpCount _ | snpVpContext _
  | x64NativeVpContext _ _ _ | other _ =>
      exact ⟨closed, inserts, by
        simpa [Placement.place, directivePages] using hgrouped.skip⟩

theorem Placement.Grouped.placeAll {placement : Placement}
    {order inserts : List MeasuredPage} {dirIdx : Nat}
    {closed : List PageGroup}
    (hgrouped : placement.Grouped order dirIdx closed inserts)
    (directives : List IgvmDirectiveHeader) :
    ∃ closed' inserts' finalIdx,
      (placement.placeAll snpCompat paramAreas dirIdx directives).Grouped
        (order ++ directives.flatMap (directivePages snpCompat paramAreas))
        finalIdx closed' inserts' := by
  induction directives generalizing placement order inserts dirIdx closed with
  | nil =>
      refine ⟨closed, inserts, dirIdx, ?_⟩
      simpa [Placement.placeAll] using hgrouped
  | cons directive rest ih =>
      obtain ⟨closed', inserts', hstep⟩ := hgrouped.place directive
      obtain ⟨closed'', inserts'', finalIdx, hrest⟩ := ih hstep
      refine ⟨closed'', inserts'', finalIdx, ?_⟩
      rw [List.flatMap_cons, ← List.append_assoc]
      exact hrest

end

/-- The measured sequence and the directive order are made of the same groups,
each a batch of continuing pages with the inserts moved to its front. -/
theorem measuredSequence_grouped (igvm : IgvmFile) :
    ∃ groups : List PageGroup,
      measuredSequence igvm = groups.flatMap PageGroup.measuredOrder ++
          vmsaPagesOf igvm.snpCompat igvm.directives ∧
        directiveOrder igvm = groups.flatMap PageGroup.fileOrder ++
          vmsaPagesOf igvm.snpCompat igvm.directives ∧
        ∀ group ∈ groups, group.batch.IsChain Continues := by
  obtain ⟨closed, inserts, finalIdx, hgrouped⟩ :
      ∃ closed inserts finalIdx, (Placement.empty.placeAll igvm.snpCompat
        (collectParamAreas igvm) 0 igvm.directives).Grouped _ finalIdx closed
          inserts :=
    Placement.empty_grouped.placeAll igvm.directives
  refine ⟨closed ++ [⟨currentBatch (Placement.empty.placeAll igvm.snpCompat
    (collectParamAreas igvm) 0 igvm.directives).pages, inserts⟩], ?_, ?_, ?_⟩
  · rw [measuredSequence, hgrouped.placed]
    simp
  · have horder := hgrouped.order
    rw [List.nil_append] at horder
    rw [directiveOrder, horder]
    simp
  · intro group hgroup
    rcases List.mem_append.mp hgroup with hold | hnew
    · exact hgrouped.chains group hold
    · rw [List.mem_singleton.mp hnew]
      exact currentBatch_isChain _

/-- No SNP-compatible ParameterInsert comes after an SNP-compatible
PageData. -/
def InsertsBeforePages (snpCompat : UInt32)
    (directives : List IgvmDirectiveHeader) : Prop :=
  directives.Pairwise fun earlier later =>
    ∀ page insert, earlier = .pageData page →
      page.compatibilityMask &&& snpCompat ≠ 0 →
      later = .parameterInsert insert →
      insert.compatibilityMask &&& snpCompat = 0

/-- Placing before an empty batch, or placing nothing, is placing at the
end. -/
theorem Placement.placeAll_placed_eq {snpCompat : UInt32}
    {paramAreas : UInt32 → Option UInt64} {dirIdx : Nat}
    {placement : Placement} {directives : List IgvmDirectiveHeader}
    (hbefore : InsertsBeforePages snpCompat directives)
    (hpages : placement.pages ≠ [] →
      ∀ insert, .parameterInsert insert ∈ directives →
        insert.compatibilityMask &&& snpCompat = 0) :
    (placement.placeAll snpCompat paramAreas dirIdx directives).placed =
      placement.placed ++
        directives.flatMap (directivePages snpCompat paramAreas) := by
  induction directives generalizing placement dirIdx with
  | nil => simp [Placement.placeAll]
  | cons directive rest ih =>
      obtain ⟨hhead, hrest⟩ := List.pairwise_cons.mp hbefore
      have hpagesRest : placement.pages ≠ [] →
          ∀ insert, .parameterInsert insert ∈ rest →
            insert.compatibilityMask &&& snpCompat = 0 :=
        fun hne insert hmem => hpages hne insert (List.mem_cons_of_mem _ hmem)
      rw [Placement.placeAll, List.flatMap_cons, ← List.append_assoc]
      cases directive with
      | pageData page =>
          by_cases hmask : page.compatibilityMask &&& snpCompat = 0
          · rw [ih hrest]
            · simp [Placement.place, directivePages, hmask]
            · simpa [Placement.place, hmask] using hpagesRest
          · rw [ih hrest]
            · simp [Placement.place, directivePages, hmask]
            · intro _ insert hmem
              exact hhead _ hmem page insert rfl hmask rfl
      | parameterInsert insert =>
          rw [ih hrest]
          · congr 1
            by_cases hpages' : placement.pages = []
            · simp [Placement.place, insertBefore, hpages', currentBatch]
            · have hmask := hpages hpages' insert List.mem_cons_self
              simp [Placement.place, insertBefore, directivePages, hmask]
          · exact hpagesRest
      | parameterArea _ _ _ | memoryMap _ | vpCount _ | snpVpContext _
      | x64NativeVpContext _ _ _ | other _ =>
          rw [ih hrest]
          · simp [Placement.place, directivePages]
          · exact hpagesRest

theorem measuredSequence_eq_directiveOrder {igvm : IgvmFile}
    (hbefore : InsertsBeforePages igvm.snpCompat igvm.directives) :
    measuredSequence igvm = directiveOrder igvm := by
  rw [measuredSequence, directiveOrder,
    Placement.placeAll_placed_eq hbefore (by simp [Placement.empty])]
  simp [Placement.empty]

/-- `measure_snp` folds the measured sequence into the digest, page by page
from the all-zero digest; the sequence has the pages of the plain directive
order, rearranged within groups only and not at all when no insert comes after
a page. -/
theorem measureSnp_folds_measuredSequence (sha384 : Bytes → Digest384)
    (igvm : IgvmFile) (hplat : igvm.HasSnpPlatform)
    (hdeclared : igvm.InsertsDeclared) :
    ∃ (result : MeasureResult) (groups : List PageGroup),
      measureSnp sha384 igvm = .ok result ∧
        result.launchDigest =
          ((measuredSequence igvm).map (MeasuredPage.entry sha384)).foldl
            (fun ld entry =>
              updatePageInfo sha384 ld entry.contents entry.pageType
                entry.gpa) zeros48 ∧
        result.pageCount = UInt64.ofNat (measuredSequence igvm).length ∧
        result.vmsaCount = UInt32.ofNat
          (vmsaPagesOf igvm.snpCompat igvm.directives).length ∧
        measuredSequence igvm = groups.flatMap PageGroup.measuredOrder ++
          vmsaPagesOf igvm.snpCompat igvm.directives ∧
        directiveOrder igvm = groups.flatMap PageGroup.fileOrder ++
          vmsaPagesOf igvm.snpCompat igvm.directives ∧
        (∀ group ∈ groups, group.batch.IsChain Continues) ∧
        (InsertsBeforePages igvm.snpCompat igvm.directives →
          measuredSequence igvm = directiveOrder igvm) := by
  obtain ⟨result, hok⟩ : ∃ result, measureSnp sha384 igvm = .ok result :=
    (measureSnp_ok_iff igvm).mpr ⟨hplat, hdeclared⟩
  obtain ⟨groups, hmeasured, hfile, hchains⟩ := measuredSequence_grouped igvm
  have hresult := measureSnp_eq_measuredResult hok
  refine ⟨result, groups, hok, ?_, ?_, ?_, hmeasured, hfile, hchains,
    measuredSequence_eq_directiveOrder⟩
  · rw [hresult]
    rfl
  · rw [hresult]
    rfl
  · rw [hresult]
    rfl

/-- A stand-in for SHA-384 that keeps the first 47 bytes apart. -/
def prefixDigest (bytes : Bytes) : Digest384 :=
  1 ::ᵥ Bytes.zeroPadVec 47 bytes

/-- One batch of two pages with an insert that moves in front of it, one page
of another type and one VMSA. -/
def batchedFile : IgvmFile where
  platforms := [⟨1, 2, .sevSnp, 2, 0⟩]
  initializations := []
  directives := [
    .parameterArea 0x2000 7 [],
    .pageData ⟨0x1000, 1, {}, .normal, [0xAA]⟩,
    .pageData ⟨0x2000, 1, {}, .normal, [0xBB]⟩,
    .parameterInsert ⟨7, 0x9000, 1⟩,
    .pageData ⟨0x3000, 1, {}, .cpuidData, []⟩,
    .snpVpContext ⟨0, 1, 0, []⟩]

theorem batchedFile_folds_measuredSequence :
    ∃ result, measureSnp prefixDigest batchedFile = .ok result ∧
      result.pageCount = 6 ∧ result.vmsaCount = 1 ∧
      (measuredSequence batchedFile).map (·.gpa) =
        [0x9000, 0xA000, 0x1000, 0x2000, 0x3000, vmsaGpa] := by
  have hplat : batchedFile.HasSnpPlatform :=
    ⟨⟨1, 2, .sevSnp, 2, 0⟩, by simp [batchedFile], rfl⟩
  have hdeclared : batchedFile.InsertsDeclared := by
    intro insert hmem _
    have hinsert : insert = ⟨7, 0x9000, 1⟩ := by
      simpa [batchedFile] using hmem
    exact ⟨0x2000, [], by simp [batchedFile, hinsert]⟩
  obtain ⟨result, groups, hok, -, hpages, hvmsa, -⟩ :=
    measureSnp_folds_measuredSequence prefixDigest batchedFile hplat hdeclared
  refine ⟨result, hok, ?_, ?_, by decide +kernel⟩
  · rw [hpages]
    decide +kernel
  · rw [hvmsa]
    decide +kernel

/-- The frame of the digest chain: one PAGE_INFO. -/
def PageEntry.frame (ld : Digest384) (entry : PageEntry) : Bytes :=
  pageInfo ld entry.contents entry.pageType entry.gpa

theorem pageInfo_injective {ld ld' contents contents' : Digest384}
    {pageType pageType' : UInt8} {gpa gpa' : UInt64}
    (heq : pageInfo ld contents pageType gpa =
      pageInfo ld' contents' pageType' gpa') :
    ld = ld' ∧ contents = contents' ∧ pageType = pageType' ∧ gpa = gpa' := by
  simp only [pageInfo, List.append_assoc] at heq
  obtain ⟨hld, hrest⟩ := List.append_inj heq (by simp)
  obtain ⟨hcontents, hrest⟩ := List.append_inj hrest (by simp)
  obtain ⟨-, hrest⟩ := List.append_inj hrest rfl
  obtain ⟨htype, hrest⟩ := List.append_inj hrest rfl
  obtain ⟨-, hgpa⟩ := List.append_inj hrest rfl
  refine ⟨List.Vector.eq _ _ hld, List.Vector.eq _ _ hcontents, ?_, ?_⟩
  · exact List.singleton_inj.mp htype
  · exact UInt64.toNat_inj.mp
      (Bytes.ofNatLE_inj gpa.toNat_lt gpa'.toNat_lt hgpa)

theorem PageEntry.frame_injective (ld ld' : Digest384)
    (entry entry' : PageEntry)
    (heq : entry.frame ld = entry'.frame ld') : ld = ld' ∧ entry = entry' := by
  obtain ⟨hld, hcontents, htype, hgpa⟩ := pageInfo_injective heq
  refine ⟨hld, ?_⟩
  cases entry
  cases entry'
  simp_all

/-- Everything that measuring the file feeds to SHA-384: the hashed page
contents and the PAGE_INFO blocks. -/
def hashedInputs (sha384 : Bytes → Digest384) (igvm : IgvmFile) :
    Set Bytes :=
  { input |
    (∃ page ∈ measuredSequence igvm, page.contents = some input) ∨
    input ∈ HashChain.chainInputs sha384 PageEntry.frame zeros48
      ((measuredSequence igvm).map (MeasuredPage.entry sha384)) }

theorem MeasuredPage.entry_injOn {sha384 : Bytes → Digest384}
    {inputs : Set Bytes}
    (hfree : HashChain.CollisionFreeOn sha384 zeros48 inputs)
    {page page' : MeasuredPage}
    (hpage : ∀ bytes, page.contents = some bytes → bytes ∈ inputs)
    (hpage' : ∀ bytes, page'.contents = some bytes → bytes ∈ inputs)
    (heq : page.entry sha384 = page'.entry sha384) : page = page' := by
  obtain ⟨pageType, gpa, contents⟩ := page
  obtain ⟨pageType', gpa', contents'⟩ := page'
  simp only [MeasuredPage.entry, MeasuredPage.contentsDigest,
    PageEntry.mk.injEq] at heq
  obtain ⟨hdigest, htype, hgpa⟩ := heq
  have hcontents : contents = contents' := by
    cases contents with
    | none =>
        cases contents' with
        | none => rfl
        | some bytes' =>
            exact absurd hdigest.symm (hfree.ne_avoid _ (hpage' _ rfl))
    | some bytes =>
        cases contents' with
        | none => exact absurd hdigest (hfree.ne_avoid _ (hpage _ rfl))
        | some bytes' =>
            rw [hfree.injOn (hpage _ rfl) (hpage' _ rfl) hdigest]
  rw [hcontents, htype, hgpa]

theorem MeasuredPage.map_entry_injOn {sha384 : Bytes → Digest384}
    {inputs : Set Bytes}
    (hfree : HashChain.CollisionFreeOn sha384 zeros48 inputs)
    {pages pages' : List MeasuredPage}
    (hpages : ∀ page ∈ pages, ∀ bytes, page.contents = some bytes →
      bytes ∈ inputs)
    (hpages' : ∀ page ∈ pages', ∀ bytes, page.contents = some bytes →
      bytes ∈ inputs)
    (heq : pages.map (MeasuredPage.entry sha384) =
      pages'.map (MeasuredPage.entry sha384)) : pages = pages' := by
  induction pages generalizing pages' with
  | nil =>
      symm
      simpa using heq
  | cons page rest ih =>
      cases pages' with
      | nil => cases heq
      | cons page' rest' =>
          obtain ⟨hhead, htail⟩ := List.cons_eq_cons.mp heq
          have hpage : page = page' :=
            MeasuredPage.entry_injOn hfree (hpages _ List.mem_cons_self)
              (hpages' _ List.mem_cons_self) hhead
          have hrest : rest = rest' :=
            ih (fun other hmem => hpages other (List.mem_cons_of_mem _ hmem))
              (fun other hmem => hpages' other (List.mem_cons_of_mem _ hmem))
              htail
          rw [hpage, hrest]

/-- A page is hashed exactly when its type is NORMAL or VMSA, and then all of
its 4096 bytes are. -/
def MeasuredPage.WellFormed (page : MeasuredPage) : Prop :=
  (page.contents.isSome ↔
    page.pageType = snpPageTypeNormal ∨ page.pageType = snpPageTypeVmsa) ∧
  ∀ bytes ∈ page.contents, bytes.length = pageSize

theorem MeasuredPage.unhashed_wellFormed {pageType : UInt8} (gpa : UInt64)
    (hnormal : pageType ≠ snpPageTypeNormal)
    (hvmsa : pageType ≠ snpPageTypeVmsa) :
    MeasuredPage.WellFormed ⟨pageType, gpa, none⟩ := by
  simp [MeasuredPage.WellFormed, hnormal, hvmsa]

theorem PageData.measured_wellFormed (page : PageData) :
    page.measured.WellFormed := by
  have hhashed : MeasuredPage.WellFormed ⟨snpPageTypeNormal, page.gpa,
      some (page.data.zeroPad pageSize)⟩ := by
    simp [MeasuredPage.WellFormed]
  unfold PageData.measured
  split
  · exact MeasuredPage.unhashed_wellFormed _ (by decide) (by decide)
  · exact MeasuredPage.unhashed_wellFormed _ (by decide) (by decide)
  · exact MeasuredPage.unhashed_wellFormed _ (by decide) (by decide)
  all_goals
    split
    · exact MeasuredPage.unhashed_wellFormed _ (by decide) (by decide)
    · exact hhashed

theorem SnpVpContext.measured_wellFormed (context : SnpVpContext) :
    context.measured.WellFormed := by
  simp [MeasuredPage.WellFormed, SnpVpContext.measured,
    applyKvmVmsaOverrides]

theorem insertPages_wellFormed (gpa areaSize : UInt64) :
    ∀ page ∈ insertPages gpa areaSize, page.WellFormed := by
  intro page hpage
  obtain ⟨pageGpa, -, rfl⟩ := List.mem_map.mp hpage
  exact MeasuredPage.unhashed_wellFormed pageGpa (by decide) (by decide)

theorem directivePages_wellFormed {snpCompat : UInt32}
    {paramAreas : UInt32 → Option UInt64} (directive : IgvmDirectiveHeader) :
    ∀ page ∈ directivePages snpCompat paramAreas directive,
      page.WellFormed := by
  intro page hpage
  cases directive with
  | pageData data =>
      simp only [directivePages] at hpage
      split at hpage
      · cases hpage
      · rw [List.mem_singleton.mp hpage]
        exact data.measured_wellFormed
  | parameterInsert insert =>
      simp only [directivePages] at hpage
      split at hpage
      · cases hpage
      · split at hpage
        · cases hpage
        · exact insertPages_wellFormed _ _ page hpage
  | parameterArea _ _ _ | memoryMap _ | vpCount _ | snpVpContext _
  | x64NativeVpContext _ _ _ | other _ => cases hpage

theorem PageGroup.measuredOrder_perm (group : PageGroup) :
    group.measuredOrder.Perm group.fileOrder :=
  List.perm_append_comm

/-- The measured sequence is the directive order up to the order. -/
theorem measuredSequence_perm (igvm : IgvmFile) :
    (measuredSequence igvm).Perm (directiveOrder igvm) := by
  obtain ⟨groups, hmeasured, hfile, -⟩ := measuredSequence_grouped igvm
  rw [hmeasured, hfile]
  apply List.Perm.append_right
  exact List.Perm.flatMap_left groups
    fun group _ => group.measuredOrder_perm

theorem measuredSequence_wellFormed (igvm : IgvmFile) :
    ∀ page ∈ measuredSequence igvm, page.WellFormed := by
  intro page hpage
  have hmem := (measuredSequence_perm igvm).mem_iff.mp hpage
  rcases List.mem_append.mp hmem with hdir | hvmsa
  · obtain ⟨directive, -, hdirective⟩ := List.mem_flatMap.mp hdir
    exact directivePages_wellFormed directive page hdirective
  · obtain ⟨directive, -, hdirective⟩ := List.mem_filterMap.mp hvmsa
    cases directive with
    | snpVpContext context =>
        simp only at hdirective
        split at hdirective
        · cases hdirective
        · cases hdirective
          exact context.measured_wellFormed
    | _ => cases hdirective

theorem measuredSequence_eq_of_digest_eq {sha384 : Bytes → Digest384}
    {left right : IgvmFile} {leftResult rightResult : MeasureResult}
    (hleft : measureSnp sha384 left = .ok leftResult)
    (hright : measureSnp sha384 right = .ok rightResult)
    (hfree : HashChain.CollisionFreeOn sha384 zeros48
      (hashedInputs sha384 left ∪ hashedInputs sha384 right))
    (heq : leftResult.launchDigest = rightResult.launchDigest) :
    measuredSequence left = measuredSequence right := by
  have hchain : HashChain.chain sha384 PageEntry.frame zeros48
        ((measuredSequence left).map (MeasuredPage.entry sha384)) =
      HashChain.chain sha384 PageEntry.frame zeros48
        ((measuredSequence right).map (MeasuredPage.entry sha384)) := by
    rw [measureSnp_eq_measuredResult hleft,
      measureSnp_eq_measuredResult hright] at heq
    exact heq
  have hentries := HashChain.chain_injective hfree PageEntry.frame_injective
    (fun input hinput => Or.inl (Or.inr hinput))
    (fun input hinput => Or.inr (Or.inr hinput)) hchain
  apply MeasuredPage.map_entry_injOn hfree _ _ hentries
  · exact fun page hpage bytes hbytes => Or.inl (Or.inl ⟨page, hpage, hbytes⟩)
  · exact fun page hpage bytes hbytes => Or.inr (Or.inl ⟨page, hpage, hbytes⟩)

/-- Files with one launch digest have one measured sequence: the same pages, in
the same order, at the same addresses and with the same hashed bytes. -/
theorem measuredSequence_eq_of_launchDigest_eq {sha384 : Bytes → Digest384}
    {left right : IgvmFile} {leftResult rightResult : MeasureResult}
    (hleft : measureSnp sha384 left = .ok leftResult)
    (hright : measureSnp sha384 right = .ok rightResult)
    (hfree : HashChain.CollisionFreeOn sha384 zeros48
      (hashedInputs sha384 left ∪ hashedInputs sha384 right))
    (heq : leftResult.launchDigest = rightResult.launchDigest) :
    measuredSequence left = measuredSequence right ∧
      ∀ page ∈ measuredSequence left, page.WellFormed :=
  ⟨measuredSequence_eq_of_digest_eq hleft hright hfree heq,
    measuredSequence_wellFormed left⟩

theorem prefixDigest_ne_zeros48 (input : Bytes) :
    prefixDigest input ≠ zeros48 := by
  intro heq
  have hhead : (1 : UInt8) = 0 := congrArg List.Vector.head heq
  exact absurd hhead (by decide)

/-- Inputs that begin with different bytes have different digests. -/
theorem prefixDigest_collisionFree {inputs : Set Bytes} (listed : List Bytes)
    (hlisted : ∀ input ∈ inputs, input ∈ listed)
    (hheads : (listed.map (·.headD 0)).Nodup) :
    HashChain.CollisionFreeOn prefixDigest zeros48 inputs := by
  have hsecond : ∀ input : Bytes,
      (prefixDigest input).toList[1]? = some (input.headD 0) := by
    intro input
    cases input with
    | nil => rfl
    | cons first rest => rfl
  refine ⟨fun left hleft right hright heq => ?_,
    fun input _ => prefixDigest_ne_zeros48 input⟩
  have hhead := (hsecond left).symm.trans
    ((congrArg (fun digest : Digest384 => digest.toList[1]?) heq).trans
      (hsecond right))
  exact List.inj_on_of_nodup_map hheads (hlisted left hleft)
    (hlisted right hright) (Option.some.inj hhead)

/-- A file with two measured pages. -/
def twoPageFile (data : Bytes) : IgvmFile where
  platforms := [⟨1, 2, .native, 1, 0⟩, ⟨2, 2, .sevSnp, 1, 0⟩]
  initializations := []
  directives := [
    .pageData ⟨0x1000, 3, {}, .normal, data⟩,
    .pageData ⟨0x2000, 3, {}, .normal, [9]⟩]

theorem twoPageFile_measuredSequence (data : Bytes) :
    measuredSequence (twoPageFile data) =
      [⟨snpPageTypeNormal, 0x1000, some (data.zeroPad pageSize)⟩,
        ⟨snpPageTypeNormal, 0x2000, some (Bytes.zeroPad pageSize [9])⟩] := by
  have hmask : ¬ (3 &&& 2 : UInt32) = 0 := by decide
  simp [measuredSequence, twoPageFile, IgvmFile.snpCompat, vmsaPagesOf, hmask,
    Placement.placeAll, Placement.place, Placement.empty, PageData.measured]

theorem twoPageFile_measureSnp (sha384 : Bytes → Digest384) (data : Bytes) :
    measureSnp sha384 (twoPageFile data) =
      .ok (measuredResult sha384 (twoPageFile data)) := by
  obtain ⟨result, hok⟩ : ∃ result,
      measureSnp sha384 (twoPageFile data) = .ok result :=
    (measureSnp_ok_iff _).mpr
      ⟨⟨⟨2, 2, .sevSnp, 1, 0⟩, by simp [twoPageFile], rfl⟩,
        fun insert hmem => by simp [twoPageFile] at hmem⟩
  rw [hok, measureSnp_eq_measuredResult hok]

/-- The pages and their PAGE_INFOs differ in their first bytes. -/
theorem twoPageFile_collisionFree :
    HashChain.CollisionFreeOn prefixDigest zeros48
      (hashedInputs prefixDigest (twoPageFile [7])) := by
  refine prefixDigest_collisionFree
    (Bytes.zeroPad pageSize [7] :: Bytes.zeroPad pageSize [9] ::
      HashChain.chainInputs prefixDigest PageEntry.frame zeros48
        ((measuredSequence (twoPageFile [7])).map
          (MeasuredPage.entry prefixDigest))) ?_ ?_
  · rintro input (⟨page, hpage, hcontents⟩ | hblock)
    · rw [twoPageFile_measuredSequence] at hpage
      simp only [List.mem_cons, List.not_mem_nil, or_false] at hpage
      rcases hpage with rfl | rfl
      · exact Option.some.inj hcontents ▸ List.mem_cons_self
      · exact Option.some.inj hcontents ▸
          List.mem_cons_of_mem _ List.mem_cons_self
    · exact List.mem_cons_of_mem _ (List.mem_cons_of_mem _ hblock)
  · have hheads : ([7, 9, 0, 1] : List UInt8).Nodup := by decide
    rw [twoPageFile_measuredSequence]
    exact hheads

/-- The zero at the end of the first page's data is measured either way. -/
theorem twoPageFile_measuredSequence_eq :
    twoPageFile [7] ≠ twoPageFile [7, 0] ∧
      ∃ left right, measureSnp prefixDigest (twoPageFile [7]) = .ok left ∧
        measureSnp prefixDigest (twoPageFile [7, 0]) = .ok right ∧
        left.launchDigest = right.launchDigest ∧ left.pageCount = 2 ∧
        measuredSequence (twoPageFile [7]) =
          measuredSequence (twoPageFile [7, 0]) := by
  have hsame : measuredSequence (twoPageFile [7, 0]) =
      measuredSequence (twoPageFile [7]) := by
    rw [twoPageFile_measuredSequence, twoPageFile_measuredSequence]
    rfl
  have hdigest : (measuredResult prefixDigest (twoPageFile [7])).launchDigest =
      (measuredResult prefixDigest (twoPageFile [7, 0])).launchDigest := by
    simp only [measuredResult, hsame]
  have hinputs : hashedInputs prefixDigest (twoPageFile [7, 0]) =
      hashedInputs prefixDigest (twoPageFile [7]) := by
    rw [hashedInputs, hashedInputs, hsame]
  refine ⟨by decide, _, _, twoPageFile_measureSnp _ _,
    twoPageFile_measureSnp _ _, hdigest, ?_, ?_⟩
  · rw [measuredResult, twoPageFile_measuredSequence]
    rfl
  · refine (measuredSequence_eq_of_launchDigest_eq
      (twoPageFile_measureSnp prefixDigest [7])
      (twoPageFile_measureSnp prefixDigest [7, 0]) ?_ hdigest).1
    rw [hinputs, Set.union_self]
    exact twoPageFile_collisionFree

/-- A file for both platforms with one measured page. -/
def onePageFile (data : Bytes) : IgvmFile where
  platforms := [⟨1, 2, .native, 1, 0⟩, ⟨2, 2, .sevSnp, 1, 0⟩]
  initializations := []
  directives := [.pageData ⟨0x1000, 3, {}, .normal, data⟩]

theorem onePageFile_measuredSequence (data : Bytes) :
    measuredSequence (onePageFile data) =
      [⟨snpPageTypeNormal, 0x1000, some (data.zeroPad pageSize)⟩] := by
  have hmask : ¬ (3 &&& 2 : UInt32) = 0 := by decide
  simp [measuredSequence, onePageFile, IgvmFile.snpCompat, vmsaPagesOf, hmask,
    Placement.placeAll, Placement.place, Placement.empty, PageData.measured]

theorem onePageFile_measureSnp (sha384 : Bytes → Digest384) (data : Bytes) :
    measureSnp sha384 (onePageFile data) =
      .ok (measuredResult sha384 (onePageFile data)) := by
  obtain ⟨result, hok⟩ : ∃ result,
      measureSnp sha384 (onePageFile data) = .ok result :=
    (measureSnp_ok_iff _).mpr
      ⟨⟨⟨2, 2, .sevSnp, 1, 0⟩, by simp [onePageFile], rfl⟩,
        fun insert hmem => by simp [onePageFile] at hmem⟩
  rw [hok, measureSnp_eq_measuredResult hok]

/-- The page and its PAGE_INFO differ in their first byte. -/
theorem onePageFile_collisionFree {b : UInt8} (hb : b ≠ 0) {data : Bytes}
    (hhead : data.head? = some b) :
    HashChain.CollisionFreeOn prefixDigest zeros48
      (hashedInputs prefixDigest (onePageFile data)) := by
  obtain ⟨data, rfl⟩ : ∃ rest, data = b :: rest := by
    cases data with
    | nil => cases hhead
    | cons first rest => exact ⟨rest, by rw [Option.some.inj hhead]⟩
  refine prefixDigest_collisionFree
    (Bytes.zeroPad pageSize (b :: data) ::
      HashChain.chainInputs prefixDigest PageEntry.frame zeros48
        ((measuredSequence (onePageFile (b :: data))).map
          (MeasuredPage.entry prefixDigest))) ?_ ?_
  · rintro input (⟨page, hpage, hcontents⟩ | hblock)
    · rw [onePageFile_measuredSequence, List.mem_singleton] at hpage
      rw [hpage] at hcontents
      exact Option.some.inj hcontents ▸ List.mem_cons_self
    · exact List.mem_cons_of_mem _ hblock
  · have hheads : [b, 0].Nodup := by simp [hb]
    rw [onePageFile_measuredSequence]
    exact hheads

/-- Trailing zeros of a page's data are measured either way. -/
theorem onePageFile_append_zero {b : UInt8} (hb : b ≠ 0) {data : Bytes}
    (hhead : data.head? = some b) (hlen : data.length < pageSize) :
    measuredSequence (onePageFile (data ++ [0])) =
        measuredSequence (onePageFile data) ∧
      (measuredResult prefixDigest
          (onePageFile (data ++ [0]))).launchDigest =
        (measuredResult prefixDigest (onePageFile data)).launchDigest ∧
      HashChain.CollisionFreeOn prefixDigest zeros48
        (hashedInputs prefixDigest (onePageFile data) ∪
          hashedInputs prefixDigest (onePageFile (data ++ [0]))) := by
  have hsequence : measuredSequence (onePageFile (data ++ [0])) =
      measuredSequence (onePageFile data) := by
    rw [onePageFile_measuredSequence, onePageFile_measuredSequence,
      Bytes.zeroPad_append_zero hlen]
  refine ⟨hsequence, ?_, ?_⟩
  · simp only [measuredResult, hsequence]
  · have hinputs : hashedInputs prefixDigest
        (onePageFile (data ++ [0])) =
          hashedInputs prefixDigest (onePageFile data) := by
      rw [hashedInputs, hashedInputs, hsequence]
    rw [hinputs, Set.union_self]
    exact onePageFile_collisionFree hb hhead

end Igvm

end Kettle
