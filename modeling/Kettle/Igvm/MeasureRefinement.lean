/-
The measuring loop refines the measured sequence: at every directive the
running digest covers everything placed before the current batch, and the
pending batch is the rest.
-/
import Kettle.Lib.Result
import Kettle.Igvm.MeasuredSequence

namespace Kettle

namespace Igvm

variable (sha384 : Bytes → Digest384)

/-- Extend a running digest by one entry. -/
def extendDigest (ld : Digest384) (entry : PageEntry) : Digest384 :=
  updatePageInfo sha384 ld entry.contents entry.pageType entry.gpa

def RunningDigest.measureAll (running : RunningDigest)
    (pages : List MeasuredPage) : RunningDigest :=
  pages.foldl
    (fun running page =>
      running.measure sha384 (page.contentsDigest sha384) page.pageType
        page.gpa) running

@[simp] theorem RunningDigest.measureAll_nil (running : RunningDigest) :
    running.measureAll sha384 [] = running := rfl

theorem RunningDigest.measureAll_append (running : RunningDigest)
    (front back : List MeasuredPage) :
    running.measureAll sha384 (front ++ back) =
      (running.measureAll sha384 front).measureAll sha384 back := by
  simp [RunningDigest.measureAll]

theorem RunningDigest.measureAll_ld (running : RunningDigest)
    (pages : List MeasuredPage) :
    (running.measureAll sha384 pages).ld =
      (pages.map (MeasuredPage.entry sha384)).foldl (extendDigest sha384)
        running.ld := by
  induction pages generalizing running with
  | nil => rfl
  | cons page rest ih => exact ih _

theorem RunningDigest.measureAll_pageCount (running : RunningDigest)
    (pages : List MeasuredPage) :
    (running.measureAll sha384 pages).pageCount =
      running.pageCount + UInt64.ofNat pages.length := by
  induction pages generalizing running with
  | nil => simp [RunningDigest.measureAll]
  | cons page rest ih =>
      have hstep := ih (running.measure sha384
        (page.contentsDigest sha384) page.pageType page.gpa)
      rw [List.length_cons, UInt64.ofNat_add]
      calc
        _ = running.pageCount + 1 + UInt64.ofNat rest.length := hstep
        _ = _ := by
          rw [UInt64.add_assoc, UInt64.add_comm 1]
          rfl

def MeasuredPage.pending (page : MeasuredPage) : PendingPage :=
  ⟨page.gpa, page.pageType, page.contentsDigest sha384⟩

theorem flushBatch_eq (running : RunningDigest) (pages : List MeasuredPage) :
    flushBatch sha384 running (pages.map (MeasuredPage.pending sha384)) =
      running.measureAll sha384 pages := by
  simp [flushBatch, RunningDigest.measureAll, List.foldl_map,
    MeasuredPage.pending]

/-- The measured page of a collected VMSA. -/
def vmsaMeasured (vmsa : UInt64 × Bytes) : MeasuredPage :=
  ⟨snpPageTypeVmsa, vmsaGpa, some vmsa.2⟩

theorem measureVmsaPages_eq (running : RunningDigest)
    (vmsaPages : List (UInt64 × Bytes)) :
    measureVmsaPages sha384 running vmsaPages =
      running.measureAll sha384 (vmsaPages.map vmsaMeasured) := by
  simp [measureVmsaPages, RunningDigest.measureAll, List.foldl_map,
    vmsaMeasured, MeasuredPage.contentsDigest]

theorem measureInsert_eq (running : RunningDigest) (gpa areaSize : UInt64) :
    (insertGpas gpa areaSize).foldl
        (fun running gpa =>
          running.measure sha384 zeros48 snpPageTypeUnmeasured gpa) running =
      running.measureAll sha384 (insertPages gpa areaSize) := by
  simp [RunningDigest.measureAll, insertPages, List.foldl_map,
    MeasuredPage.contentsDigest]

/-- The loop state tracks a placement: what is measured is everything placed
before the current batch, what is pending is that batch, and the four
registers describe the last PageData. -/
structure MeasureState.Tracks (state : MeasureState)
    (placement : Placement) : Prop where
  measured : ∃ front,
    placement.placed =
        front ++ (currentBatch placement.pages).map (·.page.measured) ∧
      state.running = RunningDigest.measureAll sha384 ⟨zeros48, 0⟩ front
  pending : state.pendingBatch =
    (currentBatch placement.pages).map (·.page.measured.pending sha384)
  prevGpa : state.prevPageGpa = placement.pages.getLast?.map (·.page.gpa)
  prevType : state.prevPageType =
    placement.pages.getLast?.map (·.page.measured.pageType)
  prevHasData : state.prevPageHasData =
    placement.pages.getLast?.map (·.page.hasData)
  lastIdx : state.lastPageDirectiveIdx =
    placement.pages.getLast?.map (·.dirIdx)

theorem MeasureState.initial_tracks :
    MeasureState.initial.Tracks sha384 Placement.empty where
  measured := ⟨[], rfl, rfl⟩
  pending := rfl
  prevGpa := rfl
  prevType := rfl
  prevHasData := rfl
  lastIdx := rfl

variable {sha384}

/-- Everything placed has been measured once the batch is flushed. -/
theorem MeasureState.Tracks.flush_eq {state : MeasureState}
    {placement : Placement} (htracks : state.Tracks sha384 placement) :
    flushBatch sha384 state.running state.pendingBatch =
      RunningDigest.measureAll sha384 ⟨zeros48, 0⟩ placement.placed := by
  obtain ⟨front, hplaced, hrunning⟩ := htracks.measured
  have hpending : state.pendingBatch =
      ((currentBatch placement.pages).map (·.page.measured)).map
        (MeasuredPage.pending sha384) := by
    rw [htracks.pending, List.map_map]
    rfl
  rw [hpending, flushBatch_eq, hplaced, RunningDigest.measureAll_append,
    hrunning]

/-- The registers flush exactly when the new page does not continue the last
one. -/
theorem MeasureState.Tracks.shouldFlush_iff {state : MeasureState}
    {placement : Placement} (htracks : state.Tracks sha384 placement)
    (dirIdx : Nat) (page : PageData) :
    state.shouldFlush dirIdx page.gpa page.measured.pageType page.hasData =
        true ↔
      ¬ ∀ prev ∈ placement.pages.getLast?, Continues prev ⟨dirIdx, page⟩ := by
  unfold MeasureState.shouldFlush
  rw [htracks.prevGpa, htracks.prevType, htracks.prevHasData, htracks.lastIdx]
  cases placement.pages.getLast? with
  | none => simp
  | some prev =>
      simp only [Option.map_some, Option.mem_def, Option.some.injEq,
        forall_eq', Bool.or_eq_true, bne_iff_ne, Continues]
      generalize prev.page.gpa + UInt64.ofNat pageSize = following
      tauto

/-- Placing a PageData keeps the loop state in track. -/
theorem MeasureState.Tracks.page {state : MeasureState}
    {placement : Placement} (htracks : state.Tracks sha384 placement)
    (dirIdx : Nat) (page : PageData) {flushed : MeasureState}
    (hflushed : flushed =
      if state.shouldFlush dirIdx page.gpa page.measured.pageType
          page.hasData && !state.pendingBatch.isEmpty then
        { state with
          running := flushBatch sha384 state.running state.pendingBatch
          pendingBatch := [] }
      else state) :
    MeasureState.Tracks sha384
      { flushed with
        pendingBatch :=
          flushed.pendingBatch ++ [page.measured.pending sha384]
        prevPageGpa := some page.gpa
        prevPageType := some page.measured.pageType
        prevPageHasData := some page.hasData
        lastPageDirectiveIdx := some dirIdx }
      ⟨placement.placed ++ [page.measured],
        placement.pages ++ [⟨dirIdx, page⟩]⟩ := by
  have hbatch := currentBatch_concat placement.pages ⟨dirIdx, page⟩
  have hregisters :
      (placement.pages ++ [(⟨dirIdx, page⟩ : IndexedPage)]).getLast? =
        some ⟨dirIdx, page⟩ := by simp
  by_cases hcont : ∀ prev ∈ placement.pages.getLast?,
      Continues prev ⟨dirIdx, page⟩
  · -- the page joins the pending batch and nothing is measured
    have hflush : state.shouldFlush dirIdx page.gpa page.measured.pageType
        page.hasData = false := by
      rw [Bool.eq_false_iff]
      exact fun h => (htracks.shouldFlush_iff dirIdx page).mp h hcont
    rw [hflush, Bool.false_and, if_neg (by simp)] at hflushed
    rw [if_pos hcont] at hbatch
    subst hflushed
    obtain ⟨front, hplaced, hrunning⟩ := htracks.measured
    refine ⟨⟨front, ?_, hrunning⟩, ?_, ?_, ?_, ?_, ?_⟩
    · simp [hbatch, hplaced]
    · simp [hbatch, htracks.pending]
    all_goals rw [hregisters]; rfl
  · -- the pending batch is measured and the page starts a new one
    rw [if_neg hcont] at hbatch
    have hrunning : flushed.running =
        RunningDigest.measureAll sha384 ⟨zeros48, 0⟩ placement.placed ∧
        flushed.pendingBatch = [] := by
      rw [← htracks.flush_eq, hflushed,
        (htracks.shouldFlush_iff dirIdx page).mpr hcont]
      cases hpending : state.pendingBatch with
      | nil => simp [flushBatch, hpending]
      | cons first rest => simp
    refine ⟨⟨placement.placed, ?_, hrunning.1⟩, ?_, ?_, ?_, ?_, ?_⟩
    · simp [hbatch]
    · simp [hbatch, hrunning.2]
    all_goals rw [hregisters]; rfl

/-- Measuring a ParameterInsert at once is placing it before the batch. -/
theorem MeasureState.Tracks.insert {state : MeasureState}
    {placement : Placement} (htracks : state.Tracks sha384 placement)
    (inserted : List MeasuredPage) :
    MeasureState.Tracks sha384
      { state with running := state.running.measureAll sha384 inserted }
      { placement with
        placed := insertBefore placement.placed inserted
          (currentBatch placement.pages).length } := by
  obtain ⟨front, hplaced, hrunning⟩ := htracks.measured
  refine ⟨⟨front ++ inserted, ?_, ?_⟩, htracks.pending, htracks.prevGpa,
    htracks.prevType, htracks.prevHasData, htracks.lastIdx⟩
  · have hcut : placement.placed.length -
        (currentBatch placement.pages).length = front.length := by
      simp [hplaced]
    simp only [insertBefore]
    rw [hcut, hplaced, List.take_left, List.drop_left]
  · simp only
    rw [hrunning, RunningDigest.measureAll_append]

variable {snpCompat : UInt32} {paramAreas : UInt32 → Option UInt64}

section Turn

variable {dirIdx : Nat} {state next : MeasureState} {placement : Placement}

/-- Page data join the pending batch or start a new one. -/
theorem measurePageData_tracks {page : PageData}
    (htracks : state.Tracks sha384 placement)
    (hnext : measureDirective sha384 snpCompat paramAreas dirIdx state
      (.pageData page) = .ok next) :
    next.Tracks sha384
        (placement.place snpCompat paramAreas dirIdx (.pageData page)) ∧
      next.vmsaPages.map vmsaMeasured = state.vmsaPages.map vmsaMeasured ++
        vmsaPagesOf snpCompat [.pageData page] := by
  simp only [measureDirective] at hnext
  by_cases hmask : page.compatibilityMask &&& snpCompat = 0
  · rw [if_pos hmask] at hnext
    cases hnext
    simpa [Placement.place, hmask, vmsaPagesOf] using htracks
  · rw [if_neg hmask, classifyPageData_eq] at hnext
    cases hnext
    constructor
    · have hpending : page.measured.pending sha384 =
          ⟨page.gpa, page.measured.pageType,
            page.measured.contentsDigest sha384⟩ := by
        simp [MeasuredPage.pending]
      simp only [Placement.place, hmask, if_false]
      rw [← hpending]
      exact htracks.page dirIdx page rfl
    · simp only [vmsaPagesOf]
      split <;> simp

/-- The pages of a parameter area are measured at once. -/
theorem measureInsert_tracks {insert : IgvmParameterInsert}
    (htracks : state.Tracks sha384 placement)
    (hnext : measureDirective sha384 snpCompat paramAreas dirIdx state
      (.parameterInsert insert) = .ok next) :
    next.Tracks sha384 (placement.place snpCompat paramAreas dirIdx
        (.parameterInsert insert)) ∧
      next.vmsaPages.map vmsaMeasured = state.vmsaPages.map vmsaMeasured ++
        vmsaPagesOf snpCompat [.parameterInsert insert] := by
  simp only [measureDirective] at hnext
  by_cases hmask : insert.compatibilityMask &&& snpCompat = 0
  · rw [if_pos hmask] at hnext
    cases hnext
    have hnothing := htracks.insert []
    simpa [Placement.place, directivePages, hmask, vmsaPagesOf] using
      hnothing
  · rw [if_neg hmask] at hnext
    cases harea : paramAreas insert.parameterAreaIndex with
    | none =>
        rw [harea] at hnext
        cases hnext
    | some areaSize =>
        rw [harea] at hnext
        cases hnext
        refine ⟨?_, by simp [vmsaPagesOf]⟩
        simp only [Placement.place, directivePages, hmask, if_false, harea]
        rw [measureInsert_eq]
        exact htracks.insert _

/-- A VMSA page is collected for the end. -/
theorem measureVpContext_tracks {context : SnpVpContext}
    (htracks : state.Tracks sha384 placement)
    (hnext : measureDirective sha384 snpCompat paramAreas dirIdx state
      (.snpVpContext context) = .ok next) :
    next.Tracks sha384 (placement.place snpCompat paramAreas dirIdx
        (.snpVpContext context)) ∧
      next.vmsaPages.map vmsaMeasured = state.vmsaPages.map vmsaMeasured ++
        vmsaPagesOf snpCompat [.snpVpContext context] := by
  simp only [measureDirective] at hnext
  by_cases hmask : context.compatibilityMask &&& snpCompat = 0
  · rw [if_pos hmask] at hnext
    cases hnext
    simpa [Placement.place, hmask, vmsaPagesOf] using htracks
  · rw [if_neg hmask] at hnext
    cases hnext
    refine ⟨⟨htracks.measured, htracks.pending, htracks.prevGpa,
      htracks.prevType, htracks.prevHasData, htracks.lastIdx⟩, ?_⟩
    simp [vmsaPagesOf, hmask, vmsaMeasured, SnpVpContext.measured]

/-- One turn of the loop: the placement advances by the same directive and the
collected VMSAs by its VMSA page, if any. -/
theorem measureDirective_tracks {directive : IgvmDirectiveHeader}
    (htracks : state.Tracks sha384 placement)
    (hnext : measureDirective sha384 snpCompat paramAreas dirIdx state
      directive = .ok next) :
    next.Tracks sha384
        (placement.place snpCompat paramAreas dirIdx directive) ∧
      next.vmsaPages.map vmsaMeasured = state.vmsaPages.map vmsaMeasured ++
        vmsaPagesOf snpCompat [directive] := by
  cases directive with
  | pageData page => exact measurePageData_tracks htracks hnext
  | parameterInsert insert => exact measureInsert_tracks htracks hnext
  | snpVpContext context => exact measureVpContext_tracks htracks hnext
  | parameterArea _ _ _ | memoryMap _ | vpCount _ | x64NativeVpContext _ _ _
  | other _ =>
      cases hnext
      simpa [Placement.place, vmsaPagesOf] using htracks

end Turn

theorem vmsaPagesOf_cons (directive : IgvmDirectiveHeader)
    (rest : List IgvmDirectiveHeader) :
    vmsaPagesOf snpCompat (directive :: rest) =
      vmsaPagesOf snpCompat [directive] ++ vmsaPagesOf snpCompat rest := by
  rw [vmsaPagesOf, ← List.singleton_append, List.filterMap_append]
  rfl

/-- The whole loop tracks the whole placement. -/
theorem measureDirectives_tracks {dirIdx : Nat} {state final : MeasureState}
    {placement : Placement} {directives : List IgvmDirectiveHeader}
    (htracks : state.Tracks sha384 placement)
    (hfinal : measureDirectives sha384 snpCompat paramAreas dirIdx state
      directives = .ok final) :
    final.Tracks sha384
        (placement.placeAll snpCompat paramAreas dirIdx directives) ∧
      final.vmsaPages.map vmsaMeasured = state.vmsaPages.map vmsaMeasured ++
        vmsaPagesOf snpCompat directives := by
  induction directives generalizing dirIdx state placement with
  | nil =>
      cases hfinal
      exact ⟨htracks, by simp [vmsaPagesOf]⟩
  | cons directive rest ih =>
      rw [measureDirectives] at hfinal
      cases hstep : measureDirective sha384 snpCompat paramAreas dirIdx state
          directive with
      | error message =>
          rw [hstep] at hfinal
          cases hfinal
      | ok next =>
          rw [hstep] at hfinal
          change measureDirectives sha384 snpCompat paramAreas (dirIdx + 1)
            next rest = .ok final at hfinal
          obtain ⟨hnext, hvmsa⟩ := measureDirective_tracks htracks hstep
          obtain ⟨hrest, hvmsaRest⟩ := ih hnext hfinal
          refine ⟨hrest, ?_⟩
          rw [hvmsaRest, hvmsa, vmsaPagesOf_cons directive rest,
            List.append_assoc]

/-- A turn of the loop fails only at a ParameterInsert that finds no area. -/
theorem measureDirective_ok_iff {dirIdx : Nat} {state : MeasureState}
    {directive : IgvmDirectiveHeader} :
    (∃ next, measureDirective sha384 snpCompat paramAreas dirIdx state
        directive = .ok next) ↔
      ∀ insert, .parameterInsert insert = directive →
        insert.compatibilityMask &&& snpCompat ≠ 0 →
          (paramAreas insert.parameterAreaIndex).isSome := by
  cases directive with
  | parameterInsert insert =>
      simp only [measureDirective,
        IgvmDirectiveHeader.parameterInsert.injEq, forall_eq]
      by_cases hmask : insert.compatibilityMask &&& snpCompat = 0
      · simp [hmask]
      · cases paramAreas insert.parameterAreaIndex <;> simp [hmask]
  | pageData page =>
      simp only [measureDirective]
      split <;> simp
  | snpVpContext context =>
      simp only [measureDirective]
      split <;> simp
  | _ => simp [measureDirective]

/-- A run of the loop succeeds exactly when every SNP-compatible
ParameterInsert finds its area. -/
theorem measureDirectives_ok_iff {dirIdx : Nat} {state : MeasureState}
    {directives : List IgvmDirectiveHeader} :
    (∃ final, measureDirectives sha384 snpCompat paramAreas dirIdx state
        directives = .ok final) ↔
      ∀ insert, .parameterInsert insert ∈ directives →
        insert.compatibilityMask &&& snpCompat ≠ 0 →
          (paramAreas insert.parameterAreaIndex).isSome := by
  induction directives generalizing dirIdx state with
  | nil => simp [measureDirectives]
  | cons directive rest ih =>
      have hstep := @measureDirective_ok_iff sha384 snpCompat paramAreas
        dirIdx state directive
      simp only [List.mem_cons, or_imp, forall_and, ← hstep]
      cases hnext : measureDirective sha384 snpCompat paramAreas dirIdx state
          directive with
      | error message =>
          rw [measureDirectives, hnext]
          refine iff_of_false ?_ fun hall => ?_
          · rintro ⟨final, hfinal⟩
            cases hfinal
          · obtain ⟨⟨next, hok⟩, -⟩ := hall
            cases hok
      | ok next =>
          have htail := @ih (dirIdx + 1) next
          rw [measureDirectives, hnext, ok_bind, htail]
          exact ⟨fun hrest => ⟨⟨next, rfl⟩, hrest⟩, fun hall => hall.2⟩

theorem collectParamAreas_isSome_iff (igvm : IgvmFile) (index : UInt32) :
    (collectParamAreas igvm index).isSome ↔
      ∃ numberOfBytes initialData,
        .parameterArea numberOfBytes index initialData ∈ igvm.directives := by
  suffices hfold : ∀ (directives : List IgvmDirectiveHeader)
      (areas : UInt32 → Option UInt64),
      (directives.foldl recordParamArea areas index).isSome ↔
        (areas index).isSome ∨ ∃ numberOfBytes initialData,
          .parameterArea numberOfBytes index initialData ∈ directives by
    simpa [collectParamAreas] using hfold igvm.directives (fun _ => none)
  intro directives
  induction directives with
  | nil => simp
  | cons directive rest ih =>
      intro areas
      rw [List.foldl_cons, ih]
      cases directive with
      | parameterArea numberOfBytes parameterAreaIndex initialData =>
          by_cases hindex : index = parameterAreaIndex
          · subst hindex
            simp only [recordParamArea, if_true, Option.isSome_some, true_or,
              true_iff]
            exact Or.inr ⟨numberOfBytes, initialData, List.mem_cons_self⟩
          · simp [recordParamArea, hindex]
      | _ => simp [recordParamArea]

/-- Every SNP-compatible ParameterInsert of the file names an area that the
file declares. -/
def IgvmFile.InsertsDeclared (igvm : IgvmFile) : Prop :=
  ∀ insert, .parameterInsert insert ∈ igvm.directives →
    insert.compatibilityMask &&& igvm.snpCompat ≠ 0 →
      ∃ numberOfBytes initialData,
        .parameterArea numberOfBytes insert.parameterAreaIndex initialData ∈
          igvm.directives

def IgvmFile.HasSnpPlatform (igvm : IgvmFile) : Prop :=
  ∃ plat ∈ igvm.platforms, plat.platformType = .sevSnp

theorem findSnpCompat_ok_iff (igvm : IgvmFile) (snpCompat : UInt32) :
    findSnpCompat igvm = .ok snpCompat ↔
      igvm.HasSnpPlatform ∧ igvm.snpCompat = snpCompat := by
  unfold findSnpCompat IgvmFile.HasSnpPlatform IgvmFile.snpCompat
  cases hfind : igvm.platforms.find?
      (fun plat => plat.platformType = .sevSnp) with
  | none =>
      have hnone := List.find?_eq_none.mp hfind
      simp only [decide_eq_true_eq] at hnone
      constructor
      · intro h
        cases h
      · rintro ⟨⟨plat, hmem, htype⟩, -⟩
        exact absurd htype (hnone plat hmem)
  | some plat =>
      have hmem := List.mem_of_find?_eq_some hfind
      have htype : plat.platformType = .sevSnp := by
        simpa using List.find?_some hfind
      simp only [Except.ok.injEq, Option.map_some, Option.getD_some]
      exact ⟨fun h => ⟨⟨plat, hmem, htype⟩, h⟩, fun h => h.2⟩

/-- The result that the measured sequence determines. -/
def measuredResult (sha384 : Bytes → Digest384) (igvm : IgvmFile) :
    MeasureResult where
  launchDigest :=
    ((measuredSequence igvm).map (MeasuredPage.entry sha384)).foldl
      (extendDigest sha384) zeros48
  pageCount := UInt64.ofNat (measuredSequence igvm).length
  vmsaCount := UInt32.ofNat (vmsaPagesOf igvm.snpCompat igvm.directives).length

/-- Whatever `measure_snp` returns is the digest of the measured sequence. -/
theorem measureSnp_eq_measuredResult {igvm : IgvmFile}
    {result : MeasureResult} (hok : measureSnp sha384 igvm = .ok result) :
    result = measuredResult sha384 igvm := by
  unfold measureSnp at hok
  cases hcompat : findSnpCompat igvm with
  | error message =>
      rw [hcompat] at hok
      cases hok
  | ok snpCompat =>
      obtain ⟨-, hmask⟩ := (findSnpCompat_ok_iff igvm snpCompat).mp hcompat
      subst hmask
      simp only [hcompat, bind, Except.bind] at hok
      cases hrun : measureDirectives sha384 igvm.snpCompat
          (collectParamAreas igvm) 0 MeasureState.initial igvm.directives with
      | error message =>
          rw [hrun] at hok
          cases hok
      | ok state =>
          rw [hrun] at hok
          obtain ⟨htracks, hvmsa⟩ := measureDirectives_tracks
            (MeasureState.initial_tracks sha384) hrun
          simp only [MeasureState.initial, List.map_nil, List.nil_append]
            at hvmsa
          have hfinished : measureVmsaPages sha384
              (flushBatch sha384 state.running state.pendingBatch)
                state.vmsaPages =
              RunningDigest.measureAll sha384 ⟨zeros48, 0⟩
                (measuredSequence igvm) := by
            rw [htracks.flush_eq, measureVmsaPages_eq, hvmsa,
              ← RunningDigest.measureAll_append]
            rfl
          have hcount : state.vmsaPages.length =
              (vmsaPagesOf igvm.snpCompat igvm.directives).length := by
            rw [← hvmsa, List.length_map]
          simp only [Except.ok.injEq] at hok
          rw [← hok, hfinished, hcount, RunningDigest.measureAll_ld,
            RunningDigest.measureAll_pageCount, measuredResult]
          simp

theorem measureSnp_ok_iff (igvm : IgvmFile) :
    (∃ result, measureSnp sha384 igvm = .ok result) ↔
      igvm.HasSnpPlatform ∧ igvm.InsertsDeclared := by
  have hrun : (∃ final, measureDirectives sha384 igvm.snpCompat
      (collectParamAreas igvm) 0 MeasureState.initial igvm.directives =
        .ok final) ↔ _ := measureDirectives_ok_iff
  simp only [collectParamAreas_isSome_iff] at hrun
  unfold measureSnp IgvmFile.InsertsDeclared
  rw [← hrun]
  cases hcompat : findSnpCompat igvm with
  | error message =>
      constructor
      · rintro ⟨result, hok⟩
        cases hok
      · rintro ⟨hplat, -⟩
        have hok := (findSnpCompat_ok_iff igvm igvm.snpCompat).mpr
          ⟨hplat, rfl⟩
        rw [hcompat] at hok
        cases hok
  | ok snpCompat =>
      obtain ⟨hplat, hmask⟩ := (findSnpCompat_ok_iff igvm snpCompat).mp hcompat
      subst hmask
      simp only [bind, Except.bind]
      cases measureDirectives sha384 igvm.snpCompat
          (collectParamAreas igvm) 0 MeasureState.initial igvm.directives with
      | error message => simp
      | ok state => simp [hplat]

end Igvm

end Kettle
