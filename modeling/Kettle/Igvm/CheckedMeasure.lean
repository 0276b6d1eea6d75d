/-
The SNP measurement with its arithmetic checked, and the files on which
neither it nor the recovery of the command line can panic.
-/
import Kettle.Igvm.CheckedExtract
import Kettle.Igvm.MeasureRefinement

namespace Kettle

namespace Igvm

namespace Checked

open Outcome

section Model

variable (sha384 : Bytes → Digest384)

/-- Extend the digest and `page_count += 1`. -/
def measure (running : RunningDigest) (contents : Digest384)
    (pageType : UInt8) (gpa : UInt64) : Outcome String RunningDigest := do
  let pageCount ← add64 running.pageCount.toNat 1
  .ok ⟨updatePageInfo sha384 running.ld contents pageType gpa,
    .ofNat pageCount⟩

def flushBatch (running : RunningDigest) (batch : List PendingPage) :
    Outcome String RunningDigest :=
  batch.foldlM
    (fun running page =>
      measure sha384 running page.contents page.pageType page.gpa) running

def measureVmsaPages (running : RunningDigest)
    (vmsaPages : List (UInt64 × Bytes)) : Outcome String RunningDigest :=
  vmsaPages.foldlM
    (fun running vmsa =>
      measure sha384 running (sha384 vmsa.2) snpPageTypeVmsa vmsaGpa) running

/-- The page `pg` of a ParameterInsert at `gpa`. -/
def insertPage (gpa : UInt64) (running : RunningDigest) (pg : Nat) :
    Outcome String RunningDigest := do
  let off ← mul64 pg pageSize
  let pageGpa ← add64 gpa.toNat off
  measure sha384 running zeros48 snpPageTypeUnmeasured (.ofNat pageGpa)

def measureInsert (running : RunningDigest) (gpa areaSize : UInt64) :
    Outcome String RunningDigest :=
  (List.range (numPages areaSize)).foldlM (insertPage sha384 gpa) running

def classifyPageData (dataType : IgvmPageDataType) (flags : IgvmPageDataFlags)
    (data : Bytes) : Outcome String (UInt8 × Digest384 × Bool) :=
  match dataType with
  | .secrets => .ok (snpPageTypeSecrets, zeros48, false)
  | .cpuidData | .cpuidXf => .ok (snpPageTypeCpuid, zeros48, false)
  | .normal | .other _ =>
      if flags.unmeasured then .ok (snpPageTypeUnmeasured, zeros48, false)
      else do
        let padded ← zeroPaddedCopy data
        .ok (snpPageTypeNormal, sha384 padded, !data.isEmpty)

/-- The comparisons are short-circuited: the address is only computed for a
page of the same type and data presence.  `last_idx` is the index of an
earlier directive, so that adding one to it stays below `dir_idx`. -/
def shouldFlush (state : MeasureState) (dirIdx : Nat) (gpa : UInt64)
    (pageType : UInt8) (hasData : Bool) : Outcome String Bool :=
  match state.prevPageGpa, state.prevPageType, state.prevPageHasData,
      state.lastPageDirectiveIdx with
  | some prevGpa, some prevType, some prevHas, some lastIdx =>
      if pageType ≠ prevType ∨ hasData ≠ prevHas then .ok true
      else do
        let following ← add64 prevGpa.toNat pageSize
        .ok (gpa != .ofNat following || dirIdx != lastIdx + 1)
  | _, _, _, _ => .ok false

/-- Two bytes set by index. -/
def applyKvmVmsaOverrides (vmsa : Bytes) : Outcome String Bytes :=
  if vmsa.length ≤ 0x148 ∨ vmsa.length ≤ 0x170 then .panic
  else .ok (Igvm.applyKvmVmsaOverrides vmsa)

/-- `if should_flush && !pending_batch.is_empty()`. -/
def flushPending (state : MeasureState) (flush : Bool) :
    Outcome String MeasureState :=
  if flush && !state.pendingBatch.isEmpty then do
    let running ← flushBatch sha384 state.running state.pendingBatch
    .ok { state with running := running, pendingBatch := [] }
  else .ok state

def measureDirective (snpCompat : UInt32)
    (paramAreas : UInt32 → Option UInt64) (dirIdx : Nat)
    (state : MeasureState) :
    IgvmDirectiveHeader → Outcome String MeasureState
  | .pageData page =>
      if page.compatibilityMask &&& snpCompat = 0 then .ok state
      else do
        let (pageType, contents, hasData) ←
          classifyPageData sha384 page.dataType page.flags page.data
        let flush ← shouldFlush state dirIdx page.gpa pageType hasData
        let flushed ← flushPending sha384 state flush
        .ok { flushed with
          pendingBatch :=
            flushed.pendingBatch ++ [⟨page.gpa, pageType, contents⟩]
          prevPageGpa := some page.gpa
          prevPageType := some pageType
          prevPageHasData := some hasData
          lastPageDirectiveIdx := some dirIdx }
  | .snpVpContext context =>
      if context.compatibilityMask &&& snpCompat = 0 then .ok state
      else do
        let copied ← zeroPaddedCopy context.vmsa
        let vmsaPage ← applyKvmVmsaOverrides copied
        .ok { state with
          vmsaPages := state.vmsaPages ++ [(context.gpa, vmsaPage)] }
  | .parameterInsert insert =>
      if insert.compatibilityMask &&& snpCompat = 0 then .ok state
      else
        match paramAreas insert.parameterAreaIndex with
        | none =>
            .err s!"ParameterInsert references unknown area {insert.parameterAreaIndex}"
        | some areaSize => do
            let running ←
              measureInsert sha384 state.running insert.gpa areaSize
            .ok { state with running := running }
  | _ => .ok state

def measureDirectives (snpCompat : UInt32)
    (paramAreas : UInt32 → Option UInt64) :
    Nat → MeasureState → List IgvmDirectiveHeader →
      Outcome String MeasureState
  | _, state, [] => .ok state
  | dirIdx, state, directive :: rest => do
      let next ←
        measureDirective sha384 snpCompat paramAreas dirIdx state directive
      measureDirectives snpCompat paramAreas (dirIdx + 1) next rest

def measureSnp (igvm : IgvmFile) : Outcome String MeasureResult := do
  let snpCompat ← ofExcept (findSnpCompat igvm)
  let state ← measureDirectives sha384 snpCompat (collectParamAreas igvm) 0
    MeasureState.initial igvm.directives
  let flushed ← flushBatch sha384 state.running state.pendingBatch
  let finished ← measureVmsaPages sha384 flushed state.vmsaPages
  .ok {
    launchDigest := finished.ld
    pageCount := finished.pageCount
    vmsaCount := UInt32.ofNat state.vmsaPages.length }

end Model

variable {sha384 : Bytes → Digest384}

/-- A loop that measures a page per turn panics when the count runs over. -/
theorem measure_each {α : Type} (contents : α → Digest384)
    (pageType : α → UInt8) (gpa : α → UInt64) (items : List α)
    (running : RunningDigest) :
    items.foldlM (fun running item =>
        measure sha384 running (contents item) (pageType item) (gpa item))
        running =
      if running.pageCount.toNat + items.length < 2 ^ 64 then
        .ok (items.foldl (fun running item =>
          running.measure sha384 (contents item) (pageType item) (gpa item))
          running)
      else .panic := by
  induction items generalizing running with
  | nil =>
      have hlt := running.pageCount.toNat_lt
      rw [List.length_nil, Nat.add_zero, if_pos hlt]
      rfl
  | cons item items ih =>
      rw [List.foldlM_cons, List.length_cons]
      by_cases hfits : running.pageCount.toNat + 1 < 2 ^ 64
      · have hcount : (UInt64.ofNat (running.pageCount.toNat + 1)).toNat =
            running.pageCount.toNat + 1 := UInt64.toNat_ofNat_of_lt' hfits
        have hnext : UInt64.ofNat (running.pageCount.toNat + 1) =
            running.pageCount + 1 := by
          rw [UInt64.ofNat_add, UInt64.ofNat_toNat]
          rfl
        have hlength : running.pageCount.toNat + 1 + items.length =
            running.pageCount.toNat + (items.length + 1) := by
          omega
        rw [measure, add64_of_lt hfits, bind_ok, bind_ok, ih, hcount,
          hlength, List.foldl_cons, RunningDigest.measure, hnext]
      · rw [measure, add64, if_neg hfits, bind_panic, bind_panic,
          if_neg (by omega)]

/-- Every page of a ParameterInsert starts below the end of the address
space. -/
def InsertFits (gpa areaSize : UInt64) : Prop :=
  ∀ pg < numPages areaSize, gpa.toNat + pg * pageSize < 2 ^ 64

instance (gpa areaSize : UInt64) : Decidable (InsertFits gpa areaSize) :=
  inferInstanceAs (Decidable (∀ pg < numPages areaSize, _))

theorem measure_ne_err (running : RunningDigest) (contents : Digest384)
    (pageType : UInt8) (gpa : UInt64) (error : String) :
    measure sha384 running contents pageType gpa ≠ .err error := by
  unfold measure add64
  split
  · intro h
    cases h
  · intro h
    cases h

theorem insertPage_eq (gpa : UInt64) (running : RunningDigest) {pg : Nat}
    (hpg : pg * pageSize < 2 ^ 64) :
    insertPage sha384 gpa running pg =
      if gpa.toNat + pg * pageSize < 2 ^ 64 then
        measure sha384 running zeros48 snpPageTypeUnmeasured
          (gpa + UInt64.ofNat (pg * pageSize))
      else .panic := by
  rw [insertPage, mul64_of_lt hpg, bind_ok, add64]
  by_cases hfits : gpa.toNat + pg * pageSize < 2 ^ 64
  · rw [if_pos hfits, if_pos hfits, bind_ok, UInt64.ofNat_add,
      UInt64.ofNat_toNat]
  · rw [if_neg hfits, if_neg hfits, bind_panic]

theorem insertPage_fold (gpa : UInt64) {items : List Nat}
    (hitems : ∀ pg ∈ items, pg * pageSize < 2 ^ 64)
    (running : RunningDigest) :
    items.foldlM (insertPage sha384 gpa) running =
      if ∀ pg ∈ items, gpa.toNat + pg * pageSize < 2 ^ 64 then
        items.foldlM (fun running pg =>
          measure sha384 running zeros48 snpPageTypeUnmeasured
            (gpa + UInt64.ofNat (pg * pageSize))) running
      else .panic := by
  induction items generalizing running with
  | nil => rfl
  | cons pg items ih =>
      have hrest := fun running => ih
        (fun p hp => hitems p (List.mem_cons_of_mem pg hp)) running
      rw [List.foldlM_cons, List.foldlM_cons,
        insertPage_eq gpa running (hitems pg List.mem_cons_self)]
      simp only [List.forall_mem_cons]
      by_cases hpg : gpa.toNat + pg * pageSize < 2 ^ 64
      · rw [if_pos hpg]
        cases hmeasure : measure sha384 running zeros48 snpPageTypeUnmeasured
            (gpa + UInt64.ofNat (pg * pageSize)) with
        | panic =>
            rw [bind_panic, bind_panic]
            exact (ite_self _).symm
        | err error => exact absurd hmeasure (measure_ne_err _ _ _ _ _)
        | ok next =>
            rw [bind_ok, bind_ok, hrest]
            simp only [hpg, true_and]
      · rw [if_neg hpg, bind_panic, if_neg fun h => hpg h.1]

theorem measureInsert_eq (running : RunningDigest) (gpa areaSize : UInt64) :
    measureInsert sha384 running gpa areaSize =
      if InsertFits gpa areaSize ∧
          running.pageCount.toNat + numPages areaSize < 2 ^ 64 then
        .ok ((insertGpas gpa areaSize).foldl
          (fun running gpa =>
            running.measure sha384 zeros48 snpPageTypeUnmeasured gpa)
          running)
      else .panic := by
  have hitems : ∀ pg ∈ List.range (numPages areaSize),
      pg * pageSize < 2 ^ 64 := by
    intro pg hpg
    have hsize := areaSize.toNat_lt
    rw [List.mem_range, numPages, pageSize] at hpg
    rw [pageSize]
    omega
  have hall : (∀ pg ∈ List.range (numPages areaSize),
      gpa.toNat + pg * pageSize < 2 ^ 64) ↔ InsertFits gpa areaSize := by
    simp only [List.mem_range, InsertFits]
  rw [measureInsert, insertPage_fold gpa hitems,
    measure_each (fun _ => zeros48) (fun _ => snpPageTypeUnmeasured)
      (fun pg => gpa + UInt64.ofNat (pg * pageSize)), List.length_range,
    insertGpas, List.foldl_map]
  by_cases hfits : InsertFits gpa areaSize
  · rw [if_pos (hall.mpr hfits)]
    simp only [hfits, true_and]
  · rw [if_neg (mt hall.mp hfits), if_neg fun h => hfits h.1]

/-- Adding a page size to the address of `prev` does not overflow, or `next`
is set apart from it before the addition. -/
def PageFits (prev next : PageData) : Prop :=
  next.measured.pageType = prev.measured.pageType →
    next.hasData = prev.hasData → prev.gpa.toNat + pageSize < 2 ^ 64

instance : DecidableRel PageFits := fun _ _ =>
  inferInstanceAs (Decidable (_ → _ → _))

theorem shouldFlush_eq {state : MeasureState} {placement : Placement}
    (htracks : state.Tracks sha384 placement) (dirIdx : Nat)
    (page : PageData) :
    shouldFlush state dirIdx page.gpa page.measured.pageType page.hasData =
      if ∀ prev ∈ placement.pages.getLast?, PageFits prev.page page then
        .ok (state.shouldFlush dirIdx page.gpa page.measured.pageType
          page.hasData)
      else .panic := by
  unfold shouldFlush MeasureState.shouldFlush
  rw [htracks.prevGpa, htracks.prevType, htracks.prevHasData, htracks.lastIdx]
  cases placement.pages.getLast? with
  | none => simp
  | some prev =>
      simp only [Option.map_some, Option.mem_def, Option.some.injEq,
        forall_eq']
      by_cases hapart : page.measured.pageType ≠ prev.page.measured.pageType ∨
          page.hasData ≠ prev.page.hasData
      · have hfits : PageFits prev.page page :=
          fun htype hdata => absurd hapart (by simp [htype, hdata])
        have hflush : (page.measured.pageType !=
            prev.page.measured.pageType ||
              page.hasData != prev.page.hasData) = true := by
          simpa using hapart
        rw [if_pos hapart, if_pos hfits, hflush, Bool.true_or, Bool.true_or]
      · rw [if_neg hapart]
        obtain ⟨htype, hdata⟩ := not_or.mp hapart
        rw [not_not] at htype hdata
        have hsum : UInt64.ofNat (prev.page.gpa.toNat + pageSize) =
            prev.page.gpa + UInt64.ofNat pageSize := by
          rw [UInt64.ofNat_add, UInt64.ofNat_toNat]
        by_cases hbelow : prev.page.gpa.toNat + pageSize < 2 ^ 64
        · have hfits : PageFits prev.page page := fun _ _ => hbelow
          rw [if_pos hfits, add64_of_lt hbelow, bind_ok, hsum, htype, hdata]
          simp
        · have hover : ¬ PageFits prev.page page :=
            fun h => hbelow (h htype hdata)
          rw [if_neg hover, add64, if_neg hbelow, bind_panic]

theorem classifyPageData_eq (page : PageData) :
    classifyPageData sha384 page.dataType page.flags page.data =
      .ok (page.measured.pageType, page.measured.contentsDigest sha384,
        page.hasData) := by
  rw [← Igvm.classifyPageData_eq sha384 page]
  unfold classifyPageData Igvm.classifyPageData
  cases page.dataType with
  | secrets => rfl
  | cpuidData => rfl
  | cpuidXf => rfl
  | normal =>
      dsimp only
      split
      · rfl
      · rw [zeroPaddedCopy_eq, bind_ok]
  | other code =>
      dsimp only
      split
      · rfl
      · rw [zeroPaddedCopy_eq, bind_ok]

/-- The pages that `page_count` has counted: all placed but the batch. -/
def counted (placement : Placement) : Nat :=
  placement.placed.length - (currentBatch placement.pages).length

theorem length_currentBatch_le (pages : List IndexedPage) :
    (currentBatch pages).length ≤ pages.length := by
  induction pages with
  | nil => exact Nat.zero_le _
  | cons page rest ih =>
      unfold currentBatch
      split
      · exact Nat.le_refl _
      · exact Nat.le_succ_of_le ih

/-- Every PageData of a placement has its page placed. -/
def WellPlaced (placement : Placement) : Prop :=
  placement.pages.length ≤ placement.placed.length

variable {snpCompat : UInt32} {paramAreas : UInt32 → Option UInt64}

theorem counted_pageData (placement : Placement) (dirIdx : Nat)
    {page : PageData} (hmask : page.compatibilityMask &&& snpCompat ≠ 0) :
    counted (placement.place snpCompat paramAreas dirIdx (.pageData page)) =
      if ∀ prev ∈ placement.pages.getLast?, Continues prev ⟨dirIdx, page⟩
      then counted placement
      else placement.placed.length := by
  simp only [Placement.place, if_neg hmask, counted, currentBatch_concat,
    List.length_append, List.length_singleton]
  split
  · rw [List.length_append, List.length_singleton]
    omega
  · rw [List.length_singleton]
    omega

theorem counted_parameterInsert {placement : Placement}
    (hwell : WellPlaced placement) (dirIdx : Nat)
    (insert : IgvmParameterInsert) :
    counted (placement.place snpCompat paramAreas dirIdx
        (.parameterInsert insert)) =
      counted placement + (directivePages snpCompat paramAreas
        (.parameterInsert insert)).length := by
  have hbatch := length_currentBatch_le placement.pages
  rw [WellPlaced] at hwell
  simp only [Placement.place, counted, insertBefore, List.length_append,
    List.length_take, List.length_drop]
  omega

theorem WellPlaced.place {placement : Placement}
    (hwell : WellPlaced placement) (dirIdx : Nat)
    (directive : IgvmDirectiveHeader) :
    WellPlaced (placement.place snpCompat paramAreas dirIdx directive) := by
  rw [WellPlaced] at hwell
  cases directive with
  | pageData page =>
      simp only [Placement.place, WellPlaced]
      split
      · exact hwell
      · simp only [List.length_append, List.length_singleton]
        omega
  | parameterInsert insert =>
      simp only [Placement.place, WellPlaced, insertBefore,
        List.length_append, List.length_take, List.length_drop]
      omega
  | _ => exact hwell

/-- The count never goes back. -/
theorem counted_le_place {placement : Placement}
    (hwell : WellPlaced placement) (dirIdx : Nat)
    (directive : IgvmDirectiveHeader) :
    counted placement ≤
      counted (placement.place snpCompat paramAreas dirIdx directive) := by
  cases directive with
  | pageData page =>
      by_cases hmask : page.compatibilityMask &&& snpCompat = 0
      · simp only [Placement.place, if_pos hmask, Nat.le_refl]
      · rw [counted_pageData placement dirIdx hmask]
        split
        · exact Nat.le_refl _
        · exact Nat.sub_le _ _
  | parameterInsert insert =>
      rw [counted_parameterInsert hwell]
      exact Nat.le_add_right _ _
  | _ => exact Nat.le_refl _

theorem counted_le_placeAll {placement : Placement}
    (hwell : WellPlaced placement) (dirIdx : Nat)
    (directives : List IgvmDirectiveHeader) :
    WellPlaced (placement.placeAll snpCompat paramAreas dirIdx directives) ∧
      counted placement ≤ counted
        (placement.placeAll snpCompat paramAreas dirIdx directives) := by
  induction directives generalizing placement dirIdx with
  | nil => exact ⟨hwell, Nat.le_refl _⟩
  | cons directive rest ih =>
      obtain ⟨hlast, hle⟩ := ih (hwell.place dirIdx directive) (dirIdx + 1)
      exact ⟨hlast, (counted_le_place hwell dirIdx directive).trans hle⟩

/-- Under the word size the running count is exact. -/
theorem pageCount_eq {state : MeasureState} {placement : Placement}
    (htracks : state.Tracks sha384 placement)
    (hcounted : counted placement < 2 ^ 64) :
    state.running.pageCount.toNat = counted placement := by
  obtain ⟨front, hplaced, hrunning⟩ := htracks.measured
  have hfront : counted placement = front.length := by
    rw [counted, hplaced, List.length_append, List.length_map,
      Nat.add_sub_cancel]
  rw [hfront] at hcounted ⊢
  rw [hrunning, RunningDigest.measureAll_pageCount]
  change (0 + UInt64.ofNat front.length).toNat = front.length
  rw [UInt64.zero_add, UInt64.toNat_ofNat_of_lt' hcounted]

/-- What one directive adds to the addresses stays below the word size. -/
def DirectiveFits (snpCompat : UInt32) (paramAreas : UInt32 → Option UInt64)
    (last : Option PageData) : IgvmDirectiveHeader → Prop
  | .pageData page =>
      page.compatibilityMask &&& snpCompat ≠ 0 →
        ∀ prev ∈ last, PageFits prev page
  | .parameterInsert insert =>
      insert.compatibilityMask &&& snpCompat ≠ 0 →
        ∀ areaSize ∈ paramAreas insert.parameterAreaIndex,
          InsertFits insert.gpa areaSize
  | _ => True

/-- The page that the next PageData is compared with. -/
def lastPage (placement : Placement) : Option PageData :=
  placement.pages.getLast?.map (·.page)

/-- Flushing the pending batch counts up to everything placed. -/
theorem flushBatch_eq {state : MeasureState} {placement : Placement}
    (htracks : state.Tracks sha384 placement) (hwell : WellPlaced placement)
    (hcounted : counted placement < 2 ^ 64) :
    flushBatch sha384 state.running state.pendingBatch =
      if placement.placed.length < 2 ^ 64 then
        .ok (Igvm.flushBatch sha384 state.running state.pendingBatch)
      else .panic := by
  have hlength : state.running.pageCount.toNat + state.pendingBatch.length =
      placement.placed.length := by
    have hbatch := length_currentBatch_le placement.pages
    rw [WellPlaced] at hwell
    rw [pageCount_eq htracks hcounted, htracks.pending, List.length_map,
      counted]
    omega
  rw [flushBatch, measure_each, hlength]
  rfl

theorem lastPage_forall {placement : Placement} {p : PageData → Prop} :
    (∀ prev ∈ lastPage placement, p prev) ↔
      ∀ prev ∈ placement.pages.getLast?, p prev.page := by
  unfold lastPage
  cases placement.pages.getLast? <;> simp

/-- The turn of a measured PageData, before its page joins the batch. -/
theorem flushPending_eq {state : MeasureState} {placement : Placement}
    (htracks : state.Tracks sha384 placement) (hwell : WellPlaced placement)
    (hcounted : counted placement < 2 ^ 64) (dirIdx : Nat) {page : PageData}
    (hmask : page.compatibilityMask &&& snpCompat ≠ 0) :
    flushPending sha384 state (state.shouldFlush dirIdx page.gpa
        page.measured.pageType page.hasData) =
      if counted (placement.place snpCompat paramAreas dirIdx
          (.pageData page)) < 2 ^ 64 then
        .ok (if state.shouldFlush dirIdx page.gpa page.measured.pageType
              page.hasData && !state.pendingBatch.isEmpty then
            { state with
              running := Igvm.flushBatch sha384 state.running
                state.pendingBatch
              pendingBatch := [] }
          else state)
      else .panic := by
  have hflush := htracks.shouldFlush_iff dirIdx page
  rw [counted_pageData placement dirIdx hmask, flushPending]
  by_cases hcont : ∀ prev ∈ placement.pages.getLast?,
      Continues prev ⟨dirIdx, page⟩
  · have hfalse : state.shouldFlush dirIdx page.gpa page.measured.pageType
        page.hasData = false := by
      rw [Bool.eq_false_iff]
      exact fun h => hflush.mp h hcont
    simp only [hfalse, Bool.false_and, Bool.false_eq_true, if_false,
      if_pos hcont, if_pos hcounted]
  · rw [hflush.mpr hcont, if_neg hcont, Bool.true_and]
    cases hpending : state.pendingBatch with
    | nil =>
        have hplaced : placement.placed.length < 2 ^ 64 := by
          have hbatch : (currentBatch placement.pages).length = 0 := by
            rw [← List.length_map (f := fun indexed : IndexedPage =>
              indexed.page.measured.pending sha384), ← htracks.pending,
              hpending]
            rfl
          rw [counted, hbatch] at hcounted
          exact hcounted
        rw [if_pos hplaced]
        rfl
    | cons first rest =>
        have hbatch := flushBatch_eq htracks hwell hcounted
        rw [hpending] at hbatch
        simp only [List.isEmpty_cons, Bool.not_false, if_true, hbatch]
        split
        · rw [bind_ok]
        · rw [bind_panic]

section Turn

variable {state : MeasureState} {placement : Placement}

/-- A turn of the loop panics when an address or the count runs over, and is
the pure turn otherwise. -/
def TurnChecked (sha384 : Bytes → Digest384) (snpCompat : UInt32)
    (paramAreas : UInt32 → Option UInt64) (dirIdx : Nat)
    (state : MeasureState) (placement : Placement)
    (directive : IgvmDirectiveHeader) : Prop :=
  PanicsUnless
    (DirectiveFits snpCompat paramAreas (lastPage placement) directive ∧
      counted (placement.place snpCompat paramAreas dirIdx directive) <
        2 ^ 64)
    (measureDirective sha384 snpCompat paramAreas dirIdx state directive)
    (Igvm.measureDirective sha384 snpCompat paramAreas dirIdx state directive)

theorem turnChecked_pageData (htracks : state.Tracks sha384 placement)
    (hwell : WellPlaced placement) (hcounted : counted placement < 2 ^ 64)
    (dirIdx : Nat) (page : PageData) :
    TurnChecked sha384 snpCompat paramAreas dirIdx state placement
      (.pageData page) := by
  unfold TurnChecked measureDirective Igvm.measureDirective DirectiveFits
  by_cases hmask : page.compatibilityMask &&& snpCompat = 0
  · simp only [hmask, ne_eq, not_true, false_implies, true_and,
      Placement.place, if_true]
    exact .of_pos hcounted rfl
  · simp only [Igvm.classifyPageData_eq, classifyPageData_eq,
      Outcome.bind_ok, shouldFlush_eq htracks, ne_eq, hmask,
      not_false_eq_true, true_implies, lastPage_forall, if_false]
    by_cases hfits : ∀ prev ∈ placement.pages.getLast?,
        PageFits prev.page page
    · have hturn := @flushPending_eq sha384 snpCompat paramAreas state
        placement htracks hwell hcounted dirIdx page hmask
      rw [if_pos hfits, Outcome.bind_ok, hturn]
      by_cases hcount : counted (placement.place snpCompat paramAreas
          dirIdx (.pageData page)) < 2 ^ 64
      · rw [if_pos hcount, Outcome.bind_ok]
        exact .of_pos ⟨hfits, hcount⟩ rfl
      · rw [if_neg hcount, bind_panic]
        exact .of_neg fun h => hcount h.2
    · rw [if_neg hfits, bind_panic]
      exact .of_neg fun h => hfits h.1

theorem turnChecked_parameterInsert (htracks : state.Tracks sha384 placement)
    (hwell : WellPlaced placement) (hcounted : counted placement < 2 ^ 64)
    (dirIdx : Nat) (insert : IgvmParameterInsert) :
    TurnChecked sha384 snpCompat paramAreas dirIdx state placement
      (.parameterInsert insert) := by
  rw [TurnChecked, counted_parameterInsert hwell]
  unfold measureDirective Igvm.measureDirective DirectiveFits directivePages
  by_cases hmask : insert.compatibilityMask &&& snpCompat = 0
  · simp only [hmask, ne_eq, not_true, false_implies, true_and, if_true,
      List.length_nil, Nat.add_zero]
    exact .of_pos hcounted rfl
  · cases harea : paramAreas insert.parameterAreaIndex with
    | none =>
        simp only [hmask, if_false, harea, Option.mem_def, reduceCtorEq,
          false_implies, implies_true, true_and, List.length_nil,
          Nat.add_zero]
        exact .of_pos hcounted rfl
    | some areaSize =>
        have hlength : (insertPages insert.gpa areaSize).length =
            numPages areaSize := by
          rw [insertPages, insertGpas, List.length_map, List.length_map,
            List.length_range]
        simp only [hmask, if_false, harea, Option.mem_def,
          Option.some.injEq, forall_eq', ne_eq, not_false_eq_true,
          true_implies, measureInsert_eq, pageCount_eq htracks hcounted,
          hlength]
        by_cases hfits : InsertFits insert.gpa areaSize ∧
            counted placement + numPages areaSize < 2 ^ 64
        · rw [if_pos hfits, Outcome.bind_ok]
          exact .of_pos hfits rfl
        · rw [if_neg hfits, bind_panic]
          exact .of_neg hfits

theorem turnChecked_snpVpContext (hcounted : counted placement < 2 ^ 64)
    (dirIdx : Nat) (context : SnpVpContext) :
    TurnChecked sha384 snpCompat paramAreas dirIdx state placement
      (.snpVpContext context) := by
  have hlength := Bytes.length_zeroPad pageSize context.vmsa
  have hinside : ¬ ((context.vmsa.zeroPad pageSize).length ≤ 0x148 ∨
      (context.vmsa.zeroPad pageSize).length ≤ 0x170) := by
    rw [hlength, pageSize]
    omega
  refine .of_pos ⟨trivial, hcounted⟩ ?_
  simp only [measureDirective, Igvm.measureDirective]
  split
  · rfl
  · rw [zeroPaddedCopy_eq, Outcome.bind_ok, applyKvmVmsaOverrides,
      if_neg hinside, Outcome.bind_ok]
    rfl

theorem measureDirective_eq (htracks : state.Tracks sha384 placement)
    (hwell : WellPlaced placement) (hcounted : counted placement < 2 ^ 64)
    (dirIdx : Nat) (directive : IgvmDirectiveHeader) :
    TurnChecked sha384 snpCompat paramAreas dirIdx state placement
      directive := by
  cases directive with
  | pageData page => exact turnChecked_pageData htracks hwell hcounted _ page
  | parameterInsert insert =>
      exact turnChecked_parameterInsert htracks hwell hcounted _ insert
  | snpVpContext context => exact turnChecked_snpVpContext hcounted _ context
  | parameterArea _ _ _ | memoryMap _ | vpCount _ | x64NativeVpContext _ _ _
  | other _ => exact .of_pos ⟨trivial, hcounted⟩ rfl

end Turn

section Run

variable (snpCompat : UInt32) (paramAreas : UInt32 → Option UInt64)

/-- A ParameterInsert that names no area ends the loop with an error. -/
def declared : IgvmDirectiveHeader → Bool
  | .parameterInsert insert =>
      insert.compatibilityMask &&& snpCompat = 0 ||
        (paramAreas insert.parameterAreaIndex).isSome
  | _ => true

/-- The directives before the one that ends the loop. -/
def reached (directives : List IgvmDirectiveHeader) :
    List IgvmDirectiveHeader :=
  directives.takeWhile (declared snpCompat paramAreas)

def measuredPage? : IgvmDirectiveHeader → Option PageData
  | .pageData page =>
      if page.compatibilityMask &&& snpCompat = 0 then none else some page
  | _ => none

/-- The PageData that the measurement is about. -/
def measuredPages (directives : List IgvmDirectiveHeader) : List PageData :=
  directives.filterMap (measuredPage? snpCompat)

/-- The additions of a run stay below the word size: from each page to the
next, and inside each ParameterInsert. -/
def RunFits (last : Option PageData)
    (directives : List IgvmDirectiveHeader) : Prop :=
  (last.toList ++ measuredPages snpCompat directives).IsChain PageFits ∧
    ∀ insert, .parameterInsert insert ∈ directives →
      insert.compatibilityMask &&& snpCompat ≠ 0 →
        ∀ areaSize ∈ paramAreas insert.parameterAreaIndex,
          InsertFits insert.gpa areaSize

end Run

theorem lastPage_place (placement : Placement) (dirIdx : Nat)
    (directive : IgvmDirectiveHeader) :
    lastPage (placement.place snpCompat paramAreas dirIdx directive) =
      (measuredPage? snpCompat directive).or (lastPage placement) := by
  cases directive with
  | pageData page =>
      simp only [Placement.place, measuredPage?, lastPage]
      split
      · rfl
      · simp
  | _ => rfl

theorem isChain_last_cons {last : Option PageData} {page : PageData}
    {pages : List PageData} :
    (last.toList ++ page :: pages).IsChain PageFits ↔
      (∀ prev ∈ last, PageFits prev page) ∧
        (page :: pages).IsChain PageFits := by
  cases last with
  | none => simp
  | some prev => simp [List.isChain_cons_cons]

theorem runFits_cons (last : Option PageData)
    (directive : IgvmDirectiveHeader) (rest : List IgvmDirectiveHeader) :
    RunFits snpCompat paramAreas last (directive :: rest) ↔
      DirectiveFits snpCompat paramAreas last directive ∧
        RunFits snpCompat paramAreas
          ((measuredPage? snpCompat directive).or last) rest := by
  cases directive with
  | pageData page =>
      simp only [RunFits, DirectiveFits, measuredPages, List.mem_cons,
        reduceCtorEq, false_or]
      by_cases hmask : page.compatibilityMask &&& snpCompat = 0
      · have hnone : measuredPage? snpCompat (.pageData page) = none :=
          if_pos hmask
        simp only [List.filterMap_cons_none hnone, hnone, Option.none_or,
          hmask, ne_eq, not_true, false_implies, true_and]
      · have hsome : measuredPage? snpCompat (.pageData page) = some page :=
          if_neg hmask
        simp only [List.filterMap_cons_some hsome, hsome, Option.some_or,
          isChain_last_cons, hmask, ne_eq, not_false_eq_true, true_implies,
          Option.toList_some, List.singleton_append, and_assoc]
  | parameterInsert insert =>
      have hnone : measuredPage? snpCompat (.parameterInsert insert) =
          none := rfl
      simp only [RunFits, DirectiveFits, measuredPages,
        List.filterMap_cons_none hnone, hnone, Option.none_or, List.mem_cons,
        IgvmDirectiveHeader.parameterInsert.injEq, or_imp, forall_and,
        forall_eq]
      tauto
  | parameterArea _ _ _ | memoryMap _ | vpCount _ | snpVpContext _
  | x64NativeVpContext _ _ _ | other _ =>
      simp only [RunFits, DirectiveFits, measuredPages, measuredPage?,
        List.filterMap_cons, Option.none_or, List.mem_cons, reduceCtorEq,
        false_or, true_and]

theorem declared_iff {directive : IgvmDirectiveHeader} :
    declared snpCompat paramAreas directive = true ↔
      ∀ insert, .parameterInsert insert = directive →
        insert.compatibilityMask &&& snpCompat ≠ 0 →
          (paramAreas insert.parameterAreaIndex).isSome := by
  cases directive with
  | parameterInsert insert =>
      simp only [declared, Bool.or_eq_true, decide_eq_true_eq, or_iff_not_imp_left,
        IgvmDirectiveHeader.parameterInsert.injEq, forall_eq, ne_eq]
  | _ => simp [declared]

theorem measureDirective_error_of_not_declared (dirIdx : Nat)
    (state : MeasureState) {directive : IgvmDirectiveHeader}
    (hdeclared : declared snpCompat paramAreas directive = false) :
    ∃ message, measureDirective sha384 snpCompat paramAreas dirIdx state
        directive = .err message ∧
      Igvm.measureDirective sha384 snpCompat paramAreas dirIdx state
        directive = .error message := by
  cases directive with
  | parameterInsert insert =>
      simp only [declared, Bool.or_eq_false_iff, decide_eq_false_iff_not,
        Option.isSome_eq_false_iff, Option.isNone_iff_eq_none] at hdeclared
      simp only [measureDirective, Igvm.measureDirective,
        if_neg hdeclared.1, hdeclared.2]
      exact ⟨_, rfl, rfl⟩
  | _ => cases hdeclared

theorem runFits_nil (last : Option PageData) :
    RunFits snpCompat paramAreas last [] := by
  refine ⟨?_, fun insert hmem => by cases hmem⟩
  cases last <;> simp [measuredPages]

/-- The loop panics when an address or the count of a directive it reaches
runs over, and is the pure loop otherwise. -/
theorem measureDirectives_eq {state : MeasureState} {placement : Placement}
    (htracks : state.Tracks sha384 placement) (hwell : WellPlaced placement)
    (hcounted : counted placement < 2 ^ 64) (dirIdx : Nat)
    (directives : List IgvmDirectiveHeader) :
    PanicsUnless
      (RunFits snpCompat paramAreas (lastPage placement)
          (reached snpCompat paramAreas directives) ∧
        counted (placement.placeAll snpCompat paramAreas dirIdx
          (reached snpCompat paramAreas directives)) < 2 ^ 64)
      (measureDirectives sha384 snpCompat paramAreas dirIdx state directives)
      (Igvm.measureDirectives sha384 snpCompat paramAreas dirIdx state
        directives) := by
  induction directives generalizing dirIdx state placement with
  | nil => exact .of_pos ⟨runFits_nil _, hcounted⟩ rfl
  | cons directive rest ih =>
      rw [measureDirectives, Igvm.measureDirectives]
      cases hdeclared : declared snpCompat paramAreas directive with
      | false =>
          obtain ⟨message, hchecked, hpure⟩ :=
            @measureDirective_error_of_not_declared sha384 snpCompat
              paramAreas dirIdx state directive hdeclared
          have hstop : reached snpCompat paramAreas (directive :: rest) =
              [] := by
            rw [reached, List.takeWhile_cons_of_neg (by simp [hdeclared])]
          rw [hstop, hchecked, hpure]
          exact .of_pos ⟨runFits_nil _, hcounted⟩ rfl
      | true =>
          have hreached : reached snpCompat paramAreas (directive :: rest) =
              directive :: reached snpCompat paramAreas rest :=
            List.takeWhile_cons_of_pos hdeclared
          obtain ⟨next, hnext⟩ := (@measureDirective_ok_iff sha384
            snpCompat paramAreas dirIdx state directive).mpr
              (declared_iff.mp hdeclared)
          have hturn := @measureDirective_eq sha384 snpCompat paramAreas
            state placement htracks hwell hcounted dirIdx directive
          have hstep := measureDirective_tracks htracks hnext
          have hnextwell : WellPlaced (placement.place snpCompat paramAreas
              dirIdx directive) := hwell.place dirIdx directive
          have hmono := (@counted_le_placeAll snpCompat paramAreas _
            hnextwell (dirIdx + 1) (reached snpCompat paramAreas rest)).2
          refine .of_iff ?_ (hturn.bind_ok hnext fun hhead =>
            ih hstep.1 hnextwell hhead.2 (dirIdx + 1))
          rw [hreached, runFits_cons, Placement.placeAll, lastPage_place]
          constructor
          · rintro ⟨⟨hhead, -⟩, hrest, hcount⟩
            exact ⟨⟨hhead, hrest⟩, hcount⟩
          · rintro ⟨⟨hhead, hrest⟩, hcount⟩
            exact ⟨⟨hhead, hmono.trans_lt hcount⟩, hrest, hcount⟩

/-- The directives of a file that its measurement reaches. -/
def reachedOf (igvm : IgvmFile) : List IgvmDirectiveHeader :=
  reached igvm.snpCompat (collectParamAreas igvm) igvm.directives

/-- The pages that `page_count` counts: all of them, or those before the
ParameterInsert that ends the loop less the batch that is then pending. -/
def countedPages (igvm : IgvmFile) : Nat :=
  if igvm.directives.all (declared igvm.snpCompat (collectParamAreas igvm))
  then (measuredSequence igvm).length
  else counted (Placement.placeAll igvm.snpCompat (collectParamAreas igvm) 0
    .empty (reachedOf igvm))

theorem reached_eq_self {directives : List IgvmDirectiveHeader}
    (hall : directives.all (declared snpCompat paramAreas)) :
    reached snpCompat paramAreas directives = directives :=
  List.takeWhile_eq_self_iff.mpr (List.all_eq_true.mp hall)

/-- A loop that reaches all directives succeeds, any other fails. -/
theorem measureDirectives_ok_iff_all (dirIdx : Nat) (state : MeasureState)
    (directives : List IgvmDirectiveHeader) :
    (∃ final, Igvm.measureDirectives sha384 snpCompat paramAreas dirIdx state
        directives = .ok final) ↔
      directives.all (declared snpCompat paramAreas) = true := by
  rw [measureDirectives_ok_iff, List.all_eq_true]
  simp only [declared_iff]
  constructor
  · rintro hall directive hmem insert rfl
    exact hall insert hmem
  · intro hall insert hmem
    exact hall _ hmem insert rfl

theorem not_hasSnpPlatform_of_error {igvm : IgvmFile} {message : String}
    (herror : findSnpCompat igvm = .error message) :
    ¬ igvm.HasSnpPlatform := by
  intro hplat
  have hok := (findSnpCompat_ok_iff igvm igvm.snpCompat).mpr ⟨hplat, rfl⟩
  rw [herror] at hok
  cases hok

def resultOf (running : RunningDigest) (vmsaPages : List (UInt64 × Bytes)) :
    MeasureResult where
  launchDigest := running.ld
  pageCount := running.pageCount
  vmsaCount := UInt32.ofNat vmsaPages.length

/-- The flush of the last batch and the VMSAs, after a loop that went
through. -/
theorem finish_eq {state : MeasureState} {placement : Placement}
    (htracks : state.Tracks sha384 placement) (hwell : WellPlaced placement)
    (hcounted : counted placement < 2 ^ 64) :
    PanicsUnless
      (placement.placed.length + state.vmsaPages.length < 2 ^ 64)
      (do
        let flushed ← flushBatch sha384 state.running state.pendingBatch
        let finished ← measureVmsaPages sha384 flushed state.vmsaPages
        .ok (resultOf finished state.vmsaPages))
      (.ok (resultOf (Igvm.measureVmsaPages sha384
        (Igvm.flushBatch sha384 state.running state.pendingBatch)
        state.vmsaPages) state.vmsaPages)) := by
  rw [flushBatch_eq htracks hwell hcounted]
  by_cases hplaced : placement.placed.length < 2 ^ 64
  · have hcount : (Igvm.flushBatch sha384 state.running
        state.pendingBatch).pageCount.toNat = placement.placed.length := by
      rw [htracks.flush_eq, RunningDigest.measureAll_pageCount]
      change (0 + UInt64.ofNat placement.placed.length).toNat = _
      rw [UInt64.zero_add, UInt64.toNat_ofNat_of_lt' hplaced]
    rw [if_pos hplaced, Outcome.bind_ok, measureVmsaPages, measure_each,
      hcount]
    by_cases htotal : placement.placed.length + state.vmsaPages.length <
        2 ^ 64
    · rw [if_pos htotal, Outcome.bind_ok]
      exact .of_pos htotal rfl
    · rw [if_neg htotal, bind_panic]
      exact .of_neg htotal
  · rw [if_neg hplaced, bind_panic]
    exact .of_neg (by omega)

/-- What the measurement asks of a file for its additions to stay below the
word size. -/
def MeasureFits (igvm : IgvmFile) : Prop :=
  RunFits igvm.snpCompat (collectParamAreas igvm) none (reachedOf igvm) ∧
    countedPages igvm < 2 ^ 64

section File

variable {igvm : IgvmFile}

/-- The loop of a file that is measured, from the start. -/
theorem loop_eq :
    PanicsUnless
      (RunFits igvm.snpCompat (collectParamAreas igvm) none (reachedOf igvm) ∧
        counted (Placement.placeAll igvm.snpCompat (collectParamAreas igvm) 0
          .empty (reachedOf igvm)) < 2 ^ 64)
      (measureDirectives sha384 igvm.snpCompat (collectParamAreas igvm) 0
        .initial igvm.directives)
      (Igvm.measureDirectives sha384 igvm.snpCompat (collectParamAreas igvm) 0
        .initial igvm.directives) :=
  measureDirectives_eq (MeasureState.initial_tracks sha384) (Nat.le_refl 0)
    (by decide) 0 igvm.directives

theorem loop_error_iff :
    (∃ message, Igvm.measureDirectives sha384 igvm.snpCompat
        (collectParamAreas igvm) 0 .initial igvm.directives =
          .error message) ↔
      ¬ igvm.directives.all
        (declared igvm.snpCompat (collectParamAreas igvm)) = true := by
  rw [← @measureDirectives_ok_iff_all sha384 _ _ 0 .initial]
  cases Igvm.measureDirectives sha384 igvm.snpCompat (collectParamAreas igvm)
      0 .initial igvm.directives with
  | error message => simp
  | ok final => simp

/-- After a loop that went through, everything that is placed is counted. -/
theorem countedPages_of_ok {final : MeasureState}
    (hrun : Igvm.measureDirectives sha384 igvm.snpCompat
      (collectParamAreas igvm) 0 .initial igvm.directives = .ok final) :
    reachedOf igvm = igvm.directives ∧
      countedPages igvm = (Placement.placeAll igvm.snpCompat
        (collectParamAreas igvm) 0 .empty igvm.directives).placed.length +
          final.vmsaPages.length := by
  have hgoes := (measureDirectives_ok_iff_all _ _ _).mp ⟨final, hrun⟩
  obtain ⟨-, hvmsa⟩ :=
    measureDirectives_tracks (MeasureState.initial_tracks sha384) hrun
  refine ⟨reached_eq_self hgoes, ?_⟩
  rw [countedPages, if_pos hgoes, measuredSequence, List.length_append,
    ← List.length_map (f := vmsaMeasured), hvmsa]
  rfl

/-- The whole measurement of a file that is measured at all. -/
theorem measureSnp_eq_of_platform (hplat : igvm.HasSnpPlatform) :
    PanicsUnless (MeasureFits igvm) (measureSnp sha384 igvm)
      (Igvm.measureSnp sha384 igvm) := by
  have hcompat := (findSnpCompat_ok_iff igvm igvm.snpCompat).mpr ⟨hplat, rfl⟩
  simp only [measureSnp, Igvm.measureSnp, hcompat, ofExcept_ok,
    Outcome.bind_ok, Kettle.ok_bind]
  cases hrun : Igvm.measureDirectives sha384 igvm.snpCompat
      (collectParamAreas igvm) 0 .initial igvm.directives with
  | error message =>
      have hstops := loop_error_iff.mp ⟨message, hrun⟩
      rw [MeasureFits, countedPages, if_neg hstops, ← hrun]
      exact loop_eq.bind_error hrun
  | ok final =>
      obtain ⟨hself, hcount⟩ := countedPages_of_ok hrun
      obtain ⟨htracks, -⟩ :=
        measureDirectives_tracks (MeasureState.initial_tracks sha384) hrun
      have hwell := (@counted_le_placeAll igvm.snpCompat
        (collectParamAreas igvm) .empty (Nat.le_refl 0) 0
        igvm.directives).1
      have hloop := @loop_eq sha384 igvm
      rw [hself] at hloop
      rw [MeasureFits, hself, hcount, ← hrun]
      refine .of_iff ?_ (hloop.bind_ok hrun fun hreach =>
        finish_eq htracks hwell hreach.2)
      have hbelow : counted (Placement.placeAll igvm.snpCompat
          (collectParamAreas igvm) 0 .empty igvm.directives) ≤
            (Placement.placeAll igvm.snpCompat (collectParamAreas igvm) 0
              .empty igvm.directives).placed.length := Nat.sub_le _ _
      constructor
      · rintro ⟨⟨hfits, -⟩, htotal⟩
        exact ⟨hfits, htotal⟩
      · rintro ⟨hfits, htotal⟩
        exact ⟨⟨hfits, by omega⟩, htotal⟩

theorem measureSnp_eq (igvm : IgvmFile) :
    PanicsUnless (igvm.HasSnpPlatform → MeasureFits igvm)
      (measureSnp sha384 igvm) (Igvm.measureSnp sha384 igvm) := by
  cases hcompat : findSnpCompat igvm with
  | error message =>
      refine .of_pos (fun hplat =>
        absurd hplat (not_hasSnpPlatform_of_error hcompat)) ?_
      rw [measureSnp, Igvm.measureSnp, hcompat]
      rfl
  | ok snpCompat =>
      obtain ⟨hplat, -⟩ := (findSnpCompat_ok_iff igvm snpCompat).mp hcompat
      exact .of_iff ⟨fun hfits _ => hfits, fun hfits => hfits hplat⟩
        (measureSnp_eq_of_platform hplat)

end File

end Checked

end Igvm

end Kettle
