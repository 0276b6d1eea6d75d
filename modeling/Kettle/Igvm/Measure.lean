/-
The SNP launch digest of an IGVM file, computed the way QEMU and KVM do:
PageData pages are batched, ParameterInsert pages are measured at once, and
VMSA pages come last.

No build profile turns overflow checks on, so `u64` additions wrap.
-/
import Kettle.Igvm.File
import Kettle.Lib.HashChain

namespace Kettle

namespace Igvm

abbrev Digest384 := ByteVec 48

def snpPageTypeNormal : UInt8 := 0x01
def snpPageTypeVmsa : UInt8 := 0x02
def snpPageTypeUnmeasured : UInt8 := 0x04
def snpPageTypeSecrets : UInt8 := 0x05
def snpPageTypeCpuid : UInt8 := 0x06

def vmsaGpa : UInt64 := 0xFFFFFFFFF000

def zeros48 : Digest384 := List.Vector.replicate 48 0

structure MeasureResult where
  launchDigest : Digest384
  pageCount : UInt64
  vmsaCount : UInt32
deriving DecidableEq

/-- The 0x70-byte PAGE_INFO structure. -/
def pageInfo (digestCur contents : Digest384) (pageType : UInt8)
    (gpa : UInt64) : Bytes :=
  digestCur.toList ++ contents.toList ++ Bytes.ofNatLE 2 0x70 ++ [pageType] ++
    List.replicate 5 0 ++ Bytes.ofNatLE 8 gpa.toNat

variable (sha384 : Bytes → Digest384)

def updatePageInfo (digestCur contents : Digest384) (pageType : UInt8)
    (gpa : UInt64) : Digest384 :=
  sha384 (pageInfo digestCur contents pageType gpa)

/-- The type, contents hash and data presence of a PageData directive. -/
def classifyPageData (dataType : IgvmPageDataType) (flags : IgvmPageDataFlags)
    (data : Bytes) : UInt8 × Digest384 × Bool :=
  match dataType with
  | .secrets => (snpPageTypeSecrets, zeros48, false)
  | .cpuidData | .cpuidXf => (snpPageTypeCpuid, zeros48, false)
  | .normal | .other _ =>
      if flags.unmeasured then (snpPageTypeUnmeasured, zeros48, false)
      else
        (snpPageTypeNormal, sha384 (data.zeroPad pageSize), !data.isEmpty)

structure PendingPage where
  gpa : UInt64
  pageType : UInt8
  contents : Digest384

/-- The part of the loop state that every measured page advances. -/
structure RunningDigest where
  ld : Digest384
  pageCount : UInt64

def RunningDigest.measure (running : RunningDigest) (contents : Digest384)
    (pageType : UInt8) (gpa : UInt64) : RunningDigest :=
  ⟨updatePageInfo sha384 running.ld contents pageType gpa,
    running.pageCount + 1⟩

def flushBatch (running : RunningDigest) (batch : List PendingPage) :
    RunningDigest :=
  batch.foldl
    (fun running page =>
      running.measure sha384 page.contents page.pageType page.gpa) running

def measureVmsaPages (running : RunningDigest)
    (vmsaPages : List (UInt64 × Bytes)) : RunningDigest :=
  vmsaPages.foldl
    (fun running vmsa =>
      running.measure sha384 (sha384 vmsa.2) snpPageTypeVmsa vmsaGpa) running

/-- `apply_kvm_vmsa_overrides`: KVM sets CR4 and RFLAGS before it measures. -/
def applyKvmVmsaOverrides (vmsa : Bytes) : Bytes :=
  (vmsa.set 0x148 0x40).set 0x170 0x02

def findSnpCompat (igvm : IgvmFile) : Except String UInt32 :=
  match igvm.platforms.find? (fun plat => plat.platformType = .sevSnp) with
  | some plat => .ok plat.compatibilityMask
  | none => .error "No SEV_SNP platform found in IGVM file"

/-- `areas.insert(index, size)` for a ParameterArea, nothing otherwise. -/
def recordParamArea (areas : UInt32 → Option UInt64) :
    IgvmDirectiveHeader → UInt32 → Option UInt64
  | .parameterArea numberOfBytes parameterAreaIndex _ => fun index =>
      if index = parameterAreaIndex then some numberOfBytes else areas index
  | _ => areas

/-- The `HashMap` from area index to area size: a later area replaces an
earlier one of the same index. -/
def collectParamAreas (igvm : IgvmFile) : UInt32 → Option UInt64 :=
  igvm.directives.foldl recordParamArea (fun _ => none)

/-- The loop state of `measure_snp`. -/
structure MeasureState where
  running : RunningDigest
  vmsaPages : List (UInt64 × Bytes)
  pendingBatch : List PendingPage
  prevPageGpa : Option UInt64
  prevPageType : Option UInt8
  prevPageHasData : Option Bool
  lastPageDirectiveIdx : Option Nat

def MeasureState.initial : MeasureState where
  running := ⟨zeros48, 0⟩
  vmsaPages := []
  pendingBatch := []
  prevPageGpa := none
  prevPageType := none
  prevPageHasData := none
  lastPageDirectiveIdx := none

/-- Whether a page breaks the batch that the previous page belongs to. -/
def MeasureState.shouldFlush (state : MeasureState) (dirIdx : Nat)
    (gpa : UInt64) (pageType : UInt8) (hasData : Bool) : Bool :=
  match state.prevPageGpa, state.prevPageType, state.prevPageHasData,
      state.lastPageDirectiveIdx with
  | some prevGpa, some prevType, some prevHas, some lastIdx =>
      pageType != prevType || hasData != prevHas ||
        gpa != prevGpa + UInt64.ofNat pageSize || dirIdx != lastIdx + 1
  | _, _, _, _ => false

/-- `area_size.div_ceil(PAGE_SIZE)`. -/
def numPages (areaSize : UInt64) : Nat :=
  (areaSize.toNat + (pageSize - 1)) / pageSize

/-- The guest addresses of the pages of one ParameterInsert. -/
def insertGpas (gpa : UInt64) (areaSize : UInt64) : List UInt64 :=
  (List.range (numPages areaSize)).map
    (fun pg => gpa + UInt64.ofNat (pg * pageSize))

/-- One turn of the directive loop. -/
def measureDirective (snpCompat : UInt32)
    (paramAreas : UInt32 → Option UInt64) (dirIdx : Nat)
    (state : MeasureState) :
    IgvmDirectiveHeader → Except String MeasureState
  | .pageData page =>
      if page.compatibilityMask &&& snpCompat = 0 then .ok state
      else
        let (pageType, contents, hasData) :=
          classifyPageData sha384 page.dataType page.flags page.data
        let flushed :=
          if state.shouldFlush dirIdx page.gpa pageType hasData &&
              !state.pendingBatch.isEmpty then
            { state with
              running := flushBatch sha384 state.running state.pendingBatch
              pendingBatch := [] }
          else state
        .ok { flushed with
          pendingBatch :=
            flushed.pendingBatch ++ [⟨page.gpa, pageType, contents⟩]
          prevPageGpa := some page.gpa
          prevPageType := some pageType
          prevPageHasData := some hasData
          lastPageDirectiveIdx := some dirIdx }
  | .snpVpContext context =>
      if context.compatibilityMask &&& snpCompat = 0 then .ok state
      else
        let vmsaPage :=
          applyKvmVmsaOverrides (context.vmsa.zeroPad pageSize)
        .ok { state with
          vmsaPages := state.vmsaPages ++ [(context.gpa, vmsaPage)] }
  | .parameterInsert insert =>
      if insert.compatibilityMask &&& snpCompat = 0 then .ok state
      else
        match paramAreas insert.parameterAreaIndex with
        | none =>
            .error s!"ParameterInsert references unknown area {insert.parameterAreaIndex}"
        | some areaSize =>
            -- measured at once, ahead of the batch that is still pending
            .ok { state with
              running := (insertGpas insert.gpa areaSize).foldl
                (fun running gpa =>
                  running.measure sha384 zeros48 snpPageTypeUnmeasured gpa)
                state.running }
  | _ => .ok state

/-- The loop over the directives from index `dirIdx` on. -/
def measureDirectives (snpCompat : UInt32)
    (paramAreas : UInt32 → Option UInt64) :
    Nat → MeasureState → List IgvmDirectiveHeader → Except String MeasureState
  | _, state, [] => .ok state
  | dirIdx, state, directive :: rest => do
      let next ←
        measureDirective sha384 snpCompat paramAreas dirIdx state directive
      measureDirectives snpCompat paramAreas (dirIdx + 1) next rest

def measureSnp (igvm : IgvmFile) : Except String MeasureResult := do
  let snpCompat ← findSnpCompat igvm
  let state ← measureDirectives sha384 snpCompat (collectParamAreas igvm) 0
    MeasureState.initial igvm.directives
  let flushed := flushBatch sha384 state.running state.pendingBatch
  let finished := measureVmsaPages sha384 flushed state.vmsaPages
  .ok {
    launchDigest := finished.ld
    pageCount := finished.pageCount
    vmsaCount := UInt32.ofNat state.vmsaPages.length }

end Igvm

end Kettle
