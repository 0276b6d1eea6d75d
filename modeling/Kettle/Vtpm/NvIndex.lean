/-
Report data in the TPM's NV memory.  An index of another size than the data
is deleted and created again before it is written; the paravisor reads it and
puts a report that reflects it into another index.
-/
import Kettle.Vtpm.NvReaderWriter

namespace Kettle

namespace Vtpm

/-- `VTPM_HCL_REPORT_NV_INDEX`. -/
def vtpmHclReportNvIndex : UInt32 := 0x01400001

/-- `INDEX_REPORT_DATA`. -/
def indexReportData : UInt32 := 0x01400002

/-- `TPM2_NV_INDEX_FIRST`. -/
def nvIndexFirst : UInt32 := 0x01000000

/-- `TPM2_PT_NV_INDEX_MAX`, which is passed as a number of handles. -/
def ptNvIndexMax : UInt32 := 279

inductive ReportError where
  | tpm (error : Error)
  | nvWriteFailed
deriving DecidableEq, Repr

inductive NvSearchResult where
  | found
  | notFound
  | sizeMismatch
deriving DecidableEq, Repr

/-- `NvPublicBuilder::build` with an index, an algorithm, attributes and a
size. -/
def buildNvPublic (nvIndex : NvIndexTpmHandle)
    (nameAlgorithm : HashingAlgorithm) (attributes : BitVec 32)
    (dataSize : Nat) : Except Error NvPublic :=
  if dataSize_le : dataSize ≤ nvIndexMax then
    .ok ⟨nvIndex, nameAlgorithm, attributes, [], dataSize, dataSize_le⟩
  else .error (.wrapper .invalidParam)

section Commands

variable {σ : Type} (esys : Esys σ)

def getNvIndexInfo (nvIndexTpmHandle : NvIndexTpmHandle) :
    Command Error (Context σ) (NvPublic × Bytes) := do
  let objectHandle ← Context.trFromTpmPublic esys nvIndexTpmHandle.value
  let info ← (Context.nvReadPublic esys objectHandle).inspectErr
    (Context.trClose esys objectHandle)
  Context.trClose esys objectHandle
  Command.ret info

def list : Command Error (Context σ) (List (NvPublic × Bytes)) :=
  Context.executeWithoutSession do
    let capability ← Context.getCapability esys .handles nvIndexFirst
      ptNvIndexMax
    match capability.1 with
    | .handles tpmHandles =>
        Command.forEach (fun tpmHandle => do
          let nvIndex ← Command.ofExcept (NvIndexTpmHandle.new tpmHandle)
          getNvIndexInfo esys nvIndex) tpmHandles
    | _ => Command.fail (.wrapper .wrongValueFromTpm)

def findIndex (nvIndex : NvIndexTpmHandle) (len : Nat) :
    Command Error (Context σ) NvSearchResult := do
  let list ← list esys
  match list.find? (fun info => info.1.nvIndex = nvIndex) with
  | none => Command.ret .notFound
  | some (nvPublic, _) =>
      if nvPublic.dataSize ≠ len then Command.ret .sizeMismatch
      else Command.ret .found

def createIndex (handle : NvIndexTpmHandle) (len : Nat) :
    Command Error (Context σ) UInt32 := do
  Command.ofExcept (NvIndexAttributes.validate NvIndexAttributes.ofOwner)
  let owner ← Command.ofExcept (buildNvPublic handle .sha256
    NvIndexAttributes.ofOwner len)
  Context.nvDefineSpace esys .owner none owner

def resolveHandle (handle : NvIndexTpmHandle) :
    Command Error (Context σ) UInt32 :=
  Context.executeWithoutSession (Context.trFromTpmPublic esys handle.value)

def deleteIndex (handle : NvIndexTpmHandle) :
    Command Error (Context σ) Unit := do
  let index ← resolveHandle esys handle
  Context.nvUndefineSpace esys .owner index

/-- The index that is written: the one that is there, or a new one. -/
def indexFor (handle : NvIndexTpmHandle) (len : Nat) :
    NvSearchResult → Command Error (Context σ) UInt32
  | .notFound => createIndex esys handle len
  | .sizeMismatch => do
      deleteIndex esys handle
      createIndex esys handle len
  | .found => resolveHandle esys handle

def writeNvIndex (handle : NvIndexTpmHandle) (data : Bytes) :
    Command Error (Context σ) Unit := do
  let buffer ← Command.ofExcept (maxNvBuffer data)
  let result ← findIndex esys handle data.length
  let index ← indexFor esys handle data.length result
  Context.nvWrite esys .owner index buffer 0

end Commands

section Write

open Command

variable {σ : Type} {esys : Esys σ} {view : σ → NvView}
variable {ctx : Context σ}

theorem ends_getNvIndexInfo (hlaws : NvLaws esys view)
    (index : NvIndexTpmHandle) :
    (getNvIndexInfo esys index).Ends ctx
      (fun info after => Context.Keeps view ctx after ∧
        ∃ data, (view ctx.esysContext).contents info.1.nvIndex = some data ∧
          data.length = info.1.dataSize)
      (fun _ after => Context.Keeps view ctx after) := by
  unfold getNvIndexInfo
  rw [ends_bind]
  refine (Context.ends_trFromTpmPublic hlaws index).mono
    (fun object opened hopened => ?_) (fun _ _ => id)
  rw [ends_bind, ends_inspectErr]
  refine (Context.ends_nvReadPublic hlaws hopened.2).mono
    (fun info read hread => ?_) (fun _ read hfailed => ?_)
  · obtain ⟨hkeeps, -, rfl, data, hdata, hlen⟩ := hread
    have hread := hopened.1.trans hkeeps
    rw [hopened.1.contents] at hdata
    rw [ends_bind]
    exact Ends.mono (Context.ends_trClose hlaws object)
      (fun _ closed hclosed => ⟨hread.trans hclosed, data, hdata, hlen⟩)
      (fun _ closed hclosed => hread.trans hclosed)
  · exact (Context.ends_trClose hlaws object).mono
      fun closed hclosed => (hopened.1.trans hfailed).trans hclosed

/-- An index that is listed is there, with data of its size. -/
def Listed (nvView : NvView) (nvPublic : NvPublic) : Prop :=
  ∃ data, nvView.contents nvPublic.nvIndex = some data ∧
    data.length = nvPublic.dataSize

theorem ends_list (hlaws : NvLaws esys view) :
    (list esys).Ends ctx
      (fun infos after => Context.Keeps view ctx after ∧
        ∀ info ∈ infos, Listed (view ctx.esysContext) info.1)
      (fun _ after => Context.Keeps view ctx after) := by
  refine Context.ends_executeWithoutSession
    (fun infos _ =>
      ∀ info ∈ infos, Listed (view ctx.esysContext) (Prod.fst info))
    (fun bare hbare => ?_) rfl
  rw [ends_bind]
  refine (Context.ends_getCapability hlaws _ _ _).mono
    (fun capability asked hasked => ?_) (fun _ _ => id)
  split
  · refine (ends_forEach (fun ctx => Context.Keeps view bare ctx)
      (fun _ info => Listed (view ctx.esysContext) (Prod.fst info))
      (fun tpmHandle _ before hbefore => ?_) hasked).mono
      (fun infos after hinfos => ⟨hinfos.1, fun info hinfo => ?_⟩)
      (fun _ _ => id)
    · rw [ends_bind, ends_ofExcept]
      split
      · refine (ends_getNvIndexInfo hlaws _).mono
          (fun info after hafter => ⟨hbefore.trans hafter.1, ?_⟩)
          (fun _ after hafter => hbefore.trans hafter)
        obtain ⟨data, hdata, hlen⟩ := hafter.2
        rw [hbefore.contents, hbare] at hdata
        exact ⟨data, hdata, hlen⟩
      · exact hbefore
    · exact (exists_mem_of_forall₂ hinfos.2 hinfo).choose_spec.2
  · exact hasked

/-- What was found is so; that nothing was found says nothing. -/
def NvSearchResult.Holds (index : NvIndexTpmHandle) (len : Nat)
    (nvView : NvView) : NvSearchResult → Prop
  | .found => ∃ old, nvView.contents index = some old ∧ old.length = len
  | .sizeMismatch =>
      ∃ old, nvView.contents index = some old ∧ old.length ≠ len
  | .notFound => True

theorem NvSearchResult.Holds.of_contents {index : NvIndexTpmHandle}
    {len : Nat} {before after : NvView} {result : NvSearchResult}
    (hholds : result.Holds index len before)
    (hsame : after.contents = before.contents) :
    result.Holds index len after := by
  unfold Holds at hholds ⊢
  rw [hsame]
  exact hholds

theorem ends_findIndex (hlaws : NvLaws esys view) (index : NvIndexTpmHandle)
    (len : Nat) :
    (findIndex esys index len).Ends ctx
      (fun result after => Context.Keeps view ctx after ∧
        result.Holds index len (view ctx.esysContext))
      (fun _ after => Context.Keeps view ctx after) := by
  unfold findIndex
  rw [ends_bind]
  refine (ends_list hlaws).mono (fun infos after hinfos => ?_)
    (fun _ _ => id)
  split
  · exact ⟨hinfos.1, trivial⟩
  · rename_i nvPublic name hfind
    have hindex : nvPublic.nvIndex = index := by
      simpa using List.find?_some hfind
    obtain ⟨old, hold, hlen⟩ := hinfos.2 _ (List.mem_of_find?_eq_some hfind)
    rw [hindex] at hold
    split
    · rename_i hsize
      exact ⟨hinfos.1, old, hold, hlen ▸ hsize⟩
    · rename_i hsize
      exact ⟨hinfos.1, old, hold, hlen.trans (not_not.mp hsize)⟩

theorem ends_resolveHandle (hlaws : NvLaws esys view)
    (index : NvIndexTpmHandle) :
    (resolveHandle esys index).Ends ctx
      (fun object after => Context.Keeps view ctx after ∧
        (view after.esysContext).refers object = some index)
      (fun _ after => Context.Keeps view ctx after) :=
  Context.ends_executeWithoutSession
    (fun object nvView => nvView.refers object = some index)
    (fun _ _ => Context.ends_trFromTpmPublic hlaws index) rfl

/-- What the steps before the write may have done to the index when they
succeed: it is there with the size of the data. -/
structure Ready (view : σ → NvView) (index : NvIndexTpmHandle) (len : Nat)
    (before : Context σ) (object : UInt32) (after : Context σ) : Prop where
  sessions : after.sessions = before.sessions
  refers : (view after.esysContext).refers object = some index
  others : ∀ other, other ≠ index →
    (view after.esysContext).contents other =
      (view before.esysContext).contents other
  sized : ∃ data, (view after.esysContext).contents index = some data ∧
    data.length = len

/-- What a failed write leaves.  An index of the size of the data is as it
was; any other is as it was, gone, or there with the size of the data. -/
structure Spoiled (view : σ → NvView) (index : NvIndexTpmHandle) (len : Nat)
    (before after : Context σ) : Prop where
  sessions : after.sessions = before.sessions
  others : ∀ other, other ≠ index →
    (view after.esysContext).contents other =
      (view before.esysContext).contents other
  left : (view after.esysContext).contents index =
      (view before.esysContext).contents index ∨
    (∀ old, (view before.esysContext).contents index = some old →
      old.length ≠ len) ∧
    ∀ new, (view after.esysContext).contents index = some new →
      new.length = len

theorem Spoiled.of_keeps {index : NvIndexTpmHandle} {len : Nat}
    {after : Context σ} (hkeeps : Context.Keeps view ctx after) :
    Spoiled view index len ctx after :=
  ⟨hkeeps.sessions, fun _ _ => congrFun hkeeps.contents _,
    .inl (congrFun hkeeps.contents index)⟩

theorem Spoiled.of_keeps_left {index : NvIndexTpmHandle} {len : Nat}
    {kept after : Context σ} (hkeeps : Context.Keeps view ctx kept)
    (hspoiled : Spoiled view index len kept after) :
    Spoiled view index len ctx after := by
  obtain ⟨hsessions, hothers, hleft⟩ := hspoiled
  rw [hkeeps.contents] at hleft
  refine ⟨hsessions.trans hkeeps.sessions, fun other hother => ?_, hleft⟩
  rw [hothers other hother, hkeeps.contents]

theorem Spoiled.of_set {index : NvIndexTpmHandle} {len : Nat}
    {after : Context σ} {new : Option Bytes}
    (hsessions : after.sessions = ctx.sessions)
    (hset : (view after.esysContext).contents =
      (view ctx.esysContext).set index new)
    (hold : ∀ old, (view ctx.esysContext).contents index = some old →
      old.length ≠ len)
    (hnew : ∀ data, new = some data → data.length = len) :
    Spoiled view index len ctx after := by
  refine ⟨hsessions, fun other hother => ?_, .inr ⟨hold, fun data hdata => ?_⟩⟩
  · rw [hset]
    exact Function.update_of_ne hother _ _
  · rw [hset, NvView.set, Function.update_self] at hdata
    exact hnew data hdata

theorem ends_createIndex (hlaws : NvLaws esys view)
    (index : NvIndexTpmHandle) (len : Nat) :
    (createIndex esys index len).Ends ctx
      (fun object after => Ready view index len ctx object after ∧
        (view ctx.esysContext).contents index = none)
      (fun _ after => Spoiled view index len ctx after) := by
  unfold createIndex
  rw [ends_bind, ends_ofExcept]
  split
  · rw [ends_bind, ends_ofExcept]
    unfold buildNvPublic
    by_cases hsize : len ≤ nvIndexMax
    · rw [dif_pos hsize]
      refine (Context.ends_nvDefineSpace hlaws).mono
        (fun object after hdefined => ?_) (fun _ after hfailed => ?_)
      · obtain ⟨hsessions, hnone, hrefers, data, hlen, hset⟩ := hdefined
        refine ⟨⟨hsessions, hrefers, fun other hother => ?_, data, ?_, hlen⟩,
          hnone⟩
        · rw [hset]
          exact Function.update_of_ne hother _ _
        · rw [hset]
          exact Function.update_self index _ _
      · obtain ⟨hsessions, hkeeps | ⟨hnone, data, hlen, hset⟩⟩ := hfailed
        · exact .of_keeps hkeeps
        · refine .of_set hsessions hset (fun old hold => ?_)
            (fun new hnew => ?_)
          · rw [hnone] at hold
            cases hold
          · cases hnew
            exact hlen
    · rw [dif_neg hsize]
      exact .of_keeps (Context.Keeps.refl ctx)
  · exact .of_keeps (Context.Keeps.refl ctx)

theorem ends_deleteIndex (hlaws : NvLaws esys view)
    (index : NvIndexTpmHandle) :
    (deleteIndex esys index).Ends ctx
      (fun _ after => after.sessions = ctx.sessions ∧
        (view after.esysContext).contents =
          (view ctx.esysContext).set index none)
      (fun _ after => Context.Keeps view ctx after ∨
        after.sessions = ctx.sessions ∧
        (view after.esysContext).contents =
          (view ctx.esysContext).set index none) := by
  unfold deleteIndex
  rw [ends_bind]
  refine (ends_resolveHandle hlaws index).mono
    (fun object resolved hresolved => ?_) (fun _ _ => .inl)
  obtain ⟨hkeeps, hrefers⟩ := hresolved
  have hset : (view resolved.esysContext).set index none =
      (view ctx.esysContext).set index none := by
    rw [NvView.set, hkeeps.contents, NvView.set]
  refine (Context.ends_nvUndefineSpace hlaws hrefers).mono
    (fun _ after hgone => ?_) (fun _ after hfailed => ?_)
  · exact ⟨hgone.1.trans hkeeps.sessions, hset ▸ hgone.2⟩
  · obtain ⟨hsessions, hsame | hgone⟩ := hfailed
    · exact .inl (hkeeps.trans hsame)
    · exact .inr ⟨hsessions.trans hkeeps.sessions, hset ▸ hgone⟩

/-- After the index has been deleted, what is left of another one is what
was left of the first. -/
theorem Spoiled.of_gone {index : NvIndexTpmHandle} {len : Nat}
    {gone after : Context σ} (hsessions : gone.sessions = ctx.sessions)
    (hset : (view gone.esysContext).contents =
      (view ctx.esysContext).set index none)
    (hold : ∀ old, (view ctx.esysContext).contents index = some old →
      old.length ≠ len)
    (hspoiled : Spoiled view index len gone after) :
    Spoiled view index len ctx after := by
  refine ⟨hspoiled.sessions.trans hsessions, fun other hother => ?_,
    .inr ⟨hold, fun new hnew => ?_⟩⟩
  · rw [hspoiled.others other hother, hset]
    exact Function.update_of_ne hother _ _
  · obtain hsame | ⟨-, hnewLen⟩ := hspoiled.left
    · rw [hsame, hset, NvView.set, Function.update_self] at hnew
      cases hnew
    · exact hnewLen new hnew

theorem ends_indexFor (hlaws : NvLaws esys view) (index : NvIndexTpmHandle)
    {len : Nat} {result : NvSearchResult}
    (hholds : result.Holds index len (view ctx.esysContext)) :
    (indexFor esys index len result).Ends ctx
      (fun object after => Ready view index len ctx object after ∧
        ((view after.esysContext).contents index =
            (view ctx.esysContext).contents index ∨
          ∀ old, (view ctx.esysContext).contents index = some old →
            old.length ≠ len))
      (fun _ after => Spoiled view index len ctx after) := by
  cases result with
  | found =>
      obtain ⟨old, hold, hlen⟩ := hholds
      refine (ends_resolveHandle hlaws index).mono
        (fun object after hresolved => ?_) (fun _ _ => .of_keeps)
      obtain ⟨hkeeps, hrefers⟩ := hresolved
      exact ⟨⟨hkeeps.sessions, hrefers,
        fun _ _ => congrFun hkeeps.contents _, old,
        hkeeps.contents ▸ hold, hlen⟩, .inl (congrFun hkeeps.contents _)⟩
  | notFound =>
      refine (ends_createIndex hlaws index len).mono
        (fun object after hcreated => ⟨hcreated.1, .inr fun old hold => ?_⟩)
        (fun _ _ => id)
      rw [hcreated.2] at hold
      cases hold
  | sizeMismatch =>
      obtain ⟨old, hold, hlen⟩ := hholds
      have hother : ∀ data, (view ctx.esysContext).contents index =
          some data → data.length ≠ len := by
        intro data hdata
        rw [hold] at hdata
        cases hdata
        exact hlen
      unfold indexFor
      rw [ends_bind]
      refine (ends_deleteIndex hlaws index).mono
        (fun _ gone hgone => ?_) (fun _ after hfailed => ?_)
      · obtain ⟨hsessions, hset⟩ := hgone
        refine (ends_createIndex hlaws index len).mono
          (fun object after hcreated => ?_)
          (fun _ after hspoiled => hspoiled.of_gone hsessions hset hother)
        obtain ⟨hready, -⟩ := hcreated
        refine ⟨⟨hready.sessions.trans hsessions, hready.refers,
          fun other hne => ?_, hready.sized⟩, .inr hother⟩
        rw [hready.others other hne, hset]
        exact Function.update_of_ne hne _ _
      · obtain hkeeps | ⟨hsessions, hset⟩ := hfailed
        · exact .of_keeps hkeeps
        · exact .of_set hsessions hset hother nofun

theorem ends_writeNvIndex (hlaws : NvLaws esys view)
    (index : NvIndexTpmHandle) (data : Bytes) (ctx : Context σ) :
    (writeNvIndex esys index data).Ends ctx
      (fun _ after => after.sessions = ctx.sessions ∧
        (view after.esysContext).contents =
          (view ctx.esysContext).set index (some data))
      (fun _ after => Spoiled view index data.length ctx after) := by
  unfold writeNvIndex
  rw [ends_bind, ends_ofExcept]
  split
  · rename_i buffer hbuffer
    cases NvReaderWriter.maxNvBuffer_eq_ok hbuffer
    rw [ends_bind]
    refine (ends_findIndex hlaws index data.length).mono
      (fun result found hfound => ?_) (fun _ _ => .of_keeps)
    obtain ⟨hkeeps, hholds⟩ := hfound
    have hsame : (view found.esysContext).contents =
        (view ctx.esysContext).contents := hkeeps.contents
    rw [ends_bind]
    refine (ends_indexFor hlaws index (hholds.of_contents hsame)).mono
      (fun object ready hready => ?_)
      (fun _ after hspoiled => hspoiled.of_keeps_left hkeeps)
    obtain ⟨⟨hsessions, hrefers, hothers, fresh, hfresh, hlen⟩, hleft⟩ :=
      hready
    refine (Context.ends_nvWrite hlaws hrefers hfresh).mono
      (fun _ after hwritten => ?_) (fun _ after hfailed => ?_)
    · obtain ⟨hsessions', -, -, -, hset⟩ := hwritten
      refine ⟨hsessions'.trans (hsessions.trans hkeeps.sessions), ?_⟩
      rw [hset]
      funext other
      by_cases hother : other = index
      · rw [hother, NvView.set, NvView.set, Function.update_self,
          Function.update_self]
        exact congrArg some (Bytes.splice_all hlen.symm)
      · rw [NvView.set, NvView.set, Function.update_of_ne hother,
          Function.update_of_ne hother, hothers other hother, hsame]
    · have hafter := hfailed.1.contents
      refine .of_keeps_left hkeeps ⟨hfailed.1.sessions.trans hsessions,
        fun other hother => ?_, ?_⟩
      · rw [hafter]
        exact hothers other hother
      · rw [hafter]
        refine hleft.imp id fun hold => ⟨hold, fun new hnew => ?_⟩
        rw [hfresh] at hnew
        cases hnew
        exact hlen
  · exact .of_keeps (Context.Keeps.refl ctx)

/-- A write that succeeds leaves exactly the data in the index, whatever was
there, and all other indices as they were.  One that fails has changed an
index of that size not at all; one of another size may be gone, or there
with the new size. -/
theorem writeNvIndex_writes (hlaws : NvLaws esys view)
    (index : NvIndexTpmHandle) (data : Bytes) (ctx : Context σ) :
    (writeNvIndex esys index data ctx).1 ≠ .panic ∧
      (∀ after, writeNvIndex esys index data ctx = (.ok (), after) →
        after.sessions = ctx.sessions ∧
        (view after.esysContext).contents =
          (view ctx.esysContext).set index (some data)) ∧
      ∀ error after,
        writeNvIndex esys index data ctx = (.err error, after) →
        Spoiled view index data.length ctx after := by
  obtain ⟨hpanic, hok, herr⟩ :=
    ends_iff.mp (ends_writeNvIndex hlaws index data ctx)
  exact ⟨hpanic, fun after => hok () after, herr⟩

/-- The index that is written had five bytes before. -/
theorem writeNvIndex_writes_five :
    (writeNvIndex plainEsys NvReaderWriter.fiveHandle [7, 8]
        NvReaderWriter.fiveContext).1 = .ok () ∧
      (writeNvIndex plainEsys NvReaderWriter.fiveHandle [7, 8]
          NvReaderWriter.fiveContext).1 ≠ .panic ∧
      (∀ after, writeNvIndex plainEsys NvReaderWriter.fiveHandle [7, 8]
          NvReaderWriter.fiveContext = (.ok (), after) →
        after.sessions = NvReaderWriter.fiveContext.sessions ∧
        (Memory.view after.esysContext).contents =
          (Memory.view NvReaderWriter.fiveContext.esysContext).set
            NvReaderWriter.fiveHandle (some [7, 8])) ∧
      ∀ error after,
        writeNvIndex plainEsys NvReaderWriter.fiveHandle [7, 8]
          NvReaderWriter.fiveContext = (.err error, after) →
        Spoiled Memory.view NvReaderWriter.fiveHandle 2
          NvReaderWriter.fiveContext after :=
  ⟨by rfl, writeNvIndex_writes plainLaws NvReaderWriter.fiveHandle [7, 8]
    NvReaderWriter.fiveContext⟩

end Write

section Report

variable {σ : Type} (esys : Esys σ)

/-- While the program sleeps the paravisor does its work. -/
def sleeping (sleep : σ → σ) : Command Error (Context σ) Unit :=
  Command.update fun ctx =>
    { ctx with esysContext := sleep ctx.esysContext }

/-- `get_report`, in a context with a session. -/
def report (rooms : Nat → Nat) : Command Error (Context σ) Bytes := do
  let nvIndex ← Command.ofExcept (NvIndexTpmHandle.new vtpmHclReportNvIndex)
  readFull esys rooms .owner nvIndex

/-- `get_report_with_report_data`, in a context with a session. -/
def reportWithReportData (sleep : σ → σ) (rooms : Nat → Nat)
    (reportData : Bytes) : Command Error (Context σ) Bytes := do
  let nvIndexReportData ← Command.ofExcept
    (NvIndexTpmHandle.new indexReportData)
  writeNvIndex esys nvIndexReportData reportData
  sleeping sleep
  report esys rooms

/-- `get_session_context`: a new context that the library has initialized. -/
def sessionContext (initialized : σ) : Context σ where
  esysContext := initialized
  sessions := (some .password, none, none)
  handleManager := .new
  cachedTpmProperties := .empty

/-- What is run in a context is run before the context is dropped. -/
def withSessionContext {α : Type} (newDeviceDirect : Command Error σ Unit)
    (body : Command Error (Context σ) α) : Command ReportError σ α :=
  fun state =>
    match newDeviceDirect state with
    | (.panic, state) => (.panic, state)
    | (.err error, state) => (.err (.tpm error), state)
    | (.ok (), state) =>
        match (body.dropping (Context.drop esys >>= fun _ =>
          Command.ret ())).mapErr ReportError.tpm (sessionContext state) with
        | (result, ctx) => (result, ctx.esysContext)

def getReport (newDeviceDirect : Command Error σ Unit) (rooms : Nat → Nat) :
    Command ReportError σ Bytes :=
  withSessionContext esys newDeviceDirect (report esys rooms)

def getReportWithReportData (newDeviceDirect : Command Error σ Unit)
    (sleep : σ → σ) (rooms : Nat → Nat) (reportData : Bytes) :
    Command ReportError σ Bytes :=
  withSessionContext esys newDeviceDirect
    (reportWithReportData esys sleep rooms reportData)

/-- The indices of the report data and of the report. -/
def reportDataHandle : NvIndexTpmHandle := ⟨indexReportData, by decide⟩

def hclReportHandle : NvIndexTpmHandle := ⟨vtpmHclReportNvIndex, by decide⟩

theorem new_indexReportData :
    NvIndexTpmHandle.new indexReportData = .ok reportDataHandle := by
  decide

theorem new_vtpmHclReportNvIndex :
    NvIndexTpmHandle.new vtpmHclReportNvIndex = .ok hclReportHandle := by
  decide

end Report

section Reflected

open Command

variable {σ : Type} {esys : Esys σ} {view : σ → NvView}

/-- The data are in their index, and it alone has changed. -/
def Written (view : σ → NvView) (reportData : Bytes) (before written : σ) :
    Prop :=
  (view written).contents =
    (view before).set reportDataHandle (some reportData)

theorem ends_reportWithReportData (hlaws : NvLaws esys view)
    (sleep : σ → σ) {rooms : Nat → Nat} (hrooms : ∀ turn, 0 < rooms turn)
    (reportData : Bytes) (ctx : Context σ) :
    (reportWithReportData esys sleep rooms reportData).Ends ctx
      (fun report after => ∃ written,
        Written view reportData ctx.esysContext written ∧
        (view after.esysContext).contents = (view (sleep written)).contents ∧
        after.sessions = ctx.sessions ∧
        ∃ data, (view (sleep written)).contents hclReportHandle = some data ∧
          report = if after.bufferSize = 0 then [] else data)
      (fun _ after =>
        Spoiled view reportDataHandle reportData.length ctx after ∨
        ∃ written, Written view reportData ctx.esysContext written ∧
          (view after.esysContext).contents =
            (view (sleep written)).contents) := by
  unfold reportWithReportData report
  rw [new_indexReportData, new_vtpmHclReportNvIndex, ends_bind, ends_ofExcept]
  dsimp only
  rw [ends_bind]
  refine (ends_writeNvIndex hlaws reportDataHandle reportData ctx).mono
    (fun _ written hwritten => ?_) (fun _ _ => .inl)
  unfold sleeping
  rw [ends_bind, ends_update, ends_bind, ends_ofExcept]
  refine (ends_readFull hlaws hrooms .owner hclReportHandle _).mono
    (fun report after hread => ?_) (fun _ after hfailed => ?_)
  · obtain ⟨hkeeps, data, hdata, hreport⟩ := hread
    exact ⟨written.esysContext, hwritten.2, hkeeps.contents,
      hkeeps.sessions.trans hwritten.1, data, hdata, hreport⟩
  · exact .inr ⟨written.esysContext, hwritten.2, hfailed.contents⟩

section Device

variable {newDeviceDirect : Command Error σ Unit}

/-- What is also documented of opening the device and of releasing what is
flushed: the indices have their data. -/
structure DeviceLaws (esys : Esys σ) (newDeviceDirect : Command Error σ Unit)
    (view : σ → NvView) : Prop extends NvLaws esys view where
  newDeviceDirect (state : σ) : newDeviceDirect.Finishes state
    fun after => (view after).contents = (view state).contents
  flushContext (object : UInt32) (state : σ) :
    (esys.flushContext object).Finishes state
      fun after => (view after).contents = (view state).contents

theorem finishes_flushContext (hlaws : DeviceLaws esys newDeviceDirect view)
    (object : UInt32) (ctx : Context σ) :
    (Context.flushContext esys object).Finishes ctx
      fun after => Context.Keeps view ctx after := by
  unfold Context.flushContext Finishes
  split
  · exact Context.Keeps.refl ctx
  · rw [ends_bind, Context.ends_onEsys]
    refine Ends.mono (hlaws.flushContext object ctx.esysContext)
      (fun _ after hflushed => ?_)
      (fun _ after hfailed => ⟨⟨hfailed, rfl⟩, rfl⟩)
    exact Context.ends_onHandles (Context.setAs_ne_panic _ _)
      (fun manager => ⟨⟨hflushed, rfl⟩, rfl⟩)
      (fun _ manager => ⟨⟨hflushed, rfl⟩, rfl⟩)

/-- Handles are released one after the other, and each may fail. -/
theorem ends_releaseAll {release : UInt32 → Command Error (Context σ) Unit}
    (hrelease : ∀ handle ctx, (release handle).Finishes ctx
      fun after => Context.Keeps view ctx after)
    (handles : List UInt32) (ctx : Context σ)
    {failed : Error → Context σ → Prop} :
    (Command.forEach (fun handle => (release handle).attempt) handles).Ends
      ctx (fun _ after => Context.Keeps view ctx after) failed :=
  (ends_forEach (fun after => Context.Keeps view ctx after)
    (fun _ _ => True) (fun handle _ before hbefore => by
      rw [ends_attempt]
      exact Ends.mono (hrelease handle before)
        (fun _ after hkeeps => ⟨hbefore.trans hkeeps, trivial⟩)
        (fun _ after hkeeps => ⟨hbefore.trans hkeeps, trivial⟩))
    (Context.Keeps.refl ctx)).mono (fun _ _ hkeeps => hkeeps.1)
    (fun _ _ => id)

theorem finishes_drop (hlaws : DeviceLaws esys newDeviceDirect view)
    (ctx : Context σ) :
    (Context.drop esys >>= fun _ => Command.ret ()).Finishes ctx
      fun after => Context.Keeps view ctx after := by
  unfold Context.drop Finishes
  rw [ends_bind, ends_bind, ends_read, ends_bind]
  refine (ends_releaseAll (finishes_flushContext hlaws) _ ctx).mono
    (fun _ flushed hflushed => ?_) (fun _ _ => id)
  rw [ends_bind, ends_read, ends_bind]
  exact (ends_releaseAll (fun handle ctx =>
    Context.ends_trClose hlaws.toNvLaws handle) _ flushed).mono
    (fun _ closed hclosed => hflushed.trans hclosed) (fun _ _ => id)

/-- The run of a body in the new context, before the context is dropped. -/
def RunsIn {α : Type} (newDeviceDirect : Command Error σ Unit)
    (body : Command Error (Context σ) α) (state : σ) (value : α)
    (ctx : Context σ) : Prop :=
  ∃ opened, newDeviceDirect state = (.ok (), opened) ∧
    body (sessionContext opened) = (.ok value, ctx)

/-- A body that ends well in every new context does so with the device opened
before it and the context dropped after it. -/
theorem withSessionContext_ends {α : Type}
    (hlaws : DeviceLaws esys newDeviceDirect view)
    {body : Command Error (Context σ) α}
    (hbody : ∀ ctx, (body ctx).1 ≠ .panic) (state : σ) :
    (withSessionContext esys newDeviceDirect body state).1 ≠ .panic ∧
      ∀ value after,
        withSessionContext esys newDeviceDirect body state =
          (.ok value, after) →
        ∃ ctx, RunsIn newDeviceDirect body state value ctx ∧
          (view after).contents = (view ctx.esysContext).contents := by
  have hopens := hlaws.newDeviceDirect state
  unfold withSessionContext
  cases hopened : newDeviceDirect state with
  | mk outcome opened =>
      rw [Finishes, Ends, hopened] at hopens
      cases outcome with
      | panic => exact hopens.elim
      | err error =>
          refine ⟨fun hpanic => ?_, fun value after hrun => ?_⟩
          · cases hpanic
          · cases hrun
      | ok ended =>
          have hends : ((body.dropping (Context.drop esys >>= fun _ =>
              Command.ret ())).mapErr ReportError.tpm).Ends
              (sessionContext opened)
              (fun value after => ∃ ctx, RunsIn newDeviceDirect body state
                value ctx ∧ Context.Keeps view ctx after)
              (fun _ _ => True) := by
            rw [ends_mapErr, ends_dropping]
            refine ends_iff.mpr ⟨hbody _, fun value ctx hrun => ?_,
              fun error ctx _ => ?_⟩
            · exact (finishes_drop hlaws ctx).mono fun after hkeeps =>
                ⟨ctx, ⟨opened, hopened, hrun⟩, hkeeps⟩
            · exact (finishes_drop hlaws ctx).mono fun _ _ => trivial
          obtain ⟨hpanic, hok, -⟩ := ends_iff.mp hends
          refine ⟨hpanic, fun value after hrun => ?_⟩
          obtain ⟨hvalue, hafter⟩ := Prod.mk.inj hrun
          obtain ⟨ctx, hruns, hkeeps⟩ := hok value _ (Prod.ext hvalue rfl)
          exact ⟨ctx, hruns, hafter ▸ hkeeps.contents⟩

/-- A new context sees the indices as they were. -/
theorem RunsIn.exists_opened {α : Type}
    (hlaws : DeviceLaws esys newDeviceDirect view)
    {body : Command Error (Context σ) α} {state : σ} {value : α}
    {ctx : Context σ} (hruns : RunsIn newDeviceDirect body state value ctx) :
    ∃ opened, (view opened).contents = (view state).contents ∧
      body (sessionContext opened) = (.ok value, ctx) := by
  obtain ⟨opened, hopened, hbody⟩ := hruns
  have hopens := (hlaws.newDeviceDirect state).after
  rw [hopened] at hopens
  exact ⟨opened, hopens, hbody⟩

theorem ends_report (hlaws : NvLaws esys view) {rooms : Nat → Nat}
    (hrooms : ∀ turn, 0 < rooms turn) (ctx : Context σ) :
    (report esys rooms).Ends ctx
      (fun report after => Context.KeepsIndices view ctx after ∧
        ∃ data, (view ctx.esysContext).contents hclReportHandle = some data ∧
          report = if after.bufferSize = 0 then [] else data)
      (fun _ after => Context.KeepsIndices view ctx after) := by
  unfold report
  rw [new_vtpmHclReportNvIndex, ends_bind, ends_ofExcept]
  exact ends_readFull hlaws hrooms .owner hclReportHandle ctx

/-- The report is what its index holds, and no index has changed. -/
theorem getReport_reads (hlaws : DeviceLaws esys newDeviceDirect view)
    {rooms : Nat → Nat} (hrooms : ∀ turn, 0 < rooms turn) (state : σ) :
    (getReport esys newDeviceDirect rooms state).1 ≠ .panic ∧
      ∀ bytes after,
        getReport esys newDeviceDirect rooms state = (.ok bytes, after) →
        (view after).contents = (view state).contents ∧
        ∃ ctx data, RunsIn newDeviceDirect (report esys rooms) state bytes
            ctx ∧
          (view state).contents hclReportHandle = some data ∧
          bytes = if ctx.bufferSize = 0 then [] else data := by
  obtain ⟨hpanic, hok⟩ := withSessionContext_ends hlaws (fun ctx =>
    (ends_report hlaws.toNvLaws hrooms ctx).ne_panic) state
  refine ⟨hpanic, fun bytes after hrun => ?_⟩
  obtain ⟨ctx, hruns, hafter⟩ := hok bytes after hrun
  obtain ⟨opened, hopened, hbody⟩ := hruns.exists_opened hlaws
  obtain ⟨hkeeps, data, hdata, hbytes⟩ := (ends_iff.mp
    (ends_report hlaws.toNvLaws hrooms _)).2.1 bytes ctx hbody
  refine ⟨(hafter.trans hkeeps.contents).trans hopened, ctx, data, hruns,
    ?_, hbytes⟩
  rw [← hopened]
  exact hdata

/-- The report is what its index holds after the sleep, or nothing when the
context has been told that the TPM has no buffer; and when the sleep began the
index of the report data held exactly these data, all others what they held
before. -/
theorem getReportWithReportData_reads
    (hlaws : DeviceLaws esys newDeviceDirect view) (sleep : σ → σ)
    {rooms : Nat → Nat} (hrooms : ∀ turn, 0 < rooms turn)
    (reportData : Bytes) (state : σ) :
    (getReportWithReportData esys newDeviceDirect sleep rooms reportData
        state).1 ≠ .panic ∧
      ∀ bytes after,
        getReportWithReportData esys newDeviceDirect sleep rooms reportData
          state = (.ok bytes, after) →
        ∃ ctx written data,
          RunsIn newDeviceDirect
            (reportWithReportData esys sleep rooms reportData) state bytes
            ctx ∧
          Written view reportData state written ∧
          (view (sleep written)).contents hclReportHandle = some data ∧
          (view after).contents = (view (sleep written)).contents ∧
          bytes = if ctx.bufferSize = 0 then [] else data := by
  have hends := ends_reportWithReportData hlaws.toNvLaws sleep hrooms
    reportData
  obtain ⟨hpanic, hok⟩ := withSessionContext_ends hlaws (fun ctx =>
    (hends ctx).ne_panic) state
  refine ⟨hpanic, fun bytes after hrun => ?_⟩
  obtain ⟨ctx, hruns, hafter⟩ := hok bytes after hrun
  obtain ⟨opened, hopened, hbody⟩ := hruns.exists_opened hlaws
  obtain ⟨written, hwritten, hcontents, -, data, hdata, hbytes⟩ :=
    (ends_iff.mp (hends _)).2.1 bytes ctx hbody
  refine ⟨ctx, written, data, hruns, ?_, hdata, hafter.trans hcontents,
    hbytes⟩
  rw [Written, NvView.set, ← hopened]
  exact hwritten

end Device

/-- The report of the example repeats the report data. -/
def repeating (memory : Memory) : Memory :=
  memory.insert hclReportHandle ((memory.get? reportDataHandle).getD [])

theorem plainDeviceLaws :
    DeviceLaws plainEsys (Command.ret ()) Memory.view where
  toNvLaws := plainLaws
  newDeviceDirect _ := rfl
  flushContext _ _ := rfl

theorem getReportWithReportData_reads_repeating :
    (getReportWithReportData plainEsys (Command.ret ()) repeating
        (fun _ => 32) [7, 8] NvReaderWriter.fiveContext.esysContext).1 =
      .ok [7, 8] ∧
    (getReportWithReportData plainEsys (Command.ret ()) repeating
        (fun _ => 32) [7, 8] NvReaderWriter.fiveContext.esysContext).1 ≠
      .panic ∧
    ∀ bytes after,
      getReportWithReportData plainEsys (Command.ret ()) repeating
        (fun _ => 32) [7, 8] NvReaderWriter.fiveContext.esysContext =
          (.ok bytes, after) →
      ∃ ctx written data,
        RunsIn (Command.ret ()) (reportWithReportData plainEsys repeating
          (fun _ => 32) [7, 8]) NvReaderWriter.fiveContext.esysContext bytes
          ctx ∧
        Written Memory.view [7, 8] NvReaderWriter.fiveContext.esysContext
          written ∧
        (Memory.view (repeating written)).contents hclReportHandle =
          some data ∧
        (Memory.view after).contents =
          (Memory.view (repeating written)).contents ∧
        bytes = if ctx.bufferSize = 0 then [] else data :=
  ⟨by decide +kernel, getReportWithReportData_reads plainDeviceLaws repeating
    (fun _ => by decide) [7, 8] NvReaderWriter.fiveContext.esysContext⟩

end Reflected

end Vtpm

end Kettle
