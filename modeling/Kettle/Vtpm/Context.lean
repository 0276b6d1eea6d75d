/-
The connection to a TPM.  The library below keeps objects under handles of
its own; the context remembers which of them are open and how each is
released, the sessions that commands are sent with, and properties of the TPM
that it has asked for before.
-/
import Kettle.Lib.AssocMap
import Kettle.Lib.Command
import Kettle.Lib.FixedFile
import Kettle.Vtpm.PcrSlots

namespace Kettle

namespace Vtpm

inductive HandleDropAction where
  | close
  | flush
deriving DecidableEq, Repr

/-- `ESYS_TR_NONE`. -/
def esysTrNone : UInt32 := 4095

/-- `ESYS_TR_RH_NULL`. -/
def esysTrRhNull : UInt32 := 263

structure HandleManager where
  openHandles : AssocMap UInt32 HandleDropAction

namespace HandleManager

def new : HandleManager := ⟨.empty⟩

/-- Whether a handle may be kept, and released with this action. -/
def checkHandle (manager : HandleManager) (handle : UInt32)
    (action : HandleDropAction) : Except Error Unit :=
  if handle = esysTrNone ∨ handle = esysTrRhNull then
    .error (.wrapper .invalidParam)
  else
    match manager.openHandles.get? handle with
    | some stored =>
        if action ≠ stored then .error (.wrapper .inconsistentParams)
        else .ok ()
    | none => .ok ()

def addHandle (handle : UInt32) (action : HandleDropAction) :
    Command Error HandleManager Unit := do
  let manager ← Command.read
  Command.ofExcept (manager.checkHandle handle action)
  Command.update fun manager => ⟨manager.openHandles.insert handle action⟩

/-- The handle is no longer open, also when it was to be released in the
other way. -/
def setAs (action : HandleDropAction) (handle : UInt32) :
    Command Error HandleManager Unit := do
  let manager ← Command.read
  Command.update fun manager =>
    ⟨manager.openHandles.filterKeys fun key => key ≠ handle⟩
  match manager.openHandles.get? handle with
  | none => Command.fail (.wrapper .invalidHandleState)
  | some stored =>
      if stored = action then Command.ret ()
      else Command.fail (.wrapper .invalidHandleState)

def setAsFlushed (handle : UInt32) : Command Error HandleManager Unit :=
  setAs .flush handle

def setAsClosed (handle : UInt32) : Command Error HandleManager Unit :=
  setAs .close handle

def handlesTo (action : HandleDropAction) (manager : HandleManager) :
    List UInt32 :=
  manager.openHandles.entries.filterMap fun entry =>
    if entry.2 = action then some entry.1 else none

def hasOpenHandles (manager : HandleManager) : Bool :=
  !manager.openHandles.entries.isEmpty

end HandleManager

inductive AuthSession where
  | hmacSession (handle : UInt32)
  | policySession (handle : UInt32)
  | password
deriving DecidableEq, Repr

abbrev Sessions :=
  Option AuthSession × Option AuthSession × Option AuthSession

inductive NvAuth where
  | platform
  | owner
  | nvIndex (handle : UInt32)
deriving DecidableEq, Repr

inductive Provision where
  | owner
  | platform
deriving DecidableEq, Repr

/-- The kind of a handle is its most significant byte. -/
def handleKind (handle : UInt32) : Nat := handle.toNat / 2 ^ 24

/-- `TPM2_HT_NV_INDEX`. -/
def nvIndexKind : Nat := 1

/-- Sessions and transient objects are flushed, all others closed. -/
def mayBeFlushed (tpmHandle : UInt32) : Bool :=
  handleKind tpmHandle == 0x02 || handleKind tpmHandle == 0x80

/-- A handle of an NV index in the TPM. -/
structure NvIndexTpmHandle where
  value : UInt32
  kind : handleKind value = nvIndexKind
deriving DecidableEq

namespace NvIndexTpmHandle

def new (value : UInt32) : Except Error NvIndexTpmHandle :=
  if kind : handleKind value = nvIndexKind then .ok ⟨value, kind⟩
  else .error (.wrapper .invalidParam)

end NvIndexTpmHandle

namespace NvIndexAttributes

/-- The bits of the attributes that are looked at or set. -/
def ownerWrite : Fin 32 := 1

def ownerRead : Fin 32 := 17

def noDa : Fin 32 := 25

def reads : List (Fin 32) := [16, 17, 18, 19]

def writes : List (Fin 32) := [0, 1, 2, 3]

/-- `TPM2_NT_PIN_FAIL`, and the values of all types. -/
def pinFail : Nat := 8

def indexTypes : List Nat := [0, 1, 2, 4, 8, 9]

def indexType (attributes : BitVec 32) : Except Error Nat :=
  let value := attributes.toNat / 2 ^ 4 % 2 ^ 4
  if value ∈ indexTypes then .ok value else .error (.wrapper .invalidParam)

def validate (attributes : BitVec 32) : Except Error Unit := do
  if !reads.any (BitFlags.isSet attributes) then
    .error (.wrapper .paramsMissing)
  if !writes.any (BitFlags.isSet attributes) then
    .error (.wrapper .paramsMissing)
  let kind ← indexType attributes
  if kind = pinFail ∧ !BitFlags.isSet attributes noDa then
    .error (.wrapper .paramsMissing)
  else .ok ()

/-- Those of an index for report data. -/
def ofOwner : BitVec 32 := BitFlags.ofPositions [ownerWrite, ownerRead]

end NvIndexAttributes

/-- `u16::MAX`. -/
def nvIndexMax : Nat := 2 ^ 16 - 1

structure NvPublic where
  nvIndex : NvIndexTpmHandle
  nameAlgorithm : HashingAlgorithm
  attributes : BitVec 32
  authorizationPolicy : Bytes
  dataSize : Nat
  dataSize_le : dataSize ≤ nvIndexMax

/-- `CapabilityType`, of those that are asked for. -/
inductive CapabilityType where
  | handles
  | tpmProperties
deriving DecidableEq, Repr

inductive CapabilityData where
  | handles (handles : List UInt32)
  | tpmProperties (properties : List (UInt32 × UInt32))
  | other
deriving DecidableEq, Repr

/-- The library below, over its own state and that of the TPM. -/
structure Esys (σ : Type) where
  trFromTpmPublic : Sessions → UInt32 → Command Error σ UInt32
  trClose : UInt32 → Command Error σ Unit
  flushContext : UInt32 → Command Error σ Unit
  getCapability : Sessions → CapabilityType → UInt32 → UInt32 →
    Command Error σ (CapabilityData × Bool)
  nvDefineSpace : Sessions → Provision → Bytes → NvPublic →
    Command Error σ UInt32
  nvUndefineSpace : Sessions → Provision → UInt32 → Command Error σ Unit
  nvReadPublic : Sessions → UInt32 → Command Error σ (NvPublic × Bytes)
  nvRead : Sessions → NvAuth → UInt32 → UInt16 → UInt16 →
    Command Error σ Bytes
  nvWrite : Sessions → NvAuth → UInt32 → Bytes → UInt16 →
    Command Error σ Unit

structure Context (σ : Type) where
  esysContext : σ
  sessions : Sessions
  handleManager : HandleManager
  cachedTpmProperties : AssocMap UInt32 UInt32

/-- `MaxNvBuffer::MAX_SIZE`. -/
def maxNvBufferMaxSize : Nat := 2048

/-- `MaxNvBuffer::try_from`. -/
def maxNvBuffer (bytes : Bytes) : Except Error Bytes :=
  if maxNvBufferMaxSize < bytes.length then
    .error (.wrapper .wrongParamSize)
  else .ok bytes

namespace Context

variable {σ α : Type}

def onEsys (cmd : Command Error σ α) : Command Error (Context σ) α :=
  cmd.zoom Context.esysContext fun ctx esysContext =>
    { ctx with esysContext := esysContext }

def onHandles (cmd : Command Error HandleManager α) :
    Command Error (Context σ) α :=
  cmd.zoom Context.handleManager fun ctx handleManager =>
    { ctx with handleManager := handleManager }

def setSessions (sessions : Sessions) (ctx : Context σ) : Context σ :=
  { ctx with sessions := sessions }

def executeWithSessions (sessions : Sessions)
    (f : Command Error (Context σ) α) : Command Error (Context σ) α :=
  fun ctx =>
    match f (ctx.setSessions sessions) with
    | (res, after) => (res, after.setSessions ctx.sessions)

def executeWithoutSession (f : Command Error (Context σ) α) :
    Command Error (Context σ) α :=
  executeWithSessions (none, none, none) f

variable (esys : Esys σ)

def trFromTpmPublic (tpmHandle : UInt32) :
    Command Error (Context σ) UInt32 := do
  let ctx ← Command.read
  let object ← onEsys (esys.trFromTpmPublic ctx.sessions tpmHandle)
  onHandles (HandleManager.addHandle object
    (if mayBeFlushed tpmHandle then .flush else .close))
  Command.ret object

def trClose (object : UInt32) : Command Error (Context σ) Unit := do
  if object = esysTrNone then Command.fail (.wrapper .invalidParam)
  else
    onEsys (esys.trClose object)
    onHandles (HandleManager.setAsClosed object)

def flushContext (object : UInt32) : Command Error (Context σ) Unit := do
  if object = esysTrNone then Command.fail (.wrapper .invalidParam)
  else
    onEsys (esys.flushContext object)
    onHandles (HandleManager.setAsFlushed object)

def getCapability (capability : CapabilityType) (property count : UInt32) :
    Command Error (Context σ) (CapabilityData × Bool) := do
  let ctx ← Command.read
  onEsys (esys.getCapability ctx.sessions capability property count)

def nvDefineSpace (nvAuth : Provision) (auth : Option Bytes)
    (publicInfo : NvPublic) : Command Error (Context σ) UInt32 := do
  let ctx ← Command.read
  -- the attributes are checked when they are made those of the library
  Command.ofExcept (NvIndexAttributes.validate publicInfo.attributes)
  let nvHandle ← onEsys (esys.nvDefineSpace ctx.sessions nvAuth
    (auth.getD []) publicInfo)
  onHandles (HandleManager.addHandle nvHandle .close)
  Command.ret nvHandle

def nvUndefineSpace (nvAuth : Provision) (nvIndex : UInt32) :
    Command Error (Context σ) Unit := do
  let ctx ← Command.read
  onEsys (esys.nvUndefineSpace ctx.sessions nvAuth nvIndex)
  onHandles (HandleManager.setAsClosed nvIndex)

def nvReadPublic (nvIndex : UInt32) :
    Command Error (Context σ) (NvPublic × Bytes) := do
  let ctx ← Command.read
  onEsys (esys.nvReadPublic ctx.sessions nvIndex)

def nvRead (auth : NvAuth) (nvIndex : UInt32) (size offset : UInt16) :
    Command Error (Context σ) Bytes := do
  let ctx ← Command.read
  let data ← onEsys (esys.nvRead ctx.sessions auth nvIndex size offset)
  Command.ofExcept (maxNvBuffer data)

def nvWrite (auth : NvAuth) (nvIndex : UInt32) (data : Bytes)
    (offset : UInt16) : Command Error (Context σ) Unit := do
  let ctx ← Command.read
  onEsys (esys.nvWrite ctx.sessions auth nvIndex data offset)

def cacheProperties (props : List (UInt32 × UInt32)) (ctx : Context σ) :
    Context σ :=
  let cached := props.foldl
    (fun cached prop => cached.insert prop.1 prop.2) ctx.cachedTpmProperties
  { ctx with cachedTpmProperties := cached }

/-- A property that is not in the answer is not there. -/
def getTpmProperty (property : UInt32) :
    Command Error (Context σ) (Option UInt32) := do
  let ctx ← Command.read
  match ctx.cachedTpmProperties.get? property with
  | some value => Command.ret (some value)
  | none =>
      let capability ← executeWithoutSession
        (getCapability esys .tpmProperties property 4)
      match capability.1 with
      | .tpmProperties props =>
          Command.update (cacheProperties props)
          let ctx ← Command.read
          Command.ret (ctx.cachedTpmProperties.get? property)
      | _ => Command.fail (.wrapper .wrongValueFromTpm)

/-- `Drop for Context`: every open handle is released in its own way, and an
error is only logged. -/
def drop : Command Error (Context σ) Bool := do
  let ctx ← Command.read
  let _ ← Command.forEach (fun handle => (flushContext esys handle).attempt)
    (ctx.handleManager.handlesTo .flush)
  let ctx ← Command.read
  let _ ← Command.forEach (fun handle => (trClose esys handle).attempt)
    (ctx.handleManager.handlesTo .close)
  let ctx ← Command.read
  Command.ret ctx.handleManager.hasOpenHandles

end Context

/-- The NV indices with their data, and those that open handles are for. -/
structure NvView where
  contents : NvIndexTpmHandle → Option Bytes
  refers : UInt32 → Option NvIndexTpmHandle

/-- The data areas after one of them has changed. -/
def NvView.set (view : NvView) (index : NvIndexTpmHandle)
    (data : Option Bytes) : NvIndexTpmHandle → Option Bytes :=
  Function.update view.contents index data

section Laws

variable {σ : Type}

/-- What the commands are documented to do with the indices when they
succeed; a command that fails leaves their data. -/
structure NvLaws (esys : Esys σ) (view : σ → NvView) : Prop where
  trFromTpmPublic (sessions : Sessions) (index : NvIndexTpmHandle)
    (state : σ) : (esys.trFromTpmPublic sessions index.value).Ends state
      (fun object after => (view after).contents = (view state).contents ∧
        (view after).refers object = some index)
      (fun _ after => (view after).contents = (view state).contents)
  trClose (object : UInt32) (state : σ) : (esys.trClose object).Ends state
    (fun _ after => (view after).contents = (view state).contents)
    (fun _ after => (view after).contents = (view state).contents)
  getCapability (sessions : Sessions) (capability : CapabilityType)
    (property count : UInt32) (state : σ) :
    (esys.getCapability sessions capability property count).Ends state
      (fun _ after => (view after).contents = (view state).contents)
      (fun _ after => (view after).contents = (view state).contents)
  nvDefineSpace (sessions : Sessions) (nvAuth : Provision) (auth : Bytes)
    (publicInfo : NvPublic) (state : σ) :
    (esys.nvDefineSpace sessions nvAuth auth publicInfo).Ends state
      (fun object after =>
        (view state).contents publicInfo.nvIndex = none ∧
        (view after).refers object = some publicInfo.nvIndex ∧
        ∃ data : Bytes, data.length = publicInfo.dataSize ∧
          (view after).contents =
            (view state).set publicInfo.nvIndex (some data))
      (fun _ after => (view after).contents = (view state).contents)
  nvUndefineSpace (sessions : Sessions) (nvAuth : Provision)
    {object : UInt32} {index : NvIndexTpmHandle} {state : σ}
    (hrefers : (view state).refers object = some index) :
    (esys.nvUndefineSpace sessions nvAuth object).Ends state
      (fun _ after => (view after).contents = (view state).set index none)
      (fun _ after => (view after).contents = (view state).contents)
  nvReadPublic (sessions : Sessions) {object : UInt32}
    {index : NvIndexTpmHandle} {state : σ}
    (hrefers : (view state).refers object = some index) :
    (esys.nvReadPublic sessions object).Ends state
      (fun value after => view after = view state ∧
        value.1.nvIndex = index ∧ ∃ data,
          (view state).contents index = some data ∧
          data.length = value.1.dataSize)
      (fun _ after => (view after).contents = (view state).contents)
  nvRead (sessions : Sessions) (auth : NvAuth) (size offset : UInt16)
    {object : UInt32} {index : NvIndexTpmHandle} {data : Bytes} {state : σ}
    (hrefers : (view state).refers object = some index)
    (hdata : (view state).contents index = some data) :
    (esys.nvRead sessions auth object size offset).Ends state
      (fun read after => view after = view state ∧
        offset.toNat + size.toNat ≤ data.length ∧
        read = data.slice offset.toNat size.toNat)
      (fun _ after => view after = view state)
  nvWrite (sessions : Sessions) (auth : NvAuth) (written : Bytes)
    (offset : UInt16) {object : UInt32} {index : NvIndexTpmHandle}
    {data : Bytes} {state : σ}
    (hrefers : (view state).refers object = some index)
    (hdata : (view state).contents index = some data) :
    (esys.nvWrite sessions auth object written offset).Ends state
      (fun _ after => (view after).refers = (view state).refers ∧
        offset.toNat + written.length ≤ data.length ∧
        (view after).contents = (view state).set index
          (some (data.splice offset.toNat written)))
      (fun _ after => view after = view state)

end Laws

section Plain

open Command

/-- The indices of a TPM in memory, whose handles the library takes over. -/
abbrev Memory := AssocMap NvIndexTpmHandle Bytes

def Memory.view (memory : Memory) : NvView where
  contents := memory.get?
  refers object := (NvIndexTpmHandle.new object).toOption

variable {α : Type}

/-- `TPM2_RC_HANDLE`, for a handle of no index. -/
def rcHandle : Error := .tss2 0x18b

/-- `TPM2_RC_NV_RANGE`. -/
def rcNvRange : Error := .tss2 0x146

/-- `TPM2_RC_NV_DEFINED`. -/
def rcNvDefined : Error := .tss2 0x14c

def withIndex (object : UInt32)
    (cmd : NvIndexTpmHandle → Bytes → Command Error Memory α) :
    Command Error Memory α := fun memory =>
  match NvIndexTpmHandle.new object with
  | .error error => (.err error, memory)
  | .ok index =>
      match memory.get? index with
      | none => (.err rcHandle, memory)
      | some data => cmd index data memory

def plainEsys : Esys Memory where
  trFromTpmPublic _ tpmHandle :=
    withIndex tpmHandle fun _ _ => Command.ret tpmHandle
  trClose _ := Command.ret ()
  flushContext _ := Command.ret ()
  getCapability _ capability _ _ := do
    let memory ← Command.read
    match capability with
    | .handles =>
        Command.ret (.handles (memory.entries.map (·.1.value)), false)
    | .tpmProperties => Command.ret (.tpmProperties [], false)
  nvDefineSpace _ _ _ publicInfo := do
    let memory ← Command.read
    if (memory.get? publicInfo.nvIndex).isSome then Command.fail rcNvDefined
    else
      Command.update fun memory => memory.insert publicInfo.nvIndex
        (List.replicate publicInfo.dataSize 0xff)
      Command.ret publicInfo.nvIndex.value
  nvUndefineSpace _ _ object := withIndex object fun index _ =>
    Command.update fun memory => memory.filterKeys fun key => key ≠ index
  nvReadPublic _ object := withIndex object fun index data =>
    if dataSize_le : data.length ≤ nvIndexMax then
      Command.ret (⟨index, .sha256, NvIndexAttributes.ofOwner, [],
        data.length, dataSize_le⟩, [])
    else Command.fail rcNvRange
  nvRead _ _ object size offset := withIndex object fun _ data =>
    if offset.toNat + size.toNat ≤ data.length then
      Command.ret (data.slice offset.toNat size.toNat)
    else Command.fail rcNvRange
  nvWrite _ _ object written offset := withIndex object fun index data =>
    if offset.toNat + written.length ≤ data.length then
      Command.update fun memory =>
        memory.insert index (data.splice offset.toNat written)
    else Command.fail rcNvRange

theorem new_value (index : NvIndexTpmHandle) :
    NvIndexTpmHandle.new index.value = .ok index :=
  dif_pos index.kind

theorem contents_insert (memory : Memory) (index : NvIndexTpmHandle)
    (data : Bytes) : (Memory.view (memory.insert index data)).contents =
      (Memory.view memory).set index (some data) := by
  funext other
  refine (AssocMap.get?_insert memory index other data).trans ?_
  by_cases hother : other = index
  · rw [hother, if_pos rfl, NvView.set, Function.update_self]
  · rw [if_neg (Ne.symm hother), NvView.set, Function.update_of_ne hother]
    rfl

theorem contents_filterKeys (memory : Memory) (index : NvIndexTpmHandle) :
    (Memory.view (memory.filterKeys fun key => key ≠ index)).contents =
      (Memory.view memory).set index none := by
  funext other
  refine (AssocMap.get?_filterKeys memory _ other).trans ?_
  by_cases hother : other = index
  · rw [hother, if_neg (by simp), NvView.set, Function.update_self]
  · rw [if_pos (by simpa using hother), NvView.set,
      Function.update_of_ne hother]
    rfl

theorem ends_withIndex {object : UInt32} {index : NvIndexTpmHandle}
    {memory : Memory}
    {cmd : NvIndexTpmHandle → Bytes → Command Error Memory α}
    {post : α → Memory → Prop} {failed : Error → Memory → Prop}
    (hrefers : (Memory.view memory).refers object = some index)
    (hcmd : ∀ data, memory.get? index = some data →
      (cmd index data).Ends memory post failed)
    (hfailed : failed rcHandle memory) :
    (withIndex object cmd).Ends memory post failed := by
  have hnew : NvIndexTpmHandle.new object = .ok index := by
    change (NvIndexTpmHandle.new object).toOption = some index at hrefers
    cases hnew : NvIndexTpmHandle.new object with
    | error error =>
        rw [hnew] at hrefers
        cases hrefers
    | ok found =>
        rw [hnew] at hrefers
        cases hrefers
        rfl
  unfold Ends withIndex
  rw [hnew]
  dsimp only
  cases hdata : memory.get? index with
  | none => exact hfailed
  | some data => exact hcmd data hdata

/-- A TPM in memory does what is documented. -/
theorem plainLaws : NvLaws plainEsys Memory.view where
  trFromTpmPublic sessions index memory := by
    have hrefers : (Memory.view memory).refers index.value = some index :=
      congrArg Except.toOption (new_value index)
    exact ends_withIndex hrefers (fun data _ => ⟨rfl, hrefers⟩) rfl
  trClose object memory := rfl
  getCapability sessions capability property count memory := by
    cases capability with
    | handles => exact rfl
    | tpmProperties => exact rfl
  nvDefineSpace sessions nvAuth auth publicInfo memory := by
    unfold plainEsys
    dsimp only
    rw [ends_bind, ends_read]
    split
    · exact rfl
    · rename_i hnone
      exact ⟨Option.not_isSome_iff_eq_none.mp hnone,
        congrArg Except.toOption (new_value publicInfo.nvIndex),
        _, List.length_replicate, contents_insert memory _ _⟩
  nvUndefineSpace sessions nvAuth _ _ _ hrefers :=
    ends_withIndex hrefers (fun _ _ => contents_filterKeys _ _) rfl
  nvReadPublic sessions _ _ _ hrefers := by
    refine ends_withIndex hrefers (fun data hdata => ?_) rfl
    split
    · exact ⟨rfl, rfl, data, hdata, rfl⟩
    · exact rfl
  nvRead sessions auth size offset _ _ _ _ hrefers hdata := by
    refine ends_withIndex hrefers (fun data hdata' => ?_) rfl
    cases hdata.symm.trans hdata'
    split
    · exact ⟨rfl, ‹_›, rfl⟩
    · exact rfl
  nvWrite sessions auth written offset _ _ _ _ hrefers hdata := by
    refine ends_withIndex hrefers (fun data hdata' => ?_) rfl
    cases hdata.symm.trans hdata'
    split
    · exact ⟨rfl, ‹_›, contents_insert _ _ _⟩
    · exact rfl

end Plain

namespace Context

variable {σ α : Type} {esys : Esys σ} {view : σ → NvView}

/-- The indices have their data, and commands are sent with the sessions of
before. -/
structure KeepsIndices (view : σ → NvView) (before after : Context σ) :
    Prop where
  contents : (view after.esysContext).contents =
    (view before.esysContext).contents
  sessions : after.sessions = before.sessions

structure Keeps (view : σ → NvView) (before after : Context σ) : Prop
    extends KeepsIndices view before after where
  properties : after.cachedTpmProperties = before.cachedTpmProperties

theorem KeepsIndices.trans {first second third : Context σ}
    (hfirst : KeepsIndices view first second)
    (hsecond : KeepsIndices view second third) :
    KeepsIndices view first third :=
  ⟨hsecond.contents.trans hfirst.contents,
    hsecond.sessions.trans hfirst.sessions⟩

theorem Keeps.refl (ctx : Context σ) : Keeps view ctx ctx :=
  ⟨⟨rfl, rfl⟩, rfl⟩

theorem Keeps.trans {first second third : Context σ}
    (hfirst : Keeps view first second) (hsecond : Keeps view second third) :
    Keeps view first third :=
  ⟨hfirst.toKeepsIndices.trans hsecond.toKeepsIndices,
    hsecond.properties.trans hfirst.properties⟩

section Rules

open Command

variable {ctx : Context σ}

theorem ends_onEsys {cmd : Command Error σ α} {post : α → Context σ → Prop}
    {failed : Error → Context σ → Prop} :
    (onEsys cmd).Ends ctx post failed ↔
      cmd.Ends ctx.esysContext
        (fun value esysContext =>
          post value { ctx with esysContext := esysContext })
        (fun error esysContext =>
          failed error { ctx with esysContext := esysContext }) :=
  ends_zoom

/-- What the manager of the handles says of a handle is about no more than
the handles. -/
theorem ends_onHandles {cmd : Command Error HandleManager Unit}
    {post : Unit → Context σ → Prop} {failed : Error → Context σ → Prop}
    (hcmd : ∀ manager, (cmd manager).1 ≠ .panic)
    (hpost : ∀ manager, post () { ctx with handleManager := manager })
    (hfailed : ∀ error manager,
      failed error { ctx with handleManager := manager }) :
    (onHandles cmd).Ends ctx post failed := by
  unfold onHandles
  rw [ends_zoom, Ends]
  have hmanager := hcmd ctx.handleManager
  cases hended : cmd ctx.handleManager with
  | mk outcome manager =>
      rw [hended] at hmanager
      cases outcome with
      | ok value => exact hpost manager
      | err error => exact hfailed error manager
      | panic => exact hmanager rfl

theorem addHandle_ne_panic (handle : UInt32) (action : HandleDropAction)
    (manager : HandleManager) :
    (HandleManager.addHandle handle action manager).1 ≠ .panic := by
  have hends : (HandleManager.addHandle handle action).Ends manager
      (fun _ _ => True) (fun _ _ => True) := by
    simp only [HandleManager.addHandle, ends_bind, ends_read, ends_ofExcept]
    split
    · trivial
    · trivial
  exact hends.ne_panic

theorem setAs_ne_panic (action : HandleDropAction) (handle : UInt32)
    (manager : HandleManager) :
    (HandleManager.setAs action handle manager).1 ≠ .panic := by
  have hends : (HandleManager.setAs action handle).Ends manager
      (fun _ _ => True) (fun _ _ => True) := by
    simp only [HandleManager.setAs, ends_bind, ends_read, ends_update]
    split
    · trivial
    · split
      · trivial
      · trivial
  exact hends.ne_panic

/-- Without sessions, what a command keeps is kept, and the sessions are
those of before. -/
theorem ends_executeWithSessions {sessions : Sessions}
    {f : Command Error (Context σ) α} {post : α → Context σ → Prop}
    {failed : Error → Context σ → Prop} :
    (executeWithSessions sessions f).Ends ctx post failed ↔
      f.Ends (ctx.setSessions sessions)
        (fun value after => post value (after.setSessions ctx.sessions))
        (fun error after => failed error (after.setSessions ctx.sessions)) := by
  unfold Ends executeWithSessions
  match f (ctx.setSessions sessions) with
  | (.ok value, after) => exact Iff.rfl
  | (.err error, after) => exact Iff.rfl
  | (.panic, after) => exact Iff.rfl

/-- A command that keeps what the context has does so without sessions, and
leaves the indices in the same way. -/
theorem ends_executeWithoutSession {f : Command Error (Context σ) α}
    (post : α → NvView → Prop)
    (hf : ∀ ctx : Context σ, view ctx.esysContext = nvView → f.Ends ctx
      (fun value after => Keeps view ctx after ∧
        post value (view after.esysContext))
      (fun _ after => Keeps view ctx after))
    (hview : view ctx.esysContext = nvView) :
    (executeWithoutSession f).Ends ctx
      (fun value after => Keeps view ctx after ∧
        post value (view after.esysContext))
      (fun _ after => Keeps view ctx after) := by
  unfold executeWithoutSession
  rw [ends_executeWithSessions]
  exact (hf (ctx.setSessions (none, none, none)) hview).mono
    (fun value after hvalue =>
      ⟨⟨⟨hvalue.1.contents, rfl⟩, hvalue.1.properties⟩, hvalue.2⟩)
    (fun _ after hkeeps => ⟨⟨hkeeps.contents, rfl⟩, hkeeps.properties⟩)

theorem ends_trFromTpmPublic (hlaws : NvLaws esys view)
    (index : NvIndexTpmHandle) :
    (trFromTpmPublic esys index.value).Ends ctx
      (fun object after => Keeps view ctx after ∧
        (view after.esysContext).refers object = some index)
      (fun _ after => Keeps view ctx after) := by
  unfold trFromTpmPublic
  rw [ends_bind, ends_read, ends_bind, ends_onEsys]
  refine (hlaws.trFromTpmPublic ctx.sessions index ctx.esysContext).mono
    (fun object after hobject => ?_) (fun _ after hfailed => ⟨⟨hfailed, rfl⟩, rfl⟩)
  rw [ends_bind]
  exact ends_onHandles (addHandle_ne_panic _ _)
    (fun manager => ⟨⟨⟨hobject.1, rfl⟩, rfl⟩, hobject.2⟩)
    (fun _ manager => ⟨⟨hobject.1, rfl⟩, rfl⟩)

theorem ends_trClose (hlaws : NvLaws esys view)
    (object : UInt32) :
    (trClose esys object).Finishes ctx fun after => Keeps view ctx after := by
  unfold trClose Finishes
  split
  · exact Keeps.refl ctx
  · rw [ends_bind, ends_onEsys]
    refine (hlaws.trClose object ctx.esysContext).mono
      (fun _ after hclosed => ?_) (fun _ after hfailed => ⟨⟨hfailed, rfl⟩, rfl⟩)
    exact ends_onHandles (setAs_ne_panic _ _)
      (fun manager => ⟨⟨hclosed, rfl⟩, rfl⟩) (fun _ manager => ⟨⟨hclosed, rfl⟩, rfl⟩)

theorem ends_getCapability (hlaws : NvLaws esys view)
    (capability : CapabilityType)
    (property count : UInt32) :
    (getCapability esys capability property count).Ends ctx
      (fun _ after => Keeps view ctx after)
      (fun _ after => Keeps view ctx after) := by
  unfold getCapability
  rw [ends_bind, ends_read, ends_onEsys]
  exact (hlaws.getCapability ctx.sessions capability property count
    ctx.esysContext).mono (fun _ _ hkept => ⟨⟨hkept, rfl⟩, rfl⟩)
    (fun _ _ hkept => ⟨⟨hkept, rfl⟩, rfl⟩)

theorem ends_nvReadPublic (hlaws : NvLaws esys view)
    {object : UInt32} {index : NvIndexTpmHandle}
    (hrefers : (view ctx.esysContext).refers object = some index) :
    (nvReadPublic esys object).Ends ctx
      (fun value after => Keeps view ctx after ∧
        (view after.esysContext).refers = (view ctx.esysContext).refers ∧
        value.1.nvIndex = index ∧ ∃ data,
          (view ctx.esysContext).contents index = some data ∧
          data.length = value.1.dataSize)
      (fun _ after => Keeps view ctx after) := by
  unfold nvReadPublic
  rw [ends_bind, ends_read, ends_onEsys]
  refine (hlaws.nvReadPublic ctx.sessions hrefers).mono
    (fun value after hvalue => ?_) (fun _ _ hfailed => ⟨⟨hfailed, rfl⟩, rfl⟩)
  obtain ⟨hsame, hindex, hdata⟩ := hvalue
  exact ⟨⟨⟨congrArg NvView.contents hsame, rfl⟩, rfl⟩,
    congrArg NvView.refers hsame, hindex, hdata⟩

/-- The result of one read, which is also not longer than a buffer. -/
theorem ends_nvRead (hlaws : NvLaws esys view)
    {auth : NvAuth} {object : UInt32} {size offset : UInt16}
    {index : NvIndexTpmHandle} {data : Bytes}
    (hrefers : (view ctx.esysContext).refers object = some index)
    (hdata : (view ctx.esysContext).contents index = some data) :
    (nvRead esys auth object size offset).Ends ctx
      (fun read after => Keeps view ctx after ∧
        (view after.esysContext).refers = (view ctx.esysContext).refers ∧
        offset.toNat + size.toNat ≤ data.length ∧
        read = data.slice offset.toNat size.toNat)
      (fun _ after => Keeps view ctx after ∧
        (view after.esysContext).refers =
          (view ctx.esysContext).refers) := by
  unfold nvRead
  rw [ends_bind, ends_read, ends_bind, ends_onEsys]
  refine (hlaws.nvRead ctx.sessions auth size offset hrefers hdata).mono
    (fun read after hread => ?_) (fun _ after hsame =>
      ⟨⟨⟨congrArg NvView.contents hsame, rfl⟩, rfl⟩, congrArg NvView.refers hsame⟩)
  obtain ⟨hsame, hinside, hslice⟩ := hread
  have hkeeps : Keeps view ctx { ctx with esysContext := after } :=
    ⟨⟨congrArg NvView.contents hsame, rfl⟩, rfl⟩
  rw [ends_ofExcept]
  unfold maxNvBuffer
  split
  · split at *
    · cases ‹Except.error _ = Except.ok _›
    · cases ‹Except.ok _ = Except.ok _›
      exact ⟨hkeeps, congrArg NvView.refers hsame, hinside, hslice⟩
  · exact ⟨hkeeps, congrArg NvView.refers hsame⟩

theorem ends_nvWrite (hlaws : NvLaws esys view) {auth : NvAuth}
    {object : UInt32} {written : Bytes} {offset : UInt16}
    {index : NvIndexTpmHandle} {data : Bytes}
    (hrefers : (view ctx.esysContext).refers object = some index)
    (hdata : (view ctx.esysContext).contents index = some data) :
    (nvWrite esys auth object written offset).Ends ctx
      (fun _ after => after.sessions = ctx.sessions ∧
        after.cachedTpmProperties = ctx.cachedTpmProperties ∧
        (view after.esysContext).refers = (view ctx.esysContext).refers ∧
        offset.toNat + written.length ≤ data.length ∧
        (view after.esysContext).contents = (view ctx.esysContext).set index
          (some (data.splice offset.toNat written)))
      (fun _ after => Keeps view ctx after ∧
        (view after.esysContext).refers =
          (view ctx.esysContext).refers) := by
  unfold nvWrite
  rw [ends_bind, ends_read, ends_onEsys]
  exact (hlaws.nvWrite ctx.sessions auth written offset hrefers hdata).mono
    (fun _ after hwritten => ⟨rfl, rfl, hwritten⟩) (fun _ after hsame =>
      ⟨⟨⟨congrArg NvView.contents hsame, rfl⟩, rfl⟩, congrArg NvView.refers hsame⟩)

/-- An index that is defined but whose handle is refused stays defined. -/
theorem ends_nvDefineSpace (hlaws : NvLaws esys view) {nvAuth : Provision}
    {auth : Option Bytes} {publicInfo : NvPublic} :
    (nvDefineSpace esys nvAuth auth publicInfo).Ends ctx
      (fun object after => after.sessions = ctx.sessions ∧
        (view ctx.esysContext).contents publicInfo.nvIndex = none ∧
        (view after.esysContext).refers object = some publicInfo.nvIndex ∧
        ∃ data : Bytes, data.length = publicInfo.dataSize ∧
          (view after.esysContext).contents =
            (view ctx.esysContext).set publicInfo.nvIndex (some data))
      (fun _ after => after.sessions = ctx.sessions ∧
        (Keeps view ctx after ∨
          (view ctx.esysContext).contents publicInfo.nvIndex = none ∧
          ∃ data : Bytes, data.length = publicInfo.dataSize ∧
            (view after.esysContext).contents =
              (view ctx.esysContext).set publicInfo.nvIndex
                (some data))) := by
  unfold nvDefineSpace
  rw [ends_bind, ends_read, ends_bind, ends_ofExcept]
  split
  · rw [ends_bind, ends_onEsys]
    refine (hlaws.nvDefineSpace ctx.sessions nvAuth _ publicInfo
      ctx.esysContext).mono (fun object after hdefined => ?_)
      (fun _ after hfailed => ⟨rfl, .inl ⟨⟨hfailed, rfl⟩, rfl⟩⟩)
    rw [ends_bind]
    exact ends_onHandles (addHandle_ne_panic _ _)
      (fun manager => ⟨rfl, hdefined⟩)
      (fun _ manager => ⟨rfl, .inr ⟨hdefined.1, hdefined.2.2⟩⟩)
  · exact ⟨rfl, .inl (Keeps.refl ctx)⟩

theorem ends_nvUndefineSpace (hlaws : NvLaws esys view) {nvAuth : Provision}
    {object : UInt32} {index : NvIndexTpmHandle}
    (hrefers : (view ctx.esysContext).refers object = some index) :
    (nvUndefineSpace esys nvAuth object).Ends ctx
      (fun _ after => after.sessions = ctx.sessions ∧
        (view after.esysContext).contents =
          (view ctx.esysContext).set index none)
      (fun _ after => after.sessions = ctx.sessions ∧
        (Keeps view ctx after ∨ (view after.esysContext).contents =
          (view ctx.esysContext).set index none)) := by
  unfold nvUndefineSpace
  rw [ends_bind, ends_read, ends_bind, ends_onEsys]
  refine (hlaws.nvUndefineSpace ctx.sessions nvAuth hrefers).mono
    (fun _ after hgone => ?_)
    (fun _ after hfailed => ⟨rfl, .inl ⟨⟨hfailed, rfl⟩, rfl⟩⟩)
  exact ends_onHandles (setAs_ne_panic _ _) (fun manager => ⟨rfl, hgone⟩)
    (fun _ manager => ⟨rfl, .inr hgone⟩)

/-- The property is that of the cache afterwards. -/
theorem ends_getTpmProperty (hlaws : NvLaws esys view) (property : UInt32) :
    (getTpmProperty esys property).Ends ctx
      (fun value after => KeepsIndices view ctx after ∧
        after.cachedTpmProperties.get? property = value)
      (fun _ after => KeepsIndices view ctx after) := by
  unfold getTpmProperty
  rw [ends_bind, ends_read]
  split
  · exact ⟨(Keeps.refl ctx).toKeepsIndices, ‹_›⟩
  · unfold executeWithoutSession
    rw [ends_bind, ends_executeWithSessions]
    refine (ends_getCapability hlaws _ property 4).mono
      (fun capability after hkeeps => ?_)
      (fun _ after hkeeps => ⟨hkeeps.contents, rfl⟩)
    split
    · exact ⟨⟨hkeeps.contents, rfl⟩, rfl⟩
    · exact ⟨hkeeps.contents, rfl⟩

end Rules

end Context

end Vtpm

end Kettle
