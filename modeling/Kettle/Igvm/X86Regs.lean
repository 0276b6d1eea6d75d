/-
Initial register values and the two CPU contexts built from them.  The byte
layout of the contexts is the igvm crate's; only the field values are set here.
-/
import Kettle.Igvm.File

namespace Kettle

namespace Igvm

/-- `dpl` and the limit bits stay zero. -/
structure SegmentAttributes where
  accessed : Bool := true
  rw : Bool := false
  ce : Bool := false
  code : Bool := false
  system : Bool := true
  present : Bool := false
  avl : Bool := false
  long : Bool := false
  db : Bool := false
  granularity : Bool := false

def bit (flag : Bool) (position : UInt16) : UInt16 :=
  if flag then 1 <<< position else 0

def SegmentAttributes.toBits (attributes : SegmentAttributes) : UInt16 :=
  bit attributes.accessed 0 ||| bit attributes.rw 1 ||| bit attributes.ce 2 |||
    bit attributes.code 3 ||| bit attributes.system 4 |||
    bit attributes.present 7 ||| bit attributes.avl 12 |||
    bit attributes.long 13 ||| bit attributes.db 14 |||
    bit attributes.granularity 15

def SegmentAttributes.code16 : SegmentAttributes :=
  { rw := true, code := true, present := true }

def SegmentAttributes.data16 : SegmentAttributes :=
  { rw := true, code := false, present := true }

def SegmentAttributes.code32 : SegmentAttributes :=
  { rw := true, code := true, present := true, db := true,
    granularity := true }

def SegmentAttributes.data32 : SegmentAttributes :=
  { rw := true, code := false, present := true, db := true,
    granularity := true }

/-- The low four bits are the system segment type. -/
def SegmentAttributes.systemSegment (systype : UInt16) : SegmentAttributes :=
  { accessed := (systype &&& 1) != 0
    rw := (systype &&& 2) != 0
    ce := (systype &&& 4) != 0
    code := (systype &&& 8) != 0
    system := false
    present := true }

def SegmentAttributes.tss16 : SegmentAttributes := .systemSegment 0x03

def SegmentAttributes.tss3264 : SegmentAttributes := .systemSegment 0x0b

structure SegmentRegister where
  base : UInt64
  limit : UInt32
  selector : UInt16
  attributes : UInt16
deriving DecidableEq, Repr

structure TableRegister where
  base : UInt64
  limit : UInt16
deriving DecidableEq, Repr

/-- The registers that are ever set. -/
inductive X86Register where
  | rip (value : UInt64)
  | cr0 (value : UInt64)
  | pat (value : UInt64)
  | gdtr (table : TableRegister)
  | idtr (table : TableRegister)
  | cs (segment : SegmentRegister)
  | ss (segment : SegmentRegister)
  | ds (segment : SegmentRegister)
  | es (segment : SegmentRegister)
  | fs (segment : SegmentRegister)
  | gs (segment : SegmentRegister)
  | tr (segment : SegmentRegister)
deriving DecidableEq, Repr

/-- `ControlRegister0::reset_fast()`: ET. -/
def cr0ResetFast : UInt64 := 0x10

/-- PE and NE. -/
def cr0ProtectedMode : UInt64 := cr0ResetFast ||| 0x01 ||| 0x20

/-- EFER.SVME. -/
def eferSvme : UInt64 := 0x1000

def commonRegs : List X86Register :=
  [.pat 0x0007040600070406, .gdtr ⟨0, 0xffff⟩, .idtr ⟨0, 0xffff⟩]

def realModeRegsAt (resetAddr : UInt32) : List X86Register :=
  let code : SegmentRegister :=
    ⟨(resetAddr &&& 0xffff0000).toUInt64, 0xffff, 0xf000,
      SegmentAttributes.code16.toBits⟩
  let data : SegmentRegister :=
    ⟨0, 0xffff, 0, SegmentAttributes.data16.toBits⟩
  let tss : SegmentRegister :=
    ⟨0, 0xffff, 0, SegmentAttributes.tss16.toBits⟩
  [.cr0 cr0ResetFast, .rip (resetAddr &&& 0xffff).toUInt64, .cs code,
    .ss data, .ds data, .es data, .fs data, .gs data, .tr tss] ++ commonRegs

def flat32ModeRegs (rip : Option UInt64) : List X86Register :=
  let code : SegmentRegister :=
    ⟨0, 0xffffffff, 0x08, SegmentAttributes.code32.toBits⟩
  let data : SegmentRegister :=
    ⟨0, 0xffffffff, 0x10, SegmentAttributes.data32.toBits⟩
  let tss : SegmentRegister :=
    ⟨0, 0xffff, 0, SegmentAttributes.tss3264.toBits⟩
  [.cr0 cr0ProtectedMode, .rip (rip.getD 0xfffffff0), .cs code,
    .ss data, .ds data, .es data, .fs data, .gs data, .tr tss] ++ commonRegs

/-- The fields of `IgvmNativeVpContextX64` that are set. -/
structure NativeContext where
  rip : UInt64 := 0
  cr0 : UInt64 := 0
  gdtr : TableRegister := ⟨0, 0⟩
  idtr : TableRegister := ⟨0, 0⟩
  codeBase : UInt32 := 0
  codeLimit : UInt32 := 0
  codeSelector : UInt16 := 0
  codeAttributes : UInt16 := 0
  dataBase : UInt32 := 0
  dataLimit : UInt32 := 0
  dataSelector : UInt16 := 0
  dataAttributes : UInt16 := 0
  gsBase : UInt64 := 0
deriving DecidableEq, Repr

def NativeContext.set (ctx : NativeContext) : X86Register → NativeContext
  | .rip rip => { ctx with rip := rip }
  | .cr0 cr0 => { ctx with cr0 := cr0 }
  | .gdtr tab => { ctx with gdtr := tab }
  | .idtr tab => { ctx with idtr := tab }
  | .cs seg =>
      { ctx with
        codeBase := seg.base.toUInt32
        codeLimit := seg.limit
        codeSelector := seg.selector
        codeAttributes := seg.attributes }
  | .ds seg =>
      { ctx with
        dataBase := seg.base.toUInt32
        dataLimit := seg.limit
        dataSelector := seg.selector
        dataAttributes := seg.attributes }
  | .gs seg => { ctx with gsBase := seg.base }
  | .ss _ | .es _ | .fs _ | .tr _ | .pat _ => ctx

def nativeContext (regs : List X86Register) : NativeContext :=
  regs.foldl NativeContext.set {}

structure SevSelector where
  base : UInt64 := 0
  limit : UInt32 := 0
  selector : UInt16 := 0
  attrib : UInt16 := 0
deriving DecidableEq, Repr

structure SevFeatures where
  snp : Bool
  debugSwap : Bool
deriving DecidableEq, Repr

/-- The fields of `SevVmsa` that are set, with their reset defaults. -/
structure SevVmsa where
  dr6 : UInt64 := 0xffff0ff0
  dr7 : UInt64 := 0x400
  xcr0 : UInt64 := 1
  x87Fcw : UInt16 := 0x37f
  mxcsr : UInt32 := 0x1f80
  sevFeatures : SevFeatures
  rip : UInt64 := 0
  cr0 : UInt64 := 0
  pat : UInt64 := 0
  gdtr : SevSelector := {}
  idtr : SevSelector := {}
  cs : SevSelector := {}
  ss : SevSelector := {}
  ds : SevSelector := {}
  es : SevSelector := {}
  fs : SevSelector := {}
  gs : SevSelector := {}
  tr : SevSelector := {}
  efer : UInt64 := 0
deriving DecidableEq, Repr

/-- The four limit bits in the middle of the attributes are dropped. -/
def vmsaSegment (seg : SegmentRegister) : SevSelector where
  base := seg.base
  limit := seg.limit
  selector := seg.selector
  attrib := (seg.attributes &&& (0xff : UInt16)) |||
    ((seg.attributes &&& (0xf000 : UInt16)) >>> (4 : UInt16))

def vmsaTable (tab : TableRegister) : SevSelector where
  base := tab.base
  limit := tab.limit.toUInt32
  selector := 0
  attrib := 0

def SevVmsa.set (vmsa : SevVmsa) : X86Register → SevVmsa
  | .rip rip => { vmsa with rip := rip }
  | .cr0 cr0 => { vmsa with cr0 := cr0 }
  | .pat pat => { vmsa with pat := pat }
  | .gdtr tab => { vmsa with gdtr := vmsaTable tab }
  | .idtr tab => { vmsa with idtr := vmsaTable tab }
  | .cs seg => { vmsa with cs := vmsaSegment seg }
  | .ss seg => { vmsa with ss := vmsaSegment seg }
  | .ds seg => { vmsa with ds := vmsaSegment seg }
  | .es seg => { vmsa with es := vmsaSegment seg }
  | .fs seg => { vmsa with fs := vmsaSegment seg }
  | .gs seg => { vmsa with gs := vmsaSegment seg }
  | .tr seg => { vmsa with tr := vmsaSegment seg }

def vmsaContext (regs : List X86Register) (features : SevFeatures) :
    SevVmsa :=
  let vmsa := regs.foldl SevVmsa.set { sevFeatures := features }
  { vmsa with efer := vmsa.efer ||| eferSvme }

/-- The packed attribute words of the segments in use. -/
example : (SegmentAttributes.code16.toBits, SegmentAttributes.data16.toBits,
    SegmentAttributes.code32.toBits, SegmentAttributes.data32.toBits,
    SegmentAttributes.tss16.toBits, SegmentAttributes.tss3264.toBits) =
      (0x9b, 0x93, 0xc09b, 0xc093, 0x83, 0x8b) := by
  decide

end Igvm

end Kettle
