/-
The parts of an IGVM file that kettle reads and writes: platform headers,
initialization headers and the directive list.
-/
import Kettle.Lib.Bytes

namespace Kettle

namespace Igvm

/-- `PAGE_SIZE` / `PAGE_SIZE_4K`. -/
def pageSize : Nat := 4096

inductive IgvmPlatformType where
  | native
  | sevSnp
  | other (code : UInt8)
deriving DecidableEq, Repr

/-- `IGVM_VHS_SUPPORTED_PLATFORM`, the only platform header there is. -/
structure IgvmPlatformHeader where
  compatibilityMask : UInt32
  highestVtl : UInt8
  platformType : IgvmPlatformType
  platformVersion : UInt16
  sharedGpaBoundary : UInt64
deriving DecidableEq, Repr

inductive IgvmInitializationHeader where
  | guestPolicy (policy : UInt64) (compatibilityMask : UInt32)
  | other (body : Bytes)
deriving DecidableEq, Repr

inductive IgvmPageDataType where
  | normal
  | secrets
  | cpuidData
  | cpuidXf
  | other (code : UInt16)
deriving DecidableEq, Repr

/-- The one flag of `IgvmPageDataFlags` that is ever read or set. -/
structure IgvmPageDataFlags where
  unmeasured : Bool := false
deriving DecidableEq, Repr

/-- The fields of a `PageData` directive. -/
structure PageData where
  gpa : UInt64
  compatibilityMask : UInt32
  flags : IgvmPageDataFlags
  dataType : IgvmPageDataType
  data : Bytes
deriving DecidableEq, Repr

/-- The fields of an `SnpVpContext` directive; `vmsa` is the byte view
(`as_bytes`) of the save area. -/
structure SnpVpContext where
  gpa : UInt64
  compatibilityMask : UInt32
  vpIndex : UInt16
  vmsa : Bytes
deriving DecidableEq, Repr

/-- `IGVM_VHS_PARAMETER`. -/
structure IgvmParameter where
  parameterAreaIndex : UInt32
  byteOffset : UInt32
deriving DecidableEq, Repr

/-- `IGVM_VHS_PARAMETER_INSERT`. -/
structure IgvmParameterInsert where
  parameterAreaIndex : UInt32
  gpa : UInt64
  compatibilityMask : UInt32
deriving DecidableEq, Repr

/-- `other` stands for the directive kinds that no function here looks into. -/
inductive IgvmDirectiveHeader where
  | pageData (page : PageData)
  | parameterArea (numberOfBytes : UInt64) (parameterAreaIndex : UInt32)
      (initialData : Bytes)
  | memoryMap (param : IgvmParameter)
  | vpCount (param : IgvmParameter)
  | parameterInsert (insert : IgvmParameterInsert)
  | snpVpContext (context : SnpVpContext)
  | x64NativeVpContext (compatibilityMask : UInt32) (vpIndex : UInt16)
      (context : Bytes)
  | other (body : Bytes)
deriving DecidableEq, Repr

structure IgvmFile where
  platforms : List IgvmPlatformHeader
  initializations : List IgvmInitializationHeader
  directives : List IgvmDirectiveHeader
deriving DecidableEq, Repr

end Igvm

end Kettle
