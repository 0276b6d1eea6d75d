/-
Reports of the paravisor: a header, the report of the processor, a request
and the data that the request names.  The structures have no padding, so
that any bytes of their size are one of them.
-/
import Kettle.Lib.Layout
import Kettle.Lib.Outcome

namespace Kettle

namespace Tdx

structure ReportType where
  type : UInt8
  subtype : UInt8
  version : UInt8
  reserved : UInt8
deriving DecidableEq

structure ReportMac where
  reporttype : ReportType
  reserved1 : ByteVec 12
  cpusvn : ByteVec 16
  teeTcbInfoHash : ByteVec 48
  teeInfoHash : ByteVec 48
  reportdata : ByteVec 64
  reserved2 : ByteVec 32
  mac : ByteVec 32
deriving DecidableEq

structure Rtmr where
  registerData : ByteVec 48
deriving DecidableEq

structure TdInfo where
  attributes : ByteVec 8
  xfam : ByteVec 8
  mrtd : ByteVec 48
  mrconfigid : ByteVec 48
  mrowner : ByteVec 48
  mrownerconfig : ByteVec 48
  rtmr : List.Vector Rtmr 4
  reserved : ByteVec 112
deriving DecidableEq

structure TdReport where
  reportMac : ReportMac
  teeTcbInfo : ByteVec 239
  reserved : ByteVec 17
  tdinfo : TdInfo
deriving DecidableEq

open Layout (vec u8)

def ReportType.layout : Layout ReportType :=
  (u8.pair (u8.pair (u8.pair u8))).record
    ⟨fun r => (r.type, r.subtype, r.version, r.reserved),
      fun (type, subtype, version, reserved) =>
        ⟨type, subtype, version, reserved⟩,
      fun _ => rfl, fun _ => rfl⟩

def ReportMac.layout : Layout ReportMac :=
  (ReportType.layout.pair ((vec 12).pair ((vec 16).pair ((vec 48).pair
    ((vec 48).pair ((vec 64).pair ((vec 32).pair (vec 32)))))))).record
    ⟨fun r => (r.reporttype, r.reserved1, r.cpusvn, r.teeTcbInfoHash,
        r.teeInfoHash, r.reportdata, r.reserved2, r.mac),
      fun (reporttype, reserved1, cpusvn, teeTcbInfoHash, teeInfoHash,
          reportdata, reserved2, mac) =>
        ⟨reporttype, reserved1, cpusvn, teeTcbInfoHash, teeInfoHash,
          reportdata, reserved2, mac⟩,
      fun _ => rfl, fun _ => rfl⟩

def Rtmr.layout : Layout Rtmr :=
  (vec 48).record ⟨registerData, Rtmr.mk, fun _ => rfl, fun _ => rfl⟩

def TdInfo.layout : Layout TdInfo :=
  ((vec 8).pair ((vec 8).pair ((vec 48).pair ((vec 48).pair ((vec 48).pair
    ((vec 48).pair ((Rtmr.layout.array 4).pair (vec 112)))))))).record
    ⟨fun r => (r.attributes, r.xfam, r.mrtd, r.mrconfigid, r.mrowner,
        r.mrownerconfig, r.rtmr, r.reserved),
      fun (attributes, xfam, mrtd, mrconfigid, mrowner, mrownerconfig,
          rtmr, reserved) =>
        ⟨attributes, xfam, mrtd, mrconfigid, mrowner, mrownerconfig, rtmr,
          reserved⟩,
      fun _ => rfl, fun _ => rfl⟩

def TdReport.layout : Layout TdReport :=
  (ReportMac.layout.pair ((vec 239).pair ((vec 17).pair
    TdInfo.layout))).record
    ⟨fun r => (r.reportMac, r.teeTcbInfo, r.reserved, r.tdinfo),
      fun (reportMac, teeTcbInfo, reserved, tdinfo) =>
        ⟨reportMac, teeTcbInfo, reserved, tdinfo⟩,
      fun _ => rfl, fun _ => rfl⟩

@[simp] theorem TdReport.size_layout : TdReport.layout.size = 1024 := rfl

end Tdx

namespace Hcl

open Layout (vec u32)

/-- `HCL_AKPUB_KEY_ID`. -/
def hclAkpubKeyId : String := "HCLAkPub"

/-- `TD_REPORT_SIZE`. -/
def tdReportSize : Nat := Tdx.TdReport.layout.size

/-- `SNP_REPORT_SIZE`. -/
def snpReportSize : Nat := 1184

/-- `MAX_REPORT_SIZE`. -/
def maxReportSize : Nat := max snpReportSize tdReportSize

inductive HclError where
  | invalidReportSize
  | invalidReportType
  | akPubNotFound
  | jsonParseError (error : String)
deriving DecidableEq

structure IgvmRequestData where
  dataSize : UInt32
  version : UInt32
  reportType : UInt32
  reportDataHashType : UInt32
  variableDataSize : UInt32
deriving DecidableEq

structure AttestationHeader where
  signature : UInt32
  version : UInt32
  reportSize : UInt32
  requestType : UInt32
  status : UInt32
  reserved : List.Vector UInt32 3
deriving DecidableEq

structure AttestationReport where
  header : AttestationHeader
  hwReport : ByteVec maxReportSize
  hclData : IgvmRequestData
deriving DecidableEq

def IgvmRequestData.layout : Layout IgvmRequestData :=
  (u32.pair (u32.pair (u32.pair (u32.pair u32)))).record
    ⟨fun r => (r.dataSize, r.version, r.reportType, r.reportDataHashType,
        r.variableDataSize),
      fun (dataSize, version, reportType, reportDataHashType,
          variableDataSize) =>
        ⟨dataSize, version, reportType, reportDataHashType,
          variableDataSize⟩,
      fun _ => rfl, fun _ => rfl⟩

def AttestationHeader.layout : Layout AttestationHeader :=
  (u32.pair (u32.pair (u32.pair (u32.pair (u32.pair
    (u32.array 3)))))).record
    ⟨fun r => (r.signature, r.version, r.reportSize, r.requestType,
        r.status, r.reserved),
      fun (signature, version, reportSize, requestType, status, reserved) =>
        ⟨signature, version, reportSize, requestType, status, reserved⟩,
      fun _ => rfl, fun _ => rfl⟩

def AttestationReport.layout : Layout AttestationReport :=
  (AttestationHeader.layout.pair ((vec maxReportSize).pair
    IgvmRequestData.layout)).record
    ⟨fun r => (r.header, r.hwReport, r.hclData),
      fun (header, hwReport, hclData) => ⟨header, hwReport, hclData⟩,
      fun _ => rfl, fun _ => rfl⟩

/-- `HW_REPORT_OFFSET`. -/
def hwReportOffset : Nat := AttestationHeader.layout.size

/-- `STRUCT_SIZE`; the variable data start there. -/
def structSize : Nat := AttestationReport.layout.size

@[simp] theorem size_header : AttestationHeader.layout.size = 32 := rfl

@[simp] theorem size_hclData : IgvmRequestData.layout.size = 20 := rfl

@[simp] theorem size_attestationReport :
    AttestationReport.layout.size = 1236 := rfl

inductive ReportType where
  | tdx
  | snp
deriving DecidableEq

/-- `TDX_REPORT_TYPE` and `SNP_REPORT_TYPE`. -/
def ReportType.code : ReportType → UInt32
  | .tdx => 4
  | .snp => 2

def ReportType.ofCode (code : UInt32) : Except HclError ReportType :=
  if code = ReportType.tdx.code then .ok .tdx
  else if code = ReportType.snp.code then .ok .snp
  else .error .invalidReportType

theorem ReportType.ofCode_eq_ok_iff {code : UInt32} {kind : ReportType} :
    ReportType.ofCode code = .ok kind ↔ code = kind.code := by
  unfold ReportType.ofCode
  constructor
  · intro hcode
    split at hcode
    · cases hcode
      assumption
    · split at hcode
      · cases hcode
        assumption
      · cases hcode
  · rintro rfl
    cases kind with
    | tdx => rfl
    | snp => rfl

/-- What is read of the bytes lies inside them. -/
structure WellFormed (bytes : Bytes) (report : AttestationReport)
    (reportType : ReportType) : Prop where
  read : AttestationReport.layout.write report = bytes.slice 0 structSize
  varData : structSize + report.hclData.variableDataSize.toNat ≤ bytes.length
  code : report.hclData.reportType = reportType.code

section Check

def checkVarData (bytes : Bytes) (report : AttestationReport) :
    Outcome HclError Unit :=
  let varDataSize := report.hclData.variableDataSize.toNat
  if 0 < varDataSize then do
    let varDataEnd ← Outcome.add64 structSize varDataSize
    if bytes.length < varDataEnd then .err .invalidReportSize else .ok ()
  else .ok ()

/-- The checks of `HclReport::new`. -/
def checkReport (bytes : Bytes) :
    Outcome HclError (AttestationReport × ReportType) :=
  if bytes.length < structSize then .err .invalidReportSize
  else do
    let structBytes ← Outcome.index bytes 0 structSize
    let report ← Outcome.ofOption .invalidReportSize
      (AttestationReport.layout.read? structBytes)
    checkVarData bytes report
    let reportType ← Outcome.ofExcept (ReportType.ofCode
      report.hclData.reportType)
    .ok (report, reportType)

variable {bytes : Bytes} {report : AttestationReport}

theorem checkVarData_eq (hlen : structSize ≤ bytes.length) :
    checkVarData bytes report =
      if structSize + report.hclData.variableDataSize.toNat ≤ bytes.length
      then .ok () else .err .invalidReportSize := by
  have hsize := report.hclData.variableDataSize.toNat_lt
  have hstruct : structSize = 1236 := rfl
  unfold checkVarData
  by_cases hpos : 0 < report.hclData.variableDataSize.toNat
  · rw [if_pos hpos, Outcome.add64_of_lt (by omega)]
    by_cases hinside :
        structSize + report.hclData.variableDataSize.toNat ≤ bytes.length
    · exact (if_neg (Nat.not_lt.mpr hinside)).trans (if_pos hinside).symm
    · exact (if_pos (Nat.not_le.mp hinside)).trans (if_neg hinside).symm
  · rw [if_neg hpos, if_pos (by omega)]

/-- Enough bytes are a structure; the other two checks are left. -/
theorem checkReport_eq (hread : AttestationReport.layout.write report =
      bytes.slice 0 structSize) (hlen : structSize ≤ bytes.length) :
    checkReport bytes =
      if structSize + report.hclData.variableDataSize.toNat ≤ bytes.length
      then Outcome.ofExcept ((ReportType.ofCode
        report.hclData.reportType).map (report, ·))
      else .err .invalidReportSize := by
  rw [checkReport, if_neg (Nat.not_lt.mpr hlen),
    Outcome.index_of_le (Nat.zero_le _) hlen, Outcome.bind_ok, Nat.sub_zero,
    ← hread, Layout.read?_write,
    Outcome.ofOption_eq_ok_iff.mpr rfl, Outcome.bind_ok,
    checkVarData_eq hlen]
  split
  · cases ReportType.ofCode report.hclData.reportType with
    | error error => rfl
    | ok reportType => rfl
  · rfl

theorem exists_write_eq (hlen : structSize ≤ bytes.length) :
    ∃ report, AttestationReport.layout.write report =
      bytes.slice 0 structSize := by
  have hslice : (bytes.slice 0 structSize).length = structSize :=
    Bytes.length_slice ((Nat.zero_add structSize).symm ▸ hlen)
  obtain ⟨report, hread⟩ :
      ∃ report, AttestationReport.layout.read? (bytes.slice 0 structSize) =
        some report := Layout.exists_read? hslice
  exact ⟨report, Layout.read?_eq_some_iff.mp hread⟩

theorem checkReport_ne_panic (bytes : Bytes) :
    checkReport bytes ≠ .panic := by
  by_cases hlen : structSize ≤ bytes.length
  · obtain ⟨report, hread⟩ := exists_write_eq hlen
    rw [checkReport_eq hread hlen]
    split
    · exact Outcome.ofExcept_ne_panic _
    · exact nofun
  · rw [checkReport, if_pos (Nat.not_le.mp hlen)]
    exact nofun

theorem checkReport_eq_ok_iff {reportType : ReportType} :
    checkReport bytes = .ok (report, reportType) ↔
      WellFormed bytes report reportType := by
  constructor
  · intro hcheck
    by_cases hlen : structSize ≤ bytes.length
    · obtain ⟨decoded, hread⟩ := exists_write_eq hlen
      rw [checkReport_eq hread hlen] at hcheck
      split at hcheck
      · cases hcode : ReportType.ofCode decoded.hclData.reportType with
        | error error =>
            rw [hcode] at hcheck
            cases hcheck
        | ok decodedType =>
            rw [hcode] at hcheck
            cases hcheck
            exact ⟨hread, ‹_›, ReportType.ofCode_eq_ok_iff.mp hcode⟩
      · cases hcheck
    · rw [checkReport, if_pos (Nat.not_le.mp hlen)] at hcheck
      cases hcheck
  · intro hformed
    have hlen : structSize ≤ bytes.length :=
      (Nat.le_add_right _ _).trans hformed.varData
    rw [checkReport_eq hformed.read hlen, if_pos hformed.varData,
      ReportType.ofCode_eq_ok_iff.mpr hformed.code]
    rfl

end Check

structure HclReport where
  bytes : Bytes
  attestationReport : AttestationReport
  reportType : ReportType
  wellFormed : WellFormed bytes attestationReport reportType

/-- The libraries of hashes, JSON and the reports of the other processor. -/
structure HclTools (SnpReport JsonWebKey : Type) where
  sha256 : Bytes → ByteVec 32
  fromSlice : Bytes → Except String (List JsonWebKey)
  keyId : JsonWebKey → Option String
  fromBytes : Bytes → Option SnpReport

namespace HclReport

def new (bytes : Bytes) : Outcome HclError HclReport :=
  match hcheck : checkReport bytes with
  | .panic => .panic
  | .err error => .err error
  | .ok (report, reportType) =>
      .ok ⟨bytes, report, reportType, checkReport_eq_ok_iff.mp hcheck⟩

/-- Where the report of the processor ends, for each of them. -/
def reportEnd : ReportType → Nat
  | .tdx => hwReportOffset + tdReportSize
  | .snp => hwReportOffset + snpReportSize

def reportSlice (hcl : HclReport) : Outcome HclError Bytes :=
  Outcome.index hcl.bytes hwReportOffset (reportEnd hcl.reportType)

def varData (hcl : HclReport) : Outcome HclError Bytes :=
  let varDataOffset :=
    hwReportOffset + maxReportSize + IgvmRequestData.layout.size
  Outcome.index hcl.bytes varDataOffset
    (varDataOffset +
      hcl.attestationReport.hclData.variableDataSize.toNat)

variable {SnpReport JsonWebKey : Type}

/-- Only one of the hashes is implemented. -/
def varDataSha256 (tools : HclTools SnpReport JsonWebKey)
    (hcl : HclReport) : Outcome HclError (ByteVec 32) :=
  if hcl.attestationReport.hclData.reportDataHashType ≠ 1 then .panic
  else do
    let varData ← hcl.varData
    .ok (tools.sha256 varData)

def akPub (tools : HclTools SnpReport JsonWebKey) (hcl : HclReport) :
    Outcome HclError JsonWebKey := do
  let varData ← hcl.varData
  let keys ← Outcome.ofExcept ((tools.fromSlice varData).mapError
    .jsonParseError)
  Outcome.ofOption .akPubNotFound
    (keys.find? fun key => tools.keyId key == some hclAkpubKeyId)

/-- `TryFrom<&HclReport> for TdReport`. -/
def tdReport (hcl : HclReport) : Outcome HclError Tdx.TdReport :=
  if hcl.reportType ≠ .tdx then .err .invalidReportType
  else do
    let bytes ← hcl.reportSlice
    Outcome.ofOption .invalidReportSize (Tdx.TdReport.layout.read? bytes)

/-- `TryFrom<&HclReport> for SnpReport`. -/
def snpReport (tools : HclTools SnpReport JsonWebKey) (hcl : HclReport) :
    Outcome HclError SnpReport :=
  if hcl.reportType ≠ .snp then .err .invalidReportType
  else do
    let bytes ← hcl.reportSlice
    Outcome.ofOption .invalidReportType (tools.fromBytes bytes)

theorem new_ne_panic (bytes : Bytes) : new bytes ≠ .panic := by
  unfold new
  split
  · exact absurd ‹_› (checkReport_ne_panic bytes)
  · exact nofun
  · exact nofun

/-- A report is known by its bytes. -/
theorem new_eq_ok_iff {bytes : Bytes} {hcl : HclReport} :
    new bytes = .ok hcl ↔ hcl.bytes = bytes := by
  constructor
  · intro hnew
    unfold new at hnew
    split at hnew
    · cases hnew
    · cases hnew
    · cases hnew
      rfl
  · rintro rfl
    have hcheck := checkReport_eq_ok_iff.mpr hcl.wellFormed
    unfold new
    split
    · rw [hcheck] at *
      contradiction
    · rw [hcheck] at *
      contradiction
    · rw [hcheck] at *
      rename_i heq
      cases heq
      rfl

section Slices

variable (hcl : HclReport)

/-- The bytes are the structure, the variable data and whatever follows. -/
theorem bytes_eq :
    hcl.bytes = AttestationReport.layout.write hcl.attestationReport ++
      hcl.bytes.drop structSize := by
  rw [hcl.wellFormed.read]
  exact (List.take_append_drop structSize hcl.bytes).symm

theorem varData_eq :
    hcl.varData = .ok (hcl.bytes.slice structSize
      hcl.attestationReport.hclData.variableDataSize.toNat) := by
  have hend := hcl.wellFormed.varData
  have hindex := Outcome.index_of_le (ε := HclError)
    (Nat.le_add_right structSize
      hcl.attestationReport.hclData.variableDataSize.toNat) hend
  rwa [Nat.add_sub_cancel_left] at hindex

theorem reportEnd_le (reportType : ReportType) :
    hwReportOffset ≤ reportEnd reportType ∧
      reportEnd reportType - hwReportOffset ≤ maxReportSize ∧
      reportEnd reportType ≤ structSize := by
  cases reportType with
  | tdx => decide
  | snp => decide

theorem write_attestationReport (report : AttestationReport) :
    AttestationReport.layout.write report =
      AttestationHeader.layout.write report.header ++
        (report.hwReport.toList ++
          IgvmRequestData.layout.write report.hclData) := by
  rw [AttestationReport.layout, Layout.write_record, Layout.write_pair,
    Layout.write_pair]
  rfl

/-- The report of the processor is in the structure's field of its name. -/
theorem reportSlice_eq :
    hcl.reportSlice = .ok (hcl.attestationReport.hwReport.toList.take
      (reportEnd hcl.reportType - hwReportOffset)) := by
  obtain ⟨hstart, hinside, hend⟩ := reportEnd_le hcl.reportType
  have hlen : reportEnd hcl.reportType ≤ hcl.bytes.length :=
    hend.trans ((Nat.le_add_right _ _).trans hcl.wellFormed.varData)
  have hheader : hwReportOffset = (AttestationHeader.layout.write
      hcl.attestationReport.header).length + 0 :=
    (Layout.length_write _ _).symm
  have hhw : 0 + (reportEnd hcl.reportType - hwReportOffset) ≤
      hcl.attestationReport.hwReport.toList.length := by
    rw [hcl.attestationReport.hwReport.toList_length, Nat.zero_add]
    exact hinside
  rw [reportSlice, Outcome.index_of_le hstart hlen, hcl.bytes_eq,
    write_attestationReport, List.append_assoc, List.append_assoc]
  generalize reportEnd hcl.reportType - hwReportOffset = count at hhw ⊢
  rw [hheader, Bytes.slice_append_right, Bytes.slice_append_left _ _ hhw]
  rfl

end Slices

/-- The structure, the variable data that it names, and anything behind. -/
def Spells (bytes : Bytes) (report : AttestationReport) (vars : Bytes) :
    Prop :=
  vars.length = report.hclData.variableDataSize.toNat ∧
    ∃ rest, bytes = AttestationReport.layout.write report ++ (vars ++ rest)

section Spelling

variable {bytes vars : Bytes} {report : AttestationReport}

theorem Spells.wellFormed {reportType : ReportType}
    (hspells : Spells bytes report vars)
    (hcode : report.hclData.reportType = reportType.code) :
    WellFormed bytes report reportType := by
  obtain ⟨hsize, rest, rfl⟩ := hspells
  have hlen : (AttestationReport.layout.write report).length = structSize :=
    Layout.length_write _ _
  refine ⟨(List.take_left' hlen).symm, ?_, hcode⟩
  rw [List.length_append, List.length_append, hlen, hsize]
  omega

theorem varData_eq_ok_iff {hcl : HclReport} :
    hcl.varData = .ok vars ↔
      Spells hcl.bytes hcl.attestationReport vars := by
  have hlen : (AttestationReport.layout.write
      hcl.attestationReport).length = structSize := Layout.length_write _ _
  rw [hcl.varData_eq]
  constructor
  · intro hvars
    cases hvars
    exact ⟨Bytes.length_slice hcl.wellFormed.varData, _,
      hcl.bytes_eq.trans (congrArg _ (List.take_append_drop _ _).symm)⟩
  · rintro ⟨hsize, rest, hbytes⟩
    rw [Bytes.slice, hbytes, List.drop_left' hlen, List.take_left' hsize]

/-- Exactly the bytes that spell a structure of a known type are accepted,
and their data are those that the structure names. -/
theorem new_varData_iff {reportType : ReportType} :
    (∃ hcl, new bytes = .ok hcl ∧ hcl.attestationReport = report ∧
      hcl.reportType = reportType ∧ hcl.varData = .ok vars) ↔
      Spells bytes report vars ∧
        report.hclData.reportType = reportType.code := by
  constructor
  · rintro ⟨hcl, hnew, rfl, rfl, hvars⟩
    exact ⟨new_eq_ok_iff.mp hnew ▸ varData_eq_ok_iff.mp hvars,
      hcl.wellFormed.code⟩
  · rintro ⟨hspells, hcode⟩
    exact ⟨⟨bytes, report, reportType, hspells.wellFormed hcode⟩,
      new_eq_ok_iff.mpr rfl, rfl, rfl, varData_eq_ok_iff.mpr hspells⟩

end Spelling

section Reads

variable {hcl : HclReport} {tools : HclTools SnpReport JsonWebKey}

theorem tdReport_eq_ok_iff {td : Tdx.TdReport} :
    hcl.tdReport = .ok td ↔ hcl.reportType = .tdx ∧
      ∃ tail, hcl.attestationReport.hwReport.toList =
        Tdx.TdReport.layout.write td ++ tail := by
  have hlen : (Tdx.TdReport.layout.write td).length = tdReportSize :=
    Layout.length_write _ _
  have hslice := hcl.reportSlice_eq
  by_cases hkind : hcl.reportType = .tdx
  · rw [hkind] at hslice
    rw [tdReport, if_neg (not_not_intro hkind), hslice, Outcome.bind_ok,
      Outcome.ofOption_eq_ok_iff, Layout.read?_eq_some_iff]
    constructor
    · intro hwrite
      refine ⟨hkind,
        hcl.attestationReport.hwReport.toList.drop tdReportSize, ?_⟩
      rw [hwrite]
      exact (List.take_append_drop _ _).symm
    · rintro ⟨-, tail, htail⟩
      rw [htail]
      exact (List.take_left' hlen).symm
  · rw [tdReport, if_pos hkind]
    exact ⟨nofun, fun h => absurd h.1 hkind⟩

theorem snpReport_eq_ok_iff {snp : SnpReport} :
    hcl.snpReport tools = .ok snp ↔ hcl.reportType = .snp ∧
      tools.fromBytes hcl.attestationReport.hwReport.toList = some snp := by
  have hall : hcl.attestationReport.hwReport.toList.take
      (reportEnd .snp - hwReportOffset) =
        hcl.attestationReport.hwReport.toList :=
    List.take_of_length_le hcl.attestationReport.hwReport.toList_length.le
  have hslice := hcl.reportSlice_eq
  by_cases hkind : hcl.reportType = .snp
  · rw [hkind] at hslice
    rw [snpReport, if_neg (not_not_intro hkind), hslice, Outcome.bind_ok,
      Outcome.ofOption_eq_ok_iff, hall]
    exact ⟨fun h => ⟨hkind, h⟩, And.right⟩
  · rw [snpReport, if_pos hkind]
    exact ⟨nofun, fun h => absurd h.1 hkind⟩

/-- The first key of that name, and there is one. -/
theorem akPub_eq_ok_iff {akPub : JsonWebKey} :
    hcl.akPub tools = .ok akPub ↔
      ∃ vars before after, Spells hcl.bytes hcl.attestationReport vars ∧
        tools.fromSlice vars = .ok (before ++ akPub :: after) ∧
        tools.keyId akPub = some hclAkpubKeyId ∧
        ∀ key ∈ before, tools.keyId key ≠ some hclAkpubKeyId := by
  unfold HclReport.akPub
  constructor
  · intro hpub
    obtain ⟨vars, hvars, hrest⟩ := Outcome.bind_eq_ok_iff.mp hpub
    obtain ⟨keys, hkeys, hfind⟩ := Outcome.bind_eq_ok_iff.mp hrest
    obtain ⟨hid, before, after, rfl, hbefore⟩ :=
      List.find?_eq_some_iff_append.mp
        (Outcome.ofOption_eq_ok_iff.mp hfind)
    refine ⟨vars, before, after, varData_eq_ok_iff.mp hvars, ?_,
      eq_of_beq hid, fun key hkey => ?_⟩
    · cases hparse : tools.fromSlice vars with
      | error error =>
          rw [hparse] at hkeys
          cases hkeys
      | ok found =>
          rw [hparse] at hkeys
          cases hkeys
          rfl
    · simpa using hbefore key hkey
  · rintro ⟨vars, before, after, hspells, hparse, hid, hbefore⟩
    rw [varData_eq_ok_iff.mpr hspells, Outcome.bind_ok, hparse]
    refine Outcome.ofOption_eq_ok_iff.mpr
      (List.find?_eq_some_iff_append.mpr ⟨beq_iff_eq.mpr hid, before, after,
        rfl, fun key hkey => ?_⟩)
    simpa using hbefore key hkey

theorem tdReport_ne_panic : hcl.tdReport ≠ .panic := by
  unfold tdReport
  split
  · exact nofun
  · rw [reportSlice_eq]
    exact Outcome.ofOption_ne_panic _ _

theorem snpReport_ne_panic : hcl.snpReport tools ≠ .panic := by
  unfold snpReport
  split
  · exact nofun
  · rw [reportSlice_eq]
    exact Outcome.ofOption_ne_panic _ _

theorem akPub_ne_panic : hcl.akPub tools ≠ .panic := by
  rw [HclReport.akPub, varData_eq, Outcome.bind_ok]
  exact Outcome.bind_ne_panic (Outcome.ofExcept_ne_panic _)
    fun _ => Outcome.ofOption_ne_panic _ _

/-- Another hash than the implemented one is not refused. -/
theorem varDataSha256_eq_panic_iff :
    hcl.varDataSha256 tools = .panic ↔
      hcl.attestationReport.hclData.reportDataHashType ≠ 1 := by
  unfold varDataSha256
  split
  · exact ⟨fun _ => ‹_›, fun _ => rfl⟩
  · rw [varData_eq]
    exact ⟨nofun, fun hother => absurd hother ‹_›⟩

theorem varDataSha256_eq_ok_iff {hash : ByteVec 32} :
    hcl.varDataSha256 tools = .ok hash ↔
      hcl.attestationReport.hclData.reportDataHashType = 1 ∧
        ∃ vars, Spells hcl.bytes hcl.attestationReport vars ∧
          hash = tools.sha256 vars := by
  unfold varDataSha256
  split
  · rename_i hother
    exact ⟨nofun, fun hhash => absurd hhash.1 hother⟩
  · rename_i hkind
    rw [Outcome.bind_eq_ok_iff]
    constructor
    · rintro ⟨vars, hvars, ⟨⟩⟩
      exact ⟨not_not.mp hkind, vars, varData_eq_ok_iff.mp hvars, rfl⟩
    · rintro ⟨-, vars, hspells, rfl⟩
      exact ⟨vars, varData_eq_ok_iff.mpr hspells, rfl⟩

end Reads

section Received

variable (tools : HclTools SnpReport JsonWebKey) (bytes : Bytes)

/-- A report of these bytes, and the structure and data that they spell. -/
theorem exists_bytes_iff {p : AttestationReport → ReportType → Prop} :
    (∃ hcl : HclReport, hcl.bytes = bytes ∧
      p hcl.attestationReport hcl.reportType) ↔
      ∃ report reportType vars, Spells bytes report vars ∧
        report.hclData.reportType = reportType.code ∧
        p report reportType := by
  constructor
  · rintro ⟨hcl, rfl, hp⟩
    exact ⟨hcl.attestationReport, hcl.reportType, _,
      varData_eq_ok_iff.mp hcl.varData_eq, hcl.wellFormed.code, hp⟩
  · rintro ⟨report, reportType, vars, hspells, hcode, hp⟩
    exact ⟨⟨bytes, report, reportType, hspells.wellFormed hcode⟩, rfl, hp⟩

theorem bind_new_eq_ok_iff {α : Type} {read : HclReport → Outcome HclError α}
    {value : α} : (new bytes >>= read) = .ok value ↔
      ∃ hcl : HclReport, hcl.bytes = bytes ∧ read hcl = .ok value := by
  simp only [Outcome.bind_eq_ok_iff, new_eq_ok_iff]

theorem received_tdReport_iff (td : Tdx.TdReport) :
    (new bytes >>= tdReport) = .ok td ↔
      ∃ report vars tail, Spells bytes report vars ∧
        report.hclData.reportType = ReportType.tdx.code ∧
        report.hwReport.toList = Tdx.TdReport.layout.write td ++ tail := by
  simp only [bind_new_eq_ok_iff, tdReport_eq_ok_iff]
  rw [exists_bytes_iff bytes (p := fun report reportType =>
    reportType = .tdx ∧ ∃ tail,
      report.hwReport.toList = Tdx.TdReport.layout.write td ++ tail)]
  constructor
  · rintro ⟨report, _, vars, hspells, hcode, rfl, tail, htail⟩
    exact ⟨report, vars, tail, hspells, hcode, htail⟩
  · rintro ⟨report, vars, tail, hspells, hcode, htail⟩
    exact ⟨report, .tdx, vars, hspells, hcode, rfl, tail, htail⟩

theorem received_snpReport_iff (snp : SnpReport) :
    (new bytes >>= snpReport tools) = .ok snp ↔
      ∃ report vars, Spells bytes report vars ∧
        report.hclData.reportType = ReportType.snp.code ∧
        tools.fromBytes report.hwReport.toList = some snp := by
  simp only [bind_new_eq_ok_iff, snpReport_eq_ok_iff]
  rw [exists_bytes_iff bytes (p := fun report reportType =>
    reportType = .snp ∧
      tools.fromBytes report.hwReport.toList = some snp)]
  constructor
  · rintro ⟨report, _, vars, hspells, hcode, rfl, hsnp⟩
    exact ⟨report, vars, hspells, hcode, hsnp⟩
  · rintro ⟨report, vars, hspells, hcode, hsnp⟩
    exact ⟨report, .snp, vars, hspells, hcode, rfl, hsnp⟩

theorem received_akPub_iff (akPub : JsonWebKey) :
    (new bytes >>= HclReport.akPub tools) = .ok akPub ↔
      ∃ report reportType vars before after, Spells bytes report vars ∧
        report.hclData.reportType = ReportType.code reportType ∧
        tools.fromSlice vars = .ok (before ++ akPub :: after) ∧
        tools.keyId akPub = some hclAkpubKeyId ∧
        ∀ key ∈ before, tools.keyId key ≠ some hclAkpubKeyId := by
  rw [bind_new_eq_ok_iff]
  constructor
  · rintro ⟨hcl, rfl, hpub⟩
    obtain ⟨vars, before, after, hspells, hfound⟩ := akPub_eq_ok_iff.mp hpub
    exact ⟨hcl.attestationReport, hcl.reportType, vars, before, after,
      hspells, hcl.wellFormed.code, hfound⟩
  · rintro ⟨report, reportType, vars, before, after, hspells, hcode, hfound⟩
    exact ⟨⟨bytes, report, reportType, hspells.wellFormed hcode⟩, rfl,
      akPub_eq_ok_iff.mpr ⟨vars, before, after, hspells, hfound⟩⟩

theorem received_varDataSha256_iff (hash : ByteVec 32) :
    (new bytes >>= varDataSha256 tools) = .ok hash ↔
      ∃ report reportType vars, Spells bytes report vars ∧
        report.hclData.reportType = ReportType.code reportType ∧
        report.hclData.reportDataHashType = 1 ∧
        hash = tools.sha256 vars := by
  rw [bind_new_eq_ok_iff]
  constructor
  · rintro ⟨hcl, rfl, hhash⟩
    obtain ⟨hkind, vars, hspells, rfl⟩ := varDataSha256_eq_ok_iff.mp hhash
    exact ⟨hcl.attestationReport, hcl.reportType, vars, hspells,
      hcl.wellFormed.code, hkind, rfl⟩
  · rintro ⟨report, reportType, vars, hspells, hcode, hkind, rfl⟩
    exact ⟨⟨bytes, report, reportType, hspells.wellFormed hcode⟩, rfl,
      varDataSha256_eq_ok_iff.mpr ⟨hkind, vars, hspells, rfl⟩⟩

/-- A report that is accepted and names another hash than SHA-256 makes the
reader of the hash panic, and no other bytes do. -/
theorem received_varDataSha256_panic_iff :
    (new bytes >>= varDataSha256 tools) = .panic ↔
      ∃ report reportType vars, Spells bytes report vars ∧
        report.hclData.reportType = ReportType.code reportType ∧
        report.hclData.reportDataHashType ≠ 1 := by
  rw [Outcome.bind_eq_panic_iff, or_iff_right (new_ne_panic bytes)]
  simp only [new_eq_ok_iff, varDataSha256_eq_panic_iff]
  rw [exists_bytes_iff bytes (p := fun report _ =>
    report.hclData.reportDataHashType ≠ 1)]

/-- What is read of bytes that are received was spelled by them: the report of
either processor at the start of its field, the first key of the attestation
key's name, and the hash of the data.  The first three never panic; the hash
does exactly where another one than SHA-256 is named. -/
theorem received_reads :
    ((new bytes >>= tdReport) ≠ .panic ∧
      (new bytes >>= snpReport tools) ≠ .panic ∧
      (new bytes >>= HclReport.akPub tools) ≠ .panic) ∧
    ((new bytes >>= varDataSha256 tools) = .panic ↔
      ∃ report reportType vars, Spells bytes report vars ∧
        report.hclData.reportType = ReportType.code reportType ∧
        report.hclData.reportDataHashType ≠ 1) ∧
    (∀ hash, (new bytes >>= varDataSha256 tools) = .ok hash ↔
      ∃ report reportType vars, Spells bytes report vars ∧
        report.hclData.reportType = ReportType.code reportType ∧
        report.hclData.reportDataHashType = 1 ∧
        hash = tools.sha256 vars) ∧
    (∀ td, (new bytes >>= tdReport) = .ok td ↔
      ∃ report vars tail, Spells bytes report vars ∧
        report.hclData.reportType = ReportType.tdx.code ∧
        report.hwReport.toList = Tdx.TdReport.layout.write td ++ tail) ∧
    (∀ snp, (new bytes >>= snpReport tools) = .ok snp ↔
      ∃ report vars, Spells bytes report vars ∧
        report.hclData.reportType = ReportType.snp.code ∧
        tools.fromBytes report.hwReport.toList = some snp) ∧
    ∀ akPub, (new bytes >>= HclReport.akPub tools) = .ok akPub ↔
      ∃ report reportType vars before after, Spells bytes report vars ∧
        report.hclData.reportType = ReportType.code reportType ∧
        tools.fromSlice vars = .ok (before ++ akPub :: after) ∧
        tools.keyId akPub = some hclAkpubKeyId ∧
        ∀ key ∈ before, tools.keyId key ≠ some hclAkpubKeyId :=
  ⟨⟨Outcome.bind_ne_panic (new_ne_panic bytes) fun _ => tdReport_ne_panic,
    Outcome.bind_ne_panic (new_ne_panic bytes) fun _ => snpReport_ne_panic,
    Outcome.bind_ne_panic (new_ne_panic bytes) fun _ => akPub_ne_panic⟩,
    received_varDataSha256_panic_iff tools bytes,
    received_varDataSha256_iff tools bytes,
    received_tdReport_iff bytes, received_snpReport_iff tools bytes,
    received_akPub_iff tools bytes⟩

end Received

end HclReport

end Hcl

end Kettle
