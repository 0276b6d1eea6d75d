/-
A build for SNP: the contexts that come first, the operations behind them, and
what the result is made of.
-/
import Kettle.Igvm.BuilderPairs
import Kettle.Igvm.DirectiveOrder

namespace Kettle

namespace Igvm

section Contexts

/-- The context of a further vCPU, which does not depend on how many there
are. -/
def apContext (crate : IgvmCrate) (apRegs : List X86Register) (vp : Nat) :
    IgvmDirectiveHeader :=
  .snpVpContext {
    gpa := vmsaGpa
    compatibilityMask := sevSnpCompat
    vpIndex := .ofNat vp
    vmsa := crate.vmsaBytes (vmsaContext apRegs ⟨true, false⟩) }

def bspContext (crate : IgvmCrate) (config : BuildConfig) :
    IgvmDirectiveHeader :=
  .snpVpContext {
    gpa := vmsaGpa
    compatibilityMask := sevSnpCompat
    vpIndex := 0
    vmsa := crate.vmsaBytes
      (vmsaContext (bspRegs config.bootMode) ⟨true, false⟩) }

/-- The context of the second platform, for a 32-bit start. -/
def nativeContexts (crate : IgvmCrate) (config : BuildConfig) :
    List IgvmDirectiveHeader :=
  if config.useNative then
    match config.bootMode with
    | .flat32 => [.x64NativeVpContext nativeCompat 0
        (crate.nativeContextBytes (nativeContext (flat32ModeRegs none)))]
    | .real16 => []
  else []

def snpContexts (crate : IgvmCrate) (config : BuildConfig)
    (apRegs : List X86Register) (vps : List Nat) :
    List IgvmDirectiveHeader :=
  bspContext crate config :: vps.map (apContext crate apRegs)

def snpPlatform : IgvmPlatformHeader := ⟨sevSnpCompat, 2, .sevSnp, 1, 0⟩

def platformsOf (config : BuildConfig) : List IgvmPlatformHeader :=
  if config.useNative then [⟨nativeCompat, 2, .native, 1, 0⟩, snpPlatform]
  else [snpPlatform]

def maskOf (config : BuildConfig) : UInt32 :=
  if config.useNative then nativeCompat ||| sevSnpCompat else sevSnpCompat

/-- The contexts of both platforms. -/
def allContexts (crate : IgvmCrate) (config : BuildConfig)
    (apRegs : List X86Register) (vps : List Nat) :
    List IgvmDirectiveHeader :=
  nativeContexts crate config ++ snpContexts crate config apRegs vps

/-- The builder once the contexts are there. -/
def contextBuilder (crate : IgvmCrate) (config : BuildConfig)
    (apRegs : List X86Register) (vps : List Nat) : Builder where
  platforms := platformsOf config
  initializations := []
  directives := allContexts crate config apRegs vps
  compatibilityMaskAll := maskOf config

variable (crate : IgvmCrate) (config : BuildConfig)

theorem runOps_apOps (apRegs : List X86Register) (vps : List Nat)
    (builder : Builder) :
    runOps crate builder (vps.map (apOp apRegs)) =
      builder.push (vps.map (apContext crate apRegs)) := by
  induction vps generalizing builder with
  | nil => exact (builder.push_nil).symm
  | cons vp rest ih =>
      rw [List.map_cons, runOps_cons, ih, List.map_cons]
      exact Builder.push_push builder [apContext crate apRegs vp] _

theorem runOps_contexts (apRegs : List X86Register) (vps : List Nat) :
    runOps crate .new
        (nativeOps config ++ bspOps config ++ vps.map (apOp apRegs)) =
      contextBuilder crate config apRegs vps := by
  have hmask : (0 : UInt32) ||| sevSnpCompat = sevSnpCompat := by decide
  rw [runOps_append, runOps_apOps, runOps_append]
  unfold nativeOps contextBuilder allContexts platformsOf nativeContexts maskOf
  cases config.useNative with
  | true => cases config.bootMode <;> rfl
  | false =>
      simp only [Bool.false_eq_true, if_false]
      rw [← hmask]
      rfl

theorem isContext_contexts (apRegs : List X86Register) (vps : List Nat) :
    ∀ d ∈ allContexts crate config apRegs vps, d.isContext = true := by
  intro d hd
  rcases List.mem_append.mp hd with hnative | hsnp
  · unfold nativeContexts at hnative
    split at hnative
    · split at hnative
      · rw [List.mem_singleton.mp hnative]
        rfl
      · cases hnative
    · cases hnative
  · rcases List.mem_cons.mp hsnp with rfl | hap
    · rfl
    · obtain ⟨vp, -, rfl⟩ := List.mem_map.mp hap
      rfl

/-- Only the SNP contexts have VMSAs. -/
theorem vmsaPagesOf_contexts (apRegs : List X86Register) (vps : List Nat) :
    vmsaPagesOf sevSnpCompat (allContexts crate config apRegs vps) =
      vmsaPagesOf sevSnpCompat (snpContexts crate config apRegs vps) := by
  have hnone : vmsaPagesOf sevSnpCompat (nativeContexts crate config) =
      [] := by
    unfold nativeContexts
    cases config.useNative <;> cases config.bootMode <;> rfl
  rw [allContexts, vmsaPagesOf_append, hnone, List.nil_append]

theorem context_pair (config config' : BuildConfig)
    (apRegs apRegs' : List X86Register) (vps vps' : List Nat) :
    Builder.Pair (allContexts crate config apRegs vps)
      (allContexts crate config' apRegs' vps')
      (contextBuilder crate config apRegs vps)
      (contextBuilder crate config' apRegs' vps') :=
  ⟨⟨[], [], (List.append_nil _).symm, (List.append_nil _).symm, .nil,
    fun _ hd => nomatch hd⟩, rfl⟩

theorem maskOf_counts : maskOf config &&& sevSnpCompat ≠ 0 := by
  unfold maskOf
  cases config.useNative <;> decide

theorem snpCompat_of_platforms {igvm : IgvmFile}
    (hplatforms : igvm.platforms = platformsOf config) :
    igvm.snpCompat = sevSnpCompat := by
  rw [IgvmFile.snpCompat, hplatforms, platformsOf]
  cases config.useNative <;> rfl

/-- The operations behind the contexts. -/
def dataOps (hobs : List BuilderOp) : List BuilderOp :=
  metaOps config ++ imageOps config ++ hobs

variable {config}

theorem afterContexts_blobOps (measured : Bool) (blob : Nat × Bytes) :
    ∀ op ∈ blobOps measured blob, op.AfterContexts := by
  simp [blobOps, BuilderOp.AfterContexts]

theorem afterContexts_dataOps {hobs : List BuilderOp}
    (hhobs : hobOps config = .ok hobs) :
    ∀ op ∈ dataOps config hobs, op.AfterContexts := by
  have hmeta : ∀ op ∈ metaOps config, op.AfterContexts := by
    unfold metaOps
    cases OvmfMeta.new config.firmware <;> simp [BuilderOp.AfterContexts]
  have himages : ∀ op ∈ imageOps config, op.AfterContexts := by
    unfold imageOps lowFirmwareOps
    cases config.bootMode <;> cases config.vars <;>
      simp [BuilderOp.AfterContexts]
  have hhob : ∀ op ∈ hobs, op.AfterContexts := by
    unfold hobOps at hhobs
    split at hhobs
    · cases hhobs
      exact fun _ hop => nomatch hop
    · obtain ⟨hobarea, -, hops⟩ := bind_eq_ok_iff.mp hhobs
      cases hops
      intro op hop
      rcases List.mem_append.mp hop with hop | hshim
      · rcases List.mem_append.mp hop with hlist | hblob
        · simp only [List.mem_cons, List.not_mem_nil, or_false] at hlist
          rcases hlist with rfl | rfl <;> exact trivial
        · obtain ⟨blob, -, hop⟩ := List.mem_flatMap.mp hblob
          exact afterContexts_blobOps true blob op hop
      · obtain ⟨blob, -, hop⟩ := List.mem_flatMap.mp hshim
        exact afterContexts_blobOps false blob op hop
  intro op hop
  rcases List.mem_append.mp hop with hop | hop
  · rcases List.mem_append.mp hop with hop | hop
    · exact hmeta op hop
    · exact himages op hop
  · exact hhob op hop

def BuildConfig.resetAddr (config : BuildConfig) : Option UInt32 :=
  (OvmfMeta.new config.firmware).bind (·.sevResetAddr)

/-- The indices of the further vCPUs. -/
def BuildConfig.apIndices (config : BuildConfig) : List Nat :=
  List.range' 1 (config.smp.toNat - 1)

theorem apOps_of_resetAddr {addr : UInt32}
    (haddr : config.resetAddr = some addr)
    (hsmp : config.smp.toNat ≤ 2 ^ 16) :
    apOps config =
      .ok (config.apIndices.map (apOp (realModeRegsAt addr))) := by
  unfold apOps
  by_cases hmany : 1 < config.smp
  · have hreset : (OvmfMeta.new config.firmware).bind (·.sevResetAddr) =
        some addr := haddr
    rw [if_pos hmany, hreset, okOr_some, ok_bind, if_neg (by omega)]
    rfl
  · have hone : ¬ 1 < config.smp.toNat := hmany
    have hnone : config.smp.toNat - 1 = 0 := by omega
    rw [if_neg hmany, BuildConfig.apIndices, hnone]
    rfl

/-- Contexts are made for 65536 vCPUs at most, and for more than one only
with a reset address. -/
theorem apOps_eq_ok {aps : List BuilderOp} (haps : apOps config = .ok aps) :
    config.smp.toNat ≤ 2 ^ 16 ∧
      ∃ apRegs, aps = config.apIndices.map (apOp apRegs) ∧
        (1 < config.smp.toNat → ∃ addr, config.resetAddr = some addr ∧
          apRegs = realModeRegsAt addr) := by
  unfold apOps at haps
  by_cases hmany : 1 < config.smp
  · rw [if_pos hmany] at haps
    obtain ⟨addr, haddr, hrest⟩ := bind_eq_ok_iff.mp haps
    by_cases hindex : 2 ^ 16 < config.smp.toNat
    · rw [if_pos hindex] at hrest
      cases hrest
    · rw [if_neg hindex] at hrest
      cases hrest
      exact ⟨by omega, _, rfl, fun _ => ⟨addr, okOr_eq_ok_iff.mp haddr, rfl⟩⟩
  · have hone : ¬ 1 < config.smp.toNat := hmany
    have hnone : config.smp.toNat - 1 = 0 := by omega
    rw [if_neg hmany] at haps
    cases haps
    refine ⟨by omega, [], ?_, fun h => absurd h hone⟩
    rw [BuildConfig.apIndices, hnone]
    rfl

end Contexts

section Result

variable {sha384 : Bytes → Digest384} {crate : IgvmCrate}
  {config : BuildConfig}

/-- The crate makes a file of the headers and directives it is given. -/
def IgvmCrate.KeepsParts (crate : IgvmCrate) : Prop :=
  ∀ platforms initializations directives igvm,
    crate.newFile platforms initializations directives = .ok igvm →
      igvm = ⟨platforms, initializations, directives⟩

/-- The builder that `build` finalizes for SNP. -/
def snpBuilder (crate : IgvmCrate) (config : BuildConfig)
    (aps hobs : List BuilderOp) : Builder :=
  runOps crate (runOps crate .new (nativeOps config ++ bspOps config ++ aps))
    (dataOps config hobs)

def fileOf (builder : Builder) : IgvmFile :=
  ⟨builder.platforms, builder.initializations,
    Builder.sortPages builder.directives⟩

theorem atStage_eq_ok_iff {α : Type} {stage : String}
    {first : Except String α} {value : α} :
    atStage stage first = .ok value ↔ first = .ok value := by
  cases first <;> simp [atStage]

/-- What a build for SNP goes through. -/
theorem build_eq_ok_iff (hcrate : crate.KeepsParts)
    (hsnp : config.useSnp = true) {result : BuildResult} :
    build sha384 crate config = .ok result ↔
      ∃ aps hobs, apOps config = .ok aps ∧ hobOps config = .ok hobs ∧
        (snpBuilder crate config aps hobs).finalize crate =
          .ok (fileOf (snpBuilder crate config aps hobs)) ∧
        measureSnp sha384 (fileOf (snpBuilder crate config aps hobs)) =
          .ok result.measurement ∧
        crate.serialize (fileOf (snpBuilder crate config aps hobs)) =
          .ok result.igvmBytes := by
  have hfile : ∀ {builder : Builder} {igvm : IgvmFile},
      builder.finalize crate = .ok igvm → igvm = fileOf builder :=
    fun hok => hcrate _ _ _ _ hok
  rw [build, assemble_eq_run crate config hsnp]
  constructor
  · intro hbuild
    obtain ⟨builder, hassemble, hrest⟩ := bind_eq_ok_iff.mp hbuild
    obtain ⟨aps, haps, hassemble⟩ := bind_eq_ok_iff.mp hassemble
    obtain ⟨hobs, hhobs, hassemble⟩ := bind_eq_ok_iff.mp hassemble
    have hbuilder : builder = snpBuilder crate config aps hobs := by
      cases hassemble
      exact runOps_append _ _ _ _
    obtain ⟨igvm, hfinalize, hrest⟩ := bind_eq_ok_iff.mp hrest
    obtain ⟨measurement, hmeasure, hrest⟩ := bind_eq_ok_iff.mp hrest
    obtain ⟨igvmBytes, hserialize, hresult⟩ := bind_eq_ok_iff.mp hrest
    have hfinalize := atStage_eq_ok_iff.mp hfinalize
    have higvm := hfile hfinalize
    subst higvm hbuilder
    cases hresult
    exact ⟨aps, hobs, haps, hhobs, hfinalize, hmeasure,
      atStage_eq_ok_iff.mp hserialize⟩
  · rintro ⟨aps, hobs, haps, hhobs, hfinalize, hmeasure, hserialize⟩
    have hbuilder : runOps crate .new (nativeOps config ++ bspOps config ++
        aps ++ (metaOps config ++ imageOps config ++ hobs)) =
          snpBuilder crate config aps hobs := runOps_append _ _ _ _
    simp only [haps, hhobs, ok_bind, hbuilder, hfinalize, hmeasure,
      hserialize, atStage]

theorem snpBuilder_eq (crate : IgvmCrate) (config : BuildConfig)
    (apRegs : List X86Register) (vps : List Nat) (hobs : List BuilderOp) :
    snpBuilder crate config (vps.map (apOp apRegs)) hobs =
      runOps crate (contextBuilder crate config apRegs vps)
        (dataOps config hobs) := by
  rw [snpBuilder, runOps_contexts]

/-- The operations behind the contexts keep platforms and mask. -/
theorem header_dataOps (crate : IgvmCrate) {hobs : List BuilderOp}
    (hhobs : hobOps config = .ok hobs) (config' : BuildConfig)
    (apRegs : List X86Register) (vps : List Nat) :
    (runOps crate (contextBuilder crate config' apRegs vps)
        (dataOps config hobs)).platforms = platformsOf config' ∧
      (runOps crate (contextBuilder crate config' apRegs vps)
        (dataOps config hobs)).compatibilityMaskAll = maskOf config' :=
  runOps_header crate _ (afterContexts_dataOps hhobs)

/-- The same operations behind two lists of contexts. -/
theorem pair_dataOps (crate : IgvmCrate) {hobs : List BuilderOp}
    (hhobs : hobOps config = .ok hobs) (config' : BuildConfig)
    (apRegs apRegs' : List X86Register) (vps vps' : List Nat) :
    Builder.Pair (allContexts crate config apRegs vps)
      (allContexts crate config' apRegs' vps')
      (runOps crate (contextBuilder crate config apRegs vps)
        (dataOps config hobs))
      (runOps crate (contextBuilder crate config' apRegs' vps')
        (dataOps config hobs)) :=
  (context_pair crate config config' apRegs apRegs' vps vps').run crate
    (isContext_contexts crate config apRegs vps)
    (isContext_contexts crate config' apRegs' vps')
    (afterContexts_dataOps hhobs)

/-- Two builds with the same operations behind their contexts measure the same
pages, and then each the VMSAs of its own contexts. -/
theorem measured_of_sameData (crate : IgvmCrate)
    {config config' : BuildConfig} {hobs : List BuilderOp}
    (hhobs : hobOps config = .ok hobs)
    (hdata : dataOps config' hobs = dataOps config hobs)
    {apRegs apRegs' : List X86Register} {vps vps' : List Nat}
    (hlength : (allContexts crate config apRegs vps).length ≤
      (allContexts crate config' apRegs' vps').length)
    {igvm igvm' : IgvmFile}
    (higvm : igvm =
      fileOf (snpBuilder crate config (vps.map (apOp apRegs)) hobs))
    (higvm' : igvm' =
      fileOf (snpBuilder crate config' (vps'.map (apOp apRegs')) hobs)) :
    (∃ pages, measuredSequence igvm = pages ++
        vmsaPagesOf sevSnpCompat (snpContexts crate config apRegs vps) ∧
      measuredSequence igvm' = pages ++
        vmsaPagesOf sevSnpCompat (snpContexts crate config' apRegs' vps')) ∧
      vmsaPagesOf igvm.snpCompat igvm.directives =
        vmsaPagesOf sevSnpCompat (snpContexts crate config apRegs vps) ∧
      vmsaPagesOf igvm'.snpCompat igvm'.directives =
        vmsaPagesOf sevSnpCompat (snpContexts crate config' apRegs' vps') := by
  have hfront := isContext_contexts crate config apRegs vps
  have hfront' := isContext_contexts crate config' apRegs' vps'
  have hpair := pair_dataOps crate hhobs config' apRegs apRegs' vps vps'
  obtain ⟨hplatforms, hmask⟩ := header_dataOps crate hhobs config apRegs vps
  obtain ⟨hplatforms', hmask'⟩ :=
    header_dataOps crate hhobs config' apRegs' vps'
  rw [snpBuilder_eq] at higvm
  rw [snpBuilder_eq, hdata] at higvm'
  have hcompat : igvm.snpCompat = sevSnpCompat :=
    snpCompat_of_platforms config (by rw [higvm]; exact hplatforms)
  have hcompat' : igvm'.snpCompat = sevSnpCompat :=
    snpCompat_of_platforms config' (by rw [higvm']; exact hplatforms')
  have hmeasured := hpair.measured hfront hfront' hlength
    (by rw [hmask]; exact maskOf_counts config)
    (by rw [hmask']; exact maskOf_counts config') hcompat hcompat'
    (by rw [higvm]; rfl) (by rw [higvm']; rfl)
  rw [vmsaPagesOf_contexts, vmsaPagesOf_contexts] at hmeasured
  exact hmeasured

end Result

section Inserts

/-- Every insert names an area that is declared. -/
def Builder.Declared (builder : Builder) : Prop :=
  ∀ insert, .parameterInsert insert ∈ builder.directives →
    ∃ bytes data, .parameterArea bytes insert.parameterAreaIndex data ∈
      builder.directives

namespace BuilderOp

variable {crate : IgvmCrate} {op : BuilderOp}

theorem not_mem_map_pageData {insert : IgvmParameterInsert}
    (pages : List PageData) :
    .parameterInsert insert ∉ pages.map IgvmDirectiveHeader.pageData := by
  intro hmem
  obtain ⟨page, -, heq⟩ := List.mem_map.mp hmem
  cases heq

theorem adds_declared (hafter : op.AfterContexts) (builder : Builder)
    {insert : IgvmParameterInsert}
    (hinsert : .parameterInsert insert ∈ op.adds crate builder) :
    ∃ bytes data, .parameterArea bytes insert.parameterAreaIndex data ∈
      op.adds crate builder := by
  cases op with
  | addOvmfIgvmParams ovmfmeta =>
      simp only [adds, apply, Builder.addOvmfIgvmParams_eq,
        Builder.directives_push, List.nil_append, Builder.igvmParams]
        at hinsert ⊢
      cases hfind : ovmfmeta.regions.find?
          (fun r => r.etype = .igvmParamArea) with
      | none => simp [hfind] at hinsert
      | some area =>
          simp only [hfind, List.mem_append, List.mem_singleton,
            List.mem_flatMap] at hinsert
          rcases hinsert with (harea | ⟨r, -, hparam⟩) | heq
          · cases harea
          · have hnone := (indices_of_mem_igvmParam hparam).1
            cases hnone
          · cases heq
            exact ⟨_, _, List.mem_append_left _
              (List.mem_append_left _ List.mem_cons_self)⟩
  | addOvmfSnpPages ovmfmeta =>
      simp only [adds, apply, Builder.addOvmfSnpPages_eq,
        Builder.directives_push, List.nil_append, ← List.map_flatMap]
        at hinsert
      exact absurd hinsert (not_mem_map_pageData _)
  | addEmptyPages base size compatibilityMask dataType
  | addEmptyNormalPages base size =>
      obtain ⟨pg, -, heq⟩ := List.mem_map.mp hinsert
      cases heq
  | addDataPagesFlags base data flags | addDataPages base data
  | addDataPagesUnmeasured base data | addFirmware4g firmware
  | addFirmware1m firmware | addUefivars uefivars fwsize =>
      exact absurd hinsert (not_mem_map_pageData _)
  | addSnpPolicy policy | removePageDataInRange base size => cases hinsert
  | addIgvmParamArea index bytes | addIgvmParamMemmap index offset
  | addIgvmParamVpcount index offset =>
      cases List.mem_singleton.mp hinsert
  | addNativePlatform | addSnpPlatform | addNativeContext regs
  | addSnpVmsaContext regs debug vpIndex | addIgvmParamInsert index gpa =>
      exact hafter.elim

end BuilderOp

variable {crate : IgvmCrate}

theorem Builder.Declared.run {builder : Builder}
    (hdeclared : builder.Declared) {ops : List BuilderOp}
    (hafter : ∀ op ∈ ops, op.AfterContexts) :
    (runOps crate builder ops).Declared := by
  induction ops generalizing builder with
  | nil => exact hdeclared
  | cons op rest ih =>
      apply ih _ fun other hother =>
        hafter other (List.mem_cons_of_mem _ hother)
      intro insert hinsert
      rw [op.directives_apply] at hinsert ⊢
      rcases List.mem_append.mp hinsert with hold | hnew
      · obtain ⟨bytes, data, harea⟩ :=
          hdeclared insert (List.mem_filter.mp hold).1
        refine ⟨bytes, data, List.mem_append_left _
          (List.mem_filter.mpr ⟨harea, keeps_of_not_isPage op rfl⟩)⟩
      · obtain ⟨bytes, data, harea⟩ := BuilderOp.adds_declared
          (hafter op List.mem_cons_self) builder hnew
        exact ⟨bytes, data, List.mem_append_right _ harea⟩

/-- What a build for SNP has assembled can always be measured. -/
theorem exists_measureSnp (sha384 : Bytes → Digest384) (crate : IgvmCrate)
    {config : BuildConfig} {aps hobs : List BuilderOp}
    (haps : apOps config = .ok aps) (hhobs : hobOps config = .ok hobs) :
    ∃ measurement, measureSnp sha384
      (fileOf (snpBuilder crate config aps hobs)) = .ok measurement := by
  obtain ⟨-, apRegs, rfl, -⟩ := apOps_eq_ok haps
  have hafter := afterContexts_dataOps hhobs
  refine (measureSnp_ok_iff _).mpr ⟨?_, ?_⟩
  · refine ⟨snpPlatform, ?_, rfl⟩
    rw [fileOf, snpBuilder_eq, (header_dataOps crate hhobs config _ _).1,
      platformsOf]
    cases config.useNative <;> simp
  · have hcontexts : (contextBuilder crate config apRegs
        config.apIndices).Declared := by
      intro insert hinsert
      cases isContext_contexts crate config apRegs config.apIndices _ hinsert
    have hsorted : ∀ (builder : Builder) (d : IgvmDirectiveHeader),
        d ∈ (fileOf builder).directives ↔ d ∈ builder.directives :=
      fun builder _ =>
        (StableSort.sortBy_perm Builder.sortGpa builder.directives).mem_iff
    intro insert hinsert _
    rw [hsorted, snpBuilder_eq] at hinsert
    obtain ⟨bytes, data, harea⟩ := hcontexts.run hafter insert hinsert
    rw [← snpBuilder_eq, ← hsorted] at harea
    exact ⟨bytes, data, harea⟩

end Inserts

section Samples

/-- 32 bytes of reset code behind the one block of the metadata, which has the
reset address 0x80b004. -/
def resetFirmware : Bytes :=
  Bytes.ofNatLE 4 0x80b004 ++ (Bytes.ofNatLE 2 22 ++ ovmfMetaSevReset) ++
    (Bytes.ofNatLE 2 40 ++ ovmfMetaList) ++ List.replicate 32 0

/-- That firmware and two vCPUs. -/
def resetConfig : BuildConfig where
  firmware := resetFirmware
  vars := none
  kernel := none
  shim := none
  pk := none
  kek := none
  db := none
  dbx := none
  platform := .snp
  bootMode := .flat32
  smp := 2

theorem resetConfig_resetAddr : resetConfig.resetAddr = some 0x80b004 := by
  decide

theorem plainCrate_keepsParts : plainCrate.KeepsParts := by
  intro platforms initializations directives igvm hok
  cases hok
  rfl

/-- Whatever is assembled is built with a crate that takes every file. -/
theorem exists_build_plainCrate (sha384 : Bytes → Digest384)
    {config : BuildConfig} (hsnp : config.useSnp = true)
    {aps hobs : List BuilderOp} (haps : apOps config = .ok aps)
    (hhobs : hobOps config = .ok hobs) :
    ∃ result, build sha384 plainCrate config = .ok result := by
  obtain ⟨measurement, hmeasure⟩ :=
    exists_measureSnp sha384 plainCrate haps hhobs
  exact ⟨⟨[], measurement⟩,
    (build_eq_ok_iff plainCrate_keepsParts hsnp).mpr
      ⟨aps, hobs, haps, hhobs, rfl, hmeasure, rfl⟩⟩

end Samples

end Igvm

end Kettle
