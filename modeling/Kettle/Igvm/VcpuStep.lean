/-
One more vCPU: the launch digest is extended by one VMSA page, the same one
for every vCPU but the first.
-/
import Kettle.Igvm.LaunchDigest
import Kettle.Igvm.SnpBuild

namespace Kettle

namespace Igvm

section Crate

/-- Of several vCPUs, the one with the highest index. -/
def SnpVpContext.IsLast (context : SnpVpContext)
    (others : List IgvmDirectiveHeader) : Prop :=
  0 < context.vpIndex ∧
    ∀ other, .snpVpContext other ∈ others → other.vpIndex < context.vpIndex

/-- What the crate takes and writes, it takes and writes without the last
vCPU. -/
structure IgvmCrate.DropsLast (crate : IgvmCrate) : Prop where
  newFile : ∀ platforms initializations front context back igvm,
    context.IsLast (front ++ back) →
    crate.newFile platforms initializations
        (front ++ .snpVpContext context :: back) = .ok igvm →
      ∃ smaller, crate.newFile platforms initializations (front ++ back) =
        .ok smaller
  serialize : ∀ platforms initializations front context back bytes,
    context.IsLast (front ++ back) →
    crate.serialize ⟨platforms, initializations,
        front ++ .snpVpContext context :: back⟩ = .ok bytes →
      ∃ smaller, crate.serialize ⟨platforms, initializations,
        front ++ back⟩ = .ok smaller

theorem plainCrate_dropsLast : plainCrate.DropsLast where
  newFile _ _ _ _ _ _ _ _ := ⟨_, rfl⟩
  serialize _ _ _ _ _ _ _ _ := ⟨_, rfl⟩

end Crate

section Contexts

def BuildConfig.withSmp (config : BuildConfig) (smp : Nat) : BuildConfig :=
  { config with smp := .ofNat smp }

/-- The VMSA page of every vCPU but the first. -/
def apVmsaPage (crate : IgvmCrate) (apResetAddr : UInt32) : Bytes :=
  applyKvmVmsaOverrides ((crate.vmsaBytes (vmsaContext
    (realModeRegsAt apResetAddr) ⟨true, false⟩)).zeroPad pageSize)

variable {config : BuildConfig} {n : Nat}

theorem smp_withSmp (hn : n ≤ 2 ^ 16) : (config.withSmp n).smp.toNat = n := by
  simp only [BuildConfig.withSmp, UInt32.toNat_ofNat']
  omega

theorem apIndices_withSmp (hn : n ≤ 2 ^ 16) :
    (config.withSmp n).apIndices = List.range' 1 (n - 1) := by
  rw [BuildConfig.apIndices, smp_withSmp hn]

/-- The indices of one more vCPU. -/
theorem apIndices_succ (hpos : 1 ≤ n) (hn : n < 2 ^ 16) :
    (config.withSmp (n + 1)).apIndices =
      (config.withSmp n).apIndices ++ [n] := by
  rw [apIndices_withSmp (by omega), apIndices_withSmp (by omega)]
  obtain ⟨m, rfl⟩ : ∃ m, n = m + 1 := ⟨n - 1, by omega⟩
  rw [Nat.add_sub_cancel, Nat.add_sub_cancel, List.range'_concat]
  simp [Nat.add_comm]

variable (crate : IgvmCrate)

theorem sevSnpCompat_counts : sevSnpCompat &&& sevSnpCompat ≠ 0 := by decide

theorem vmsaPagesOf_apContext (addr : UInt32) (vp : Nat) :
    vmsaPagesOf sevSnpCompat [apContext crate (realModeRegsAt addr) vp] =
      [⟨snpPageTypeVmsa, vmsaGpa, some (apVmsaPage crate addr)⟩] :=
  vmsaPagesOf_snpVpContext sevSnpCompat_counts

theorem snpContexts_concat (apRegs : List X86Register) (vps : List Nat)
    (vp : Nat) :
    snpContexts crate config apRegs (vps ++ [vp]) =
      snpContexts crate config apRegs vps ++ [apContext crate apRegs vp] := by
  simp [snpContexts]

theorem allContexts_concat (apRegs : List X86Register) (vps : List Nat)
    (vp : Nat) :
    allContexts crate config apRegs (vps ++ [vp]) =
      allContexts crate config apRegs vps ++ [apContext crate apRegs vp] := by
  simp only [allContexts, snpContexts_concat, List.append_assoc]

/-- One VMSA for each vCPU. -/
theorem length_vmsaPagesOf_snpContexts (apRegs : List X86Register)
    (vps : List Nat) :
    (vmsaPagesOf sevSnpCompat (snpContexts crate config apRegs vps)).length =
      vps.length + 1 := by
  have hone : ∀ context : SnpVpContext,
      context.compatibilityMask = sevSnpCompat →
        (vmsaPagesOf sevSnpCompat [.snpVpContext context]).length = 1 := by
    intro context hmask
    rw [vmsaPagesOf_snpVpContext (by rw [hmask]; exact sevSnpCompat_counts)]
    rfl
  induction vps using List.reverseRecOn with
  | nil => exact hone _ rfl
  | append_singleton vps vp ih =>
      rw [snpContexts_concat, vmsaPagesOf_append, List.length_append, ih,
        apContext, hone _ rfl, List.length_append, List.length_singleton]

/-- The indices of the contexts stay below that of the next vCPU. -/
theorem apContext_isLast (apRegs : List X86Register) (hpos : 1 ≤ n)
    (hn : n < 2 ^ 16) {rest : List IgvmDirectiveHeader}
    (hrest : ∀ d ∈ rest, d.isContext = false) :
    ∃ context, apContext crate apRegs n = .snpVpContext context ∧
      context.IsLast (allContexts crate config apRegs
        (List.range' 1 (n - 1)) ++ rest) := by
  have hindex : ∀ vp, vp < 2 ^ 16 → (UInt16.ofNat vp).toNat = vp := by
    intro vp hvp
    rw [UInt16.toNat_ofNat']
    exact Nat.mod_eq_of_lt hvp
  have hlast : (0 : UInt16) < .ofNat n := by
    rw [UInt16.lt_iff_toNat_lt, hindex n hn]
    exact hpos
  refine ⟨_, rfl, hlast, ?_⟩
  intro other hother
  rcases List.mem_append.mp hother with hcontext | hnone
  · rcases List.mem_append.mp hcontext with hnative | hsnp
    · unfold nativeContexts at hnative
      split at hnative
      · split at hnative <;> simp at hnative
      · cases hnative
    · rcases List.mem_cons.mp hsnp with hbsp | hap
      · cases hbsp
        exact hlast
      · obtain ⟨vp, hvp, heq⟩ := List.mem_map.mp hap
        cases heq
        have hrange := List.mem_range'_1.mp hvp
        rw [UInt16.lt_iff_toNat_lt, hindex vp (by omega), hindex n hn]
        omega
  · cases hrest _ hnone

end Contexts

section Step

variable {sha384 : Bytes → Digest384} {crate : IgvmCrate}
  {config : BuildConfig} {n : Nat}

/-- Files with other vCPUs have the same headers and, behind the contexts,
the same directives. -/
theorem fileOf_contexts {hobs : List BuilderOp}
    (hhobs : hobOps config = .ok hobs) (apRegs : List X86Register)
    (vps vps' : List Nat) :
    ∃ platforms initializations rest,
      fileOf (runOps crate (contextBuilder crate config apRegs vps)
          (dataOps config hobs)) =
        ⟨platforms, initializations,
          allContexts crate config apRegs vps ++ rest⟩ ∧
      fileOf (runOps crate (contextBuilder crate config apRegs vps')
          (dataOps config hobs)) =
        ⟨platforms, initializations,
          allContexts crate config apRegs vps' ++ rest⟩ ∧
      ∀ d ∈ rest, d.isContext = false := by
  have hfront := isContext_contexts crate config apRegs vps
  have hfront' := isContext_contexts crate config apRegs vps'
  have hpair := pair_dataOps crate hhobs config apRegs apRegs vps vps'
  obtain ⟨hplatforms, hmask⟩ := header_dataOps crate hhobs config apRegs vps
  obtain ⟨hplatforms', hmask'⟩ :=
    header_dataOps crate hhobs config apRegs vps'
  obtain ⟨rest, rest', hsorted, hsorted', hrest, hnone⟩ :=
    hpair.sorted hfront hfront'
  -- both builders have the same mask, so the rest is the same
  rw [hmask, hmask'] at hrest
  have hsame := eq_of_remasked hrest
  subst hsame
  refine ⟨platformsOf config, (runOps crate (contextBuilder crate config
    apRegs vps) (dataOps config hobs)).initializations, rest', ?_, ?_, hnone⟩
  · rw [fileOf, hsorted, hplatforms]
  · rw [fileOf, hsorted', hpair.initializations, hplatforms']

/-- A measurement is extended by one VMSA page. -/
structure MeasureResult.ExtendsBy (sha384 : Bytes → Digest384) (page : Bytes)
    (smaller larger : MeasureResult) : Prop where
  launchDigest : larger.launchDigest =
    updatePageInfo sha384 smaller.launchDigest (sha384 page) snpPageTypeVmsa
      0xFFFFFFFFF000
  pageCount : larger.pageCount = smaller.pageCount + 1
  vmsaCount : larger.vmsaCount.toNat = smaller.vmsaCount.toNat + 1

/-- The measured sequence grows by one page at its end. -/
theorem extendsBy_of_measured {smaller larger : IgvmFile} {page : Bytes}
    (hmeasured : measuredSequence larger = measuredSequence smaller ++
      [⟨snpPageTypeVmsa, vmsaGpa, some page⟩])
    (hvmsas :
      (vmsaPagesOf larger.snpCompat larger.directives).length =
        (vmsaPagesOf smaller.snpCompat smaller.directives).length + 1)
    (hcount : (vmsaPagesOf larger.snpCompat larger.directives).length <
      2 ^ 32) :
    (measuredResult sha384 smaller).ExtendsBy sha384 page
      (measuredResult sha384 larger) where
  launchDigest := by
    simp only [measuredResult, hmeasured, List.map_append, List.foldl_append]
    rfl
  pageCount := by
    simp only [measuredResult, hmeasured, List.length_append,
      List.length_singleton, UInt64.ofNat_add]
    rfl
  vmsaCount := by
    simp only [measuredResult, UInt32.toNat_ofNat']
    omega

/-- The file for `n` vCPUs whose further ones start at `addr`. -/
def smpFile (crate : IgvmCrate) (config : BuildConfig) (addr : UInt32)
    (hobs : List BuilderOp) (n : Nat) : IgvmFile :=
  fileOf (snpBuilder crate (config.withSmp n)
    ((config.withSmp n).apIndices.map (apOp (realModeRegsAt addr))) hobs)

variable {addr : UInt32} {hobs : List BuilderOp}

/-- The file for one more vCPU has one more context, that of the last one. -/
theorem smpFile_succ (hhobs : hobOps config = .ok hobs) (hpos : 1 ≤ n)
    (hn : n < 2 ^ 16) :
    ∃ platforms initializations front context rest,
      context.IsLast (front ++ rest) ∧
      smpFile crate config addr hobs n =
        ⟨platforms, initializations, front ++ rest⟩ ∧
      smpFile crate config addr hobs (n + 1) =
        ⟨platforms, initializations,
          front ++ .snpVpContext context :: rest⟩ := by
  obtain ⟨platforms, initializations, rest, hsmaller, hlarger, hrest⟩ :=
    @fileOf_contexts crate config hobs hhobs (realModeRegsAt addr)
      (List.range' 1 (n - 1)) (List.range' 1 (n - 1) ++ [n])
  obtain ⟨context, hcontext, hlast⟩ :=
    @apContext_isLast config n crate (realModeRegsAt addr) hpos hn rest hrest
  refine ⟨platforms, initializations, _, context, rest, hlast, ?_, ?_⟩
  · rw [smpFile, snpBuilder_eq, apIndices_withSmp (by omega)]
    exact hsmaller
  · rw [smpFile, snpBuilder_eq, apIndices_succ hpos hn,
      apIndices_withSmp (by omega), ← hcontext]
    rw [allContexts_concat, List.append_assoc] at hlarger
    exact hlarger

/-- What is measured grows by the page of that context. -/
theorem measuredResult_smpFile_succ (hhobs : hobOps config = .ok hobs)
    (hpos : 1 ≤ n) (hn : n < 2 ^ 16) :
    (measuredResult sha384 (smpFile crate config addr hobs n)).ExtendsBy
      sha384 (apVmsaPage crate addr)
      (measuredResult sha384 (smpFile crate config addr hobs (n + 1))) := by
  have hhobs' : hobOps (config.withSmp n) = .ok hobs := hhobs
  have hdata : dataOps (config.withSmp (n + 1)) hobs =
      dataOps (config.withSmp n) hobs := rfl
  have hindices := @apIndices_succ config n hpos hn
  have hlength : (allContexts crate (config.withSmp n) (realModeRegsAt addr)
        (config.withSmp n).apIndices).length ≤
      (allContexts crate (config.withSmp (n + 1)) (realModeRegsAt addr)
        (config.withSmp (n + 1)).apIndices).length := by
    rw [hindices, allContexts_concat, List.length_append]
    exact Nat.le_add_right _ _
  obtain ⟨⟨pages, hpages, hpages'⟩, hvmsas, hvmsas'⟩ :=
    measured_of_sameData crate hhobs' hdata hlength
      (Eq.refl (smpFile crate config addr hobs n))
      (Eq.refl (smpFile crate config addr hobs (n + 1)))
  have hcontexts : snpContexts crate (config.withSmp (n + 1))
      (realModeRegsAt addr) (config.withSmp (n + 1)).apIndices =
        snpContexts crate (config.withSmp n) (realModeRegsAt addr)
          (config.withSmp n).apIndices ++
            [apContext crate (realModeRegsAt addr) n] := by
    rw [hindices, ← snpContexts_concat]
    rfl
  rw [hcontexts, vmsaPagesOf_append, vmsaPagesOf_apContext] at hpages' hvmsas'
  have hcount := @length_vmsaPagesOf_snpContexts (config.withSmp n) crate
    (realModeRegsAt addr) (config.withSmp n).apIndices
  rw [apIndices_withSmp (by omega), List.length_range'] at hcount
  refine extendsBy_of_measured ?_ ?_ ?_
  · rw [hpages', hpages, List.append_assoc]
  · rw [hvmsas', hvmsas, List.length_append]
    rfl
  · rw [hvmsas', List.length_append, apIndices_withSmp (by omega), hcount,
      List.length_singleton]
    omega

/-- The crate takes and writes the file for one vCPU less. -/
theorem smpFile_accepted (hkeeps : crate.KeepsParts)
    (hdrops : crate.DropsLast) (hhobs : hobOps config = .ok hobs)
    (hpos : 1 ≤ n) (hn : n < 2 ^ 16) {igvmBytes : Bytes}
    (hnew : crate.newFile (smpFile crate config addr hobs (n + 1)).platforms
      (smpFile crate config addr hobs (n + 1)).initializations
      (smpFile crate config addr hobs (n + 1)).directives =
        .ok (smpFile crate config addr hobs (n + 1)))
    (hwritten : crate.serialize (smpFile crate config addr hobs (n + 1)) =
      .ok igvmBytes) :
    crate.newFile (smpFile crate config addr hobs n).platforms
      (smpFile crate config addr hobs n).initializations
      (smpFile crate config addr hobs n).directives =
        .ok (smpFile crate config addr hobs n) ∧
    ∃ smallerBytes, crate.serialize (smpFile crate config addr hobs n) =
      .ok smallerBytes := by
  obtain ⟨platforms, initializations, front, context, rest, hlast, hsmall,
    hlarge⟩ := @smpFile_succ crate config n addr hobs hhobs hpos hn
  rw [hlarge] at hnew hwritten
  rw [hsmall]
  obtain ⟨igvm, hsmaller⟩ := hdrops.newFile _ _ _ _ _ _ hlast hnew
  refine ⟨?_, hdrops.serialize _ _ _ _ _ _ hlast hwritten⟩
  rw [hsmaller, hkeeps _ _ _ _ hsmaller]

/-- For one more vCPU the same file is built with one more context, and the
measurement is extended by its page. -/
theorem build_withSmp_succ (hkeeps : crate.KeepsParts)
    (hdrops : crate.DropsLast) (hsnp : config.useSnp = true) (hpos : 1 ≤ n)
    (hn : n < 2 ^ 16) {larger : BuildResult}
    (hlarger : build sha384 crate (config.withSmp (n + 1)) = .ok larger) :
    ∃ addr smaller, config.resetAddr = some addr ∧
      build sha384 crate (config.withSmp n) = .ok smaller ∧
      smaller.measurement.ExtendsBy sha384 (apVmsaPage crate addr)
        larger.measurement := by
  have hsnp' : ∀ smp, (config.withSmp smp).useSnp = true := fun _ => hsnp
  obtain ⟨aps, hobs, haps, hhobs, hfinalize, hmeasure, hserialize⟩ :=
    (build_eq_ok_iff hkeeps (hsnp' _)).mp hlarger
  obtain ⟨-, apRegs, rfl, hregs⟩ := apOps_eq_ok haps
  obtain ⟨addr, haddr, rfl⟩ := hregs (by
    rw [smp_withSmp (by omega)]
    omega)
  have hhobs : hobOps config = .ok hobs := hhobs
  have haps' : apOps (config.withSmp n) = _ :=
    apOps_of_resetAddr haddr (by rw [smp_withSmp (by omega)]; omega)
  obtain ⟨hfinalize', igvmBytes, hserialize'⟩ :=
    smpFile_accepted hkeeps hdrops hhobs hpos hn hfinalize hserialize
  obtain ⟨measurement, hmeasure'⟩ :=
    exists_measureSnp sha384 crate haps' hhobs
  have hsmaller : measurement =
      measuredResult sha384 (smpFile crate config addr hobs n) :=
    measureSnp_eq_measuredResult hmeasure'
  have hlarger : larger.measurement =
      measuredResult sha384 (smpFile crate config addr hobs (n + 1)) :=
    measureSnp_eq_measuredResult hmeasure
  refine ⟨addr, ⟨igvmBytes, measurement⟩, haddr, ?_, ?_⟩
  · exact (build_eq_ok_iff hkeeps (hsnp' n)).mpr
      ⟨_, hobs, haps', hhobs, hfinalize', hmeasure', hserialize'⟩
  · rw [hsmaller, hlarger]
    exact measuredResult_smpFile_succ hhobs hpos hn

/-- Of more than 65536 vCPUs one has an index that does not fit. -/
theorem build_error_of_many (sha384 : Bytes → Digest384) (crate : IgvmCrate)
    (hsnp : config.useSnp = true) (hmany : 2 ^ 16 < config.smp.toNat) :
    ∃ e, build sha384 crate config = .error e := by
  have haps : ∃ e, apOps config = .error e := by
    cases hcase : apOps config with
    | error e => exact ⟨e, rfl⟩
    | ok aps =>
        have hfew := (apOps_eq_ok hcase).1
        omega
  obtain ⟨e, haps⟩ := haps
  exact ⟨e, by rw [build, assemble_eq_run crate config hsnp, haps]; rfl⟩

/-- A build for one vCPU more is a build for one vCPU less whose digest is
extended by the same VMSA page, up to 65536 vCPUs, and there are no builds for
more. -/
theorem build_smp_step (hkeeps : crate.KeepsParts) (hdrops : crate.DropsLast)
    (config : BuildConfig) (hsnp : config.useSnp = true) :
    (∀ n, 1 ≤ n → n < 65536 → ∀ larger,
      build sha384 crate (config.withSmp (n + 1)) = .ok larger →
        ∃ addr smaller, config.resetAddr = some addr ∧
          build sha384 crate (config.withSmp n) = .ok smaller ∧
          smaller.measurement.ExtendsBy sha384 (apVmsaPage crate addr)
            larger.measurement) ∧
      ∀ smp : UInt32, 65536 < smp.toNat →
        ∃ e, build sha384 crate { config with smp := smp } = .error e := by
  constructor
  · intro n hpos hn larger hlarger
    exact build_withSmp_succ hkeeps hdrops hsnp hpos hn hlarger
  · intro smp hmany
    exact build_error_of_many sha384 crate hsnp hmany

theorem build_smp_step_resetConfig :
    ∃ larger smaller,
      build prefixDigest plainCrate (resetConfig.withSmp 2) = .ok larger ∧
      build prefixDigest plainCrate (resetConfig.withSmp 1) = .ok smaller ∧
      smaller.measurement.ExtendsBy prefixDigest
        (apVmsaPage plainCrate 0x80b004) larger.measurement := by
  have haddr : (resetConfig.withSmp 2).resetAddr = some 0x80b004 :=
    resetConfig_resetAddr
  have hhobs : hobOps (resetConfig.withSmp 2) = .ok [] := rfl
  have haps := apOps_of_resetAddr haddr (by decide)
  obtain ⟨larger, hlarger⟩ :=
    exists_build_plainCrate prefixDigest rfl haps hhobs
  obtain ⟨addr, smaller, haddr', hsmaller, hextends⟩ :=
    (build_smp_step plainCrate_keepsParts plainCrate_dropsLast resetConfig
      rfl).1 1 (by decide) (by decide) larger hlarger
  cases haddr.symm.trans haddr'
  exact ⟨larger, smaller, hlarger, hsmaller, hextends⟩

end Step

end Igvm

end Kettle
