/-
The NATIVE platform beside SNP: it changes masks and may add a context, and
leaves the SNP measurement as it is.
-/
import Kettle.Igvm.LaunchDigest
import Kettle.Igvm.SnpBuild

namespace Kettle

namespace Igvm

variable {sha384 : Bytes → Digest384} {crate : IgvmCrate}

/-- The same configuration for a platform. -/
def BuildConfig.on (config : BuildConfig) (platform : Platform) :
    BuildConfig :=
  { config with platform := platform }

/-- A build for SNP alone and one for SNP and NATIVE have the same launch
digest, page count and VMSA count. -/
theorem build_native_measurement (hcrate : crate.KeepsParts)
    {config : BuildConfig} {alone both : BuildResult}
    (halone : build sha384 crate (config.on .snp) = .ok alone)
    (hboth : build sha384 crate (config.on .snpNative) = .ok both) :
    both.measurement.launchDigest = alone.measurement.launchDigest ∧
      both.measurement.pageCount = alone.measurement.pageCount ∧
      both.measurement.vmsaCount = alone.measurement.vmsaCount := by
  obtain ⟨aps, hobs, haps, hhobs, -, hmeasure, -⟩ :=
    (build_eq_ok_iff hcrate rfl).mp halone
  obtain ⟨aps', hobs', haps', hhobs', -, hmeasure', -⟩ :=
    (build_eq_ok_iff hcrate rfl).mp hboth
  -- neither the vCPUs nor the blobs depend on the platform
  have hsameAps : aps' = aps := Except.ok.inj (haps'.symm.trans haps)
  have hsameHobs : hobs' = hobs := Except.ok.inj (hhobs'.symm.trans hhobs)
  subst hsameAps hsameHobs
  obtain ⟨-, apRegs, rfl, -⟩ := apOps_eq_ok haps
  have hlength : (allContexts crate (config.on .snp) apRegs
        (config.on .snp).apIndices).length ≤
      (allContexts crate (config.on .snpNative) apRegs
        (config.on .snp).apIndices).length := by
    simp [allContexts, snpContexts, nativeContexts, BuildConfig.on,
      BuildConfig.useNative]
  have hdata : dataOps (config.on .snpNative) hobs' =
      dataOps (config.on .snp) hobs' := rfl
  obtain ⟨⟨pages, hpages, hpages'⟩, hvmsas, hvmsas'⟩ :=
    measured_of_sameData crate hhobs hdata hlength rfl rfl
  have hsame : snpContexts crate (config.on .snpNative) apRegs
      (config.on .snp).apIndices = snpContexts crate (config.on .snp) apRegs
        (config.on .snp).apIndices := rfl
  rw [hsame] at hpages' hvmsas'
  rw [measureSnp_eq_measuredResult hmeasure,
    measureSnp_eq_measuredResult hmeasure']
  simp only [measuredResult]
  rw [hpages, hpages', hvmsas, hvmsas']
  exact ⟨rfl, rfl, rfl⟩

theorem exists_build_resetConfig (platform : Platform)
    (hsnp : (resetConfig.on platform).useSnp = true) :
    ∃ result, build prefixDigest plainCrate (resetConfig.on platform) =
      .ok result := by
  have haddr : (resetConfig.on platform).resetAddr = some 0x80b004 :=
    resetConfig_resetAddr
  have hsmp : (resetConfig.on platform).smp.toNat ≤ 2 ^ 16 := by
    simp [BuildConfig.on, resetConfig]
  have hhobs : hobOps (resetConfig.on platform) = .ok [] := rfl
  exact exists_build_plainCrate prefixDigest hsnp
    (apOps_of_resetAddr haddr hsmp) hhobs

theorem build_native_measurement_resetConfig :
    ∃ alone both,
      build prefixDigest plainCrate (resetConfig.on .snp) = .ok alone ∧
      build prefixDigest plainCrate (resetConfig.on .snpNative) = .ok both ∧
      both.measurement.launchDigest = alone.measurement.launchDigest ∧
      both.measurement.pageCount = alone.measurement.pageCount ∧
      both.measurement.vmsaCount = alone.measurement.vmsaCount := by
  obtain ⟨alone, halone⟩ := exists_build_resetConfig .snp rfl
  obtain ⟨both, hboth⟩ := exists_build_resetConfig .snpNative rfl
  exact ⟨alone, both, halone, hboth,
    build_native_measurement plainCrate_keepsParts halone hboth⟩

end Igvm

end Kettle
