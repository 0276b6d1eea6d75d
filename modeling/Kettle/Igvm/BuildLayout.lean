/-
The directives that `build` assembles leave the layout of the configuration in
guest memory, and they carry no more pages with data than the inputs fill.
-/
import Kettle.Igvm.GuestMemory

namespace Kettle

namespace Igvm

namespace Builder

/-- No directive so far carries page contents. -/
def Dataless (builder : Builder) : Prop :=
  ∀ directive ∈ builder.directives, mappedPage directive = none

theorem dataless_new : new.Dataless := by
  intro directive hmem
  cases hmem

theorem Dataless.push {builder : Builder}
    {directives : List IgvmDirectiveHeader} (hdataless : builder.Dataless)
    (hnew : ∀ directive ∈ directives, mappedPage directive = none) :
    (builder.push directives).Dataless := by
  intro directive hmem
  rcases List.mem_append.mp hmem with hold | hadded
  · exact hdataless directive hold
  · exact hnew directive hadded

theorem Dataless.addNativeContext {builder : Builder}
    (hdataless : builder.Dataless) (crate : IgvmCrate)
    (regs : List X86Register) :
    (builder.addNativeContext crate regs).Dataless := by
  apply hdataless.push
  intro directive hmem
  rw [List.mem_singleton.mp hmem]
  rfl

theorem Dataless.addSnpVmsaContext {builder : Builder}
    (hdataless : builder.Dataless) (crate : IgvmCrate)
    (regs : List X86Register) (debug : Bool) (vpIndex : UInt16) :
    (builder.addSnpVmsaContext crate regs debug vpIndex).Dataless := by
  apply hdataless.push
  intro directive hmem
  rw [List.mem_singleton.mp hmem]
  rfl

theorem Dataless.addEmptyPages {builder : Builder}
    (hdataless : builder.Dataless) (base size : Nat) (mask : UInt32)
    (dataType : IgvmPageDataType) :
    (builder.addEmptyPages base size mask dataType).Dataless := by
  apply hdataless.push
  intro directive hmem
  obtain ⟨pg, -, rfl⟩ := List.mem_map.mp hmem
  rfl

theorem Dataless.foldl {α : Type} {step : Builder → α → Builder}
    (hstep : ∀ builder item, builder.Dataless → (step builder item).Dataless)
    {builder : Builder} (hdataless : builder.Dataless) (items : List α) :
    (items.foldl step builder).Dataless := by
  induction items generalizing builder with
  | nil => exact hdataless
  | cons item rest ih => exact ih (hstep builder item hdataless)

theorem Dataless.addOvmfSnpPages {builder : Builder}
    (hdataless : builder.Dataless) (ovmfmeta : OvmfMeta) :
    (builder.addOvmfSnpPages ovmfmeta).Dataless := by
  apply Dataless.foldl _ hdataless
  intro builder r hbuilder
  unfold addOvmfSnpRegion
  cases sevPageType r.etype with
  | none => exact hbuilder
  | some t =>
      apply Dataless.foldl _ hbuilder
      intro builder pg hpage
      by_cases hparam : inParamArea ovmfmeta (r.base + pg * pageSize)
      · simpa [hparam] using hpage
      · simpa [hparam] using hpage.addEmptyPages _ _ _ _

theorem mappedPage_igvmParam (r : OvmfRegion) :
    ∀ directive ∈ igvmParam r, mappedPage directive = none := by
  intro directive hmem
  unfold igvmParam at hmem
  split at hmem
  · rw [List.mem_singleton.mp hmem]
    rfl
  · rw [List.mem_singleton.mp hmem]
    rfl
  · cases hmem

theorem Dataless.addOvmfIgvmParams {builder : Builder}
    (hdataless : builder.Dataless) (ovmfmeta : OvmfMeta) :
    (builder.addOvmfIgvmParams ovmfmeta).Dataless := by
  unfold Builder.addOvmfIgvmParams
  split
  · exact hdataless
  · apply hdataless.push
    intro directive hmem
    rcases List.mem_append.mp hmem with hfront | hinsert
    · rcases List.mem_append.mp hfront with harea | hparam
      · rw [List.mem_singleton.mp harea]
        rfl
      · obtain ⟨r, -, hr⟩ := List.mem_flatMap.mp hparam
        exact mappedPage_igvmParam r directive hr
    · rw [List.mem_singleton.mp hinsert]
      rfl

end Builder

theorem addApContexts_dataless {crate : IgvmCrate}
    {apRegs : List X86Register} {count vp : Nat} {builder result : Builder}
    (hdataless : builder.Dataless)
    (hok : addApContexts crate apRegs count vp builder = .ok result) :
    result.Dataless := by
  induction count generalizing vp builder with
  | zero =>
      cases hok
      exact hdataless
  | succ count ih =>
      rw [addApContexts] at hok
      split at hok
      · cases hok
      · exact ih (hdataless.addSnpVmsaContext _ _ _ _) hok

theorem addNative_dataless (crate : IgvmCrate) (config : BuildConfig) :
    (addNative crate config .new).Dataless := by
  have hplatform : Builder.new.addNativePlatform.Dataless :=
    Builder.dataless_new
  unfold addNative
  cases config.bootMode with
  | flat32 => exact hplatform.addNativeContext _ _
  | real16 => exact hplatform

theorem addAps_dataless {crate : IgvmCrate} {config : BuildConfig}
    {ovmfmeta : Option OvmfMeta} {builder result : Builder}
    (hdataless : builder.Dataless)
    (hok : addAps crate config ovmfmeta builder = .ok result) :
    result.Dataless := by
  unfold addAps at hok
  split at hok
  · obtain ⟨addr, -, haps⟩ := bind_eq_ok_iff.mp hok
    exact addApContexts_dataless hdataless haps
  · cases hok
    exact hdataless

theorem addSnp_dataless {crate : IgvmCrate} {config : BuildConfig}
    {ovmfmeta : Option OvmfMeta} {builder result : Builder}
    (hdataless : builder.Dataless)
    (hok : addSnp crate config ovmfmeta builder = .ok result) :
    result.Dataless := by
  have hplatform : builder.addSnpPlatform.Dataless := hdataless
  obtain ⟨contexts, hcontexts, hresult⟩ := bind_eq_ok_iff.mp hok
  have haps : contexts.Dataless := by
    apply addAps_dataless _ hcontexts
    exact hplatform.addSnpVmsaContext _ _ _ _
  cases hresult
  cases ovmfmeta with
  | none => exact haps
  | some ovmfmeta => exact haps.addOvmfSnpPages ovmfmeta

theorem addPlatforms_dataless {crate : IgvmCrate} {config : BuildConfig}
    {ovmfmeta : Option OvmfMeta} {result : Builder}
    (hok : addPlatforms crate config ovmfmeta = .ok result) :
    result.Dataless := by
  have hnative : (if config.useNative then addNative crate config .new
      else Builder.new).Dataless := by
    split
    · exact addNative_dataless crate config
    · exact Builder.dataless_new
  simp only [addPlatforms] at hok
  split at hok
  · exact addSnp_dataless hnative hok
  · cases hok
    exact hnative

theorem Builder.Dataless.guestMemory_eq {builder : Builder}
    (hdataless : builder.Dataless) :
    guestMemory builder.directives = .empty := by
  funext gpa
  have hnone : ∀ directives : List IgvmDirectiveHeader,
      (∀ directive ∈ directives, mappedPage directive = none) →
        lookupPage gpa directives = none := by
    intro directives
    induction directives with
    | nil => exact fun _ => rfl
    | cons directive rest ih =>
        intro hall
        have hhead := hall directive List.mem_cons_self
        have hrest := ih fun other hmem =>
          hall other (List.mem_cons_of_mem _ hmem)
        rw [lookupPage, hrest, pageAt, hhead, Option.none_or]
  exact hnone builder.directives hdataless

theorem guestMemory_addImages {builder : Builder} (config : BuildConfig)
    (hdataless : builder.Dataless) :
    guestMemory (addImages config builder).directives = config.images := by
  unfold addImages addLowFirmware BuildConfig.images
  cases config.bootMode <;> cases config.vars <;>
    simp [Builder.addFirmware1m, Builder.addFirmware4g, Builder.addUefivars,
      Builder.addDataPages, Builder.guestMemory_addDataPagesFlags,
      hdataless.guestMemory_eq]

/-- What comes before the images carries no contents. -/
theorem prepare_eq_addImages {crate : IgvmCrate} {config : BuildConfig}
    {builder : Builder} (hok : prepare crate config = .ok builder) :
    ∃ bare : Builder, bare.Dataless ∧ builder = addImages config bare := by
  obtain ⟨platforms, hplatforms, hbuilder⟩ := bind_eq_ok_iff.mp hok
  have hdataless := addPlatforms_dataless hplatforms
  cases hbuilder
  refine ⟨_, ?_, rfl⟩
  cases OvmfMeta.new config.firmware with
  | none => exact hdataless
  | some ovmfmeta => exact hdataless.addOvmfIgvmParams ovmfmeta

/-- The assembled directives write the layout of the configuration. -/
theorem assemble_guestMemory {crate : IgvmCrate} {config : BuildConfig}
    {builder : Builder} (hok : assemble crate config = .ok builder)
    (hdata : config.hasData = true) :
    ∃ hobarea, config.hobArea = some hobarea ∧
      guestMemory builder.directives = config.layout hobarea := by
  obtain ⟨prepared, hprepare, hhobs⟩ := bind_eq_ok_iff.mp hok
  obtain ⟨bare, hdataless, rfl⟩ := prepare_eq_addImages hprepare
  simp only [addHobData, hdata, Bool.not_true, Bool.false_eq_true, if_false]
    at hhobs
  obtain ⟨hobarea, harea, hplaced⟩ := bind_eq_ok_iff.mp hhobs
  refine ⟨hobarea, ?_, ?_⟩
  · unfold BuildConfig.hobArea
    cases hfind : (OvmfMeta.new config.firmware).bind fun m =>
        m.regions.find? (fun r => r.etype = .igvmHobArea) with
    | none =>
        rw [hfind] at harea
        cases harea
    | some found =>
        rw [hfind] at harea
        cases harea
        rfl
  · cases hplaced
    rw [Builder.guestMemory_foldl_placeBlob,
      Builder.guestMemory_foldl_placeBlob, Builder.placeHobs,
      Builder.addDataPages, Builder.guestMemory_addDataPagesFlags,
      Builder.guestMemory_removePageDataInRange,
      guestMemory_addImages config hdataless]
    rfl

/-- How many directives carry page contents. -/
def dataPageCount (directives : List IgvmDirectiveHeader) : Nat :=
  (directives.filterMap mappedPage).length

theorem dataPageCount_append (front back : List IgvmDirectiveHeader) :
    dataPageCount (front ++ back) =
      dataPageCount front + dataPageCount back := by
  rw [dataPageCount, List.filterMap_append, List.length_append]
  rfl

theorem dataPageCount_le_length (directives : List IgvmDirectiveHeader) :
    dataPageCount directives ≤ directives.length :=
  List.length_filterMap_le _ _

theorem pageMap_size_le_dataPageCount (igvm : IgvmFile) :
    (pageMap igvm).size ≤ dataPageCount igvm.directives :=
  pageMap_size_le_mapped igvm

theorem dataPageCount_sortPages (directives : List IgvmDirectiveHeader) :
    dataPageCount (Builder.sortPages directives) =
      dataPageCount directives :=
  ((StableSort.sortBy_perm _ directives).filterMap mappedPage).length_eq

namespace Builder

theorem Dataless.dataPageCount_eq {builder : Builder}
    (hdataless : builder.Dataless) : dataPageCount builder.directives = 0 := by
  rw [dataPageCount, List.filterMap_eq_nil_iff.mpr hdataless, List.length_nil]

theorem dataPageCount_addDataPagesFlags_le (builder : Builder) (base : Nat)
    (image : Bytes) (flags : IgvmPageDataFlags) :
    dataPageCount
        (builder.addDataPagesFlags base image flags).directives ≤
      dataPageCount builder.directives + pagesOf image.length := by
  have hnew := dataPageCount_le_length ((dataPages base image
    builder.compatibilityMaskAll flags).map .pageData)
  rw [addDataPagesFlags, push, dataPageCount_append]
  simpa [dataPages] using hnew

theorem dataPageCount_removePageDataInRange_le (builder : Builder)
    (base size : Nat) :
    dataPageCount (builder.removePageDataInRange base size).directives ≤
      dataPageCount builder.directives :=
  (List.filter_sublist.filterMap mappedPage).length_le

theorem dataPageCount_placeBlob_le (measured : Bool) (builder : Builder)
    (blob : Nat × Bytes) :
    dataPageCount (builder.placeBlob measured blob).directives ≤
      dataPageCount builder.directives + pagesOf blob.2.length :=
  (dataPageCount_addDataPagesFlags_le _ _ _ _).trans
    (Nat.add_le_add_right
      (dataPageCount_removePageDataInRange_le builder _ _) _)

/-- The pages that a list of placed blobs fills. -/
def blobPages (blobs : List (Nat × Bytes)) : Nat :=
  (blobs.map fun blob => pagesOf blob.2.length).sum

theorem dataPageCount_foldl_placeBlob_le (measured : Bool)
    (builder : Builder) (blobs : List (Nat × Bytes)) :
    dataPageCount
        (blobs.foldl (placeBlob measured) builder).directives ≤
      dataPageCount builder.directives + blobPages blobs := by
  induction blobs generalizing builder with
  | nil => exact Nat.le_refl _
  | cons blob rest ih =>
      have hblob := dataPageCount_placeBlob_le measured builder blob
      have hrest := ih (builder.placeBlob measured blob)
      rw [List.foldl_cons]
      simp only [blobPages, List.map_cons, List.sum_cons] at hrest ⊢
      omega

end Builder

/-- The pages of a blob that may be missing. -/
def optionalPages (blob : Option Bytes) : Nat :=
  (blob.map fun blob => Builder.pagesOf blob.length).getD 0

theorem dataPageCount_addLowFirmware_le (config : BuildConfig)
    (builder : Builder) :
    dataPageCount (addLowFirmware config builder).directives ≤
      dataPageCount builder.directives + 32 := by
  unfold addLowFirmware
  cases config.bootMode with
  | flat32 => exact Nat.le_add_right _ _
  | real16 =>
      have hadd := Builder.dataPageCount_addDataPagesFlags_le builder
        (Builder.lowFirmwareBase config.firmware)
        (Builder.lowFirmware config.firmware) {}
      have hlow : Builder.pagesOf
          (Builder.lowFirmware config.firmware).length ≤ 32 := by
        simp only [Builder.pagesOf, Builder.lowFirmware, List.length_drop,
          pageSize]
        omega
      exact hadd.trans (Nat.add_le_add_left hlow _)

theorem dataPageCount_addImages_le {builder : Builder}
    (config : BuildConfig) (hdataless : builder.Dataless) :
    dataPageCount (addImages config builder).directives ≤
      32 + Builder.pagesOf config.firmware.length +
        optionalPages config.vars := by
  have hzero := hdataless.dataPageCount_eq
  have hlow := dataPageCount_addLowFirmware_le config builder
  have hwhole := Builder.dataPageCount_addDataPagesFlags_le
    (addLowFirmware config builder)
    (Builder.firmwareBase config.firmware) config.firmware {}
  unfold addImages
  cases config.vars with
  | none =>
      simp only [Builder.addFirmware4g, Builder.addDataPages, optionalPages,
        Option.map_none, Option.getD_none]
      omega
  | some vars =>
      have hvars := Builder.dataPageCount_addDataPagesFlags_le
        ((addLowFirmware config builder).addFirmware4g config.firmware)
        (Builder.uefivarsBase vars config.firmware.length) vars {}
      simp only [Builder.addFirmware4g, Builder.addUefivars,
        Builder.addDataPages, optionalPages, Option.map_some,
        Option.getD_some] at hvars ⊢
      omega

/-- The pages that the inputs fill, counted before any is replaced. -/
def BuildConfig.filledPages (config : BuildConfig) : Nat :=
  32 + Builder.pagesOf config.firmware.length + optionalPages config.vars +
    Builder.pagesOf config.hobList.hobs.length +
    Builder.blobPages (config.hobList.blobs true) +
    Builder.blobPages (config.hobList.blobs false)

theorem dataPageCount_assemble_le {crate : IgvmCrate}
    {config : BuildConfig} {builder : Builder}
    (hok : assemble crate config = .ok builder) :
    dataPageCount builder.directives ≤ config.filledPages := by
  obtain ⟨prepared, hprepare, hhobs⟩ := bind_eq_ok_iff.mp hok
  obtain ⟨bare, hdataless, rfl⟩ := prepare_eq_addImages hprepare
  have himages := dataPageCount_addImages_le config hdataless
  unfold BuildConfig.filledPages
  unfold addHobData at hhobs
  split at hhobs
  · cases hhobs
    omega
  · obtain ⟨hobarea, -, hplaced⟩ := bind_eq_ok_iff.mp hhobs
    cases hplaced
    have hcleared := Builder.dataPageCount_removePageDataInRange_le
      (addImages config bare) hobarea.base hobarea.size
    have hhob := Builder.dataPageCount_addDataPagesFlags_le
      ((addImages config bare).removePageDataInRange hobarea.base
        hobarea.size) hobarea.base config.hobList.hobs {}
    have hmeasured := Builder.dataPageCount_foldl_placeBlob_le true
      ((addImages config bare).placeHobs hobarea config.hobList)
      (config.hobList.blobs true)
    have hunmeasured := Builder.dataPageCount_foldl_placeBlob_le false
      ((config.hobList.blobs true).foldl (Builder.placeBlob true)
        ((addImages config bare).placeHobs hobarea config.hobList))
      (config.hobList.blobs false)
    have hplace : (addImages config bare).placeHobs hobarea config.hobList =
        ((addImages config bare).removePageDataInRange hobarea.base
          hobarea.size).addDataPagesFlags hobarea.base
            config.hobList.hobs {} := rfl
    rw [hplace] at hmeasured hunmeasured ⊢
    omega

end Igvm

end Kettle
