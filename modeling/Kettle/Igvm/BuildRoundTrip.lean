/-
The build-then-extract round trip, and the configuration that breaks it: an
empty shim has the address of the kernel and clears its first page.
-/
import Kettle.Igvm.BuildExtract
import Kettle.Igvm.ForgedPage

namespace Kettle

namespace Igvm

variable {crate : IgvmCrate} {config : BuildConfig} {kernel : Bytes}
  {sha384 : Bytes → Digest384} {result : BuildResult}

theorem hasData_of_kernel (hkernel : config.kernel = some kernel) :
    config.hasData = true := by
  simp [BuildConfig.hasData, hkernel]

theorem extractCmdline_build (hcrate : crate.Faithful)
    (hkernel : config.kernel = some kernel)
    (hmemory : config.totalLength < 2 ^ 63)
    (hbuild : build sha384 crate config = .ok result)
    (hfirst : ∀ hobarea, config.hobArea = some hobarea →
      config.HobFirst hobarea)
    (hshim : config.shim = some [] → kernel = []) :
    extractCmdline crate result.igvmBytes = parsePeCmdline kernel := by
  obtain ⟨hobarea, parsed, harea, hparsed, hholds, hsize⟩ :=
    build_holds hcrate (hasData_of_kernel hkernel) hbuild
  have hfind := findKernelBlob_of_hobFirst hholds hkernel hmemory harea
    (hfirst hobarea harea)
  have hreassemble := reassemble_kernel hholds hkernel hmemory hshim hsize
  rw [extractCmdline, hparsed, ok_bind, kernelCmdline, hfind, ok_bind,
    hreassemble, ok_bind]

/-- With an empty shim the extraction fails on every kernel that is not
empty. -/
theorem extractCmdline_build_cleared (hcrate : crate.Faithful)
    (hkernel : config.kernel = some kernel)
    (hmemory : config.totalLength < 2 ^ 63)
    (hbuild : build sha384 crate config = .ok result)
    (hfirst : ∀ hobarea, config.hobArea = some hobarea →
      config.HobFirst hobarea)
    (hshim : config.shim = some []) (hne : kernel ≠ []) :
    ∃ e, extractCmdline crate result.igvmBytes = .error e := by
  obtain ⟨hobarea, parsed, harea, hparsed, hholds, -⟩ :=
    build_holds hcrate (hasData_of_kernel hkernel) hbuild
  have hfind := findKernelBlob_of_hobFirst hholds hkernel hmemory harea
    (hfirst hobarea harea)
  obtain ⟨e, hreassemble⟩ :=
    reassemble_cleared hholds hkernel hmemory hshim hne
  refine ⟨e, ?_⟩
  rw [extractCmdline, hparsed, ok_bind, kernelCmdline, hfind, ok_bind,
    hreassemble, error_bind]

/-- The kernel comes back with the outcome of its own `.cmdline`, except for a
kernel that has one behind an empty shim. -/
theorem extractCmdline_build_iff (hcrate : crate.Faithful)
    (hkernel : config.kernel = some kernel)
    (hmemory : config.totalLength < 2 ^ 63)
    (hbuild : build sha384 crate config = .ok result)
    (hfirst : ∀ hobarea, config.hobArea = some hobarea →
      config.HobFirst hobarea) :
    SameOutcome (extractCmdline crate result.igvmBytes)
        (parsePeCmdline kernel) ↔
      ¬ (config.shim = some [] ∧ ∃ text, parsePeCmdline kernel = .ok text) := by
  by_cases hshim : config.shim = some []
  · have hfailed : ∀ text, parsePeCmdline kernel = .ok text →
        ∃ e, extractCmdline crate result.igvmBytes = .error e := by
      intro text htext
      apply extractCmdline_build_cleared hcrate hkernel hmemory hbuild hfirst
        hshim
      intro hnil
      rw [hnil] at htext
      cases htext
    constructor
    · rintro hsame ⟨-, text, htext⟩
      obtain ⟨e, herror⟩ := hfailed text htext
      rw [htext, herror] at hsame
      exact hsame
    · intro hparse
      cases hkernelCmdline : parsePeCmdline kernel with
      | ok text => exact absurd ⟨hshim, text, hkernelCmdline⟩ hparse
      | error e =>
          by_cases hnil : kernel = []
          · rw [extractCmdline_build hcrate hkernel hmemory hbuild hfirst
              fun _ => hnil, hkernelCmdline]
            exact True.intro
          · obtain ⟨e', herror⟩ := extractCmdline_build_cleared hcrate
              hkernel hmemory hbuild hfirst hshim hnil
            rw [herror]
            exact True.intro
  · rw [extractCmdline_build hcrate hkernel hmemory hbuild hfirst
      fun hempty => absurd hempty hshim]
    constructor
    · exact fun _ hempty => hshim hempty.1
    · exact fun _ => SameOutcome.refl _

def pageAligned : IgvmDirectiveHeader → Bool
  | .pageData page => page.gpa.toNat % pageSize = 0
  | _ => true

/-- A crate that can write one file only. -/
def oneFileCrate (file : IgvmFile) : IgvmCrate where
  vmsaBytes := fun _ => List.replicate pageSize 0
  nativeContextBytes := fun _ => []
  snpPolicy := fun reservedMustBeOne smt =>
    .ofNat (reservedMustBeOne * 2 ^ 17 + smt * 2 ^ 16)
  newFile := fun platforms initializations directives =>
    if directives.all pageAligned then
      .ok ⟨platforms, initializations, directives⟩
    else .error "unaligned address"
  serialize := fun igvm => if igvm = file then .ok [] else .error "other file"
  newFromBinary := fun _ => .ok file

theorem oneFileCrate_faithful (file : IgvmFile) :
    (oneFileCrate file).Faithful where
  newFile := by
    intro platforms initializations directives igvm hok
    simp only [oneFileCrate] at hok
    split at hok
    · rename_i haligned
      cases hok
      refine ⟨rfl, ?_⟩
      intro page hpage
      simpa [pageAligned] using List.all_eq_true.mp haligned _ hpage
    · cases hok
  roundTrip := by
    intro igvm bytes hok
    simp only [oneFileCrate] at hok
    split at hok
    · rename_i hsame
      rw [hsame]
      exact ⟨file, rfl, rfl, rfl⟩
    · cases hok

/-- Directives that every file may have: aligned pages, no inserts. -/
def Builder.Sound (builder : Builder) : Prop :=
  ∀ directive ∈ builder.directives, pageAligned directive = true ∧
    ∀ insert, directive ≠ .parameterInsert insert

theorem Builder.Sound.addDataPagesFlags {builder : Builder}
    (hsound : builder.Sound) {base : Nat} (hbase : base % pageSize = 0)
    (image : Bytes) (flags : IgvmPageDataFlags) :
    (builder.addDataPagesFlags base image flags).Sound := by
  intro directive hmem
  rcases List.mem_append.mp hmem with hold | hnew
  · exact hsound directive hold
  · obtain ⟨page, hpage, rfl⟩ := List.mem_map.mp hnew
    obtain ⟨pg, -, rfl⟩ := List.mem_map.mp hpage
    refine ⟨?_, fun insert heq => by cases heq⟩
    simp only [pageAligned, UInt64.toNat_ofNat', pageSize,
      decide_eq_true_eq] at hbase ⊢
    omega

theorem Builder.Sound.placeBlob {builder : Builder}
    (hsound : builder.Sound) (measured : Bool) {blob : Nat × Bytes}
    (hblob : blob.1 % pageSize = 0) :
    (builder.placeBlob measured blob).Sound := by
  have hremoved : (builder.removePageDataInRange blob.1
      blob.2.length).Sound :=
    fun directive hmem => hsound directive (List.mem_filter.mp hmem).1
  exact hremoved.addDataPagesFlags hblob blob.2 _

theorem Builder.Sound.foldl_placeBlob {builder : Builder}
    (hsound : builder.Sound) (measured : Bool) {blobs : List (Nat × Bytes)}
    (hblobs : ∀ blob ∈ blobs, blob.1 % pageSize = 0) :
    (blobs.foldl (Builder.placeBlob measured) builder).Sound := by
  induction blobs generalizing builder with
  | nil => exact hsound
  | cons blob rest ih =>
      apply ih (hsound.placeBlob measured (hblobs blob List.mem_cons_self))
      exact fun other hmem => hblobs other (List.mem_cons_of_mem _ hmem)

/-- A file that the crate can write is measured and written. -/
theorem build_oneFileCrate {builder : Builder} (sha384 : Bytes → Digest384)
    (hsound : builder.Sound)
    (hsnp : ∃ plat ∈ builder.platforms, plat.platformType = .sevSnp)
    (hassemble : ∀ file,
      assemble (oneFileCrate file) config = .ok builder) :
    ∃ file result, build sha384 (oneFileCrate file) config = .ok result := by
  let file : IgvmFile := ⟨builder.platforms, builder.initializations,
    Builder.sortPages builder.directives⟩
  have hmem : ∀ directive ∈ file.directives,
      directive ∈ builder.directives := fun directive hdirective =>
    (StableSort.sortBy_perm Builder.sortGpa builder.directives).mem_iff.mp
      hdirective
  have haligned : file.directives.all pageAligned = true :=
    List.all_eq_true.mpr fun directive hdirective =>
      (hsound directive (hmem directive hdirective)).1
  have hinserts : file.InsertsDeclared := by
    intro insert hinsert
    exact absurd rfl ((hsound _ (hmem _ hinsert)).2 insert)
  obtain ⟨measurement, hmeasure⟩ :
      ∃ measurement, measureSnp sha384 file = .ok measurement :=
    (measureSnp_ok_iff file).mpr ⟨hsnp, hinserts⟩
  have hfinalize : builder.finalize (oneFileCrate file) = .ok file :=
    if_pos haligned
  have hserialize : (oneFileCrate file).serialize file = .ok [] :=
    if_pos rfl
  refine ⟨file, ⟨[], measurement⟩, ?_⟩
  rw [build, hassemble, ok_bind, hfinalize, atStage, ok_bind, hmeasure,
    ok_bind, hserialize, atStage, ok_bind]

/-- A region list with one entry: a HOB area of one page at 256 MiB. -/
def hobAreaList : Bytes :=
  List.replicate 12 0 ++ Bytes.ofNatLE 4 1 ++ Bytes.ofNatLE 4 0x10000000 ++
    Bytes.ofNatLE 4 0x1000 ++ Bytes.ofNatLE 4 0x200

/-- The block that says how far before the end the region list starts. -/
def paramBlock : Bytes :=
  Bytes.ofNatLE 4 100 ++ (Bytes.ofNatLE 2 22 ++ ovmfMetaIgvmParam)

/-- `front`, and behind it the metadata and 32 bytes of reset code. -/
def hobAreaFirmware (front : Bytes) : Bytes :=
  (front ++ hobAreaList) ++ (paramBlock ++
    (Bytes.ofNatLE 2 40 ++ ovmfMetaList)) ++ List.replicate 32 0

def sampleHobArea : OvmfRegion := ⟨0x10000000, 0x1000, .igvmHobArea⟩

theorem length_hobAreaFirmware (front : Bytes) :
    (hobAreaFirmware front).length = front.length + 100 := by
  have hlist : hobAreaList.length = 28 := by decide
  have hblock : paramBlock.length = 22 := by decide
  have hfooter : (Bytes.ofNatLE 2 40 ++ ovmfMetaList).length = 18 := by
    decide
  simp only [hobAreaFirmware, List.length_append, List.length_replicate,
    hlist, hblock] at hfooter ⊢
  omega

/-- What the parameter block points to. -/
theorem drop_hobAreaFirmware (front : Bytes) :
    (hobAreaFirmware front).drop ((hobAreaFirmware front).length - 100) =
      hobAreaList ++ (paramBlock ++ (Bytes.ofNatLE 2 40 ++ ovmfMetaList) ++
        List.replicate 32 0) := by
  rw [length_hobAreaFirmware, Nat.add_sub_cancel, hobAreaFirmware,
    List.append_assoc, List.append_assoc, List.drop_left]

theorem parseBlk_hobAreaFirmware (front : Bytes) :
    OvmfMeta.parseBlk ⟨hobAreaFirmware front, [], none⟩ ovmfMetaIgvmParam
        (Bytes.ofNatLE 4 100) =
      ⟨hobAreaFirmware front, [sampleHobArea], none⟩ := by
  have hguids : ovmfMetaIgvmParam ≠ ovmfMetaSevReset ∧
      ovmfMetaIgvmParam ≠ ovmfMetaSevList := by
    decide
  have hread : readU32 (Bytes.ofNatLE 4 100) = some (100, []) := by decide
  have hfits : ¬ (hobAreaFirmware front).length < 100 := by
    rw [length_hobAreaFirmware]
    omega
  have hlist : ¬ (hobAreaList ++ (paramBlock ++ (Bytes.ofNatLE 2 40 ++
      ovmfMetaList) ++ List.replicate 32 0)).length < 16 := by
    decide
  have hregions : readRegions .newIgvm
      (Bytes.toNatLE (Bytes.slice (hobAreaList ++ (paramBlock ++
        (Bytes.ofNatLE 2 40 ++ ovmfMetaList) ++ List.replicate 32 0)) 12 4))
      ((hobAreaList ++ (paramBlock ++ (Bytes.ofNatLE 2 40 ++
        ovmfMetaList) ++ List.replicate 32 0)).drop 16) [] =
          [sampleHobArea] := by
    decide
  simp only [OvmfMeta.parseBlk, OvmfMeta.readList, hguids.1, hguids.2, hread,
    hfits, drop_hobAreaFirmware, hlist, hregions, if_false, if_true]

theorem ovmfMeta_hobAreaFirmware (front : Bytes) :
    OvmfMeta.new (hobAreaFirmware front) =
      some ⟨hobAreaFirmware front, [sampleHobArea], none⟩ := by
  have hbody : (hobAreaFirmware front).take
      ((hobAreaFirmware front).length - 0x20) =
        (front ++ hobAreaList) ++ (paramBlock ++
          (Bytes.ofNatLE 2 40 ++ ovmfMetaList)) := by
    rw [hobAreaFirmware, List.length_append, List.length_replicate,
      Nat.add_sub_cancel, List.take_left]
  have hfooter : metaBlk ((front ++ hobAreaList) ++ (paramBlock ++
      (Bytes.ofNatLE 2 40 ++ ovmfMetaList))) =
        some (ovmfMetaList, paramBlock, front ++ hobAreaList) :=
    metaBlk_append (front ++ hobAreaList) paramBlock rfl (by decide)
  have hparam : metaBlk paramBlock =
      some (ovmfMetaIgvmParam, Bytes.ofNatLE 4 100, []) := by
    decide
  have hlong : ¬ (hobAreaFirmware front).length < 0x20 := by
    rw [length_hobAreaFirmware]
    omega
  have hturns : paramBlock.length = 20 + 2 := by decide
  have hend : metaBlk [] = none := by decide
  simp only [OvmfMeta.new, hlong, hbody, hfooter, hturns, if_false, if_true,
    OvmfMeta.parseBlocks, hparam, parseBlk_hobAreaFirmware, hend]

/-- One page of firmware, one vCPU, a kernel, and the given shim. -/
def sampleConfig (shim : Option Bytes) : BuildConfig where
  firmware := hobAreaFirmware (List.replicate 3996 0)
  vars := none
  kernel := some (tinyUki (cmdlineBytes 0x30))
  shim := shim
  pk := none
  kek := none
  db := none
  dbx := none
  platform := .snp
  bootMode := .flat32
  smp := 1

theorem sampleConfig_hobArea (shim : Option Bytes) :
    (sampleConfig shim).hobArea = some sampleHobArea := by
  rw [BuildConfig.hobArea, sampleConfig, ovmfMeta_hobAreaFirmware]
  rfl

theorem length_sampleFirmware (shim : Option Bytes) :
    (sampleConfig shim).firmware.length = 4096 := by
  rw [sampleConfig, length_hobAreaFirmware, List.length_replicate]

/-- What the builder holds before the images, whichever file the crate can
write. -/
def sampleBare : Builder :=
  (Builder.new.addSnpPlatform.addSnpVmsaContext (oneFileCrate ⟨[], [], []⟩)
    (flat32ModeRegs none) false 0).addSnpPolicy (oneFileCrate ⟨[], [], []⟩)

theorem prepare_sampleConfig (file : IgvmFile) (shim : Option Bytes) :
    prepare (oneFileCrate file) (sampleConfig shim) =
      .ok (addImages (sampleConfig shim) sampleBare) := by
  have hmeta := ovmfMeta_hobAreaFirmware (List.replicate 3996 0)
  have hfirmware : (sampleConfig shim).firmware =
      hobAreaFirmware (List.replicate 3996 0) := rfl
  have hplatforms : addPlatforms (oneFileCrate file) (sampleConfig shim)
      (some ⟨hobAreaFirmware (List.replicate 3996 0), [sampleHobArea],
        none⟩) = .ok sampleBare := rfl
  rw [prepare, hfirmware, hmeta, hplatforms, ok_bind]
  rfl

theorem sampleBare_sound : sampleBare.Sound := by
  intro directive hmem
  rw [List.mem_singleton.mp hmem]
  exact ⟨rfl, fun insert heq => by cases heq⟩

/-- The builder of the sample, with the blobs placed. -/
def sampleBuilder (shim : Option Bytes) : Builder :=
  let hoblist := (sampleConfig shim).hobList
  let placed := (hoblist.blobs true).foldl (Builder.placeBlob true)
    ((addImages (sampleConfig shim) sampleBare).placeHobs
      sampleHobArea hoblist)
  (hoblist.blobs false).foldl (Builder.placeBlob false) placed

theorem assemble_sampleConfig (file : IgvmFile) (shim : Option Bytes) :
    assemble (oneFileCrate file) (sampleConfig shim) =
      .ok (sampleBuilder shim) := by
  have hfirmware : (sampleConfig shim).firmware =
      hobAreaFirmware (List.replicate 3996 0) := rfl
  have hdata : (sampleConfig shim).hasData = true := rfl
  rw [assemble, prepare_sampleConfig, ok_bind, hfirmware,
    ovmfMeta_hobAreaFirmware, addHobData, hdata]
  rfl

/-- All blobs of the sample are at page addresses from 512 MiB on. -/
theorem sampleConfig_blobs (shim : Option Bytes)
    (hshort : (shim.getD []).length < 2 ^ 32) (measured : Bool) :
    ∀ blob ∈ (sampleConfig shim).hobList.blobs measured,
      0x20000000 ≤ blob.1 ∧ blob.1 % pageSize = 0 := by
  intro blob hblob
  have hkernel : (sampleConfig shim).kernel =
      some (tinyUki (cmdlineBytes 0x30)) := rfl
  have hcert : (sampleConfig shim).certList = .new 0x20000000 := rfl
  have hshim : (sampleConfig shim).shim = shim := rfl
  have haligned := (sampleConfig shim).shimList_base_aligned
  cases measured with
  | true =>
      have hnone : (sampleConfig shim).shimList.blobs true = [] := by
        rw [BuildConfig.shimList, hcert, hshim]
        cases shim with
        | none => rfl
        | some shim =>
            rw [IgvmDataList.addOptional, IgvmDataList.blobs_add]
            rfl
      rw [BuildConfig.hobList_blobs_true hkernel, hnone, List.nil_append,
        List.mem_singleton] at hblob
      rw [hblob]
      refine ⟨?_, haligned⟩
      rw [BuildConfig.shimList, hcert, hshim]
      cases shim with
      | none => exact Nat.le_refl _
      | some shim =>
          simp only [Option.getD_some] at hshort
          simp only [IgvmDataList.addOptional, IgvmDataList.add,
            IgvmDataList.new, roundUp, pageSize]
          omega
  | false =>
      rw [BuildConfig.hobList_blobs_false, hcert, hshim] at hblob
      obtain ⟨shim', -, rfl⟩ :=
        Option.map_eq_some_iff.mp (Option.mem_toList.mp hblob)
      exact ⟨Nat.le_refl _, IgvmDataList.laid_new.aligned⟩

theorem sampleBuilder_sound (shim : Option Bytes)
    (hshort : (shim.getD []).length < 2 ^ 32) :
    (sampleBuilder shim).Sound := by
  have hbase : Builder.firmwareBase (sampleConfig shim).firmware %
      pageSize = 0 := by
    rw [Builder.firmwareBase, length_sampleFirmware]
    decide
  have himages : (addImages (sampleConfig shim) sampleBare).Sound :=
    sampleBare_sound.addDataPagesFlags hbase _ _
  have hcleared : ((addImages (sampleConfig shim)
      sampleBare).removePageDataInRange sampleHobArea.base
        sampleHobArea.size).Sound :=
    fun directive hmem => himages directive (List.mem_filter.mp hmem).1
  have hhobs := hcleared.addDataPagesFlags
    (show sampleHobArea.base % pageSize = 0 from rfl)
    (sampleConfig shim).hobList.hobs {}
  have hmeasured := hhobs.foldl_placeBlob true fun blob hblob =>
    (sampleConfig_blobs shim hshort true blob hblob).2
  exact hmeasured.foldl_placeBlob false fun blob hblob =>
    (sampleConfig_blobs shim hshort false blob hblob).2

theorem sampleBuilder_platforms (shim : Option Bytes) :
    (sampleBuilder shim).platforms = sampleBare.platforms := by
  have hfoldl : ∀ (measured : Bool) (blobs : List (Nat × Bytes))
      (builder : Builder),
      (blobs.foldl (Builder.placeBlob measured) builder).platforms =
        builder.platforms := by
    intro measured blobs
    induction blobs with
    | nil => exact fun _ => rfl
    | cons blob rest ih => exact fun builder => ih (builder.placeBlob _ _)
  rw [sampleBuilder, hfoldl, hfoldl]
  rfl

theorem sampleConfig_build (sha384 : Bytes → Digest384) (shim : Option Bytes)
    (hshort : (shim.getD []).length < 2 ^ 32) :
    ∃ file result,
      build sha384 (oneFileCrate file) (sampleConfig shim) = .ok result := by
  apply build_oneFileCrate sha384 (sampleBuilder_sound shim hshort)
  · rw [sampleBuilder_platforms]
    exact ⟨_, List.mem_singleton.mpr rfl, rfl⟩
  · exact fun file => assemble_sampleConfig file shim

theorem sampleConfig_totalLength (shim : Option Bytes)
    (hshort : (shim.getD []).length < 2 ^ 32) :
    (sampleConfig shim).totalLength < 2 ^ 63 := by
  have hkernel : (tinyUki (cmdlineBytes 0x30)).length = 0x8a :=
    length_tinyUki _
  have hfirmware := length_sampleFirmware shim
  have hshim : (shim.map List.length).getD 0 = (shim.getD []).length := by
    cases shim <;> rfl
  simp only [BuildConfig.totalLength, hfirmware]
  simp only [sampleConfig, hshim, BuildConfig.optionalLength,
    Option.map_some, Option.map_none, Option.getD_some, Option.getD_none,
    hkernel]
  omega

/-- Below the HOB list the memory of the sample is empty. -/
theorem sampleConfig_hobFirst (shim : Option Bytes)
    (hshort : (shim.getD []).length < 2 ^ 32) :
    (sampleConfig shim).HobFirst sampleHobArea := by
  have hmemory := sampleConfig_totalLength shim hshort
  have habove : sampleHobArea.base < 0x20000000 := by decide
  constructor
  · intro measured blob hblob
    have hlow := (sampleConfig_blobs shim hshort measured blob hblob).1
    exact Or.inl (by omega)
  · rintro addr haddr ⟨bytes, hlength, hreads, -⟩
    have hpage : ∀ gpa < sampleHobArea.base,
        (sampleConfig shim).layout sampleHobArea gpa = none := by
      intro gpa hgpa
      have hblobs : ∀ measured,
          ∀ blob ∈ (sampleConfig shim).hobList.blobs measured,
            blob.1 + blob.2.length < 2 ^ 64 ∧ (gpa < blob.1 ∨
              blob.1 + max blob.2.length pageSize ≤ gpa) := by
        intro measured blob hblob
        have hlow := (sampleConfig_blobs shim hshort measured blob hblob).1
        have hend := BuildConfig.blob_bound hmemory hblob
        exact ⟨by omega, Or.inl (by omega)⟩
      have hhobs := (sampleConfig shim).length_hobs_le
      have himages : (sampleConfig shim).images gpa = none := by
        have hbase : Builder.firmwareBase (sampleConfig shim).firmware =
            0xFFFFF000 := by
          rw [Builder.firmwareBase, length_sampleFirmware]
          decide
        have himages : (sampleConfig shim).images =
            GuestMemory.store .empty
              (Builder.firmwareBase (sampleConfig shim).firmware)
              (sampleConfig shim).firmware := rfl
        rw [himages, hbase, GuestMemory.store_of_disjoint]
        · rfl
        · rw [length_sampleFirmware]
          decide
        · exact Or.inl (by omega)
      rw [BuildConfig.layout, GuestMemory.foldl_place_of_disjoint
        (hblobs false), GuestMemory.foldl_place_of_disjoint (hblobs true),
        GuestMemory.store_of_disjoint (by omega) (Or.inl hgpa),
        GuestMemory.clearRegion, PagedMemory.clear, himages, ite_self]
    have hbyte := hreads 0 (by omega)
    rw [Nat.add_zero, GuestMemory.byte,
      hpage _ (Nat.lt_of_le_of_lt (Nat.sub_le _ _) haddr),
      Option.bind_none] at hbyte
    have hsome : bytes[0]? = some bytes[0] :=
      List.getElem?_eq_getElem (by omega)
    rw [hsome] at hbyte
    cases hbyte

/-- Without a shim the sample's command line comes back. -/
theorem extractCmdline_sampleConfig :
    ∃ file result,
      build prefixDigest (oneFileCrate file) (sampleConfig none) =
          .ok result ∧
        SameOutcome (extractCmdline (oneFileCrate file) result.igvmBytes)
          (parsePeCmdline (tinyUki (cmdlineBytes 0x30))) := by
  have hshort : ((none : Option Bytes).getD []).length < 2 ^ 32 := by decide
  obtain ⟨file, result, hbuild⟩ :=
    sampleConfig_build prefixDigest none hshort
  refine ⟨file, result, hbuild, ?_⟩
  have hfirst : ∀ hobarea,
      (sampleConfig none).hobArea = some hobarea →
        (sampleConfig none).HobFirst hobarea := by
    intro hobarea harea
    rw [sampleConfig_hobArea] at harea
    cases harea
    exact sampleConfig_hobFirst none hshort
  apply (extractCmdline_build_iff (oneFileCrate_faithful file) rfl
    (sampleConfig_totalLength none hshort) hbuild hfirst).mpr
  rintro ⟨hshim, -⟩
  cases hshim

/-- With an empty shim it is lost, although the build succeeds. -/
theorem extractCmdline_build_not_sameOutcome :
    ¬ ∀ (sha384 : Bytes → Digest384) (crate : IgvmCrate)
      (config : BuildConfig) (kernel : Bytes) (result : BuildResult),
      crate.Faithful → config.kernel = some kernel →
      build sha384 crate config = .ok result →
        SameOutcome (extractCmdline crate result.igvmBytes)
          (parsePeCmdline kernel) := by
  intro hroundTrip
  have hshort : ((some [] : Option Bytes).getD []).length < 2 ^ 32 := by
    decide
  obtain ⟨file, result, hbuild⟩ :=
    sampleConfig_build prefixDigest (some []) hshort
  have hfaithful := oneFileCrate_faithful file
  have hkernel : (sampleConfig (some [])).kernel =
      some (tinyUki (cmdlineBytes 0x30)) := rfl
  have hfirst : ∀ hobarea,
      (sampleConfig (some [])).hobArea = some hobarea →
        (sampleConfig (some [])).HobFirst hobarea := by
    intro hobarea harea
    rw [sampleConfig_hobArea] at harea
    cases harea
    exact sampleConfig_hobFirst (some []) hshort
  have hne : tinyUki (cmdlineBytes 0x30) ≠ [] := by
    intro hnil
    have hlength := length_tinyUki (cmdlineBytes 0x30)
    rw [hnil, List.length_nil] at hlength
    omega
  have hsame := hroundTrip prefixDigest _ _ _ _ hfaithful hkernel hbuild
  obtain ⟨e, herror⟩ := extractCmdline_build_cleared hfaithful hkernel
    (sampleConfig_totalLength (some []) hshort) hbuild hfirst rfl hne
  rw [herror, parsePeCmdline_roothash0] at hsame
  exact hsame

end Igvm

end Kettle
