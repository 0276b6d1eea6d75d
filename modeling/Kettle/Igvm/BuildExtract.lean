/-
Building a file and extracting the command line from it: the extraction sees
the kernel that was built in, unless a kernel HOB of another origin comes
first, the HOB list is covered by a blob, or an empty shim clears the first
page of the kernel.
-/
import Kettle.Igvm.HobList

namespace Kettle

namespace Igvm

/-- What the igvm crate promises: a file is made of the given headers, its
pages are at page addresses, and writing and reading it keeps platforms and
directives. -/
structure IgvmCrate.Faithful (crate : IgvmCrate) : Prop where
  newFile : ∀ platforms initializations directives igvm,
    crate.newFile platforms initializations directives = .ok igvm →
      igvm.directives = directives ∧
        ∀ page, .pageData page ∈ directives →
          page.gpa.toNat % pageSize = 0
  roundTrip : ∀ igvm bytes, crate.serialize igvm = .ok bytes →
    ∃ parsed, crate.newFromBinary bytes = .ok parsed ∧
      parsed.platforms = igvm.platforms ∧
      parsed.directives = igvm.directives

/-- The command line of a file in its byte form. -/
def extractCmdline (crate : IgvmCrate) (igvmBytes : Bytes) :
    Except String String := do
  let igvm ← crate.newFromBinary igvmBytes
  kernelCmdline igvm

/-- Both fail, or both give the same text. -/
def SameOutcome : Except String String → Except String String → Prop
  | .ok left, .ok right => left = right
  | .error _, .error _ => True
  | _, _ => False

theorem SameOutcome.refl (outcome : Except String String) :
    SameOutcome outcome outcome := by
  cases outcome with
  | ok text => exact Eq.refl text
  | error e => exact True.intro

namespace BuildConfig

def optionalLength (blob : Option Bytes) : Nat :=
  (blob.map List.length).getD 0

/-- The bytes of all inputs together. -/
def totalLength (config : BuildConfig) : Nat :=
  config.firmware.length + optionalLength config.vars +
    optionalLength config.kernel + optionalLength config.shim +
    optionalLength config.pk + optionalLength config.kek +
    optionalLength config.db + optionalLength config.dbx

theorem optionalPages_le (blob : Option Bytes) :
    optionalPages blob * pageSize ≤ optionalLength blob + 4095 := by
  cases blob with
  | none => simp [optionalPages, optionalLength]
  | some blob =>
      simp only [optionalPages, optionalLength, Option.map_some,
        Option.getD_some, Builder.pagesOf, pageSize]
      omega

/-- The blobs in front of the kernel. -/
def shimList (config : BuildConfig) : IgvmDataList :=
  config.certList.addOptional config.shim .shim false

def blobPages (config : BuildConfig) : Nat :=
  config.certPages + optionalPages config.shim +
    optionalPages config.kernel

theorem hobList_laid (config : BuildConfig) :
    config.hobList.Laid config.blobPages :=
  (config.certList_laid.addOptional config.shim .shim false).addOptional
    config.kernel .kernel true

variable {config : BuildConfig}

/-- Blobs of inputs that fit in memory end far below the address limit. -/
theorem blobPages_bound (hmemory : config.totalLength < 2 ^ 63) :
    0x20000000 + config.blobPages * pageSize + 2 * pageSize < 2 ^ 64 := by
  have hpk := optionalPages_le config.pk
  have hkek := optionalPages_le config.kek
  have hdb := optionalPages_le config.db
  have hdbx := optionalPages_le config.dbx
  have hshim := optionalPages_le config.shim
  have hkernel := optionalPages_le config.kernel
  simp only [blobPages, certPages, totalLength, pageSize] at *
  omega

theorem length_hobList_le (config : BuildConfig) :
    config.hobList.data.length ≤ 6 := by
  have hnew : (IgvmDataList.new 0x20000000).data.length ≤ 0 := Nat.le_refl 0
  have hpk := IgvmDataList.length_addOptional_le hnew config.pk .pk true
  have hkek := IgvmDataList.length_addOptional_le hpk config.kek .kek true
  have hdb := IgvmDataList.length_addOptional_le hkek config.db .db true
  have hdbx := IgvmDataList.length_addOptional_le hdb config.dbx .dbx true
  have hshim :=
    IgvmDataList.length_addOptional_le hdbx config.shim .shim false
  exact IgvmDataList.length_addOptional_le hshim config.kernel .kernel true

theorem length_hobs (list : IgvmDataList) :
    list.hobs.length = 0x30 * list.data.length + 8 := by
  have hentries := length_flatMap_asBytes (list.data.map (·.hob))
  rw [List.length_map, List.flatMap_map] at hentries
  rw [IgvmDataList.hobs, List.length_append, hentries]
  rfl

theorem length_hobs_le (config : BuildConfig) :
    config.hobList.hobs.length ≤ 296 := by
  have hdata := config.length_hobList_le
  rw [length_hobs]
  omega

theorem filledPages_bound (hmemory : config.totalLength < 2 ^ 63) :
    config.filledPages * pageSize < 2 ^ 64 := by
  have hpages := config.hobList_laid.pages
  have hbound := blobPages_bound hmemory
  have hvars := optionalPages_le config.vars
  have hhobs := config.length_hobs_le
  have hfirmware : Builder.pagesOf config.firmware.length * pageSize ≤
      config.firmware.length + 4095 := by
    simp only [Builder.pagesOf, pageSize]
    omega
  have hhobPages :
      Builder.pagesOf config.hobList.hobs.length ≤ 1 := by
    simp only [Builder.pagesOf, pageSize]
    omega
  have hpk := optionalPages_le config.pk
  have hkek := optionalPages_le config.kek
  have hdb := optionalPages_le config.db
  have hdbx := optionalPages_le config.dbx
  have hshim := optionalPages_le config.shim
  have hkernel := optionalPages_le config.kernel
  simp only [blobPages, certPages, totalLength, filledPages, pageSize] at *
  omega

/-- Blobs given to the list come out of it at bounded places. -/
theorem blob_bound (hmemory : config.totalLength < 2 ^ 63)
    {measured : Bool} {blob : Nat × Bytes}
    (hblob : blob ∈ config.hobList.blobs measured) :
    blob.1 + blob.2.length + 2 * pageSize < 2 ^ 64 := by
  obtain ⟨entry, hentry, rfl⟩ := List.mem_map.mp hblob
  have hwithin :=
    config.hobList_laid.within entry (List.mem_filter.mp hentry).1
  have hbound := blobPages_bound hmemory
  exact Nat.lt_of_le_of_lt (Nat.add_le_add_right hwithin _) hbound

/-- A measured blob that may be missing changes the measured blobs only. -/
theorem blobs_false_addOptional (list : IgvmDataList) (blob : Option Bytes)
    (dataType : IgvmDataType) :
    (list.addOptional blob dataType true).blobs false =
      list.blobs false := by
  cases blob with
  | none => rfl
  | some blob =>
      simp [IgvmDataList.addOptional, IgvmDataList.blobs_add]

theorem certList_blobs_false (config : BuildConfig) :
    config.certList.blobs false = [] := by
  simp only [certList, blobs_false_addOptional]
  rfl

/-- The kernel is the last of the measured blobs. -/
theorem hobList_blobs_true {kernel : Bytes}
    (hkernel : config.kernel = some kernel) :
    config.hobList.blobs true =
      config.shimList.blobs true ++ [(config.shimList.base, kernel)] := by
  have hlist : config.hobList =
      config.shimList.addOptional config.kernel .kernel true := rfl
  rw [hlist, hkernel, IgvmDataList.addOptional, IgvmDataList.blobs_add,
    if_pos rfl]

/-- The shim is the only unmeasured blob. -/
theorem hobList_blobs_false (config : BuildConfig) :
    config.hobList.blobs false =
      (config.shim.map fun shim => (config.certList.base, shim)).toList := by
  have hlist : config.hobList =
      config.shimList.addOptional config.kernel .kernel true := rfl
  rw [hlist, blobs_false_addOptional, shimList]
  cases config.shim with
  | none => exact config.certList_blobs_false
  | some shim =>
      rw [IgvmDataList.addOptional, IgvmDataList.blobs_add, if_pos rfl,
        certList_blobs_false]
      rfl

/-- The blobs of the configuration leave the HOB list alone, and nothing
below it looks like the HOB of a kernel. -/
structure HobFirst (config : BuildConfig) (hobarea : OvmfRegion) :
    Prop where
  uncovered : ∀ measured, ∀ blob ∈ config.hobList.blobs measured,
    hobarea.base < blob.1 ∨
      blob.1 + max blob.2.length pageSize ≤ hobarea.base
  first : ∀ addr < hobarea.base,
    ¬ (config.layout hobarea).HasKernelHob addr

variable {hobarea : OvmfRegion}

theorem hobArea_base_lt (harea : config.hobArea = some hobarea) :
    hobarea.base < 2 ^ 32 := by
  obtain ⟨ovmfmeta, hmeta, hfind⟩ := Option.bind_eq_some_iff.mp harea
  exact OvmfMeta.new_basesFit hmeta hobarea (List.mem_of_find?_eq_some hfind)

/-- The HOB list is in memory, in one page. -/
theorem layout_hobPage (hmemory : config.totalLength < 2 ^ 63)
    (harea : config.hobArea = some hobarea)
    (hfirst : config.HobFirst hobarea) :
    config.layout hobarea hobarea.base =
      some (GuestMemory.imagePage config.hobList.hobs 0) := by
  have hbase := hobArea_base_lt harea
  have hlength := config.length_hobs_le
  have hblobs : ∀ measured, ∀ blob ∈ config.hobList.blobs measured,
      blob.1 + blob.2.length < 2 ^ 64 ∧ (hobarea.base < blob.1 ∨
        blob.1 + max blob.2.length pageSize ≤ hobarea.base) := by
    intro measured blob hblob
    have hbound := blob_bound hmemory hblob
    exact ⟨by omega, hfirst.uncovered measured blob hblob⟩
  have hpages : 0 < Builder.pagesOf config.hobList.hobs.length := by
    rw [length_hobs]
    simp only [Builder.pagesOf, pageSize]
    omega
  have hstore := GuestMemory.store_apply
    (config.images.clearRegion hobarea.base hobarea.size)
    (show hobarea.base + config.hobList.hobs.length < 2 ^ 64 by omega) hpages
  rw [Nat.zero_mul, Nat.add_zero] at hstore
  rw [layout, GuestMemory.foldl_place_of_disjoint (hblobs false),
    GuestMemory.foldl_place_of_disjoint (hblobs true), hstore]

variable {kernel : Bytes}

theorem hobList_eq_add (hkernel : config.kernel = some kernel) :
    config.hobList = config.shimList.add kernel .kernel true := by
  have hlist : config.hobList =
      config.shimList.addOptional config.kernel .kernel true := rfl
  rw [hlist, hkernel, IgvmDataList.addOptional]

theorem kernel_bound (hkernel : config.kernel = some kernel)
    (hmemory : config.totalLength < 2 ^ 63) :
    config.shimList.base + kernel.length + 2 * pageSize < 2 ^ 64 := by
  have hblob : (config.shimList.base, kernel) ∈
      config.hobList.blobs true := by
    rw [hobList_blobs_true hkernel]
    exact List.mem_append_right _ List.mem_cons_self
  exact blob_bound hmemory hblob

theorem shimList_dataType_ne (config : BuildConfig) :
    ∀ entry ∈ config.shimList.data, entry.hob.dataType ≠ .kernel := by
  have hnew : ∀ entry ∈ (IgvmDataList.new 0x20000000).data,
      entry.hob.dataType ≠ .kernel := by
    intro entry hentry
    cases hentry
  have hne : IgvmDataType.pk ≠ .kernel ∧ IgvmDataType.kek ≠ .kernel ∧
      IgvmDataType.db ≠ .kernel ∧ IgvmDataType.dbx ≠ .kernel ∧
      IgvmDataType.shim ≠ .kernel := by
    decide
  obtain ⟨hpk, hkek, hdb, hdbx, hshim⟩ := hne
  have hpks :=
    IgvmDataList.addOptional_dataType_ne hnew hpk config.pk true
  have hkeks :=
    IgvmDataList.addOptional_dataType_ne hpks hkek config.kek true
  have hdbs := IgvmDataList.addOptional_dataType_ne hkeks hdb config.db true
  have hdbxs :=
    IgvmDataList.addOptional_dataType_ne hdbs hdbx config.dbx true
  exact IgvmDataList.addOptional_dataType_ne hdbxs hshim config.shim false

/-- The page of the HOB list starts with the data HOBs. -/
theorem imagePage_hobs_append (config : BuildConfig) (back : Bytes) :
    ∃ tail, (GuestMemory.imagePage config.hobList.hobs 0).toList ++ back =
      (config.hobList.data.map (·.hob)).flatMap EfiIgvmDataHob.asBytes ++
        tail := by
  have hlength := config.length_hobs_le
  refine ⟨EfiHobHeader.endOfList.asBytes ++ (List.replicate
    (pageSize - config.hobList.hobs.length) 0 ++ back), ?_⟩
  have hwhole : Bytes.slice config.hobList.hobs (0 * pageSize) pageSize =
      config.hobList.hobs := by
    rw [Nat.zero_mul, Bytes.slice, List.drop_zero]
    exact List.take_of_length_le (by simp only [pageSize]; omega)
  rw [GuestMemory.imagePage, hwhole, Bytes.zeroPadVec_toList,
    Bytes.zeroPad_of_length_le (by simp only [pageSize]; omega),
    List.flatMap_map, ← List.append_assoc, ← List.append_assoc]
  rfl

/-- The page of the HOB list is the one that the scan looks for. -/
theorem hobPage_kernelHobPage (hkernel : config.kernel = some kernel)
    (hmemory : config.totalLength < 2 ^ 63) :
    KernelHobPage (GuestMemory.imagePage config.hobList.hobs 0)
      (0x30 * config.shimList.data.length + 8)
      (config.shimList.base, kernel.length) := by
  have hlist := hobList_eq_add hkernel
  have hlength := config.length_hobs_le
  have hcount := config.length_hobList_le
  have hdata : config.hobList.data.length =
      config.shimList.data.length + 1 := by
    rw [hlist]
    simp [IgvmDataList.add]
  have hkernelHob : (config.hobList.data.map (·.hob))[
      config.shimList.data.length]? =
        some (.new config.shimList.base kernel.length .kernel) := by
    rw [hlist]
    simp [IgvmDataList.add]
  have hplaced : ∀ hob ∈ config.hobList.data.map (·.hob), hob.Placed := by
    intro hob hhob
    obtain ⟨entry, hentry, rfl⟩ := List.mem_map.mp hhob
    exact config.hobList_laid.placed entry hentry
  constructor
  · omega
  · simp only [pageSize]
    omega
  · intro back j hj hlt
    obtain ⟨tail, htail⟩ := config.imagePage_hobs_append back
    rw [htail]
    apply kernelHobAt_hobs_eq_none hplaced _ _ tail hj hlt
    · rw [List.length_map]
      omega
    · intro k hk hob hhob
      rw [hlist, List.getElem?_map] at hhob
      obtain ⟨entry, hentry, rfl⟩ := Option.map_eq_some_iff.mp hhob
      rw [IgvmDataList.add, List.getElem?_append_left hk] at hentry
      exact config.shimList_dataType_ne entry (List.mem_of_getElem? hentry)
  · intro back
    obtain ⟨tail, htail⟩ := config.imagePage_hobs_append back
    have hbound := kernel_bound hkernel hmemory
    rw [htail, kernelHobAt_flatMap_asBytes hkernelHob]
    simp only [EfiIgvmDataHob.new, if_true]
    rw [Nat.mod_eq_of_lt (by omega), Nat.mod_eq_of_lt (by omega)]

/-- The memory after all measured blobs, where the kernel is whole. -/
theorem layout_eq (hkernel : config.kernel = some kernel)
    (hobarea : OvmfRegion) :
    ∃ mem : GuestMemory, config.layout hobarea =
      (config.hobList.blobs false).foldl GuestMemory.place
        (mem.place (config.shimList.base, kernel)) := by
  rw [layout, hobList_blobs_true hkernel, List.foldl_append]
  exact ⟨_, rfl⟩

theorem shimList_base (hmemory : config.totalLength < 2 ^ 63) {shim : Bytes}
    (hshim : config.shim = some shim) :
    config.shimList.base = config.certList.base + roundUp shim.length := by
  have hbase := config.certList_laid.base_le
  have hbound := blobPages_bound hmemory
  have hpages : optionalPages config.shim * pageSize =
      roundUp shim.length := by
    rw [hshim]
    rfl
  rw [shimList, hshim, IgvmDataList.addOptional, IgvmDataList.add]
  apply Nat.mod_eq_of_lt
  simp only [blobPages, Nat.add_mul] at hbound
  omega

/-- Behind a shim that is not empty the kernel keeps all its pages; an empty
kernel has none to lose. -/
theorem layout_kernelPage (hkernel : config.kernel = some kernel)
    (hmemory : config.totalLength < 2 ^ 63)
    (hshim : config.shim = some [] → kernel = []) (hobarea : OvmfRegion)
    {k : Nat}
    (hk : k < Builder.pagesOf kernel.length) :
    config.layout hobarea (config.shimList.base + k * pageSize) =
      some (GuestMemory.imagePage kernel k) := by
  obtain ⟨mem, hlayout⟩ := layout_eq hkernel hobarea
  have hbound := kernel_bound hkernel hmemory
  have hplace := mem.place_apply
    (show config.shimList.base + kernel.length < 2 ^ 64 by omega) hk
  rw [hlayout, GuestMemory.foldl_place_of_disjoint, hplace]
  intro blob hblob
  have hend := blob_bound hmemory hblob
  refine ⟨by omega, Or.inr ?_⟩
  rw [hobList_blobs_false] at hblob
  obtain ⟨shim, hsome, rfl⟩ :=
    Option.map_eq_some_iff.mp (Option.mem_toList.mp hblob)
  have hpos : 0 < shim.length := by
    apply List.length_pos_iff_ne_nil.mpr
    intro hnil
    rw [hshim (hnil ▸ hsome)] at hk
    exact absurd hk (Nat.not_lt_zero k)
  rw [shimList_base hmemory hsome]
  simp only [roundUp, pageSize]
  omega

/-- An empty shim has the address of the kernel, and clears its first
page. -/
theorem layout_kernel_cleared (hkernel : config.kernel = some kernel)
    (hmemory : config.totalLength < 2 ^ 63)
    (hshim : config.shim = some []) (hobarea : OvmfRegion) :
    config.layout hobarea config.shimList.base = none := by
  obtain ⟨mem, hlayout⟩ := layout_eq hkernel hobarea
  have hbase : config.shimList.base = config.certList.base := by
    rw [shimList_base hmemory hshim]
    rfl
  have hbound := blobPages_bound hmemory
  have hcert := config.certList_laid.base_le
  have hlimit : config.certList.base + pageSize < 2 ^ 64 := by
    simp only [blobPages, Nat.add_mul] at hbound
    omega
  rw [hlayout, hobList_blobs_false, hshim, hbase]
  exact GuestMemory.place_nil _ hlimit

theorem shimList_base_aligned (config : BuildConfig) :
    config.shimList.base % pageSize = 0 :=
  (config.certList_laid.addOptional config.shim .shim false).aligned

end BuildConfig

variable {crate : IgvmCrate} {config : BuildConfig} {kernel : Bytes}
  {hobarea : OvmfRegion} {pages : PageMap}

/-- A file that was built reads back as the layout of its configuration. -/
theorem build_holds {sha384 : Bytes → Digest384} {result : BuildResult}
    (hcrate : crate.Faithful) (hdata : config.hasData = true)
    (hbuild : build sha384 crate config = .ok result) :
    ∃ hobarea parsed, config.hobArea = some hobarea ∧
      crate.newFromBinary result.igvmBytes = .ok parsed ∧
      (pageMap parsed).Holds (config.layout hobarea) ∧
      (pageMap parsed).size ≤ config.filledPages := by
  obtain ⟨builder, hassemble, hrest⟩ := bind_eq_ok_iff.mp hbuild
  obtain ⟨igvm, hfinalize, hrest⟩ := bind_eq_ok_iff.mp hrest
  obtain ⟨measurement, -, hrest⟩ := bind_eq_ok_iff.mp hrest
  obtain ⟨igvmBytes, hserialize, hresult⟩ := bind_eq_ok_iff.mp hrest
  cases hresult
  have hatStage : ∀ {α : Type} {stage : String} {first : Except String α}
      {value : α}, atStage stage first = .ok value → first = .ok value := by
    intro α stage first value hok
    cases first with
    | error e => cases hok
    | ok other =>
        cases hok
        rfl
  obtain ⟨hdirectives, haligned⟩ :=
    hcrate.newFile _ _ _ _ (hatStage hfinalize)
  obtain ⟨parsed, hparsed, -, hparsedDirectives⟩ :=
    hcrate.roundTrip _ _ (hatStage hserialize)
  obtain ⟨hobarea, harea, hlayout⟩ := assemble_guestMemory hassemble hdata
  rw [hdirectives] at hparsedDirectives
  have hmemory : ∀ gpa, lookupPage gpa parsed.directives =
      config.layout hobarea gpa := by
    intro gpa
    rw [← hlayout, ← guestMemory_sortPages, hparsedDirectives]
    rfl
  refine ⟨hobarea, parsed, harea, hparsed, ⟨?_, ?_⟩, ?_⟩
  · intro gpa
    rw [pageMap_get?, hmemory]
  · intro gpa page hpage
    rw [← hmemory, hparsedDirectives] at hpage
    obtain ⟨data, hmem, -, rfl, -⟩ := exists_of_lookupPage hpage
    exact ⟨haligned data hmem, data.gpa.toNat_lt⟩
  · have hcount := pageMap_size_le_dataPageCount parsed
    rw [hparsedDirectives, dataPageCount_sortPages] at hcount
    exact hcount.trans (dataPageCount_assemble_le hassemble)

/-- The scan finds the kernel's own entry. -/
theorem findKernelBlob_of_hobFirst
    (hholds : pages.Holds (config.layout hobarea))
    (hkernel : config.kernel = some kernel)
    (hmemory : config.totalLength < 2 ^ 63)
    (harea : config.hobArea = some hobarea)
    (hfirst : config.HobFirst hobarea) :
    findKernelBlob pages = .ok (config.shimList.base, kernel.length) :=
  hholds.findKernelBlob
    (BuildConfig.layout_hobPage hmemory harea hfirst)
    (BuildConfig.hobPage_kernelHobPage hkernel hmemory) hfirst.first

/-- A kernel with all its pages is reassembled. -/
theorem reassemble_kernel (hholds : pages.Holds (config.layout hobarea))
    (hkernel : config.kernel = some kernel)
    (hmemory : config.totalLength < 2 ^ 63)
    (hshim : config.shim = some [] → kernel = [])
    (hsize : pages.size ≤ config.filledPages) :
    reassemble pages config.shimList.base kernel.length = .ok kernel := by
  have haligned := config.shimList_base_aligned
  have hbound := BuildConfig.kernel_bound hkernel hmemory
  have hpages : ∀ k < Builder.pagesOf kernel.length,
      pages.get? (config.shimList.base + k * pageSize) =
        some (GuestMemory.imagePage kernel k) := by
    intro k hk
    rw [hholds.get?]
    exact BuildConfig.layout_kernelPage hkernel hmemory hshim hobarea hk
  have hcount : Builder.pagesOf kernel.length =
      (kernel.length + config.shimList.base % pageSize + (pageSize - 1)) /
        pageSize := by
    rw [haligned]
    rfl
  have hfilled : Builder.pagesOf kernel.length ≤ pages.size := by
    apply count_le_size
    intro k hk
    rw [hpages k hk]
    rfl
  have havailable : kernel.length ≤ pages.size * pageSize % 2 ^ 64 := by
    have hlimit := BuildConfig.filledPages_bound hmemory
    have hmul := Nat.mul_le_mul_right pageSize hsize
    rw [Nat.mod_eq_of_lt (by omega)]
    simp only [Builder.pagesOf, pageSize] at hfilled ⊢
    omega
  have hend : config.shimList.base + Builder.pagesOf kernel.length *
      pageSize < 2 ^ 64 := by
    simp only [Builder.pagesOf, pageSize] at hbound ⊢
    omega
  rw [reassemble_eq_ok (GuestMemory.imagePage kernel) _ hcount havailable
    (by rwa [haligned]) (by rwa [haligned]), haligned, GuestMemory.flatMap_imagePage,
    Bytes.zeroPad_of_length_le
      (by simp only [Builder.pagesOf, pageSize]; omega),
    Bytes.slice, List.drop_zero, List.take_left]

/-- Without its first page it is not. -/
theorem reassemble_cleared (hholds : pages.Holds (config.layout hobarea))
    (hkernel : config.kernel = some kernel)
    (hmemory : config.totalLength < 2 ^ 63)
    (hshim : config.shim = some []) (hne : kernel ≠ []) :
    ∃ e, reassemble pages config.shimList.base kernel.length = .error e := by
  apply reassemble_eq_error
  · rw [config.shimList_base_aligned, Nat.sub_zero, hholds.get?]
    exact BuildConfig.layout_kernel_cleared hkernel hmemory hshim hobarea
  · exact List.length_pos_iff_ne_nil.mpr hne

end Igvm

end Kettle
