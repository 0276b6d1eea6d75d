/-
What the HOB data leaves in the builder.  Every blob is placed by clearing a
range of at least one page and adding the blob's pages, the measured blobs
before the shim.
-/
import Kettle.Igvm.BuildExtract
import Kettle.Igvm.HobDecode

namespace Kettle

namespace Igvm

section Writes

/-- The directive is a page that starts in a range. -/
def pageIn (low high : Nat) : IgvmDirectiveHeader → Bool
  | .pageData page => low ≤ page.gpa.toNat && page.gpa.toNat < high
  | _ => false

theorem pageIn_mono {low high low' high' : Nat}
    {directive : IgvmDirectiveHeader} (hlow : low' ≤ low)
    (hhigh : high ≤ high') (hin : pageIn low high directive = true) :
    pageIn low' high' directive = true := by
  cases directive with
  | pageData page =>
      simp only [pageIn, Bool.and_eq_true, decide_eq_true_eq] at hin ⊢
      omega
  | _ => exact hin

theorem pageIn_apart {low high low' high' : Nat}
    {directive : IgvmDirectiveHeader} (hapart : high ≤ low' ∨ high' ≤ low)
    (hin : pageIn low high directive = true) :
    pageIn low' high' directive = false := by
  cases directive with
  | pageData page =>
      simp only [pageIn, Bool.and_eq_true, decide_eq_true_eq] at hin
      simp only [pageIn, Bool.and_eq_false_iff, decide_eq_false_iff_not]
      omega
  | _ => rfl

theorem pageIn_self (low : Nat) (directive : IgvmDirectiveHeader) :
    pageIn low low directive = false := by
  cases directive with
  | pageData page =>
      simp only [pageIn, Bool.and_eq_false_iff, decide_eq_false_iff_not]
      omega
  | _ => rfl

/-- A range that is cleared and an image that is put there. -/
structure RangeWrite where
  base : Nat
  size : Nat
  image : Bytes
  flags : IgvmPageDataFlags
deriving DecidableEq, Repr

namespace RangeWrite

/-- Where the cleared range ends. -/
def stop (write : RangeWrite) : Nat := write.base + max write.size pageSize

/-- The image lies in the range, and no address overflows. -/
structure Fits (write : RangeWrite) : Prop where
  image : write.image.length ≤ max write.size pageSize
  bound : write.stop < 2 ^ 64

def pages (write : RangeWrite) (mask : UInt32) : List IgvmDirectiveHeader :=
  (Builder.dataPages write.base write.image mask write.flags).map .pageData

end RangeWrite

def Builder.write (builder : Builder) (write : RangeWrite) : Builder :=
  (builder.removePageDataInRange write.base write.size).addDataPagesFlags
    write.base write.image write.flags

theorem mem_pages {write : RangeWrite} {mask : UInt32}
    {directive : IgvmDirectiveHeader} (hfits : write.Fits)
    (hmem : directive ∈ write.pages mask) :
    pageIn write.base (write.base + write.image.length) directive = true := by
  obtain ⟨page, hpage, rfl⟩ := List.mem_map.mp hmem
  obtain ⟨k, hk, rfl⟩ := List.mem_map.mp hpage
  have hinside : k * pageSize < write.image.length := by
    rw [List.mem_range, Builder.pagesOf] at hk
    simp only [pageSize] at hk ⊢
    omega
  have himage := hfits.image
  have hbound := hfits.bound
  unfold RangeWrite.stop at hbound
  have hgpa : (UInt64.ofNat (write.base + k * pageSize)).toNat =
      write.base + k * pageSize := by
    rw [UInt64.toNat_ofNat', Nat.mod_eq_of_lt (by omega)]
  simp only [pageIn, hgpa, Bool.and_eq_true, decide_eq_true_eq]
  omega

theorem keepDirective_eq {write : RangeWrite} (hfits : write.Fits)
    (directive : IgvmDirectiveHeader) :
    Builder.keepDirective write.base write.size directive =
      !pageIn write.base write.stop directive := by
  have hbound := hfits.bound
  unfold RangeWrite.stop at hbound
  cases directive with
  | pageData page =>
      simp only [Builder.keepDirective, Builder.inRange, pageIn,
        RangeWrite.stop, Nat.mod_eq_of_lt hbound]
      rfl
  | _ => rfl

theorem directives_write {write : RangeWrite} (hfits : write.Fits)
    (builder : Builder) :
    (builder.write write).directives =
      builder.directives.filter
          (fun d => !pageIn write.base write.stop d) ++
        write.pages builder.compatibilityMaskAll := by
  have hkeep : Builder.keepDirective write.base write.size =
      fun d => !pageIn write.base write.stop d := by
    funext directive
    exact keepDirective_eq hfits directive
  rw [← hkeep]
  rfl

@[simp] theorem compatibilityMaskAll_write (builder : Builder)
    (write : RangeWrite) :
    (builder.write write).compatibilityMaskAll =
      builder.compatibilityMaskAll := rfl

theorem compatibilityMaskAll_foldl_write (builder : Builder)
    (writes : List RangeWrite) :
    (writes.foldl Builder.write builder).compatibilityMaskAll =
      builder.compatibilityMaskAll := by
  induction writes generalizing builder with
  | nil => rfl
  | cons write rest ih =>
      rw [List.foldl_cons, ih, compatibilityMaskAll_write]

/-- Right after a write the image's pages are the ones in its range. -/
theorem filter_write_own {write : RangeWrite} (hfits : write.Fits)
    (builder : Builder) :
    (builder.write write).directives.filter
        (pageIn write.base (write.base + write.image.length)) =
      write.pages builder.compatibilityMaskAll := by
  have hend : write.base + write.image.length ≤ write.stop :=
    Nat.add_le_add_left hfits.image write.base
  rw [directives_write hfits, List.filter_append, List.filter_filter]
  have hold : builder.directives.filter (fun d =>
      pageIn write.base (write.base + write.image.length) d &&
        !pageIn write.base write.stop d) = [] := by
    rw [List.filter_eq_nil_iff]
    intro d _ hboth
    rw [Bool.and_eq_true, Bool.not_eq_true'] at hboth
    rw [pageIn_mono (Nat.le_refl _) hend hboth.1] at hboth
    exact absurd hboth.2 (by decide)
  rw [hold, List.nil_append, List.filter_eq_self]
  intro d hd
  exact mem_pages hfits hd

/-- What a write leaves alone: directives that are not in its range. -/
theorem filter_write_frame {write : RangeWrite} (hfits : write.Fits)
    {builder : Builder} {q : IgvmDirectiveHeader → Bool}
    (hold : ∀ d ∈ builder.directives, q d = true →
      pageIn write.base write.stop d = false)
    (hnew : ∀ d, q d = true →
      pageIn write.base (write.base + write.image.length) d = false) :
    (builder.write write).directives.filter q =
      builder.directives.filter q := by
  have hpages : (write.pages builder.compatibilityMaskAll).filter q = [] := by
    rw [List.filter_eq_nil_iff]
    intro d hd hq
    have hin := mem_pages hfits hd
    rw [hnew d hq] at hin
    exact absurd hin (by decide)
  rw [directives_write hfits, List.filter_append, hpages, List.append_nil,
    List.filter_filter]
  apply List.filter_congr
  intro d hd
  cases hq : q d with
  | false => rfl
  | true => simp [hold d hd hq]

/-- The same for a sequence of writes. -/
theorem filter_foldl_write_frame {writes : List RangeWrite}
    (hfits : ∀ write ∈ writes, write.Fits) {builder : Builder}
    {q : IgvmDirectiveHeader → Bool}
    (hold : ∀ write ∈ writes, ∀ d ∈ builder.directives, q d = true →
      pageIn write.base write.stop d = false)
    (hnew : ∀ write ∈ writes, ∀ d, q d = true →
      pageIn write.base (write.base + write.image.length) d = false) :
    (writes.foldl Builder.write builder).directives.filter q =
      builder.directives.filter q := by
  induction writes generalizing builder with
  | nil => rfl
  | cons write rest ih =>
      have hstep := filter_write_frame (hfits write List.mem_cons_self)
        (hold write List.mem_cons_self) (hnew write List.mem_cons_self)
      rw [List.foldl_cons, ih, hstep]
      · exact fun other hmem => hfits other (List.mem_cons_of_mem _ hmem)
      · intro other hmem d hd hq
        have hkept : d ∈ (builder.write write).directives.filter q :=
          List.mem_filter.mpr ⟨hd, hq⟩
        rw [hstep] at hkept
        exact hold other (List.mem_cons_of_mem _ hmem) d
          (List.mem_filter.mp hkept).1 hq
      · exact fun other hmem => hnew other (List.mem_cons_of_mem _ hmem)

/-- An image stays in place when no later write reaches it. -/
theorem filter_foldl_write_own {write : RangeWrite}
    {before after : List RangeWrite} (hfits : write.Fits)
    (hafter : ∀ later ∈ after, later.Fits ∧
      (later.stop ≤ write.base ∨
        write.base + write.image.length ≤ later.base))
    (builder : Builder) :
    ((before ++ write :: after).foldl Builder.write builder).directives.filter
        (pageIn write.base (write.base + write.image.length)) =
      write.pages builder.compatibilityMaskAll := by
  rw [List.foldl_append, List.foldl_cons, filter_foldl_write_frame,
    filter_write_own hfits, compatibilityMaskAll_foldl_write]
  · exact fun later hmem => (hafter later hmem).1
  · intro later hmem d _ hd
    exact pageIn_apart (hafter later hmem).2.symm hd
  · intro later hmem d hd
    have hend : later.base + later.image.length ≤ later.stop :=
      Nat.add_le_add_left (hafter later hmem).1.image later.base
    have hapart := (hafter later hmem).2
    exact pageIn_apart (by omega) hd

/-- What an empty image clears stays clear when no later image reaches it. -/
theorem filter_foldl_write_cleared {write : RangeWrite}
    {before after : List RangeWrite} (hfits : write.Fits)
    (hempty : write.image = [])
    (hafter : ∀ later ∈ after, later.Fits ∧
      (later.base + later.image.length ≤ write.base ∨
        write.stop ≤ later.base))
    (builder : Builder) :
    ((before ++ write :: after).foldl Builder.write builder).directives.filter
        (pageIn write.base write.stop) = [] := by
  rw [List.foldl_append, List.foldl_cons]
  generalize before.foldl Builder.write builder = start
  have hclear : (start.write write).directives.filter
      (pageIn write.base write.stop) = [] := by
    have hpages : write.pages start.compatibilityMaskAll = [] := by
      simp [RangeWrite.pages, Builder.dataPages, hempty, Builder.pagesOf,
        pageSize]
    rw [directives_write hfits, hpages, List.append_nil, List.filter_filter,
      List.filter_eq_nil_iff]
    intro d _
    simp
  rw [List.filter_eq_nil_iff] at hclear ⊢
  suffices hfold : ∀ (writes : List RangeWrite) (builder : Builder),
      (∀ later ∈ writes, later ∈ after) →
      (∀ d ∈ builder.directives,
        ¬ pageIn write.base write.stop d = true) →
      ∀ d ∈ (writes.foldl Builder.write builder).directives,
        ¬ pageIn write.base write.stop d = true from
    hfold after _ (fun _ hmem => hmem) hclear
  intro writes
  induction writes with
  | nil => exact fun _ _ hclear => hclear
  | cons later rest ih =>
      intro builder hsub hclear
      obtain ⟨hlater, hapart⟩ := hafter later (hsub later List.mem_cons_self)
      apply ih _ fun other hmem => hsub other (List.mem_cons_of_mem _ hmem)
      intro d hd
      rw [directives_write hlater] at hd
      rcases List.mem_append.mp hd with hkept | hadded
      · exact hclear d (List.mem_filter.mp hkept).1
      · rw [pageIn_apart hapart (mem_pages hlater hadded)]
        decide

theorem exists_first_page {write : RangeWrite} (hfits : write.Fits)
    (himage : write.image ≠ []) (mask : UInt32) :
    ∃ d ∈ write.pages mask,
      pageIn write.base (write.base + pageSize) d = true := by
  have hlength := List.length_pos_iff.mpr himage
  have hbound := hfits.bound
  unfold RangeWrite.stop at hbound
  have hgpa : (UInt64.ofNat (write.base + 0 * pageSize)).toNat =
      write.base := by
    rw [Nat.zero_mul, Nat.add_zero, UInt64.toNat_ofNat',
      Nat.mod_eq_of_lt (by omega)]
  refine ⟨_, List.mem_map_of_mem
    (List.mem_map.mpr ⟨0, List.mem_range.mpr ?_, rfl⟩), ?_⟩
  · simp only [Builder.pagesOf, pageSize]
    omega
  · simp only [pageIn, hgpa]
    simp [pageSize]

end Writes

section Calls

open IgvmDataList

def optionalCall (blob : Option Bytes) (dataType : IgvmDataType)
    (measured : Bool) : List AddCall :=
  (blob.map fun blob => ⟨blob, dataType, measured⟩).toList

namespace BuildConfig

variable (config : BuildConfig)

def certCalls : List AddCall :=
  optionalCall config.pk .pk true ++ optionalCall config.kek .kek true ++
    optionalCall config.db .db true ++ optionalCall config.dbx .dbx true

def bootCalls : List AddCall :=
  optionalCall config.shim .shim false ++
    optionalCall config.kernel .kernel true

/-- The blobs that are given, in the order of their addresses. -/
def addCalls : List AddCall := config.certCalls ++ config.bootCalls

/-- Where the blob range ends. -/
def blobsEnd : Nat := endOf 0x20000000 config.addCalls

/-- The blob of a type. -/
def blobOf : IgvmDataType → Option Bytes
  | .pk => config.pk
  | .kek => config.kek
  | .db => config.db
  | .dbx => config.dbx
  | .shim => config.shim
  | .kernel => config.kernel

end BuildConfig

theorem addOptional_eq (list : IgvmDataList) (blob : Option Bytes)
    (dataType : IgvmDataType) (measured : Bool) :
    list.addOptional blob dataType measured =
      (optionalCall blob dataType measured).foldl addCall list := by
  cases blob <;> rfl

theorem mem_optionalCall {blob : Option Bytes} {dataType : IgvmDataType}
    {measured : Bool} {call : AddCall}
    (hmem : call ∈ optionalCall blob dataType measured) :
    blob = some call.blob ∧ dataType = call.dataType ∧
      measured = call.measured := by
  cases blob with
  | none => cases hmem
  | some blob =>
      rw [List.mem_singleton.mp hmem]
      exact ⟨rfl, rfl, rfl⟩

theorem endOf_append (base : Nat) (front back : List AddCall) :
    endOf base (front ++ back) = endOf (endOf base front) back := by
  induction front generalizing base with
  | nil => rfl
  | cons call rest ih => exact ih _

theorem entriesFrom_append (base : Nat) (front back : List AddCall) :
    entriesFrom base (front ++ back) =
      entriesFrom base front ++ entriesFrom (endOf base front) back := by
  induction front generalizing base with
  | nil => rfl
  | cons call rest ih =>
      rw [List.cons_append, entriesFrom, ih, entriesFrom, endOf,
        List.cons_append]

theorem endOf_optionalCall (base : Nat) (blob : Option Bytes)
    (dataType : IgvmDataType) (measured : Bool) :
    endOf base (optionalCall blob dataType measured) =
      base + optionalPages blob * pageSize := by
  cases blob with
  | none => simp [optionalCall, endOf, optionalPages]
  | some blob =>
      simp [optionalCall, endOf, optionalPages, roundUp, Builder.pagesOf]

namespace BuildConfig

variable {config : BuildConfig}

theorem blobsEnd_eq (config : BuildConfig) :
    config.blobsEnd = 0x20000000 + config.blobPages * pageSize := by
  unfold blobsEnd addCalls certCalls bootCalls
  simp only [endOf_append, endOf_optionalCall]
  unfold blobPages certPages
  ring

theorem blobsEnd_bound (hmemory : config.totalLength < 2 ^ 63) :
    config.blobsEnd + pageSize < 2 ^ 64 := by
  have hbound := blobPages_bound hmemory
  rw [blobsEnd_eq]
  omega

theorem hobList_eq_ofCalls (config : BuildConfig) :
    config.hobList = ofCalls 0x20000000 config.addCalls := by
  unfold hobList ofCalls addCalls certCalls bootCalls
  simp only [addOptional_eq, List.foldl_append]

/-- The entries of the list, with the addresses they get. -/
def entries (config : BuildConfig) : List IgvmDataEntry :=
  entriesFrom 0x20000000 config.addCalls

theorem hobList_data (hmemory : config.totalLength < 2 ^ 63) :
    config.hobList.data = config.entries := by
  have hbound := blobsEnd_bound hmemory
  rw [hobList_eq_ofCalls, ofCalls_eq (by unfold blobsEnd at hbound; omega)]
  rfl

/-- The call behind an entry is about a blob that is given. -/
theorem mem_addCalls {call : AddCall} (hmem : call ∈ config.addCalls) :
    config.blobOf call.dataType = some call.blob ∧
      (call.measured = !decide (call.dataType = .shim)) := by
  simp only [addCalls, certCalls, bootCalls, List.mem_append] at hmem
  rcases hmem with (((hpk | hkek) | hdb) | hdbx) | (hshim | hkernel)
  · obtain ⟨hblob, htype, hmeasured⟩ := mem_optionalCall hpk
    simp [← htype, ← hmeasured, blobOf, hblob]
  · obtain ⟨hblob, htype, hmeasured⟩ := mem_optionalCall hkek
    simp [← htype, ← hmeasured, blobOf, hblob]
  · obtain ⟨hblob, htype, hmeasured⟩ := mem_optionalCall hdb
    simp [← htype, ← hmeasured, blobOf, hblob]
  · obtain ⟨hblob, htype, hmeasured⟩ := mem_optionalCall hdbx
    simp [← htype, ← hmeasured, blobOf, hblob]
  · obtain ⟨hblob, htype, hmeasured⟩ := mem_optionalCall hshim
    simp [← htype, ← hmeasured, blobOf, hblob]
  · obtain ⟨hblob, htype, hmeasured⟩ := mem_optionalCall hkernel
    simp [← htype, ← hmeasured, blobOf, hblob]

theorem mem_certCalls {call : AddCall} (hmem : call ∈ config.certCalls) :
    call.measured = true := by
  simp only [certCalls, List.mem_append] at hmem
  rcases hmem with ((hpk | hkek) | hdb) | hdbx
  · exact (mem_optionalCall hpk).2.2.symm
  · exact (mem_optionalCall hkek).2.2.symm
  · exact (mem_optionalCall hdb).2.2.symm
  · exact (mem_optionalCall hdbx).2.2.symm

end BuildConfig

end Calls

section Entries

/-- The write of a blob. -/
def entryWrite (entry : IgvmDataEntry) : RangeWrite :=
  ⟨entry.addr, entry.blob.length, entry.blob,
    { unmeasured := !entry.measured }⟩

def hobWrite (area : OvmfRegion) (list : IgvmDataList) : RangeWrite :=
  ⟨area.base, area.size, list.hobs, {}⟩

/-- The measured entries are placed first. -/
def placedEntries (entries : List IgvmDataEntry) : List IgvmDataEntry :=
  entries.filter (·.measured == true) ++ entries.filter (·.measured == false)

theorem placedEntries_perm (entries : List IgvmDataEntry) :
    (placedEntries entries).Perm entries := by
  have hother : (fun entry : IgvmDataEntry => !(entry.measured == true)) =
      fun entry => entry.measured == false := by
    funext entry
    cases entry.measured <;> rfl
  have hperm := List.filter_append_perm (fun entry : IgvmDataEntry =>
    entry.measured == true) entries
  rw [hother] at hperm
  exact hperm

theorem foldl_placeBlob (list : IgvmDataList) (measured : Bool)
    (builder : Builder) :
    (list.blobs measured).foldl (Builder.placeBlob measured) builder =
      ((list.data.filter (·.measured == measured)).map entryWrite).foldl
        Builder.write builder := by
  have hmap : (list.data.filter (·.measured == measured)).map entryWrite =
      (list.blobs measured).map fun blob =>
        (⟨blob.1, blob.2.length, blob.2,
          { unmeasured := !measured }⟩ : RangeWrite) := by
    unfold IgvmDataList.blobs
    rw [List.map_map]
    apply List.map_congr_left
    intro entry hentry
    have hmeasured : entry.measured = measured := by
      simpa using (List.mem_filter.mp hentry).2
    simp [entryWrite, hmeasured]
  rw [hmap, List.foldl_map]
  rfl

/-- The whole placement as a sequence of writes. -/
theorem addHobData_eq {builder result : Builder}
    {ovmfmeta : Option OvmfMeta} {config : BuildConfig} {area : OvmfRegion}
    (harea : (ovmfmeta.bind fun m =>
      m.regions.find? (fun r => r.etype = .igvmHobArea)) = some area)
    (hdata : config.hasData = true)
    (hok : addHobData builder ovmfmeta config = .ok result) :
    result = (hobWrite area config.hobList ::
      (placedEntries config.hobList.data).map entryWrite).foldl
        Builder.write builder := by
  unfold addHobData at hok
  simp only [hdata, Bool.not_true, Bool.false_eq_true, if_false, harea,
    okOr_some, ok_bind] at hok
  cases hok
  rw [foldl_placeBlob, foldl_placeBlob, placedEntries, List.map_append,
    List.foldl_cons, List.foldl_append]
  rfl

variable {config : BuildConfig}

theorem mem_entries {entry : IgvmDataEntry}
    (hmem : entry ∈ config.entries) :
    0x20000000 ≤ entry.addr ∧
      entry.addr + roundUp entry.blob.length ≤ config.blobsEnd ∧
      entry.addr % pageSize = 0 ∧
      entry.hob = .new entry.addr entry.blob.length entry.hob.dataType ∧
      (⟨entry.blob, entry.hob.dataType, entry.measured⟩ : AddCall) ∈
        config.addCalls := by
  obtain ⟨hlow, hhigh, haligned, hhob, hcall⟩ :=
    IgvmDataList.mem_entriesFrom hmem
  exact ⟨hlow, hhigh, haligned (by decide), hhob, hcall⟩

theorem blobsEnd_mod (config : BuildConfig) :
    config.blobsEnd % pageSize = 0 := by
  rw [config.blobsEnd_eq]
  simp only [pageSize]
  omega

theorem entryWrite_fits (hmemory : config.totalLength < 2 ^ 63)
    {entry : IgvmDataEntry} (hmem : entry ∈ config.entries) :
    (entryWrite entry).Fits := by
  have hbound := BuildConfig.blobsEnd_bound hmemory
  obtain ⟨-, hhigh, -⟩ := mem_entries hmem
  have hround := length_le_roundUp entry.blob.length
  refine ⟨le_max_left _ _, ?_⟩
  simp only [entryWrite, RangeWrite.stop]
  omega

/-- A blob that is not empty clears its own pages only. -/
theorem entryWrite_stop_le {entry : IgvmDataEntry}
    (hblob : entry.blob ≠ []) :
    (entryWrite entry).stop ≤ entry.addr + roundUp entry.blob.length := by
  have hlength := List.length_pos_iff.mpr hblob
  simp only [entryWrite, RangeWrite.stop, roundUp, pageSize]
  omega

/-- An empty one clears the page at its address. -/
theorem entryWrite_stop_of_empty {entry : IgvmDataEntry}
    (hblob : entry.blob = []) :
    (entryWrite entry).stop = entry.addr + pageSize := by
  simp [entryWrite, RangeWrite.stop, hblob]

end Entries

section Placement

variable {config : BuildConfig} {area : OvmfRegion}
  {builder result : Builder}

/-- The directives outside the area and the blob range.  An area is at least
one page. -/
def elsewhere (config : BuildConfig) (area : OvmfRegion)
    (directive : IgvmDirectiveHeader) : Bool :=
  !pageIn area.base (area.base + max area.size pageSize) directive &&
    !pageIn 0x20000000 config.blobsEnd directive

/-- What HOB data must be like: each blob in its pages, the list at the start
of its area, everything else as it was. -/
structure HobPlaced (config : BuildConfig) (area : OvmfRegion)
    (builder result : Builder) : Prop where
  blobs : ∀ entry ∈ config.hobList.data,
    config.blobOf entry.hob.dataType = some entry.blob ∧
      result.directives.filter (pageIn entry.hob.address
          (entry.hob.address + entry.hob.length)) =
        (Builder.dataPages entry.hob.address entry.blob
          builder.compatibilityMaskAll
          { unmeasured := decide (entry.hob.dataType = .shim) }).map .pageData
  hobs : result.directives.filter (pageIn area.base
      (area.base + config.hobList.hobs.length)) =
    (Builder.dataPages area.base config.hobList.hobs
      builder.compatibilityMaskAll {}).map .pageData
  elsewhere : result.directives.filter (elsewhere config area) =
    builder.directives.filter (elsewhere config area)

/-- The last blob that is given is empty. -/
def BuildConfig.LastEmpty (config : BuildConfig) : Prop :=
  ∃ call, config.addCalls.getLast? = some call ∧ call.blob = []

/-- No empty blob clears a page that is in use: an empty shim the first page
of the kernel, an empty last blob the page behind the blobs. -/
structure EmptyBlobsHarmless (config : BuildConfig) (area : OvmfRegion)
    (builder : Builder) : Prop where
  shim : config.shim = some [] →
    ∀ kernel, config.kernel = some kernel → kernel = []
  last : config.LastEmpty → area.base ≠ config.blobsEnd ∧
    ∀ d ∈ builder.directives,
      pageIn config.blobsEnd (config.blobsEnd + pageSize) d = true →
        pageIn area.base (area.base + max area.size pageSize) d = true

/-- The area of the list, on a page boundary and outside the blob range. -/
structure HobAreaOutside (config : BuildConfig) (area : OvmfRegion) :
    Prop where
  aligned : area.base % pageSize = 0
  bound : area.base + max area.size pageSize < 2 ^ 64
  outside : ∀ addr, area.base ≤ addr →
    addr < area.base + max area.size pageSize →
      addr < 0x20000000 ∨ config.blobsEnd ≤ addr

/-- An empty entry at the end of the blobs is the last one or is followed by
empty ones only. -/
theorem lastEmpty_of_entry {entry : IgvmDataEntry}
    (hmem : entry ∈ config.entries) (hblob : entry.blob = [])
    (haddr : entry.addr = config.blobsEnd) : config.LastEmpty := by
  unfold BuildConfig.entries at hmem
  unfold BuildConfig.blobsEnd at haddr
  unfold BuildConfig.LastEmpty
  generalize config.addCalls = calls at hmem haddr ⊢
  cases calls using List.reverseRecOn with
  | nil => cases hmem
  | append_singleton front call =>
      refine ⟨call, List.getLast?_concat, ?_⟩
      rw [entriesFrom_append] at hmem
      rw [endOf_append] at haddr
      have hlow := IgvmDataList.le_endOf
        (IgvmDataList.endOf 0x20000000 front) [call]
      simp only [IgvmDataList.endOf] at haddr hlow
      rcases List.mem_append.mp hmem with hfront | hlast
      · obtain ⟨-, hhigh, -⟩ := IgvmDataList.mem_entriesFrom hfront
        have hround := length_le_roundUp call.blob.length
        exact List.length_eq_zero_iff.mp (by omega)
      · rw [IgvmDataList.entriesFrom, IgvmDataList.entriesFrom,
          List.mem_singleton] at hlast
        subst hlast
        exact hblob

/-- The last entry, when its blob is empty. -/
theorem entry_of_lastEmpty (hlast : config.LastEmpty) :
    ∃ entry, config.entries.getLast? = some entry ∧ entry.blob = [] ∧
      entry.addr = config.blobsEnd := by
  obtain ⟨call, hcall, hblob⟩ := hlast
  obtain ⟨front, hfront⟩ := List.getLast?_eq_some_iff.mp hcall
  refine ⟨⟨.new (IgvmDataList.endOf 0x20000000 front) call.blob.length
    call.dataType, IgvmDataList.endOf 0x20000000 front, call.blob,
    call.measured⟩, ?_, hblob, ?_⟩
  · rw [BuildConfig.entries, hfront, entriesFrom_append]
    exact List.getLast?_concat
  · rw [BuildConfig.blobsEnd, hfront, endOf_append]
    simp [IgvmDataList.endOf, hblob, roundUp, pageSize]

/-- Where an entry lies: a certificate below the shim and the kernel, the shim
below the kernel. -/
theorem mem_entries_cases {entry : IgvmDataEntry}
    (hmem : entry ∈ config.entries) :
    let shimBase := IgvmDataList.endOf 0x20000000 config.certCalls
    let kernelBase := IgvmDataList.endOf shimBase
      (optionalCall config.shim .shim false)
    (entry.measured = true ∧
        entry.addr + roundUp entry.blob.length ≤ shimBase) ∨
      (entry.measured = false ∧ config.shim = some entry.blob ∧
        shimBase ≤ entry.addr ∧
        entry.addr + roundUp entry.blob.length ≤ kernelBase) ∨
      (entry.measured = true ∧ config.kernel = some entry.blob ∧
        kernelBase ≤ entry.addr) := by
  intro shimBase kernelBase
  rw [BuildConfig.entries, BuildConfig.addCalls, BuildConfig.bootCalls,
    entriesFrom_append, entriesFrom_append] at hmem
  rcases List.mem_append.mp hmem with hcert | hboot
  · obtain ⟨-, hhigh, -, -, hcall⟩ := IgvmDataList.mem_entriesFrom hcert
    exact .inl ⟨BuildConfig.mem_certCalls hcall, hhigh⟩
  · rcases List.mem_append.mp hboot with hshim | hkernel
    · obtain ⟨hlow, hhigh, -, -, hcall⟩ := IgvmDataList.mem_entriesFrom hshim
      obtain ⟨hblob, -, hmeasured⟩ := mem_optionalCall hcall
      exact .inr (.inl ⟨hmeasured.symm, hblob, hlow, hhigh⟩)
    · obtain ⟨hlow, -, -, -, hcall⟩ := IgvmDataList.mem_entriesFrom hkernel
      obtain ⟨hblob, -, hmeasured⟩ := mem_optionalCall hcall
      exact .inr (.inr ⟨hmeasured.symm, hblob, hlow⟩)

/-- What a blob's write clears lies in the blob range, except for an empty
blob at its end. -/
theorem entryWrite_stop_cases {entry : IgvmDataEntry}
    (hmem : entry ∈ config.entries) :
    (entryWrite entry).stop ≤ config.blobsEnd ∨
      (entry.blob = [] ∧ entry.addr = config.blobsEnd) := by
  obtain ⟨-, hhigh, haligned, -⟩ := mem_entries hmem
  rcases Decidable.em (entry.blob = []) with hblob | hblob
  · have hstop := entryWrite_stop_of_empty hblob
    have hend := blobsEnd_mod config
    simp only [pageSize] at hstop haligned hend
    rcases Decidable.em (entry.addr = config.blobsEnd) with haddr | haddr
    · exact .inr ⟨hblob, haddr⟩
    · exact .inl (by omega)
  · exact .inl (Nat.le_trans (entryWrite_stop_le hblob) hhigh)

/-- A later write leaves the pages of an earlier blob, when an empty shim does
not meet a kernel. -/
theorem pairwise_placedEntries
    (hshim : config.shim = some [] →
      ∀ kernel, config.kernel = some kernel → kernel = []) :
    (placedEntries config.entries).Pairwise fun earlier later =>
      earlier.blob ≠ [] → (entryWrite later).stop ≤ earlier.addr ∨
        earlier.addr + earlier.blob.length ≤ later.addr := by
  have hordered : config.entries.Pairwise fun earlier later =>
      earlier.blob ≠ [] → (entryWrite later).stop ≤ earlier.addr ∨
        earlier.addr + earlier.blob.length ≤ later.addr := by
    refine (IgvmDataList.pairwise_entriesFrom _ _).imp ?_
    intro earlier later hnext _
    have hround := length_le_roundUp earlier.blob.length
    exact .inr (by omega)
  refine List.pairwise_append.mpr
    ⟨hordered.sublist List.filter_sublist,
      hordered.sublist List.filter_sublist, ?_⟩
  intro earlier hearlier later hlater hblob
  obtain ⟨hearlier, hmeasured⟩ := List.mem_filter.mp hearlier
  obtain ⟨hlater, hunmeasured⟩ := List.mem_filter.mp hlater
  have hround := length_le_roundUp earlier.blob.length
  -- only a shim is unmeasured, and it lies between certificates and kernel
  rcases mem_entries_cases hlater with
    ⟨hkind, -⟩ | ⟨-, hlaterShim, hlow, hhigh⟩ | ⟨hkind, -⟩
  · simp [hkind] at hunmeasured
  · rcases mem_entries_cases hearlier with
      ⟨-, hcert⟩ | ⟨hkind, -⟩ | ⟨-, hkernel, habove⟩
    · exact .inr (by omega)
    · simp [hkind] at hmeasured
    · rcases Decidable.em (later.blob = []) with hempty | hlaterBlob
      · rw [hempty] at hlaterShim
        exact absurd (hshim hlaterShim _ hkernel) hblob
      · have hstop := entryWrite_stop_le hlaterBlob
        exact .inl (by omega)
  · simp [hkind] at hunmeasured

theorem mem_entries_of_placed {entry : IgvmDataEntry}
    (hmem : entry ∈ placedEntries config.entries) :
    entry ∈ config.entries :=
  (placedEntries_perm config.entries).mem_iff.mp hmem

theorem hobWrite_fits (harea : HobAreaOutside config area) :
    (hobWrite area config.hobList).Fits := by
  have hlength := config.length_hobs_le
  refine ⟨?_, harea.bound⟩
  simp only [hobWrite, pageSize]
  omega

/-- All writes of the HOB data. -/
def allWrites (config : BuildConfig) (area : OvmfRegion) : List RangeWrite :=
  hobWrite area config.hobList ::
    (placedEntries config.entries).map entryWrite

theorem allWrites_fits (hmemory : config.totalLength < 2 ^ 63)
    (harea : HobAreaOutside config area) :
    ∀ write ∈ allWrites config area, write.Fits := by
  intro write hmem
  rcases List.mem_cons.mp hmem with rfl | hplaced
  · exact hobWrite_fits harea
  · obtain ⟨entry, hentry, rfl⟩ := List.mem_map.mp hplaced
    exact entryWrite_fits hmemory (mem_entries_of_placed hentry)

/-- The pages of a blob after all writes. -/
theorem filter_blob (hmemory : config.totalLength < 2 ^ 63)
    (hshim : config.shim = some [] →
      ∀ kernel, config.kernel = some kernel → kernel = [])
    {entry : IgvmDataEntry} (hentry : entry ∈ config.entries) :
    ((allWrites config area).foldl Builder.write builder).directives.filter
        (pageIn entry.addr (entry.addr + entry.blob.length)) =
      (entryWrite entry).pages builder.compatibilityMaskAll := by
  rcases Decidable.em (entry.blob = []) with hempty | hnonempty
  · simp [hempty, pageIn_self, RangeWrite.pages, entryWrite,
      Builder.dataPages, Builder.pagesOf, pageSize]
  · obtain ⟨before, after, hsplit⟩ := List.append_of_mem
      ((placedEntries_perm config.entries).mem_iff.mpr hentry)
    have hpairwise := pairwise_placedEntries hshim
    rw [hsplit] at hpairwise
    have hnext := (List.pairwise_cons.mp
      (List.pairwise_append.mp hpairwise).2.1).1
    rw [allWrites, hsplit, List.map_append, List.map_cons, ← List.cons_append]
    refine filter_foldl_write_own (entryWrite_fits hmemory hentry) ?_ builder
    intro write hwrite
    obtain ⟨later, hlater, rfl⟩ := List.mem_map.mp hwrite
    refine ⟨entryWrite_fits hmemory (mem_entries_of_placed ?_),
      hnext later hlater hnonempty⟩
    rw [hsplit]
    exact List.mem_append_right _ (List.mem_cons_of_mem _ hlater)

/-- The pages of the list after all writes. -/
theorem filter_hobs (hmemory : config.totalLength < 2 ^ 63)
    (harea : HobAreaOutside config area)
    (hlast : config.LastEmpty → area.base ≠ config.blobsEnd) :
    ((allWrites config area).foldl Builder.write builder).directives.filter
        (pageIn area.base (area.base + config.hobList.hobs.length)) =
      (hobWrite area config.hobList).pages builder.compatibilityMaskAll := by
  refine @filter_foldl_write_own _ [] _ (hobWrite_fits harea) ?_ builder
  intro write hwrite
  obtain ⟨entry, hentry, rfl⟩ := List.mem_map.mp hwrite
  have hmem := mem_entries_of_placed hentry
  refine ⟨entryWrite_fits hmemory hmem, ?_⟩
  obtain ⟨hlow, -⟩ := mem_entries hmem
  have hlength := config.length_hobs_le
  have hend := blobsEnd_mod config
  have haligned := harea.aligned
  have hbase := harea.outside area.base (Nat.le_refl _)
    (by simp only [pageSize]; omega)
  simp only [hobWrite, pageSize] at hend haligned ⊢
  simp only [entryWrite] at hlow ⊢
  rcases hbase with hbelow | habove
  · exact .inr (by omega)
  · left
    rcases entryWrite_stop_cases hmem with hstop | ⟨hempty, haddr⟩
    · exact Nat.le_trans hstop habove
    · have hstop := entryWrite_stop_of_empty hempty
      have hne := hlast (lastEmpty_of_entry hmem hempty haddr)
      simp only [entryWrite, pageSize] at hstop
      omega

theorem pageIn_of_elsewhere {directive : IgvmDirectiveHeader}
    (helsewhere : elsewhere config area directive = true) :
    pageIn area.base (area.base + max area.size pageSize) directive = false ∧
      pageIn 0x20000000 config.blobsEnd directive = false := by
  simpa [elsewhere] using helsewhere

/-- An image has no page elsewhere. -/
theorem pageIn_image_of_elsewhere (hmemory : config.totalLength < 2 ^ 63)
    (harea : HobAreaOutside config area) {write : RangeWrite}
    (hwrite : write ∈ allWrites config area)
    {directive : IgvmDirectiveHeader}
    (helsewhere : elsewhere config area directive = true) :
    pageIn write.base (write.base + write.image.length) directive =
      false := by
  obtain ⟨hhob, hblobs⟩ := pageIn_of_elsewhere helsewhere
  have himage := (allWrites_fits hmemory harea write hwrite).image
  by_contra hin
  have hpage := eq_true_of_ne_false hin
  rcases List.mem_cons.mp hwrite with rfl | hplaced
  · have hwide := pageIn_mono (Nat.le_refl _)
      (Nat.add_le_add_left himage _) hpage
    simp only [hobWrite] at hwide
    rw [hwide] at hhob
    cases hhob
  · obtain ⟨entry, hentry, rfl⟩ := List.mem_map.mp hplaced
    obtain ⟨hlow, hhigh, -⟩ := mem_entries (mem_entries_of_placed hentry)
    have hround := length_le_roundUp entry.blob.length
    have hend : (entryWrite entry).base + (entryWrite entry).image.length ≤
        config.blobsEnd := by
      simp only [entryWrite]
      omega
    rw [pageIn_mono hlow hend hpage] at hblobs
    cases hblobs

/-- Everything else after all writes. -/
theorem filter_elsewhere (hmemory : config.totalLength < 2 ^ 63)
    (harea : HobAreaOutside config area)
    (hlast : config.LastEmpty → ∀ d ∈ builder.directives,
      pageIn config.blobsEnd (config.blobsEnd + pageSize) d = true →
        pageIn area.base (area.base + max area.size pageSize) d = true) :
    ((allWrites config area).foldl Builder.write builder).directives.filter
        (elsewhere config area) =
      builder.directives.filter (elsewhere config area) := by
  refine filter_foldl_write_frame (allWrites_fits hmemory harea) ?_
    fun write hwrite d => pageIn_image_of_elsewhere hmemory harea hwrite
  intro write hwrite d hd helsewhere
  obtain ⟨hhob, hblobs⟩ := pageIn_of_elsewhere helsewhere
  rcases List.mem_cons.mp hwrite with rfl | hplaced
  · exact hhob
  · obtain ⟨entry, hentry, rfl⟩ := List.mem_map.mp hplaced
    have hmem := mem_entries_of_placed hentry
    by_contra hin
    have hpage := eq_true_of_ne_false hin
    rcases entryWrite_stop_cases hmem with hstop | ⟨hempty, haddr⟩
    · rw [pageIn_mono (mem_entries hmem).1 hstop hpage] at hblobs
      cases hblobs
    · rw [entryWrite_stop_of_empty hempty] at hpage
      simp only [entryWrite, haddr] at hpage
      rw [hlast (lastEmpty_of_entry hmem hempty haddr) d hd hpage] at hhob
      cases hhob

/-- An empty shim is written last, at the address of the kernel. -/
theorem placedEntries_emptyShim {kernel : Bytes}
    (hshim : config.shim = some []) (hkernel : config.kernel = some kernel) :
    ∃ before shim entry,
      placedEntries config.entries = before ++ [shim] ∧
      entry ∈ config.entries ∧ shim ∈ config.entries ∧ shim.blob = [] ∧
      entry.blob = kernel ∧ shim.addr = entry.addr := by
  generalize hbase : IgvmDataList.endOf 0x20000000 config.certCalls = base
  let shim : IgvmDataEntry := ⟨.new base 0 .shim, base, [], false⟩
  let entry : IgvmDataEntry :=
    ⟨.new base kernel.length .kernel, base, kernel, true⟩
  have hentries : config.entries =
      IgvmDataList.entriesFrom 0x20000000 config.certCalls ++
        [shim, entry] := by
    rw [BuildConfig.entries, BuildConfig.addCalls, entriesFrom_append, hbase,
      BuildConfig.bootCalls, hshim, hkernel]
    rfl
  have hcerts : (IgvmDataList.entriesFrom 0x20000000
      config.certCalls).filter (·.measured == false) = [] := by
    rw [List.filter_eq_nil_iff]
    intro cert hcert
    obtain ⟨-, -, -, -, hcall⟩ := IgvmDataList.mem_entriesFrom hcert
    have hmeasured := BuildConfig.mem_certCalls hcall
    simp only at hmeasured
    simp [hmeasured]
  have hunmeasured : config.entries.filter (·.measured == false) =
      [shim] := by
    rw [hentries, List.filter_append, hcerts]
    rfl
  refine ⟨config.entries.filter (·.measured == true), shim, entry, ?_, ?_, ?_,
    rfl, rfl, rfl⟩
  · rw [placedEntries, hunmeasured]
  · simp [hentries]
  · simp [hentries]

/-- A page in the range of an empty last write is not there afterwards. -/
theorem not_mem_cleared {entry : IgvmDataEntry}
    {before after : List IgvmDataEntry}
    (hmemory : config.totalLength < 2 ^ 63)
    (hsplit : placedEntries config.entries = before ++ entry :: after)
    (hempty : entry.blob = [])
    (hafter : ∀ later ∈ after,
      later.addr + later.blob.length ≤ entry.addr)
    {d : IgvmDirectiveHeader}
    (hd : d ∈ ((allWrites config area).foldl Builder.write
      builder).directives) :
    pageIn entry.addr (entry.addr + pageSize) d = false := by
  have hmem : ∀ other ∈ entry :: after, other ∈ config.entries := by
    intro other hother
    apply mem_entries_of_placed
    rw [hsplit]
    exact List.mem_append_right _ hother
  have hcleared := @filter_foldl_write_cleared (entryWrite entry)
    (hobWrite area config.hobList :: before.map entryWrite)
    (after.map entryWrite)
    (entryWrite_fits hmemory (hmem entry List.mem_cons_self)) hempty ?_
    builder
  · rw [entryWrite_stop_of_empty hempty, List.filter_eq_nil_iff] at hcleared
    rw [allWrites, hsplit, List.map_append, List.map_cons,
      ← List.cons_append] at hd
    exact eq_false_of_ne_true (hcleared d hd)
  · intro write hwrite
    obtain ⟨later, hlater, rfl⟩ := List.mem_map.mp hwrite
    exact ⟨entryWrite_fits hmemory (hmem later (List.mem_cons_of_mem _ hlater)),
      .inl (hafter later hlater)⟩

/-- What HOB data must be like for one blob, in terms of its write. -/
theorem placed_blob_iff {entry : IgvmDataEntry}
    (hentry : entry ∈ config.entries) (result : Builder) (mask : UInt32) :
    (config.blobOf entry.hob.dataType = some entry.blob ∧
        result.directives.filter (pageIn entry.hob.address
            (entry.hob.address + entry.hob.length)) =
          (Builder.dataPages entry.hob.address entry.blob mask
            { unmeasured := decide (entry.hob.dataType = .shim) }).map
              .pageData) ↔
      result.directives.filter
          (pageIn entry.addr (entry.addr + entry.blob.length)) =
        (entryWrite entry).pages mask := by
  obtain ⟨-, -, -, hhob, hcall⟩ := mem_entries hentry
  obtain ⟨hblob, hmeasured⟩ := BuildConfig.mem_addCalls hcall
  have haddress : entry.hob.address = entry.addr := by rw [hhob]; rfl
  have hlength : entry.hob.length = entry.blob.length := by rw [hhob]; rfl
  have hflags : decide (entry.hob.dataType = .shim) = !entry.measured := by
    simp only at hmeasured
    rw [hmeasured, Bool.not_not]
  rw [haddress, hlength, hflags]
  exact and_iff_right hblob

/-- An empty shim removes the first page of a kernel that is not empty. -/
theorem kernel_eq_nil_of_hobPlaced (hmemory : config.totalLength < 2 ^ 63)
    (hplaced : HobPlaced config area builder
      ((allWrites config area).foldl Builder.write builder))
    (hshim : config.shim = some []) {kernel : Bytes}
    (hkernel : config.kernel = some kernel) : kernel = [] := by
  obtain ⟨before, shim, entry, hsplit, hmem, -, hempty, hblob, haddr⟩ :=
    placedEntries_emptyShim hshim hkernel
  by_contra hne
  have hentry : entry ∈ config.hobList.data := by
    rw [BuildConfig.hobList_data hmemory]
    exact hmem
  have hpages := (placed_blob_iff hmem _ _).mp (hplaced.blobs entry hentry)
  obtain ⟨d, hd, hin⟩ := exists_first_page (entryWrite_fits hmemory hmem)
    (by rw [entryWrite, hblob]; exact hne) builder.compatibilityMaskAll
  rw [← hpages] at hd
  have hcleared := not_mem_cleared hmemory hsplit hempty
    (fun _ hlater => nomatch hlater) (List.mem_filter.mp hd).1
  rw [haddr] at hcleared
  rw [entryWrite, hcleared] at hin
  cases hin

/-- What is left at the end of the blobs when the last one is empty. -/
theorem not_mem_blobsEnd (hmemory : config.totalLength < 2 ^ 63)
    (hlast : config.LastEmpty) {d : IgvmDirectiveHeader}
    (hd : d ∈ ((allWrites config area).foldl Builder.write
      builder).directives) :
    pageIn config.blobsEnd (config.blobsEnd + pageSize) d = false := by
  obtain ⟨entry, hentry, hempty, haddr⟩ := entry_of_lastEmpty hlast
  obtain ⟨before, after, hsplit⟩ := List.append_of_mem
    ((placedEntries_perm config.entries).mem_iff.mpr
      (List.mem_of_getLast? hentry))
  rw [← haddr]
  refine not_mem_cleared hmemory hsplit hempty ?_ hd
  intro later hlater
  have hmem : later ∈ config.entries := by
    apply mem_entries_of_placed
    rw [hsplit]
    exact List.mem_append_right _ (List.mem_cons_of_mem _ hlater)
  obtain ⟨-, hhigh, -⟩ := mem_entries hmem
  have hround := length_le_roundUp later.blob.length
  omega

theorem hobWrite_image_ne (config : BuildConfig) (area : OvmfRegion) :
    (hobWrite area config.hobList).image ≠ [] := by
  intro hnil
  have hlength := BuildConfig.length_hobs config.hobList
  simp only [hobWrite] at hnil
  simp [hnil] at hlength

/-- The writes do what HOB data must be like for exactly the configurations
whose empty blobs are harmless. -/
theorem hobPlaced_writes_iff (hmemory : config.totalLength < 2 ^ 63)
    (harea : HobAreaOutside config area) :
    HobPlaced config area builder
        ((allWrites config area).foldl Builder.write builder) ↔
      EmptyBlobsHarmless config area builder := by
  constructor
  · intro hplaced
    refine ⟨fun hshim kernel hkernel =>
      kernel_eq_nil_of_hobPlaced hmemory hplaced hshim hkernel, ?_⟩
    intro hlast
    refine ⟨?_, ?_⟩
    · intro hbase
      obtain ⟨d, hd, hin⟩ := exists_first_page (hobWrite_fits harea)
        (hobWrite_image_ne config area) builder.compatibilityMaskAll
      have hpages : (hobWrite area config.hobList).pages
          builder.compatibilityMaskAll = _ := hplaced.hobs.symm
      rw [hpages] at hd
      have hcleared := not_mem_blobsEnd hmemory hlast (List.mem_filter.mp hd).1
      rw [← hbase] at hcleared
      rw [hobWrite, hcleared] at hin
      cases hin
    · intro d hd hin
      by_contra hout
      have hbelow : pageIn 0x20000000 config.blobsEnd d = false :=
        pageIn_apart (.inr (Nat.le_refl _)) hin
      have hkept : d ∈ builder.directives.filter (elsewhere config area) := by
        refine List.mem_filter.mpr ⟨hd, ?_⟩
        simp [elsewhere, hbelow, eq_false_of_ne_true hout]
      rw [← hplaced.elsewhere] at hkept
      rw [not_mem_blobsEnd hmemory hlast (List.mem_filter.mp hkept).1] at hin
      cases hin
  · intro hharmless
    refine ⟨?_, filter_hobs hmemory harea fun hlast =>
      (hharmless.last hlast).1, filter_elsewhere hmemory harea fun hlast =>
      (hharmless.last hlast).2⟩
    intro entry hentry
    rw [BuildConfig.hobList_data hmemory] at hentry
    exact (placed_blob_iff hentry _ _).mpr
      (filter_blob hmemory hharmless.shim hentry)

/-- Without blobs there is nothing that an empty blob could clear. -/
theorem harmless_of_no_data (hdata : config.hasData = false)
    (area : OvmfRegion) (builder : Builder) :
    EmptyBlobsHarmless config area builder := by
  simp only [BuildConfig.hasData, Bool.or_eq_false_iff,
    Option.isSome_eq_false_iff, Option.isNone_iff_eq_none] at hdata
  obtain ⟨⟨⟨⟨⟨hkernel, hshim⟩, hpk⟩, hkek⟩, hdb⟩, hdbx⟩ := hdata
  refine ⟨fun hempty => ?_, fun ⟨call, hlast, _⟩ => ?_⟩
  · rw [hshim] at hempty
    cases hempty
  · simp [BuildConfig.addCalls, BuildConfig.certCalls, BuildConfig.bootCalls,
      optionalCall, hkernel, hshim, hpk, hkek, hdb, hdbx] at hlast

/-- The HOB data is placed as it must be, and nothing is placed when there is
none, for exactly the configurations whose empty blobs are harmless. -/
theorem addHobData_places_iff {ovmfmeta : OvmfMeta}
    (hmemory : config.totalLength < 2 ^ 63)
    (hfind : ovmfmeta.regions.find? (fun r => r.etype = .igvmHobArea) =
      some area)
    (harea : HobAreaOutside config area) (builder : Builder) :
    ∃ result, addHobData builder (some ovmfmeta) config = .ok result ∧
      (((config.hasData = true → HobPlaced config area builder result) ∧
          (config.hasData = false → result = builder)) ↔
        EmptyBlobsHarmless config area builder) := by
  cases hdata : config.hasData with
  | false =>
      refine ⟨builder, by simp [addHobData, hdata], ?_⟩
      simp [harmless_of_no_data hdata]
  | true =>
      have hok : ∃ result,
          addHobData builder (some ovmfmeta) config = .ok result := by
        simp only [addHobData, hdata, Bool.not_true, Bool.false_eq_true,
          if_false, Option.bind_some, hfind, okOr_some, ok_bind]
        exact ⟨_, rfl⟩
      obtain ⟨result, hok⟩ := hok
      have hresult := @addHobData_eq builder result (some ovmfmeta) config
        area hfind hdata hok
      rw [BuildConfig.hobList_data hmemory] at hresult
      refine ⟨result, hok, ?_⟩
      rw [hresult, ← hobPlaced_writes_iff hmemory harea]
      simp [allWrites]

/-- A kernel of three bytes behind the given shim. -/
def shimAndKernelConfig (shim : Bytes) : BuildConfig where
  firmware := []
  vars := none
  kernel := some [1, 2, 3]
  shim := some shim
  pk := none
  kek := none
  db := none
  dbx := none
  platform := .snp
  bootMode := .flat32
  smp := 1

def lowHobArea : OvmfRegion := ⟨0x10000, 0x1000, .igvmHobArea⟩

theorem lowHobArea_outside (config : BuildConfig) :
    HobAreaOutside config lowHobArea where
  aligned := by decide
  bound := by decide
  outside := by
    intro addr _ hhigh
    simp only [lowHobArea, pageSize] at hhigh
    omega

theorem addHobData_places_oneByteShim :
    ∃ result, addHobData .new (some ⟨[], [lowHobArea], none⟩)
        (shimAndKernelConfig [7]) = .ok result ∧
      HobPlaced (shimAndKernelConfig [7]) lowHobArea .new result := by
  obtain ⟨result, hok, hiff⟩ := @addHobData_places_iff
    (shimAndKernelConfig [7]) lowHobArea ⟨[], [lowHobArea], none⟩ (by decide)
    rfl (lowHobArea_outside (shimAndKernelConfig [7])) .new
  refine ⟨result, hok, (hiff.mpr ⟨?_, ?_⟩).1 rfl⟩
  · intro hshim
    cases hshim
  · rintro ⟨call, hlast, hempty⟩
    cases hlast
    cases hempty

/-- With an empty shim the kernel's only page is gone. -/
theorem addHobData_drops_kernel :
    HobAreaOutside (shimAndKernelConfig []) lowHobArea ∧
      ∃ result, addHobData .new (some ⟨[], [lowHobArea], none⟩)
          (shimAndKernelConfig []) = .ok result ∧
        ¬ HobPlaced (shimAndKernelConfig []) lowHobArea .new result := by
  have harea := lowHobArea_outside (shimAndKernelConfig [])
  have hmemory : (shimAndKernelConfig []).totalLength < 2 ^ 63 := by decide
  refine ⟨harea, _, rfl, ?_⟩
  intro hplaced
  have hresult := @addHobData_eq .new _ (some ⟨[], [lowHobArea], none⟩)
    (shimAndKernelConfig []) lowHobArea rfl rfl rfl
  rw [BuildConfig.hobList_data hmemory] at hresult
  rw [hresult] at hplaced
  have hkernel := ((hobPlaced_writes_iff hmemory harea).mp hplaced).shim rfl
    [1, 2, 3] rfl
  cases hkernel

end Placement

end Igvm

end Kettle
