/-
The guest memory that a configuration lays out, as the page at each address,
and the directives of the builder as one way to write it down.
-/
import Kettle.Igvm.Build
import Kettle.Igvm.PageMap
import Kettle.Lib.PagedMemory

namespace Kettle

namespace Igvm

abbrev GuestMemory := PagedMemory Page

namespace GuestMemory

/-- Where page number `k` of an image at `base` goes. -/
def pageAddr (base k : Nat) : Nat := (base + k * pageSize) % 2 ^ 64

/-- Page number `k` of an image; the last one is filled up with zeros. -/
def imagePage (image : Bytes) (k : Nat) : Page :=
  (image.slice (k * pageSize) pageSize).zeroPadVec pageSize

def store (mem : GuestMemory) (base : Nat) (image : Bytes) : GuestMemory :=
  mem.write (pageAddr base) (imagePage image) (Builder.pagesOf image.length)

/-- The addresses of a region, at least one page of them. -/
def InRegion (base size addr : Nat) : Prop :=
  base ≤ addr ∧ addr < (base + max size pageSize) % 2 ^ 64

instance (base size : Nat) : DecidablePred (InRegion base size) :=
  fun addr => inferInstanceAs
    (Decidable (base ≤ addr ∧ addr < (base + max size pageSize) % 2 ^ 64))

def clearRegion (mem : GuestMemory) (base size : Nat) : GuestMemory :=
  mem.clear (InRegion base size)

/-- A blob takes the place of what was there. -/
def place (mem : GuestMemory) (blob : Nat × Bytes) : GuestMemory :=
  (mem.clearRegion blob.1 blob.2.length).store blob.1 blob.2

end GuestMemory

namespace GuestMemory

variable {mem : GuestMemory} {base : Nat} {image : Bytes} {k addr : Nat}

theorem lt_of_lt_pagesOf (hk : k < Builder.pagesOf image.length) :
    k * pageSize < image.length := by
  simp only [Builder.pagesOf, pageSize] at hk ⊢
  omega

theorem pageAddr_eq (hbound : base + image.length < 2 ^ 64)
    (hk : k < Builder.pagesOf image.length) :
    pageAddr base k = base + k * pageSize := by
  have hlt := lt_of_lt_pagesOf hk
  exact Nat.mod_eq_of_lt (by omega)

theorem store_apply (mem : GuestMemory)
    (hbound : base + image.length < 2 ^ 64)
    (hk : k < Builder.pagesOf image.length) :
    mem.store base image (base + k * pageSize) =
      some (imagePage image k) := by
  rw [← pageAddr_eq hbound hk]
  apply PagedMemory.write_apply _ _ hk
  intro i hi j hj heq
  rw [pageAddr_eq hbound hi, pageAddr_eq hbound hj] at heq
  simp only [pageSize] at heq
  omega

theorem store_of_disjoint (hbound : base + image.length < 2 ^ 64)
    (hout : addr < base ∨ base + image.length ≤ addr) :
    mem.store base image addr = mem addr := by
  apply PagedMemory.write_of_ne
  intro k hk
  have hlt := lt_of_lt_pagesOf hk
  rw [pageAddr_eq hbound hk]
  omega

/-- A blob leaves what is outside of its region as it is. -/
theorem place_of_disjoint (hbound : base + image.length < 2 ^ 64)
    (hout : addr < base ∨ base + max image.length pageSize ≤ addr) :
    mem.place (base, image) addr = mem addr := by
  have hregion : ¬ InRegion base image.length addr := by
    intro hin
    have hlow := hin.1
    have hhigh := Nat.lt_of_lt_of_le hin.2 (Nat.mod_le _ _)
    omega
  rw [place, store_of_disjoint hbound (by omega), clearRegion,
    PagedMemory.clear_of_not hregion]

theorem foldl_place_of_disjoint {blobs : List (Nat × Bytes)}
    (hblobs : ∀ blob ∈ blobs, blob.1 + blob.2.length < 2 ^ 64 ∧
      (addr < blob.1 ∨ blob.1 + max blob.2.length pageSize ≤ addr)) :
    blobs.foldl place mem addr = mem addr := by
  induction blobs generalizing mem with
  | nil => rfl
  | cons blob rest ih =>
      obtain ⟨hbound, hout⟩ := hblobs blob List.mem_cons_self
      rw [List.foldl_cons,
        ih fun other hmem => hblobs other (List.mem_cons_of_mem _ hmem)]
      exact place_of_disjoint hbound hout

theorem place_apply (mem : GuestMemory)
    (hbound : base + image.length < 2 ^ 64)
    (hk : k < Builder.pagesOf image.length) :
    mem.place (base, image) (base + k * pageSize) =
      some (imagePage image k) :=
  store_apply _ hbound hk

/-- An empty blob clears a page all the same. -/
theorem place_nil (mem : GuestMemory) (hbound : base + pageSize < 2 ^ 64) :
    mem.place (base, []) base = none := by
  have hregion : InRegion base ([] : Bytes).length base := by
    refine ⟨Nat.le_refl base, ?_⟩
    rw [List.length_nil, Nat.zero_max, Nat.mod_eq_of_lt hbound]
    simp [pageSize]
  have hend : base + ([] : Bytes).length ≤ base := Nat.le_refl base
  rw [place, store_of_disjoint (by simp; omega) (Or.inr hend), clearRegion,
    PagedMemory.clear_of_mem hregion]

/-- The pages of an image are its bytes, filled up with zeros. -/
theorem flatMap_imagePage (image : Bytes) (count : Nat) :
    ((List.range count).flatMap fun k => (imagePage image k).toList) =
      image.zeroPad (count * pageSize) := by
  induction count with
  | zero => simp [Bytes.zeroPad]
  | succ count ih =>
      have hlast : (imagePage image count).toList =
          Bytes.zeroPad pageSize (image.drop (count * pageSize)) := by
        rw [imagePage, Bytes.zeroPadVec_toList, Bytes.slice,
          Bytes.zeroPad_take]
      rw [List.range_succ, List.flatMap_append, ih, List.flatMap_singleton,
        hlast, Nat.add_mul, Nat.one_mul, Bytes.zeroPad_add]

end GuestMemory

namespace BuildConfig

/-- The firmware copies and the variable store. -/
def images (config : BuildConfig) : GuestMemory :=
  let mem : GuestMemory := match config.bootMode with
    | .real16 => GuestMemory.store .empty
        (Builder.lowFirmwareBase config.firmware)
        (Builder.lowFirmware config.firmware)
    | .flat32 => .empty
  let mem := mem.store (Builder.firmwareBase config.firmware) config.firmware
  match config.vars with
  | some vars =>
      mem.store (Builder.uefivarsBase vars config.firmware.length) vars
  | none => mem

/-- The region that the firmware reserves for the HOB list. -/
def hobArea (config : BuildConfig) : Option OvmfRegion :=
  (OvmfMeta.new config.firmware).bind fun m =>
    m.regions.find? (fun r => r.etype = .igvmHobArea)

/-- The images, the HOB list over them, and the blobs over both: the shim, as
the only unmeasured one, comes last. -/
def layout (config : BuildConfig) (hobarea : OvmfRegion) : GuestMemory :=
  let mem := (config.images.clearRegion hobarea.base hobarea.size).store
    hobarea.base config.hobList.hobs
  let mem := (config.hobList.blobs true).foldl GuestMemory.place mem
  (config.hobList.blobs false).foldl GuestMemory.place mem

end BuildConfig

/-- What a directive list leaves in memory. -/
def guestMemory (directives : List IgvmDirectiveHeader) : GuestMemory :=
  fun gpa => lookupPage gpa directives

theorem guestMemory_append_singleton (directives : List IgvmDirectiveHeader)
    (directive : IgvmDirectiveHeader) (gpa : Nat) :
    guestMemory (directives ++ [directive]) gpa =
      (pageAt directive gpa).or (guestMemory directives gpa) := by
  rw [guestMemory, lookupPage_append, lookupPage, lookupPage, Option.none_or]
  rfl

/-- The page directives of an image write its pages. -/
theorem guestMemory_append_dataPages (directives : List IgvmDirectiveHeader)
    (base : Nat) (image : Bytes) (mask : UInt32) (flags : IgvmPageDataFlags) :
    guestMemory (directives ++
        (Builder.dataPages base image mask flags).map .pageData) =
      (guestMemory directives).store base image := by
  have hdata : ∀ k < Builder.pagesOf image.length,
      (image.slice (k * pageSize) pageSize).isEmpty = false := by
    intro k hk
    have hlt := GuestMemory.lt_of_lt_pagesOf hk
    rw [List.isEmpty_eq_false_iff, ← List.length_pos_iff_ne_nil]
    simp only [Bytes.slice, List.length_take, List.length_drop, pageSize]
      at hlt ⊢
    omega
  unfold Builder.dataPages GuestMemory.store
  generalize Builder.pagesOf image.length = count at hdata
  induction count with
  | zero => simp [PagedMemory.write]
  | succ count ih =>
      have hlast := hdata count (by omega)
      rw [PagedMemory.write, ← ih fun k hk => hdata k (by omega),
        List.range_succ, List.map_append, List.map_append,
        ← List.append_assoc]
      funext gpa
      have hgpa : (UInt64.ofNat (base + count * pageSize)).toNat =
          GuestMemory.pageAddr base count := UInt64.toNat_ofNat'
      rw [List.map_singleton, List.map_singleton, guestMemory_append_singleton]
      by_cases heq : GuestMemory.pageAddr base count = gpa
      · subst heq
        rw [Function.update_self, ← hgpa, pageAt_of_isEmpty_eq_false hlast,
          Option.some_or]
        rfl
      · rw [Function.update_of_ne (Ne.symm heq),
          pageAt_of_gpa_ne (hgpa ▸ heq), Option.none_or]

theorem Builder.guestMemory_addDataPagesFlags (builder : Builder)
    (base : Nat) (image : Bytes) (flags : IgvmPageDataFlags) :
    guestMemory (builder.addDataPagesFlags base image flags).directives =
      (guestMemory builder.directives).store base image :=
  guestMemory_append_dataPages _ _ _ _ _

/-- The directives that a removal drops. -/
theorem Builder.keepDirective_eq_false_iff {base size : Nat}
    {directive : IgvmDirectiveHeader} :
    keepDirective base size directive = false ↔
      ∃ page, directive = .pageData page ∧
        GuestMemory.InRegion base size page.gpa.toNat := by
  cases directive with
  | pageData page =>
      simp [keepDirective, inRange, GuestMemory.InRegion]
  | _ => simp [keepDirective]

theorem Builder.guestMemory_removePageDataInRange (builder : Builder)
    (base size : Nat) :
    guestMemory (builder.removePageDataInRange base size).directives =
      (guestMemory builder.directives).clearRegion base size := by
  funext gpa
  by_cases hregion : GuestMemory.InRegion base size gpa
  · rw [GuestMemory.clearRegion, PagedMemory.clear_of_mem hregion]
    apply lookupPage_eq_none
    intro data hdata hgpa
    have hdropped : keepDirective base size (.pageData data) = false :=
      keepDirective_eq_false_iff.mpr ⟨data, rfl, hgpa ▸ hregion⟩
    have hkept := (List.mem_filter.mp hdata).2
    rw [hdropped] at hkept
    cases hkept
  · rw [GuestMemory.clearRegion, PagedMemory.clear_of_not hregion]
    apply lookupPage_filter
    intro directive _ hdropped
    obtain ⟨page, rfl, hin⟩ := keepDirective_eq_false_iff.mp hdropped
    exact pageAt_of_gpa_ne fun heq => hregion (heq ▸ hin)

theorem Builder.guestMemory_placeBlob (measured : Bool) (builder : Builder)
    (blob : Nat × Bytes) :
    guestMemory (builder.placeBlob measured blob).directives =
      (guestMemory builder.directives).place blob := by
  rw [Builder.placeBlob, Builder.guestMemory_addDataPagesFlags,
    Builder.guestMemory_removePageDataInRange]
  rfl

theorem Builder.guestMemory_foldl_placeBlob (measured : Bool)
    (builder : Builder) (blobs : List (Nat × Bytes)) :
    guestMemory (blobs.foldl (Builder.placeBlob measured) builder).directives =
      blobs.foldl GuestMemory.place (guestMemory builder.directives) := by
  induction blobs generalizing builder with
  | nil => rfl
  | cons blob rest ih =>
      rw [List.foldl_cons, ih, Builder.guestMemory_placeBlob, List.foldl_cons]

/-- Sorting by address does not change the memory: the sort is stable, and
only the directives at an address decide its page. -/
theorem guestMemory_sortPages (directives : List IgvmDirectiveHeader) :
    guestMemory (Builder.sortPages directives) = guestMemory directives := by
  funext gpa
  have hfilter : ∀ (list : List IgvmDirectiveHeader), lookupPage gpa list =
      lookupPage gpa (list.filter (fun d => Builder.sortGpa d = gpa)) := by
    intro list
    symm
    apply lookupPage_filter
    intro directive _ hother
    have hne : Builder.sortGpa directive ≠ gpa := of_decide_eq_false hother
    cases directive with
    | pageData page => exact pageAt_of_gpa_ne hne
    | _ => rfl
  rw [guestMemory, guestMemory, hfilter, hfilter directives,
    Builder.sortPages, StableSort.filter_sortBy]

end Igvm

end Kettle
