/-
The page of the HOB list: no kernel HOB is seen before the kernel's own entry.
A GUID that is not at its place in an entry would cover one of the bytes at
7, 24, 40 or 47 of some entry, and these are smaller than every GUID byte.
-/
import Kettle.Igvm.BuildLayout
import Kettle.Igvm.MemoryScan

namespace Kettle

namespace Igvm

theorem slice_ne_guid {bytes : Bytes} {i p : Nat} {b : UInt8}
    (hp : bytes[p]? = some b) (hb : b ≤ 4) (hi : i ≤ p) (hlt : p < i + 16) :
    bytes.slice i 16 ≠ efiIgvmDataHobGuid := by
  intro hguid
  have hlarge : efiIgvmDataHobGuid.all (fun b => decide (4 < b)) = true := by
    decide
  have hslice := @Bytes.getElem?_slice bytes i 16 (p - i) (by omega)
  rw [hguid, Nat.add_sub_cancel' hi, hp] at hslice
  have hgt := List.all_eq_true.mp hlarge b (List.mem_of_getElem? hslice)
  exact absurd hb (UInt8.not_le.mpr (of_decide_eq_true hgt))

theorem kernelHobAt_eq_none_of_small {bytes : Bytes} {i p : Nat} {b : UInt8}
    (hp : bytes[p]? = some b) (hb : b ≤ 4) (hi : i ≤ p) (hlt : p < i + 16) :
    kernelHobAt bytes i = none := by
  have hguid := slice_ne_guid hp hb hi hlt
  simp [kernelHobAt, hguid]

/-- An entry with the fixed header, for a blob at a page address. -/
def EfiIgvmDataHob.Placed (hob : EfiIgvmDataHob) : Prop :=
  hob.hdr = ⟨0x0004, 0x30⟩ ∧ hob.address % pageSize = 0

/-- The small bytes: the end of the header, the start of the address, the
start of the type and the end of the flags. -/
theorem EfiIgvmDataHob.Placed.getElem?_small {hob : EfiIgvmDataHob}
    (hplaced : hob.Placed) {q : Nat} (hq : q ∈ [7, 24, 40, 47]) :
    ∃ b : UInt8, hob.asBytes[q]? = some b ∧ b ≤ 4 := by
  obtain ⟨hdr, address, length, dataType⟩ := hob
  obtain ⟨hhdr, haligned⟩ := hplaced
  have hzero : address % 256 = 0 := by
    simp only [pageSize] at haligned
    omega
  simp only [List.mem_cons, List.not_mem_nil, or_false] at hq
  rcases hq with rfl | rfl | rfl | rfl
  · exact ⟨0, rfl, by decide⟩
  · refine ⟨UInt8.ofNat (address % 256), rfl, ?_⟩
    rw [hzero]
    decide
  · refine ⟨UInt8.ofNat (dataType.code % 256), rfl, ?_⟩
    cases dataType <;> decide
  · exact ⟨0, rfl, by decide⟩

theorem length_flatMap_asBytes (hobs : List EfiIgvmDataHob) :
    (hobs.flatMap EfiIgvmDataHob.asBytes).length = 0x30 * hobs.length := by
  induction hobs with
  | nil => rfl
  | cons hob rest ih =>
      rw [List.flatMap_cons, List.length_append, ih,
        EfiIgvmDataHob.length_asBytes, List.length_cons]
      omega

/-- Entry number `j` is at its place. -/
theorem flatMap_asBytes_split {hobs : List EfiIgvmDataHob} {j : Nat}
    {hob : EfiIgvmDataHob} (hj : hobs[j]? = some hob) (tail : Bytes) :
    ∃ front back : Bytes, front.length = 0x30 * j ∧
      hobs.flatMap EfiIgvmDataHob.asBytes ++ tail =
        front ++ (hob.asBytes ++ back) := by
  obtain ⟨hlt, rfl⟩ := List.getElem?_eq_some_iff.mp hj
  refine ⟨(hobs.take j).flatMap EfiIgvmDataHob.asBytes,
    (hobs.drop (j + 1)).flatMap EfiIgvmDataHob.asBytes ++ tail, ?_, ?_⟩
  · rw [length_flatMap_asBytes, List.length_take,
      Nat.min_eq_left (Nat.le_of_lt hlt)]
  · conv_lhs =>
      rw [← List.take_append_drop j hobs, List.drop_eq_getElem_cons hlt]
    simp only [List.flatMap_append, List.flatMap_cons, List.append_assoc]

theorem kernelHobAt_flatMap_asBytes {hobs : List EfiIgvmDataHob} {j : Nat}
    {hob : EfiIgvmDataHob} (hj : hobs[j]? = some hob) (tail : Bytes) :
    kernelHobAt (hobs.flatMap EfiIgvmDataHob.asBytes ++ tail)
        (0x30 * j + 8) =
      if hob.dataType = .kernel then
        some (hob.address % 2 ^ 64, hob.length % 2 ^ 64)
      else none := by
  obtain ⟨front, back, hfront, hsplit⟩ := flatMap_asBytes_split hj tail
  rw [hsplit, ← hfront, kernelHobAt_append_right _ _ (Nat.le_refl 8),
    kernelHobAt_append_left _ _ (by simp), hob.kernelHobAt_asBytes]

theorem getElem?_hobs_small {hobs : List EfiIgvmDataHob}
    (hplaced : ∀ hob ∈ hobs, hob.Placed) (tail : Bytes) {j q : Nat}
    (hj : j < hobs.length) (hq : q ∈ [7, 24, 40, 47]) :
    ∃ b : UInt8, (hobs.flatMap EfiIgvmDataHob.asBytes ++ tail)[
      0x30 * j + q]? = some b ∧ b ≤ 4 := by
  have hget : hobs[j]? = some hobs[j] := List.getElem?_eq_getElem hj
  obtain ⟨front, back, hfront, hsplit⟩ := flatMap_asBytes_split hget tail
  obtain ⟨b, hb, hle⟩ := (hplaced _ (List.getElem_mem hj)).getElem?_small hq
  have hq30 : q < 0x30 := by
    simp only [List.mem_cons, List.not_mem_nil, or_false] at hq
    omega
  refine ⟨b, ?_, hle⟩
  rw [hsplit, ← hfront, List.getElem?_append_right (by omega),
    Nat.add_sub_cancel_left, List.getElem?_append_left (by simpa), hb]

/-- Between the places of the entries nothing looks like a GUID, and neither
behind the last one when a small byte follows where a header would end. -/
theorem kernelHobAt_hobs_between {hobs : List EfiIgvmDataHob}
    (hplaced : ∀ hob ∈ hobs, hob.Placed) (tail : Bytes) {j r : Nat}
    (hj : j < hobs.length)
    (hnext : ∃ b : UInt8, (hobs.flatMap EfiIgvmDataHob.asBytes ++ tail)[
      0x30 * (j + 1) + 7]? = some b ∧ b ≤ 4)
    (hpos : 0 < r) (hr : r < 0x30) :
    kernelHobAt (hobs.flatMap EfiIgvmDataHob.asBytes ++ tail)
      (0x30 * j + 8 + r) = none := by
  have hsmall : ∀ q ∈ [7, 24, 40, 47], 8 + r ≤ q → q < 8 + r + 16 →
      kernelHobAt (hobs.flatMap EfiIgvmDataHob.asBytes ++ tail)
        (0x30 * j + 8 + r) = none := by
    intro q hq hlow hhigh
    obtain ⟨b, hb, hle⟩ := getElem?_hobs_small hplaced tail hj hq
    exact kernelHobAt_eq_none_of_small hb hle (by omega) (by omega)
  by_cases h16 : r ≤ 16
  · exact hsmall 24 (by simp) (by omega) (by omega)
  · by_cases h32 : r ≤ 32
    · exact hsmall 40 (by simp) (by omega) (by omega)
    · by_cases h39 : r ≤ 39
      · exact hsmall 47 (by simp) (by omega) (by omega)
      · obtain ⟨b, hb, hle⟩ := hnext
        exact kernelHobAt_eq_none_of_small hb hle (by omega) (by omega)

/-- No kernel HOB before the first kernel entry. -/
theorem kernelHobAt_hobs_eq_none {hobs : List EfiIgvmDataHob} {count : Nat}
    (hplaced : ∀ hob ∈ hobs, hob.Placed) (hcount : count < hobs.length)
    (hearlier : ∀ j < count, ∀ hob, hobs[j]? = some hob →
      hob.dataType ≠ .kernel) (tail : Bytes) {i : Nat} (hi : 8 ≤ i)
    (hlt : i < 0x30 * count + 8) :
    kernelHobAt (hobs.flatMap EfiIgvmDataHob.asBytes ++ tail) i = none := by
  obtain ⟨offset, rfl⟩ := Nat.exists_eq_add_of_le hi
  have hdiv := Nat.div_add_mod offset 0x30
  have hmod := Nat.mod_lt offset (by decide : 0x30 > 0)
  have hj : offset / 0x30 < count := by omega
  have hindex : 8 + offset = 0x30 * (offset / 0x30) + 8 + offset % 0x30 := by
    omega
  rw [hindex]
  rcases Nat.eq_zero_or_pos (offset % 0x30) with hzero | hpos
  · have hget : hobs[offset / 0x30]? = some hobs[offset / 0x30] :=
      List.getElem?_eq_getElem (by omega)
    rw [hzero, Nat.add_zero, kernelHobAt_flatMap_asBytes hget,
      if_neg (hearlier _ hj _ hget)]
  · have hnext := getElem?_hobs_small hplaced tail
      (show offset / 0x30 + 1 < hobs.length by omega)
      (show 7 ∈ [7, 24, 40, 47] by simp)
    exact kernelHobAt_hobs_between hplaced tail (by omega) hnext hpos hmod

/-- The blob list with all blobs in `total` pages from 512 MiB on. -/
structure IgvmDataList.Laid (list : IgvmDataList) (total : Nat) : Prop where
  aligned : list.base % pageSize = 0
  base_le : list.base ≤ 0x20000000 + total * pageSize
  placed : ∀ entry ∈ list.data, entry.hob.Placed
  within : ∀ entry ∈ list.data,
    entry.addr + entry.blob.length ≤ 0x20000000 + total * pageSize
  pages : Builder.blobPages (list.blobs true) +
    Builder.blobPages (list.blobs false) ≤ total

theorem IgvmDataList.laid_new : (IgvmDataList.new 0x20000000).Laid 0 where
  aligned := rfl
  base_le := Nat.le_refl _
  placed := by
    intro entry hentry
    cases hentry
  within := by
    intro entry hentry
    cases hentry
  pages := Nat.le_refl _

theorem IgvmDataList.blobs_add (list : IgvmDataList) (blob : Bytes)
    (dataType : IgvmDataType) (measured which : Bool) :
    (list.add blob dataType measured).blobs which =
      list.blobs which ++
        if measured = which then [(list.base, blob)] else [] := by
  by_cases hwhich : measured = which <;>
    simp [IgvmDataList.blobs, IgvmDataList.add, hwhich]

theorem length_le_roundUp (size : Nat) : size ≤ roundUp size := by
  simp only [roundUp, pageSize]
  omega

theorem IgvmDataList.Laid.add {list : IgvmDataList} {total : Nat}
    (hlaid : list.Laid total) (blob : Bytes) (dataType : IgvmDataType)
    (measured : Bool) :
    (list.add blob dataType measured).Laid
      (total + Builder.pagesOf blob.length) := by
  have haligned := hlaid.aligned
  have hbase := hlaid.base_le
  have hround := length_le_roundUp blob.length
  have htotal : 0x20000000 + (total + Builder.pagesOf blob.length) *
      pageSize = 0x20000000 + total * pageSize + roundUp blob.length := by
    rw [Nat.add_mul, ← Nat.add_assoc]
    rfl
  constructor
  · simp only [IgvmDataList.add, roundUp, pageSize] at haligned ⊢
    omega
  · rw [htotal]
    exact Nat.le_trans (Nat.mod_le _ _) (Nat.add_le_add_right hbase _)
  · intro entry hentry
    rcases List.mem_append.mp hentry with hold | hnew
    · exact hlaid.placed entry hold
    · rw [List.mem_singleton.mp hnew]
      exact ⟨rfl, haligned⟩
  · intro entry hentry
    rw [htotal]
    rcases List.mem_append.mp hentry with hold | hnew
    · exact Nat.le_trans (hlaid.within entry hold) (Nat.le_add_right _ _)
    · rw [List.mem_singleton.mp hnew]
      exact Nat.add_le_add hbase hround
  · have hpages := hlaid.pages
    cases measured <;>
      simp [blobs_add, Builder.blobPages] at hpages ⊢ <;> omega

theorem IgvmDataList.Laid.addOptional {list : IgvmDataList} {total : Nat}
    (hlaid : list.Laid total) (blob : Option Bytes)
    (dataType : IgvmDataType) (measured : Bool) :
    (list.addOptional blob dataType measured).Laid
      (total + optionalPages blob) := by
  cases blob with
  | none => exact hlaid
  | some blob => exact hlaid.add blob dataType measured

/-- Adding a blob that is no kernel leaves the list without one. -/
theorem IgvmDataList.addOptional_dataType_ne {list : IgvmDataList}
    {dataType : IgvmDataType}
    (hlist : ∀ entry ∈ list.data, entry.hob.dataType ≠ .kernel)
    (hne : dataType ≠ .kernel) (blob : Option Bytes) (measured : Bool) :
    ∀ entry ∈ (list.addOptional blob dataType measured).data,
      entry.hob.dataType ≠ .kernel := by
  cases blob with
  | none => exact hlist
  | some blob =>
      intro entry hentry
      rcases List.mem_append.mp hentry with hold | hnew
      · exact hlist entry hold
      · rw [List.mem_singleton.mp hnew]
        exact hne

theorem IgvmDataList.length_addOptional_le {list : IgvmDataList}
    {count : Nat} (hcount : list.data.length ≤ count) (blob : Option Bytes)
    (dataType : IgvmDataType) (measured : Bool) :
    (list.addOptional blob dataType measured).data.length ≤ count + 1 := by
  cases blob with
  | none => exact Nat.le_succ_of_le hcount
  | some blob =>
      simpa [IgvmDataList.addOptional, IgvmDataList.add] using hcount

/-- The certificate blobs come first. -/
def BuildConfig.certList (config : BuildConfig) : IgvmDataList :=
  ((((IgvmDataList.new 0x20000000
    |>.addOptional config.pk .pk true)
    |>.addOptional config.kek .kek true)
    |>.addOptional config.db .db true)
    |>.addOptional config.dbx .dbx true)

def BuildConfig.certPages (config : BuildConfig) : Nat :=
  0 + optionalPages config.pk + optionalPages config.kek +
    optionalPages config.db + optionalPages config.dbx

theorem BuildConfig.certList_laid (config : BuildConfig) :
    config.certList.Laid config.certPages :=
  (((IgvmDataList.laid_new.addOptional config.pk .pk true).addOptional
    config.kek .kek true).addOptional config.db .db true).addOptional
      config.dbx .dbx true

end Igvm

end Kettle
