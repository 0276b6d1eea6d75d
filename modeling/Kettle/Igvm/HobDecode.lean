/-
A HOB list is read back as it was made: the addresses that blobs get, the walk
from header to header, and the scan of the list's pages for the kernel.
-/
import Kettle.Igvm.HobList

namespace Kettle

namespace Igvm

/-- The arguments of one call of `add`. -/
structure AddCall where
  blob : Bytes
  dataType : IgvmDataType
  measured : Bool
deriving DecidableEq, Repr

namespace IgvmDataList

section Layout

def addCall (list : IgvmDataList) (call : AddCall) : IgvmDataList :=
  list.add call.blob call.dataType call.measured

/-- A list after a sequence of calls. -/
def ofCalls (base : Nat) (calls : List AddCall) : IgvmDataList :=
  calls.foldl addCall (.new base)

/-- Where a sequence of calls ends, when no address overflows. -/
def endOf (base : Nat) : List AddCall → Nat
  | [] => base
  | call :: rest => endOf (base + roundUp call.blob.length) rest

/-- The entries with the addresses that the calls assign. -/
def entriesFrom (base : Nat) : List AddCall → List IgvmDataEntry
  | [] => []
  | call :: rest =>
      ⟨.new base call.blob.length call.dataType, base, call.blob,
        call.measured⟩ ::
        entriesFrom (base + roundUp call.blob.length) rest

theorem le_endOf (base : Nat) (calls : List AddCall) :
    base ≤ endOf base calls := by
  induction calls generalizing base with
  | nil => exact Nat.le_refl base
  | cons call rest ih => exact Nat.le_trans (Nat.le_add_right _ _) (ih _)

theorem foldl_addCall {base : Nat} {calls : List AddCall}
    (hfits : endOf base calls < 2 ^ 64) (front : List IgvmDataEntry) :
    calls.foldl addCall ⟨base, front⟩ =
      ⟨endOf base calls, front ++ entriesFrom base calls⟩ := by
  induction calls generalizing base front with
  | nil => simp [endOf, entriesFrom]
  | cons call rest ih =>
      have hnext := le_endOf (base + roundUp call.blob.length) rest
      rw [endOf] at hfits
      have hbase : (base + roundUp call.blob.length) % 2 ^ 64 =
          base + roundUp call.blob.length := by
        rw [Nat.mod_eq_of_lt (by omega)]
      rw [List.foldl_cons, addCall, add, hbase, ih hfits, endOf, entriesFrom,
        List.append_assoc, List.singleton_append]

theorem ofCalls_eq {base : Nat} {calls : List AddCall}
    (hfits : endOf base calls < 2 ^ 64) :
    ofCalls base calls = ⟨endOf base calls, entriesFrom base calls⟩ :=
  foldl_addCall hfits []

theorem roundUp_mod (size : Nat) : roundUp size % pageSize = 0 :=
  Nat.mul_mod_left _ _

/-- Where an entry of the list can lie. -/
theorem mem_entriesFrom {base : Nat} {calls : List AddCall}
    {entry : IgvmDataEntry} (hmem : entry ∈ entriesFrom base calls) :
    base ≤ entry.addr ∧
      entry.addr + roundUp entry.blob.length ≤ endOf base calls ∧
      (base % pageSize = 0 → entry.addr % pageSize = 0) ∧
      entry.hob = .new entry.addr entry.blob.length entry.hob.dataType ∧
      (⟨entry.blob, entry.hob.dataType, entry.measured⟩ : AddCall) ∈
        calls := by
  induction calls generalizing base with
  | nil => cases hmem
  | cons call rest ih =>
      rcases List.mem_cons.mp hmem with rfl | hrest
      · exact ⟨Nat.le_refl _, le_endOf _ _, id, rfl, List.mem_cons_self⟩
      · obtain ⟨hlow, hhigh, haligned, hhob, hcall⟩ := ih hrest
        refine ⟨by omega, hhigh, ?_, hhob, List.mem_cons_of_mem _ hcall⟩
        intro hbase
        apply haligned
        rw [Nat.add_mod, hbase, roundUp_mod, Nat.zero_add, Nat.zero_mod]

/-- Each entry ends where the next one starts, at the latest. -/
theorem pairwise_entriesFrom (base : Nat) (calls : List AddCall) :
    (entriesFrom base calls).Pairwise fun earlier later =>
      earlier.addr + roundUp earlier.blob.length ≤ later.addr := by
  induction calls generalizing base with
  | nil => exact List.Pairwise.nil
  | cons call rest ih =>
      apply List.pairwise_cons.mpr
      refine ⟨?_, ih _⟩
      intro later hlater
      exact (mem_entriesFrom hlater).1

theorem map_entriesFrom (base : Nat) (calls : List AddCall) :
    (entriesFrom base calls).map (fun entry =>
      (⟨entry.blob, entry.hob.dataType, entry.measured⟩ : AddCall)) =
        calls := by
  induction calls generalizing base with
  | nil => rfl
  | cons call rest ih =>
      rw [entriesFrom, List.map_cons, ih]
      rfl

end Layout

section Walk

/-- The address, length and type of an entry. -/
structure HobTriple where
  address : Nat
  length : Nat
  dataType : Nat
deriving DecidableEq, Repr

def entryTriple (entry : IgvmDataEntry) : HobTriple :=
  ⟨entry.addr, entry.blob.length, entry.hob.dataType.code⟩

/-- Go from header to header up to the end marker: what the entries say, and
what is left of the buffer. -/
def walkHobs : Nat → Bytes → Option (List HobTriple × Bytes)
  | 0, _ => none
  | fuel + 1, buffer => do
      let hobType ← u16At buffer 0
      let hobLength ← u16At buffer 2
      if hobType = 0xFFFF then some ([], buffer.drop hobLength)
      else
        let (later, rest) ← walkHobs fuel (buffer.drop hobLength)
        some (⟨Bytes.toNatLE (buffer.slice 0x18 8),
          Bytes.toNatLE (buffer.slice 0x20 8),
          Bytes.toNatLE (buffer.slice 0x28 4)⟩ :: later, rest)

theorem u16At_append_left (front back : Bytes) {off : Nat}
    (hoff : off + 2 ≤ front.length) :
    u16At (front ++ back) off = u16At front off := by
  rw [u16At, u16At, Bytes.range?_append_left front back hoff]

/-- The walk reads an entry as it was made and goes on behind it. -/
theorem walkHobs_asBytes_append {address length : Nat}
    (haddress : address < 2 ^ 64) (hlength : length < 2 ^ 64)
    (dataType : IgvmDataType) (fuel : Nat) (back : Bytes) :
    walkHobs (fuel + 1)
        ((EfiIgvmDataHob.new address length dataType).asBytes ++ back) =
      (walkHobs fuel back).map fun found =>
        (⟨address, length, dataType.code⟩ :: found.1, found.2) := by
  have hwidth := (EfiIgvmDataHob.new address length dataType).length_asBytes
  have hheader : ∀ off value, off + 2 ≤ 0x30 → value < 256 ^ 2 →
      (EfiIgvmDataHob.new address length dataType).asBytes.range? off
        (off + 2) = some (Bytes.ofNatLE 2 value) →
      u16At ((EfiIgvmDataHob.new address length dataType).asBytes ++ back)
        off = some value := by
    intro off value hinside hvalue hrange
    rw [u16At_append_left _ _ (by omega), u16At, hrange, Option.map_some,
      Bytes.toNatLE_ofNatLE_of_lt hvalue]
  have htype := hheader 0 4 (by omega) (by omega) rfl
  have hsize := hheader 2 0x30 (by omega) (by omega) rfl
  have hback : ((EfiIgvmDataHob.new address length dataType).asBytes ++
      back).drop 0x30 = back := by
    rw [← hwidth, List.drop_left]
  have hread : ∀ start count value, start + count ≤ 0x30 →
      (EfiIgvmDataHob.new address length dataType).asBytes.slice start
        count = Bytes.ofNatLE count value → value < 256 ^ count →
      Bytes.toNatLE (((EfiIgvmDataHob.new address length dataType).asBytes ++
        back).slice start count) = value := by
    intro start count value hinside hslice hvalue
    rw [Bytes.slice_append_left _ _ (by omega), hslice,
      Bytes.toNatLE_ofNatLE_of_lt hvalue]
  have haddressField := hread 0x18 8 address (by omega) rfl (by omega)
  have hlengthField := hread 0x20 8 length (by omega) rfl (by omega)
  have htypeField := hread 0x28 4 dataType.code (by omega) rfl
    (by cases dataType <;> decide)
  rw [walkHobs, htype, hsize]
  simp only [Option.bind_eq_bind, Option.bind_some, hback, haddressField,
    hlengthField, htypeField]
  rw [if_neg (by decide)]
  cases walkHobs fuel back with
  | none => rfl
  | some found => rfl

theorem walkHobs_endOfList (fuel : Nat) :
    walkHobs (fuel + 1) EfiHobHeader.endOfList.asBytes = some ([], []) := rfl

/-- The walk over the entries of a sequence of calls. -/
theorem walkHobs_entriesFrom {base : Nat} {calls : List AddCall}
    (hfits : endOf base calls < 2 ^ 64) {fuel : Nat}
    (hfuel : calls.length < fuel) :
    walkHobs fuel
        ((entriesFrom base calls).flatMap (·.hob.asBytes) ++
          EfiHobHeader.endOfList.asBytes) =
      some ((entriesFrom base calls).map entryTriple, []) := by
  induction calls generalizing base fuel with
  | nil =>
      obtain ⟨fuel, rfl⟩ := Nat.exists_eq_add_one.mpr hfuel
      exact walkHobs_endOfList fuel
  | cons call rest ih =>
      obtain ⟨fuel, rfl⟩ := Nat.exists_eq_add_one.mpr (Nat.zero_lt_of_lt hfuel)
      rw [endOf] at hfits
      have hnext := le_endOf (base + roundUp call.blob.length) rest
      have hround := length_le_roundUp call.blob.length
      rw [entriesFrom, List.flatMap_cons, List.append_assoc,
        walkHobs_asBytes_append (by omega) (by omega),
        ih hfits (by simpa using hfuel)]
      rfl

end Walk

section Partition

/-- The address and the blob of an entry. -/
def entryBlob (entry : IgvmDataEntry) : Nat × Bytes :=
  (entry.addr, entry.blob)

theorem blobs_sublist (list : IgvmDataList) (measured : Bool) :
    (list.blobs measured).Sublist (list.data.map entryBlob) :=
  List.filter_sublist.map entryBlob

theorem blobs_perm (list : IgvmDataList) :
    (list.blobs true ++ list.blobs false).Perm (list.data.map entryBlob) := by
  have hfilter := List.filter_append_perm (fun entry : IgvmDataEntry =>
    entry.measured == true) list.data
  have hother : (fun entry : IgvmDataEntry => !(entry.measured == true)) =
      fun entry => entry.measured == false := by
    funext entry
    cases entry.measured <;> rfl
  rw [hother] at hfilter
  have hmap := hfilter.map entryBlob
  rw [List.map_append] at hmap
  exact hmap

/-- The blobs of either flag are those that were added with it. -/
theorem map_snd_blobs {list : IgvmDataList} {calls : List AddCall}
    (hadded : list.data.map (fun entry =>
      (⟨entry.blob, entry.hob.dataType, entry.measured⟩ : AddCall)) = calls)
    (measured : Bool) :
    (list.blobs measured).map Prod.snd =
      (calls.filter (·.measured == measured)).map (·.blob) := by
  rw [← hadded, List.filter_map, List.map_map, IgvmDataList.blobs,
    List.map_map]
  rfl

end Partition

end IgvmDataList

section Scan

/-- A HOB list's bytes with zeros behind it. -/
def paddedHobs (hobs : List EfiIgvmDataHob) (zeros : Nat) : Bytes :=
  hobs.flatMap EfiIgvmDataHob.asBytes ++
    (EfiHobHeader.endOfList.asBytes ++ List.replicate zeros 0)

theorem getElem?_paddedHobs_end (hobs : List EfiIgvmDataHob) (zeros k : Nat) :
    (paddedHobs hobs zeros)[0x30 * hobs.length + k]? =
      (EfiHobHeader.endOfList.asBytes ++ List.replicate zeros 0)[k]? := by
  have hlength := length_flatMap_asBytes hobs
  rw [paddedHobs, List.getElem?_append_right (by omega), hlength,
    Nat.add_sub_cancel_left]

theorem length_paddedHobs (hobs : List EfiIgvmDataHob) (zeros : Nat) :
    (paddedHobs hobs zeros).length = 0x30 * hobs.length + 8 + zeros := by
  have hmarker : EfiHobHeader.endOfList.asBytes.length = 8 := rfl
  rw [paddedHobs, List.length_append, List.length_append,
    List.length_replicate, length_flatMap_asBytes, hmarker]
  omega

/-- Behind the entries there is no kernel HOB. -/
theorem kernelHobAt_paddedHobs_end {hobs : List EfiIgvmDataHob}
    {zeros i : Nat} (hi : 0x30 * hobs.length + 8 ≤ i)
    (hinside : i < (paddedHobs hobs zeros).length) :
    kernelHobAt (paddedHobs hobs zeros) i = none := by
  obtain ⟨k, rfl⟩ := Nat.exists_eq_add_of_le hi
  rw [length_paddedHobs] at hinside
  have hzero : (paddedHobs hobs zeros)[0x30 * hobs.length + 8 + k]? =
      some 0 := by
    have hmarker : EfiHobHeader.endOfList.asBytes.length = 8 := rfl
    rw [Nat.add_assoc, getElem?_paddedHobs_end,
      List.getElem?_append_right (by omega), hmarker, Nat.add_sub_cancel_left,
      List.getElem?_replicate, if_pos (by omega)]
  exact kernelHobAt_eq_none_of_small hzero (by decide) (Nat.le_refl _)
    (by omega)

/-- In a list without a kernel nothing passes for one. -/
theorem scanRun_paddedHobs_eq_none {hobs : List EfiIgvmDataHob}
    (hplaced : ∀ hob ∈ hobs, hob.Placed)
    (hnone : ∀ hob ∈ hobs, hob.dataType ≠ .kernel) (zeros : Nat) :
    scanRun (paddedHobs hobs zeros) = none := by
  apply scanRun_eq_none
  intro i hinside
  by_cases hheader : i < 8
  · by_contra hmatch
    have := le_of_kernelHobAt_ne_none hmatch
    omega
  · by_cases hend : 0x30 * hobs.length + 8 ≤ i
    · exact kernelHobAt_paddedHobs_end hend (by omega)
    · obtain ⟨offset, rfl⟩ := Nat.exists_eq_add_of_le
        (show 8 ≤ i by omega)
      have hdiv := Nat.div_add_mod offset 0x30
      have hmod := Nat.mod_lt offset (by decide : 0x30 > 0)
      have hj : offset / 0x30 < hobs.length := by omega
      rw [show 8 + offset =
        0x30 * (offset / 0x30) + 8 + offset % 0x30 by omega]
      rcases Nat.eq_zero_or_pos (offset % 0x30) with hzero | hpos
      · have hget : hobs[offset / 0x30]? = some hobs[offset / 0x30] :=
          List.getElem?_eq_getElem hj
        rw [hzero, Nat.add_zero, paddedHobs,
          kernelHobAt_flatMap_asBytes hget,
          if_neg (hnone _ (List.getElem_mem hj))]
      · apply kernelHobAt_hobs_between hplaced _ hj _ hpos hmod
        by_cases hlast : offset / 0x30 + 1 < hobs.length
        · exact getElem?_hobs_small hplaced _ hlast (by simp)
        · have hcount : offset / 0x30 + 1 = hobs.length := by omega
          rw [hcount]
          exact ⟨0, getElem?_paddedHobs_end hobs zeros 7, by decide⟩

theorem scanRun_paddedHobs_of_kernel {hobs : List EfiIgvmDataHob}
    (hplaced : ∀ hob ∈ hobs, hob.Placed) {j : Nat} {hob : EfiIgvmDataHob}
    (hj : hobs[j]? = some hob) (hkernel : hob.dataType = .kernel)
    (hearlier : ∀ i < j, ∀ other, hobs[i]? = some other →
      other.dataType ≠ .kernel) (zeros : Nat) :
    scanRun (paddedHobs hobs zeros) =
      some (hob.address % 2 ^ 64, hob.length % 2 ^ 64) := by
  have hlt : j < hobs.length := (List.getElem?_eq_some_iff.mp hj).1
  have hlength := length_paddedHobs hobs zeros
  apply scanRun_eq_of_first (i := 0x30 * j + 8) (by omega)
  · intro i hi
    by_cases hheader : i < 8
    · by_contra hmatch
      have := le_of_kernelHobAt_ne_none hmatch
      omega
    · exact kernelHobAt_hobs_eq_none hplaced hlt hearlier _ (by omega)
        (by omega)
  · rw [paddedHobs, kernelHobAt_flatMap_asBytes hj, if_pos hkernel]

/-- The scan of a padded list finds its first kernel entry. -/
theorem scanRun_paddedHobs {hobs : List EfiIgvmDataHob}
    (hplaced : ∀ hob ∈ hobs, hob.Placed) (zeros : Nat) :
    scanRun (paddedHobs hobs zeros) =
      (hobs.find? fun hob => hob.dataType = .kernel).map fun hob =>
        (hob.address % 2 ^ 64, hob.length % 2 ^ 64) := by
  cases hfind : hobs.find? fun hob => hob.dataType = .kernel with
  | none =>
      apply scanRun_paddedHobs_eq_none hplaced
      intro hob hmem
      simpa using List.find?_eq_none.mp hfind hob hmem
  | some hob =>
      obtain ⟨hkernel, j, hlt, hget, hearlier⟩ :=
        List.find?_eq_some_iff_getElem.mp hfind
      apply scanRun_paddedHobs_of_kernel hplaced
        (List.getElem?_eq_some_iff.mpr ⟨hlt, hget⟩) (by simpa using hkernel)
      intro i hi other hother
      obtain ⟨hbound, rfl⟩ := List.getElem?_eq_some_iff.mp hother
      simpa using hearlier i hi

end Scan

section Pages

theorem pairwise_pageAddresses {α : Type} (gpa count : Nat)
    (page : Nat → α) :
    ((List.range count).map fun k => (gpa + k * pageSize, page k)).Pairwise
      (fun left right => left.1 < right.1) := by
  refine List.pairwise_map.mpr (List.pairwise_lt_range.imp ?_)
  intro a b hlt
  simp only [pageSize]
  omega

/-- An image cut into pages, the last one filled up with zeros. -/
def cutPages (gpa : Nat) (image : Bytes) : PageMap where
  entries := (List.range (Builder.pagesOf image.length)).map fun k =>
    (gpa + k * pageSize, GuestMemory.imagePage image k)
  sorted := pairwise_pageAddresses gpa _ _

/-- Adjacent pages carry a run on. -/
theorem runsFrom_adjacent (start first : Nat) (cur : Bytes)
    (page : Nat → Page) {count : Nat}
    (hend : first + count * pageSize ≤ 2 ^ 64) :
    runsFrom start cur (first % 2 ^ 64)
        ((List.range count).map fun k => (first + k * pageSize, page k)) =
      [(start, cur ++ (List.range count).flatMap fun k =>
        (page k).toList)] := by
  induction count generalizing first cur page with
  | zero => simp [runsFrom]
  | succ count ih =>
      have hfirst : first < 2 ^ 64 := by
        simp only [pageSize] at hend
        omega
      have hrest : ((List.range count).map fun k =>
          (first + (k + 1) * pageSize, page (k + 1))) =
            (List.range count).map fun k =>
              (first + pageSize + k * pageSize, page (k + 1)) := by
        apply List.map_congr_left
        intro k _
        congr 1
        ring
      rw [List.range_succ_eq_map, List.map_cons, List.map_map,
        List.flatMap_cons, List.flatMap_map, Nat.zero_mul, Nat.add_zero,
        runsFrom, if_pos (Nat.mod_eq_of_lt hfirst).symm]
      change runsFrom start _ _ ((List.range count).map fun k =>
        (first + (k + 1) * pageSize, page (k + 1))) = _
      rw [hrest, ih (first + pageSize) _ (fun k => page (k + 1))
        (by rw [Nat.add_mul] at hend; omega), List.append_assoc]

theorem contiguousRuns_cutPages {gpa : Nat} {image : Bytes}
    (hnonempty : 0 < image.length)
    (hend : gpa + Builder.pagesOf image.length * pageSize ≤ 2 ^ 64) :
    contiguousRuns (cutPages gpa image) =
      [(gpa, image.zeroPad (Builder.pagesOf image.length * pageSize))] := by
  obtain ⟨count, hcount⟩ : ∃ count,
      Builder.pagesOf image.length = count + 1 := by
    apply Nat.exists_eq_add_one.mpr
    simp only [Builder.pagesOf, pageSize]
    omega
  have hgpa : gpa < 2 ^ 64 := by
    rw [hcount] at hend
    simp only [pageSize] at hend
    omega
  have hentries : (cutPages gpa image).entries =
      (gpa, GuestMemory.imagePage image 0) ::
        (List.range count).map fun k =>
          (gpa + (k + 1) * pageSize, GuestMemory.imagePage image (k + 1)) := by
    simp only [cutPages, hcount, List.range_succ_eq_map, List.map_cons,
      List.map_map, Nat.zero_mul, Nat.add_zero]
    rfl
  have hruns := runsFrom_adjacent gpa gpa [] (GuestMemory.imagePage image)
    hend
  rw [hcount, List.range_succ_eq_map, List.map_cons, List.map_map,
    Nat.zero_mul, Nat.add_zero, runsFrom,
    if_pos (Nat.mod_eq_of_lt hgpa).symm, List.nil_append] at hruns
  rw [contiguousRuns_of_cons hentries]
  refine Eq.trans hruns ?_
  rw [List.nil_append, ← List.range_succ_eq_map, ← hcount,
    GuestMemory.flatMap_imagePage]

end Pages

namespace IgvmDataList

/-- An address of the blob's pages, to the end of the last one. -/
def CoversPage (entry : IgvmDataEntry) (addr : Nat) : Prop :=
  entry.addr ≤ addr ∧ addr < entry.addr + roundUp entry.blob.length

/-- What a list that was made by `calls` says. -/
structure ReadsBack (calls : List AddCall) (list : IgvmDataList) : Prop where
  added : list.data.map (fun entry =>
    (⟨entry.blob, entry.hob.dataType, entry.measured⟩ : AddCall)) = calls
  aligned : ∀ entry ∈ list.data, entry.addr % pageSize = 0
  disjoint : list.data.Pairwise fun earlier later =>
    earlier.addr ≤ later.addr ∧
      ∀ addr, ¬ (CoversPage earlier addr ∧ CoversPage later addr)
  walked : ∀ fuel, calls.length < fuel →
    walkHobs fuel list.hobs = some (list.data.map entryTriple, [])
  ordered : ∀ measured, (list.blobs measured).Sublist
    (list.data.map entryBlob)
  partitioned : (list.blobs true ++ list.blobs false).Perm
    (list.data.map entryBlob)
  flagged : ∀ measured, (list.blobs measured).map Prod.snd =
    (calls.filter (·.measured == measured)).map (·.blob)
  scanned : ∀ gpa, gpa % pageSize = 0 →
    gpa + Builder.pagesOf list.hobs.length * pageSize ≤ 2 ^ 64 →
      findKernelBlob (cutPages gpa list.hobs) =
        okOr "no kernel HOB found in IGVM"
          ((list.data.find? fun entry =>
            entry.hob.dataType = .kernel).map fun entry =>
              (entry.addr, entry.blob.length))

theorem hobs_entriesFrom (base : Nat) (calls : List AddCall) :
    (⟨endOf base calls, entriesFrom base calls⟩ : IgvmDataList).hobs =
      ((entriesFrom base calls).map (·.hob)).flatMap
        EfiIgvmDataHob.asBytes ++ EfiHobHeader.endOfList.asBytes := by
  rw [List.flatMap_map]
  rfl

theorem placed_entriesFrom {base : Nat} {calls : List AddCall}
    (haligned : base % pageSize = 0) :
    ∀ hob ∈ (entriesFrom base calls).map (·.hob), hob.Placed := by
  intro hob hmem
  obtain ⟨entry, hentry, rfl⟩ := List.mem_map.mp hmem
  obtain ⟨-, -, haddr, hhob, -⟩ := mem_entriesFrom hentry
  rw [hhob]
  exact ⟨rfl, haddr haligned⟩

/-- The first kernel HOB of the list is that of its first kernel entry, and
neither of its fields wraps. -/
theorem find?_kernel_entriesFrom {base : Nat} {calls : List AddCall}
    (hfits : endOf base calls < 2 ^ 64) :
    (((entriesFrom base calls).map (·.hob)).find? fun hob =>
        hob.dataType = .kernel).map (fun hob =>
          (hob.address % 2 ^ 64, hob.length % 2 ^ 64)) =
      ((entriesFrom base calls).find? fun entry =>
        entry.hob.dataType = .kernel).map fun entry =>
          (entry.addr, entry.blob.length) := by
  rw [List.find?_map, Option.map_map]
  cases hfind : (entriesFrom base calls).find?
      ((fun hob => decide (hob.dataType = .kernel)) ∘ (·.hob)) with
  | none =>
      simp only [Function.comp_def] at hfind
      rw [hfind]
      rfl
  | some entry =>
      obtain ⟨-, hhigh, -, hhob, -⟩ :=
        mem_entriesFrom (List.mem_of_find?_eq_some hfind)
      have hround := length_le_roundUp entry.blob.length
      simp only [Function.comp_def] at hfind
      rw [hfind]
      have haddress : entry.hob.address % 2 ^ 64 = entry.addr := by
        rw [hhob]
        change entry.addr % 2 ^ 64 = entry.addr
        exact Nat.mod_eq_of_lt (by omega)
      have hlength : entry.hob.length % 2 ^ 64 = entry.blob.length := by
        rw [hhob]
        change entry.blob.length % 2 ^ 64 = entry.blob.length
        exact Nat.mod_eq_of_lt (by omega)
      simp only [Option.map_some, Function.comp_apply, haddress, hlength]

/-- The page scan sees the list's bytes with zeros behind them. -/
theorem findKernelBlob_cutPages {base : Nat} {calls : List AddCall}
    (haligned : base % pageSize = 0) (hfits : endOf base calls < 2 ^ 64)
    {gpa : Nat} {hobs : Bytes}
    (hhobs : hobs = (⟨endOf base calls, entriesFrom base calls⟩ :
      IgvmDataList).hobs)
    (hend : gpa + Builder.pagesOf hobs.length * pageSize ≤ 2 ^ 64) :
    findKernelBlob (cutPages gpa hobs) =
      okOr "no kernel HOB found in IGVM"
        (((entriesFrom base calls).find? fun entry =>
          entry.hob.dataType = .kernel).map fun entry =>
            (entry.addr, entry.blob.length)) := by
  have hmarker : EfiHobHeader.endOfList.asBytes.length = 8 := rfl
  rw [hobs_entriesFrom] at hhobs
  have hnonempty : 0 < hobs.length := by
    rw [hhobs, List.length_append, hmarker]
    omega
  have hfilled : hobs.length ≤ Builder.pagesOf hobs.length * pageSize := by
    simp only [Builder.pagesOf, pageSize]
    omega
  have hpadded : ∃ zeros,
      hobs.zeroPad (Builder.pagesOf hobs.length * pageSize) =
        paddedHobs ((entriesFrom base calls).map (·.hob)) zeros := by
    refine ⟨Builder.pagesOf hobs.length * pageSize - hobs.length, ?_⟩
    rw [Bytes.zeroPad_of_length_le hfilled, paddedHobs, ← List.append_assoc,
      ← hhobs]
  obtain ⟨zeros, hpadded⟩ := hpadded
  rw [findKernelBlob, contiguousRuns_cutPages hnonempty hend,
    List.findSome?_cons, List.findSome?_nil, hpadded,
    scanRun_paddedHobs (placed_entriesFrom haligned),
    find?_kernel_entriesFrom hfits]
  congr 1
  cases (entriesFrom base calls).find? fun entry =>
      entry.hob.dataType = .kernel with
  | none => rfl
  | some entry => rfl

/-- Every sequence of calls is read back as it was made. -/
theorem ofCalls_readsBack {base : Nat} {calls : List AddCall}
    (haligned : base % pageSize = 0) (hfits : endOf base calls < 2 ^ 64) :
    (ofCalls base calls).ReadsBack calls := by
  rw [ofCalls_eq hfits]
  constructor
  · exact map_entriesFrom base calls
  · intro entry hentry
    exact (mem_entriesFrom hentry).2.2.1 haligned
  · apply (pairwise_entriesFrom base calls).imp
    intro earlier later hbefore
    refine ⟨by omega, ?_⟩
    rintro addr ⟨⟨-, hbelow⟩, habove, -⟩
    omega
  · intro fuel hfuel
    exact walkHobs_entriesFrom hfits hfuel
  · exact blobs_sublist _
  · exact blobs_perm _
  · intro measured
    exact map_snd_blobs (map_entriesFrom base calls) measured
  · intro gpa _ hend
    exact findKernelBlob_cutPages haligned hfits rfl hend

/-- A shim and a kernel. -/
theorem shimAndKernel_readsBack :
    (ofCalls 0x20000000
      [⟨[1], .shim, false⟩, ⟨[2, 3], .kernel, true⟩]).ReadsBack
        [⟨[1], .shim, false⟩, ⟨[2, 3], .kernel, true⟩] :=
  ofCalls_readsBack (by decide) (by decide)

end IgvmDataList

end Igvm

end Kettle
