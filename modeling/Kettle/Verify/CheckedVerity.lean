/-
The GPT walk with its arithmetic checked: where the offset of the partition
table can overflow, and which entry is found where it does not.
-/
import Kettle.Lib.Outcome
import Kettle.Verify.FastRoothash

namespace Kettle

namespace Verify

namespace Checked

open Outcome

section Model

variable (hash : VerityHash)

def okOr {α : Type} (message : String) (found : Option α) :
    Outcome String α :=
  ofExcept (Kettle.okOr message found)

/-- `from_le_bytes` of `buf[start..stop]`. -/
def field (buf : Bytes) (start stop : Nat) : Outcome String Nat := do
  let bytes ← index buf start stop
  .ok (Bytes.toNatLE bytes)

def superblockRoothash (part : Bytes) : Outcome String String := do
  let names ← index part 32 64
  -- the position of the NUL, or 32 without one
  let algoEnd ← add64 32 (names.takeWhile (· ≠ 0)).length
  let name ← index part 32 algoEnd
  let algo ← okOr "verity algorithm not UTF-8"
    (String.fromUTF8? ⟨name.toArray⟩)
  let hashBlockSize ← field part 68 72
  let saltSize ← field part 80 82
  let saltEnd ← add64 88 saltSize
  if part.length < saltEnd then .err "verity superblock salt out of range"
  else
    let salt ← index part 88 saltEnd
    let blockEnd ← mul64 hashBlockSize 2
    let rootBlock ← okOr
      "verity partition too small to hold a root hash block"
      (part.range? hashBlockSize blockEnd)
    ofExcept (digestWithSalt hash algo salt rootBlock)

def roothashFromVerityPartition (part : Bytes) : Outcome String String :=
  if part.length < 4096 then
    .err "not a dm-verity partition (bad superblock magic)"
  else do
    let magic ← index part 0 8
    if magic ≠ verityMagic then
      .err "not a dm-verity partition (bad superblock magic)"
    else
      let version ← field part 8 12
      if version ≠ 1 then
        .err s!"unsupported dm-verity superblock version: {version}"
      else superblockRoothash hash part

/-- The additions and products here are `checked_` ones of the source. -/
def verityExtent (entry : Bytes) : Outcome String (Nat × Nat) := do
  let first ← field entry 32 40
  let last ← field entry 40 48
  if last < first then
    .err s!"verity partition has EndingLBA {last} before StartingLBA {first}"
  else
    let lbaSpan ← sub64 last first
    if 2 ^ 64 ≤ lbaSpan + 1 then
      .err "verity partition LBA range overflows u64"
    else if 2 ^ 64 ≤ first * lba then
      .err "verity partition offset overflows"
    else if 2 ^ 64 ≤ (lbaSpan + 1) * lba then
      .err "verity partition length overflows"
    else .ok (first * lba, (lbaSpan + 1) * lba)

def findVerityEntry (disk : Bytes) (entrySize : Nat) :
    Nat → Nat → Outcome String (Nat × Nat)
  | 0, _ => .err "no root-verity partition found in disk image"
  | count + 1, off => do
      let stop ← add64 off entrySize
      let entry ← okOr "GPT partition entry out of range"
        (disk.range? off stop)
      let guid ← index entry 0 16
      if guid = verityTypeGuid then verityExtent entry
      else
        let next ← add64 off entrySize
        findVerityEntry disk entrySize count next

def findVerityPartition (disk : Bytes) : Outcome String (Nat × Nat) := do
  let headerEnd ← add64 lba 92
  let header ← okOr "disk too small for a GPT header"
    (disk.range? lba headerEnd)
  let magic ← index header 0 8
  if magic ≠ gptMagic then
    .err "image is not a GPT disk (no 'EFI PART' header at LBA1)"
  else
    let entriesLba ← field header 72 80
    let numEntries ← field header 80 84
    let entrySize ← field header 84 88
    if entrySize < 48 then
      .err s!"GPT partition entry size too small: {entrySize}"
    else
      let off ← mul64 entriesLba lba
      findVerityEntry disk entrySize numEntries off

/-- `stored_roothash`, of the bytes of an image. -/
def imageRoothash (image : Bytes) : Outcome String String := do
  let head ← ofExcept (readExactAt image
    "reading GPT header from disk image" 0 (min image.length headBytes))
  let (start, _) ← findVerityPartition head
  let superblock ← ofExcept (readExactAt image
    "reading verity superblock from disk image" start 4096)
  let hashBlockSize ← field superblock 68 72
  -- `checked_mul`, of a `u32`
  let part ← ofExcept (readHashBlock image start (hashBlockSize * 2)
    superblock)
  roothashFromVerityPartition hash part

end Model

variable {hash : VerityHash}

theorem field_eq {buf : Bytes} {start stop : Nat} (hstart : start ≤ stop)
    (hstop : stop ≤ buf.length) :
    field buf start stop =
      .ok (Bytes.toNatLE (buf.slice start (stop - start))) := by
  rw [field, index_of_le hstart hstop, bind_ok]

/-- A field of at most eight bytes is a machine integer. -/
theorem toNatLE_slice_lt (buf : Bytes) (start width : Nat) :
    Bytes.toNatLE (buf.slice start width) < 256 ^ width := by
  refine lt_of_lt_of_le (Bytes.toNatLE_lt _)
    (Nat.pow_le_pow_right (by decide) ?_)
  rw [Bytes.slice, List.length_take]
  exact Nat.min_le_left _ _

/-- The superblock's sizes are 16- and 32-bit fields: nothing overflows. -/
theorem superblockRoothash_eq {part : Bytes} (hpart : 4096 ≤ part.length) :
    superblockRoothash hash part =
      ofExcept (Verify.superblockRoothash hash part) := by
  have hname : ((part.slice 32 32).takeWhile (· ≠ 0)).length ≤ 32 := by
    have hprefix := (List.takeWhile_prefix (l := part.slice 32 32)
      (· ≠ 0)).length_le
    rwa [Bytes.length_slice (by omega)] at hprefix
  have hsalt := toNatLE_slice_lt part 80 2
  have hblock := toNatLE_slice_lt part 68 4
  have hfield : part.slice 32 (32 + ((part.slice 32 32).takeWhile
      (· ≠ 0)).length - 32) = (part.slice 32 32).takeWhile (· ≠ 0) := by
    have htake := List.prefix_iff_eq_take.mp
      (List.takeWhile_prefix (l := part.slice 32 32) (· ≠ 0))
    have hcut : ∀ n ≤ 32, part.slice 32 n = (part.slice 32 32).take n := by
      intro n hn
      rw [Bytes.slice, Bytes.slice, List.take_take, Nat.min_eq_left hn]
    rw [Nat.add_sub_cancel_left, hcut _ hname, ← htake]
  unfold superblockRoothash Verify.superblockRoothash
  rw [index_of_le (by decide) (by omega), bind_ok]
  change (do
    let algoEnd ← add64 32 ((part.slice 32 32).takeWhile (· ≠ 0)).length
    _) = _
  rw [add64_of_lt (by omega), bind_ok, index_of_le (by omega) (by omega),
    bind_ok, hfield, ofExcept_bind]
  cases String.fromUTF8? ⟨((part.slice 32 32).takeWhile
      (· ≠ 0)).toArray⟩ with
  | none => rfl
  | some algo =>
      simp only [okOr, okOr_some, ofExcept_ok, bind_ok]
      rw [field_eq (by decide) (by omega), bind_ok,
        field_eq (by decide) (by omega), bind_ok]
      simp only [Nat.reduceSub]
      rw [add64_of_lt (by omega), bind_ok]
      by_cases hshort : part.length < 88 + Bytes.toNatLE (part.slice 80 2)
      · rw [if_pos hshort, if_pos hshort]
        rfl
      · rw [if_neg hshort, if_neg hshort,
          index_of_le (by omega) (Nat.le_of_not_lt hshort), bind_ok,
          mul64_of_lt (by omega), bind_ok, Nat.add_sub_cancel_left,
          ofExcept_bind]

/-- No partition makes the reader of its root hash overflow. -/
theorem roothashFromVerityPartition_eq (part : Bytes) :
    roothashFromVerityPartition hash part =
      ofExcept (Verify.roothashFromVerityPartition hash part) := by
  unfold roothashFromVerityPartition Verify.roothashFromVerityPartition
  by_cases hshort : part.length < 4096
  · simp only [hshort, if_true, true_or]
    rfl
  · rw [if_neg hshort, index_of_le (by decide) (by omega), bind_ok]
    simp only [hshort, false_or, Nat.sub_zero]
    by_cases hmagic : part.slice 0 8 ≠ verityMagic
    · rw [if_pos hmagic, if_pos hmagic]
      rfl
    · rw [if_neg hmagic, if_neg hmagic, field_eq (by decide) (by omega),
        bind_ok]
      simp only [Nat.reduceSub]
      by_cases hversion : Bytes.toNatLE (part.slice 8 4) ≠ 1
      · rw [if_pos hversion, if_pos hversion]
        rfl
      · rw [if_neg hversion, if_neg hversion]
        exact superblockRoothash_eq (Nat.le_of_not_lt hshort)

theorem verityExtent_eq {entry : Bytes} (hentry : 48 ≤ entry.length) :
    verityExtent entry = ofExcept (Verify.verityExtent entry) := by
  unfold verityExtent Verify.verityExtent
  rw [field_eq (by decide) (by omega), bind_ok,
    field_eq (by decide) (by omega), bind_ok]
  simp only [Nat.reduceSub]
  split
  · rfl
  · rename_i hlast
    rw [sub64_of_le (Nat.le_of_not_lt hlast), bind_ok]
    split
    · rfl
    · split
      · rfl
      · split <;> rfl

/-- The walk overflows at its first entry or nowhere: every later entry
starts inside the disk. -/
theorem findVerityEntry_eq {disk : Bytes} (hdisk : disk.length < 2 ^ 63)
    {entrySize : Nat} (hmin : 48 ≤ entrySize) (hmax : entrySize < 2 ^ 32)
    (count off : Nat) :
    findVerityEntry disk entrySize count off =
      if count = 0 ∨ off + entrySize < 2 ^ 64 then
        ofExcept (Verify.findVerityEntry disk entrySize count off)
      else .panic := by
  induction count generalizing off with
  | zero => rfl
  | succ count ih =>
      unfold findVerityEntry Verify.findVerityEntry
      by_cases hfits : off + entrySize < 2 ^ 64
      · rw [if_pos (Or.inr hfits), add64_of_lt hfits, bind_ok,
          Nat.mod_eq_of_lt hfits]
        cases hentry : disk.range? off (off + entrySize) with
        | none => rfl
        | some entry =>
            obtain ⟨hinside, hslice⟩ := Bytes.range?_eq_some_iff.mp hentry
            have hlength : entry.length = entrySize := by
              rw [← hslice, Bytes.length_slice hinside]
            simp only [okOr, okOr_some, ofExcept_ok, bind_ok]
            rw [index_of_le (by decide) (by omega), bind_ok, Nat.sub_zero]
            split
            · exact verityExtent_eq (by omega)
            · rw [ih, if_pos (Or.inr (by omega))]
      · rw [if_neg (by omega), add64, if_neg hfits, bind_panic]

end Checked

section Table

/-- The fields of the GPT header at LBA 1. -/
def entriesLba (disk : Bytes) : Nat := Bytes.toNatLE (disk.slice 584 8)

def numEntries (disk : Bytes) : Nat := Bytes.toNatLE (disk.slice 592 4)

def entrySize (disk : Bytes) : Nat := Bytes.toNatLE (disk.slice 596 4)

/-- A GPT header whose entries can hold what is read of them. -/
structure GptHeader (disk : Bytes) : Prop where
  inside : 604 ≤ disk.length
  magic : disk.slice 512 8 = gptMagic
  size : 48 ≤ entrySize disk

instance (disk : Bytes) : Decidable (GptHeader disk) :=
  decidable_of_iff (604 ≤ disk.length ∧ disk.slice 512 8 = gptMagic ∧
    48 ≤ entrySize disk)
    ⟨fun h => ⟨h.1, h.2.1, h.2.2⟩, fun h => ⟨h.1, h.2, h.3⟩⟩

/-- The table's offset and the end of its first entry, if it has one, are
machine integers. -/
def TableFits (disk : Bytes) : Prop :=
  GptHeader disk →
    entriesLba disk * lba < 2 ^ 64 ∧
      (numEntries disk = 0 ∨
        entriesLba disk * lba + entrySize disk < 2 ^ 64)

instance (disk : Bytes) : Decidable (TableFits disk) :=
  inferInstanceAs (Decidable (_ → _))

theorem header_eq {disk : Bytes} (hinside : 604 ≤ disk.length) :
    disk.range? lba (lba + 92) = some (disk.slice 512 92) :=
  Bytes.range?_eq_some_iff.mpr ⟨hinside, rfl⟩

/-- The header's fields, as slices of the disk. -/
theorem header_fields (disk : Bytes) :
    (disk.slice 512 92).slice 0 8 = disk.slice 512 8 ∧
      Bytes.toNatLE ((disk.slice 512 92).slice 72 8) = entriesLba disk ∧
      Bytes.toNatLE ((disk.slice 512 92).slice 80 4) = numEntries disk ∧
      Bytes.toNatLE ((disk.slice 512 92).slice 84 4) = entrySize disk := by
  refine ⟨Bytes.slice_slice disk (by decide), ?_, ?_, ?_⟩
  · rw [Bytes.slice_slice disk (by decide), entriesLba]
  · rw [Bytes.slice_slice disk (by decide), numEntries]
  · rw [Bytes.slice_slice disk (by decide), entrySize]

theorem findVerityPartition_of_header {disk : Bytes}
    (hheader : GptHeader disk) :
    findVerityPartition disk =
      findVerityEntry disk (entrySize disk) (numEntries disk)
        (entriesLba disk * lba % 2 ^ 64) := by
  obtain ⟨hmagic, hlba, hnum, hsize⟩ := header_fields disk
  unfold findVerityPartition
  rw [header_eq hheader.inside]
  simp only [hmagic, hlba, hnum, hsize, hheader.magic, ne_eq, not_true,
    if_false, Nat.not_lt.mpr hheader.size]

theorem findVerityPartition_of_no_header {disk : Bytes}
    (hno : ¬ GptHeader disk) :
    ∃ message, findVerityPartition disk = .error message := by
  obtain ⟨hmagic, -, -, hsize⟩ := header_fields disk
  unfold findVerityPartition
  by_cases hinside : 604 ≤ disk.length
  · rw [header_eq hinside]
    simp only [hmagic, hsize]
    by_cases hgpt : disk.slice 512 8 = gptMagic
    · have hsmall : entrySize disk < 48 := by
        by_contra hlarge
        exact hno ⟨hinside, hgpt, Nat.le_of_not_lt hlarge⟩
      rw [if_neg (not_not.mpr hgpt), if_pos hsmall]
      exact ⟨_, rfl⟩
    · rw [if_pos hgpt]
      exact ⟨_, rfl⟩
  · have hnone : disk.range? lba (lba + 92) = none := by
      rw [Bytes.range?, if_neg]
      rw [lba]
      omega
    rw [hnone]
    exact ⟨_, rfl⟩

/-- The checked reading of a header, up to its fields. -/
theorem checked_findVerityPartition_of_inside {disk : Bytes}
    (hinside : 604 ≤ disk.length) :
    Checked.findVerityPartition disk =
      if disk.slice 512 8 ≠ gptMagic then
        Outcome.ofExcept (findVerityPartition disk)
      else if entrySize disk < 48 then
        Outcome.ofExcept (findVerityPartition disk)
      else
        Outcome.mul64 (entriesLba disk) lba >>=
          Checked.findVerityEntry disk (entrySize disk)
            (numEntries disk) := by
  obtain ⟨hmagic, hlba, hnum, hsize⟩ := header_fields disk
  have hlength : (disk.slice 512 92).length = 92 :=
    Bytes.length_slice hinside
  unfold Checked.findVerityPartition findVerityPartition
  rw [Outcome.add64_of_lt (by decide), Outcome.bind_ok, header_eq hinside]
  simp only [Checked.okOr, okOr_some, Outcome.ofExcept_ok, Outcome.bind_ok,
    hmagic, hsize]
  rw [Outcome.index_of_le (by decide) (by omega), Outcome.bind_ok,
    Nat.sub_zero, hmagic]
  split
  · rfl
  · rw [Checked.field_eq (by decide) (by omega), Outcome.bind_ok,
      Checked.field_eq (by decide) (by omega), Outcome.bind_ok,
      Checked.field_eq (by decide) (by omega), Outcome.bind_ok]
    simp only [Nat.reduceSub, hlba, hnum, hsize]
    split
    · rfl
    · rfl

theorem checked_findVerityPartition_of_no_header {disk : Bytes}
    (hno : ¬ GptHeader disk) :
    Checked.findVerityPartition disk =
      Outcome.ofExcept (findVerityPartition disk) := by
  by_cases hinside : 604 ≤ disk.length
  · rw [checked_findVerityPartition_of_inside hinside]
    split
    · rfl
    · rename_i hgpt
      rw [if_pos]
      by_contra hlarge
      exact hno ⟨hinside, not_not.mp hgpt, Nat.le_of_not_lt hlarge⟩
  · have hnone : disk.range? lba (lba + 92) = none := by
      rw [Bytes.range?, if_neg]
      rw [lba]
      omega
    rw [Checked.findVerityPartition, Outcome.add64_of_lt (by decide),
      Outcome.bind_ok, findVerityPartition, hnone]
    rfl

/-- The checked walk panics where the offset of the table, or the end of its
first entry, is not a machine integer. -/
theorem checked_findVerityPartition_eq {disk : Bytes}
    (hdisk : disk.length < 2 ^ 63) :
    Checked.findVerityPartition disk =
      if TableFits disk then Outcome.ofExcept (findVerityPartition disk)
      else .panic := by
  by_cases hheader : GptHeader disk
  · have hmax := Checked.toNatLE_slice_lt disk 596 4
    rw [checked_findVerityPartition_of_inside hheader.inside,
      if_neg (not_not.mpr hheader.magic),
      if_neg (Nat.not_lt.mpr hheader.size),
      findVerityPartition_of_header hheader]
    by_cases htable : entriesLba disk * lba < 2 ^ 64
    · rw [Outcome.mul64_of_lt htable, Outcome.bind_ok,
        Checked.findVerityEntry_eq hdisk hheader.size hmax,
        Nat.mod_eq_of_lt htable]
      by_cases hfirst : numEntries disk = 0 ∨
          entriesLba disk * lba + entrySize disk < 2 ^ 64
      · have hfits : TableFits disk := fun _ => ⟨htable, hfirst⟩
        rw [if_pos hfirst, if_pos hfits]
      · rw [if_neg hfirst, if_neg fun h => hfirst (h hheader).2]
    · rw [Outcome.mul64, if_neg htable, Outcome.bind_panic,
        if_neg fun h => htable (h hheader).1]
  · have hfits : TableFits disk := fun h => absurd h hheader
    rw [checked_findVerityPartition_of_no_header hheader, if_pos hfits]

/-- The position of the entry `i`, over the unbounded integers. -/
def entryAt (disk : Bytes) (i : Nat) : Nat :=
  entriesLba disk * lba + i * entrySize disk

/-- The type GUID of the entry `i`. -/
def entryType (disk : Bytes) (i : Nat) : Bytes :=
  disk.slice (entryAt disk i) 16

/-- The first and the last LBA of the entry `i`. -/
def entryFirst (disk : Bytes) (i : Nat) : Nat :=
  Bytes.toNatLE (disk.slice (entryAt disk i + 32) 8)

def entryLast (disk : Bytes) (i : Nat) : Nat :=
  Bytes.toNatLE (disk.slice (entryAt disk i + 40) 8)

/-- The first root-verity entry of the table is `i`, and it is inside the
disk. -/
structure FirstVerity (disk : Bytes) (i : Nat) : Prop where
  counted : i < numEntries disk
  inside : entryAt disk i + entrySize disk ≤ disk.length
  verity : entryType disk i = verityTypeGuid
  first : ∀ j < i, entryType disk j ≠ verityTypeGuid

/-- What the walk returns is the extent of the first root-verity entry. -/
theorem findVerityEntry_ok {disk : Bytes} (hdisk : disk.length < 2 ^ 63)
    {size count off start len : Nat} (hmin : 48 ≤ size)
    (hmax : size < 2 ^ 32) (hfits : count = 0 ∨ off + size < 2 ^ 64)
    (hfind : findVerityEntry disk size count off = .ok (start, len)) :
    ∃ i < count, off + i * size + size ≤ disk.length ∧
      disk.slice (off + i * size) 16 = verityTypeGuid ∧
      (∀ j < i, disk.slice (off + j * size) 16 ≠ verityTypeGuid) ∧
      verityExtent (disk.slice (off + i * size) size) = .ok (start, len) := by
  induction count generalizing off with
  | zero => cases hfind
  | succ count ih =>
      have hfirst : off + size < 2 ^ 64 := by omega
      rw [findVerityEntry, Nat.mod_eq_of_lt hfirst] at hfind
      cases hentry : disk.range? off (off + size) with
      | none =>
          rw [hentry] at hfind
          cases hfind
      | some entry =>
          obtain ⟨hinside, rfl⟩ := Bytes.range?_eq_some_iff.mp hentry
          rw [hentry] at hfind
          simp only [Bytes.slice_slice disk (show 0 + 16 ≤ size by omega),
            Nat.add_zero] at hfind
          by_cases hguid : disk.slice off 16 = verityTypeGuid
          · rw [if_pos hguid] at hfind
            refine ⟨0, Nat.succ_pos count, ?_, ?_, ?_, ?_⟩
            · rwa [Nat.zero_mul, Nat.add_zero]
            · rwa [Nat.zero_mul, Nat.add_zero]
            · intro j hj
              exact absurd hj (Nat.not_lt_zero j)
            · rwa [Nat.zero_mul, Nat.add_zero]
          · rw [if_neg hguid] at hfind
            obtain ⟨i, hi, hin, hverity, hbefore, hextent⟩ :=
              ih (Or.inr (by omega)) hfind
            have hpos : ∀ k, off + size + k * size =
                off + (k + 1) * size := by
              intro k
              rw [Nat.add_mul, Nat.one_mul]
              omega
            rw [hpos] at hin hverity hextent
            refine ⟨i + 1, Nat.succ_lt_succ hi, hin, hverity, ?_, hextent⟩
            intro j hj
            cases j with
            | zero => rwa [Nat.zero_mul, Nat.add_zero]
            | succ j =>
                rw [← hpos]
                exact hbefore j (Nat.lt_of_succ_lt_succ hj)

theorem verityExtent_ok {entry : Bytes} {start len : Nat}
    (hextent : verityExtent entry = .ok (start, len)) :
    Bytes.toNatLE (entry.slice 32 8) ≤ Bytes.toNatLE (entry.slice 40 8) ∧
      start = 512 * Bytes.toNatLE (entry.slice 32 8) ∧
      len = 512 * (Bytes.toNatLE (entry.slice 40 8) -
        Bytes.toNatLE (entry.slice 32 8) + 1) := by
  unfold verityExtent at hextent
  dsimp only at hextent
  split at hextent
  · cases hextent
  · rename_i hlast
    split at hextent
    · cases hextent
    · split at hextent
      · cases hextent
      · split at hextent
        · cases hextent
        · cases hextent
          exact ⟨Nat.le_of_not_lt hlast, Nat.mul_comm _ _, Nat.mul_comm _ _⟩

/-- Where the table fits, the partition found is the one that the first
root-verity entry describes. -/
theorem findVerityPartition_ok {disk : Bytes} (hdisk : disk.length < 2 ^ 63)
    (hfits : TableFits disk) {start len : Nat}
    (hfind : findVerityPartition disk = .ok (start, len)) :
    ∃ i, FirstVerity disk i ∧ entryFirst disk i ≤ entryLast disk i ∧
      start = 512 * entryFirst disk i ∧
      len = 512 * (entryLast disk i - entryFirst disk i + 1) := by
  have hheader : GptHeader disk := by
    by_contra hno
    obtain ⟨message, herror⟩ := findVerityPartition_of_no_header hno
    rw [hfind] at herror
    cases herror
  obtain ⟨htable, hfirst⟩ := hfits hheader
  have hmax := Checked.toNatLE_slice_lt disk 596 4
  rw [findVerityPartition_of_header hheader, Nat.mod_eq_of_lt htable]
    at hfind
  obtain ⟨i, hi, hinside, hverity, hbefore, hextent⟩ :=
    findVerityEntry_ok hdisk hheader.size hmax hfirst hfind
  have hspan := verityExtent_ok hextent
  have hsize := hheader.size
  rw [Bytes.slice_slice disk (show 32 + 8 ≤ entrySize disk by omega),
    Bytes.slice_slice disk (show 40 + 8 ≤ entrySize disk by omega)] at hspan
  exact ⟨i, ⟨hi, hinside, hverity, hbefore⟩, hspan⟩

end Table

/-- The front of an image has its header. -/
theorem tableFits_head (image : Bytes) :
    TableFits (image.slice 0 (min image.length headBytes)) ↔
      TableFits image := by
  have hlength : (image.slice 0 (min image.length headBytes)).length =
      min image.length headBytes :=
    Bytes.length_slice (by omega)
  by_cases hinside : 604 ≤ image.length
  · have hreach : 604 ≤ min image.length headBytes := by
      rw [headBytes]
      omega
    have hfields : ∀ start count, start + count ≤ 604 →
        Bytes.slice (image.slice 0 (min image.length headBytes)) start count =
          image.slice start count := by
      intro start count hstop
      rw [Bytes.slice_slice image (by omega), Nat.zero_add]
    have hlba : entriesLba (image.slice 0 (min image.length headBytes)) =
        entriesLba image :=
      congrArg Bytes.toNatLE (hfields 584 8 (by decide))
    have hnum : numEntries (image.slice 0 (min image.length headBytes)) =
        numEntries image :=
      congrArg Bytes.toNatLE (hfields 592 4 (by decide))
    have hsize : entrySize (image.slice 0 (min image.length headBytes)) =
        entrySize image :=
      congrArg Bytes.toNatLE (hfields 596 4 (by decide))
    have hheader : GptHeader
        (image.slice 0 (min image.length headBytes)) ↔ GptHeader image := by
      constructor
      · rintro ⟨-, hmagic, hmin⟩
        rw [hfields 512 8 (by decide)] at hmagic
        rw [hsize] at hmin
        exact ⟨hinside, hmagic, hmin⟩
      · rintro ⟨-, hmagic, hmin⟩
        refine ⟨by rwa [hlength], ?_, by rwa [hsize]⟩
        rwa [hfields 512 8 (by decide)]
    rw [TableFits, TableFits, hheader, hlba, hnum, hsize]
  · have hno : ¬ GptHeader image := fun h => hinside h.inside
    have hnohead : ¬ GptHeader
        (image.slice 0 (min image.length headBytes)) := by
      intro h
      have hreach := h.inside
      rw [hlength] at hreach
      omega
    exact iff_of_true (fun h => absurd h hnohead) (fun h => absurd h hno)

theorem checked_imageRoothash_eq (hash : VerityHash) (image : Bytes) :
    Checked.imageRoothash hash image =
      if TableFits image then Outcome.ofExcept (imageRoothash hash image)
      else .panic := by
  have hlength : (image.slice 0 (min image.length headBytes)).length <
      2 ^ 63 := by
    rw [Bytes.length_slice (by omega), headBytes]
    omega
  have hhead : readExactAt image "reading GPT header from disk image" 0
      (min image.length headBytes) =
        .ok (image.slice 0 (min image.length headBytes)) := by
    rw [readExactAt, okOr_eq_ok_iff, Bytes.range?_eq_some_iff]
    exact ⟨by omega, rfl⟩
  have hfind := checked_findVerityPartition_eq hlength
  simp only [tableFits_head image] at hfind
  unfold Checked.imageRoothash
  rw [hhead, Outcome.ofExcept_ok, Outcome.bind_ok, hfind]
  by_cases hfits : TableFits image
  · rw [if_pos hfits, if_pos hfits, imageRoothash, hhead, ok_bind,
      Outcome.ofExcept_bind]
    cases findVerityPartition
        (image.slice 0 (min image.length headBytes)) with
    | error message => rfl
    | ok extent =>
        obtain ⟨start, len⟩ := extent
        simp only [Outcome.ofExcept_ok, Outcome.bind_ok,
          Outcome.ofExcept_bind]
        cases hread : readExactAt image
            "reading verity superblock from disk image" start 4096 with
        | error message => rfl
        | ok superblock =>
            rw [readExactAt, okOr_eq_ok_iff, Bytes.range?_eq_some_iff] at hread
            obtain ⟨hinside, rfl⟩ := hread
            have hsuper := Bytes.length_slice hinside
            simp only [Outcome.ofExcept_ok, Outcome.bind_ok]
            rw [Checked.field_eq (by decide) (by omega), Outcome.bind_ok]
            simp only [Checked.roothashFromVerityPartition_eq]
  · rw [if_neg hfits, if_neg hfits, Outcome.bind_panic]

/-- A `&[u8]` has at most `isize::MAX` bytes. -/
structure ByteSlice where
  bytes : Bytes
  fits : bytes.length < 2 ^ 63

/-- No panic on a disk image, and no partition but the one that the table at
its place in the disk describes. -/
structure WalksSafely (hash : VerityHash) (disk : ByteSlice) : Prop where
  stored : Checked.imageRoothash hash disk.bytes ≠ .panic
  found : Checked.findVerityPartition disk.bytes ≠ .panic
  roothash : Checked.roothashFromVerityPartition hash disk.bytes ≠ .panic
  located : ∀ start len,
    findVerityPartition disk.bytes = .ok (start, len) →
      ∃ i, FirstVerity disk.bytes i ∧
        entryFirst disk.bytes i ≤ entryLast disk.bytes i ∧
        start = 512 * entryFirst disk.bytes i ∧
        len = 512 * (entryLast disk.bytes i - entryFirst disk.bytes i + 1)

/-- That is so exactly when the offset of the table and the end of its first
entry fit into 64 bits. -/
theorem walksSafely_iff (hash : VerityHash) (disk : ByteSlice) :
    WalksSafely hash disk ↔ TableFits disk.bytes := by
  constructor
  · rintro ⟨-, hfound, -, -⟩
    rw [checked_findVerityPartition_eq disk.fits] at hfound
    exact Outcome.ite_ofExcept_ne_panic_iff.mp hfound
  · intro hfits
    constructor
    · rw [checked_imageRoothash_eq]
      exact Outcome.ite_ofExcept_ne_panic_iff.mpr hfits
    · rw [checked_findVerityPartition_eq disk.fits]
      exact Outcome.ite_ofExcept_ne_panic_iff.mpr hfits
    · rw [Checked.roothashFromVerityPartition_eq]
      exact Outcome.ofExcept_ne_panic _
    · intro start len hfind
      exact findVerityPartition_ok disk.fits hfits hfind

/-- A header whose table is at LBA 2^55, and the entry of a root-verity
partition at offset 0, where the product wraps to. -/
def wrappedTable : Bytes :=
  verityTypeGuid ++ List.replicate 16 0 ++ Bytes.ofNatLE 8 1 ++
    Bytes.ofNatLE 8 1 ++ List.replicate 464 0 ++
    (gptMagic ++ List.replicate 64 0 ++ Bytes.ofNatLE 8 (2 ^ 55) ++
      Bytes.ofNatLE 4 1 ++ Bytes.ofNatLE 4 48 ++ List.replicate 4 0)

theorem length_wrappedTable : wrappedTable.length < 2 ^ 63 := by
  decide +kernel

def wrappedDisk : ByteSlice := ⟨wrappedTable, length_wrappedTable⟩

theorem wrappedDisk_misread :
    Checked.findVerityPartition wrappedDisk.bytes = .panic ∧
      findVerityPartition wrappedDisk.bytes = .ok (512, 512) ∧
      ∀ hash, ¬ WalksSafely hash wrappedDisk := by
  have hpanic : Checked.findVerityPartition wrappedDisk.bytes = .panic := by
    decide +kernel
  refine ⟨hpanic, by decide +kernel, ?_⟩
  intro hash hsafe
  exact hsafe.found hpanic

end Verify

end Kettle
