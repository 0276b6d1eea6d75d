/-
A range of guest memory that is read from the page map.  It is there exactly
when each of its pages is, and it is then read byte by byte.
-/
import Kettle.Igvm.KernelScan
import Mathlib.Tactic.IntervalCases

namespace Kettle

namespace Igvm

section Ranges

/-- The page of an address. -/
def pageBase (addr : Nat) : Nat := addr - addr % pageSize

/-- A page has a byte of the range. -/
structure Overlaps (addr length gpa : Nat) : Prop where
  aligned : gpa % pageSize = 0
  starts : gpa < addr + length
  ends : addr < gpa + pageSize

/-- The pages that a range touches, from its first on. -/
def pageCount (addr length : Nat) : Nat :=
  (length + addr % pageSize + (pageSize - 1)) / pageSize

theorem overlaps_iff {addr length gpa : Nat} (hlength : 0 < length) :
    Overlaps addr length gpa ↔
      ∃ k < pageCount addr length, gpa = pageBase addr + k * pageSize := by
  unfold pageCount pageBase
  constructor
  · rintro ⟨haligned, hstarts, hends⟩
    refine ⟨(gpa - (addr - addr % pageSize)) / pageSize, ?_, ?_⟩
    · simp only [pageSize] at *
      omega
    · simp only [pageSize] at *
      omega
  · rintro ⟨k, hk, rfl⟩
    simp only [pageSize] at hk
    refine ⟨?_, ?_, ?_⟩
    · simp only [pageSize]
      omega
    · simp only [pageSize]
      omega
    · simp only [pageSize]
      omega

end Ranges

section Pages

variable {pages : PageMap}

theorem length_flatMap_pages (page : Nat → Page) (count : Nat) :
    ((List.range count).flatMap fun k => (page k).toList).length =
      count * pageSize := by
  induction count with
  | zero => rw [Nat.zero_mul]; rfl
  | succ count ih =>
      rw [List.range_succ, List.flatMap_append, List.length_append, ih,
        List.flatMap_singleton, List.Vector.toList_length, Nat.add_mul,
        Nat.one_mul]

/-- Byte `n` of pages in a row is in page `n / 4096`. -/
theorem getElem?_flatMap_pages (page : Nat → Page) {count n : Nat}
    (hn : n < count * pageSize) :
    ((List.range count).flatMap fun k => (page k).toList)[n]? =
      (page (n / pageSize)).toList[n % pageSize]? := by
  induction count with
  | zero => omega
  | succ count ih =>
      have hfront := length_flatMap_pages page count
      rw [List.range_succ, List.flatMap_append, List.flatMap_singleton]
      rcases Nat.lt_or_ge n (count * pageSize) with hlt | hge
      · rw [List.getElem?_append_left (by omega), ih hlt]
      · rw [List.getElem?_append_right (by omega), hfront]
        have hpage : n / pageSize = count := by
          simp only [pageSize] at hn hge ⊢
          omega
        have hbyte : n - count * pageSize = n % pageSize := by
          simp only [pageSize] at hn hge ⊢
          omega
        rw [hpage, hbyte]

/-- The page loop only goes through over pages that are there. -/
theorem isSome_of_reassemblePages {count gpa : Nat} {out : Bytes}
    (hout : reassemblePages pages count gpa = .ok out) :
    ∀ k < count, (pages.get? (gpa + k * pageSize)).isSome := by
  induction count generalizing gpa out with
  | zero => exact fun k hk => absurd hk (Nat.not_lt_zero k)
  | succ count ih =>
      rw [reassemblePages, bind_eq_ok_iff] at hout
      obtain ⟨page, hpage, hout⟩ := hout
      split at hout
      · cases hout
      · obtain ⟨rest, hrest, -⟩ := bind_eq_ok_iff.mp hout
        intro k hk
        cases k with
        | zero =>
            rw [Nat.zero_mul, Nat.add_zero, okOr_eq_ok_iff.mp hpage]
            rfl
        | succ k =>
            have hlater := ih hrest k (by omega)
            rwa [Nat.add_assoc, Nat.add_comm pageSize,
              ← Nat.succ_mul] at hlater

theorem isSome_of_reassemble {addr length : Nat} {bytes : Bytes}
    (hok : reassemble pages addr length = .ok bytes) :
    ∀ k < pageCount addr length,
      (pages.get? (pageBase addr + k * pageSize)).isSome := by
  unfold reassemble at hok
  simp only at hok
  split at hok
  · cases hok
  · split at hok
    · cases hok
    · obtain ⟨out, hout, -⟩ := bind_eq_ok_iff.mp hok
      rw [Nat.sub_sub_self (Nat.mod_le addr pageSize)] at hout
      exact isSome_of_reassemblePages hout

end Pages

section Exact

/-- Pages in memory: a `usize` counts their bytes. -/
structure LoadedPages where
  map : PageMap
  inMemory : map.size * pageSize < 2 ^ 64

/-- The bytes of a range, each from its page. -/
structure ReadsRange (pages : PageMap) (addr length : Nat) (bytes : Bytes) :
    Prop where
  length_eq : bytes.length = length
  byte : ∀ i < length, ∃ page,
    pages.get? (pageBase (addr + i)) = some page ∧
      bytes[i]? = page.toList[(addr + i) % pageSize]?

variable {pages : LoadedPages} {addr length : Nat}

/-- The check of the length passes where the pages are there. -/
theorem length_le_available
    (hpages : ∀ k < pageCount addr length,
      (pages.map.get? (pageBase addr + k * pageSize)).isSome) :
    length ≤ pages.map.size * pageSize := by
  have hle := count_le_size hpages
  simp only [pageCount, pageSize] at hle ⊢
  omega

/-- A range with all its pages is read. -/
theorem reassemble_of_pages (hend : addr + length ≤ 2 ^ 64 - pageSize)
    (hpages : ∀ k < pageCount addr length,
      (pages.map.get? (pageBase addr + k * pageSize)).isSome) :
    ∃ bytes, reassemble pages.map addr length = .ok bytes ∧
      ReadsRange pages.map addr length bytes := by
  let page := fun k => (pages.map.get? (pageBase addr + k * pageSize)).getD
    (Bytes.zeroPadVec pageSize [])
  have hpage : ∀ k < pageCount addr length,
      pages.map.get? (pageBase addr + k * pageSize) = some (page k) := by
    intro k hk
    obtain ⟨found, hfound⟩ := Option.isSome_iff_exists.mp (hpages k hk)
    simp only [page, hfound, Option.getD_some]
  have havailable : length ≤ pages.map.size * pageSize % 2 ^ 64 := by
    rw [Nat.mod_eq_of_lt pages.inMemory]
    exact length_le_available hpages
  have hinside : length + addr % pageSize ≤
      pageCount addr length * pageSize := by
    simp only [pageCount, pageSize]
    omega
  have hbound :
      pageBase addr + pageCount addr length * pageSize < 2 ^ 64 := by
    simp only [pageBase, pageCount, pageSize] at hend ⊢
    omega
  have hlength := length_flatMap_pages page (pageCount addr length)
  refine ⟨_, reassemble_eq_ok page (pageCount addr length) rfl havailable
    hpage hbound, ?_, ?_⟩
  · rw [Bytes.length_slice (by omega)]
  · intro i hi
    have hoffset :
        addr % pageSize + i < pageCount addr length * pageSize := by
      omega
    have hfound := hpage ((addr % pageSize + i) / pageSize)
      (Nat.div_lt_of_lt_mul (by rwa [Nat.mul_comm] at hoffset))
    refine ⟨page ((addr % pageSize + i) / pageSize), ?_, ?_⟩
    · have hbase : pageBase (addr + i) = pageBase addr +
          (addr % pageSize + i) / pageSize * pageSize := by
        simp only [pageBase, pageSize]
        omega
      rw [hbase, hfound]
    · have hbyte : (addr + i) % pageSize =
          (addr % pageSize + i) % pageSize := by
        simp only [pageSize]
        omega
      rw [Bytes.getElem?_slice hi, getElem?_flatMap_pages page hoffset,
        hbyte]

/-- A range is read exactly when each page that it overlaps is there, and
then byte by byte. -/
theorem reassemble_exact (pages : LoadedPages) {addr length : Nat}
    (hlength : 0 < length) (hend : addr + length ≤ 2 ^ 64 - pageSize) :
    ((∃ bytes, reassemble pages.map addr length = .ok bytes) ↔
        ∀ gpa, Overlaps addr length gpa → (pages.map.get? gpa).isSome) ∧
      ∀ bytes, reassemble pages.map addr length = .ok bytes →
        ReadsRange pages.map addr length bytes := by
  have hoverlaps : (∀ gpa, Overlaps addr length gpa →
        (pages.map.get? gpa).isSome) ↔
      ∀ k < pageCount addr length,
        (pages.map.get? (pageBase addr + k * pageSize)).isSome := by
    constructor
    · intro hall k hk
      exact hall _ ((overlaps_iff hlength).mpr ⟨k, hk, rfl⟩)
    · intro hall gpa hgpa
      obtain ⟨k, hk, rfl⟩ := (overlaps_iff hlength).mp hgpa
      exact hall k hk
  rw [hoverlaps]
  refine ⟨⟨?_, ?_⟩, ?_⟩
  · rintro ⟨bytes, hok⟩
    exact isSome_of_reassemble hok
  · intro hpages
    obtain ⟨bytes, hok, -⟩ := reassemble_of_pages hend hpages
    exact ⟨bytes, hok⟩
  · intro bytes hok
    obtain ⟨other, hother, hreads⟩ :=
      reassemble_of_pages hend (isSome_of_reassemble hok)
    cases hok.symm.trans hother
    exact hreads

/-- Two pages next to each other. -/
def twoPages : LoadedPages where
  map := (SortedMap.empty.insert 0x1000
    (Bytes.zeroPadVec pageSize [0x4d])).insert 0x2000
      (Bytes.zeroPadVec pageSize [0x5a])
  inMemory := by decide

theorem reassemble_twoPages :
    ∃ bytes, reassemble twoPages.map 0x1ff0 0x20 = .ok bytes ∧
      ReadsRange twoPages.map 0x1ff0 0x20 bytes := by
  obtain ⟨hpresent, hreads⟩ := reassemble_exact twoPages
    (show 0 < 0x20 by decide)
    (show 0x1ff0 + 0x20 ≤ 2 ^ 64 - pageSize by decide)
  obtain ⟨bytes, hok⟩ := hpresent.mpr (by
    intro gpa hgpa
    obtain ⟨k, hk, rfl⟩ := (overlaps_iff (by decide)).mp hgpa
    have hcount : pageCount 0x1ff0 0x20 = 2 := by decide
    rw [hcount] at hk
    interval_cases k <;> rfl)
  exact ⟨bytes, hok, hreads bytes hok⟩

end Exact

end Igvm

end Kettle
