/-
What the extraction reads from a page map: its runs are adjacent pages, the
first kernel HOB in address order wins, and a blob whose pages are all there is
reassembled as it is.
-/
import Kettle.Igvm.Extract
import Mathlib.Tactic.Ring

namespace Kettle

namespace Igvm

/-- The runs from an open one that begins at `start`, holds `cur` and goes on
at `next`. -/
def runsFrom (start : Nat) (cur : Bytes) (next : Nat) :
    List (Nat × Page) → List (Nat × Bytes)
  | [] => [(start, cur)]
  | (gpa, page) :: rest =>
      if gpa = next then
        runsFrom start (cur ++ page.toList) ((gpa + pageSize) % 2 ^ 64) rest
      else
        (start, cur) ::
          runsFrom gpa page.toList ((gpa + pageSize) % 2 ^ 64) rest

theorem RunScan.foldl_finish (runs : List (Nat × Bytes)) (start next : Nat)
    (cur : Bytes) (entries : List (Nat × Page)) :
    (entries.foldl RunScan.step ⟨runs, some start, next, cur⟩).finish =
      runs ++ runsFrom start cur next entries := by
  induction entries generalizing runs start next cur with
  | nil => rfl
  | cons entry rest ih =>
      obtain ⟨gpa, page⟩ := entry
      rw [List.foldl_cons, runsFrom]
      by_cases hnext : gpa = next
      · rw [if_pos hnext, ← ih]
        simp [RunScan.step, RunScan.open, hnext]
      · rw [if_neg hnext, List.append_cons, ← ih]
        simp [RunScan.step, RunScan.open, hnext]

theorem contiguousRuns_of_cons {pages : PageMap} {gpa : Nat} {page : Page}
    {rest : List (Nat × Page)} (hentries : pages.entries = (gpa, page) :: rest) :
    contiguousRuns pages =
      runsFrom gpa page.toList ((gpa + pageSize) % 2 ^ 64) rest := by
  rw [contiguousRuns, hentries, List.foldl_cons]
  exact RunScan.foldl_finish [] gpa _ _ rest

/-- The first of the runs begins with what is already open. -/
theorem runsFrom_head (start : Nat) (cur : Bytes) (next : Nat)
    (entries : List (Nat × Page)) :
    ∃ back later,
      runsFrom start cur next entries = (start, cur ++ back) :: later := by
  induction entries generalizing cur next with
  | nil => exact ⟨[], [], by simp [runsFrom]⟩
  | cons entry rest ih =>
      obtain ⟨gpa, page⟩ := entry
      unfold runsFrom
      split
      · obtain ⟨back, later, hruns⟩ :=
          ih (cur ++ page.toList) ((gpa + pageSize) % 2 ^ 64)
        exact ⟨page.toList ++ back, later, by rw [hruns, List.append_assoc]⟩
      · exact ⟨[], _, by rw [List.append_nil]⟩

theorem u32At_append_left (front back : Bytes) {off : Nat}
    (hoff : off + 4 ≤ front.length) :
    u32At (front ++ back) off = u32At front off := by
  rw [u32At, u32At, Bytes.range?_append_left front back hoff]

theorem le_of_kernelHobAt_ne_none {bytes : Bytes} {i : Nat}
    (hmatch : kernelHobAt bytes i ≠ none) : 8 ≤ i := by
  by_contra hlt
  exact hmatch (by simp [kernelHobAt, hlt])

/-- A match only looks at the 0x2c bytes around its GUID. -/
theorem kernelHobAt_append_left (front back : Bytes) {i : Nat}
    (hi : i + 0x24 ≤ front.length) :
    kernelHobAt (front ++ back) i = kernelHobAt front i := by
  by_cases hbase : 8 ≤ i
  · simp only [kernelHobAt]
    rw [Bytes.slice_append_left front back (by omega),
      Bytes.slice_append_left front back (by omega),
      Bytes.slice_append_left front back (by omega),
      u32At_append_left front back (by omega)]
  · simp [kernelHobAt, hbase]

/-- The scan returns the first match. -/
theorem scanRun_eq_of_first {bytes : Bytes} {i : Nat} {blob : Nat × Nat}
    (hbound : i + 0x30 ≤ bytes.length)
    (hbefore : ∀ j < i, kernelHobAt bytes j = none)
    (hat : kernelHobAt bytes i = some blob) : scanRun bytes = some blob := by
  obtain ⟨rest, hrest⟩ : ∃ rest, bytes.length + 1 - 0x30 = i + (rest + 1) :=
    ⟨bytes.length - 0x30 - i, by omega⟩
  rw [scanRun, hrest, List.range_add, List.range_succ_eq_map, List.map_cons,
    List.findSome?_append]
  have hnone : (List.range i).findSome? (kernelHobAt bytes) = none := by
    rw [List.findSome?_eq_none_iff]
    exact fun j hj => hbefore j (List.mem_range.mp hj)
  rw [hnone, Option.none_or, Nat.add_zero, List.findSome?_cons, hat]

theorem scanRun_eq_none {bytes : Bytes}
    (hnone : ∀ i, i + 0x30 ≤ bytes.length → kernelHobAt bytes i = none) :
    scanRun bytes = none := by
  rw [scanRun, List.findSome?_eq_none_iff]
  intro i hi
  rw [List.mem_range] at hi
  exact hnone i (by omega)

theorem u32At_append_right (front back : Bytes) (off : Nat) :
    u32At (front ++ back) (front.length + off) = u32At back off := by
  rw [u32At, u32At, Nat.add_assoc, Bytes.range?_append_right]

/-- A match that starts behind `front` with its header does not look at
it. -/
theorem kernelHobAt_append_right (front back : Bytes) {i : Nat}
    (hi : 8 ≤ i) :
    kernelHobAt (front ++ back) (front.length + i) = kernelHobAt back i := by
  have hbase : front.length + i - 8 = front.length + (i - 8) := by omega
  have hwhole : 8 ≤ front.length + i := by omega
  simp only [kernelHobAt, hbase, Nat.add_assoc, Bytes.slice_append_right,
    u32At_append_right, hi, hwhole]

/-- The pages from `gpa` on, when they are all in the map. -/
theorem reassemblePages_eq_ok {pages : PageMap} {page : Nat → Page}
    {count gpa : Nat}
    (hpages : ∀ k < count, pages.get? (gpa + k * pageSize) = some (page k))
    (hbound : gpa + count * pageSize < 2 ^ 64) :
    reassemblePages pages count gpa =
      .ok ((List.range count).flatMap fun k => (page k).toList) := by
  induction count generalizing gpa page with
  | zero => rfl
  | succ count ih =>
      have hfirst : pages.get? gpa = some (page 0) := by
        simpa using hpages 0 (Nat.succ_pos count)
      have hnext : ¬ 2 ^ 64 ≤ gpa + pageSize := by
        rw [Nat.add_mul] at hbound
        omega
      have hrest : reassemblePages pages count (gpa + pageSize) =
          .ok ((List.range count).flatMap fun k => (page (k + 1)).toList) := by
        apply ih
        · intro k hk
          rw [← hpages (k + 1) (by omega)]
          congr 1
          ring
        · rw [Nat.add_mul] at hbound
          omega
      rw [reassemblePages, hfirst, okOr_some, ok_bind, if_neg hnext, hrest,
        ok_bind, List.range_succ_eq_map, List.flatMap_cons,
        List.flatMap_map]

/-- Pages in a row count towards the size of the map. -/
theorem count_le_size {pages : PageMap} {base count : Nat}
    (hpages : ∀ k < count, (pages.get? (base + k * pageSize)).isSome) :
    count ≤ pages.size := by
  have hnodup : ((List.range count).map
      fun k => base + k * pageSize).Nodup := by
    apply List.nodup_range.map
    intro i j heq
    simp only [pageSize] at heq
    omega
  have hle := SortedMap.length_le_size hnodup (by
    intro key hkey
    obtain ⟨k, hk, rfl⟩ := List.mem_map.mp hkey
    exact hpages k (List.mem_range.mp hk))
  rwa [List.length_map, List.length_range] at hle

theorem reassemble_eq_ok {pages : PageMap} {addr length : Nat}
    (page : Nat → Page) (count : Nat)
    (hcount : count = (length + addr % pageSize + (pageSize - 1)) / pageSize)
    (havailable : length ≤ pages.size * pageSize % 2 ^ 64)
    (hpages : ∀ k < count,
      pages.get? (addr - addr % pageSize + k * pageSize) = some (page k))
    (hbound : addr - addr % pageSize + count * pageSize < 2 ^ 64) :
    reassemble pages addr length =
      .ok (Bytes.slice ((List.range count).flatMap fun k => (page k).toList)
        (addr % pageSize) length) := by
  have hskip : addr - (addr - addr % pageSize) = addr % pageSize :=
    Nat.sub_sub_self (Nat.mod_le addr pageSize)
  have hneeded : length + addr % pageSize ≤ count * pageSize := by
    rw [hcount]
    simp only [pageSize]
    omega
  have hrun := reassemblePages_eq_ok hpages hbound
  simp only [reassemble, hskip, ← hcount, hrun]
  rw [if_neg (by omega), if_neg (by omega)]
  rfl

/-- A blob whose first page is missing is not reassembled. -/
theorem reassemble_eq_error {pages : PageMap} {addr length : Nat}
    (hmissing : pages.get? (addr - addr % pageSize) = none)
    (hlength : 0 < length) : ∃ e, reassemble pages addr length = .error e := by
  have hcount : ∃ count,
      (length + (addr - (addr - addr % pageSize)) + (pageSize - 1)) /
        pageSize = count + 1 := by
    apply Nat.exists_eq_add_one.mpr
    simp only [pageSize]
    omega
  obtain ⟨count, hcount⟩ := hcount
  simp only [reassemble, hcount, reassemblePages, hmissing, okOr_none,
    error_bind]
  split
  · exact ⟨_, rfl⟩
  · split
    · exact ⟨_, rfl⟩
    · exact ⟨_, rfl⟩

end Igvm

end Kettle
