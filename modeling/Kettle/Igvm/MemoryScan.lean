/-
The runs of a page map read guest memory: a run that the scan goes through is
a stretch of memory, and the page at an address is found at its place in the
run that covers it.
-/
import Kettle.Igvm.GuestMemory
import Kettle.Igvm.KernelScan

namespace Kettle

namespace Igvm

namespace GuestMemory

def byte (mem : GuestMemory) (addr : Nat) : Option UInt8 :=
  (mem (addr - addr % pageSize)).bind fun page =>
    page.toList[addr % pageSize]?

/-- The bytes from `start` on are mapped and these. -/
def Reads (mem : GuestMemory) (start : Nat) (bytes : Bytes) : Prop :=
  ∀ k < bytes.length, mem.byte (start + k) = bytes[k]?

/-- The 0x30 bytes at `addr` pass for the HOB of a kernel. -/
def HasKernelHob (mem : GuestMemory) (addr : Nat) : Prop :=
  ∃ bytes : Bytes, bytes.length = 0x30 ∧ mem.Reads addr bytes ∧
    kernelHobAt bytes 8 ≠ none

theorem Reads.append {mem : GuestMemory} {start : Nat} {front back : Bytes}
    (hfront : mem.Reads start front)
    (hback : mem.Reads (start + front.length) back) :
    mem.Reads start (front ++ back) := by
  intro k hk
  by_cases hlt : k < front.length
  · rw [List.getElem?_append_left hlt]
    exact hfront k hlt
  · obtain ⟨rest, rfl⟩ := Nat.exists_eq_add_of_le (not_lt.mp hlt)
    rw [List.length_append] at hk
    rw [List.getElem?_append_right (by omega), Nat.add_sub_cancel_left,
      ← Nat.add_assoc]
    exact hback rest (by omega)

theorem Reads.middle {mem : GuestMemory} {start : Nat}
    {front mid back : Bytes} (hreads : mem.Reads start (front ++ mid ++ back)) :
    mem.Reads (start + front.length) mid := by
  intro k hk
  have hwhole := hreads (front.length + k) (by
    rw [List.length_append, List.length_append]
    omega)
  rw [Nat.add_assoc, hwhole, List.append_assoc,
    List.getElem?_append_right (by omega), Nat.add_sub_cancel_left,
    List.getElem?_append_left hk]

theorem reads_page {mem : GuestMemory} {gpa : Nat} {page : Page}
    (haligned : gpa % pageSize = 0) (hpage : mem gpa = some page) :
    mem.Reads gpa page.toList := by
  intro k hk
  rw [List.Vector.toList_length] at hk
  have hoffset : (gpa + k) % pageSize = k := by
    simp only [pageSize] at haligned hk ⊢
    omega
  rw [byte, hoffset, Nat.add_sub_cancel, hpage, Option.bind_some]

/-- A match of the scan is a kernel HOB in memory. -/
theorem Reads.hasKernelHob {mem : GuestMemory} {start i : Nat}
    {bytes : Bytes} (hreads : mem.Reads start bytes)
    (hbound : i + 0x28 ≤ bytes.length)
    (hmatch : kernelHobAt bytes i ≠ none) :
    mem.HasKernelHob (start + (i - 8)) := by
  have hi := le_of_kernelHobAt_ne_none hmatch
  obtain ⟨front, mid, back, rfl, rfl, hmid⟩ : ∃ front mid back,
      bytes = front ++ (mid ++ back) ∧ i = front.length + 8 ∧
        mid.length = 0x30 := by
    refine ⟨bytes.take (i - 8), bytes.slice (i - 8) 0x30,
      bytes.drop (i - 8 + 0x30), ?_, ?_, Bytes.length_slice (by omega)⟩
    · rw [Bytes.slice, ← List.drop_drop, List.take_append_drop,
        List.take_append_drop]
    · rw [List.length_take]
      omega
  refine ⟨mid, hmid, ?_, ?_⟩
  · rw [← List.append_assoc] at hreads
    exact hreads.middle
  · rwa [kernelHobAt_append_right _ _ (Nat.le_refl 8),
      kernelHobAt_append_left _ _ (by omega)] at hmatch

end GuestMemory

/-- The entries of a page map that are still to come, behind an open run. -/
structure OpenRun (mem : GuestMemory) (start : Nat) (cur : Bytes)
    (next : Nat) (entries : List (Nat × Page)) : Prop where
  reads : mem.Reads start cur
  next_eq : next = (start + cur.length) % 2 ^ 64
  above : ∀ entry ∈ entries, start + cur.length ≤ entry.1
  mapped : ∀ entry ∈ entries, mem entry.1 = some entry.2
  aligned : ∀ entry ∈ entries, entry.1 % pageSize = 0
  bound : ∀ entry ∈ entries, entry.1 < 2 ^ 64
  sorted : entries.Pairwise (fun left right => left.1 < right.1)

variable {mem : GuestMemory} {start next gpa : Nat} {cur : Bytes}
  {page : Page} {rest : List (Nat × Page)}

/-- The entries behind a page start where it ends, at the earliest. -/
theorem OpenRun.above_page
    (hopen : OpenRun mem start cur next ((gpa, page) :: rest)) :
    ∀ entry ∈ rest, gpa + pageSize ≤ entry.1 := by
  intro entry hentry
  have hlt : gpa < entry.1 :=
    (List.pairwise_cons.mp hopen.sorted).1 entry hentry
  have hgpa : gpa % pageSize = 0 :=
    hopen.aligned (gpa, page) List.mem_cons_self
  have haligned := hopen.aligned entry (List.mem_cons_of_mem _ hentry)
  simp only [pageSize] at hgpa haligned ⊢
  omega

theorem OpenRun.reads_page
    (hopen : OpenRun mem start cur next ((gpa, page) :: rest)) :
    mem.Reads gpa page.toList :=
  GuestMemory.reads_page (hopen.aligned (gpa, page) List.mem_cons_self)
    (hopen.mapped (gpa, page) List.mem_cons_self)

/-- The next page is the next page of the run only when it is adjacent. -/
theorem OpenRun.start_add_length
    (hopen : OpenRun mem start cur next ((gpa, page) :: rest))
    (hnext : gpa = next) : start + cur.length = gpa := by
  have habove : start + cur.length ≤ gpa :=
    hopen.above (gpa, page) List.mem_cons_self
  have hbound : gpa < 2 ^ 64 := hopen.bound (gpa, page) List.mem_cons_self
  rw [hnext, hopen.next_eq, Nat.mod_eq_of_lt (by omega)]

theorem OpenRun.extend
    (hopen : OpenRun mem start cur next ((gpa, page) :: rest))
    (hnext : gpa = next) :
    OpenRun mem start (cur ++ page.toList) ((gpa + pageSize) % 2 ^ 64)
      rest := by
  have hadjacent := hopen.start_add_length hnext
  have hlength : start + (cur ++ page.toList).length = gpa + pageSize := by
    rw [List.length_append, List.Vector.toList_length, ← Nat.add_assoc,
      hadjacent]
  constructor
  · apply hopen.reads.append
    rw [hadjacent]
    exact hopen.reads_page
  · rw [hlength]
  · rw [hlength]
    exact hopen.above_page
  · exact fun entry hentry => hopen.mapped entry (List.mem_cons_of_mem _ hentry)
  · exact fun entry hentry =>
      hopen.aligned entry (List.mem_cons_of_mem _ hentry)
  · exact fun entry hentry => hopen.bound entry (List.mem_cons_of_mem _ hentry)
  · exact (List.pairwise_cons.mp hopen.sorted).2

theorem OpenRun.restart
    (hopen : OpenRun mem start cur next ((gpa, page) :: rest)) :
    OpenRun mem gpa page.toList ((gpa + pageSize) % 2 ^ 64) rest := by
  constructor
  · exact hopen.reads_page
  · rw [List.Vector.toList_length]
  · rw [List.Vector.toList_length]
    exact hopen.above_page
  · exact fun entry hentry => hopen.mapped entry (List.mem_cons_of_mem _ hentry)
  · exact fun entry hentry =>
      hopen.aligned entry (List.mem_cons_of_mem _ hentry)
  · exact fun entry hentry => hopen.bound entry (List.mem_cons_of_mem _ hentry)
  · exact (List.pairwise_cons.mp hopen.sorted).2

/-- Every run reads memory. -/
theorem OpenRun.runs_read {entries : List (Nat × Page)}
    (hopen : OpenRun mem start cur next entries) :
    ∀ run ∈ runsFrom start cur next entries, mem.Reads run.1 run.2 := by
  induction entries generalizing start cur next with
  | nil =>
      intro run hrun
      rw [List.mem_singleton.mp hrun]
      exact hopen.reads
  | cons entry rest ih =>
      obtain ⟨gpa, page⟩ := entry
      intro run hrun
      unfold runsFrom at hrun
      split at hrun
      · rename_i hnext
        exact ih (hopen.extend hnext) run hrun
      · rcases List.mem_cons.mp hrun with rfl | hlater
        · exact hopen.reads
        · exact ih hopen.restart run hlater

/-- The run that covers a page has it at its place, and the runs before that
one end below it. -/
theorem OpenRun.locate {entries : List (Nat × Page)} {target : Nat}
    {page : Page} (hopen : OpenRun mem start cur next entries)
    (hmem : (target, page) ∈ entries) :
    ∃ before base front back after,
      runsFrom start cur next entries =
          before ++ (base, front ++ (page.toList ++ back)) :: after ∧
        base + front.length = target ∧
        ∀ run ∈ before, run.1 + run.2.length ≤ target := by
  induction entries generalizing start cur next with
  | nil => cases hmem
  | cons entry rest ih =>
      obtain ⟨gpa, first⟩ := entry
      have habove : start + cur.length ≤ target := hopen.above _ hmem
      rw [runsFrom]
      by_cases hnext : gpa = next
      · rw [if_pos hnext]
        rcases List.mem_cons.mp hmem with heq | hrest
        · obtain ⟨rfl, rfl⟩ := Prod.mk.inj heq
          obtain ⟨back, later, hruns⟩ := runsFrom_head start
            (cur ++ page.toList) ((target + pageSize) % 2 ^ 64) rest
          refine ⟨[], start, cur, back, later, ?_,
            hopen.start_add_length hnext, by simp⟩
          rw [hruns, List.append_assoc, List.nil_append]
        · exact ih (hopen.extend hnext) hrest
      · rw [if_neg hnext]
        rcases List.mem_cons.mp hmem with heq | hrest
        · obtain ⟨rfl, rfl⟩ := Prod.mk.inj heq
          obtain ⟨back, later, hruns⟩ := runsFrom_head target page.toList
            ((target + pageSize) % 2 ^ 64) rest
          refine ⟨[(start, cur)], target, [], back, later, ?_, rfl, ?_⟩
          · rw [hruns, List.nil_append, List.singleton_append]
          · intro run hrun
            rw [List.mem_singleton.mp hrun]
            exact habove
        · obtain ⟨before, base, front, back, after, hruns, hbase, hbefore⟩ :=
            ih hopen.restart hrest
          refine ⟨(start, cur) :: before, base, front, back, after, ?_, hbase,
            ?_⟩
          · rw [hruns, List.cons_append]
          · intro run hrun
            rcases List.mem_cons.mp hrun with rfl | hearlier
            · exact habove
            · exact hbefore run hearlier

/-- A page map that holds a guest memory, all pages at page addresses. -/
structure PageMap.Holds (pages : PageMap) (mem : GuestMemory) : Prop where
  get? : ∀ gpa, pages.get? gpa = mem gpa
  aligned : ∀ gpa page, mem gpa = some page →
    gpa % pageSize = 0 ∧ gpa < 2 ^ 64

/-- The first page of a map opens the first run. -/
theorem PageMap.Holds.openRun {pages : PageMap}
    (hholds : pages.Holds mem)
    (hentries : pages.entries = (gpa, page) :: rest) :
    OpenRun mem gpa page.toList ((gpa + pageSize) % 2 ^ 64) rest := by
  have hmapped : ∀ entry ∈ pages.entries, mem entry.1 = some entry.2 := by
    intro entry hentry
    rw [← hholds.get?]
    exact SortedMap.mem_entries_iff.mp hentry
  rw [hentries] at hmapped
  have hsorted := pages.sorted
  rw [hentries] at hsorted
  -- seen from an empty run that ends where the first page starts
  have hopen : OpenRun mem gpa [] (gpa % 2 ^ 64) ((gpa, page) :: rest) := by
    refine ⟨?_, rfl, ?_, hmapped, ?_, ?_, hsorted⟩
    · intro k hk
      cases hk
    · intro entry hentry
      rcases List.mem_cons.mp hentry with rfl | hrest
      · exact Nat.le_refl _
      · exact Nat.le_of_lt ((List.pairwise_cons.mp hsorted).1 entry hrest)
    · exact fun entry hentry =>
        (hholds.aligned entry.1 entry.2 (hmapped entry hentry)).1
    · exact fun entry hentry =>
        (hholds.aligned entry.1 entry.2 (hmapped entry hentry)).2
  exact hopen.restart

/-- A page whose kernel HOB has its GUID at offset `i`, whatever follows the
page, and no kernel HOB before it. -/
structure KernelHobPage (page : Page) (i : Nat) (blob : Nat × Nat) : Prop where
  header : 8 ≤ i
  inside : i + 0x30 ≤ pageSize
  first : ∀ back j, 8 ≤ j → j < i →
    kernelHobAt (page.toList ++ back) j = none
  found : ∀ back, kernelHobAt (page.toList ++ back) i = some blob

/-- The runs of a page map read memory; one of them covers the page, and the
runs before it end below. -/
theorem PageMap.Holds.locate {pages : PageMap} (hholds : pages.Holds mem)
    {target : Nat} (hpage : mem target = some page) :
    ∃ before base front back after,
      contiguousRuns pages =
          before ++ (base, front ++ (page.toList ++ back)) :: after ∧
        base + front.length = target ∧
        (∀ run ∈ before, run.1 + run.2.length ≤ target) ∧
        ∀ run ∈ contiguousRuns pages, mem.Reads run.1 run.2 := by
  have hget : pages.get? target = some page := by
    rw [hholds.get?, hpage]
  have hmem := SortedMap.mem_entries_iff.mpr hget
  obtain ⟨⟨gpa, opening⟩, rest, hentries⟩ :=
    List.exists_cons_of_ne_nil (List.ne_nil_of_mem hmem)
  have hopen := hholds.openRun hentries
  rw [contiguousRuns_of_cons hentries]
  rw [hentries] at hmem
  rcases List.mem_cons.mp hmem with heq | hrest
  · obtain ⟨rfl, rfl⟩ := Prod.mk.inj heq
    obtain ⟨back, later, hruns⟩ := runsFrom_head target page.toList
      ((target + pageSize) % 2 ^ 64) rest
    exact ⟨[], target, [], back, later, hruns, rfl, by simp,
      hopen.runs_read⟩
  · obtain ⟨before, base, front, back, after, hruns, hbase, hbefore⟩ :=
      hopen.locate hrest
    exact ⟨before, base, front, back, after, hruns, hbase, hbefore,
      hopen.runs_read⟩

/-- Where memory has no kernel HOB the scan finds none. -/
theorem GuestMemory.Reads.scanRun_eq_none {base target : Nat}
    {bytes : Bytes} (hreads : mem.Reads base bytes)
    (hend : base + bytes.length ≤ target)
    (hbelow : ∀ addr < target, ¬ mem.HasKernelHob addr) :
    scanRun bytes = none := by
  apply Igvm.scanRun_eq_none
  intro j hj
  by_contra hmatch
  have hheader := le_of_kernelHobAt_ne_none hmatch
  apply hbelow (base + (j - 8)) (by omega)
  exact hreads.hasKernelHob (by omega) hmatch

/-- In the run that covers the page, its kernel HOB is the first one. -/
theorem KernelHobPage.scanRun {i : Nat} {blob : Nat × Nat}
    (hhob : KernelHobPage page i blob) {base : Nat} {front back : Bytes}
    (hreads : mem.Reads base (front ++ (page.toList ++ back)))
    (hbelow : ∀ addr < base + front.length, ¬ mem.HasKernelHob addr) :
    scanRun (front ++ (page.toList ++ back)) = some blob := by
  have hlength : (front ++ (page.toList ++ back)).length =
      front.length + (pageSize + back.length) := by
    rw [List.length_append, List.length_append, List.Vector.toList_length]
  have hheader := hhob.header
  have hinside := hhob.inside
  have hbound : front.length + i + 0x30 ≤
      (front ++ (page.toList ++ back)).length := by
    omega
  apply scanRun_eq_of_first hbound
  · intro j hj
    by_contra hmatch
    have hj8 := le_of_kernelHobAt_ne_none hmatch
    by_cases hfront : j - 8 < front.length
    · apply hbelow (base + (j - 8)) (by omega)
      exact hreads.hasKernelHob (by omega) hmatch
    · obtain ⟨k, rfl⟩ := Nat.exists_eq_add_of_le
        (show front.length ≤ j by omega)
      apply hmatch
      rw [kernelHobAt_append_right _ _ (by omega)]
      exact hhob.first back k (by omega) (by omega)
  · rw [kernelHobAt_append_right _ _ hheader]
    exact hhob.found back

/-- The scan finds the first kernel HOB in address order. -/
theorem PageMap.Holds.findKernelBlob {pages : PageMap}
    (hholds : pages.Holds mem) {target i : Nat} {blob : Nat × Nat}
    (hpage : mem target = some page) (hhob : KernelHobPage page i blob)
    (hbelow : ∀ addr < target, ¬ mem.HasKernelHob addr) :
    findKernelBlob pages = .ok blob := by
  obtain ⟨before, base, front, back, after, hruns, rfl, hbefore, hreads⟩ :=
    hholds.locate hpage
  rw [hruns] at hreads
  have hearlier : before.findSome? (fun run => scanRun run.2) = none := by
    rw [List.findSome?_eq_none_iff]
    intro run hrun
    exact (hreads run (List.mem_append_left _ hrun)).scanRun_eq_none
      (hbefore run hrun) hbelow
  have hfound : scanRun (front ++ (page.toList ++ back)) = some blob :=
    hhob.scanRun
      (hreads _ (List.mem_append_right _ List.mem_cons_self)) hbelow
  rw [Igvm.findKernelBlob, hruns, List.findSome?_append, hearlier,
    Option.none_or, List.findSome?_cons, hfound]
  rfl

end Igvm

end Kettle
