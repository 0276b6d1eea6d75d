/-
The recovery of the kernel command line with its arithmetic checked: where an
addition or an index of the source can overflow, and where it cannot.
-/
import Kettle.Lib.Outcome
import Kettle.Igvm.PageMap

namespace Kettle

namespace Igvm

namespace Checked

open Outcome

/-- `buf.get(off..off + 4)`. -/
def u32At (buf : Bytes) (off : Nat) : Outcome String (Option Nat) := do
  let stop ← add64 off 4
  .ok ((buf.range? off stop).map Bytes.toNatLE)

def okOr {α : Type} (message : String) (found : Option α) :
    Outcome String α :=
  ofExcept (Kettle.okOr message found)

/-- The section loop, with `sec += 40` in every turn that goes on. -/
def findCmdlineSection (image : Bytes) : Nat → Nat → Outcome String String
  | 0, _ => .err "kernel UKI has no `.cmdline` section"
  | remaining + 1, sec => do
      let stop ← add64 sec 8
      let name ← okOr "truncated section table" (image.range? sec stop)
      if name = cmdlineName then
        let sizeAt ← add64 sec 16
        let sizeField ← u32At image sizeAt
        let size ← okOr "truncated section header" sizeField
        let ptrAt ← add64 sec 20
        let ptrField ← u32At image ptrAt
        let ptr ← okOr "truncated section header" ptrField
        let rawEnd ← add64 ptr size
        let raw ← okOr "`.cmdline` section out of bounds"
          (image.range? ptr rawEnd)
        .ok (sectionText raw)
      else
        let next ← add64 sec 40
        findCmdlineSection image remaining next

/-- `image.get(coff + at..coff + at + 2)`. -/
def u16At (buf : Bytes) (coff off : Nat) :
    Outcome String (Option Nat) := do
  let start ← add64 coff off
  let stop ← add64 coff (off + 2)
  .ok ((buf.range? start stop).map Bytes.toNatLE)

def parsePeHeaders (image : Bytes) : Outcome String String := do
  let peField ← u32At image 0x3c
  let peOff ← okOr "truncated DOS header" peField
  let peEnd ← add64 peOff 4
  if image.range? peOff peEnd ≠ some peSignature then
    .err "kernel blob is not a PE image (no PE signature)"
  else
    let coff ← add64 peOff 4
    let countField ← u16At image coff 2
    let numSections ← okOr "truncated COFF header" countField
    let optField ← u16At image coff 16
    let optSize ← okOr "truncated COFF header" optField
    let table ← add64 coff 20
    let sec ← add64 table optSize
    findCmdlineSection image numSections sec

def parsePeCmdline (image : Bytes) : Outcome String String :=
  if image.length < 0x40 then
    .err "kernel blob is not a PE image (no MZ header)"
  else do
    let magic ← index image 0 2
    if magic ≠ mzMagic then
      .err "kernel blob is not a PE image (no MZ header)"
    else parsePeHeaders image

theorem u32At_eq {buf : Bytes} {off : Nat} (hoff : off + 4 < 2 ^ 64) :
    u32At buf off = .ok (Igvm.u32At buf off) := by
  rw [u32At, add64_of_lt hoff, bind_ok]
  rfl

theorem u16At_eq {buf : Bytes} {coff off : Nat}
    (hoff : coff + (off + 2) < 2 ^ 64) :
    u16At buf coff off = .ok (Igvm.u16At buf (coff + off)) := by
  rw [u16At, add64_of_lt (by omega), bind_ok, add64_of_lt hoff, bind_ok]
  rfl

/-- A field of `width` bytes is below `256 ^ width`. -/
theorem field_lt {buf : Bytes} {off width n : Nat}
    (hat : (buf.range? off (off + width)).map Bytes.toNatLE = some n) :
    n < 256 ^ width := by
  unfold Bytes.range? at hat
  split at hat
  · rename_i hinside
    have hlt := Bytes.toNatLE_lt ((buf.drop off).take (off + width - off))
    have hlength : ((buf.drop off).take (off + width - off)).length =
        width := by
      rw [List.length_take, List.length_drop]
      omega
    rwa [hlength, Option.some.inj hat] at hlt
  · cases hat

theorem u32At_lt {buf : Bytes} {off n : Nat}
    (hat : Igvm.u32At buf off = some n) : n < 2 ^ 32 :=
  field_lt hat

theorem u16At_lt {buf : Bytes} {off n : Nat}
    (hat : Igvm.u16At buf off = some n) : n < 2 ^ 16 :=
  field_lt hat

/-- Sections that start far below the end of the machine's range are looked
at without overflow. -/
theorem findCmdlineSection_eq (image : Bytes) {remaining sec : Nat}
    (hsec : sec + 40 * remaining < 2 ^ 63) :
    findCmdlineSection image remaining sec =
      ofExcept (Igvm.findCmdlineSection image remaining sec) := by
  induction remaining generalizing sec with
  | zero => rfl
  | succ remaining ih =>
      unfold findCmdlineSection Igvm.findCmdlineSection
      rw [add64_of_lt (by omega), bind_ok, ofExcept_bind]
      cases hname : image.range? sec (sec + 8) with
      | none => rfl
      | some name =>
          simp only [okOr, okOr_some, ofExcept_ok, bind_ok]
          split
          · rw [add64_of_lt (by omega), bind_ok, u32At_eq (by omega), bind_ok,
              ofExcept_bind]
            cases hsize : Igvm.u32At image (sec + 16) with
            | none => rfl
            | some size =>
                simp only [okOr_some, ofExcept_ok, bind_ok]
                rw [add64_of_lt (by omega), bind_ok, u32At_eq (by omega),
                  bind_ok, ofExcept_bind]
                cases hptr : Igvm.u32At image (sec + 20) with
                | none => rfl
                | some ptr =>
                    have hptrlt := u32At_lt hptr
                    have hsizelt := u32At_lt hsize
                    simp only [okOr_some, ofExcept_ok, bind_ok]
                    rw [add64_of_lt (by omega), bind_ok, ofExcept_bind]
                    rfl
          · rw [add64_of_lt (by omega), bind_ok]
            exact ih (by omega)

theorem parsePeHeaders_eq (image : Bytes) :
    parsePeHeaders image = ofExcept (Igvm.parsePeHeaders image) := by
  unfold parsePeHeaders Igvm.parsePeHeaders
  rw [u32At_eq (by decide), bind_ok, ofExcept_bind]
  cases hpe : Igvm.u32At image 0x3c with
  | none => rfl
  | some peOff =>
      have hpelt := u32At_lt hpe
      simp only [okOr, okOr_some, ofExcept_ok, bind_ok]
      rw [add64_of_lt (by omega), bind_ok]
      by_cases hsig : image.range? peOff (peOff + 4) ≠ some peSignature
      · rw [if_pos hsig, if_pos hsig]
        rfl
      · rw [if_neg hsig, if_neg hsig, bind_ok, u16At_eq (by omega), bind_ok,
          ofExcept_bind]
        cases hcount : Igvm.u16At image (peOff + 4 + 2) with
        | none => rfl
        | some numSections =>
            have hcountlt := u16At_lt hcount
            simp only [okOr_some, ofExcept_ok, bind_ok]
            rw [u16At_eq (by omega), bind_ok, ofExcept_bind]
            cases hopt : Igvm.u16At image (peOff + 4 + 16) with
            | none => rfl
            | some optSize =>
                have hoptlt := u16At_lt hopt
                simp only [okOr_some, ofExcept_ok, bind_ok]
                rw [add64_of_lt (by omega), bind_ok, add64_of_lt (by omega),
                  bind_ok]
                exact findCmdlineSection_eq image (by omega)

/-- No image makes the PE parser overflow or leave the image: its offsets are
32-bit fields and at most 65535 sections of 40 bytes. -/
theorem parsePeCmdline_eq (image : Bytes) :
    parsePeCmdline image = ofExcept (Igvm.parsePeCmdline image) := by
  unfold parsePeCmdline Igvm.parsePeCmdline
  by_cases hshort : image.length < 0x40
  · rw [if_pos hshort, if_pos (Or.inl hshort)]
    rfl
  · rw [if_neg hshort, index_of_le (by decide) (by omega), bind_ok]
    have hmagic : image.slice 0 (2 - 0) = image.take 2 := rfl
    rw [hmagic]
    by_cases hmz : image.take 2 ≠ mzMagic
    · rw [if_pos hmz, if_pos (Or.inr hmz)]
      rfl
    · rw [if_neg hmz, if_neg (not_or.mpr ⟨hshort, hmz⟩)]
      exact parsePeHeaders_eq image

/-- `page[..n].copy_from_slice(&data[..n])` into a zeroed page, for the `n`
bytes that fit. -/
def zeroPaddedCopy (data : Bytes) : Outcome String Bytes := do
  let n := min data.length pageSize
  let target ← index (List.replicate pageSize 0) 0 n
  let source ← index data 0 n
  if target.length = source.length then
    .ok (source ++ List.replicate (pageSize - n) 0)
  else .panic

theorem zeroPaddedCopy_eq (data : Bytes) :
    zeroPaddedCopy data = .ok (data.zeroPad pageSize) := by
  have htarget : min data.length pageSize ≤
      (List.replicate pageSize (0 : UInt8)).length := by
    rw [List.length_replicate]
    omega
  have hlength : (Bytes.slice (List.replicate pageSize 0) 0
      (min data.length pageSize - 0)).length =
        (data.slice 0 (min data.length pageSize - 0)).length := by
    rw [Bytes.length_slice (by omega), Bytes.length_slice (by omega)]
  have hpad : data.slice 0 (min data.length pageSize - 0) ++
      List.replicate (pageSize - min data.length pageSize) 0 =
        data.zeroPad pageSize := by
    have hfront : data.slice 0 (min data.length pageSize - 0) =
        data.take pageSize := by
      rw [Bytes.slice, List.drop_zero, Nat.sub_zero, Nat.min_comm,
        ← List.take_take, List.take_length]
    have hcount : pageSize - min data.length pageSize =
        pageSize - data.length := by
      omega
    rw [hfront, hcount, Bytes.zeroPad]
  unfold zeroPaddedCopy
  dsimp only
  rw [index_of_le (Nat.zero_le _) htarget, bind_ok,
    index_of_le (Nat.zero_le _) (Nat.min_le_left _ _), bind_ok,
    if_pos hlength, hpad]

def recordPage (map : PageMap) :
    IgvmDirectiveHeader → Outcome String PageMap
  | .pageData page =>
      if page.data.isEmpty then .ok map
      else do
        let bytes ← zeroPaddedCopy page.data
        .ok (map.insert page.gpa.toNat (bytes.zeroPadVec pageSize))
  | _ => .ok map

def pageMap (igvm : IgvmFile) : Outcome String PageMap :=
  igvm.directives.foldlM recordPage .empty

theorem recordPage_eq (map : PageMap) (directive : IgvmDirectiveHeader) :
    recordPage map directive = .ok (Igvm.recordPage map directive) := by
  cases directive with
  | pageData page =>
      have hpad : (page.data.zeroPad pageSize).zeroPadVec pageSize =
          page.data.zeroPadVec pageSize :=
        Subtype.ext (Bytes.zeroPad_eq_self (Bytes.length_zeroPad _ _))
      simp only [recordPage, Igvm.recordPage]
      by_cases hempty : page.data.isEmpty
      · rw [if_pos hempty, if_pos hempty]
      · rw [if_neg hempty, if_neg hempty, zeroPaddedCopy_eq, bind_ok, hpad]
  | _ => rfl

/-- The page map copies within the bounds of every page. -/
theorem pageMap_eq (igvm : IgvmFile) :
    pageMap igvm = .ok (Igvm.pageMap igvm) := by
  suffices hfold : ∀ (directives : List IgvmDirectiveHeader) (map : PageMap),
      directives.foldlM recordPage map =
        .ok (directives.foldl Igvm.recordPage map) from
    hfold igvm.directives .empty
  intro directives
  induction directives with
  | nil => exact fun _ => rfl
  | cons directive rest ih =>
      intro map
      rw [List.foldlM_cons, recordPage_eq, bind_ok, ih, List.foldl_cons]

def runStep (scan : RunScan) (entry : Nat × Page) :
    Outcome String RunScan := do
  let curNext ← add64 entry.1 pageSize
  .ok { scan.open entry.1 with
    cur := (scan.open entry.1).cur ++ entry.2.toList
    curNext := curNext }

def contiguousRuns (pages : PageMap) :
    Outcome String (List (Nat × Bytes)) := do
  let scan ← pages.entries.foldlM runStep .initial
  .ok scan.finish

/-- No mapped page ends at the end of the address space. -/
def BelowTop (pages : PageMap) : Prop :=
  ∀ entry ∈ pages.entries, entry.1 + pageSize < 2 ^ 64

instance (pages : PageMap) : Decidable (BelowTop pages) :=
  inferInstanceAs (Decidable (∀ _ ∈ _, _))

theorem contiguousRuns_eq (pages : PageMap) :
    contiguousRuns pages =
      if BelowTop pages then .ok (Igvm.contiguousRuns pages)
      else .panic := by
  have hstep : runStep = fun scan entry =>
      if entry.1 + pageSize < 2 ^ 64 then .ok (scan.step entry)
      else .panic := by
    funext scan entry
    by_cases hfits : entry.1 + pageSize < 2 ^ 64
    · rw [if_pos hfits, runStep, add64_of_lt hfits, bind_ok, RunScan.step,
        Nat.mod_eq_of_lt hfits]
    · rw [if_neg hfits, runStep, add64, if_neg hfits, bind_panic]
  have hfold : pages.entries.foldlM runStep .initial =
      if BelowTop pages then
        .ok (pages.entries.foldl RunScan.step .initial)
      else .panic := by
    rw [hstep]
    exact foldlM_ite (fun entry : Nat × Page =>
      entry.1 + pageSize < 2 ^ 64) RunScan.step pages.entries .initial
  rw [contiguousRuns, hfold]
  by_cases hbelow : BelowTop pages
  · rw [if_pos hbelow, if_pos hbelow, bind_ok]
    rfl
  · rw [if_neg hbelow, if_neg hbelow, bind_panic]

/-- `bytes[start..start + 8]` as a `u64`, relative to `base`. -/
def u64Field (bytes : Bytes) (base off : Nat) : Outcome String Nat := do
  let start ← add64 base off
  let stop ← add64 base (off + 8)
  let field ← index bytes start stop
  .ok (Bytes.toNatLE field)

def kernelHobAt (bytes : Bytes) (i : Nat) :
    Outcome String (Option (Nat × Nat)) :=
  if 8 ≤ i then do
    let stop ← add64 i 16
    let found ← index bytes i stop
    if found = efiIgvmDataHobGuid then
      let base ← sub64 i 8
      let typeAt ← add64 base 0x28
      let dataType ← u32At bytes typeAt
      if dataType.getD 0 = hobDataTypeKernel then
        let address ← u64Field bytes base 0x18
        let length ← u64Field bytes base 0x20
        .ok (some (address, length))
      else .ok none
    else .ok none
  else .ok none

/-- `while i + 0x30 <= bytes.len()`, for at most `turns` turns. -/
def scanFrom (bytes : Bytes) : Nat → Nat → Outcome String (Option (Nat × Nat))
  | 0, _ => .ok none
  | turns + 1, i => do
      let stop ← add64 i 0x30
      if stop ≤ bytes.length then
        let found ← kernelHobAt bytes i
        match found with
        | some blob => .ok (some blob)
        | none =>
            let next ← add64 i 1
            scanFrom bytes turns next
      else .ok none

/-- The scan of one run; it ends before there are no more turns. -/
def scanRun (bytes : Bytes) : Outcome String (Option (Nat × Nat)) :=
  scanFrom bytes (bytes.length + 1) 0

/-- The runs in turn, up to the first with a kernel HOB. -/
def scanRuns : List (Nat × Bytes) → Outcome String (Nat × Nat)
  | [] => .err "no kernel HOB found in IGVM"
  | run :: rest => do
      let found ← scanRun run.2
      match found with
      | some blob => .ok blob
      | none => scanRuns rest

def findKernelBlob (pages : PageMap) : Outcome String (Nat × Nat) := do
  let runs ← contiguousRuns pages
  scanRuns runs

theorem u64Field_eq {bytes : Bytes} {base off : Nat}
    (hbase : base + (off + 8) ≤ bytes.length)
    (hlength : bytes.length < 2 ^ 64) :
    u64Field bytes base off =
      .ok (Bytes.toNatLE (bytes.slice (base + off) 8)) := by
  have hcount : base + (off + 8) - (base + off) = 8 := by omega
  rw [u64Field, add64_of_lt (by omega), bind_ok, add64_of_lt (by omega),
    bind_ok, index_of_le (by omega) hbase, bind_ok, hcount]

/-- Within a turn of the scan every field of the HOB is inside the run. -/
theorem kernelHobAt_eq {bytes : Bytes} {i : Nat}
    (hi : i + 0x30 ≤ bytes.length) (hlength : bytes.length < 2 ^ 64) :
    kernelHobAt bytes i = .ok (Igvm.kernelHobAt bytes i) := by
  unfold kernelHobAt Igvm.kernelHobAt
  by_cases hafter : 8 ≤ i
  · have hcount : i + 16 - i = 16 := by omega
    rw [if_pos hafter, add64_of_lt (by omega), bind_ok,
      index_of_le (by omega) (by omega), bind_ok, hcount]
    by_cases hguid : bytes.slice i 16 = efiIgvmDataHobGuid
    · rw [if_pos hguid, if_pos ⟨hafter, hguid⟩, sub64_of_le hafter, bind_ok,
        add64_of_lt (by omega), bind_ok, u32At_eq (by omega), bind_ok]
      dsimp only
      split
      · rw [u64Field_eq (by omega) hlength, bind_ok,
          u64Field_eq (by omega) hlength, bind_ok]
      · rfl
    · rw [if_neg hguid, if_neg fun h => hguid h.2]
  · rw [if_neg hafter, if_neg fun h => hafter h.1]

/-- The scan from `i` on, with turns enough to reach the end. -/
theorem scanFrom_eq {bytes : Bytes} (hlength : bytes.length + 0x30 < 2 ^ 64)
    {turns i : Nat} (hturns : turns + i = bytes.length + 1) :
    scanFrom bytes turns i =
      .ok ((List.range' i (bytes.length + 1 - 0x30 - i)).findSome?
        (Igvm.kernelHobAt bytes)) := by
  induction turns generalizing i with
  | zero =>
      have hnone : bytes.length + 1 - 0x30 - i = 0 := by omega
      rw [hnone]
      rfl
  | succ turns ih =>
      by_cases hin : i + 0x30 ≤ bytes.length
      · have hcount : bytes.length + 1 - 0x30 - i =
            bytes.length + 1 - 0x30 - (i + 1) + 1 := by
          omega
        rw [scanFrom, add64_of_lt (by omega), bind_ok, if_pos hin,
          kernelHobAt_eq hin (by omega), bind_ok, hcount, List.range'_succ,
          List.findSome?_cons]
        cases Igvm.kernelHobAt bytes i with
        | some blob => rfl
        | none =>
            dsimp only
            rw [add64_of_lt (by omega), bind_ok]
            exact ih (by omega)
      · have hnone : bytes.length + 1 - 0x30 - i = 0 := by omega
        rw [scanFrom, add64_of_lt (by omega), bind_ok, if_neg hin, hnone]
        rfl

theorem scanRun_eq {bytes : Bytes} (hlength : bytes.length + 0x30 < 2 ^ 64) :
    scanRun bytes = .ok (Igvm.scanRun bytes) := by
  have hscan := @scanFrom_eq bytes hlength _ 0
    (Nat.add_zero (bytes.length + 1))
  rw [scanRun, hscan, Nat.sub_zero, Igvm.scanRun, List.range_eq_range']

theorem scanRuns_eq {runs : List (Nat × Bytes)}
    (hruns : ∀ run ∈ runs, run.2.length + 0x30 < 2 ^ 64) :
    scanRuns runs =
      ofExcept (Kettle.okOr "no kernel HOB found in IGVM"
        (runs.findSome? fun run => Igvm.scanRun run.2)) := by
  induction runs with
  | nil => rfl
  | cons run rest ih =>
      rw [scanRuns, scanRun_eq (hruns run List.mem_cons_self), bind_ok,
        List.findSome?_cons]
      cases Igvm.scanRun run.2 with
      | some blob => rfl
      | none => exact ih fun r hr => hruns r (List.mem_cons_of_mem run hr)

/-- The bytes that a scan holds, in its current run and in every closed one,
are at most `bound`. -/
def RunsBounded (scan : RunScan) (bound : Nat) : Prop :=
  scan.cur.length ≤ bound ∧ ∀ run ∈ scan.runs, run.2.length ≤ bound

theorem RunsBounded.step {scan : RunScan} {bound : Nat}
    (hbounded : RunsBounded scan bound) (entry : Nat × Page) :
    RunsBounded (scan.step entry) (bound + pageSize) := by
  obtain ⟨hcur, hruns⟩ := hbounded
  have hopen : RunsBounded (scan.open entry.1) bound := by
    unfold RunScan.open
    split
    · exact ⟨hcur, hruns⟩
    · split
      · exact ⟨hcur, hruns⟩
      · refine ⟨Nat.zero_le _, fun run hrun => ?_⟩
        rcases List.mem_append.mp hrun with hold | hnew
        · exact hruns run hold
        · rw [List.mem_singleton.mp hnew]
          exact hcur
  constructor
  · have hle := hopen.1
    simp only [RunScan.step, List.length_append, List.Vector.toList_length]
    omega
  · intro run hrun
    simp only [RunScan.step] at hrun
    have hle := hopen.2 run hrun
    omega

theorem RunsBounded.foldl {scan : RunScan} {bound : Nat}
    (hbounded : RunsBounded scan bound) (entries : List (Nat × Page)) :
    RunsBounded (entries.foldl RunScan.step scan)
      (bound + entries.length * pageSize) := by
  induction entries generalizing scan bound with
  | nil => simpa using hbounded
  | cons entry entries ih =>
      have hcount : bound + (entries.length + 1) * pageSize =
          bound + pageSize + entries.length * pageSize := by
        rw [Nat.add_mul, Nat.one_mul]
        omega
      rw [List.foldl_cons, List.length_cons, hcount]
      exact ih (hbounded.step entry)

/-- A run is not longer than the pages it is made of. -/
theorem length_le_of_mem_contiguousRuns {pages : PageMap}
    {run : Nat × Bytes} (hrun : run ∈ Igvm.contiguousRuns pages) :
    run.2.length ≤ pages.size * pageSize := by
  have hinitial : RunsBounded .initial 0 :=
    ⟨Nat.zero_le _, fun run hrun => by cases hrun⟩
  obtain ⟨hcur, hruns⟩ := hinitial.foldl pages.entries
  rw [Nat.zero_add] at hcur hruns
  rw [Igvm.contiguousRuns, RunScan.finish] at hrun
  split at hrun
  · exact hruns run hrun
  · rcases List.mem_append.mp hrun with hold | hnew
    · exact hruns run hold
    · rw [List.mem_singleton.mp hnew]
      exact hcur

/-- Aligned pages below the top are at most all of them but one. -/
theorem size_lt_of_belowTop {pages : PageMap} (hbelow : BelowTop pages)
    (haligned : ∀ entry ∈ pages.entries, entry.1 % pageSize = 0) :
    pages.size * pageSize + pageSize ≤ 2 ^ 64 := by
  have hnodup : (pages.entries.map fun entry =>
      entry.1 / pageSize).Nodup := by
    rw [List.nodup_iff_pairwise_ne, List.pairwise_map]
    refine pages.sorted.imp_of_mem ?_
    intro a b ha hb hlt heq
    have haligna := haligned a ha
    have halignb := haligned b hb
    rw [pageSize] at haligna halignb heq
    omega
  have hsubset : (pages.entries.map fun entry => entry.1 / pageSize) ⊆
      List.range (2 ^ 52 - 1) := by
    intro key hkey
    obtain ⟨entry, hentry, rfl⟩ := List.mem_map.mp hkey
    have hfits := hbelow entry hentry
    have halign := haligned entry hentry
    rw [List.mem_range]
    rw [pageSize] at hfits halign ⊢
    omega
  have hle := (List.subperm_of_subset hnodup hsubset).length_le
  rw [List.length_map, List.length_range] at hle
  rw [SortedMap.size, pageSize]
  omega

/-- The search for the kernel HOB panics at a page at the top, and nowhere
else. -/
theorem findKernelBlob_eq {pages : PageMap}
    (haligned : ∀ entry ∈ pages.entries, entry.1 % pageSize = 0) :
    findKernelBlob pages =
      if BelowTop pages then ofExcept (Igvm.findKernelBlob pages)
      else .panic := by
  rw [findKernelBlob, contiguousRuns_eq]
  by_cases hbelow : BelowTop pages
  · rw [if_pos hbelow, if_pos hbelow, bind_ok]
    refine scanRuns_eq fun run hrun => ?_
    have hlength := length_le_of_mem_contiguousRuns hrun
    have hsize := size_lt_of_belowTop hbelow haligned
    rw [pageSize] at hlength hsize
    omega
  · rw [if_neg hbelow, if_neg hbelow, bind_panic]

def reassemble (pages : PageMap) (addr length : Nat) :
    Outcome String Bytes := do
  let available ← mul64 pages.size pageSize
  if available < length then
    .err s!"kernel blob length {length} exceeds available measured page bytes {available}"
  else
    let gpa := addr - addr % pageSize
    let skip ← sub64 addr gpa
    -- `length.checked_add(skip)`
    if 2 ^ 64 ≤ length + skip then
      .err "kernel blob address + length overflows"
    else
      let out ← ofExcept (reassemblePages pages
        ((length + skip + (pageSize - 1)) / pageSize) gpa)
      let stop ← add64 skip length
      index out skip stop

theorem length_reassemblePages {pages : PageMap} {count gpa : Nat}
    {out : Bytes} (hout : reassemblePages pages count gpa = .ok out) :
    out.length = count * pageSize := by
  induction count generalizing gpa out with
  | zero =>
      cases hout
      rw [Nat.zero_mul]
      rfl
  | succ count ih =>
      rw [reassemblePages, bind_eq_ok_iff] at hout
      obtain ⟨page, -, hout⟩ := hout
      split at hout
      · cases hout
      · obtain ⟨rest, hrest, hout⟩ := bind_eq_ok_iff.mp hout
        cases hout
        rw [List.length_append, ih hrest, List.Vector.toList_length,
          Nat.add_mul, Nat.one_mul, Nat.add_comm]

/-- Reassembling stays inside the pages it has read, whatever the HOB says. -/
theorem reassemble_eq {pages : PageMap} (addr length : Nat)
    (hsize : pages.size * pageSize < 2 ^ 64) :
    reassemble pages addr length =
      ofExcept (Igvm.reassemble pages addr length) := by
  unfold reassemble Igvm.reassemble
  have hgpa : addr - addr % pageSize ≤ addr := Nat.sub_le _ _
  rw [mul64_of_lt hsize, bind_ok, Nat.mod_eq_of_lt hsize]
  by_cases havailable : pages.size * pageSize < length
  · simp only [if_pos havailable, ofExcept_error]
  · simp only [if_neg havailable, sub64_of_le hgpa, bind_ok]
    generalize addr - (addr - addr % pageSize) = skip
    by_cases hneeded : 2 ^ 64 ≤ length + skip
    · simp only [if_pos hneeded, ofExcept_error]
    · simp only [if_neg hneeded, ofExcept_bind]
      cases hout : reassemblePages pages
          ((length + skip + (pageSize - 1)) / pageSize)
          (addr - addr % pageSize) with
      | error message => rfl
      | ok out =>
          have hlength := length_reassemblePages hout
          have hinside : skip + length ≤ out.length := by
            rw [hlength, pageSize]
            omega
          have hcount : skip + length - skip = length := by omega
          simp only [ofExcept_ok, bind_ok]
          rw [add64_of_lt (by omega), bind_ok,
            index_of_le (by omega) hinside, hcount]

def kernelCmdline (igvm : IgvmFile) : Outcome String String := do
  let pages ← pageMap igvm
  let blob ← findKernelBlob pages
  let uki ← reassemble pages blob.1 blob.2
  parsePeCmdline uki

/-- With page-aligned addresses, the recovery panics exactly where a page ends
at the end of the address space; elsewhere it is the pure one. -/
theorem kernelCmdline_eq {igvm : IgvmFile}
    (haligned : ∀ entry ∈ (Igvm.pageMap igvm).entries,
      entry.1 % pageSize = 0) :
    kernelCmdline igvm =
      if BelowTop (Igvm.pageMap igvm) then ofExcept (Igvm.kernelCmdline igvm)
      else .panic := by
  rw [kernelCmdline, pageMap_eq, bind_ok, findKernelBlob_eq haligned]
  by_cases hbelow : BelowTop (Igvm.pageMap igvm)
  · have hsize := size_lt_of_belowTop hbelow haligned
    rw [if_pos hbelow, if_pos hbelow, Igvm.kernelCmdline]
    simp only [ofExcept_bind]
    cases Igvm.findKernelBlob (Igvm.pageMap igvm) with
    | error message => rfl
    | ok blob =>
        simp only [ofExcept_ok, bind_ok, parsePeCmdline_eq]
        rw [reassemble_eq blob.1 blob.2 (by
          rw [pageSize] at hsize ⊢
          omega)]
  · rw [if_neg hbelow, if_neg hbelow, bind_panic]

end Checked

end Igvm

end Kettle
