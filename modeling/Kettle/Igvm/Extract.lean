/-
Recovering the kernel command line of an IGVM file: the page map, the scan for
the kernel HOB, the reassembly of the UKI and the `.cmdline` PE section.
-/
import Kettle.Igvm.File
import Kettle.Lib.Result
import Kettle.Lib.SortedMap
import Kettle.Lib.Utf8

namespace Kettle

namespace Igvm

def u32At (buf : Bytes) (off : Nat) : Option Nat :=
  (buf.range? off (off + 4)).map Bytes.toNatLE

def u16At (buf : Bytes) (off : Nat) : Option Nat :=
  (buf.range? off (off + 2)).map Bytes.toNatLE

/-- `b"MZ"`. -/
def mzMagic : Bytes := [0x4D, 0x5A]

/-- `b"PE\0\0"`. -/
def peSignature : Bytes := [0x50, 0x45, 0, 0]

/-- `b".cmdline"`. -/
def cmdlineName : Bytes := [0x2E, 0x63, 0x6D, 0x64, 0x6C, 0x69, 0x6E, 0x65]

/-- The text of a section: up to the first NUL, decoded and trimmed. -/
def sectionText (raw : Bytes) : String :=
  String.ofList (Utf8.trim (Utf8.fromUtf8Lossy (raw.takeWhile (· ≠ 0))))

/-- The section loop: `remaining` headers from offset `sec` on. -/
def findCmdlineSection (image : Bytes) : Nat → Nat → Except String String
  | 0, _ => .error "kernel UKI has no `.cmdline` section"
  | remaining + 1, sec => do
      let name ← okOr "truncated section table" (image.range? sec (sec + 8))
      if name = cmdlineName then
        let size ← okOr "truncated section header" (u32At image (sec + 16))
        let ptr ← okOr "truncated section header" (u32At image (sec + 20))
        let raw ← okOr "`.cmdline` section out of bounds"
          (image.range? ptr (ptr + size))
        .ok (sectionText raw)
      else findCmdlineSection image remaining (sec + 40)

/-- The headers after the MZ magic. -/
def parsePeHeaders (image : Bytes) : Except String String := do
  let peOff ← okOr "truncated DOS header" (u32At image 0x3c)
  if image.range? peOff (peOff + 4) ≠ some peSignature then
    .error "kernel blob is not a PE image (no PE signature)"
  else
    let coff := peOff + 4
    let numSections ← okOr "truncated COFF header" (u16At image (coff + 2))
    let optSize ← okOr "truncated COFF header" (u16At image (coff + 16))
    findCmdlineSection image numSections (coff + 20 + optSize)

def parsePeCmdline (image : Bytes) : Except String String :=
  if image.length < 0x40 ∨ image.take 2 ≠ mzMagic then
    .error "kernel blob is not a PE image (no MZ header)"
  else parsePeHeaders image

/-- `HOB_DATA_TYPE_KERNEL`. -/
def hobDataTypeKernel : Nat := 0x201

/-- `EFI_IGVM_DATA_HOB_GUID.to_bytes()`. -/
def efiIgvmDataHobGuid : Bytes :=
  [0xFF, 0x77, 0xD1, 0x3D, 0x32, 0xB6, 0x25, 0x4E,
    0xBE, 0xF3, 0x06, 0x50, 0x63, 0xD5, 0x5F, 0xC4]

/-- One 4096-byte page. -/
abbrev Page := ByteVec pageSize

/-- Pages by guest address, in address order. -/
abbrev PageMap := SortedMap Nat Page

/-- A later page at the same address replaces an earlier one. -/
def recordPage (map : PageMap) : IgvmDirectiveHeader → PageMap
  | .pageData page =>
      if page.data.isEmpty then map
      else map.insert page.gpa.toNat (page.data.zeroPadVec pageSize)
  | _ => map

def pageMap (igvm : IgvmFile) : PageMap :=
  igvm.directives.foldl recordPage .empty

/-- The loop state of `contiguous_runs`. -/
structure RunScan where
  runs : List (Nat × Bytes)
  curStart : Option Nat
  curNext : Nat
  cur : Bytes

def RunScan.initial : RunScan := ⟨[], none, 0, []⟩

/-- Push the current run and start the next one at `gpa`, unless the page
carries the current run on. -/
def RunScan.open (scan : RunScan) (gpa : Nat) : RunScan :=
  match scan.curStart with
  | none => { scan with curStart := some gpa }
  | some start =>
      if gpa = scan.curNext then scan
      else
        { scan with
          runs := scan.runs ++ [(start, scan.cur)]
          curStart := some gpa
          cur := [] }

def RunScan.step (scan : RunScan) (entry : Nat × Page) : RunScan :=
  { scan.open entry.1 with
    cur := (scan.open entry.1).cur ++ entry.2.toList
    curNext := (entry.1 + pageSize) % 2 ^ 64 }

def RunScan.finish (scan : RunScan) : List (Nat × Bytes) :=
  match scan.curStart with
  | none => scan.runs
  | some start => scan.runs ++ [(start, scan.cur)]

/-- Contiguous byte runs, each with its start address. -/
def contiguousRuns (pages : PageMap) : List (Nat × Bytes) :=
  (pages.entries.foldl RunScan.step .initial).finish

/-- The (address, length) of a kernel HOB whose GUID starts at byte `i`. -/
def kernelHobAt (bytes : Bytes) (i : Nat) : Option (Nat × Nat) :=
  if 8 ≤ i ∧ bytes.slice i 16 = efiIgvmDataHobGuid then
    let base := i - 8
    if (u32At bytes (base + 0x28)).getD 0 = hobDataTypeKernel then
      some (Bytes.toNatLE (bytes.slice (base + 0x18) 8),
        Bytes.toNatLE (bytes.slice (base + 0x20) 8))
    else none
  else none

/-- The scan of one run: `while i + 0x30 <= bytes.len()`. -/
def scanRun (bytes : Bytes) : Option (Nat × Nat) :=
  (List.range (bytes.length + 1 - 0x30)).findSome? (kernelHobAt bytes)

def findKernelBlob (pages : PageMap) : Except String (Nat × Nat) :=
  okOr "no kernel HOB found in IGVM"
    ((contiguousRuns pages).findSome? (fun run => scanRun run.2))

/-- `{n:#x}`. -/
def hexLiteral (n : Nat) : String :=
  "0x" ++ String.ofList (Nat.toDigits 16 n)

/-- The page loop of `reassemble`: `count` pages from address `gpa` on. -/
def reassemblePages (pages : PageMap) : Nat → Nat → Except String Bytes
  | 0, _ => .ok []
  | count + 1, gpa => do
      let page ← okOr
        s!"missing page at gpa {hexLiteral gpa} while reassembling kernel"
        (pages.get? gpa)
      if 2 ^ 64 ≤ gpa + pageSize then
        .error "guest address overflows while reassembling kernel"
      else
        let rest ← reassemblePages pages count (gpa + pageSize)
        .ok (page.toList ++ rest)

def reassemble (pages : PageMap) (addr length : Nat) :
    Except String Bytes :=
  let available := pages.size * pageSize % 2 ^ 64
  if available < length then
    .error s!"kernel blob length {length} exceeds available measured page bytes {available}"
  else
    let gpa := addr - addr % pageSize
    let skip := addr - gpa
    let needed := length + skip
    if 2 ^ 64 ≤ needed then
      .error "kernel blob address + length overflows"
    else do
      -- `while out.len() < needed`, a page a turn
      let out ←
        reassemblePages pages ((needed + (pageSize - 1)) / pageSize) gpa
      .ok (out.slice skip length)

def kernelCmdline (igvm : IgvmFile) : Except String String := do
  let pages := pageMap igvm
  let blob ← findKernelBlob pages
  let uki ← reassemble pages blob.1 blob.2
  parsePeCmdline uki

end Igvm

end Kettle
