/-
A page that the SNP launch never loads can carry a HOB and a UKI of its own,
and the extraction takes its command line.
-/
import Kettle.Igvm.CmdlineBinding
import Kettle.Igvm.Hob
import Kettle.Igvm.KernelScan

namespace Kettle

namespace Igvm

/-- The smallest UKI the PE reader accepts: one section header, whose section
starts at 0x80. -/
def tinyUki (cmdline : Bytes) : Bytes :=
  mzMagic ++ List.replicate 0x3A 0 ++ Bytes.ofNatLE 4 0x40 ++
    peSignature ++ [0, 0] ++ Bytes.ofNatLE 2 1 ++ List.replicate 16 0 ++
    cmdlineName ++ List.replicate 8 0 ++ Bytes.ofNatLE 4 cmdline.length ++
    Bytes.ofNatLE 4 0x80 ++ List.replicate 16 0 ++ cmdline

/-- A kernel HOB and, right behind it, the UKI it points to. -/
def kernelPageData (gpa : Nat) (cmdline : Bytes) : Bytes :=
  (EfiIgvmDataHob.new (gpa + 0x30) (tinyUki cmdline).length .kernel).asBytes ++
    tinyUki cmdline

/-- A page at address 0 with the given compatibility mask. -/
def forgedPage (compatibilityMask : UInt32) (cmdline : Bytes) : PageData where
  gpa := 0
  compatibilityMask := compatibilityMask
  flags := {}
  dataType := .normal
  data := kernelPageData 0 cmdline

/-- `b"roothash=0"` and `b"roothash=1"`. -/
def cmdlineBytes (digit : UInt8) : Bytes :=
  [0x72, 0x6F, 0x6F, 0x74, 0x68, 0x61, 0x73, 0x68, 0x3D, digit]

theorem length_tinyUki (cmdline : Bytes) :
    (tinyUki cmdline).length = 0x80 + cmdline.length := by
  simp [tinyUki, mzMagic, peSignature, cmdlineName]
  omega

theorem length_kernelPageData (gpa : Nat) (cmdline : Bytes) :
    (kernelPageData gpa cmdline).length = 0xb0 + cmdline.length := by
  rw [kernelPageData, List.length_append, EfiIgvmDataHob.length_asBytes,
    length_tinyUki]
  omega

theorem zeroPad_kernelPageData {gpa : Nat} {cmdline : Bytes}
    (hlen : cmdline.length ≤ 0x100) :
    Bytes.zeroPad pageSize (kernelPageData gpa cmdline) =
      kernelPageData gpa cmdline ++
        List.replicate (pageSize - (kernelPageData gpa cmdline).length) 0 := by
  apply Bytes.zeroPad_of_length_le
  rw [length_kernelPageData, pageSize]
  omega

/-- The first HOB of a kernel page is at its start. -/
theorem scanRun_kernelPageData {gpa : Nat} {cmdline : Bytes} (back : Bytes)
    (hgpa : gpa < 2 ^ 32) (hlen : cmdline.length ≤ 0x100) :
    scanRun (Bytes.zeroPad pageSize (kernelPageData gpa cmdline) ++ back) =
      some (gpa + 0x30, (tinyUki cmdline).length) := by
  have huki := length_tinyUki cmdline
  have hbound : 8 + 0x30 ≤ (Bytes.zeroPad pageSize
      (kernelPageData gpa cmdline) ++ back).length := by
    rw [List.length_append, Bytes.length_zeroPad, pageSize]
    omega
  have hbefore : ∀ i < 8, kernelHobAt (Bytes.zeroPad pageSize
      (kernelPageData gpa cmdline) ++ back) i = none := by
    intro i hi
    have hheader : ¬ 8 ≤ i := Nat.not_le.mpr hi
    simp [kernelHobAt, hheader]
  have hat : kernelHobAt (Bytes.zeroPad pageSize
      (kernelPageData gpa cmdline) ++ back) 8 =
        some (gpa + 0x30, (tinyUki cmdline).length) := by
    rw [zeroPad_kernelPageData hlen, kernelPageData, List.append_assoc,
      List.append_assoc, kernelHobAt_append_left _ _ (by simp),
      EfiIgvmDataHob.kernelHobAt_asBytes]
    simp only [EfiIgvmDataHob.new, if_true]
    rw [Nat.mod_eq_of_lt (by omega), Nat.mod_eq_of_lt (by omega)]
  exact scanRun_eq_of_first hbound hbefore hat

theorem findKernelBlob_kernelPageData {pages : PageMap} {gpa : Nat}
    {cmdline : Bytes} {upper : List (Nat × Page)}
    (hentries : pages.entries =
      (gpa, (kernelPageData gpa cmdline).zeroPadVec pageSize) :: upper)
    (hgpa : gpa < 2 ^ 32) (hlen : cmdline.length ≤ 0x100) :
    findKernelBlob pages = .ok (gpa + 0x30, (tinyUki cmdline).length) := by
  obtain ⟨back, later, hruns⟩ := runsFrom_head gpa
    (Bytes.zeroPad pageSize (kernelPageData gpa cmdline))
    ((gpa + pageSize) % 2 ^ 64) upper
  rw [findKernelBlob, contiguousRuns_of_cons hentries,
    Bytes.zeroPadVec_toList, hruns, List.findSome?_cons,
    scanRun_kernelPageData back hgpa hlen]
  rfl

/-- The UKI follows the HOB in the one page. -/
theorem reassemble_kernelPageData {pages : PageMap} {gpa : Nat}
    {cmdline : Bytes}
    (hfirst : pages.get? gpa =
      some ((kernelPageData gpa cmdline).zeroPadVec pageSize))
    (haligned : gpa % pageSize = 0) (hgpa : gpa < 2 ^ 32)
    (hlen : cmdline.length ≤ 0x100) (hpos : 1 ≤ pages.size)
    (hsize : pages.size * pageSize < 2 ^ 64) :
    reassemble pages (gpa + 0x30) (tinyUki cmdline).length =
      .ok (tinyUki cmdline) := by
  have huki := length_tinyUki cmdline
  have hskip : (gpa + 0x30) % pageSize = 0x30 := by
    simp only [pageSize] at haligned ⊢
    omega
  have hcount : 1 = ((tinyUki cmdline).length + (gpa + 0x30) % pageSize +
      (pageSize - 1)) / pageSize := by
    rw [hskip]
    simp only [pageSize]
    omega
  have havailable : (tinyUki cmdline).length ≤
      pages.size * pageSize % 2 ^ 64 := by
    rw [Nat.mod_eq_of_lt hsize]
    simp only [pageSize]
    omega
  have hrun := reassemble_eq_ok
    (fun _ => (kernelPageData gpa cmdline).zeroPadVec pageSize) 1 hcount
    havailable (by
      intro k hk
      obtain rfl : k = 0 := by omega
      rw [hskip, Nat.add_sub_cancel, Nat.zero_mul]
      exact hfirst) (by simp only [pageSize]; omega)
  rw [hrun]
  congr 1
  have hwhole : (List.range 1).flatMap (fun _ =>
      ((kernelPageData gpa cmdline).zeroPadVec pageSize).toList) =
        Bytes.zeroPad pageSize (kernelPageData gpa cmdline) := by
    simp [List.range_succ]
  have hbehind : 0x30 = (EfiIgvmDataHob.new (gpa + 0x30)
      (tinyUki cmdline).length .kernel).asBytes.length + 0 := by
    simp
  rw [hwhole, zeroPad_kernelPageData hlen, hskip, hbehind, kernelPageData,
    List.append_assoc, Bytes.slice_append_right]
  simp [Bytes.slice]

/-- A map that starts with a kernel page yields its UKI. -/
theorem extract_kernelPageData {pages : PageMap} {gpa : Nat}
    {cmdline : Bytes} {upper : List (Nat × Page)}
    (hentries : pages.entries =
      (gpa, (kernelPageData gpa cmdline).zeroPadVec pageSize) :: upper)
    (haligned : gpa % pageSize = 0) (hgpa : gpa < 2 ^ 32)
    (hlen : cmdline.length ≤ 0x100)
    (hsize : pages.size * pageSize < 2 ^ 64) :
    findKernelBlob pages = .ok (gpa + 0x30, (tinyUki cmdline).length) ∧
      reassemble pages (gpa + 0x30) (tinyUki cmdline).length =
        .ok (tinyUki cmdline) := by
  have hfirst : pages.get? gpa =
      some ((kernelPageData gpa cmdline).zeroPadVec pageSize) := by
    rw [← SortedMap.mem_entries_iff, hentries]
    exact List.mem_cons_self
  have hpos : 1 ≤ pages.size := by
    rw [SortedMap.size, hentries]
    simp
  exact ⟨findKernelBlob_kernelPageData hentries hgpa hlen,
    reassemble_kernelPageData hfirst haligned hgpa hlen hpos hsize⟩

/-- The file with one more PageData at its end. -/
def IgvmFile.appendPage (igvm : IgvmFile) (page : PageData) : IgvmFile :=
  { igvm with directives := igvm.directives ++ [.pageData page] }

theorem measureDirectives_append_ignored {sha384 : Bytes → Digest384}
    {snpCompat : UInt32} {paramAreas : UInt32 → Option UInt64}
    {page : PageData} (hmask : page.compatibilityMask &&& snpCompat = 0)
    (dirIdx : Nat) (state : MeasureState)
    (directives : List IgvmDirectiveHeader) :
    measureDirectives sha384 snpCompat paramAreas dirIdx state
        (directives ++ [.pageData page]) =
      measureDirectives sha384 snpCompat paramAreas dirIdx state
        directives := by
  induction directives generalizing dirIdx state with
  | nil => simp [measureDirectives, measureDirective, hmask]
  | cons directive rest ih =>
      rw [List.cons_append, measureDirectives, measureDirectives]
      congr 1
      funext next
      exact ih (dirIdx + 1) next

/-- A page whose mask leaves SNP out does not change the measurement. -/
theorem measureSnp_appendPage_ignored (sha384 : Bytes → Digest384)
    {igvm : IgvmFile} {page : PageData}
    (hmask : page.compatibilityMask &&& igvm.snpCompat = 0) :
    measureSnp sha384 (igvm.appendPage page) = measureSnp sha384 igvm := by
  have hareas : collectParamAreas (igvm.appendPage page) =
      collectParamAreas igvm := by
    simp [collectParamAreas, IgvmFile.appendPage, recordParamArea]
  have hcompat : findSnpCompat (igvm.appendPage page) = findSnpCompat igvm :=
    rfl
  rw [measureSnp, measureSnp, hareas, hcompat]
  cases hfind : findSnpCompat igvm with
  | error message => rfl
  | ok snpCompat =>
      obtain ⟨-, hsnp⟩ := (findSnpCompat_ok_iff igvm snpCompat).mp hfind
      subst hsnp
      rw [ok_bind, ok_bind, IgvmFile.appendPage,
        measureDirectives_append_ignored hmask]

/-- Whatever the file, its command line becomes that of the forged page. -/
theorem kernelCmdline_appendPage_forged {igvm : IgvmFile} {cmdline : Bytes}
    (compatibilityMask : UInt32) (hlen : cmdline.length ≤ 0x100)
    (hsize : (igvm.directives.length + 1) * pageSize < 2 ^ 64) :
    kernelCmdline
        (igvm.appendPage (forgedPage compatibilityMask cmdline)) =
      parsePeCmdline (tinyUki cmdline) := by
  have hmap : pageMap
      (igvm.appendPage (forgedPage compatibilityMask cmdline)) =
        (pageMap igvm).insert 0
          ((kernelPageData 0 cmdline).zeroPadVec pageSize) := by
    simp [pageMap, IgvmFile.appendPage, recordPage, forgedPage,
      kernelPageData, EfiIgvmDataHob.asBytes, efiIgvmDataHobGuid]
  have hfirst : (pageMap (igvm.appendPage
      (forgedPage compatibilityMask cmdline))).get? 0 =
        some ((kernelPageData 0 cmdline).zeroPadVec pageSize) := by
    simp [hmap]
  obtain ⟨lower, upper, hentries, hlower, -⟩ :=
    SortedMap.entries_eq_of_get?_eq_some hfirst
  have hnil : lower = [] := by
    cases lower with
    | nil => rfl
    | cons entry rest =>
        exact absurd (hlower entry List.mem_cons_self) (Nat.not_lt_zero _)
  rw [hnil, List.nil_append] at hentries
  have hpages := pageMap_size_le
    (igvm.appendPage (forgedPage compatibilityMask cmdline))
  rw [IgvmFile.appendPage, List.length_append, List.length_singleton]
    at hpages
  obtain ⟨hfind, hreassemble⟩ := extract_kernelPageData hentries rfl
    (by decide) hlen (lt_of_le_of_lt (Nat.mul_le_mul_right _ hpages) hsize)
  rw [kernelCmdline, hfind, ok_bind, hreassemble, ok_bind]

theorem parsePeCmdline_roothash0 :
    parsePeCmdline (tinyUki (cmdlineBytes 0x30)) = .ok "roothash=0" := by
  decide +kernel

theorem parsePeCmdline_roothash1 :
    parsePeCmdline (tinyUki (cmdlineBytes 0x31)) = .ok "roothash=1" := by
  decide +kernel

theorem kernelCmdline_onePageFile {cmdline : Bytes}
    (hlen : cmdline.length ≤ 0x100) :
    kernelCmdline (onePageFile (kernelPageData 0x1000 cmdline)) =
      parsePeCmdline (tinyUki cmdline) := by
  have hentries :
      (pageMap (onePageFile (kernelPageData 0x1000 cmdline))).entries =
        [(0x1000, (kernelPageData 0x1000 cmdline).zeroPadVec pageSize)] := by
    simp [pageMap, onePageFile, recordPage, kernelPageData,
      EfiIgvmDataHob.asBytes, efiIgvmDataHobGuid, SortedMap.insert,
      SortedMap.insertEntry, SortedMap.empty]
  have hsize : (pageMap (onePageFile
      (kernelPageData 0x1000 cmdline))).size = 1 := by
    rw [SortedMap.size, hentries]
    rfl
  obtain ⟨hfind, hreassemble⟩ := extract_kernelPageData hentries rfl
    (by decide) hlen (by rw [hsize]; decide)
  rw [kernelCmdline, hfind, ok_bind, hreassemble, ok_bind]

/-- The launch digest fixes the command line of files whose page map is made
of measured NORMAL pages, with data in the same places.  It never does beyond
that: to every file there is one of the same digest that differs in a page
that SNP ignores and has another command line. -/
theorem kernelCmdline_eq_of_launchDigest_eq (sha384 : Bytes → Digest384) :
    (∀ (left right : IgvmFile) (leftResult rightResult : MeasureResult),
      HashChain.CollisionFreeOn sha384 zeros48
        (hashedInputs sha384 left ∪ hashedInputs sha384 right) →
      measureSnp sha384 left = .ok leftResult →
      measureSnp sha384 right = .ok rightResult →
      leftResult.launchDigest = rightResult.launchDigest →
      left.CmdlineMeasured → right.CmdlineMeasured →
      left.dataPresence = right.dataPresence →
        kernelCmdline left = kernelCmdline right) ∧
    (∀ (igvm : IgvmFile) (result : MeasureResult) (cmdline : String)
      (compatibilityMask : UInt32),
      measureSnp sha384 igvm = .ok result →
      kernelCmdline igvm = .ok cmdline →
      compatibilityMask &&& igvm.snpCompat = 0 →
      (igvm.directives.length + 1) * pageSize < 2 ^ 64 →
        ∃ page other, page.compatibilityMask = compatibilityMask ∧
          measureSnp sha384 (igvm.appendPage page) = .ok result ∧
          kernelCmdline (igvm.appendPage page) = .ok other ∧
          other ≠ cmdline) := by
  constructor
  · intro left right leftResult rightResult hfree hleft hright heq hleftMap
      hrightMap hdata
    have hsequence := measuredSequence_eq_of_digest_eq hleft hright hfree heq
    rw [kernelCmdline, kernelCmdline,
      pageMap_eq_of_measuredSequence_eq hsequence hleftMap hrightMap hdata]
  · intro igvm result cmdline compatibilityMask hmeasure hcmdline hmask hsize
    have hforge : ∀ digit other,
        parsePeCmdline (tinyUki (cmdlineBytes digit)) = .ok other →
        other ≠ cmdline → ∃ page other,
          page.compatibilityMask = compatibilityMask ∧
          measureSnp sha384 (igvm.appendPage page) = .ok result ∧
          kernelCmdline (igvm.appendPage page) = .ok other ∧
          other ≠ cmdline := by
      intro digit other hparse hne
      refine ⟨forgedPage compatibilityMask (cmdlineBytes digit), other, rfl,
        ?_, ?_, hne⟩
      · rw [measureSnp_appendPage_ignored sha384 hmask, hmeasure]
      · rw [kernelCmdline_appendPage_forged compatibilityMask
          (by simp [cmdlineBytes]) hsize, hparse]
    by_cases hzero : cmdline = "roothash=0"
    · exact hforge 0x31 "roothash=1" parsePeCmdline_roothash1
        (by rw [hzero]; decide)
    · exact hforge 0x30 "roothash=0" parsePeCmdline_roothash0 (Ne.symm hzero)

/-- One more zero behind the UKI changes the file and nothing that is
measured, so the command line stays. -/
theorem kernelCmdline_onePageFile_padded :
    kernelCmdline (onePageFile
      (kernelPageData 0x1000 (cmdlineBytes 0x30) ++ [0])) =
        .ok "roothash=0" := by
  have hmeasured : ∀ data, (onePageFile data).CmdlineMeasured := by
    intro data page hpage _
    have hmask : ¬ (3 &&& 2 : UInt32) = 0 := by decide
    obtain rfl : page = ⟨0x1000, 3, {}, .normal, data⟩ := by
      simpa [onePageFile] using hpage
    exact ⟨hmask, rfl⟩
  have hfour : (0x04 : UInt8) ≠ 0 := by decide
  have hlen : (kernelPageData 0x1000 (cmdlineBytes 0x30)).length <
      pageSize := by
    rw [length_kernelPageData]
    decide
  obtain ⟨-, hdigest, hfree⟩ := onePageFile_append_zero hfour rfl hlen
  rw [← (kernelCmdline_eq_of_launchDigest_eq prefixDigest).1 _ _ _ _ hfree
      (onePageFile_measureSnp prefixDigest _)
      (onePageFile_measureSnp prefixDigest _) hdigest.symm (hmeasured _)
      (hmeasured _) rfl, ← parsePeCmdline_roothash0]
  exact kernelCmdline_onePageFile (by decide)

/-- A NATIVE-only page at address 0 leaves the digest as it is and replaces
the measured command line. -/
theorem kernelCmdline_not_bound :
    ¬ ∀ (sha384 : Bytes → Digest384) (left right : IgvmFile)
      (leftResult rightResult : MeasureResult)
      (leftCmdline rightCmdline : String),
      HashChain.CollisionFreeOn sha384 zeros48
        (hashedInputs sha384 left ∪ hashedInputs sha384 right) →
      measureSnp sha384 left = .ok leftResult →
      measureSnp sha384 right = .ok rightResult →
      leftResult.launchDigest = rightResult.launchDigest →
      kernelCmdline left = .ok leftCmdline →
      kernelCmdline right = .ok rightCmdline →
        leftCmdline = rightCmdline := by
  intro hbound
  let left := onePageFile (kernelPageData 0x1000 (cmdlineBytes 0x30))
  let right := left.appendPage (forgedPage 1 (cmdlineBytes 0x31))
  have hleft : measureSnp prefixDigest left =
      .ok (measuredResult prefixDigest left) :=
    onePageFile_measureSnp prefixDigest _
  have hright : measureSnp prefixDigest right =
      .ok (measuredResult prefixDigest left) := by
    rw [← hleft]
    exact measureSnp_appendPage_ignored prefixDigest (by decide)
  have hsequence : measuredSequence right = measuredSequence left := by
    have hmask : ¬ (3 &&& 2 : UInt32) = 0 := by decide
    have hforged : (1 &&& 2 : UInt32) = 0 := by decide
    simp [measuredSequence, right, left, IgvmFile.appendPage, onePageFile,
      forgedPage, IgvmFile.snpCompat, vmsaPagesOf, Placement.placeAll,
      Placement.place, hmask, hforged]
  have hfree : HashChain.CollisionFreeOn prefixDigest zeros48
      (hashedInputs prefixDigest left ∪ hashedInputs prefixDigest right) := by
    have hinputs : hashedInputs prefixDigest right =
        hashedInputs prefixDigest left := by
      rw [hashedInputs, hashedInputs, hsequence]
    rw [hinputs, Set.union_self]
    have hfour : (0x04 : UInt8) ≠ 0 := by decide
    exact onePageFile_collisionFree hfour rfl
  have hleftCmdline : kernelCmdline left = .ok "roothash=0" := by
    rw [← parsePeCmdline_roothash0]
    exact kernelCmdline_onePageFile (by decide)
  have hrightCmdline : kernelCmdline right = .ok "roothash=1" := by
    rw [← parsePeCmdline_roothash1]
    exact kernelCmdline_appendPage_forged 1 (by decide) (by decide)
  have heq := hbound prefixDigest left right _ _ _ _ hfree hleft hright rfl
    hleftCmdline hrightCmdline
  exact absurd heq (by decide)

end Igvm

end Kettle
