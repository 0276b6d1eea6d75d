/-
The store paths that a streamed `nix build` prints.  Streaming changes the
ends of lines; the artifacts are the same as those of the printed bytes.
-/
import Kettle.Toolchain.Cargo
import Kettle.Toolchain.Nix
import Kettle.Toolchain.StreamCommand

namespace Kettle

namespace Toolchain

open Lines

section Trimmed

/-- The lines that are looked at: trimmed, and not empty. -/
def trimmedLines (lines : List (List Char)) : List (List Char) :=
  (lines.map Utf8.trim).filter (· ≠ [])

variable {host : Host} {artifactsDir : Path}

theorem storeBinDir_trim (host : Host) (files : FileSystem)
    (line : List Char) :
    storeBinDir host files (Utf8.trim line) = storeBinDir host files line := by
  unfold storeBinDir
  rw [Utf8.trim_trim]

theorem copyStorePaths_trimmedLines (lines : List (List Char))
    (files : FileSystem) :
    copyStorePaths host artifactsDir (trimmedLines lines) files =
      copyStorePaths host artifactsDir lines files := by
  induction lines generalizing files with
  | nil => rfl
  | cons line rest ih =>
      have hcons : trimmedLines (line :: rest) =
          if Utf8.trim line ≠ [] then Utf8.trim line :: trimmedLines rest
          else trimmedLines rest := by
        simp [trimmedLines, List.filter_cons]
      rw [hcons]
      split
      · simp only [copyStorePaths, storeBinDir_trim, ih]
      · rename_i hempty
        have hnone : storeBinDir host files line = none :=
          if_pos (not_not.mp hempty)
        rw [ih, copyStorePaths, hnone]

theorem copyStorePaths_congr {left right : List (List Char)}
    (hsame : trimmedLines left = trimmedLines right) (files : FileSystem) :
    copyStorePaths host artifactsDir left files =
      copyStorePaths host artifactsDir right files := by
  rw [← copyStorePaths_trimmedLines left, hsame, copyStorePaths_trimmedLines]

theorem trimmedLines_cons_congr {first other : List Char}
    {left right : List (List Char)}
    (hfirst : Utf8.trim first = Utf8.trim other)
    (hsame : trimmedLines left = trimmedLines right) :
    trimmedLines (first :: left) = trimmedLines (other :: right) := by
  unfold trimmedLines at hsame ⊢
  rw [List.map_cons, List.map_cons, hfirst, List.filter_cons,
    List.filter_cons, hsame]

end Trimmed

section Encoded

/-- The bytes of a text. -/
def encoded (chars : List Char) : Bytes :=
  chars.flatMap String.utf8EncodeChar

theorem fromUtf8_eq_some_iff_encoded {bytes : Bytes} {text : String} :
    fromUtf8 bytes = some text ↔ encoded text.toList = bytes := by
  rw [fromUtf8_eq_some_iff, Utf8.toUTF8_toList]
  rfl

theorem encoded_append (left right : List Char) :
    encoded (left ++ right) = encoded left ++ encoded right :=
  List.flatMap_append

theorem lineBytes_eq (line : String) :
    lineBytes line = encoded (line.toList ++ ['\n']) := by
  rw [encoded_append, lineBytes, Utf8.toUTF8_toList]
  rfl

theorem flatMap_lineBytes (lines : List String) :
    lines.flatMap lineBytes =
      encoded (lines.flatMap fun line => line.toList ++ ['\n']) := by
  induction lines with
  | nil => rfl
  | cons line rest ih =>
      rw [List.flatMap_cons, List.flatMap_cons, encoded_append, ih,
        lineBytes_eq]

theorem newline_notMem {chars : List Char} (hbytes : newline ∉ encoded chars) :
    '\n' ∉ chars := fun hmem =>
  hbytes (List.mem_flatMap.mpr ⟨'\n', hmem, List.mem_singleton.mpr rfl⟩)

theorem chomp_sublist (line : Bytes) : (chomp line).Sublist line := by
  unfold chomp
  split
  · exact List.dropLast_sublist line
  · exact List.Sublist.refl line

/-- A line is its text, perhaps with a carriage return. -/
theorem exists_encoded_of_chomp {line : Bytes} {text : String}
    (htext : fromUtf8 (chomp line) = some text) (hline : newline ∉ line) :
    ∃ chars, encoded chars = line ∧
      Utf8.trim chars = Utf8.trim text.toList ∧ '\n' ∉ text.toList := by
  rw [fromUtf8_eq_some_iff_encoded] at htext
  have hnewline : '\n' ∉ text.toList := newline_notMem
    (htext ▸ fun hmem => hline ((chomp_sublist line).subset hmem))
  unfold chomp at htext
  split at htext
  · rename_i hlast
    refine ⟨text.toList ++ ['\r'], ?_, Utf8.trim_concat (by decide) _,
      hnewline⟩
    rw [encoded_append, htext]
    exact List.dropLast_append_getLast? _ hlast
  · exact ⟨text.toList, htext, rfl, hnewline⟩

theorem splitOn_line {line rest : List Char} (hline : '\n' ∉ line) :
    (line ++ '\n' :: rest).splitOn '\n' = line :: rest.splitOn '\n' :=
  List.splitOn_append_cons_self_of_not_mem hline rest

/-- Lines that can be read are the lines of a text, up to white space at
their ends. -/
theorem exists_encoded_of_linesOf (written : Bytes) {lines : List String}
    (hlines : List.Forall₂ Decodes (linesOf written) lines) :
    ∃ raw, encoded raw = written ∧
      trimmedLines (raw.splitOn '\n') = trimmedLines
        ((lines.flatMap fun line => line.toList ++ ['\n']).splitOn '\n') := by
  induction hcount : written.length using Nat.strongRecOn
    generalizing written lines with
  | ind count ih =>
      by_cases hnewline : newline ∈ written
      · obtain ⟨front, rest, rfl, hfront⟩ :=
          List.eq_append_cons_of_mem hnewline
        rw [linesOf_append_newline hfront,
          List.forall₂_cons_left_iff] at hlines
        obtain ⟨text, later, htext, hlater, rfl⟩ := hlines
        obtain ⟨chars, rfl, htrim, hnone⟩ :=
          exists_encoded_of_chomp htext hfront
        obtain ⟨raw, rfl, hsame⟩ := ih rest.length
          (by rw [← hcount, List.length_append, List.length_cons]; omega)
          rest hlater rfl
        refine ⟨chars ++ '\n' :: raw, encoded_append _ _, ?_⟩
        rw [List.flatMap_cons, List.append_assoc, List.singleton_append,
          splitOn_line (newline_notMem hfront), splitOn_line hnone]
        exact trimmedLines_cons_congr htrim hsame
      · by_cases hempty : written = []
        · subst hempty
          cases hlines
          exact ⟨[], rfl, rfl⟩
        · rw [linesOf_of_notMem hnewline hempty,
            List.forall₂_cons_left_iff] at hlines
          obtain ⟨text, later, htext, hlater, rfl⟩ := hlines
          cases hlater
          have hencoded : encoded text.toList = written :=
            fromUtf8_eq_some_iff_encoded.mp htext
          have hnone : '\n' ∉ text.toList :=
            newline_notMem (hencoded ▸ hnewline)
          refine ⟨text.toList, hencoded, ?_⟩
          rw [List.flatMap_singleton, splitOn_line hnone,
            List.splitOn_eq_singleton hnone]
          exact trimmedLines_cons_congr rfl (by decide)

end Encoded

section Streamed

variable {start : EventSink} {run : StreamRun} {stdout : Bytes}

/-- What is returned on success are the lines that were printed. -/
theorem text_of_result (hinv : StreamInvariant start run)
    (hresult : run.result = some (.ok stdout)) :
    ∃ lines, List.Forall₂ Decodes (linesOf run.stdout.written) lines ∧
      stdout = lines.flatMap lineBytes := by
  obtain ⟨status, -, heq, -⟩ := hinv.result_eq hresult
  unfold streamResult at heq
  split at heq
  · cases heq
  · cases heq
  · rename_i lines _ hstdout _
    unfold LineReader.text linesText at hstdout
    split at hstdout
    · cases hstdout
    · refine ⟨lines, mapM_fromUtf8_eq_some_iff.mp hstdout, ?_⟩
      split at heq
      · exact Except.ok.inj heq
      · cases heq

/-- The artifacts of a build are those of the store paths that it printed,
however its output was cut into pieces, and whatever its lines end with. -/
theorem nixArtifacts_streamed
    (hreachable : (streamRuns start).Reachable run)
    (hresult : run.result = some (.ok stdout)) (host : Host)
    (artifactsDir : Path) (files : FileSystem) :
    ∃ kept printed, fromUtf8 stdout = some kept ∧
      fromUtf8 run.stdout.written = some printed ∧
      nixArtifactsFromStorePaths host kept artifactsDir files =
        nixArtifactsFromStorePaths host printed artifactsDir files := by
  obtain ⟨lines, hlines, rfl⟩ :=
    text_of_result (streamInvariant_inductive.reachable hreachable) hresult
  obtain ⟨raw, hraw, hsame⟩ := exists_encoded_of_linesOf _ hlines
  refine ⟨.ofList (lines.flatMap fun line => line.toList ++ ['\n']),
    .ofList raw, ?_, ?_, ?_⟩
  · rw [fromUtf8_eq_some_iff_encoded, String.toList_ofList,
      flatMap_lineBytes]
  · rw [fromUtf8_eq_some_iff_encoded, String.toList_ofList, hraw]
  · unfold nixArtifactsFromStorePaths textLines
    rw [String.toList_ofList, String.toList_ofList]
    exact copyStorePaths_congr hsame.symm files

/-- The store path `/a`, with one executable. -/
def printedStore : FileSystem where
  nodes := ⟨[
    (["out"], .dir),
    (["a"], .dir),
    (["a", "bin"], .dir),
    (["a", "bin", "tool"], .file ⟨true, [0x01]⟩)], by decide⟩
  closed := by decide

theorem nixArtifacts_streamed_printed :
    (∃ kept printed, fromUtf8 [47, 97, 10] = some kept ∧
      fromUtf8 printedRun.stdout.written = some printed ∧
      nixArtifactsFromStorePaths demoHost kept ["out"] printedStore =
        nixArtifactsFromStorePaths demoHost printed ["out"] printedStore) ∧
    fromUtf8 printedRun.stdout.written = some "/a\r\n" ∧
    (nixArtifactsFromStorePaths demoHost "/a\r\n" ["out"] printedStore).map
      (fun result => result.1.map (·.name)) = .ok ["tool"] :=
  ⟨nixArtifacts_streamed reachable_printedRun rfl demoHost ["out"]
    printedStore, by decide, rfl⟩

end Streamed

end Toolchain

end Kettle
