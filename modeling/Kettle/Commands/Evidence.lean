/-
Evidence belongs to the provenance beside it.  The output directory is wiped
before anything is built, and from then on no step writes evidence but the
last one; nor does any lie behind a link.
-/
import Kettle.Commands.ProjectRuns

namespace Kettle

namespace Toolchain

variable {host : Host} {files after : FileSystem} {path : Path}

theorem streamCommand_spec {args : List String} {stdout : Bytes}
    (hok : streamCommand host files path args = .ok (stdout, after)) :
    ∃ effects, host.command files path args = .ok (stdout, effects) ∧
      after = FileEffect.applyAll files effects := by
  obtain ⟨⟨printed, effects⟩, hcommand, hresult⟩ := bind_eq_ok_iff.mp hok
  cases hresult
  exact ⟨effects, hcommand, rfl⟩

/-- No entry of the directory is a link. -/
def NoLinksIn (dir : Path) (files : FileSystem) : Prop :=
  ∀ name, files.isLink (dir ++ [name]) = false

theorem NoLinksIn.of_subset {dir : Path} (hnone : NoLinksIn dir files)
    (hmarks : after.marks ⊆ files.marks) : NoLinksIn dir after := by
  intro name
  rw [Bool.eq_false_iff]
  intro hlink
  obtain ⟨hne, target, hmem⟩ := FileSystem.isLink_eq_true_iff.mp hlink
  exact Bool.eq_false_iff.mp (hnone name)
    (FileSystem.isLink_eq_true_iff.mpr ⟨hne, target, hmarks hmem⟩)

end Toolchain

namespace Commands

open Toolchain

variable {project : Project} {files after : FileSystem}

theorem evidenceFile_within (path : Path) :
    Path.Within (outputDir path) (evidenceFile path) :=
  List.prefix_append _ _

/-- There is no evidence, and no link in the output directory. -/
structure Wiped (project : Project) (files : FileSystem) : Prop where
  missing : files.fileAt (evidenceFile project.path) = none
  unmarked : files.Unmarked (outputDir project.path)

theorem missing_applyAll {effects : List FileEffect}
    (hmissing : files.fileAt (evidenceFile project.path) = none)
    (houtside : StaysOutside (outputDir project.path) effects) :
    (FileEffect.applyAll files effects).fileAt (evidenceFile project.path) =
      none := by
  rw [FileEffect.fileAt_applyAll fun effect heffect =>
    (houtside effect heffect _ (evidenceFile_within _)).1, hmissing, ite_self]

theorem Wiped.applyAll {effects : List FileEffect}
    (hwiped : Wiped project files)
    (houtside : StaysOutside (outputDir project.path) effects) :
    Wiped project (FileEffect.applyAll files effects) where
  missing := missing_applyAll hwiped.missing houtside
  unmarked := FileEffect.unmarked_applyAll hwiped.unmarked
    fun effect heffect path hin => (houtside effect heffect path hin).2

theorem Wiped.streamCommand {inv : Invocation} {args : List String}
    {stdout : Bytes} (hwiped : Wiped project files)
    (hinv : inv ∈ project.invocations)
    (hok : Toolchain.streamCommand inv.host files project.path args =
      .ok (stdout, after)) : Wiped project after := by
  obtain ⟨effects, hcommand, rfl⟩ := streamCommand_spec hok
  exact hwiped.applyAll (project.outside inv hinv _ _ _ _ hcommand)

/-- A build command does not bring evidence, or links in its way. -/
theorem Wiped.runBuild {inv : Invocation}
    {toolchain : ProjectToolchain} {output : BuildOutput}
    (hwiped : Wiped project files)
    (hinv : inv ∈ project.invocations)
    (hok : (toolchain.driver inv.host).runBuild files project.path =
      .ok (output, after)) :
    Wiped project after := by
  cases toolchain with
  | cargo =>
      obtain ⟨⟨stdout, built⟩, hstream, hresult⟩ := bind_eq_ok_iff.mp hok
      cases hresult
      exact hwiped.streamCommand hinv (mapError_eq_ok_iff.mp hstream)
  | nix =>
      obtain ⟨⟨stdout, built⟩, hstream, hresult⟩ := bind_eq_ok_iff.mp hok
      cases hresult
      exact hwiped.streamCommand hinv (mapError_eq_ok_iff.mp hstream)
  | pnpm =>
      obtain ⟨⟨printed, installed⟩, hinstall, hrest⟩ :=
        bind_eq_ok_iff.mp hok
      obtain ⟨⟨stdout, built⟩, hstream, hresult⟩ := bind_eq_ok_iff.mp hrest
      cases hresult
      have hinstalled := hwiped.streamCommand hinv
        (mapError_eq_ok_iff.mp hinstall)
      exact hinstalled.streamCommand hinv (mapError_eq_ok_iff.mp hstream)

section Invocations

variable {inv : Invocation} {metadata : Metadata} {host : Host} {path : Path}

theorem integerCounts_of_driver {toolchain : ProjectToolchain}
    {inputs : toolchain.Inputs} {git : GitContext} {merkleRoot : String}
    {evaluation : Evaluation}
    (hevaluation : ((toolchain.driver host).provenanceFields inputs git
      merkleRoot).internalParameters.evaluation = some evaluation) :
    evaluation.IntegerCounts := by
  cases toolchain with
  | cargo => cases hevaluation
  | nix =>
      cases hevaluation
      exact ⟨rfl, rfl⟩
  | pnpm => cases hevaluation

/-- What a build writes is parsed as the provenance it wrote. -/
theorem build_parsesBack
    (hok : build host metadata files path = .ok after) :
    ∃ provenance : Provenance,
      after.fileAt (provenanceFile path) =
        some ⟨false, provenance.toJson host.json⟩ ∧
      Provenance.fromJson host.json (provenance.toJson host.json) =
        some provenance := by
  obtain ⟨toolchain, -, hrun⟩ := bind_eq_ok_iff.mp hok
  obtain ⟨built, provenance, started, staged, json, -, -, hfinished, hjson,
    hwritten⟩ := run_eq_ok_iff.mp hrun
  obtain ⟨output, command, ready, artifacts, collected, merkleRoot, -, -, -,
    hresult⟩ := finishBuild_spec hfinished
  obtain ⟨rfl, rfl⟩ := Prod.mk.inj hresult
  cases hjson
  refine ⟨assembleProvenance started.git metadata artifacts merkleRoot
    ((toolchain.driver host).provenanceFields started.inputs started.git
      merkleRoot), ?_, Provenance.fromJson_toJson ?_⟩
  · exact FileSystem.fileAt_writeFile_self hwritten
  · exact fun _ => integerCounts_of_driver

end Invocations

/-- A platform that signs nothing but names the report data. -/
noncomputable def demoAttester : Attester where
  detect := some "tdx"
  attest _ reportData := .ok (JsonPretty.text.render
    (.object [("evidence", .string (lowerHex.encode reportData.toList))]))
  fetchVcek _ := .error "VCEK fetch from AMD KDS failed"
  compact := JsonPretty.text.render

theorem demo_evidenceOver (reportData : ByteVec 48) :
    ∃ evidence, evidenceOver demoHost demoAttester reportData =
      .ok evidence := by
  refine ⟨_, bind_eq_ok_iff.mpr ⟨_, rfl, bind_eq_ok_iff.mpr ⟨_, rfl,
    bind_eq_ok_iff.mpr ⟨_, okOr_eq_ok_iff.mpr
      (JsonPretty.text.parse_render _ (by simp)), rfl⟩⟩⟩⟩

end Commands

end Kettle
