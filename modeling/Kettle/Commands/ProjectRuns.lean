/-
Builds and attestations of one project directory, one after the other.  Each
may fail at any of its steps; a command that fails may have changed files, and
so may a collector.
-/
import Kettle.Commands.Attest
import Kettle.Lib.Transition
import Kettle.Toolchain.StaleArtifacts
import Kettle.Toolchain.StorePaths

namespace Kettle

namespace Commands

open Toolchain

/-- No effect writes a file of the directory, or makes a link there. -/
def StaysOutside (dir : Path) (effects : List FileEffect) : Prop :=
  ∀ effect ∈ effects, ∀ path, Path.Within dir path →
    effect.writes path = false ∧ effect.marks path = false

/-- One `kettle build`, or one `kettle attest` with its nonce. -/
structure Invocation where
  host : Host
  attester : Attester
  metadata : Metadata
  attests : Option (Option String)

/-- The hash and the JSON of kettle are always the same, and no build command
writes into the output directory. -/
structure Project where
  path : Path
  sha256 : Bytes → ByteVec 32
  json : JsonText
  invocations : Set Invocation
  sameHash : ∀ inv ∈ invocations,
    inv.host.sha256 = sha256 ∧ inv.host.json = json
  outside : ∀ inv ∈ invocations, ∀ files args stdout effects,
    inv.host.command files path args = .ok (stdout, effects) →
      StaysOutside (outputDir path) effects

/-- How far an invocation has come. -/
inductive Phase (toolchain : ProjectToolchain) where
  | detected
  | removed
  | created
  | started (inputs : Started toolchain.Inputs)
  | built (inputs : Started toolchain.Inputs) (output : BuildOutput)
  | collecting (inputs : Started toolchain.Inputs) (output : BuildOutput)
  | collected (inputs : Started toolchain.Inputs) (artifacts : List Artifact)
  | written
  | attested
  | failed

/-- The steps of an invocation that succeed, and what is left by a command or
a collector that fails halfway. -/
inductive PhaseStep (path : Path) (inv : Invocation)
    (toolchain : ProjectToolchain) :
    FileSystem → Phase toolchain → FileSystem → Phase toolchain → Prop
  | remove {files after : FileSystem} :
      removeOutputDir files path = .ok after →
      PhaseStep path inv toolchain files .detected after .removed
  | create {files after : FileSystem} :
      files.createDirAll (outputDir path) = .ok after →
      PhaseStep path inv toolchain files .removed after .created
  /-- The git context, the lock file and the inputs. -/
  | record {files : FileSystem} {git : GitContext} {lockfile : Bytes}
      {inputs : toolchain.Inputs} :
      GitContext.fromDir inv.host files path = .ok git →
      files.read (path ++
        [.text (toolchain.driver inv.host).lockfileFilename]) =
          .ok lockfile →
      (toolchain.driver inv.host).collectInputs files path git
        (inv.host.sha256Hex lockfile) lockfile = .ok inputs →
      PhaseStep path inv toolchain files .created files
        (.started ⟨files, git, inv.host.sha256Hex lockfile, inputs⟩)
  | runBuild {files after : FileSystem} {inputs : Started toolchain.Inputs}
      {output : BuildOutput} :
      (toolchain.driver inv.host).runBuild files path = .ok (output, after) →
      PhaseStep path inv toolchain files (.started inputs) after
        (.built inputs output)
  | interruptBuild {files : FileSystem} {inputs : Started toolchain.Inputs}
      {effects : List FileEffect} :
      StaysOutside (outputDir path) effects →
      PhaseStep path inv toolchain files (.started inputs)
        (FileEffect.applyAll files effects) .failed
  | createArtifacts {files after : FileSystem}
      {inputs : Started toolchain.Inputs} {output : BuildOutput} :
      files.createDirAll (artifactsDir path) = .ok after →
      PhaseStep path inv toolchain files (.built inputs output) after
        (.collecting inputs output)
  | collect {files after : FileSystem} {inputs : Started toolchain.Inputs}
      {output : BuildOutput} {artifacts : List Artifact} :
      (toolchain.driver inv.host).collectArtifacts output files path
        (artifactsDir path) = .ok (artifacts, after) →
      PhaseStep path inv toolchain files (.collecting inputs output) after
        (.collected inputs artifacts)
  | interruptCollect {files after : FileSystem}
      {inputs : Started toolchain.Inputs} {output : BuildOutput} :
      FileSystem.OnlyFilesIn (artifactsDir path) (fun _ => True) files
        after →
      PhaseStep path inv toolchain files (.collecting inputs output) after
        .failed
  | write {files after : FileSystem} {inputs : Started toolchain.Inputs}
      {artifacts : List Artifact} {merkleRoot : String} {json : Bytes} :
      computeMerkleRoot inv.host
        ((toolchain.driver inv.host).merkleEntries inputs.inputs inputs.git
          inputs.lockfileHash) = .ok merkleRoot →
      inv.host.provenanceJson
        (assembleProvenance inputs.git inv.metadata artifacts merkleRoot
          ((toolchain.driver inv.host).provenanceFields inputs.inputs
            inputs.git merkleRoot)) = .ok json →
      files.writeFile (provenanceFile path) ⟨false, json⟩ = .ok after →
      PhaseStep path inv toolchain files (.collected inputs artifacts) after
        .written
  | attest {files after : FileSystem} {nonce : Option String} :
      inv.attests = some nonce →
      attestBuild inv.host inv.attester nonce files path = .ok after →
      PhaseStep path inv toolchain files .written after .attested

end Commands

end Kettle
