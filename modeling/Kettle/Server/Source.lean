/-
The blocking part of a build task on its machine: the source of a request is
unpacked or cloned into a work directory, the project in it is built and
attested, and the build directory becomes the archive that is served.
-/
import Kettle.Commands.RoundTrip
import Kettle.Server.Api
import Kettle.Server.TopLevel

namespace Kettle

namespace Server

open Commands
open Toolchain (outputDir)

/-- The archive libraries, and git. -/
structure SourceTools where
  unzip : Bytes → FileSystem → Path → Except String FileSystem
  untarGz : Bytes → FileSystem → Path → Except String FileSystem
  /-- A compressed archive of a directory, under a name. -/
  tarGz : FileSystem → Path → String → Except String Bytes
  /-- `git args` in a directory: the files it leaves, or its standard error
  when it fails. -/
  git : FileSystem → Path → List String →
    Except String (Except Bytes FileSystem)

/-- `PK\3\4`. -/
def zipMagic : Bytes := [0x50, 0x4B, 0x03, 0x04]

def gzipMagic : Bytes := [0x1F, 0x8B]

def cloneArgs (url : String) (repoRef : Option String) : List String :=
  ["clone"] ++
    (match repoRef with
      | some ref => ["--revision", ref]
      | none => []) ++
    ["--depth", "1", "--", url]

section Task

variable (tools : SourceTools)

def unpackSource (data : Bytes) (files : FileSystem) (workDir : Path) :
    Except String FileSystem :=
  if zipMagic.isPrefixOf data then tools.unzip data files workDir
  else if gzipMagic.isPrefixOf data then tools.untarGz data files workDir
  else .error "source_data is neither zip (PK) nor gzip (1f8b)"

def cloneRepo (url : String) (repoRef : Option String) (files : FileSystem)
    (workDir : Path) : Except String FileSystem :=
  match tools.git files workDir (cloneArgs url repoRef) with
  | .error message => .error message
  | .ok (.error stderr) =>
      .error s!"git clone failed: {String.ofList (Utf8.fromUtf8Lossy stderr)}"
  | .ok (.ok files) => .ok files

/-- The one directory in the work directory, when there is nothing else. -/
def findProjectDir (files : FileSystem) (workDir : Path) :
    Except String Path := do
  let entries ← files.readDir workDir
  match entries with
  | [entry] =>
      .ok (if files.isOwnDir (workDir ++ [entry]) then workDir ++ [entry]
        else workDir)
  | _ => .ok workDir

def fetchSource (req : BuildRequest) (files : FileSystem) (workDir : Path) :
    Except String FileSystem :=
  match req.sourceData, req.repoUrl with
  | some data, _ => unpackSource tools data files workDir
  | none, some url => cloneRepo tools url req.repoRef files workDir
  | none, none => .error "no source"

def materializeSource (req : BuildRequest) (files : FileSystem)
    (workDir : Path) : Except String (FileSystem × Path) := do
  let files ← fetchSource tools req files workDir
  let projectDir ← findProjectDir files workDir
  .ok (files, projectDir)

/-- Without the feature for attestation, the project is only built. -/
def buildProject (host : Host) (attester : Option Attester)
    (metadata : Metadata) (nonce : String) (files : FileSystem)
    (projectDir : Path) : Except String FileSystem :=
  match attester with
  | some attester =>
      attest host attester metadata (some nonce) files projectDir
  | none => build host metadata files projectDir

/-- The archive of what the build produced. -/
def tarBuild (files : FileSystem) (projectDir workDir : Path)
    (sourceName : Option String) : Except String Bytes :=
  if files.isDir (outputDir projectDir) then
    tools.tarGz files (outputDir projectDir)
      (outputTopLevel projectDir workDir sourceName)
  else .error "build did not produce kettle-build/"

def runBuild (host : Host) (attester : Option Attester) (metadata : Metadata)
    (req : BuildRequest) (files : FileSystem) (workDir : Path) :
    Except String (FileSystem × Bytes) := do
  let (files, projectDir) ← materializeSource tools req files workDir
  let files ← buildProject host attester metadata req.nonce files projectDir
  let tarball ← tarBuild tools files projectDir workDir req.sourceName
  .ok (files, tarball)

end Task

variable {tools : SourceTools} {files : FileSystem} {workDir : Path}

/-- The files as an archive holds them: links are followed, and what has been
packed can be read. -/
def followed (files : FileSystem) : FileSystem :=
  { files with marks := [] }

/-- Nothing is at the path, not even a link. -/
def Vacant (files : FileSystem) (path : Path) : Prop :=
  files.exists? path = false ∧ files.isLink path = false

/-- What the archive libraries are documented to do: what was packed under a
name of its own is unpacked as the same files. -/
def SourceTools.KeepTrees (tools : SourceTools) : Prop :=
  ∀ files dir top tarball mine dest received, Ordinary top →
    tools.tarGz files dir top = .ok tarball →
    Vacant mine (dest ++ [.text top]) →
    tools.untarGz tarball mine dest = .ok received →
      CopiedTree (followed files) dir received (dest ++ [.text top])

/-- The archive that was unpacked, and the nonce that was asked for. -/
def receivedArgs (copy : Path) (nonce : String) : Verify.VerifyArgs :=
  ⟨copy, some nonce, none, none, Verify.no_image_requires⟩

section Served

variable {v : Verify.Verifier} {host : Host} {attester : Attester}
  {metadata : Metadata} {req : BuildRequest} {final : FileSystem}
  {tarball : Bytes}

theorem runBuild_steps (hrun : runBuild tools host (some attester) metadata
    req files workDir = .ok (final, tarball)) :
    ∃ sourced projectDir,
      materializeSource tools req files workDir =
        .ok (sourced, projectDir) ∧
      attest host attester metadata (some req.nonce) sourced projectDir =
        .ok final ∧
      tools.tarGz final (outputDir projectDir)
        (outputTopLevel projectDir workDir req.sourceName) =
          .ok tarball := by
  obtain ⟨⟨sourced, projectDir⟩, hsource, hrest⟩ := bind_eq_ok_iff.mp hrun
  obtain ⟨built, hbuilt, hrest⟩ := bind_eq_ok_iff.mp hrest
  obtain ⟨archive, harchive, hresult⟩ := bind_eq_ok_iff.mp hrest
  cases hresult
  unfold tarBuild at harchive
  split at harchive
  · exact ⟨sourced, projectDir, hsource, hbuilt, harchive⟩
  · cases harchive

/-- A client that unpacks the archive where nothing is in its place, and
verifies it with the nonce of the request, gets a report without a failure
exactly in one case. -/
def ClientVerifies (v : Verify.Verifier) (tools : SourceTools)
    (nonceText : String) (tarball : Bytes) (top : String) (pass : Prop) :
    Prop :=
  ∀ mine dest received, Ordinary top →
    Vacant mine (dest ++ [.text top]) →
    tools.untarGz tarball mine dest = .ok received →
      (Verify.Succeeds v received
        (receivedArgs (dest ++ [.text top]) nonceText) ↔ pass)

/-- The build that an archive is from, and what its clients find: that the
artifacts hold in what was packed and the attestation still carries the
nonce, unless the evidence was written over the provenance. -/
structure Served (v : Verify.Verifier) (tools : SourceTools) (host : Host)
    (metadata : Metadata) (req : BuildRequest) (files : FileSystem)
    (workDir : Path) (nonce : ByteVec 16) (final : FileSystem)
    (tarball : Bytes) : Prop where
  built : ∃ sourced projectDir toolchain built written provenance,
    materializeSource tools req files workDir = .ok (sourced, projectDir) ∧
    ProjectToolchain.fromDir host sourced projectDir = .ok toolchain ∧
    Toolchain.Attests (toolchain.driver host) host metadata sourced projectDir
      built provenance written ∧
    (written.sameFile (evidenceFile projectDir)
        (Toolchain.provenanceFile projectDir) = false →
      ClientVerifies v tools req.nonce tarball
        (outputTopLevel projectDir workDir req.sourceName)
        (Toolchain.ArtifactsHold host projectDir provenance
            (followed final) ∧
          NonceKept host provenance nonce))

/-- What was packed is attested as on the server. -/
theorem attestedDir_followed {path : Path} {provenance : Provenance}
    {launchDigest : String} {nonce : ByteVec 16}
    (hattested : AttestedDir v host path provenance launchDigest nonce
      files) :
    AttestedDir v host path provenance launchDigest nonce
      (followed files) :=
  ⟨hattested.recorded, hattested.evidence, hattested.integerCounts,
    hattested.predicateType, hattested.type⟩

theorem readable_followed (path : Path) (files : FileSystem) :
    Readable path (followed files) :=
  ⟨fun _ _ => rfl, fun _ => rfl⟩

/-- What comes of a build that succeeds. -/
theorem runBuild_served {launchDigest : String} {nonce : ByteVec 16}
    (hagrees : Toolchain.Agrees v host)
    (hgenuine : Genuine v host attester launchDigest)
    (hreject : RejectsDash host.hex)
    (htaken : validateNonce host.hex req.nonce = .ok nonce.toList)
    (htools : tools.KeepTrees)
    (hrun : runBuild tools host (some attester) metadata req files workDir =
      .ok (final, tarball)) :
    Served v tools host metadata req files workDir nonce final tarball := by
  obtain ⟨sourced, projectDir, hsource, hattest, harchive⟩ :=
    runBuild_steps hrun
  obtain ⟨toolchain, built, written, provenance, output, ready, evidence,
    htoolchain, hattests, -, -, -, hattested⟩ :=
    attest_attested hgenuine hreject htaken hattest
  obtain ⟨hdecode, -⟩ := decodeNonce_of_validateNonce hreject htaken
  refine ⟨sourced, projectDir, toolchain, built, written, provenance,
    hsource, htoolchain, hattests, fun hother => ?_⟩
  intro mine dest received hordinary hvacant hunpacked
  have hsame : SameInputs (followed final) (nonceArgs projectDir req.nonce)
      received (receivedArgs (dest ++ [.text
        (outputTopLevel projectDir workDir req.sourceName)]) req.nonce) :=
    ⟨htools _ _ _ _ _ _ _ hordinary harchive hvacant hunpacked, rfl, rfl,
      rfl⟩
  have hpasses := (attestedDir_followed (hattested hother)).passes_iff
    hagrees hdecode
  rw [and_iff_right (readable_followed _ _)] at hpasses
  rw [Verify.succeeds_iff_passes, ← hpasses]
  exact ⟨passes_copy hsame.symm, passes_copy hsame⟩

/-- Tools that know one build only: its directory is packed, and unpacked
where the project is. -/
def demoTools (built : FileSystem) : SourceTools where
  unzip _ _ _ := .ok Toolchain.demoFiles
  untarGz _ _ dest :=
    if dest = ["app"] then .ok (followed built)
    else .error "permission denied"
  tarGz files dir top :=
    if files.nodes.entries = built.nodes.entries ∧
        dir = outputDir ["app"] ∧ top = "kettle-build" then .ok gzipMagic
    else .error "no such file"
  git _ _ _ := .error "no such file"

theorem demoTools_keepTrees (built : FileSystem) :
    (demoTools built).KeepTrees := by
  intro files dir top tarball mine dest received _ hpacked _ hunpacked
  simp only [demoTools] at hpacked hunpacked
  split at hpacked
  · rename_i hsame
    obtain ⟨hentries, rfl, rfl⟩ := hsame
    split at hunpacked
    · rename_i hdest
      subst hdest
      cases hunpacked
      refine .of_contents rfl rfl (fun sub => ?_) (fun sub => ?_)
      · simp only [followed, FileSystem.isDir, dirIn, AssocMap.get?,
          hentries]
        rfl
      · simp only [followed, FileSystem.fileAt, FileSystem.get?,
          AssocMap.get?, hentries]
        rfl
    · cases hunpacked
  · cases hpacked

def demoUpload : BuildRequest where
  nonce := lowerHex.encode demoNonce.toList
  repoUrl := none
  repoRef := none
  sourceData := some zipMagic
  sourceName := none

def demoWorkFiles : FileSystem where
  nodes := ⟨[(["app"], .dir)], by decide⟩
  closed := by decide

theorem materializeSource_demo (built : FileSystem) :
    materializeSource (demoTools built) demoUpload demoWorkFiles ["app"] =
      .ok (Toolchain.demoFiles, ["app"]) := rfl

theorem agrees_readingBack :
    Toolchain.Agrees readingBack Toolchain.demoHost :=
  ⟨rfl, rfl, rfl⟩

theorem validateNonce_demo :
    validateNonce Toolchain.demoHost.hex demoUpload.nonce =
      .ok demoNonce.toList :=
  validateNonce_eq_ok_iff.mpr (lowerHex.decode_encode _)

theorem tarBuild_demo {final : FileSystem}
    (hdir : final.isDir (outputDir ["app"]) = true) :
    tarBuild (demoTools final) final ["app"] ["app"] demoUpload.sourceName =
      .ok gzipMagic := by
  have htop : outputTopLevel ["app"] ["app"] demoUpload.sourceName =
      "kettle-build" := rfl
  unfold tarBuild
  rw [if_pos hdir, htop]
  exact if_pos ⟨rfl, rfl, rfl⟩

/-- The demo project is built in its work directory. -/
theorem buildProject_demo :
    ∃ final, buildProject Toolchain.demoHost (some demoAttester)
        Toolchain.demoMetadata demoUpload.nonce Toolchain.demoFiles ["app"] =
          .ok final ∧
      final.isDir (outputDir ["app"]) = true := by
  obtain ⟨final, hattest⟩ := demo_attest_nonce
  refine ⟨final, hattest, ?_⟩
  obtain ⟨_, _, _, _, _, _, evidence, _, _, _, hwritten, _⟩ :=
    attest_attested genuine_readingBack lowerHex_rejectsDash
      validateNonce_demo hattest
  refine FileSystem.isDir_of_isFile (.text "evidence.json") ?_
  exact Option.isSome_iff_exists.mpr
    ⟨_, FileSystem.fileAt_writeFile_self hwritten⟩

end Served

end Server

end Kettle
