/-
`kettle verify`: load a build directory, run every check that is asked for,
and report.
-/
import Kettle.Igvm.Extract
import Kettle.Igvm.Measure
import Kettle.Verify.FileBinding
import Kettle.Verify.Verity

namespace Kettle

namespace Verify

/-- What verification calls outside of kettle. -/
structure Verifier where
  hex : Hex
  /-- `{:?}` of a string. -/
  debug : String → String
  json : JsonText
  /-- The text of serde's error about the bytes. -/
  jsonError : Bytes → String
  sha256 : Bytes → ByteVec 32
  sha384 : Bytes → Igvm.Digest384
  verity : VerityHash
  attestationVerify : Bytes → Except String VerificationResult
  /-- `IgvmFile::new_from_binary`. -/
  parseIgvm : Bytes → Except String Igvm.IgvmFile

structure DirEntry where
  fileName : OsStr
  path : Path
deriving DecidableEq, Repr

structure Build where
  provenanceBytes : Bytes
  evidenceBytes : Bytes
  topLevel : List DirEntry
  artifacts : List DirEntry

/-- The files of a directory; links are left out. -/
def regularFiles (files : FileSystem) (dir : Path) :
    Except String (List DirEntry) := do
  let names ← files.readDir dir
  .ok ((names.filter fun name => files.isOwnFile (dir ++ [name])).map
    fun name => ⟨name, dir ++ [name]⟩)

/-- The directory is optional. -/
def artifactFiles (files : FileSystem) (dir : Path) :
    Except String (List DirEntry) :=
  if files.isDir dir then regularFiles files dir else .ok []

/-- `Build::from_dir`, for a canonical path. -/
def Build.fromDir (files : FileSystem) (path : Path) : Except String Build := do
  let evidenceBytes ← files.read (path ++ [.text "evidence.json"])
  let provenanceBytes ← files.read (path ++ [.text "provenance.json"])
  let topLevel ← regularFiles files path
  let artifacts ← artifactFiles files (path ++ [.text "artifacts"])
  .ok ⟨provenanceBytes, evidenceBytes, topLevel, artifacts⟩

def verifySignature (result : VerificationResult) : Verification :=
  if result.signatureValid then
    .success "Attestation hardware signature valid"
  else
    .failure "Attestation hardware signature invalid"
      "signature verification failed"

def statementType : String := "https://in-toto.io/Statement/v1"

def slsaPredicateType : String := "https://slsa.dev/provenance/v1"

def eqIgnoreAsciiCase (left right : String) : Bool :=
  left.toList.map Char.toLower = right.toList.map Char.toLower

def compareLaunchDigest (measuredHex attestedHex : String) : Verification :=
  if eqIgnoreAsciiCase measuredHex attestedHex then
    .success "IGVM launch measurement matches attestation"
  else
    .failure "IGVM launch measurement mismatch"
      s!"IGVM file launch digest   {measuredHex}\nAttested launch digest    {attestedHex}"

def compareRoothash (igvmRoothash diskRoothash : String) : Verification :=
  if eqIgnoreAsciiCase igvmRoothash diskRoothash then
    .success "Disk image matches IGVM dm-verity roothash"
  else
    .failure "Disk image roothash mismatch"
      s!"IGVM-committed roothash   {igvmRoothash}\nDisk image roothash       {diskRoothash}"

/-- `split_whitespace`. -/
def splitWhitespace (text : String) : List (List Char) :=
  (text.toList.splitOnP Utf8.isWhitespace).filter (· ≠ [])

def stripRoothash (token : List Char) : Option String :=
  if "roothash=".toList.isPrefixOf token then
    some (String.ofList (token.drop "roothash=".length))
  else none

def roothashFromCmdline (cmdline : String) : Except String String :=
  okOr "no roothash= in IGVM kernel command line"
    ((splitWhitespace cmdline).findSome? stripRoothash)

/-- The outcome of a check whose steps fail under messages of their own. -/
def orFailure : Except (String × String) Verification → Verification
  | .ok verification => verification
  | .error (message, details) => .failure message details

/-- A step of such a check. -/
def failingWith {α : Type} (message : String) :
    Except String α → Except (String × String) α
  | .ok value => .ok value
  | .error details => .error (message, details)

variable (v : Verifier)

def verifyPredicate (provenance : Provenance) : Verification :=
  if provenance.predicateType = slsaPredicateType ∧
      provenance.type = statementType then
    .success "Provenance is valid SLSA v1.2"
  else
    .failure "Provenance not valid SLSA v1.2"
      s!"Expected _type {statementType} and predicateType {v.debug slsaPredicateType}\nActual _type {v.debug provenance.type} and predicateType   {v.debug provenance.predicateType}"

/-- `check_artifact`. -/
def checkArtifact (files : FileSystem) (subject : Subject) (display : String)
    (entry : DirEntry) : Except String Verification := do
  let bytes ← files.read entry.path
  if v.hex.encode (v.sha256 bytes).toList = subject.digest.value then
    .ok (.success s!"Checksum match for binary `{display}`")
  else
    .ok (.failure s!"Checksum mismatch for `{display}`!"
      s!"Expected checksum {subject.digest.value}\nActual checksum   {v.hex.encode (v.sha256 bytes).toList}")

/-- The copies of a subject, in listing order. -/
def checkCopies (files : FileSystem) (subject : Subject) (display : String) :
    List DirEntry → Except String (List Verification)
  | [] => .ok []
  | entry :: rest =>
      if entry.fileName.toStringLossy = subject.name then do
        let result ← checkArtifact v files subject display entry
        let later ← checkCopies files subject display rest
        .ok (result :: later)
      else checkCopies files subject display rest

def missingArtifact (subject : Subject) : Verification :=
  .failure s!"Artifact missing for `{subject.name}`!"
    s!"Provenance lists `{subject.name}` as a subject but no matching file was found in the build directory or artifacts/"

def verifySubject (files : FileSystem) (topLevel artifacts : List DirEntry)
    (subject : Subject) : Except String (List Verification) := do
  let top ← checkCopies v files subject subject.name topLevel
  let nested ← checkCopies v files subject s!"artifacts/{subject.name}"
    artifacts
  .ok (if top ++ nested = [] then [missingArtifact subject]
    else top ++ nested)

def verifySubjects (files : FileSystem) (topLevel artifacts : List DirEntry) :
    List Subject → Except String (List Verification)
  | [] => .ok []
  | subject :: rest => do
      let results ← verifySubject v files topLevel artifacts subject
      let later ← verifySubjects files topLevel artifacts rest
      .ok (results ++ later)

structure ArtifactReport where
  results : List Verification
  warnings : List String

/-- Files that no subject names are warned of. -/
def artifactWarnings (subjects : List Subject) (artifacts : List DirEntry) :
    List String :=
  (artifacts.filter fun entry =>
    subjects.all fun subject =>
      subject.name ≠ entry.fileName.toStringLossy).map fun entry =>
      s!"artifacts/{entry.fileName.toStringLossy} is not listed in provenance.json"

def verifyArtifacts (files : FileSystem) (provenance : Provenance)
    (topLevel artifacts : List DirEntry) : Except String ArtifactReport := do
  let results ← verifySubjects v files topLevel artifacts provenance.subject
  .ok ⟨results, artifactWarnings provenance.subject artifacts⟩

/-- The IGVM file, with the messages of both checks that load it. -/
def loadIgvm (files : FileSystem) (igvmPath : Path) :
    Except (String × String) Igvm.IgvmFile := do
  let bytes ← failingWith "Could not read IGVM file" (files.read igvmPath)
  failingWith "Could not parse IGVM file" (v.parseIgvm bytes)

def verifyIgvmMeasurement (files : FileSystem) (result : VerificationResult)
    (igvmPath : Path) : Verification :=
  orFailure do
    let igvm ← loadIgvm v files igvmPath
    let measured ← failingWith "Could not measure IGVM file"
      (Igvm.measureSnp v.sha384 igvm)
    .ok (compareLaunchDigest (v.hex.encode measured.launchDigest.toList)
      result.claims.launchDigest)

def verifyImageRoothash (files : FileSystem) (igvmPath imagePath : Path) :
    Verification :=
  orFailure do
    let igvm ← loadIgvm v files igvmPath
    let cmdline ← failingWith "Could not read IGVM kernel command line"
      (Igvm.kernelCmdline igvm)
    let igvmRoothash ← failingWith "No roothash in IGVM"
      (roothashFromCmdline cmdline)
    let diskRoothash ← failingWith "Could not read disk image roothash"
      (storedRoothash v.verity files imagePath)
    .ok (compareRoothash igvmRoothash diskRoothash)

/-- An image is only taken with an IGVM file. -/
structure VerifyArgs where
  path : Path
  nonce : Option String
  igvm : Option Path
  image : Option Path
  requires : image.isSome = true → igvm.isSome = true

/-- What a verification reports. -/
structure Report where
  results : List Verification
  warnings : List String

def igvmResults (files : FileSystem) (result : VerificationResult)
    (args : VerifyArgs) : List Verification :=
  match args.igvm with
  | none => []
  | some igvmPath =>
      verifyIgvmMeasurement v files result igvmPath ::
        (args.image.map (verifyImageRoothash v files igvmPath)).toList

def verify (files : FileSystem) (args : VerifyArgs) : Except String Report := do
  let build ← Build.fromDir files args.path
  let provenance ← okOr (v.jsonError build.provenanceBytes)
    (Provenance.fromJson v.json build.provenanceBytes)
  let result ← v.attestationVerify build.evidenceBytes
  let report ← verifyArtifacts v files provenance build.topLevel
    build.artifacts
  .ok {
    results := [verifySignature result, verifyPredicate v provenance,
        verifyProvenance v.hex v.debug v.json v.sha256 result provenance] ++
      report.results ++
      (args.nonce.map (verifyNonce v.hex v.debug result)).toList ++
      igvmResults v files result args
    warnings := report.warnings }

/-- The exit status of `main`. -/
def exitStatus {α : Type} : Except String α → Nat
  | .ok _ => 0
  | .error _ => 1

end Verify

end Kettle
