/-
`kettle attest`: build, and have the hardware sign the checksum of the
provenance.
-/
import Kettle.Commands.Build
import Kettle.Verify.FileBinding

namespace Kettle

/-- The value with another value under a name. -/
def Json.set (value : Json) (name : String) (field : Json) : Json :=
  match value.asObject with
  | some entries => .object (entries.insert name field).entries
  | none => value

namespace Commands

open Toolchain

/-- The attestation library, and the certificates that it fetches. -/
structure Attester where
  detect : Option String
  attest : String → ByteVec 48 → Except String Bytes
  /-- The certificate of the chip that signed a report, both in base64. -/
  fetchVcek : String → Except String String
  /-- `serde_json::to_vec`. -/
  compact : Json → Bytes

section Evidence

variable (host : Host) (attester : Attester)

/-- Evidence of an SNP guest may lack the certificate chain. -/
def embedSnpVcek (evidenceJson : Bytes) : Except String Bytes := do
  let envelope ← host.parseJson evidenceJson
  if envelope.getStr? "platform" ≠ some "snp" then .ok evidenceJson
  else do
    let evidence ← okOr "evidence missing" (envelope.get? "evidence")
    if (evidence.get? "cert_chain").any (·.isNull) = false then
      .ok evidenceJson
    else do
      let report ← okOr "attestation_report missing"
        (evidence.getStr? "attestation_report")
      let vcek ← attester.fetchVcek report
      .ok (attester.compact (envelope.set "evidence"
        (evidence.set "cert_chain" (.object [
          ("vcek", .string vcek), ("ask", .null), ("ark", .null)]))))

/-- The evidence over some report data. -/
def evidenceOver (reportData : ByteVec 48) : Except String Bytes := do
  let platform ← okOr "no TEE platform detected" attester.detect
  let evidenceJson ← attester.attest platform reportData
  embedSnpVcek host attester evidenceJson

end Evidence

def evidenceFile (path : Path) : Path :=
  outputDir path ++ [.text "evidence.json"]

/-- The steps after the build. -/
def attestBuild (host : Host) (attester : Attester) (nonce : Option String)
    (files : FileSystem) (path : Path) : Except String FileSystem := do
  let provenanceBytes ← files.read (provenanceFile path)
  let provenance ← okOr (host.jsonError provenanceBytes)
    (Provenance.fromJson host.json provenanceBytes)
  let reportData ← Verify.attestReportData host.hex
    (provenance.checksum host.json host.sha256) nonce
  let evidence ← evidenceOver host attester reportData
  files.writeFile (evidenceFile path) ⟨false, evidence⟩

/-- `attest_with_sink`. -/
def attest (host : Host) (attester : Attester) (metadata : Metadata)
    (nonce : Option String) (files : FileSystem) (path : Path) :
    Except String FileSystem := do
  let files ← build host metadata files path
  attestBuild host attester nonce files path

variable {host : Host} {attester : Attester} {files after : FileSystem}
  {path : Path} {nonce : Option String}

end Commands

end Kettle
