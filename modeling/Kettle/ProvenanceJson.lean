/-
The provenance as JSON: what each struct is written as, and what it is read
from.
-/
import Kettle.Provenance

namespace Kettle

open Json

namespace Digest

def toJson : Digest → Json
  | .sha256 text => object [("sha256", string text)]
  | .sha512 text => object [("sha512", string text)]
  | .gitCommit text => object [("gitCommit", string text)]

def readVariant (name : String) (make : String → Digest) (value : Json) :
    Option Digest := do
  let get ← value.variantFields [name]
  let text ← required readString get name
  some (make text)

/-- The first variant that fits is taken. -/
def ofJson (value : Json) : Option Digest :=
  readVariant "sha256" .sha256 value <|>
    readVariant "sha512" .sha512 value <|>
    readVariant "gitCommit" .gitCommit value

theorem ofJson_toJson (digest : Digest) :
    ofJson digest.toJson = some digest := by
  cases digest <;> rfl

theorem plain_toJson (digest : Digest) (depth : Nat) :
    Plain (depth + 1) digest.toJson := by
  cases digest <;> simp [toJson]

end Digest

namespace Subject

def toJson (subject : Subject) : Json :=
  object [("digest", subject.digest.toJson), ("name", string subject.name)]

def ofJson (value : Json) : Option Subject := do
  let get ← value.fields ["digest", "name"]
  let digest ← required Digest.ofJson get "digest"
  let name ← required readString get "name"
  some ⟨digest, name⟩

theorem ofJson_toJson (subject : Subject) :
    ofJson subject.toJson = some subject := by
  have hdigest := subject.digest.ofJson_toJson
  simp [ofJson, toJson, hdigest]

theorem plain_toJson (subject : Subject) (depth : Nat) :
    Plain (depth + 2) subject.toJson := by
  have hdigest := subject.digest.plain_toJson depth
  simp [toJson, hdigest]

end Subject

namespace Annotation

def toJson (noted : Annotation) : Json :=
  object ([("drvPath", string noted.drvPath)] ++
    skipNone string "outputHashMode" noted.outputHashMode ++
    skipNone string "url" noted.url ++
    skipNone string "urls" noted.urls)

def ofJson (value : Json) : Option Annotation := do
  let get ← value.fields ["drvPath", "outputHashMode", "url", "urls"]
  let drvPath ← required readString get "drvPath"
  let outputHashMode ← nullable readString get "outputHashMode"
  let url ← nullable readString get "url"
  let urls ← nullable readString get "urls"
  some ⟨drvPath, outputHashMode, url, urls⟩

@[simp] theorem isNull_toJson (noted : Annotation) :
    noted.toJson.isNull = false := rfl

theorem ofJson_toJson (noted : Annotation) :
    ofJson noted.toJson = some noted := by
  obtain ⟨drvPath, outputHashMode, url, urls⟩ := noted
  cases outputHashMode <;> cases url <;> cases urls <;>
    simp [ofJson, toJson]

theorem plain_toJson (noted : Annotation) (depth : Nat) :
    Plain (depth + 1) noted.toJson := by
  obtain ⟨drvPath, outputHashMode, url, urls⟩ := noted
  cases outputHashMode <;> cases url <;> cases urls <;> simp [toJson]

end Annotation

namespace ResolvedDependency

def toJson (dependency : ResolvedDependency) : Json :=
  object (skipNone Annotation.toJson "annotations" dependency.annotations ++
    [("digest", dependency.digest.toJson),
      ("name", string dependency.name),
      ("uri", string dependency.uri)])

def ofJson (value : Json) : Option ResolvedDependency := do
  let get ← value.fields ["annotations", "digest", "name", "uri"]
  let annotations ← nullable Annotation.ofJson get "annotations"
  let digest ← required Digest.ofJson get "digest"
  let name ← required readString get "name"
  let uri ← required readString get "uri"
  some ⟨annotations, digest, name, uri⟩

theorem ofJson_toJson (dependency : ResolvedDependency) :
    ofJson dependency.toJson = some dependency := by
  obtain ⟨annotations, digest, name, uri⟩ := dependency
  have hdigest := digest.ofJson_toJson
  cases annotations with
  | none => simp [ofJson, toJson, hdigest]
  | some noted =>
      have hnoted := noted.ofJson_toJson
      simp [ofJson, toJson, hdigest, hnoted]

theorem plain_toJson (dependency : ResolvedDependency) (depth : Nat) :
    Plain (depth + 2) dependency.toJson := by
  obtain ⟨annotations, digest, name, uri⟩ := dependency
  have hdigest := digest.plain_toJson depth
  cases annotations with
  | none => simp [toJson, hdigest]
  | some noted =>
      have hnoted := noted.plain_toJson depth
      simp [toJson, hdigest, hnoted]

end ResolvedDependency

namespace SourceDigest

def toJson (digest : SourceDigest) : Json :=
  object [
    ("gitCommit", string digest.gitCommit),
    ("gitTree", string digest.gitTree)]

def ofJson (value : Json) : Option SourceDigest := do
  let get ← value.fields ["gitCommit", "gitTree"]
  let gitCommit ← required readString get "gitCommit"
  let gitTree ← required readString get "gitTree"
  some ⟨gitCommit, gitTree⟩

theorem ofJson_toJson (digest : SourceDigest) :
    ofJson digest.toJson = some digest := by
  simp [ofJson, toJson]

theorem plain_toJson (digest : SourceDigest) (depth : Nat) :
    Plain (depth + 1) digest.toJson := by
  simp [toJson]

end SourceDigest

namespace Source

def toJson (source : Source) : Json :=
  object [("digest", source.digest.toJson), ("uri", string source.uri)]

def ofJson (value : Json) : Option Source := do
  let get ← value.fields ["digest", "uri"]
  let digest ← required SourceDigest.ofJson get "digest"
  let uri ← required readString get "uri"
  some ⟨digest, uri⟩

theorem ofJson_toJson (source : Source) :
    ofJson source.toJson = some source := by
  have hdigest := source.digest.ofJson_toJson
  simp [ofJson, toJson, hdigest]

theorem plain_toJson (source : Source) (depth : Nat) :
    Plain (depth + 2) source.toJson := by
  have hdigest := source.digest.plain_toJson depth
  simp [toJson, hdigest]

end Source

namespace ExternalParameters

def toJson (parameters : ExternalParameters) : Json :=
  object [
    ("buildCommand", string parameters.buildCommand),
    ("source", parameters.source.toJson)]

def ofJson (value : Json) : Option ExternalParameters := do
  let get ← value.fields ["buildCommand", "source"]
  let buildCommand ← required readString get "buildCommand"
  let source ← required Source.ofJson get "source"
  some ⟨buildCommand, source⟩

theorem ofJson_toJson (parameters : ExternalParameters) :
    ofJson parameters.toJson = some parameters := by
  have hsource := parameters.source.ofJson_toJson
  simp [ofJson, toJson, hsource]

theorem plain_toJson (parameters : ExternalParameters) (depth : Nat) :
    Plain (depth + 3) parameters.toJson := by
  have hsource := parameters.source.plain_toJson depth
  simp [toJson, hsource]

end ExternalParameters

namespace ToolchainVersion

def toJson (tool : ToolchainVersion) : Json :=
  object [("digest", tool.digest.toJson), ("version", string tool.version)]

def ofJson (value : Json) : Option ToolchainVersion := do
  let get ← value.fields ["digest", "version"]
  let digest ← required Digest.ofJson get "digest"
  let version ← required readString get "version"
  some ⟨digest, version⟩

theorem ofJson_toJson (tool : ToolchainVersion) :
    ofJson tool.toJson = some tool := by
  have hdigest := tool.digest.ofJson_toJson
  simp [ofJson, toJson, hdigest]

theorem plain_toJson (tool : ToolchainVersion) (depth : Nat) :
    Plain (depth + 2) tool.toJson := by
  have hdigest := tool.digest.plain_toJson depth
  simp [toJson, hdigest]

end ToolchainVersion

namespace Toolchain

def toJson : Toolchain → Json
  | .nix tool kettle =>
      object [("nix", tool.toJson), ("kettle", kettle.toJson)]
  | .rust cargo rustc kettle =>
      object [("cargo", cargo.toJson), ("rustc", rustc.toJson),
        ("kettle", kettle.toJson)]
  | .pnpm tool node kettle =>
      object [("pnpm", tool.toJson), ("node", node.toJson),
        ("kettle", kettle.toJson)]

def readNix (value : Json) : Option Toolchain := do
  let get ← value.variantFields ["nix", "kettle"]
  let tool ← required ToolchainVersion.ofJson get "nix"
  let kettle ← required ToolchainVersion.ofJson get "kettle"
  some (.nix tool kettle)

def readRust (value : Json) : Option Toolchain := do
  let get ← value.variantFields ["cargo", "rustc", "kettle"]
  let cargo ← required ToolchainVersion.ofJson get "cargo"
  let rustc ← required ToolchainVersion.ofJson get "rustc"
  let kettle ← required ToolchainVersion.ofJson get "kettle"
  some (.rust cargo rustc kettle)

def readPnpm (value : Json) : Option Toolchain := do
  let get ← value.variantFields ["pnpm", "node", "kettle"]
  let tool ← required ToolchainVersion.ofJson get "pnpm"
  let node ← required ToolchainVersion.ofJson get "node"
  let kettle ← required ToolchainVersion.ofJson get "kettle"
  some (.pnpm tool node kettle)

/-- The first variant that fits is taken. -/
def ofJson (value : Json) : Option Toolchain :=
  readNix value <|> readRust value <|> readPnpm value

theorem ofJson_toJson (toolchain : Toolchain) :
    ofJson toolchain.toJson = some toolchain := by
  cases toolchain with
  | nix tool kettle =>
      have htool := tool.ofJson_toJson
      have hkettle := kettle.ofJson_toJson
      simp [ofJson, toJson, readNix, htool, hkettle]
  | rust cargo rustc kettle =>
      have hcargo := cargo.ofJson_toJson
      have hrustc := rustc.ofJson_toJson
      have hkettle := kettle.ofJson_toJson
      simp [ofJson, toJson, readNix, readRust, hcargo, hrustc, hkettle]
  | pnpm tool node kettle =>
      have htool := tool.ofJson_toJson
      have hnode := node.ofJson_toJson
      have hkettle := kettle.ofJson_toJson
      simp [ofJson, toJson, readNix, readRust, readPnpm, htool, hnode,
        hkettle]

theorem plain_toJson (toolchain : Toolchain) (depth : Nat) :
    Plain (depth + 3) toolchain.toJson := by
  have htool := fun tool : ToolchainVersion => tool.plain_toJson depth
  cases toolchain <;> simp [toJson, htool]

end Toolchain

namespace Evaluation

def toJson (evaluation : Evaluation) : Json :=
  object [
    ("derivationCount", number evaluation.derivationCount),
    ("fetchCount", number evaluation.fetchCount)]

def ofJson (value : Json) : Option Evaluation := do
  let get ← value.fields ["derivationCount", "fetchCount"]
  let derivationCount ← required readNumber get "derivationCount"
  let fetchCount ← required readNumber get "fetchCount"
  some ⟨derivationCount, fetchCount⟩

@[simp] theorem isNull_toJson (evaluation : Evaluation) :
    evaluation.toJson.isNull = false := rfl

theorem ofJson_toJson (evaluation : Evaluation) :
    ofJson evaluation.toJson = some evaluation := by
  simp [ofJson, toJson]

def IntegerCounts (evaluation : Evaluation) : Prop :=
  evaluation.derivationCount.isInteger = true ∧
    evaluation.fetchCount.isInteger = true

theorem plain_toJson {evaluation : Evaluation}
    (hcounts : evaluation.IntegerCounts) (depth : Nat) :
    Plain (depth + 1) evaluation.toJson := by
  have hderivations : Plain depth (number evaluation.derivationCount) :=
    .integer hcounts.1
  have hfetches : Plain depth (number evaluation.fetchCount) :=
    .integer hcounts.2
  simp [toJson, hderivations, hfetches]

end Evaluation

namespace FlakeInput

def toJson (input : FlakeInput) : Json :=
  object [("name", string input.name), ("narHash", string input.narHash)]

def ofJson (value : Json) : Option FlakeInput := do
  let get ← value.fields ["name", "narHash"]
  let name ← required readString get "name"
  let narHash ← required readString get "narHash"
  some ⟨name, narHash⟩

theorem ofJson_toJson (input : FlakeInput) :
    ofJson input.toJson = some input := by
  simp [ofJson, toJson]

theorem plain_toJson (input : FlakeInput) (depth : Nat) :
    Plain (depth + 1) input.toJson := by
  simp [toJson]

end FlakeInput

namespace InternalParameters

def toJson (parameters : InternalParameters) : Json :=
  object (skipNone Evaluation.toJson "evaluation" parameters.evaluation ++
    skipNone (writeList FlakeInput.toJson) "flakeInputs"
      parameters.flakeInputs ++
    [("lockfileHash", parameters.lockfileHash.toJson),
      ("toolchain", parameters.toolchain.toJson)])

def ofJson (value : Json) : Option InternalParameters := do
  let get ← value.fields
    ["evaluation", "flakeInputs", "lockfileHash", "toolchain"]
  let evaluation ← nullable Evaluation.ofJson get "evaluation"
  let flakeInputs ← nullable (readList FlakeInput.ofJson) get "flakeInputs"
  let lockfileHash ← required Digest.ofJson get "lockfileHash"
  let toolchain ← required Toolchain.ofJson get "toolchain"
  some ⟨evaluation, flakeInputs, lockfileHash, toolchain⟩

theorem ofJson_toJson (parameters : InternalParameters) :
    ofJson parameters.toJson = some parameters := by
  obtain ⟨evaluation, flakeInputs, lockfileHash, toolchain⟩ := parameters
  have hlockfile := lockfileHash.ofJson_toJson
  have htoolchain := toolchain.ofJson_toJson
  have hinputs := readList_writeList FlakeInput.ofJson_toJson
  cases evaluation with
  | none =>
      cases flakeInputs <;>
        simp [ofJson, toJson, hlockfile, htoolchain, hinputs]
  | some evaluation =>
      have hevaluation := evaluation.ofJson_toJson
      cases flakeInputs <;>
        simp [ofJson, toJson, hlockfile, htoolchain, hinputs, hevaluation]

theorem plain_toJson {parameters : InternalParameters}
    (hcounts : ∀ evaluation, parameters.evaluation = some evaluation →
      evaluation.IntegerCounts) (depth : Nat) :
    Plain (depth + 4) parameters.toJson := by
  obtain ⟨evaluation, flakeInputs, lockfileHash, toolchain⟩ := parameters
  have hlockfile := lockfileHash.plain_toJson (depth + 2)
  have htoolchain := toolchain.plain_toJson depth
  have hinputs := plain_writeList
    (fun input : FlakeInput => input.plain_toJson (depth + 1))
  cases evaluation with
  | none =>
      cases flakeInputs <;> simp [toJson, hlockfile, htoolchain, hinputs]
  | some evaluation =>
      have hevaluation :=
        Evaluation.plain_toJson (hcounts evaluation rfl) (depth + 2)
      cases flakeInputs <;>
        simp [toJson, hlockfile, htoolchain, hinputs, hevaluation]

end InternalParameters

namespace BuildDefinition

def toJson (definition : BuildDefinition) : Json :=
  object [
    ("buildType", string definition.buildType),
    ("externalParameters", definition.externalParameters.toJson),
    ("internalParameters", definition.internalParameters.toJson),
    ("resolvedDependencies",
      writeList ResolvedDependency.toJson definition.resolvedDependencies)]

def ofJson (value : Json) : Option BuildDefinition := do
  let get ← value.fields ["buildType", "externalParameters",
    "internalParameters", "resolvedDependencies"]
  let buildType ← required readString get "buildType"
  let externalParameters ←
    required ExternalParameters.ofJson get "externalParameters"
  let internalParameters ←
    required InternalParameters.ofJson get "internalParameters"
  let resolvedDependencies ←
    required (readList ResolvedDependency.ofJson) get "resolvedDependencies"
  some ⟨buildType, externalParameters, internalParameters,
    resolvedDependencies⟩

theorem ofJson_toJson (definition : BuildDefinition) :
    ofJson definition.toJson = some definition := by
  have hexternal := definition.externalParameters.ofJson_toJson
  have hinternal := definition.internalParameters.ofJson_toJson
  have hdependencies := readList_writeList ResolvedDependency.ofJson_toJson
  simp [ofJson, toJson, hexternal, hinternal, hdependencies]

theorem plain_toJson {definition : BuildDefinition}
    (hcounts : ∀ evaluation,
      definition.internalParameters.evaluation = some evaluation →
      evaluation.IntegerCounts) (depth : Nat) :
    Plain (depth + 5) definition.toJson := by
  have hexternal := definition.externalParameters.plain_toJson (depth + 1)
  have hinternal := InternalParameters.plain_toJson hcounts depth
  have hdependencies := plain_writeList
    (fun dependency : ResolvedDependency =>
      dependency.plain_toJson (depth + 1)) definition.resolvedDependencies
  simp [toJson, hexternal, hinternal, hdependencies]

end BuildDefinition

namespace Metadata

def toJson (metadata : Metadata) : Json :=
  object [
    ("invocationId", string metadata.invocationId),
    ("startedOn", string metadata.startedOn),
    ("finishedOn", writeOption string metadata.finishedOn)]

def ofJson (value : Json) : Option Metadata := do
  let get ← value.fields ["invocationId", "startedOn", "finishedOn"]
  let invocationId ← required readString get "invocationId"
  let startedOn ← required readString get "startedOn"
  let finishedOn ← nullable readString get "finishedOn"
  some ⟨invocationId, startedOn, finishedOn⟩

theorem ofJson_toJson (metadata : Metadata) :
    ofJson metadata.toJson = some metadata := by
  obtain ⟨invocationId, startedOn, finishedOn⟩ := metadata
  cases finishedOn <;> simp [ofJson, toJson]

theorem plain_toJson (metadata : Metadata) (depth : Nat) :
    Plain (depth + 1) metadata.toJson := by
  obtain ⟨invocationId, startedOn, finishedOn⟩ := metadata
  cases finishedOn <;> simp [toJson, Plain.null]

end Metadata

namespace Byproduct

def toJson (byproduct : Byproduct) : Json :=
  object [
    ("digest", byproduct.digest.toJson),
    ("name", string byproduct.name)]

def ofJson (value : Json) : Option Byproduct := do
  let get ← value.fields ["digest", "name"]
  let digest ← required Digest.ofJson get "digest"
  let name ← required readString get "name"
  some ⟨digest, name⟩

theorem ofJson_toJson (byproduct : Byproduct) :
    ofJson byproduct.toJson = some byproduct := by
  have hdigest := byproduct.digest.ofJson_toJson
  simp [ofJson, toJson, hdigest]

theorem plain_toJson (byproduct : Byproduct) (depth : Nat) :
    Plain (depth + 2) byproduct.toJson := by
  have hdigest := byproduct.digest.plain_toJson depth
  simp [toJson, hdigest]

end Byproduct

/-- `Builder` by its only field. -/
def builderToJson (id : String) : Json := object [("id", string id)]

def builderOfJson (value : Json) : Option String := do
  let get ← value.fields ["id"]
  required readString get "id"

theorem builderOfJson_builderToJson (id : String) :
    builderOfJson (builderToJson id) = some id := by
  simp [builderOfJson, builderToJson]

namespace RunDetails

def toJson (details : RunDetails) : Json :=
  object [
    ("builder", builderToJson details.builder),
    ("byproducts", writeList Byproduct.toJson details.byproducts),
    ("metadata", details.metadata.toJson)]

def ofJson (value : Json) : Option RunDetails := do
  let get ← value.fields ["builder", "byproducts", "metadata"]
  let builder ← required builderOfJson get "builder"
  let byproducts ← required (readList Byproduct.ofJson) get "byproducts"
  let metadata ← required Metadata.ofJson get "metadata"
  some ⟨builder, byproducts, metadata⟩

theorem ofJson_toJson (details : RunDetails) :
    ofJson details.toJson = some details := by
  have hbuilder := builderOfJson_builderToJson details.builder
  have hbyproducts := readList_writeList Byproduct.ofJson_toJson
  have hmetadata := details.metadata.ofJson_toJson
  simp [ofJson, toJson, hbuilder, hbyproducts, hmetadata]

theorem plain_toJson (details : RunDetails) (depth : Nat) :
    Plain (depth + 4) details.toJson := by
  have hbyproducts := plain_writeList
    (fun byproduct : Byproduct => byproduct.plain_toJson depth)
    details.byproducts
  have hmetadata := details.metadata.plain_toJson (depth + 2)
  simp [toJson, builderToJson, hbyproducts, hmetadata]

end RunDetails

namespace Predicate

def toJson (predicate : Predicate) : Json :=
  object [
    ("buildDefinition", predicate.buildDefinition.toJson),
    ("runDetails", predicate.runDetails.toJson)]

def ofJson (value : Json) : Option Predicate := do
  let get ← value.fields ["buildDefinition", "runDetails"]
  let buildDefinition ←
    required BuildDefinition.ofJson get "buildDefinition"
  let runDetails ← required RunDetails.ofJson get "runDetails"
  some ⟨buildDefinition, runDetails⟩

theorem ofJson_toJson (predicate : Predicate) :
    ofJson predicate.toJson = some predicate := by
  have hdefinition := predicate.buildDefinition.ofJson_toJson
  have hdetails := predicate.runDetails.ofJson_toJson
  simp [ofJson, toJson, hdefinition, hdetails]

theorem plain_toJson {predicate : Predicate}
    (hcounts : ∀ evaluation,
      predicate.buildDefinition.internalParameters.evaluation =
        some evaluation → evaluation.IntegerCounts) (depth : Nat) :
    Plain (depth + 6) predicate.toJson := by
  have hdefinition := BuildDefinition.plain_toJson hcounts depth
  have hdetails := predicate.runDetails.plain_toJson (depth + 1)
  simp [toJson, hdefinition, hdetails]

end Predicate

namespace Provenance

def toJsonValue (provenance : Provenance) : Json :=
  object [
    ("_type", string provenance.type),
    ("predicate", provenance.predicate.toJson),
    ("predicateType", string provenance.predicateType),
    ("subject", writeList Subject.toJson provenance.subject)]

def ofJsonValue (value : Json) : Option Provenance := do
  let get ← value.fields ["_type", "predicate", "predicateType", "subject"]
  let type ← required readString get "_type"
  let predicate ← required Predicate.ofJson get "predicate"
  let predicateType ← required readString get "predicateType"
  let subject ← required (readList Subject.ofJson) get "subject"
  some ⟨type, predicate, predicateType, subject⟩

theorem ofJsonValue_toJsonValue (provenance : Provenance) :
    ofJsonValue provenance.toJsonValue = some provenance := by
  have hpredicate := provenance.predicate.ofJson_toJson
  have hsubject := readList_writeList Subject.ofJson_toJson
  simp [ofJsonValue, toJsonValue, hpredicate, hsubject]

/-- The evaluation counts, if there are any, are integers. -/
def IntegerCounts (provenance : Provenance) : Prop :=
  ∀ evaluation,
    provenance.predicate.buildDefinition.internalParameters.evaluation =
      some evaluation → evaluation.IntegerCounts

theorem plain_toJsonValue {provenance : Provenance}
    (hcounts : provenance.IntegerCounts) (depth : Nat) :
    Plain (depth + 7) provenance.toJsonValue := by
  have hpredicate := Predicate.plain_toJson hcounts depth
  have hsubject := plain_writeList
    (fun subject : Subject => subject.plain_toJson (depth + 3))
    provenance.subject
  simp [toJsonValue, hpredicate, hsubject]

theorem toJsonValue_injective : Function.Injective toJsonValue := by
  intro left right heq
  have hread := congrArg ofJsonValue heq
  rw [ofJsonValue_toJsonValue, ofJsonValue_toJsonValue] at hread
  exact Option.some.inj hread

variable (text : JsonText)

/-- `Provenance::to_json`, as bytes. -/
def toJson (provenance : Provenance) : Bytes :=
  text.render provenance.toJsonValue

/-- `Provenance::from_json`; the text of an error is left out. -/
def fromJson (bytes : Bytes) : Option Provenance :=
  (text.parse bytes).bind ofJsonValue

/-- `Provenance::checksum`. -/
def checksum (sha256 : Bytes → ByteVec 32) (provenance : Provenance) :
    ByteVec 32 :=
  sha256 (provenance.toJson text)

variable {text}

theorem toJson_injective : Function.Injective (toJson text) :=
  text.render_injective.comp toJsonValue_injective

theorem fromJson_toJson {provenance : Provenance}
    (hcounts : provenance.IntegerCounts) :
    fromJson text (provenance.toJson text) = some provenance := by
  unfold fromJson toJson
  rw [text.parse_render _ (plain_toJsonValue hcounts 120), Option.bind_some,
    ofJsonValue_toJsonValue]

end Provenance

end Kettle
