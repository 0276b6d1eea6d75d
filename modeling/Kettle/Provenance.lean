/-
The provenance statement of a build, field by field.
-/
import Kettle.Lib.Json

namespace Kettle

inductive Digest where
  | sha256 (text : String)
  | sha512 (text : String)
  | gitCommit (text : String)
deriving DecidableEq, Repr

def Digest.value : Digest → String
  | .sha256 text | .sha512 text | .gitCommit text => text

structure Subject where
  digest : Digest
  name : String
deriving DecidableEq, Repr

structure Annotation where
  drvPath : String
  outputHashMode : Option String
  url : Option String
  urls : Option String
deriving DecidableEq, Repr

structure ResolvedDependency where
  annotations : Option Annotation
  digest : Digest
  name : String
  uri : String
deriving DecidableEq, Repr

structure SourceDigest where
  gitCommit : String
  gitTree : String
deriving DecidableEq, Repr

structure Source where
  digest : SourceDigest
  uri : String
deriving DecidableEq, Repr

structure ExternalParameters where
  buildCommand : String
  source : Source
deriving DecidableEq, Repr

structure ToolchainVersion where
  digest : Digest
  version : String
deriving DecidableEq, Repr

inductive Toolchain where
  | nix (nix kettle : ToolchainVersion)
  | rust (cargo rustc kettle : ToolchainVersion)
  | pnpm (pnpm node kettle : ToolchainVersion)
deriving DecidableEq, Repr

structure Evaluation where
  derivationCount : JsonNumber
  fetchCount : JsonNumber
deriving DecidableEq, Repr

structure FlakeInput where
  name : String
  narHash : String
deriving DecidableEq, Repr

structure InternalParameters where
  evaluation : Option Evaluation
  flakeInputs : Option (List FlakeInput)
  lockfileHash : Digest
  toolchain : Toolchain
deriving DecidableEq, Repr

structure BuildDefinition where
  buildType : String
  externalParameters : ExternalParameters
  internalParameters : InternalParameters
  resolvedDependencies : List ResolvedDependency
deriving DecidableEq, Repr

structure Metadata where
  invocationId : String
  startedOn : String
  finishedOn : Option String
deriving DecidableEq, Repr

structure Byproduct where
  digest : Digest
  name : String
deriving DecidableEq, Repr

/-- `builder` is its only field, the id. -/
structure RunDetails where
  builder : String
  byproducts : List Byproduct
  metadata : Metadata
deriving DecidableEq, Repr

structure Predicate where
  buildDefinition : BuildDefinition
  runDetails : RunDetails
deriving DecidableEq, Repr

structure Provenance where
  type : String
  predicate : Predicate
  predicateType : String
  subject : List Subject
deriving DecidableEq, Repr

namespace Provenance

def gitCommit (provenance : Provenance) : String :=
  provenance.predicate.buildDefinition.externalParameters.source.digest.gitCommit

def gitTree (provenance : Provenance) : String :=
  provenance.predicate.buildDefinition.externalParameters.source.digest.gitTree

end Provenance

end Kettle
