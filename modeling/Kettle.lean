import Kettle.Igvm.LaunchDigest
import Kettle.Lib.Hex
import Kettle.Verify.Verification
import Kettle.Verify.ReportData
import Kettle.Igvm.Extract
import Kettle.Igvm.KernelScan
import Kettle.Igvm.CmdlineBinding
import Kettle.Igvm.ForgedPage
import Kettle.Igvm.Build
import Kettle.Igvm.GuestMemory
import Kettle.Igvm.BuildLayout
import Kettle.Igvm.MemoryScan
import Kettle.Igvm.HobList
import Kettle.Igvm.BuildExtract
import Kettle.Igvm.BuildRoundTrip
import Kettle.Host.FileSystem
import Kettle.Provenance
import Kettle.Host.Machine
import Kettle.Toolchain.CargoLock
import Kettle.Toolchain.PathDependencies
import Kettle.Toolchain.LockCompleteness
import Kettle.Host.Effects
import Kettle.Toolchain.Driver
import Kettle.Toolchain.Runner
import Kettle.Toolchain.Cargo
import Kettle.Toolchain.SourceBinding
import Kettle.Toolchain.Artifacts
import Kettle.Toolchain.StaleArtifacts
import Kettle.ProvenanceJson
import Kettle.Verify.FileBinding
import Kettle.Verify.Verify
import Kettle.Verify.Verdict
import Kettle.Lib.Transition
import Kettle.Server.Api
import Kettle.Server.NonceParsers
import Kettle.Server.Gate
import Kettle.Server.Runner
import Kettle.Lib.BitFlags
import Kettle.Lib.Credentials
import Kettle.Lib.Broadcast
import Kettle.Server.EventStream
import Kettle.Server.Lifecycle
import Kettle.Server.Delivery
import Kettle.Server.StreamOrder
import Kettle.Toolchain.Nix
import Kettle.Toolchain.StorePaths
import Kettle.Toolchain.SelfVerify
import Kettle.Commands.Build
import Kettle.Commands.Attest
import Kettle.Commands.ProjectRuns
import Kettle.Commands.Evidence
import Kettle.Lib.Merkle
import Kettle.Toolchain.MerkleRoot
import Kettle.Lib.LexOrder
import Kettle.Toolchain.FetchOrder
import Kettle.Toolchain.DigestLabels
import Kettle.Verify.FastRoothash
import Kettle.Igvm.HobDecode
import Kettle.Igvm.HobPlacement
import Kettle.Igvm.BuilderOps
import Kettle.Igvm.DirectiveOrder
import Kettle.Igvm.SevCoverage
import Kettle.Igvm.AlikeDirectives
import Kettle.Igvm.BuildOps
import Kettle.Igvm.BuilderPairs
import Kettle.Igvm.SnpBuild
import Kettle.Igvm.NativePlatform
import Kettle.Igvm.VcpuStep
import Kettle.Igvm.VmsaOverrides
import Kettle.Igvm.OvmfTable
import Kettle.Igvm.OvmfPartial
import Kettle.Igvm.CheckedExtract
import Kettle.Igvm.CheckedMeasure
import Kettle.Igvm.NeverPanics
import Kettle.Verify.CheckedVerity
import Kettle.Verify.ArtifactReport
import Kettle.Host.TomlOrder
import Kettle.Lib.Agree
import Kettle.Lib.Separated
import Kettle.Toolchain.CargoUri
import Kettle.Toolchain.EnumerationOrder
import Kettle.Lib.Percent
import Kettle.Toolchain.CargoIdentity
import Kettle.Toolchain.MemberPatterns
import Kettle.Lib.Url
import Kettle.Toolchain.PnpmShape
import Kettle.Toolchain.PnpmKey
import Kettle.Toolchain.EvaluationCounts
import Kettle.Toolchain.FlakeInputs
import Kettle.Igvm.PeSections
import Kettle.Server.TopLevel
import Kettle.Igvm.Reassemble
import Kettle.Toolchain.RelativePath
import Kettle.Vtpm.PcrSlots
import Kettle.Vtpm.PcrSelections
import Kettle.Vtpm.PcrData
import Kettle.Vtpm.ReadAll
import Kettle.Vtpm.Quote
import Kettle.Toolchain.StreamCommand
import Kettle.Toolchain.StreamedPaths
import Kettle.Toolchain.Confine
import Kettle.Commands.RoundTrip
import Kettle.Lib.Layout
import Kettle.Vtpm.HclReport
import Kettle.Lib.Command
import Kettle.Lib.ServerSentEvents
import Kettle.Lib.JsonCompact
import Kettle.Lib.FixedFile
import Kettle.Vtpm.Context
import Kettle.Vtpm.NvReaderWriter
import Kettle.Vtpm.NvIndex
import Kettle.Server.EventText
import Kettle.Server.Service
import Kettle.Commands.Copies
import Kettle.Verify.BuiltImage
import Kettle.Server.Source
import Kettle.Server.Downloads
