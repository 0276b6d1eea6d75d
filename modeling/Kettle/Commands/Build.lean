/-
`kettle build`: find the toolchain of a project, and run it.
-/
import Kettle.Toolchain.Cargo
import Kettle.Toolchain.Pnpm

namespace Kettle

namespace Commands

open Toolchain

inductive ProjectToolchain where
  | cargo
  | nix
  | pnpm
deriving DecidableEq, Repr

namespace ProjectToolchain

/-- A flake comes before a lock file. -/
def fromDir (host : Host) (files : FileSystem) (path : Path) :
    Except String ProjectToolchain :=
  if files.exists? (path ++ [.text "flake.nix"]) then .ok nix
  else if files.exists? (path ++ [.text "Cargo.lock"]) then .ok cargo
  else if files.exists? (path ++ [.text "pnpm-lock.yaml"]) then .ok pnpm
  else
    .error s!"Could not determine toolchain. Is {host.debug path.display} a rust, nix, or pnpm project?"

def Inputs : ProjectToolchain → Type
  | cargo => CargoInputs
  | nix => NixInputs
  | pnpm => PnpmInputs

def driver (host : Host) :
    (toolchain : ProjectToolchain) → ToolchainDriver toolchain.Inputs
  | cargo => CargoInputs.driver host
  | nix => NixInputs.driver host
  | pnpm => PnpmInputs.driver host

end ProjectToolchain

/-- `build_with_sink`. -/
def build (host : Host) (metadata : Metadata) (files : FileSystem)
    (path : Path) : Except String FileSystem := do
  let toolchain ← ProjectToolchain.fromDir host files path
  run (toolchain.driver host) host metadata files path

end Commands

end Kettle
