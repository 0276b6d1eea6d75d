/-
Whether the recorded tree is the source that was built.  A run asks git for
the tree of HEAD and builds what lies in the working tree; only the output
directory is cleaned.
-/
import Kettle.Toolchain.Cargo

namespace Kettle

namespace Toolchain

section WorkingTree

-- the files of a tree object, by their paths from the top of the repository
variable (treeFiles : String → Path → Option File)

-- the ignore rules
variable (ignored : Path → Prop)

end WorkingTree

variable {files : FileSystem} {path : Path}

end Toolchain

end Kettle
