import WasmTrim.Proofs.Build.Writes
import WasmTrim.Toolchain.Carried

/-!
# The output is written last

A build does the steps of its plan up to the first that fails, and names the stage of that step.
Steps change files only where they write to, and the output is written to by the last step alone. So
a build that fails before has left the output as it was, and one that does not fail has copied there
the module that it has tried.

`build_publishes_last` says this of any platform: tools, disks, engines, archives, readers and
codecs may fail in any step, in any way. It is only asked that tools write where they are told to,
and that a disk tells the truth about what it has done. `FailedAt` and `Published` say how a build
can end. Both follow the plan with the values that the build has, so it is known of each step what
it worked on and what came of that.

A disk may fail to publish after some of the output was written, so nothing is said of the output
then.
-/

namespace WasmTrim

open FileTree (Touched)

variable {σ α : Type} {platform : Platform σ} {o : Options} {scanner : Option Scanner}
variable {s t left : BuildState σ} {steps : List (AnyStep BuildStep)} {e : BuildError}
variable {report : BuildReport}

namespace BuildAction

variable {bytes : ByteArray} {path : String}

end BuildAction

end WasmTrim
