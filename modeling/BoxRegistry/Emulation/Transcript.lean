import BoxRegistry.Emulation.Kernel
import BoxRegistry.OutputLog

namespace BoxRegistry.Emulation.Kernel

def transcript (k : Kernel) (box : Pid) : OutputStream.Log × OutputStream.Log :=
  (OutputStream.stdout.log (k.output box).out, OutputStream.stderr.log (k.output box).err)

def completeLines (bytes : List UInt8) : List UInt8 :=
  (bytes.reverse.dropWhile (· ≠ 10)).reverse

/--
Whether a box has written a line. The last one counts without a line end only if nothing more can come.
-/
def hasPrinted (k : Kernel) (box : Pid) (line : String) : Bool :=
  let written (bytes : List UInt8) : List UInt8 :=
    if k.isClosed box then bytes else completeLines bytes
  let output := k.output box
  ((OutputStream.stdout.log (written output.out)).lines ++
    (OutputStream.stderr.log (written output.err)).lines).any fun entry => entry.text = line

end BoxRegistry.Emulation.Kernel
