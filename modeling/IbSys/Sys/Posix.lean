/-
# IbSys.Sys.Posix -- the POSIX-like layer

`mmap`, `write`, `write_string`, the two `print` overloads and `exit`, over the raw primitives of
the active backend. The preprocessor branches of `mmap` are branches on the target.
-/
import IbSys.Sys.Backend
import IbSys.Sys.Detail

namespace IbSys

open InlineAsm RegMachine Detail

/-! ## Memory mapping -/

/-- `MAP_FAILED`, the pointer `static_cast<usize>(-1)`. -/
def mapFailed (w : Nat) : BitVec w := BitVec.ofInt w (-1)

/-- The arguments of `mmap`. -/
structure MmapArgs (w : Nat) where
  addr : BitVec w
  length : BitVec w
  prot : BitVec 32
  flags : BitVec 32
  fd : BitVec 32
  offset : BitVec w
  deriving DecidableEq

/-- `static_cast<usize>` of an `i32`: the sign is extended to the width of the word. -/
def usizeOfI32 (w : Nat) (v : BitVec 32) : BitVec w := v.signExtend w

/-- The size of the units of the offset of `mmap2`. -/
def pageSize (w : Nat) : BitVec w := 4096

/-- The errno test of `mmap`: a result strictly between -4096 and 0. -/
def isErrno {w : Nat} (result : BitVec w) : Bool :=
  decide (result.toInt < 0 ∧ result.toInt > -4096)

/-- The end of `mmap`: an errno becomes `MAP_FAILED`, anything else is the mapped address. -/
def decodeMmap {w : Nat} (r : Run Reg w) : Run Reg w :=
  if isErrno r.value then { r with value := mapFailed w } else r

/-- `mmap`'s three preprocessor branches: `mmap2` on 32-bit Linux, a padding word between `fd` and
`offset` where `syscall7` exists, and the plain call elsewhere. -/
def mmap (t : Target) (K : t.Mach → t.Mach) (place : t.Place) (a : MmapArgs t.width)
    (m : t.Mach) : Run Reg t.width :=
  let n := BitVec.ofNat t.width t.sysMmap
  let prot := usizeOfI32 t.width a.prot
  let flags := usizeOfI32 t.width a.flags
  let fd := usizeOfI32 t.width a.fd
  if t.HasMmap2 then
    -- the early return: an offset that is no number of pages never reaches the kernel
    if a.offset &&& (pageSize t.width - 1) ≠ 0 then
      { value := mapFailed t.width, traps := [], mach := m }
    else
      -- `offset` and `page_size` are `isize`, so the quotient is signed
      decodeMmap
        (syscall6 t K place n a.addr a.length prot flags fd (a.offset.sdiv (pageSize t.width)) m)
  else if h : t.HasSyscall7 then
    -- the sixth argument is the padding word
    decodeMmap (syscall7 t h K place n a.addr a.length prot flags fd 0 a.offset m)
  else
    decodeMmap (syscall6 t K place n a.addr a.length prot flags fd a.offset m)

/-! ## Output -/

/-- The descriptor of the standard output stream. -/
def stdout (w : Nat) : BitVec w := 1

def write (t : Target) (K : t.Mach → t.Mach) (place : t.Place) (fd data size : BitVec t.width)
    (m : t.Mach) : Run Reg t.width :=
  syscall3 t K place (BitVec.ofNat t.width t.sysWrite) fd data size m

/-- `write_string`: no run when the scan for the terminator does not end. -/
def writeString (t : Target) (K : t.Mach → t.Mach) (place : t.Place) (fd string : BitVec t.width)
    (m : t.Mach) : Option (Run Reg t.width) :=
  match strLength (fun a => some (m.mem a)) string with
  | .length n => some (write t K place fd string n m)
  | _ => none

/-- `print(data, size)`. -/
def print (t : Target) (K : t.Mach → t.Mach) (place : t.Place) (data size : BitVec t.width)
    (m : t.Mach) : Run Reg t.width :=
  write t K place (stdout t.width) data size m

/-- `print(string)`. -/
def printString (t : Target) (K : t.Mach → t.Mach) (place : t.Place) (string : BitVec t.width)
    (m : t.Mach) : Option (Run Reg t.width) :=
  writeString t K place (stdout t.width) string m

/-! ## Process -/

/-- `exit`: the value of the call is discarded, and nothing follows it. -/
def exit (t : Target) (K : t.Mach → t.Mach) (place : t.Place) (status : BitVec t.width)
    (m : t.Mach) : Run Reg t.width :=
  syscall3 t K place (BitVec.ofNat t.width t.sysExit) status 0 0 m

end IbSys
