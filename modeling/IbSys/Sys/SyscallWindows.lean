/-
# IbSys.Sys.SyscallWindows -- the Windows partition

Windows has no raw system calls: output goes through two imports of `kernel32.dll`. `Kernel32` is what
these do, with the one promise `print` relies on: a successful `WriteFile` reports at most as many
bytes as it was asked to write. A run records its `WriteFile` calls, as a POSIX run records its traps.
-/
import IbSys.Sys.Detail

namespace IbSys.SyscallWindows

open Detail

/-! ## Imports -/

/-- What `WriteFile` returns, and what it stores through `lp_number_of_bytes_written`. -/
structure WriteFileResult where
  ok : BitVec 32
  written : BitVec 32

/-- `GetStdHandle` and `WriteFile`. A handle is a pointer. -/
structure Kernel32 (w : Nat) where
  getStdHandle : BitVec 32 → BitVec w
  writeFile : BitVec w → BitVec w → BitVec 32 → WriteFileResult
  written_le : ∀ file data bytes, (writeFile file data bytes).ok ≠ 0 →
    (writeFile file data bytes).written.toNat ≤ bytes.toNat

/-- One call of `WriteFile`. -/
structure WriteCall (w : Nat) where
  file : BitVec w
  data : BitVec w
  bytes : BitVec 32
  deriving DecidableEq

/-- What a wrapper returns, and the calls of `WriteFile` it has made. -/
structure WinRun (w : Nat) where
  value : BitVec w
  writes : List (WriteCall w)

variable {w : Nat}

/-! ## Wrappers -/

inductive StdHandle where
  | input
  | output
  | error

/-- `get_std_handle`: the device number of the handle, passed to `GetStdHandle`. -/
def getStdHandle (k : Kernel32 w) (which : StdHandle) : BitVec w :=
  let nStdHandle : BitVec 32 :=
    match which with
    | .input => -10
    | .error => -12
    | .output => -11
  k.getStdHandle nStdHandle

/-- `INVALID_HANDLE_VALUE`. -/
def invalidHandle (w : Nat) : BitVec w := -1

/-- `write_file`: whether the call succeeded, and the count it reports. -/
def writeFile (k : Kernel32 w) (file data : BitVec w) (bytes : BitVec 32) : Bool × BitVec 32 :=
  let r := k.writeFile file data bytes
  (decide (r.ok ≠ 0), r.written)

/-- `print(data, size)`: `size` is narrowed to `u32` on the way in, and the count is converted to
`isize` on the way out. -/
def print (k : Kernel32 w) (data size : BitVec w) : WinRun w :=
  let output := getStdHandle k .output
  if output = invalidHandle w then
    { value := -1, writes := [] }
  else
    -- `static_cast<u32>(size)` drops the high bits on Win64
    let bytes := size.setWidth 32
    let r := writeFile k output data bytes
    let writes := [{ file := output, data := data, bytes := bytes }]
    if !r.1 then { value := -1, writes := writes }
    else { value := r.2.setWidth w, writes := writes }

/-- `print(string)`: no run when the scan for the terminator does not end. -/
def printString (k : Kernel32 w) (read : BitVec w → Option (BitVec 8)) (string : BitVec w) :
    Option (WinRun w) :=
  match strLength read string with
  | .length n => some (print k string n)
  | _ => none

end IbSys.SyscallWindows
