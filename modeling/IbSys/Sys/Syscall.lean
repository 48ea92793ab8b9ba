/-
# IbSys.Sys.Syscall -- the raw system-call partitions

One namespace for each `syscall_<family>_<arch>.cpp`: its `SYS_*` numbers, where they are its own,
and the asm statement of its `syscall3`, `syscall6` and (where it exists) `syscall7`. The inputs
stand in the order of the source; the read half of the `"+r"` operand, which the compiler numbers
after them, comes last. Most templates are the trap alone. The exceptions are the amd64 `syscall7`,
which stores its seventh argument above a lowered stack pointer, and the BSD i386 statements, which
push their arguments and the number.
-/
import IbSys.Target

namespace IbSys

open InlineAsm RegMachine

/-! ## Linux -/

namespace SyscallLinuxAmd64

def sysWrite : Nat := 1
def sysExit : Nat := 60
def sysMmap : Nat := 9

def syscall3 : Asm Reg Param where
  output := .rax
  inputs := [(.pin .rdi, .a1), (.pin .rsi, .a2), (.pin .rdx, .a3), (.pin .rax, .n)]
  clobbers := [.rcx, .r11]
  clobbersFlag := true

def syscall6 : Asm Reg Param where
  output := .rax
  inputs := [(.pin .rdi, .a1), (.pin .rsi, .a2), (.pin .rdx, .a3), (.pin .r10, .a4),
    (.pin .r8, .a5), (.pin .r9, .a6), (.pin .rax, .n)]
  clobbers := [.rcx, .r11]
  clobbersFlag := true

end SyscallLinuxAmd64

namespace SyscallLinuxI386

def sysWrite : Nat := 4
def sysExit : Nat := 1
def sysMmap2 : Nat := 192

def syscall3 : Asm Reg Param where
  output := .eax
  inputs := [(.pin .ebx, .a1), (.pin .ecx, .a2), (.pin .edx, .a3), (.pin .eax, .n)]
  clobbers := []
  clobbersFlag := true

def syscall6 : Asm Reg Param where
  output := .eax
  inputs := [(.pin .ebx, .a1), (.pin .ecx, .a2), (.pin .edx, .a3), (.pin .esi, .a4),
    (.pin .edi, .a5), (.pin .ebp, .a6), (.pin .eax, .n)]
  clobbers := []
  clobbersFlag := true

end SyscallLinuxI386

namespace SyscallLinuxArm

def sysWrite : Nat := 4
def sysExit : Nat := 1
def sysMmap2 : Nat := 192

def syscall3 : Asm Reg Param where
  output := .r 0
  inputs := [(.pin (.r 1), .a2), (.pin (.r 2), .a3), (.pin (.r 7), .n), (.pin (.r 0), .a1)]
  clobbers := []
  clobbersFlag := true

def syscall6 : Asm Reg Param where
  output := .r 0
  inputs := [(.pin (.r 1), .a2), (.pin (.r 2), .a3), (.pin (.r 3), .a4), (.pin (.r 4), .a5),
    (.pin (.r 5), .a6), (.pin (.r 7), .n), (.pin (.r 0), .a1)]
  clobbers := []
  clobbersFlag := true

end SyscallLinuxArm

namespace SyscallLinuxAarch64

def sysWrite : Nat := 64
def sysExit : Nat := 93
def sysMmap : Nat := 222

def syscall3 : Asm Reg Param where
  output := .x 0
  inputs := [(.pin (.x 1), .a2), (.pin (.x 2), .a3), (.pin (.x 8), .n), (.pin (.x 0), .a1)]
  clobbers := []
  clobbersFlag := false

def syscall6 : Asm Reg Param where
  output := .x 0
  inputs := [(.pin (.x 1), .a2), (.pin (.x 2), .a3), (.pin (.x 3), .a4), (.pin (.x 4), .a5),
    (.pin (.x 5), .a6), (.pin (.x 8), .n), (.pin (.x 0), .a1)]
  clobbers := []
  clobbersFlag := false

end SyscallLinuxAarch64

namespace SyscallLinuxMips64

def sysWrite : Nat := 5001
def sysExit : Nat := 5058
def sysMmap : Nat := 5009

/-- The clobbers include `$7`, where the kernel puts the error indicator. -/
def syscall3 : Asm Reg Param where
  output := .mips 2
  inputs := [(.pin (.mips 4), .a1), (.pin (.mips 5), .a2), (.pin (.mips 6), .a3),
    (.pin (.mips 2), .n)]
  clobbers := [.mips 1, .mips 3, .mips 7]
  clobbersFlag := false

/-- Here `$7` carries `a4`, as an input only. -/
def syscall6 : Asm Reg Param where
  output := .mips 2
  inputs := [(.pin (.mips 4), .a1), (.pin (.mips 5), .a2), (.pin (.mips 6), .a3),
    (.pin (.mips 7), .a4), (.pin (.mips 8), .a5), (.pin (.mips 9), .a6), (.pin (.mips 2), .n)]
  clobbers := [.mips 1, .mips 3, .mips 10, .mips 11]
  clobbersFlag := false

end SyscallLinuxMips64

namespace SyscallLinuxPpc64

def sysWrite : Nat := 4
def sysExit : Nat := 1
def sysMmap : Nat := 90

def syscall3 : Asm Reg Param where
  output := .r 3
  inputs := [(.pin (.r 0), .n), (.pin (.r 4), .a2), (.pin (.r 5), .a3), (.pin (.r 3), .a1)]
  clobbers := [.r 6, .r 7, .r 8, .r 9, .r 10, .r 11, .r 12, .ctr, .xer]
  clobbersFlag := true

def syscall6 : Asm Reg Param where
  output := .r 3
  inputs := [(.pin (.r 0), .n), (.pin (.r 4), .a2), (.pin (.r 5), .a3), (.pin (.r 6), .a4),
    (.pin (.r 7), .a5), (.pin (.r 8), .a6), (.pin (.r 3), .a1)]
  clobbers := [.r 9, .r 10, .r 11, .r 12, .ctr, .xer]
  clobbersFlag := true

end SyscallLinuxPpc64

namespace SyscallLinuxRiscv64

def sysWrite : Nat := 64
def sysExit : Nat := 93
def sysMmap : Nat := 222

def syscall3 : Asm Reg Param where
  output := .a 0
  inputs := [(.pin (.a 1), .a2), (.pin (.a 2), .a3), (.pin (.a 7), .n), (.pin (.a 0), .a1)]
  clobbers := []
  clobbersFlag := false

def syscall6 : Asm Reg Param where
  output := .a 0
  inputs := [(.pin (.a 1), .a2), (.pin (.a 2), .a3), (.pin (.a 3), .a4), (.pin (.a 4), .a5),
    (.pin (.a 5), .a6), (.pin (.a 7), .n), (.pin (.a 0), .a1)]
  clobbers := []
  clobbersFlag := false

end SyscallLinuxRiscv64

namespace SyscallLinuxS390x

def sysWrite : Nat := 4
def sysExit : Nat := 1
def sysMmap : Nat := 90

def syscall3 : Asm Reg Param where
  output := .r 2
  inputs := [(.pin (.r 1), .n), (.pin (.r 3), .a2), (.pin (.r 4), .a3), (.pin (.r 2), .a1)]
  clobbers := []
  clobbersFlag := true

def syscall6 : Asm Reg Param where
  output := .r 2
  inputs := [(.pin (.r 1), .n), (.pin (.r 3), .a2), (.pin (.r 4), .a3), (.pin (.r 5), .a4),
    (.pin (.r 6), .a5), (.pin (.r 7), .a6), (.pin (.r 2), .a1)]
  clobbers := []
  clobbersFlag := true

end SyscallLinuxS390x

namespace SyscallLinuxLoongarch64

def sysWrite : Nat := 64
def sysExit : Nat := 93
def sysMmap : Nat := 222

def syscall3 : Asm Reg Param where
  output := .a 0
  inputs := [(.pin (.a 1), .a2), (.pin (.a 2), .a3), (.pin (.a 7), .n), (.pin (.a 0), .a1)]
  clobbers := []
  clobbersFlag := false

def syscall6 : Asm Reg Param where
  output := .a 0
  inputs := [(.pin (.a 1), .a2), (.pin (.a 2), .a3), (.pin (.a 3), .a4), (.pin (.a 4), .a5),
    (.pin (.a 5), .a6), (.pin (.a 7), .n), (.pin (.a 0), .a1)]
  clobbers := []
  clobbersFlag := false

end SyscallLinuxLoongarch64

/-! ## The BSDs

The partitions are shared; each BSD has its own number for `mmap`. `syscall7` is compiled for NetBSD
and OpenBSD only and serves their `mmap`. -/

namespace SyscallBsd

def sysWrite : Nat := 4
def sysExit : Nat := 1

end SyscallBsd

namespace SyscallFreebsd

def sysMmap : Nat := 477

end SyscallFreebsd

namespace SyscallNetbsd

def sysMmap : Nat := 197

end SyscallNetbsd

namespace SyscallOpenbsd

def sysMmap : Nat := 49

end SyscallOpenbsd

namespace SyscallDragonfly

def sysMmap : Nat := 197

end SyscallDragonfly

namespace SyscallBsdAmd64

/-- The registers of arguments 4 to 6 are pinned to a literal 0. -/
def syscall3 : Asm Reg Param where
  output := .rax
  inputs := [(.pin .rax, .n), (.pin .rdi, .a1), (.pin .rsi, .a2), (.pin .rdx, .a3),
    (.pin .r10, .zero), (.pin .r8, .zero), (.pin .r9, .zero)]
  clobbers := [.rcx, .r11]
  clobbersFlag := false

def syscall6 : Asm Reg Param where
  output := .rax
  inputs := [(.pin .rax, .n), (.pin .rdi, .a1), (.pin .rsi, .a2), (.pin .rdx, .a3),
    (.pin .r10, .a4), (.pin .r8, .a5), (.pin .r9, .a6)]
  clobbers := [.rcx, .r11]
  clobbersFlag := false

/-- `subq $16, %rsp; movq %8, 8(%rsp); syscall; addq $16, %rsp`. -/
def syscall7 : Asm Reg Param where
  before := [.sub 16 .rsp, .mov (.operand 8) 8 .rsp]
  after := [.add 16 .rsp]
  output := .rax
  inputs := [(.pin .rax, .n), (.pin .rdi, .a1), (.pin .rsi, .a2), (.pin .rdx, .a3),
    (.pin .r10, .a4), (.pin .r8, .a5), (.pin .r9, .a6), (.anyReg, .a7)]
  clobbers := [.rcx, .r11]
  clobbersFlag := false

end SyscallBsdAmd64

namespace SyscallBsdI386

/-- `pushl %4; pushl %3; pushl %2; pushl %eax; int $0x80; addl $16, %esp`. -/
def syscall3 : Asm Reg Param where
  before := [.push .esp (.operand 4), .push .esp (.operand 3), .push .esp (.operand 2),
    .push .esp (.reg .eax)]
  after := [.add 16 .esp]
  output := .eax
  inputs := [(.pin .eax, .n), (.general, .a1), (.general, .a2), (.general, .a3)]
  clobbers := []
  clobbersFlag := true

/-- `pushl %7` down to `pushl %2`, `pushl %eax; int $0x80; addl $28, %esp`. -/
def syscall6 : Asm Reg Param where
  before := [.push .esp (.operand 7), .push .esp (.operand 6), .push .esp (.operand 5),
    .push .esp (.operand 4), .push .esp (.operand 3), .push .esp (.operand 2),
    .push .esp (.reg .eax)]
  after := [.add 28 .esp]
  output := .eax
  inputs := [(.pin .eax, .n), (.general, .a1), (.general, .a2), (.general, .a3), (.general, .a4),
    (.general, .a5), (.general, .a6)]
  clobbers := []
  clobbersFlag := true

/-- `pushl %8` down to `pushl %2`, `pushl %eax; int $0x80; addl $32, %esp`. -/
def syscall7 : Asm Reg Param where
  before := [.push .esp (.operand 8), .push .esp (.operand 7), .push .esp (.operand 6),
    .push .esp (.operand 5), .push .esp (.operand 4), .push .esp (.operand 3),
    .push .esp (.operand 2), .push .esp (.reg .eax)]
  after := [.add 32 .esp]
  output := .eax
  inputs := [(.pin .eax, .n), (.general, .a1), (.general, .a2), (.general, .a3), (.general, .a4),
    (.general, .a5), (.general, .a6), (.general, .a7)]
  clobbers := []
  clobbersFlag := true

end SyscallBsdI386

namespace SyscallBsdAarch64

def syscall3 : Asm Reg Param where
  output := .x 0
  inputs := [(.pin (.x 8), .n), (.pin (.x 1), .a2), (.pin (.x 2), .a3), (.pin (.x 0), .a1)]
  clobbers := []
  clobbersFlag := true

def syscall6 : Asm Reg Param where
  output := .x 0
  inputs := [(.pin (.x 8), .n), (.pin (.x 1), .a2), (.pin (.x 2), .a3), (.pin (.x 3), .a4),
    (.pin (.x 4), .a5), (.pin (.x 5), .a6), (.pin (.x 0), .a1)]
  clobbers := []
  clobbersFlag := true

def syscall7 : Asm Reg Param where
  output := .x 0
  inputs := [(.pin (.x 8), .n), (.pin (.x 1), .a2), (.pin (.x 2), .a3), (.pin (.x 3), .a4),
    (.pin (.x 4), .a5), (.pin (.x 5), .a6), (.pin (.x 6), .a7), (.pin (.x 0), .a1)]
  clobbers := []
  clobbersFlag := true

end SyscallBsdAarch64

namespace SyscallBsdArm

def syscall3 : Asm Reg Param where
  output := .r 0
  inputs := [(.pin (.r 7), .n), (.pin (.r 1), .a2), (.pin (.r 2), .a3), (.pin (.r 0), .a1)]
  clobbers := []
  clobbersFlag := true

def syscall6 : Asm Reg Param where
  output := .r 0
  inputs := [(.pin (.r 7), .n), (.pin (.r 1), .a2), (.pin (.r 2), .a3), (.pin (.r 3), .a4),
    (.pin (.r 4), .a5), (.pin (.r 5), .a6), (.pin (.r 0), .a1)]
  clobbers := []
  clobbersFlag := true

def syscall7 : Asm Reg Param where
  output := .r 0
  inputs := [(.pin (.r 7), .n), (.pin (.r 1), .a2), (.pin (.r 2), .a3), (.pin (.r 3), .a4),
    (.pin (.r 4), .a5), (.pin (.r 5), .a6), (.pin (.r 6), .a7), (.pin (.r 0), .a1)]
  clobbers := []
  clobbersFlag := true

end SyscallBsdArm

namespace SyscallBsdPpc64

def syscall3 : Asm Reg Param where
  output := .r 3
  inputs := [(.pin (.r 0), .n), (.pin (.r 4), .a2), (.pin (.r 5), .a3), (.pin (.r 3), .a1)]
  clobbers := [.r 6, .r 7, .r 8, .r 9, .r 10, .r 11, .r 12]
  clobbersFlag := true

def syscall6 : Asm Reg Param where
  output := .r 3
  inputs := [(.pin (.r 0), .n), (.pin (.r 4), .a2), (.pin (.r 5), .a3), (.pin (.r 6), .a4),
    (.pin (.r 7), .a5), (.pin (.r 8), .a6), (.pin (.r 3), .a1)]
  clobbers := [.r 9, .r 10, .r 11, .r 12]
  clobbersFlag := true

def syscall7 : Asm Reg Param where
  output := .r 3
  inputs := [(.pin (.r 0), .n), (.pin (.r 4), .a2), (.pin (.r 5), .a3), (.pin (.r 6), .a4),
    (.pin (.r 7), .a5), (.pin (.r 8), .a6), (.pin (.r 9), .a7), (.pin (.r 3), .a1)]
  clobbers := [.r 10, .r 11, .r 12]
  clobbersFlag := true

end SyscallBsdPpc64

namespace SyscallBsdRiscv64

def syscall3 : Asm Reg Param where
  output := .a 0
  inputs := [(.pin (.a 7), .n), (.pin (.a 1), .a2), (.pin (.a 2), .a3), (.pin (.a 0), .a1)]
  clobbers := []
  clobbersFlag := false

def syscall6 : Asm Reg Param where
  output := .a 0
  inputs := [(.pin (.a 7), .n), (.pin (.a 1), .a2), (.pin (.a 2), .a3), (.pin (.a 3), .a4),
    (.pin (.a 4), .a5), (.pin (.a 5), .a6), (.pin (.a 0), .a1)]
  clobbers := []
  clobbersFlag := false

def syscall7 : Asm Reg Param where
  output := .a 0
  inputs := [(.pin (.a 7), .n), (.pin (.a 1), .a2), (.pin (.a 2), .a3), (.pin (.a 3), .a4),
    (.pin (.a 4), .a5), (.pin (.a 5), .a6), (.pin (.a 6), .a7), (.pin (.a 0), .a1)]
  clobbers := []
  clobbersFlag := false

end SyscallBsdRiscv64

/-! ## macOS and Solaris

The macOS numbers carry the class-2 (BSD) marker `0x2000000`. -/

namespace SyscallDarwin

def sysWrite : Nat := 0x2000004
def sysExit : Nat := 0x2000001
def sysMmap : Nat := 0x20000c5

end SyscallDarwin

namespace SyscallDarwinAmd64

def syscall3 : Asm Reg Param where
  output := .rax
  inputs := [(.pin .rdi, .a1), (.pin .rsi, .a2), (.pin .rdx, .a3), (.pin .rax, .n)]
  clobbers := [.rcx, .r11]
  clobbersFlag := false

def syscall6 : Asm Reg Param where
  output := .rax
  inputs := [(.pin .rdi, .a1), (.pin .rsi, .a2), (.pin .rdx, .a3), (.pin .r10, .a4),
    (.pin .r8, .a5), (.pin .r9, .a6), (.pin .rax, .n)]
  clobbers := [.rcx, .r11]
  clobbersFlag := false

/-- `subq $16, %rsp; movq %8, 8(%rsp); syscall; addq $16, %rsp`. -/
def syscall7 : Asm Reg Param where
  before := [.sub 16 .rsp, .mov (.operand 8) 8 .rsp]
  after := [.add 16 .rsp]
  output := .rax
  inputs := [(.pin .rax, .n), (.pin .rdi, .a1), (.pin .rsi, .a2), (.pin .rdx, .a3),
    (.pin .r10, .a4), (.pin .r8, .a5), (.pin .r9, .a6), (.anyReg, .a7)]
  clobbers := [.rcx, .r11]
  clobbersFlag := false

end SyscallDarwinAmd64

namespace SyscallDarwinAarch64

/-- The number goes in `x16`, not `x8` as on the BSDs. -/
def syscall3 : Asm Reg Param where
  output := .x 0
  inputs := [(.pin (.x 1), .a2), (.pin (.x 2), .a3), (.pin (.x 16), .n), (.pin (.x 0), .a1)]
  clobbers := []
  clobbersFlag := false

def syscall6 : Asm Reg Param where
  output := .x 0
  inputs := [(.pin (.x 1), .a2), (.pin (.x 2), .a3), (.pin (.x 3), .a4), (.pin (.x 4), .a5),
    (.pin (.x 5), .a6), (.pin (.x 16), .n), (.pin (.x 0), .a1)]
  clobbers := []
  clobbersFlag := false

def syscall7 : Asm Reg Param where
  output := .x 0
  inputs := [(.pin (.x 1), .a2), (.pin (.x 2), .a3), (.pin (.x 3), .a4), (.pin (.x 4), .a5),
    (.pin (.x 5), .a6), (.pin (.x 6), .a7), (.pin (.x 16), .n), (.pin (.x 0), .a1)]
  clobbers := []
  clobbersFlag := false

end SyscallDarwinAarch64

namespace SyscallSolaris

def sysWrite : Nat := 4
def sysExit : Nat := 1
def sysMmap : Nat := 115

end SyscallSolaris

namespace SyscallSolarisAmd64

def syscall3 : Asm Reg Param where
  output := .rax
  inputs := [(.pin .rdi, .a1), (.pin .rsi, .a2), (.pin .rdx, .a3), (.pin .rax, .n)]
  clobbers := [.rcx, .r11]
  clobbersFlag := false

def syscall6 : Asm Reg Param where
  output := .rax
  inputs := [(.pin .rdi, .a1), (.pin .rsi, .a2), (.pin .rdx, .a3), (.pin .r10, .a4),
    (.pin .r8, .a5), (.pin .r9, .a6), (.pin .rax, .n)]
  clobbers := [.rcx, .r11]
  clobbersFlag := false

end SyscallSolarisAmd64

namespace SyscallSolarisSparc64

/-- The number goes in `g1`, the arguments in `o0`..`o5`. -/
def syscall3 : Asm Reg Param where
  output := .o 0
  inputs := [(.pin (.o 1), .a2), (.pin (.o 2), .a3), (.pin (.g 1), .n), (.pin (.o 0), .a1)]
  clobbers := []
  clobbersFlag := true

def syscall6 : Asm Reg Param where
  output := .o 0
  inputs := [(.pin (.o 1), .a2), (.pin (.o 2), .a3), (.pin (.o 3), .a4), (.pin (.o 4), .a5),
    (.pin (.o 5), .a6), (.pin (.g 1), .n), (.pin (.o 0), .a1)]
  clobbers := []
  clobbersFlag := true

end SyscallSolarisSparc64

end IbSys
