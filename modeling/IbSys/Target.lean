/-
# IbSys.Target -- the targets the library is built for

A build has one operating system (`OS(...)`) and one architecture (`ARCH(...)`), and exactly one raw
system-call partition is active for the pair. `Target` is that pair, restricted to the pairs for
which a partition exports symbols: the grouping by family is the grouping of the partitions
(`syscall_linux_<arch>`, `syscall_bsd_<arch>`, `syscall_darwin_<arch>`, `syscall_solaris_<arch>`), so
a target without a backend cannot be written down.
-/
import IbSys.Lib.InlineAsm

namespace IbSys

open RegMachine

/-! ## Operating systems and architectures (`macros.hpp`) -/

inductive Os where
  | linux | freebsd | openbsd | netbsd | dragonfly | macos | solaris
  deriving DecidableEq, Repr

/-- The architectures of `macros.hpp`, and SPARC64, which has no macro there and is selected by the
compiler's own `__sparc*` symbols. -/
inductive Arch where
  | amd64 | i386 | aarch64 | arm | ppc64 | mips64 | riscv64 | s390x | loongarch64 | sparc64
  deriving DecidableEq, Repr

namespace Arch

/-- Bits in `usize` and `isize`. -/
def width : Arch → Nat
  | .i386 | .arm => 32
  | _ => 64

def isX86 : Arch → Bool
  | .amd64 | .i386 => true
  | _ => false

end Arch

/-! ## Targets: the pairs with an active partition -/

inductive LinuxArch where
  | amd64 | i386 | arm | aarch64 | mips64 | ppc64 | riscv64 | s390x | loongarch64
  deriving DecidableEq, Repr

inductive BsdOs where
  | freebsd | openbsd | netbsd | dragonfly
  deriving DecidableEq, Repr

inductive BsdArch where
  | amd64 | i386 | aarch64 | arm | ppc64 | riscv64
  deriving DecidableEq, Repr

inductive DarwinArch where
  | amd64 | aarch64
  deriving DecidableEq, Repr

inductive SolarisArch where
  | amd64 | sparc64
  deriving DecidableEq, Repr

inductive Target where
  | linux (a : LinuxArch)
  | bsd (os : BsdOs) (a : BsdArch)
  | macos (a : DarwinArch)
  | solaris (a : SolarisArch)
  deriving DecidableEq, Repr

namespace Target

def os : Target → Os
  | .linux _ => .linux
  | .bsd .freebsd _ => .freebsd
  | .bsd .openbsd _ => .openbsd
  | .bsd .netbsd _ => .netbsd
  | .bsd .dragonfly _ => .dragonfly
  | .macos _ => .macos
  | .solaris _ => .solaris

def arch : Target → Arch
  | .linux .amd64 | .bsd _ .amd64 | .macos .amd64 | .solaris .amd64 => .amd64
  | .linux .i386 | .bsd _ .i386 => .i386
  | .linux .arm | .bsd _ .arm => .arm
  | .linux .aarch64 | .bsd _ .aarch64 | .macos .aarch64 => .aarch64
  | .linux .ppc64 | .bsd _ .ppc64 => .ppc64
  | .linux .riscv64 | .bsd _ .riscv64 => .riscv64
  | .linux .mips64 => .mips64
  | .linux .s390x => .s390x
  | .linux .loongarch64 => .loongarch64
  | .solaris .sparc64 => .sparc64

/-- Bits in `usize` and `isize` on this target. -/
def width (t : Target) : Nat := t.arch.width

theorem width_eq (t : Target) : t.width = 32 ∨ t.width = 64 := by
  unfold width
  cases t.arch <;> simp [Arch.width]

/-- Every target. -/
def all : List Target :=
  let linuxArchs : List LinuxArch :=
    [.amd64, .i386, .arm, .aarch64, .mips64, .ppc64, .riscv64, .s390x, .loongarch64]
  let bsds : List BsdOs := [.freebsd, .openbsd, .netbsd, .dragonfly]
  let bsdArchs : List BsdArch := [.amd64, .i386, .aarch64, .arm, .ppc64, .riscv64]
  linuxArchs.map Target.linux ++ bsds.flatMap (fun os => bsdArchs.map (Target.bsd os)) ++
    [.macos .amd64, .macos .aarch64, .solaris .amd64, .solaris .sparc64]

theorem mem_all (t : Target) : t ∈ all := by
  cases t with
  | linux a => cases a <;> decide
  | bsd os a => cases os <;> cases a <;> decide
  | macos a => cases a <;> decide
  | solaris a => cases a <;> decide

/-- What the tables of this development say about every target can be decided. -/
instance (p : Target → Prop) [DecidablePred p] : Decidable (∀ t, p t) :=
  decidable_of_iff (∀ t ∈ all, p t) ⟨fun h t => h t t.mem_all, fun h t _ => h t⟩

end Target

/-! ## Registers -/

-- the sizes of the register files below, so that a numeral names a register of them
instance neZero_eight : NeZero 8 := ⟨by decide⟩
instance neZero_thirtyOne : NeZero 31 := ⟨by decide⟩
instance neZero_thirtyTwo : NeZero 32 := ⟨by decide⟩

/-- The registers the asm statements and the kernels name, over all the architectures. A machine of
one architecture uses its own part of them. -/
inductive Reg where
  /-- amd64 -/
  | rax | rbx | rcx | rdx | rsi | rdi | rbp | rsp | r8 | r9 | r10 | r11 | r12 | r13 | r14 | r15
  /-- i386 -/
  | eax | ebx | ecx | edx | esi | edi | ebp | esp
  /-- aarch64 `x0`..`x30` -/
  | x (i : Fin 31)
  /-- ARM, ppc64 and s390x `r0`.. -/
  | r (i : Fin 32)
  /-- MIPS `$0`..`$31` -/
  | mips (i : Fin 32)
  /-- RISC-V and LoongArch `a0`..`a7` -/
  | a (i : Fin 8)
  /-- RISC-V `t0` and `t6` -/
  | t0 | t6
  /-- SPARC `o0`..`o7` -/
  | o (i : Fin 8)
  /-- SPARC `g0`..`g7` -/
  | g (i : Fin 8)
  /-- the stack pointer of the architectures that name it so -/
  | sp
  /-- ppc64 count register -/
  | ctr
  /-- ppc64 fixed-point exception register -/
  | xer
  deriving DecidableEq, Repr

/-- The stack pointer. -/
def Arch.stackReg : Arch → Reg
  | .amd64 => .rsp
  | .i386 => .esp
  | .arm => .r 13
  | .ppc64 => .r 1
  | .mips64 => .mips 29
  | .s390x => .r 15
  | .sparc64 => .o 6
  | .aarch64 | .riscv64 | .loongarch64 => .sp

namespace Target

def stackReg (t : Target) : Reg := t.arch.stackReg

/-- A machine state of the target. -/
abbrev Mach (t : Target) := Machine Reg t.width

/-- Where the compiler puts the operands of an asm statement. -/
abbrev Place (t : Target) := Nat → Loc Reg t.width

end Target

/-! ## Operands of the raw system calls -/

/-- The source expressions an asm operand of `syscall3`, `syscall6` and `syscall7` carries: the
function's parameters, and the literal 0 the BSD amd64 `syscall3` puts in its unused registers. -/
inductive Param where
  | n | a1 | a2 | a3 | a4 | a5 | a6 | a7 | zero
  deriving DecidableEq, Repr

/-- The argument in position `k`, counted from 0. -/
def Param.arg : Nat → Param
  | 0 => .a1
  | 1 => .a2
  | 2 => .a3
  | 3 => .a4
  | 4 => .a5
  | 5 => .a6
  | 6 => .a7
  | _ => .zero

/-- The arguments of one raw system call. The functions of smaller arity leave the rest at 0; their
asm statements do not mention them. -/
structure SysArgs (w : Nat) where
  n : BitVec w
  a1 : BitVec w := 0
  a2 : BitVec w := 0
  a3 : BitVec w := 0
  a4 : BitVec w := 0
  a5 : BitVec w := 0
  a6 : BitVec w := 0
  a7 : BitVec w := 0
  deriving DecidableEq

namespace SysArgs

variable {w : Nat}

/-- `static_cast<isize>` of each parameter: the same word. -/
def val (s : SysArgs w) : Param → BitVec w
  | .n => s.n
  | .a1 => s.a1
  | .a2 => s.a2
  | .a3 => s.a3
  | .a4 => s.a4
  | .a5 => s.a5
  | .a6 => s.a6
  | .a7 => s.a7
  | .zero => 0

end SysArgs

end IbSys
