/-
# IbSys.Sys.Backend -- the active partition of a target

`mod.cppm` re-exports every partition; the guards leave one of them non-empty. This module is that
selection: for each target its `SYS_*` numbers and the asm statement of its `syscall3`, `syscall6`
and (where it exists) `syscall7`, and the three raw primitives built from them. A primitive takes
the state of the surrounding code and returns a `Run`: the value, the states in which the kernel was
entered, and the state left behind. `K` is what one trap does to the machine, and `place` is where
the compiler puts the operands.
-/
import IbSys.Sys.Syscall

namespace IbSys

open InlineAsm RegMachine

namespace Target

/-! ## Numbers -/

def sysWrite : Target → Nat
  | .linux .amd64 => SyscallLinuxAmd64.sysWrite
  | .linux .i386 => SyscallLinuxI386.sysWrite
  | .linux .arm => SyscallLinuxArm.sysWrite
  | .linux .aarch64 => SyscallLinuxAarch64.sysWrite
  | .linux .mips64 => SyscallLinuxMips64.sysWrite
  | .linux .ppc64 => SyscallLinuxPpc64.sysWrite
  | .linux .riscv64 => SyscallLinuxRiscv64.sysWrite
  | .linux .s390x => SyscallLinuxS390x.sysWrite
  | .linux .loongarch64 => SyscallLinuxLoongarch64.sysWrite
  | .bsd _ _ => SyscallBsd.sysWrite
  | .macos _ => SyscallDarwin.sysWrite
  | .solaris _ => SyscallSolaris.sysWrite

def sysExit : Target → Nat
  | .linux .amd64 => SyscallLinuxAmd64.sysExit
  | .linux .i386 => SyscallLinuxI386.sysExit
  | .linux .arm => SyscallLinuxArm.sysExit
  | .linux .aarch64 => SyscallLinuxAarch64.sysExit
  | .linux .mips64 => SyscallLinuxMips64.sysExit
  | .linux .ppc64 => SyscallLinuxPpc64.sysExit
  | .linux .riscv64 => SyscallLinuxRiscv64.sysExit
  | .linux .s390x => SyscallLinuxS390x.sysExit
  | .linux .loongarch64 => SyscallLinuxLoongarch64.sysExit
  | .bsd _ _ => SyscallBsd.sysExit
  | .macos _ => SyscallDarwin.sysExit
  | .solaris _ => SyscallSolaris.sysExit

/-- `SYS_MMAP`; on 32-bit Linux, which defines no such number, `SYS_MMAP2`. -/
def sysMmap : Target → Nat
  | .linux .amd64 => SyscallLinuxAmd64.sysMmap
  | .linux .i386 => SyscallLinuxI386.sysMmap2
  | .linux .arm => SyscallLinuxArm.sysMmap2
  | .linux .aarch64 => SyscallLinuxAarch64.sysMmap
  | .linux .mips64 => SyscallLinuxMips64.sysMmap
  | .linux .ppc64 => SyscallLinuxPpc64.sysMmap
  | .linux .riscv64 => SyscallLinuxRiscv64.sysMmap
  | .linux .s390x => SyscallLinuxS390x.sysMmap
  | .linux .loongarch64 => SyscallLinuxLoongarch64.sysMmap
  | .bsd .freebsd _ => SyscallFreebsd.sysMmap
  | .bsd .openbsd _ => SyscallOpenbsd.sysMmap
  | .bsd .netbsd _ => SyscallNetbsd.sysMmap
  | .bsd .dragonfly _ => SyscallDragonfly.sysMmap
  | .macos _ => SyscallDarwin.sysMmap
  | .solaris _ => SyscallSolaris.sysMmap

/-! ## Asm statements -/

def asm3 : Target → Asm Reg Param
  | .linux .amd64 => SyscallLinuxAmd64.syscall3
  | .linux .i386 => SyscallLinuxI386.syscall3
  | .linux .arm => SyscallLinuxArm.syscall3
  | .linux .aarch64 => SyscallLinuxAarch64.syscall3
  | .linux .mips64 => SyscallLinuxMips64.syscall3
  | .linux .ppc64 => SyscallLinuxPpc64.syscall3
  | .linux .riscv64 => SyscallLinuxRiscv64.syscall3
  | .linux .s390x => SyscallLinuxS390x.syscall3
  | .linux .loongarch64 => SyscallLinuxLoongarch64.syscall3
  | .bsd _ .amd64 => SyscallBsdAmd64.syscall3
  | .bsd _ .i386 => SyscallBsdI386.syscall3
  | .bsd _ .aarch64 => SyscallBsdAarch64.syscall3
  | .bsd _ .arm => SyscallBsdArm.syscall3
  | .bsd _ .ppc64 => SyscallBsdPpc64.syscall3
  | .bsd _ .riscv64 => SyscallBsdRiscv64.syscall3
  | .macos .amd64 => SyscallDarwinAmd64.syscall3
  | .macos .aarch64 => SyscallDarwinAarch64.syscall3
  | .solaris .amd64 => SyscallSolarisAmd64.syscall3
  | .solaris .sparc64 => SyscallSolarisSparc64.syscall3

def asm6 : Target → Asm Reg Param
  | .linux .amd64 => SyscallLinuxAmd64.syscall6
  | .linux .i386 => SyscallLinuxI386.syscall6
  | .linux .arm => SyscallLinuxArm.syscall6
  | .linux .aarch64 => SyscallLinuxAarch64.syscall6
  | .linux .mips64 => SyscallLinuxMips64.syscall6
  | .linux .ppc64 => SyscallLinuxPpc64.syscall6
  | .linux .riscv64 => SyscallLinuxRiscv64.syscall6
  | .linux .s390x => SyscallLinuxS390x.syscall6
  | .linux .loongarch64 => SyscallLinuxLoongarch64.syscall6
  | .bsd _ .amd64 => SyscallBsdAmd64.syscall6
  | .bsd _ .i386 => SyscallBsdI386.syscall6
  | .bsd _ .aarch64 => SyscallBsdAarch64.syscall6
  | .bsd _ .arm => SyscallBsdArm.syscall6
  | .bsd _ .ppc64 => SyscallBsdPpc64.syscall6
  | .bsd _ .riscv64 => SyscallBsdRiscv64.syscall6
  | .macos .amd64 => SyscallDarwinAmd64.syscall6
  | .macos .aarch64 => SyscallDarwinAarch64.syscall6
  | .solaris .amd64 => SyscallSolarisAmd64.syscall6
  | .solaris .sparc64 => SyscallSolarisSparc64.syscall6

/-- 32-bit Linux, whose partitions define `SYS_MMAP2` in place of `SYS_MMAP`. -/
def HasMmap2 (t : Target) : Prop := t.os = .linux ∧ (t.arch = .i386 ∨ t.arch = .arm)

instance (t : Target) : Decidable t.HasMmap2 :=
  inferInstanceAs (Decidable (_ ∧ _))

/-- The operating systems for which `syscall7` is compiled, and for which `mmap` uses it. -/
def HasSyscall7 (t : Target) : Prop := t.os = .netbsd ∨ t.os = .openbsd ∨ t.os = .macos

instance (t : Target) : Decidable t.HasSyscall7 :=
  inferInstanceAs (Decidable (_ ∨ _ ∨ _))

def asm7 : (t : Target) → t.HasSyscall7 → Asm Reg Param
  | .bsd _ .amd64, _ => SyscallBsdAmd64.syscall7
  | .bsd _ .i386, _ => SyscallBsdI386.syscall7
  | .bsd _ .aarch64, _ => SyscallBsdAarch64.syscall7
  | .bsd _ .arm, _ => SyscallBsdArm.syscall7
  | .bsd _ .ppc64, _ => SyscallBsdPpc64.syscall7
  | .bsd _ .riscv64, _ => SyscallBsdRiscv64.syscall7
  | .macos .amd64, _ => SyscallDarwinAmd64.syscall7
  | .macos .aarch64, _ => SyscallDarwinAarch64.syscall7
  | .linux _, h => absurd h (by simp [HasSyscall7, os])
  | .solaris _, h => absurd h (by simp [HasSyscall7, os])

end Target

/-! ## Arities -/

inductive Arity where
  | three
  | six
  | seven
  deriving DecidableEq

namespace Arity

/-- The arguments, in order. -/
def params : Arity → List Param
  | .three => [.a1, .a2, .a3]
  | .six => [.a1, .a2, .a3, .a4, .a5, .a6]
  | .seven => [.a1, .a2, .a3, .a4, .a5, .a6, .a7]

end Arity

namespace Target

/-- The arities for which a target has a primitive. -/
abbrev Arities (t : Target) := { y : Arity // y = .seven → t.HasSyscall7 }

/-- What a table says about every arity of a target can be decided. -/
instance (t : Target) (p : t.Arities → Prop) [DecidablePred p] : Decidable (∀ y, p y) :=
  decidable_of_iff
    ((∀ h, p ⟨.three, h⟩) ∧ (∀ h, p ⟨.six, h⟩) ∧ ∀ h, p ⟨.seven, h⟩) <| by
    constructor
    · rintro ⟨h3, h6, h7⟩ ⟨y, hy⟩
      cases y with
      | three => exact h3 hy
      | six => exact h6 hy
      | seven => exact h7 hy
    · intro h
      exact ⟨fun _ => h _, fun _ => h _, fun _ => h _⟩

/-- The statement of each of them. -/
def asm (t : Target) : t.Arities → Asm Reg Param
  | ⟨.three, _⟩ => t.asm3
  | ⟨.six, _⟩ => t.asm6
  | ⟨.seven, h⟩ => t.asm7 (h rfl)

end Target

/-! ## The raw primitives -/

def syscall3 (t : Target) (K : t.Mach → t.Mach) (place : t.Place) (n a1 a2 a3 : BitVec t.width)
    (m : t.Mach) : Run Reg t.width :=
  t.asm3.call K place (SysArgs.val { n, a1, a2, a3 }) m

def syscall6 (t : Target) (K : t.Mach → t.Mach) (place : t.Place)
    (n a1 a2 a3 a4 a5 a6 : BitVec t.width) (m : t.Mach) : Run Reg t.width :=
  t.asm6.call K place (SysArgs.val { n, a1, a2, a3, a4, a5, a6 }) m

def syscall7 (t : Target) (h : t.HasSyscall7) (K : t.Mach → t.Mach) (place : t.Place)
    (n a1 a2 a3 a4 a5 a6 a7 : BitVec t.width) (m : t.Mach) : Run Reg t.width :=
  (t.asm7 h).call K place (SysArgs.val { n, a1, a2, a3, a4, a5, a6, a7 }) m

end IbSys
