/-
# IbSys.Demos.Hello -- the stand-alone programs

Next to the library there are programs that say hello without it, one file for each family of kernels.
Each has its own `sys_write` and `sys_exit`, and a `_start` that writes a text on descriptor 1 and exits
with 0. Most of the statements pin their operands to the registers of the kernel; on macOS and Solaris the
amd64 ones move theirs (`moveWrite_lands_iff`), and on FreeBSD/i386 they are pushed. `hello_run` is
about all of the programs: what the world sees of a run is the text, once, and then the exit.
-/
import IbSys.App.Start
import IbSys.Lib.Moves

namespace IbSys

open ByteMemory RegMachine InlineAsm Detail

/-! ## Linux (`hello_linux.cpp`) -/

namespace HelloLinux

def writeNumber : LinuxArch → Nat
  | .amd64 => 1
  | .i386 | .arm | .ppc64 | .s390x => 4
  | .aarch64 | .riscv64 | .loongarch64 => 64
  | .mips64 => 5001

def exitNumber : LinuxArch → Nat
  | .amd64 => 60
  | .i386 | .arm | .ppc64 | .s390x => 1
  | .aarch64 | .riscv64 | .loongarch64 => 93
  | .mips64 => 5058

/-- An operand that is also an output comes last among the inputs. -/
def sysWrite : LinuxArch → MoveAsm Reg Param
  | .amd64 =>
      { outputs := [.rax]
        inputs := [(.pin .rdi, .a1), (.pin .rsi, .a2), (.pin .rdx, .a3), (.pin .rax, .n)]
        clobbers := [.rcx, .r11] }
  | .i386 =>
      { outputs := [.eax]
        inputs := [(.pin .ebx, .a1), (.pin .ecx, .a2), (.pin .edx, .a3), (.pin .eax, .n)] }
  | .aarch64 =>
      { outputs := [.x 0]
        inputs := [(.pin (.x 1), .a2), (.pin (.x 2), .a3), (.pin (.x 8), .n), (.pin (.x 0), .a1)] }
  | .arm =>
      { outputs := [.r 0]
        inputs := [(.pin (.r 1), .a2), (.pin (.r 2), .a3), (.pin (.r 7), .n), (.pin (.r 0), .a1)] }
  | .mips64 =>
      -- `$7`, the kernel's error indicator, is an output that nothing reads
      { outputs := [.mips 2, .mips 7]
        inputs := [(.pin (.mips 4), .a1), (.pin (.mips 5), .a2), (.pin (.mips 6), .a3),
          (.pin (.mips 2), .n)] }
  | .ppc64 =>
      { outputs := [.r 3]
        inputs := [(.pin (.r 0), .n), (.pin (.r 4), .a2), (.pin (.r 5), .a3), (.pin (.r 3), .a1)] }
  | .riscv64 | .loongarch64 =>
      { outputs := [.a 0]
        inputs := [(.pin (.a 1), .a2), (.pin (.a 2), .a3), (.pin (.a 7), .n), (.pin (.a 0), .a1)] }
  | .s390x =>
      { outputs := [.r 2]
        inputs := [(.pin (.r 1), .n), (.pin (.r 3), .a2), (.pin (.r 4), .a3), (.pin (.r 2), .a1)] }

def sysExit : LinuxArch → MoveAsm Reg Param
  | .amd64 => { inputs := [(.pin .rax, .n), (.pin .rdi, .a1)], clobbers := [.rcx, .r11] }
  | .i386 => { inputs := [(.pin .eax, .n), (.pin .ebx, .a1)] }
  | .aarch64 => { inputs := [(.pin (.x 0), .a1), (.pin (.x 8), .n)] }
  | .arm => { inputs := [(.pin (.r 0), .a1), (.pin (.r 7), .n)] }
  | .mips64 => { inputs := [(.pin (.mips 2), .n), (.pin (.mips 4), .a1)] }
  | .ppc64 => { inputs := [(.pin (.r 0), .n), (.pin (.r 3), .a1)] }
  | .riscv64 | .loongarch64 => { inputs := [(.pin (.a 0), .a1), (.pin (.a 7), .n)] }
  | .s390x => { inputs := [(.pin (.r 1), .n), (.pin (.r 2), .a1)] }

def message : String := "Hello from freestanding C++ on Linux!\n"

end HelloLinux

/-! ## Linux on mips64el (`hello_linux_mips64el.cpp`) -/

namespace HelloLinuxMips64el

def sysWrite : Nat := 5001
def sysExit : Nat := 5058

def syscall3 : MoveAsm Reg Param where
  outputs := [.mips 2]
  inputs := [(.pin (.mips 4), .a1), (.pin (.mips 5), .a2), (.pin (.mips 6), .a3), (.pin (.mips 2), .n)]
  clobbers := [.mips 1, .mips 3, .mips 7]

def syscallExit : MoveAsm Reg Param where
  inputs := [(.pin (.mips 2), .n), (.pin (.mips 4), .a1)]
  clobbers := [.mips 1, .mips 3, .mips 7]

def message : String := "Hello from direct MIPS64EL Linux syscalls.\n"

end HelloLinuxMips64el

/-! ## FreeBSD (`hello_freebsd.cpp`) -/

namespace HelloFreebsd

def sysWrite : Nat := 4
def sysExit : Nat := 1

/-- The statements are those of the library's BSD partitions. The one for PowerPC also serves the 32-bit
architecture. -/
def fbsdSyscall3 : BsdArch → Asm Reg Param
  | .amd64 => SyscallBsdAmd64.syscall3
  | .i386 => SyscallBsdI386.syscall3
  | .aarch64 => SyscallBsdAarch64.syscall3
  | .arm => SyscallBsdArm.syscall3
  | .ppc64 => SyscallBsdPpc64.syscall3
  | .riscv64 => SyscallBsdRiscv64.syscall3

/-- The argument registers of PowerPC. -/
def powerpcArg : Fin 3 → Reg
  | 0 => .r 3
  | 1 => .r 4
  | 2 => .r 5

def msg : String := "Hello from freestanding FreeBSD C++23!\n"

end HelloFreebsd

/-! ## macOS and Solaris (`hello_macos.cpp`, `hello_solaris.cpp`) -/

/-- `movq %1, %rdi; movq %2, %rsi; movq %3, %rdx; movq %4, %rax; syscall`. The number is a constant
operand. -/
def moveWrite : MoveAsm Reg Param where
  outputs := [.rax]
  inputs := [(.general, .a1), (.general, .a2), (.general, .a3), (.const, .n)]
  moves := [(1, .rdi), (2, .rsi), (3, .rdx), (4, .rax)]
  clobbers := [.rdi, .rsi, .rdx, .rcx, .r11]

/-- `movq %0, %rdi; movq %1, %rax; syscall`. -/
def moveExit : MoveAsm Reg Param where
  inputs := [(.general, .a1), (.const, .n)]
  moves := [(0, .rdi), (1, .rax)]
  clobbers := [.rdi]

namespace HelloMacos

def sysWriteNumber : Nat := 0x2000004
def sysExitNumber : Nat := 0x2000001

def sysWrite : DarwinArch → MoveAsm Reg Param
  | .amd64 => moveWrite
  | .aarch64 =>
      { outputs := [.x 0]
        inputs := [(.pin (.x 1), .a2), (.pin (.x 2), .a3), (.pin (.x 16), .n), (.pin (.x 0), .a1)] }

def sysExit : DarwinArch → MoveAsm Reg Param
  | .amd64 => moveExit
  | .aarch64 => { inputs := [(.pin (.x 0), .a1), (.pin (.x 16), .n)] }

def msg : String := "Hello from freestanding C++ on macOS!\n"

end HelloMacos

namespace HelloSolaris

def sysWriteNumber : Nat := 4
def sysExitNumber : Nat := 1

def sysWrite : SolarisArch → MoveAsm Reg Param
  | .amd64 => moveWrite
  | .sparc64 =>
      { outputs := [.o 0]
        inputs := [(.pin (.o 1), .a2), (.pin (.o 2), .a3), (.pin (.g 1), .n), (.pin (.o 0), .a1)] }

def sysExit : SolarisArch → MoveAsm Reg Param
  | .amd64 => moveExit
  | .sparc64 => { inputs := [(.pin (.o 0), .a1), (.pin (.g 1), .n)] }

def msg : String := "Hello from freestanding C++ on OpenIndiana!\n"

end HelloSolaris

/-! ## The statements that move their operands -/

theorem moveWrite_movable : moveWrite.Movable .rsp := by decide

theorem moveExit_movable : moveExit.Movable .rsp := by decide

/-- **Which registers have to be listed.** On amd64 the moving `sys_write` is right under every placement
exactly when `rdi` and `rsi`, which it fills while operands are still to be moved, are listed; the moving
`sys_exit` is right with any list. -/
theorem moveWrite_lands_iff (clobbers : List Reg) :
    ((moveWrite.relist clobbers).Lands .rsp 64 ↔ .rdi ∈ clobbers ∧ .rsi ∈ clobbers) ∧
      (moveExit.relist clobbers).Lands .rsp 64 := by
  refine ⟨?_, ?_⟩
  · rw [MoveAsm.lands_iff (moveWrite_movable.relist clobbers) (by decide)]
    simp [MoveAsm.Guarded, MoveAsm.relist, moveWrite, MoveAsm.Free, MoveAsm.operand]
  · apply (moveExit_movable.relist clobbers).lands_of_guarded
    simp [MoveAsm.Guarded, MoveAsm.relist, moveExit, MoveAsm.Free, MoveAsm.operand]

/-! ## Platforms -/

/-- What a program is built for: a target of the library, or 32-bit PowerPC under FreeBSD, for which the
library has no backend. -/
inductive Platform where
  | library (t : Target)
  | freebsdPowerpc
  deriving DecidableEq

namespace Platform

def width : Platform → Nat
  | .library t => t.width
  | .freebsdPowerpc => 32

theorem width_eq (p : Platform) : p.width = 32 ∨ p.width = 64 := by
  cases p with
  | library t => exact t.width_eq
  | freebsdPowerpc => exact Or.inl rfl

def stackReg : Platform → Reg
  | .library t => t.stackReg
  | .freebsdPowerpc => .r 1

/-- The number under which the kernel serves writes. -/
def writeNumber : Platform → Nat
  | .library t => IbSys.writeNumber t
  | .freebsdPowerpc => 4

/-- The number under which it ends the process. -/
def exitNumber : Platform → Nat
  | .library t => IbSys.exitNumber t
  | .freebsdPowerpc => 1

/-- The number that the kernel finds in a trap. -/
def number : (p : Platform) → Machine Reg p.width → BitVec p.width
  | .library t, m => t.trapNumber m
  | .freebsdPowerpc, m => m.regs (.r 0)

/-- The first three argument words. -/
def arg : (p : Platform) → Machine Reg p.width → Fin 3 → BitVec p.width
  | .library t, m, k => t.argWord m k
  | .freebsdPowerpc, m, k => m.regs (HelloFreebsd.powerpcArg k)

/-- What the kernel takes a trap for. Of the services of 32-bit PowerPC, only the two that the program uses
are told apart from the others. -/
def request : (p : Platform) → Machine Reg p.width → Request p.width
  | .library t, m => kernelRequest t m
  | .freebsdPowerpc, m =>
      let p := freebsdPowerpc
      if p.number m = BitVec.ofNat _ p.writeNumber then .write (p.arg m 0) (p.arg m 1) (p.arg m 2)
      else if p.number m = BitVec.ofNat _ p.exitNumber then .exit ((p.arg m 0).setWidth 32)
      else .unserved (p.number m)

theorem request_write {p : Platform} {m : Machine Reg p.width}
    (h : p.number m = BitVec.ofNat p.width p.writeNumber) :
    p.request m = .write (p.arg m 0) (p.arg m 1) (p.arg m 2) := by
  cases p with
  | library t => exact kernelRequest_write h
  | freebsdPowerpc => exact if_pos h

theorem request_exit {p : Platform} {m : Machine Reg p.width}
    (h : p.number m = BitVec.ofNat p.width p.exitNumber) :
    p.request m = .exit ((p.arg m 0).setWidth 32) := by
  cases p with
  | library t => exact kernelRequest_exit h
  | freebsdPowerpc =>
      have hne : freebsdPowerpc.number m ≠ BitVec.ofNat _ freebsdPowerpc.writeNumber := by
        rw [h]
        decide
      exact (if_neg hne).trans (if_pos h)

/-- The bytes below the stack pointer that a statement pushes over. -/
def pushed : (p : Platform) → BitVec p.width → Set (BitVec p.width)
  | .library t, sp => window sp (t.scratch t.three)
  | .freebsdPowerpc, _ => ∅

/-- The operands in memory outlive the pushes of their own statement. -/
def OperandsSurvive : (p : Platform) → (Nat → Loc Reg p.width) → SysArgs p.width →
    Machine Reg p.width → Prop
  | .library t, place, s, e => t.OperandsSurvive t.three place s e
  | .freebsdPowerpc, _, _, _ => True

end Platform

/-! ## The programs -/

/-- A program of one file for one architecture. -/
inductive Demo where
  | linux (a : LinuxArch)
  | linuxMips64el
  | freebsd (a : BsdArch)
  | freebsdPowerpc
  | macos (a : DarwinArch)
  | solaris (a : SolarisArch)
  deriving DecidableEq

/-- A statement that has its operands pinned or moves them, or one of the library. -/
inductive Statement where
  | moving (A : MoveAsm Reg Param)
  | plain (A : Asm Reg Param)

/-- From the state `e` at its first instruction, the statement enters the kernel in the state `m`. -/
def Statement.Enters {w : Nat} (stack : Reg) (place : Nat → Loc Reg w) (val : Param → BitVec w)
    (e m : Machine Reg w) : Statement → Prop
  | .moving A => A.Ready stack place val e ∧ m = A.atTrap place e
  | .plain A => A.Ready stack place val e ∧ m = A.atTrap place e

namespace Demo

def platform : Demo → Platform
  | .linux a => .library (.linux a)
  | .linuxMips64el => .library (.linux .mips64)
  | .freebsd a => .library (.bsd .freebsd a)
  | .freebsdPowerpc => .freebsdPowerpc
  | .macos a => .library (.macos a)
  | .solaris a => .library (.solaris a)

def writeNumber : Demo → Nat
  | .linux a => HelloLinux.writeNumber a
  | .linuxMips64el => HelloLinuxMips64el.sysWrite
  | .freebsd _ | .freebsdPowerpc => HelloFreebsd.sysWrite
  | .macos _ => HelloMacos.sysWriteNumber
  | .solaris _ => HelloSolaris.sysWriteNumber

def exitNumber : Demo → Nat
  | .linux a => HelloLinux.exitNumber a
  | .linuxMips64el => HelloLinuxMips64el.sysExit
  | .freebsd _ | .freebsdPowerpc => HelloFreebsd.sysExit
  | .macos _ => HelloMacos.sysExitNumber
  | .solaris _ => HelloSolaris.sysExitNumber

def sysWrite : Demo → Statement
  | .linux a => .moving (HelloLinux.sysWrite a)
  | .linuxMips64el => .moving HelloLinuxMips64el.syscall3
  | .freebsd a => .plain (HelloFreebsd.fbsdSyscall3 a)
  | .freebsdPowerpc => .plain (HelloFreebsd.fbsdSyscall3 .ppc64)
  | .macos a => .moving (HelloMacos.sysWrite a)
  | .solaris a => .moving (HelloSolaris.sysWrite a)

def sysExit : Demo → Statement
  | .linux a => .moving (HelloLinux.sysExit a)
  | .linuxMips64el => .moving HelloLinuxMips64el.syscallExit
  | .freebsd a => .plain (HelloFreebsd.fbsdSyscall3 a)
  | .freebsdPowerpc => .plain (HelloFreebsd.fbsdSyscall3 .ppc64)
  | .macos a => .moving (HelloMacos.sysExit a)
  | .solaris a => .moving (HelloSolaris.sysExit a)

def message : Demo → String
  | .linux _ => HelloLinux.message
  | .linuxMips64el => HelloLinuxMips64el.message
  | .freebsd _ | .freebsdPowerpc => HelloFreebsd.msg
  | .macos _ => HelloMacos.msg
  | .solaris _ => HelloSolaris.msg

/-- The bytes of the message, without the NUL. The texts are ASCII. -/
def text (d : Demo) : List (BitVec 8) := d.message.toList.map fun c => BitVec.ofNat 8 c.toNat

/-- The length that `_start` passes: `sizeof` of the array less one, or on FreeBSD what its `str_len`
finds. -/
def size (d : Demo) (mem : Mem d.platform.width) (msg : BitVec d.platform.width) :
    BitVec d.platform.width :=
  match d with
  | .freebsd _ | .freebsdPowerpc => lengthOf mem msg
  | _ => BitVec.ofNat _ d.text.length

/-- The values of `sys_write(1, msg, size)`. The descriptor is an `int`. -/
def writeArgs (d : Demo) (msg size : BitVec d.platform.width) : SysArgs d.platform.width where
  n := BitVec.ofNat _ d.writeNumber
  a1 := (1 : BitVec 32).signExtend _
  a2 := msg
  a3 := size

/-- The values of `sys_exit(0)`. -/
def exitArgs (d : Demo) : SysArgs d.platform.width where
  n := BitVec.ofNat _ d.exitNumber
  a1 := (0 : BitVec 32).signExtend _

/-- A run of `_start`: where the operands of the two statements are put, and the states at their first
instruction and in which they enter the kernel. What the code, and the kernel in between, have done to the
machine is left open. -/
structure Run (d : Demo) (msg : BitVec d.platform.width) where
  writePlace : Nat → Loc Reg d.platform.width
  exitPlace : Nat → Loc Reg d.platform.width
  writeEntry : Machine Reg d.platform.width
  writeTrap : Machine Reg d.platform.width
  exitEntry : Machine Reg d.platform.width
  exitTrap : Machine Reg d.platform.width
  write : d.sysWrite.Enters d.platform.stackReg writePlace
    (d.writeArgs msg (d.size writeEntry.mem msg)).val writeEntry writeTrap
  exit : d.sysExit.Enters d.platform.stackReg exitPlace d.exitArgs.val exitEntry exitTrap

/-- The operands that the compiler has left in memory outlive the pushes, a condition on FreeBSD/i386. -/
def Run.Survives {d : Demo} {msg : BitVec d.platform.width} (r : d.Run msg) : Prop :=
  d.platform.OperandsSurvive r.writePlace (d.writeArgs msg (d.size r.writeEntry.mem msg))
      r.writeEntry ∧
    d.platform.OperandsSurvive r.exitPlace d.exitArgs r.exitEntry

end Demo

/-! ## What the kernel receives -/

/-- The statement takes the number and `n` arguments to the registers that the kernel reads. -/
def Target.Moves (t : Target) (n : Nat) (A : MoveAsm Reg Param) : Prop :=
  A.Movable t.stackReg ∧ A.Guarded ∧ A.Carries t.numberReg .n ∧
    ∀ k < n, ∃ r ∈ t.argRegs[k]?, A.Carries r (.arg k)

instance (t : Target) (n : Nat) (A : MoveAsm Reg Param) : Decidable (t.Moves n A) :=
  inferInstanceAs (Decidable (_ ∧ _ ∧ _ ∧ ∀ k < n, ∃ r ∈ t.argRegs[k]?, A.Carries r (.arg k)))

/-- The statement hands its number and `n` arguments to the kernel of the platform: it moves them, or it is
the library's for the target, or it has them pinned. -/
def Statement.Serves (n : Nat) : Platform → Statement → Prop
  | .library t, .moving A => t.Dispatches ∧ t.Moves n A
  | .library t, .plain A => t.Dispatches ∧ A = t.asm3
  | .freebsdPowerpc, .moving _ => False
  | .freebsdPowerpc, .plain A =>
      A.Keeps (.r 0) .n ∧ (∀ k : Fin 3, A.Keeps (HelloFreebsd.powerpcArg k) (.arg k)) ∧ A.before = []

/-- The kernel finds them, and the memory of the program outside the bytes that are pushed over. -/
theorem Statement.Enters.received {p : Platform} {S : Statement} {n : Nat} (hS : S.Serves n p)
    {place : Nat → Loc Reg p.width} {s : SysArgs p.width} {e m : Machine Reg p.width}
    (h : S.Enters p.stackReg place s.val e m) (hsurvive : p.OperandsSurvive place s e) :
    p.number m = s.n ∧ (∀ k : Fin 3, k.val < n → p.arg m k = s.val (.arg k)) ∧
      ∀ x ∉ p.pushed (e.regs p.stackReg), m.mem x = e.mem x := by
  cases p with
  | library t =>
      cases S with
      | moving A =>
          obtain ⟨hready, rfl⟩ := h
          obtain ⟨ht, hmove, hguard, hnumber, hargs⟩ := hS
          have hlands := hmove.lands_of_guarded hguard place s.val e hready
          refine ⟨(ht.trapNumber_eq _).trans (hlands _ _ hnumber), ?_, ?_⟩
          · intro k hk
            obtain ⟨r, hr, hcarry⟩ := hargs k hk
            exact (Target.argWord_of_reg _ hr).trans (hlands _ _ hcarry)
          · intro x _
            rw [A.atTrap_mem]
      | plain A =>
          obtain ⟨hready, rfl⟩ := h
          obtain ⟨ht, rfl⟩ := hS
          have hrec : t.Receives t.three s (t.asm3.atTrap place e) :=
            (Target.receives_iff_of_ready (y := t.three) ht (fun h => h.2.2 rfl) hready).mpr hsurvive
          refine ⟨hrec.1, fun k _ => hrec.2 k k.isLt, ?_⟩
          intro x hx
          have hsp : e.regs t.stackReg = e.regs t.stackReg + 0 := (add_zero _).symm
          exact runInstrs_mem_of_staysWithin _ hx _ _ _ hsp (Target.asm_tidy t t.three).before
  | freebsdPowerpc =>
      cases S with
      | moving A => exact hS.elim
      | plain A =>
          obtain ⟨hready, rfl⟩ := h
          obtain ⟨hnumber, hargs, hbefore⟩ := hS
          refine ⟨Asm.atTrap_regs_of_keeps hnumber hready,
            fun k _ => Asm.atTrap_regs_of_keeps (hargs k) hready, ?_⟩
          intro x _
          rw [Asm.atTrap, hbefore, runInstrs_nil]

namespace Demo

theorem linux_serves (a : LinuxArch) :
    ((Target.linux a).Dispatches ∧ (Target.linux a).Moves 3 (HelloLinux.sysWrite a)) ∧
      ((Target.linux a).Dispatches ∧ (Target.linux a).Moves 1 (HelloLinux.sysExit a)) := by
  cases a <;> decide

theorem macos_serves (a : DarwinArch) :
    ((Target.macos a).Dispatches ∧ (Target.macos a).Moves 3 (HelloMacos.sysWrite a)) ∧
      ((Target.macos a).Dispatches ∧ (Target.macos a).Moves 1 (HelloMacos.sysExit a)) := by
  cases a <;> decide

theorem solaris_serves (a : SolarisArch) :
    ((Target.solaris a).Dispatches ∧ (Target.solaris a).Moves 3 (HelloSolaris.sysWrite a)) ∧
      ((Target.solaris a).Dispatches ∧ (Target.solaris a).Moves 1 (HelloSolaris.sysExit a)) := by
  cases a <;> decide

theorem mips64el_serves :
    ((Target.linux .mips64).Dispatches ∧
        (Target.linux .mips64).Moves 3 HelloLinuxMips64el.syscall3) ∧
      ((Target.linux .mips64).Dispatches ∧
        (Target.linux .mips64).Moves 1 HelloLinuxMips64el.syscallExit) := by
  decide

/-- FreeBSD on riscv64 looks for the number in another register than the statement puts it in. -/
theorem freebsd_dispatches {a : BsdArch} (h : a ≠ .riscv64) : (Target.bsd .freebsd a).Dispatches := by
  cases a with
  | riscv64 => exact absurd rfl h
  | amd64 | i386 | aarch64 | arm | ppc64 => rfl

theorem fbsdSyscall3_eq (a : BsdArch) :
    HelloFreebsd.fbsdSyscall3 a = (Target.bsd .freebsd a).asm3 := by
  cases a <;> rfl

theorem powerpc_serves :
    let A := HelloFreebsd.fbsdSyscall3 .ppc64
    A.Keeps (.r 0) .n ∧ (∀ k : Fin 3, A.Keeps (HelloFreebsd.powerpcArg k) (.arg k)) ∧
      A.before = [] := by
  decide

/-- Every statement of every other program hands over what it is to. -/
theorem serves {d : Demo} (hd : d ≠ .freebsd .riscv64) :
    d.sysWrite.Serves 3 d.platform ∧ d.sysExit.Serves 1 d.platform := by
  cases d with
  | linux a => exact linux_serves a
  | linuxMips64el => exact mips64el_serves
  | freebsd a =>
      have ht : (Target.bsd .freebsd a).Dispatches := freebsd_dispatches fun h => hd (h ▸ rfl)
      exact ⟨⟨ht, fbsdSyscall3_eq a⟩, ⟨ht, fbsdSyscall3_eq a⟩⟩
  | freebsdPowerpc => exact ⟨powerpc_serves, powerpc_serves⟩
  | macos a => exact macos_serves a
  | solaris a => exact solaris_serves a

theorem numbers_eq (d : Demo) :
    d.writeNumber = d.platform.writeNumber ∧ d.exitNumber = d.platform.exitNumber := by
  cases d with
  | linux a => cases a <;> decide
  | linuxMips64el | freebsdPowerpc => decide
  | freebsd a => cases a <;> decide
  | macos a => cases a <;> decide
  | solaris a => cases a <;> decide

theorem size_toNat {d : Demo} {mem : Mem d.platform.width} {msg : BitVec d.platform.width}
    (h : HoldsString mem msg d.text) : (d.size mem msg).toNat = d.text.length := by
  have hlen : (BitVec.ofNat d.platform.width d.text.length).toNat = d.text.length := by
    rw [BitVec.toNat_ofNat, Nat.mod_eq_of_lt h.firstNul.lt]
  have hfound : lengthOf mem msg = BitVec.ofNat _ d.text.length := by
    rw [lengthOf, strLength_eq h.firstNul fun _ _ => rfl]
  cases d with
  | freebsd | freebsdPowerpc => exact (congrArg BitVec.toNat hfound).trans hlen
  | linux | linuxMips64el | macos | solaris => exact hlen

variable {d : Demo} {msg : BitVec d.platform.width}

theorem Run.request_write (hd : d ≠ .freebsd .riscv64) (r : d.Run msg) (hr : r.Survives) :
    d.platform.request r.writeTrap = .write 1 msg (d.size r.writeEntry.mem msg) := by
  obtain ⟨hn, hargs, -⟩ := Statement.Enters.received (serves hd).1 r.write hr.1
  have hnumber : (d.writeArgs msg (d.size r.writeEntry.mem msg)).n =
      BitVec.ofNat d.platform.width d.platform.writeNumber :=
    congrArg (BitVec.ofNat d.platform.width) d.numbers_eq.1
  have hone : (1 : BitVec 32).signExtend d.platform.width = 1 := by
    rcases d.platform.width_eq with h | h <;> rw [h] <;> decide
  have hfd : d.platform.arg r.writeTrap 0 = 1 := (hargs 0 (by decide)).trans hone
  have hdata : d.platform.arg r.writeTrap 1 = msg := hargs 1 (by decide)
  have hsize : d.platform.arg r.writeTrap 2 = d.size r.writeEntry.mem msg := hargs 2 (by decide)
  rw [Platform.request_write (hn.trans hnumber), hfd, hdata, hsize]

theorem Run.request_exit (hd : d ≠ .freebsd .riscv64) (r : d.Run msg) (hr : r.Survives) :
    d.platform.request r.exitTrap = .exit 0 := by
  obtain ⟨hn, hargs, -⟩ := Statement.Enters.received (serves hd).2 r.exit hr.2
  have hnumber : d.exitArgs.n = BitVec.ofNat d.platform.width d.platform.exitNumber :=
    congrArg (BitVec.ofNat d.platform.width) d.numbers_eq.2
  have hstatus : d.platform.arg r.exitTrap 0 = (0 : BitVec 32).signExtend d.platform.width :=
    hargs 0 (by decide)
  rw [Platform.request_exit (hn.trans hnumber), hstatus,
    setWidth_signExtend_status d.platform.width_eq]

/-- **The programs.** Every one of them but the one for FreeBSD/riscv64, on every architecture it is written
for, with its operands wherever the compiler may put them and whatever happens between its statements: the
world sees the text of the program on descriptor 1, once, and then the end of the process with status 0. On
FreeBSD/i386 this is for operands that survive the pushes, and a text away from the sixteen bytes below the
stack pointer. -/
theorem hello_run {σ : Type} (os : OpSystem d.platform.width σ) (s : σ)
    (hd : d ≠ .freebsd .riscv64) (r : d.Run msg) (hr : r.Survives)
    (htext : HoldsString r.writeEntry.mem msg d.text)
    (hclear : ∀ i < d.text.length, msg + BitVec.ofNat _ i ∉
      d.platform.pushed (r.writeEntry.regs d.platform.stackReg)) :
    observe d.platform.request os [r.writeTrap, r.exitTrap] s =
      ([.wrote 1 d.text (os.write s 1 d.text).1, .exited 0], none) := by
  obtain ⟨-, -, hmem⟩ := Statement.Enters.received (serves hd).1 r.write hr.1
  have hbytes : bytesAt r.writeTrap.mem msg (d.size r.writeEntry.mem msg).toNat = d.text := by
    rw [size_toNat htext]
    exact (bytesAt_congr fun i hi => hmem _ (hclear i hi)).trans htext.bytes_eq
  simp only [observe, r.request_write hd hr, r.request_exit hd hr, OpSystem.serve, OpSystem.put, hbytes]

/-- The state at both statements of the macOS program: its text is at `0x1000`, and so is every register. -/
def macosEntry : Machine Reg 64 where
  regs _ := 0x1000
  flag := false
  mem := stringAt (w := 64) 0x1000 (macos .amd64).text

/-- The address of the text is in the register that the number is moved to last. -/
def macosWritePlace : Nat → Loc Reg 64
  | 1 => .imm 1
  | 2 => .reg .rax
  | 3 => .imm 38
  | _ => .imm 0x2000004

def macosExitPlace : Nat → Loc Reg 64
  | 0 => .imm 0
  | _ => .imm 0x2000001

theorem macosWrite_ready : moveWrite.Ready .rsp macosWritePlace
    ((macos .amd64).writeArgs 0x1000 ((macos .amd64).size macosEntry.mem 0x1000)).val macosEntry := by
  intro k c p hk
  rcases k with _ | _ | _ | _ | _ | k
  · cases hk
  · obtain ⟨rfl, rfl⟩ := Prod.mk.inj (Option.some.inj hk)
    exact ⟨⟨by decide, by decide⟩, rfl⟩
  · obtain ⟨rfl, rfl⟩ := Prod.mk.inj (Option.some.inj hk)
    exact ⟨⟨by decide, by decide⟩, rfl⟩
  · obtain ⟨rfl, rfl⟩ := Prod.mk.inj (Option.some.inj hk)
    have hsize : (38 : BitVec 64) = BitVec.ofNat 64 (macos .amd64).text.length := by decide
    exact ⟨⟨by decide, by decide⟩, hsize⟩
  · obtain ⟨rfl, rfl⟩ := Prod.mk.inj (Option.some.inj hk)
    exact ⟨⟨_, rfl⟩, rfl⟩
  · cases hk

theorem macosExit_ready :
    moveExit.Ready .rsp macosExitPlace (macos .amd64).exitArgs.val macosEntry := by
  intro k c p hk
  rcases k with _ | _ | k
  · obtain ⟨rfl, rfl⟩ := Prod.mk.inj (Option.some.inj hk)
    exact ⟨⟨by decide, by decide⟩, rfl⟩
  · obtain ⟨rfl, rfl⟩ := Prod.mk.inj (Option.some.inj hk)
    exact ⟨⟨_, rfl⟩, rfl⟩
  · cases hk

/-- A run of the macOS program on amd64. -/
def macosRun : (macos .amd64).Run 0x1000 where
  writePlace := macosWritePlace
  exitPlace := macosExitPlace
  writeEntry := macosEntry
  writeTrap := moveWrite.atTrap macosWritePlace macosEntry
  exitEntry := macosEntry
  exitTrap := moveExit.atTrap macosExitPlace macosEntry
  write := ⟨macosWrite_ready, rfl⟩
  exit := ⟨macosExit_ready, rfl⟩

/-- Its write is refused, and it exits with 0 all the same. -/
theorem hello_run_macos_amd64 :
    observe (kernelRequest (.macos .amd64)) (OpSystem.refusing 64)
        [macosRun.writeTrap, macosRun.exitTrap] () =
      ([.wrote 1 (macos .amd64).text (.fail ⟨9, by decide, by decide⟩), .exited 0], none) := by
  have htext : HoldsString macosRun.writeEntry.mem 0x1000 (macos .amd64).text :=
    holdsString_stringAt (w := 64) 0x1000 (by decide) (by decide)
  have hpush : ¬ (Target.macos .amd64).Pushes := by decide
  have hsurvive : macosRun.Survives := ⟨fun h => absurd h hpush, fun h => absurd h hpush⟩
  refine hello_run (d := macos .amd64) (OpSystem.refusing 64) () (by decide) macosRun hsurvive htext ?_
  intro i _
  have hnone : Platform.pushed (.library (.macos .amd64)) (macosRun.writeEntry.regs .rsp) = ∅ :=
    window_zero _
  exact fun h => Set.notMem_empty _ (hnone ▸ h)

end Demo

end IbSys
