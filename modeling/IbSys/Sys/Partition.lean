/-
# IbSys.Sys.Partition -- the module `ib.sys` as the compiler sees it

`ib.sys` is compiled whole for every target. Each of its partitions declares its names under a guard of
`macros.hpp` features, and all of them are imported. `ibSys` is that arrangement: the imports, and the
names under their guards. No coherent compiler sees two declarations of one name (`declares_unique`), the
POSIX layer finds all that its bodies use exactly when the build is for a `Target` (`posix_builds_iff`), and
what it finds is the backend of that target (`posix_resolves_backend`). So the target of the other modules
is what the preprocessor leaves.

`builds_iff` is the same for the whole program, with the start code and the application.
-/
import IbSys.Sys.Backend
import IbSys.Sys.Macros

namespace IbSys

open InlineAsm Conditional

/-! ## Names -/

/-- The names that are exported, and `StdHandle`, which is not. -/
inductive Name where
  | sysWrite | sysExit | sysMmap | sysMmap2 | syscall3 | syscall6 | syscall7
  | strLength
  | mapFailed | mmap | stdin | stdout | stderr | write | writeString | print | exit
  | handle | stdHandle | getStdHandle | getConsoleMode | writeConsoleW | writeFile
  deriving DecidableEq

def Arity.name : Arity → Name
  | .three => .syscall3
  | .six => .syscall6
  | .seven => .syscall7

/-! ## Partitions -/

/-- The partitions of `ib.sys`, and its primary interface. -/
inductive Partition where
  | interface
  | detail
  | posix
  | syscallWindows
  | syscallLinux
  | syscallLinuxArch (a : LinuxArch)
  | syscallBsd
  | syscallBsdOs (os : BsdOs)
  | syscallBsdArch (a : BsdArch)
  | syscallDarwin
  | syscallDarwinArch (a : DarwinArch)
  | syscallSolaris
  | syscallSolarisArch (a : SolarisArch)
  deriving DecidableEq

namespace Partition

def all : List Partition :=
  [.interface, .detail, .posix, .syscallWindows, .syscallLinux,
    .syscallLinuxArch .amd64, .syscallLinuxArch .i386, .syscallLinuxArch .arm,
    .syscallLinuxArch .aarch64, .syscallLinuxArch .mips64, .syscallLinuxArch .ppc64,
    .syscallLinuxArch .riscv64, .syscallLinuxArch .s390x, .syscallLinuxArch .loongarch64,
    .syscallBsd, .syscallBsdOs .freebsd, .syscallBsdOs .openbsd, .syscallBsdOs .netbsd,
    .syscallBsdOs .dragonfly, .syscallBsdArch .amd64, .syscallBsdArch .i386,
    .syscallBsdArch .aarch64, .syscallBsdArch .arm, .syscallBsdArch .ppc64,
    .syscallBsdArch .riscv64, .syscallDarwin, .syscallDarwinArch .amd64,
    .syscallDarwinArch .aarch64, .syscallSolaris, .syscallSolarisArch .amd64,
    .syscallSolarisArch .sparc64]

theorem mem_all (q : Partition) : q ∈ all := by
  cases q with
  | syscallLinuxArch a => cases a <;> decide
  | syscallBsdOs os => cases os <;> decide
  | syscallBsdArch a => cases a <;> decide
  | syscallDarwinArch a => cases a <;> decide
  | syscallSolarisArch a => cases a <;> decide
  | interface | detail | posix | syscallWindows | syscallLinux | syscallBsd | syscallDarwin
  | syscallSolaris => decide

/-- What the tables of this module say about every partition can be decided. -/
instance (p : Partition → Prop) [DecidablePred p] : Decidable (∀ q, p q) :=
  decidable_of_iff (∀ q ∈ all, p q) ⟨fun h q => h q q.mem_all, fun h q _ => h q⟩

/-! ## Imports -/

/-- What `posix.cpp` and `mod.cppm` both import. -/
def backends : List Partition :=
  [.syscallLinux, .syscallBsd, .syscallBsdOs .freebsd, .syscallBsdOs .openbsd,
    .syscallBsdOs .netbsd, .syscallBsdOs .dragonfly, .syscallDarwin, .syscallSolaris]

/-- `import` and `export import`; within the module both make names visible. -/
def imports : Partition → List Partition
  | .interface => [.detail, .posix, .syscallWindows] ++ backends
  | .posix => .detail :: backends
  | .syscallWindows => [.detail]
  | .syscallLinux =>
      [.syscallLinuxArch .amd64, .syscallLinuxArch .i386, .syscallLinuxArch .arm,
        .syscallLinuxArch .aarch64, .syscallLinuxArch .mips64, .syscallLinuxArch .ppc64,
        .syscallLinuxArch .riscv64, .syscallLinuxArch .s390x, .syscallLinuxArch .loongarch64]
  | .syscallBsd =>
      [.syscallBsdArch .amd64, .syscallBsdArch .i386, .syscallBsdArch .aarch64,
        .syscallBsdArch .arm, .syscallBsdArch .ppc64, .syscallBsdArch .riscv64]
  | .syscallBsdOs _ => [.syscallBsd]
  | .syscallDarwin => [.syscallDarwinArch .amd64, .syscallDarwinArch .aarch64]
  | .syscallSolaris => [.syscallSolarisArch .amd64, .syscallSolarisArch .sparc64]
  | .detail | .syscallLinuxArch _ | .syscallBsdArch _ | .syscallDarwinArch _
  | .syscallSolarisArch _ => []

/-- Imports lower this. -/
def rank : Partition → Nat
  | .interface => 4
  | .posix => 3
  | .syscallBsdOs _ => 2
  | .syscallWindows | .syscallLinux | .syscallBsd | .syscallDarwin | .syscallSolaris => 1
  | .detail | .syscallLinuxArch _ | .syscallBsdArch _ | .syscallDarwinArch _
  | .syscallSolarisArch _ => 0

theorem rank_lt_of_import : ∀ q, ∀ q' ∈ imports q, rank q' < rank q := by
  decide

/-! ## Guards -/

/-- `OS(FREEBSD) || OS(OPENBSD) || OS(NETBSD) || OS(DRAGONFLY)`. -/
def anyBsd : List Feature := [.freebsd, .openbsd, .netbsd, .dragonfly]

/-- The guard of the POSIX layer. -/
def posixGuard : Guard Feature :=
  [[.linux, .freebsd, .openbsd, .netbsd, .dragonfly, .macos, .solaris]]

/-- The features of an architecture's partition. -/
def linuxArchFeature (a : LinuxArch) : Feature := (Target.linux a).arch.feature
def bsdOsFeature (os : BsdOs) : Feature := (Target.bsd os .amd64).os.feature
def bsdArchFeature (a : BsdArch) : Feature := (Target.bsd .freebsd a).arch.feature
def darwinArchFeature (a : DarwinArch) : Feature := (Target.macos a).arch.feature
def solarisArchFeature (a : SolarisArch) : Feature := (Target.solaris a).arch.feature

/-- The declarations of each partition, under the guards in front of them. -/
def sections : Partition → List (Guard Feature × List Name)
  | .interface | .syscallLinux => []
  | .detail => [([], [.strLength])]
  | .posix =>
      [(posixGuard,
        [.mapFailed, .mmap, .stdin, .stdout, .stderr, .write, .writeString, .print, .exit])]
  | .syscallWindows =>
      [([[.windows]], [.handle, .stdHandle, .getStdHandle, .getConsoleMode, .writeConsoleW,
        .writeFile, .print, .exit])]
  | .syscallLinuxArch a =>
      [([[.linux], [linuxArchFeature a]],
        [.sysWrite, .sysExit, if a = .i386 ∨ a = .arm then .sysMmap2 else .sysMmap,
          .syscall3, .syscall6])]
  | .syscallBsd => [([anyBsd], [.sysWrite, .sysExit])]
  | .syscallBsdOs os => [([[bsdOsFeature os]], [.sysMmap])]
  | .syscallBsdArch a =>
      [([anyBsd, [bsdArchFeature a]], [.syscall3, .syscall6]),
        ([anyBsd, [bsdArchFeature a], [.netbsd, .openbsd]], [.syscall7])]
  | .syscallDarwin => [([[.macos]], [.sysWrite, .sysExit, .sysMmap])]
  | .syscallDarwinArch a =>
      [([[.macos], [darwinArchFeature a]], [.syscall3, .syscall6, .syscall7])]
  | .syscallSolaris => [([[.solaris]], [.sysWrite, .sysExit, .sysMmap])]
  | .syscallSolarisArch a =>
      [([[.solaris], [solarisArchFeature a]], [.syscall3, .syscall6])]

/-- The module `ib.sys`. -/
def ibSys : Parts Feature Partition Name where
  imports := imports
  sections := sections

/-! ## What the declarations mean -/

/-- The statement of a raw primitive. -/
def statement : Partition → Arity → Option (Asm Reg Param)
  | .syscallLinuxArch .amd64, .three => SyscallLinuxAmd64.syscall3
  | .syscallLinuxArch .amd64, .six => SyscallLinuxAmd64.syscall6
  | .syscallLinuxArch .i386, .three => SyscallLinuxI386.syscall3
  | .syscallLinuxArch .i386, .six => SyscallLinuxI386.syscall6
  | .syscallLinuxArch .arm, .three => SyscallLinuxArm.syscall3
  | .syscallLinuxArch .arm, .six => SyscallLinuxArm.syscall6
  | .syscallLinuxArch .aarch64, .three => SyscallLinuxAarch64.syscall3
  | .syscallLinuxArch .aarch64, .six => SyscallLinuxAarch64.syscall6
  | .syscallLinuxArch .mips64, .three => SyscallLinuxMips64.syscall3
  | .syscallLinuxArch .mips64, .six => SyscallLinuxMips64.syscall6
  | .syscallLinuxArch .ppc64, .three => SyscallLinuxPpc64.syscall3
  | .syscallLinuxArch .ppc64, .six => SyscallLinuxPpc64.syscall6
  | .syscallLinuxArch .riscv64, .three => SyscallLinuxRiscv64.syscall3
  | .syscallLinuxArch .riscv64, .six => SyscallLinuxRiscv64.syscall6
  | .syscallLinuxArch .s390x, .three => SyscallLinuxS390x.syscall3
  | .syscallLinuxArch .s390x, .six => SyscallLinuxS390x.syscall6
  | .syscallLinuxArch .loongarch64, .three => SyscallLinuxLoongarch64.syscall3
  | .syscallLinuxArch .loongarch64, .six => SyscallLinuxLoongarch64.syscall6
  | .syscallBsdArch .amd64, .three => SyscallBsdAmd64.syscall3
  | .syscallBsdArch .amd64, .six => SyscallBsdAmd64.syscall6
  | .syscallBsdArch .amd64, .seven => SyscallBsdAmd64.syscall7
  | .syscallBsdArch .i386, .three => SyscallBsdI386.syscall3
  | .syscallBsdArch .i386, .six => SyscallBsdI386.syscall6
  | .syscallBsdArch .i386, .seven => SyscallBsdI386.syscall7
  | .syscallBsdArch .aarch64, .three => SyscallBsdAarch64.syscall3
  | .syscallBsdArch .aarch64, .six => SyscallBsdAarch64.syscall6
  | .syscallBsdArch .aarch64, .seven => SyscallBsdAarch64.syscall7
  | .syscallBsdArch .arm, .three => SyscallBsdArm.syscall3
  | .syscallBsdArch .arm, .six => SyscallBsdArm.syscall6
  | .syscallBsdArch .arm, .seven => SyscallBsdArm.syscall7
  | .syscallBsdArch .ppc64, .three => SyscallBsdPpc64.syscall3
  | .syscallBsdArch .ppc64, .six => SyscallBsdPpc64.syscall6
  | .syscallBsdArch .ppc64, .seven => SyscallBsdPpc64.syscall7
  | .syscallBsdArch .riscv64, .three => SyscallBsdRiscv64.syscall3
  | .syscallBsdArch .riscv64, .six => SyscallBsdRiscv64.syscall6
  | .syscallBsdArch .riscv64, .seven => SyscallBsdRiscv64.syscall7
  | .syscallDarwinArch .amd64, .three => SyscallDarwinAmd64.syscall3
  | .syscallDarwinArch .amd64, .six => SyscallDarwinAmd64.syscall6
  | .syscallDarwinArch .amd64, .seven => SyscallDarwinAmd64.syscall7
  | .syscallDarwinArch .aarch64, .three => SyscallDarwinAarch64.syscall3
  | .syscallDarwinArch .aarch64, .six => SyscallDarwinAarch64.syscall6
  | .syscallDarwinArch .aarch64, .seven => SyscallDarwinAarch64.syscall7
  | .syscallSolarisArch .amd64, .three => SyscallSolarisAmd64.syscall3
  | .syscallSolarisArch .amd64, .six => SyscallSolarisAmd64.syscall6
  | .syscallSolarisArch .sparc64, .three => SyscallSolarisSparc64.syscall3
  | .syscallSolarisArch .sparc64, .six => SyscallSolarisSparc64.syscall6
  | _, _ => none

/-- The value of a number. -/
def number : Partition → Name → Option Nat
  | .syscallLinuxArch .amd64, .sysWrite => SyscallLinuxAmd64.sysWrite
  | .syscallLinuxArch .amd64, .sysExit => SyscallLinuxAmd64.sysExit
  | .syscallLinuxArch .amd64, .sysMmap => SyscallLinuxAmd64.sysMmap
  | .syscallLinuxArch .i386, .sysWrite => SyscallLinuxI386.sysWrite
  | .syscallLinuxArch .i386, .sysExit => SyscallLinuxI386.sysExit
  | .syscallLinuxArch .i386, .sysMmap2 => SyscallLinuxI386.sysMmap2
  | .syscallLinuxArch .arm, .sysWrite => SyscallLinuxArm.sysWrite
  | .syscallLinuxArch .arm, .sysExit => SyscallLinuxArm.sysExit
  | .syscallLinuxArch .arm, .sysMmap2 => SyscallLinuxArm.sysMmap2
  | .syscallLinuxArch .aarch64, .sysWrite => SyscallLinuxAarch64.sysWrite
  | .syscallLinuxArch .aarch64, .sysExit => SyscallLinuxAarch64.sysExit
  | .syscallLinuxArch .aarch64, .sysMmap => SyscallLinuxAarch64.sysMmap
  | .syscallLinuxArch .mips64, .sysWrite => SyscallLinuxMips64.sysWrite
  | .syscallLinuxArch .mips64, .sysExit => SyscallLinuxMips64.sysExit
  | .syscallLinuxArch .mips64, .sysMmap => SyscallLinuxMips64.sysMmap
  | .syscallLinuxArch .ppc64, .sysWrite => SyscallLinuxPpc64.sysWrite
  | .syscallLinuxArch .ppc64, .sysExit => SyscallLinuxPpc64.sysExit
  | .syscallLinuxArch .ppc64, .sysMmap => SyscallLinuxPpc64.sysMmap
  | .syscallLinuxArch .riscv64, .sysWrite => SyscallLinuxRiscv64.sysWrite
  | .syscallLinuxArch .riscv64, .sysExit => SyscallLinuxRiscv64.sysExit
  | .syscallLinuxArch .riscv64, .sysMmap => SyscallLinuxRiscv64.sysMmap
  | .syscallLinuxArch .s390x, .sysWrite => SyscallLinuxS390x.sysWrite
  | .syscallLinuxArch .s390x, .sysExit => SyscallLinuxS390x.sysExit
  | .syscallLinuxArch .s390x, .sysMmap => SyscallLinuxS390x.sysMmap
  | .syscallLinuxArch .loongarch64, .sysWrite => SyscallLinuxLoongarch64.sysWrite
  | .syscallLinuxArch .loongarch64, .sysExit => SyscallLinuxLoongarch64.sysExit
  | .syscallLinuxArch .loongarch64, .sysMmap => SyscallLinuxLoongarch64.sysMmap
  | .syscallBsd, .sysWrite => SyscallBsd.sysWrite
  | .syscallBsd, .sysExit => SyscallBsd.sysExit
  | .syscallBsdOs .freebsd, .sysMmap => SyscallFreebsd.sysMmap
  | .syscallBsdOs .openbsd, .sysMmap => SyscallOpenbsd.sysMmap
  | .syscallBsdOs .netbsd, .sysMmap => SyscallNetbsd.sysMmap
  | .syscallBsdOs .dragonfly, .sysMmap => SyscallDragonfly.sysMmap
  | .syscallDarwin, .sysWrite => SyscallDarwin.sysWrite
  | .syscallDarwin, .sysExit => SyscallDarwin.sysExit
  | .syscallDarwin, .sysMmap => SyscallDarwin.sysMmap
  | .syscallSolaris, .sysWrite => SyscallSolaris.sysWrite
  | .syscallSolaris, .sysExit => SyscallSolaris.sysExit
  | .syscallSolaris, .sysMmap => SyscallSolaris.sysMmap
  | _, _ => none

end Partition

/-! ## What the bodies use -/

/-- The three ways of `mmap`. -/
inductive MmapBranch where
  | mmap2
  | padded
  | plain
  deriving DecidableEq

/-- The `#if` inside `mmap`. -/
def mmapBranch (m : Feature → Bool) : MmapBranch :=
  if m .linux && (m .i386 || m .arm) then .mmap2
  else if m .netbsd || m .openbsd || m .macos then .padded
  else .plain

/-- The number that `mmap` passes, and the primitive it passes it to. -/
def MmapBranch.uses : MmapBranch → List Name
  | .mmap2 => [.syscall6, .sysMmap2]
  | .padded => [.syscall7, .sysMmap]
  | .plain => [.syscall6, .sysMmap]

/-- The names in the bodies of `posix.cpp`. -/
def posixUses (m : Feature → Bool) : List Name :=
  if Partition.posixGuard.holds m then
    [.syscall3, .sysWrite, .sysExit, .strLength, .mapFailed, .stdout, .write, .writeString] ++
      (mmapBranch m).uses
  else []

/-- The names in the bodies of `syscall_windows.cpp`. -/
def windowsUses (m : Feature → Bool) : List Name :=
  if m .windows then [.handle, .stdHandle, .getStdHandle, .writeFile, .print, .strLength] else []

/-- The names that the start code and the application use. -/
def programUses : List Name := [.exit, .print]

/-- Every name in the list means one thing where it is used. -/
def AllResolve (m : Feature → Bool) (q : Partition) (ns : List Name) : Prop :=
  ∀ n ∈ ns, ∃ q', Partition.ibSys.Resolves m q n q'

/-! ## One declaration of a name -/

/-- Two partitions that may declare one name ask for two kernels, or for two architectures. -/
theorem ibSys_separate : Partition.ibSys.Separate Feature.Excludes := by
  show ∀ q q' : Partition, q = q' ∨ ∀ s ∈ Partition.sections q, ∀ s' ∈ Partition.sections q',
    (∃ n ∈ s.2, n ∈ s'.2) → s.1.Apart Feature.Excludes s'.1
  decide

/-- **Importing all partitions is unambiguous**: no coherent compiler sees a name declared by two of them. -/
theorem declares_unique {p : Predefined} (hp : p.Coherent) {q q' : Partition} {n : Name}
    (h : Partition.ibSys.Declares p.on q n) (h' : Partition.ibSys.Declares p.on q' n) : q = q' :=
  ibSys_separate.at_most_one hp h h'

theorem sees_posix {q : Partition} (h : q ≠ .interface) (h' : q ≠ .syscallWindows) :
    Partition.ibSys.Sees .posix q := by
  have htable : ∀ q : Partition, q ≠ .interface → q ≠ .syscallWindows →
      q ∈ Partition.ibSys.seen 3 .posix := by
    decide
  exact (Parts.mem_seen_iff Partition.ibSys Partition.rank_lt_of_import (le_refl 3)).mp (htable q h h')

theorem sees_interface (q : Partition) : Partition.ibSys.Sees .interface q := by
  have htable : ∀ q : Partition, q ∈ Partition.ibSys.seen 4 .interface := by
    decide
  exact (Parts.mem_seen_iff Partition.ibSys Partition.rank_lt_of_import (le_refl 4)).mp (htable q)

/-! ## The backend of a target -/

namespace Target

/-- The names that the backend of a target provides. -/
def names (t : Target) : List Name :=
  [.syscall3, .syscall6, .sysWrite, .sysExit, if t.HasMmap2 then .sysMmap2 else .sysMmap] ++
    if t.HasSyscall7 then [.syscall7] else []

/-- Where it provides them. -/
def home : Target → Name → Partition
  | .linux a, _ => .syscallLinuxArch a
  | .bsd _ a, .syscall3 | .bsd _ a, .syscall6 | .bsd _ a, .syscall7 => .syscallBsdArch a
  | .bsd os _, .sysMmap => .syscallBsdOs os
  | .bsd _ _, _ => .syscallBsd
  | .macos a, .syscall3 | .macos a, .syscall6 | .macos a, .syscall7 => .syscallDarwinArch a
  | .macos _, _ => .syscallDarwin
  | .solaris a, .syscall3 | .solaris a, .syscall6 | .solaris a, .syscall7 => .syscallSolarisArch a
  | .solaris _, _ => .syscallSolaris

/-- What the target means by a number. -/
def number (t : Target) : Name → Option Nat
  | .sysWrite => t.sysWrite
  | .sysExit => t.sysExit
  | .sysMmap | .sysMmap2 => t.sysMmap
  | _ => none

def mmapBranch (t : Target) : MmapBranch :=
  if t.HasMmap2 then .mmap2 else if t.HasSyscall7 then .padded else .plain

/-- Every clause of the guard in front of such a name has one of the two features of the target. -/
theorem home_section : ∀ t : Target, ∀ n ∈ t.names, ∃ s ∈ Partition.sections (t.home n),
    n ∈ s.2 ∧ ∀ c ∈ s.1, t.os.feature ∈ c ∨ t.arch.feature ∈ c := by
  decide

theorem home_sees : ∀ t : Target, ∀ n ∈ t.names,
    t.home n ≠ .interface ∧ t.home n ≠ .syscallWindows := by
  decide

theorem home_number : ∀ t : Target, ∀ n ∈ t.names,
    t.number n ≠ none → Partition.number (t.home n) n = t.number n := by
  decide

theorem home_statement (t : Target) (y : t.Arities) :
    Partition.statement (t.home y.1.name) y.1 = some (t.asm y) := by
  obtain ⟨y, hy⟩ := y
  cases t with
  | linux a => cases a <;> cases y <;> first | rfl | exact absurd (hy rfl) (by decide)
  | bsd os a => cases os <;> cases a <;> cases y <;> rfl
  | macos a => cases a <;> cases y <;> rfl
  | solaris a => cases a <;> cases y <;> first | rfl | exact absurd (hy rfl) (by decide)

end Target

theorem Predefined.Selects.declares {p : Predefined} {t : Target} (h : p.Selects t) {n : Name}
    (hn : n ∈ t.names) : Partition.ibSys.Declares p.on (t.home n) n := by
  obtain ⟨s, hs, hmem, hclauses⟩ := t.home_section n hn
  refine ⟨s, hs, ?_, hmem⟩
  rw [Guard.holds_iff]
  intro c hc
  rcases hclauses c hc with hos | harch
  · exact ⟨_, hos, h.1⟩
  · exact ⟨_, harch, h.2⟩

/-- Whoever provides `syscall3` provides it for a target. -/
theorem selects_of_declares {p : Predefined} {q : Partition}
    (h : Partition.ibSys.Declares p.on q .syscall3) : ∃ t, p.Selects t := by
  have htable : ∀ q, ∀ s ∈ Partition.sections q, Name.syscall3 ∈ s.2 → ∃ c ∈ s.1, ∃ d ∈ s.1,
      ∀ x ∈ c, ∀ y ∈ d, ∃ t ∈ Target.all, t.os.feature = x ∧ t.arch.feature = y := by
    decide
  obtain ⟨s, hs, hholds, hmem⟩ := h
  obtain ⟨c, hc, d, hd, htarget⟩ := htable q s hs hmem
  obtain ⟨x, hx, honx⟩ := Guard.holds_iff.mp hholds c hc
  obtain ⟨y, hy, hony⟩ := Guard.holds_iff.mp hholds d hd
  obtain ⟨t, -, rfl, rfl⟩ := htarget x hx y hy
  exact ⟨t, honx, hony⟩

/-! ## What is on in the build for a target -/

namespace Predefined

variable {p : Predefined} (hp : p.Coherent) {t : Target} (h : p.Selects t)
include hp h

/-- Of the kernels, only the one of the target is on. -/
theorem Selects.kernel {x : Feature} (hx : x ∈ Feature.kernels) :
    p.on x = decide (x = t.os.feature) := by
  by_cases hxt : x = t.os.feature
  · rw [hxt, h.1, decide_eq_true rfl]
  · rw [decide_eq_false hxt, Bool.eq_false_iff]
    intro hon
    exact hp x _ ⟨hxt, Or.inl ⟨hx, t.feature_mem.1⟩⟩ ⟨hon, h.1⟩

/-- Of the architectures, only the one of the target is on. -/
theorem Selects.arch {x : Feature} (hx : x ∈ Feature.archs) :
    p.on x = decide (x = t.arch.feature) := by
  by_cases hxt : x = t.arch.feature
  · rw [hxt, h.2, decide_eq_true rfl]
  · rw [decide_eq_false hxt, Bool.eq_false_iff]
    intro hon
    exact hp x _ ⟨hxt, Or.inr ⟨hx, t.feature_mem.2⟩⟩ ⟨hon, h.2⟩

theorem Selects.mmapBranch_eq : mmapBranch p.on = t.mmapBranch := by
  have htable : ∀ t : Target,
      (if decide (Feature.linux = t.os.feature) &&
          (decide (Feature.i386 = t.arch.feature) || decide (Feature.arm = t.arch.feature)) then
        MmapBranch.mmap2
      else if decide (Feature.netbsd = t.os.feature) || decide (Feature.openbsd = t.os.feature) ||
          decide (Feature.macos = t.os.feature) then MmapBranch.padded
      else MmapBranch.plain) = t.mmapBranch := by
    decide
  rw [← htable t, mmapBranch, h.kernel hp (by decide), h.arch hp (by decide), h.arch hp (by decide),
    h.kernel hp (by decide), h.kernel hp (by decide), h.kernel hp (by decide)]

theorem Selects.resolves {n : Name} (hn : n ∈ t.names) :
    Partition.ibSys.Resolves p.on .posix n (t.home n) := by
  obtain ⟨hne, hne'⟩ := t.home_sees n hn
  exact (ibSys_separate.resolves_iff hp).mpr ⟨sees_posix hne hne', h.declares hn⟩

end Predefined

/-- The primitives of a target are among its names. -/
theorem Arity.name_mem : ∀ (t : Target) (y : t.Arities), y.1.name ∈ t.names := by
  decide

/-- **The preprocessor leaves the backend of the target.** In a coherent build for a target, the POSIX
layer resolves every primitive to a partition whose statement is the one of the target, and every number
to one whose value is; and its `mmap` takes the branch of the target. -/
theorem posix_resolves_backend {p : Predefined} (hp : p.Coherent) {t : Target} (h : p.Selects t) :
    (∀ y : t.Arities, ∃ q, Partition.ibSys.Resolves p.on .posix y.1.name q ∧
      q.statement y.1 = some (t.asm y)) ∧
    (∀ n ∈ t.names, t.number n ≠ none →
      ∃ q, Partition.ibSys.Resolves p.on .posix n q ∧ q.number n = t.number n) ∧
    mmapBranch p.on = t.mmapBranch := by
  refine ⟨?_, ?_, h.mmapBranch_eq hp⟩
  · intro y
    exact ⟨_, h.resolves hp (Arity.name_mem t y), t.home_statement y⟩
  · intro n hn hnum
    exact ⟨_, h.resolves hp hn, t.home_number n hn hnum⟩

/-! ## What builds -/

theorem declares_posix {m : Feature → Bool} (hm : Partition.posixGuard.holds m = true) {n : Name}
    (hn : n ∈ [Name.mapFailed, .mmap, .stdin, .stdout, .stderr, .write, .writeString, .print, .exit]) :
    Partition.ibSys.Declares m .posix n :=
  ⟨_, List.mem_singleton.mpr rfl, hm, hn⟩

theorem declares_detail (m : Feature → Bool) : Partition.ibSys.Declares m .detail .strLength :=
  ⟨_, List.mem_singleton.mpr rfl, rfl, List.mem_singleton.mpr rfl⟩

theorem posixGuard_of_selects {p : Predefined} {t : Target} (h : p.Selects t) :
    Partition.posixGuard.holds p.on = true := by
  have htable : ∀ t : Target, ∀ c ∈ Partition.posixGuard, t.os.feature ∈ c := by
    decide
  exact Guard.holds_iff.mpr fun c hc => ⟨_, htable t c hc, h.1⟩

theorem allResolve_posix {p : Predefined} (hp : p.Coherent) {t : Target} (h : p.Selects t) :
    AllResolve p.on .posix (posixUses p.on) := by
  have hguard := posixGuard_of_selects h
  have hraw : ∀ t : Target, ∀ n ∈ [Name.syscall3, .sysWrite, .sysExit] ++ t.mmapBranch.uses,
      n ∈ t.names := by
    decide
  intro n hn
  rw [posixUses, if_pos hguard, h.mmapBranch_eq hp] at hn
  have hcases : n ∈ [Name.syscall3, .sysWrite, .sysExit] ++ t.mmapBranch.uses ∨ n = .strLength ∨
      n ∈ [Name.mapFailed, .stdout, .write, .writeString] := by
    simp only [List.mem_append, List.mem_cons, List.not_mem_nil, or_false] at hn ⊢
    tauto
  rcases hcases with hin | rfl | hown
  · exact ⟨_, h.resolves hp (hraw t n hin)⟩
  · exact ⟨_, (ibSys_separate.resolves_iff hp).mpr
      ⟨sees_posix (by decide) (by decide), declares_detail p.on⟩⟩
  · refine ⟨.posix, (ibSys_separate.resolves_iff hp).mpr ⟨Relation.ReflTransGen.refl, ?_⟩⟩
    apply declares_posix hguard
    simp only [List.mem_cons, List.not_mem_nil, or_false] at hown ⊢
    tauto

/-- **The POSIX layer builds** exactly when it is left empty or the build is for a target. -/
theorem posix_builds_iff {p : Predefined} (hp : p.Coherent) :
    AllResolve p.on .posix (posixUses p.on) ↔
      (Partition.posixGuard.holds p.on = true → ∃ t, p.Selects t) := by
  constructor
  · intro h hguard
    have hmem : Name.syscall3 ∈ posixUses p.on := by
      rw [posixUses, if_pos hguard]
      exact List.mem_cons_self
    obtain ⟨q, hq⟩ := h _ hmem
    exact selects_of_declares hq.1.2
  · intro h
    by_cases hguard : Partition.posixGuard.holds p.on = true
    · obtain ⟨t, ht⟩ := h hguard
      exact allResolve_posix hp ht
    · rw [posixUses, if_neg hguard]
      exact fun n hn => absurd hn List.not_mem_nil

/-- The compiler is new enough, and every name in the library, the start code and the application means
one thing. -/
def Predefined.Builds (p : Predefined) : Prop :=
  p.versionOk = true ∧ AllResolve p.on .posix (posixUses p.on) ∧
    AllResolve p.on .syscallWindows (windowsUses p.on) ∧ AllResolve p.on .interface programUses

/-- No target is for Windows. -/
theorem windows_ne : ∀ t : Target, Feature.windows ≠ t.os.feature := by
  decide

/-- On Windows the POSIX layer is empty. -/
theorem posixGuard_of_windows {p : Predefined} (hp : p.Coherent) (h : p.on .windows = true) :
    ¬ Partition.posixGuard.holds p.on = true := by
  have hapart : Guard.Apart Feature.Excludes [[.windows]] Partition.posixGuard := by
    decide
  intro hguard
  refine hapart.not_both hp ⟨?_, hguard⟩
  simp [Guard.holds, h]

theorem declares_windows {m : Feature → Bool} (hm : m .windows = true) {n : Name}
    (hn : n ∈ [Name.handle, .stdHandle, .getStdHandle, .getConsoleMode, .writeConsoleW, .writeFile,
      .print, .exit]) : Partition.ibSys.Declares m .syscallWindows n :=
  ⟨_, List.mem_singleton.mpr rfl, by simp [Guard.holds, hm], hn⟩

theorem allResolve_windows {p : Predefined} (hp : p.Coherent) (h : p.on .windows = true) :
    AllResolve p.on .syscallWindows (windowsUses p.on) := by
  intro n hn
  rw [windowsUses, if_pos h] at hn
  by_cases hlen : n = .strLength
  · subst hlen
    have hsees : Partition.ibSys.Sees .syscallWindows .detail :=
      Relation.ReflTransGen.single List.mem_cons_self
    exact ⟨_, (ibSys_separate.resolves_iff hp).mpr ⟨hsees, declares_detail p.on⟩⟩
  · refine ⟨.syscallWindows, (ibSys_separate.resolves_iff hp).mpr
      ⟨Relation.ReflTransGen.refl, declares_windows h ?_⟩⟩
    simp only [List.mem_cons, List.not_mem_nil, or_false] at hn ⊢
    tauto

/-- Only the POSIX layer and the Windows partition end the process. -/
theorem exit_provider {m : Feature → Bool} {q : Partition}
    (h : Partition.ibSys.Declares m q .exit) :
    m .windows = true ∨ Partition.posixGuard.holds m = true := by
  have htable : ∀ q, ∀ s ∈ Partition.sections q, Name.exit ∈ s.2 →
      s.1 = [[.windows]] ∨ s.1 = Partition.posixGuard := by
    decide
  obtain ⟨s, hs, hholds, hmem⟩ := h
  rcases htable q s hs hmem with hg | hg
  · left
    rw [hg] at hholds
    simpa [Guard.holds] using hholds
  · right
    rwa [hg] at hholds

/-- **What builds.** Under a coherent compiler the program builds exactly when the compiler is new enough
and the build is for Windows or for a target. -/
theorem builds_iff {p : Predefined} (hp : p.Coherent) :
    p.Builds ↔ p.versionOk = true ∧ (p.on .windows = true ∨ ∃ t, p.Selects t) := by
  constructor
  · rintro ⟨hversion, hposix, -, hprogram⟩
    refine ⟨hversion, ?_⟩
    obtain ⟨q, hq⟩ := hprogram .exit (by decide)
    rcases exit_provider hq.1.2 with hwin | hguard
    · exact Or.inl hwin
    · exact Or.inr ((posix_builds_iff hp).mp hposix hguard)
  · rintro ⟨hversion, hwin | ⟨t, ht⟩⟩
    · refine ⟨hversion, ?_, allResolve_windows hp hwin, ?_⟩
      · exact (posix_builds_iff hp).mpr fun hguard =>
          absurd hguard (posixGuard_of_windows hp hwin)
      · intro n hn
        refine ⟨.syscallWindows, (ibSys_separate.resolves_iff hp).mpr
          ⟨sees_interface _, declares_windows hwin ?_⟩⟩
        revert n
        decide
    · have hguard := posixGuard_of_selects ht
      have hoff : ¬ p.on .windows = true := by
        rw [ht.kernel hp (by decide), decide_eq_true_eq]
        exact windows_ne t
      refine ⟨hversion, allResolve_posix hp ht, ?_, ?_⟩
      · rw [windowsUses, if_neg hoff]
        exact fun n hn => absurd hn List.not_mem_nil
      · intro n hn
        refine ⟨.posix, (ibSys_separate.resolves_iff hp).mpr
          ⟨sees_interface _, declares_posix hguard ?_⟩⟩
        revert n
        decide

/-! ## A compiler for Android -/

/-- Clang 21 for Android on aarch64: the symbols of Linux, and its own. -/
def androidClang : Predefined
  | .clang => some 1
  | .clangMajor => some 21
  | .gnuc => some 4
  | .android => some 1
  | .linux => some 1
  | .aarch64 => some 1
  | _ => none

theorem androidClang_coherent : androidClang.Coherent := by
  have hon : ∀ x, androidClang.on x = true → x ∈ [Feature.android, .linux, .aarch64] := by
    intro x
    cases x <;> decide
  rintro x y hexcl ⟨hx, hy⟩
  have hx := hon x hx
  have hy := hon y hy
  simp only [List.mem_cons, List.not_mem_nil, or_false] at hx hy
  rcases hx with rfl | rfl | rfl <;> rcases hy with rfl | rfl | rfl <;> exact absurd hexcl (by decide)

theorem androidClang_selects : androidClang.Selects (.linux .aarch64) := ⟨rfl, rfl⟩

/-- `SYS_MMAP` has one declaration, in the partition for aarch64. -/
theorem declares_unique_android :
    Partition.syscallLinuxArch .aarch64 = (Target.linux .aarch64).home .sysMmap :=
  declares_unique androidClang_coherent (n := .sysMmap) (by decide)
    (androidClang_selects.declares (by decide))

theorem posix_resolves_backend_android :
    ∃ q, Partition.ibSys.Resolves androidClang.on .posix .syscall3 q ∧
      q.statement .three = some SyscallLinuxAarch64.syscall3 :=
  (posix_resolves_backend androidClang_coherent androidClang_selects).1 ⟨.three, by decide⟩

theorem builds_android : androidClang.Builds :=
  (builds_iff androidClang_coherent).mpr ⟨rfl, Or.inr ⟨_, androidClang_selects⟩⟩

end IbSys
