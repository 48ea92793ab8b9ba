/-
# IbSys.Sys.Macros -- what the compiler predefines, and what `macros.hpp` makes of it

`macros.hpp` turns the symbols that a compiler predefines into `OS(...)` and `ARCH(...)`, and stops the
build on an old compiler. The guards of the partitions are made of these features, and of the compiler's
own symbols for SPARC, for which there is no macro. A compiler predefines the symbols of one kernel and
of one architecture; `Predefined.Coherent` is that promise.
-/
import IbSys.Lib.Conditional
import IbSys.Target

namespace IbSys

/-! ## Symbols -/

/-- The predefined symbols that are asked for. -/
inductive Symbol where
  /-- `__clang__`, `__clang_major__`, `__GNUC__`, `_MSC_VER` -/
  | clang | clangMajor | gnuc | mscVer
  /-- `_WIN32`, `__ANDROID__`, the minimum versions of macOS and of iOS, `__linux__` -/
  | win32 | android | macOsMinRequired | iphoneOsMinRequired | linux
  /-- `__FreeBSD__`, `__OpenBSD__`, `__NetBSD__`, `__DragonFly__`, `__sun__`, `__illumos__`, `__OHOS__` -/
  | freeBsd | openBsd | netBsd | dragonFly | sun | illumos | ohos
  /-- `__amd64__`, `_M_AMD64`, `__i386__`, `_M_IX86` -/
  | amd64 | mAmd64 | i386 | mIx86
  /-- `__aarch64__`, `_M_ARM64`, `__arm__`, `_M_ARM` -/
  | aarch64 | mArm64 | arm | mArm
  /-- `__powerpc64__`, `__ppc64__`, `__mips64`, `__riscv`, `__riscv_xlen`, `__s390x__`, `__loongarch64` -/
  | powerpc64 | ppc64 | mips64 | riscv | riscvXlen | s390x | loongarch64
  /-- `__sparcv9`, `__sparc64__`, `__sparc__`, `__arch64__` -/
  | sparcv9 | sparc64 | sparc | arch64
  deriving DecidableEq

/-- What a compiler predefines: the value of a symbol, where it is defined. -/
abbrev Predefined := Symbol → Option Nat

/-- `OS(...)` and `ARCH(...)`, and the condition of the SPARC partition. -/
inductive Feature where
  | windows | android | macos | ios | linux | freebsd | openbsd | netbsd | dragonfly | solaris
  | illumos | ohos
  | amd64 | i386 | aarch64 | arm | ppc64 | mips64 | riscv64 | s390x | loongarch64
  | sparc64
  deriving DecidableEq

namespace Predefined

def defined (p : Predefined) (s : Symbol) : Bool := (p s).isSome

/-- In an arithmetic condition, an undefined symbol is 0. -/
def value (p : Predefined) (s : Symbol) : Nat := (p s).getD 0

/-- The features that are on. -/
def on (p : Predefined) : Feature → Bool
  | .windows => p.defined .win32
  | .android => p.defined .android
  | .macos => p.defined .macOsMinRequired
  | .ios => p.defined .iphoneOsMinRequired
  | .linux => p.defined .linux
  | .freebsd => p.defined .freeBsd
  | .openbsd => p.defined .openBsd
  | .netbsd => p.defined .netBsd
  | .dragonfly => p.defined .dragonFly
  | .solaris => p.defined .sun
  | .illumos => p.defined .illumos
  | .ohos => p.defined .ohos
  | .amd64 => p.defined .amd64 || p.defined .mAmd64
  | .i386 => p.defined .i386 || p.defined .mIx86
  | .aarch64 => p.defined .aarch64 || p.defined .mArm64
  | .arm => p.defined .arm || p.defined .mArm
  | .ppc64 => p.defined .powerpc64 || p.defined .ppc64
  | .mips64 => p.defined .mips64
  | .riscv64 => p.defined .riscv && p.value .riscvXlen == 64
  | .s390x => p.defined .s390x
  | .loongarch64 => p.defined .loongarch64
  | .sparc64 => p.defined .sparcv9 || p.defined .sparc64 || (p.defined .sparc && p.defined .arch64)

/-- The version check. Clang defines `__GNUC__` too, and is asked first. -/
def versionOk (p : Predefined) : Bool :=
  if p.defined .clang then 21 ≤ p.value .clangMajor
  else if p.defined .gnuc then 16 ≤ p.value .gnuc
  else if p.defined .mscVer then 1951 ≤ p.value .mscVer
  else true

end Predefined

/-! ## One kernel, one architecture -/

namespace Feature

/-- The kernels. Android and OpenHarmony are Linux, illumos is `__sun__`. -/
def kernels : List Feature :=
  [.windows, .macos, .linux, .freebsd, .openbsd, .netbsd, .dragonfly, .solaris]

def archs : List Feature :=
  [.amd64, .i386, .aarch64, .arm, .ppc64, .mips64, .riscv64, .s390x, .loongarch64, .sparc64]

/-- Two kernels, or two architectures. -/
def Excludes (x y : Feature) : Prop :=
  x ≠ y ∧ ((x ∈ kernels ∧ y ∈ kernels) ∨ (x ∈ archs ∧ y ∈ archs))

instance : DecidableRel Excludes := fun x y =>
  inferInstanceAs (Decidable (x ≠ y ∧ ((x ∈ kernels ∧ y ∈ kernels) ∨ (x ∈ archs ∧ y ∈ archs))))

end Feature

/-- What a compiler promises: its symbols are those of at most one kernel and at most one architecture. -/
def Predefined.Coherent (p : Predefined) : Prop := Conditional.Coherent Feature.Excludes p.on

/-! ## Targets -/

def Os.feature : Os → Feature
  | .linux => .linux
  | .freebsd => .freebsd
  | .openbsd => .openbsd
  | .netbsd => .netbsd
  | .dragonfly => .dragonfly
  | .macos => .macos
  | .solaris => .solaris

def Arch.feature : Arch → Feature
  | .amd64 => .amd64
  | .i386 => .i386
  | .aarch64 => .aarch64
  | .arm => .arm
  | .ppc64 => .ppc64
  | .mips64 => .mips64
  | .riscv64 => .riscv64
  | .s390x => .s390x
  | .loongarch64 => .loongarch64
  | .sparc64 => .sparc64

/-- The build is for the target. -/
def Predefined.Selects (p : Predefined) (t : Target) : Prop :=
  p.on t.os.feature = true ∧ p.on t.arch.feature = true

namespace Target

theorem feature_mem : ∀ t : Target, t.os.feature ∈ Feature.kernels ∧ t.arch.feature ∈ Feature.archs := by
  decide

end Target

end IbSys
