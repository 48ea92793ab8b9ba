/-
# IbSys.Sys.KernelAbi -- the other side of the trap

What the library relies on of the kernels, as definitions over the machine state at a trap and over
the state the kernel returns: where the number and the arguments are read, how an outcome is
reported, and what the handler behind each target's `mmap` number takes as its parameters.

`kernelMmap` is the handler's view of an `mmap`: the request it works on, decoded from the trap
state. `MmapArgs.request` is the request the caller meant. That the two agree is what delivery means.
-/
import IbSys.Sys.Posix

namespace IbSys

open ByteMemory RegMachine InlineAsm

namespace Target

/-! ## Registers of the system-call conventions -/

/-- The register in which the statements pass the number. -/
def numberReg (t : Target) : Reg :=
  match t.arch with
  | .amd64 => .rax
  | .i386 => .eax
  | .aarch64 => if t.os = .macos then .x 16 else .x 8
  | .arm => .r 7
  | .ppc64 => .r 0
  | .mips64 => .mips 2
  | .riscv64 | .loongarch64 => .a 7
  | .s390x => .r 1
  | .sparc64 => .g 1

/-- Where a kernel finds the number: in a register, or in the trap instruction itself. -/
inductive NumberSource where
  | reg (r : Reg)
  | trap
  deriving DecidableEq

/-- Most kernels look where the statements put it. OpenBSD/ARM and the BSDs on riscv64 read another
register, and NetBSD/ARM and NetBSD/aarch64 the immediate of the instruction. (DragonFly runs on amd64
only; elsewhere FreeBSD's conventions stand in for it.) -/
def numberSource (t : Target) : NumberSource :=
  match t with
  | .bsd .openbsd .arm => .reg (.r 12)
  | .bsd .netbsd .arm | .bsd .netbsd .aarch64 => .trap
  | .bsd .netbsd .riscv64 => .reg .t6
  | .bsd _ .riscv64 => .reg .t0
  | t => .reg t.numberReg

/-- The number that a kernel finds. Every trap instruction of the statements has the immediate 0. -/
def trapNumber (t : Target) (m : t.Mach) : BitVec t.width :=
  match t.numberSource with
  | .reg r => m.regs r
  | .trap => 0

/-- The kernel looks for the number where the statements put it. -/
def Dispatches (t : Target) : Prop := t.numberSource = .reg t.numberReg

instance (t : Target) : Decidable t.Dispatches := inferInstanceAs (Decidable (_ = _))

theorem Dispatches.trapNumber_eq {t : Target} (h : t.Dispatches) (m : t.Mach) :
    t.trapNumber m = m.regs t.numberReg := by
  rw [trapNumber, h]

def resultReg (t : Target) : Reg :=
  match t.arch with
  | .amd64 => .rax
  | .i386 => .eax
  | .aarch64 => .x 0
  | .arm => .r 0
  | .ppc64 => .r 3
  | .mips64 => .mips 2
  | .riscv64 | .loongarch64 => .a 0
  | .s390x => .r 2
  | .sparc64 => .o 0

/-- The registers of the argument words, in order. The BSDs on i386 pass no word in a register and
those on ARM pass four. -/
def argRegs (t : Target) : List Reg :=
  match t.arch with
  | .amd64 => [.rdi, .rsi, .rdx, .r10, .r8, .r9]
  | .i386 => if t.os = .linux then [.ebx, .ecx, .edx, .esi, .edi, .ebp] else []
  | .aarch64 => [.x 0, .x 1, .x 2, .x 3, .x 4, .x 5, .x 6, .x 7]
  | .arm =>
      -- Linux passes every word in a register, the BSDs follow the procedure-call standard
      if t.os = .linux then [.r 0, .r 1, .r 2, .r 3, .r 4, .r 5, .r 6]
      else [.r 0, .r 1, .r 2, .r 3]
  | .ppc64 => [.r 3, .r 4, .r 5, .r 6, .r 7, .r 8, .r 9, .r 10]
  | .mips64 => [.mips 4, .mips 5, .mips 6, .mips 7, .mips 8, .mips 9, .mips 10, .mips 11]
  | .riscv64 | .loongarch64 => [.a 0, .a 1, .a 2, .a 3, .a 4, .a 5, .a 6]
  | .s390x => [.r 2, .r 3, .r 4, .r 5, .r 6, .r 7]
  | .sparc64 => [.o 0, .o 1, .o 2, .o 3, .o 4, .o 5]

/-- Where the argument words that are not in registers start, above the stack pointer: the x86
kernels skip the slot of a return address. -/
def stackArgs (t : Target) : Nat := if t.arch.isX86 then t.width / 8 else 0

/-- The `k`-th argument word (from 0) the kernel reads. -/
def argWord (t : Target) (m : t.Mach) (k : Nat) : BitVec t.width :=
  match t.argRegs[k]? with
  | some r => m.regs r
  | none =>
      -- the words past the registers lie one after the other on the user stack
      loadLE m.mem (m.regs t.stackReg +
        BitVec.ofNat t.width (t.stackArgs + t.width / 8 * (k - t.argRegs.length)))

theorem argWord_of_reg {t : Target} (m : t.Mach) {k : Nat} {r : Reg}
    (h : t.argRegs[k]? = some r) : t.argWord m k = m.regs r := by
  rw [argWord, h]

theorem argWord_of_stack {t : Target} (m : t.Mach) {k : Nat} (h : t.argRegs[k]? = none) :
    t.argWord m k = loadLE m.mem (m.regs t.stackReg +
      BitVec.ofNat t.width (t.stackArgs + t.width / 8 * (k - t.argRegs.length))) := by
  rw [argWord, h]

/-- The statement passes argument `k` in the register that the kernel reads word `k` from. -/
def Passes (t : Target) (A : Asm Reg Param) (k : Nat) : Prop :=
  ∃ r ∈ t.argRegs[k]?, A.Keeps r (.arg k)

instance (t : Target) (A : Asm Reg Param) (k : Nat) : Decidable (t.Passes A k) :=
  inferInstanceAs (Decidable (∃ r ∈ t.argRegs[k]?, A.Keeps r (.arg k)))

/-- The kernel then reads the argument, whatever the state before the statement. -/
theorem argWord_of_passes {t : Target} {A : Asm Reg Param} {k : Nat} (h : t.Passes A k)
    {place : t.Place} {val : Param → BitVec t.width} {m : t.Mach}
    (hready : A.Ready t.stackReg place val m) :
    t.argWord (A.atTrap place m) k = val (.arg k) := by
  obtain ⟨r, hr, hkeep⟩ := h
  rw [argWord_of_reg _ hr]
  exact Asm.atTrap_regs_of_keeps hkeep hready

end Target

/-! ## Outcomes and how they are reported -/

structure Errno where
  val : Nat
  pos : 1 ≤ val
  le : val ≤ 4095

/-- What a system call comes to: a value, or an errno. -/
inductive Outcome (w : Nat) where
  | ok (v : BitVec w)
  | fail (e : Errno)

namespace Outcome

variable {w : Nat}

def failed : Outcome w → Bool
  | .ok _ => false
  | .fail _ => true

/-- The value, or the positive errno. -/
def word : Outcome w → BitVec w
  | .ok v => v
  | .fail e => BitVec.ofNat w e.val

/-- The value, or the negated errno. -/
def negated : Outcome w → BitVec w
  | .ok v => v
  | .fail e => BitVec.ofInt w (-e.val)

end Outcome

/-- How a kernel tells a failure from a success: by the sign of the errno in the result register, by
the condition flag, or by a second register that is then not 0. -/
inductive ErrorReport where
  | negative
  | flag
  | reg (r : Reg)
  deriving DecidableEq

/-- The flag is the carry flag, on ppc64 the summary-overflow bit of CR0. -/
def Target.errorReport : Target → ErrorReport
  | .linux .mips64 => .reg (.mips 7)
  | .linux .ppc64 => .flag
  | .linux _ => .negative
  | .bsd _ .riscv64 => .reg .t0
  | .bsd _ _ | .macos _ | .solaris _ => .flag

/-- The state `m` reports the outcome `o`. Only the result and the indicator are constrained. -/
def Reports (t : Target) (o : Outcome t.width) (m : t.Mach) : Prop :=
  match t.errorReport with
  | .negative => m.regs t.resultReg = o.negated
  | .flag => m.regs t.resultReg = o.word ∧ m.flag = o.failed
  | .reg r => m.regs t.resultReg = o.word ∧ (m.regs r ≠ 0 ↔ o.failed = true)

/-- A kernel that answers with the outcome `o`: an arbitrary effect on the machine, as long as the
state it returns reports `o`. -/
structure Kernel (t : Target) (o : Outcome t.width) where
  run : t.Mach → t.Mach
  reports : ∀ m, Reports t o (run m)

theorem errorReport_ne_resultReg (t : Target) : t.errorReport ≠ .reg t.resultReg := by
  revert t
  decide

/-- The kernel that does nothing but report. -/
def Kernel.answering (t : Target) (o : Outcome t.width) : Kernel t o where
  run m :=
    match t.errorReport with
    | .negative => m.set t.resultReg o.negated
    | .flag => { m.set t.resultReg o.word with flag := o.failed }
    | .reg r => (m.set r (if o.failed then 1 else 0)).set t.resultReg o.word
  reports m := by
    unfold Reports
    cases hr : t.errorReport with
    | negative => exact Machine.set_regs_self ..
    | flag => exact ⟨Machine.set_regs_self .., rfl⟩
    | reg r =>
        have hne : r ≠ t.resultReg := fun h => errorReport_ne_resultReg t (h ▸ hr)
        have hw : t.width ≠ 0 := by rcases t.width_eq with h | h <;> omega
        refine ⟨Machine.set_regs_self .., ?_⟩
        rw [Machine.set_regs_of_ne _ _ hne, Machine.set_regs_self]
        cases o.failed <;> simp [hw]

/-! ## What the handler behind an `mmap` number takes -/

/-- The request an `mmap` handler works on. Its file position is 64 bits wide on every target. -/
structure MmapRequest (w : Nat) where
  addr : BitVec w
  length : BitVec w
  prot : BitVec 32
  flags : BitVec 32
  fd : BitVec 32
  pos : BitVec 64
  deriving DecidableEq

/-- The request the caller of `mmap` means. -/
def MmapArgs.request {w : Nat} (a : MmapArgs w) : MmapRequest w where
  addr := a.addr
  length := a.length
  prot := a.prot
  flags := a.flags
  fd := a.fd
  pos := a.offset.signExtend 64

/-- The parameter lists of the handlers: `(addr, len, prot, flags, fd, pos)`, the same with a pad
before `pos`, the same with `pos` counted in 4096-byte units, or one pointer to a block of the six
words. -/
inductive MmapConv where
  | plain
  | padded
  | pages
  | block
  deriving DecidableEq

/-- The handler behind a number. -/
def mmapConv : Target → Nat → Option MmapConv
  | .bsd .freebsd _, 477 => some .plain
  | .bsd .openbsd _, 49 => some .plain
  | .bsd .netbsd _, 197 => some .padded
  | .bsd .dragonfly _, 197 => some .padded
  | .macos _, 0x20000c5 => some .plain
  | .linux .amd64, 9 => some .plain
  | .linux .aarch64, 222 => some .plain
  | .linux .mips64, 5009 => some .plain
  | .linux .ppc64, 90 => some .plain
  | .linux .riscv64, 222 => some .plain
  | .linux .loongarch64, 222 => some .plain
  | .linux .s390x, 90 => some .block
  | .linux .i386, 192 => some .pages
  | .linux .arm, 192 => some .pages
  | _, _ => none

/-- The argument words a 64-bit parameter takes when the next free word is `first`: one on a 64-bit
target, else two, which start at an even word on ARM. -/
def Target.posWords (t : Target) (first : Nat) : List Nat :=
  if t.width = 64 then [first]
  else if t.arch = .arm then [first + first % 2, first + first % 2 + 1]
  else [first, first + 1]

/-- The words a handler takes its parameters from, the pad included: argument words, or the words of
the block. -/
def MmapConv.words (t : Target) : MmapConv → List Nat
  | .plain | .block => [0, 1, 2, 3, 4] ++ t.posWords 5
  | .padded => [0, 1, 2, 3, 4, 5] ++ t.posWords 6
  | .pages => [0, 1, 2, 3, 4, 5]

/-- A 64-bit parameter from its words, low word first. -/
def joinWords {w : Nat} (ws : List (BitVec w)) : BitVec 64 :=
  ws.foldr (fun v acc => (acc <<< w) ||| v.setWidth 64) 0

/-- The file position a handler makes of its words. -/
def MmapConv.pos (t : Target) (word : Nat → BitVec t.width) : MmapConv → BitVec 64
  | .plain | .block => joinWords ((t.posWords 5).map word)
  | .padded => joinWords ((t.posWords 6).map word)
  | .pages => (word 5).setWidth 64 * 4096

/-- The request a handler makes of its words; `prot`, `flags` and `fd` are narrowed to `int`. -/
def MmapConv.decode (t : Target) (word : Nat → BitVec t.width) (c : MmapConv) :
    MmapRequest t.width where
  addr := word 0
  length := word 1
  prot := (word 2).setWidth 32
  flags := (word 3).setWidth 32
  fd := (word 4).setWidth 32
  pos := c.pos t word

/-- The `k`-th word of the argument block at `p` (s390x is big-endian). -/
def blockWord {w : Nat} (m : Mem w) (p : BitVec w) (k : Nat) : BitVec w :=
  loadBE m (p + BitVec.ofNat w (w / 8 * k))

/-- The `k`-th word of a handler in a trap state: an argument word, or a word of the block that the
first argument points to. -/
def MmapConv.word (t : Target) (m : t.Mach) : MmapConv → Nat → BitVec t.width
  | .block => blockWord m.mem (t.argWord m 0)
  | _ => t.argWord m

theorem MmapConv.word_eq_argWord {t : Target} {m : t.Mach} {c : MmapConv} (hc : c ≠ .block) :
    c.word t m = t.argWord m := by
  cases c with
  | block => exact absurd rfl hc
  | plain | padded | pages => rfl

/-- The request that a handler works on in a trap taken for `mmap`. It is granted here that the kernel
looks for the number where the statements put it. -/
def kernelMmap (t : Target) (m : t.Mach) : Option (MmapRequest t.width) :=
  (mmapConv t (m.regs t.numberReg).toNat).map fun c => c.decode t (c.word t m)

/-- A request depends on the handler's own words only. -/
theorem MmapConv.decode_congr {t : Target} {c : MmapConv} {word word' : Nat → BitVec t.width}
    (h : ∀ k ∈ c.words t, word k = word' k) : c.decode t word = c.decode t word' := by
  have hfive : ∀ k ∈ [0, 1, 2, 3, 4], word k = word' k := by
    intro k hk
    apply h
    cases c <;> simp only [words, List.mem_append] <;> simp at hk ⊢ <;> omega
  have hpos : c.pos t word = c.pos t word' := by
    cases c with
    | plain | block =>
        simp only [pos]
        rw [List.map_congr_left fun k hk => h k (List.mem_append_right _ hk)]
    | padded =>
        simp only [pos]
        rw [List.map_congr_left fun k hk => h k (List.mem_append_right _ hk)]
    | pages =>
        simp only [pos]
        rw [h 5 (by simp [words])]
  unfold decode
  rw [hpos, hfive 0 (by decide), hfive 1 (by decide), hfive 2 (by decide), hfive 3 (by decide),
    hfive 4 (by decide)]

end IbSys
