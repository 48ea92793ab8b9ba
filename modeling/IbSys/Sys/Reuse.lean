/-
# IbSys.Sys.Reuse -- compiled code around the raw primitives

A compiler keeps values in registers across a system call wherever the statement does not list the
register. This module says when that is right, on any target and for the calls of any arities: exactly
when each of the statements lists what the kernel may change (`reuse_sound_iff`). Then every trap of every
run also receives its own call (`reuse_receives`). On the Linux targets whose kernel gives back all but
the result register, and on amd64 the two registers of `syscall`, the lists are right, and nothing has to
be asked of a run (`linux_reuse_sound`).
-/
import IbSys.Lib.Clobbers
import IbSys.Sys.RawCall

namespace IbSys

open RegMachine InlineAsm

instance SysArgs.inhabited {w : Nat} : Inhabited (SysArgs w) := ⟨{ n := 0 }⟩

namespace Target

/-- Compiled code that makes the calls of some arities, under a kernel that may change `e`. -/
def reuse (t : Target) (ys : t.Arities → Prop) (e : Effect Reg) :
    Interface Reg Param { y // ys y } (SysArgs t.width) t.width :=
  Interface.ofEffect (fun y => t.asm y.1) SysArgs.val t.stackReg t.arch.isX86 e

/-- No template moves a register but the stack pointer, and none touches a flag that is carried across
it. -/
theorem asm_quiet : ∀ (t : Target) (y : t.Arities),
    (t.asm y).Quiet t.width t.stackReg t.arch.isX86 := by
  decide

/-- **When registers may be reused across a call.** Every run of compiled code ends with true beliefs
exactly when the statement of every arity it uses lists what the kernel may change. -/
theorem reuse_sound_iff (t : Target) (ys : t.Arities → Prop) (e : Effect Reg) :
    (t.reuse ys e).SoundRuns ↔ ∀ y, ys y → (t.asm y).Covers t.arch.isX86 e := by
  have hw : 0 < t.width := by
    rcases t.width_eq with h | h <;> omega
  have hiff : (t.reuse ys e).SoundRuns ↔
      ∀ y : { y // ys y }, (t.asm y.1).Covers t.arch.isX86 e :=
    soundRuns_iff hw (fun y => asm_quiet t y.1) fun y => asm_spare t y.1
  refine hiff.trans ⟨?_, ?_⟩
  · intro h y hy
    exact h ⟨y, hy⟩
  · intro h y
    exact h y.1 y.2

/-! ## What the traps receive -/

variable {t : Target} {ys : t.Arities → Prop} {e : Effect Reg}

/-- The trap of a call receives it, where the kernel looks for the number in its register and for no late
argument on the stack. -/
def CallReceived (t : Target) {ys : t.Arities → Prop}
    (k : Call Reg { y // ys y } (SysArgs t.width) t.width) : Prop :=
  t.Dispatches → ¬ t.LateOnStack k.index.1 →
    t.Receives k.index.1 k.args ((t.asm k.index.1).atTrap k.place k.entry.mach)

/-- **Step.** A call whose operands are believed to be in place, and are, receives its own number and
arguments. -/
theorem callReceived_of_ready {k : Call Reg { y // ys y } (SysArgs t.width) t.width}
    (hk : k.Allowed (t.reuse ys e))
    (hready : (t.asm k.index.1).Ready t.stackReg k.place k.args.val k.entry.mach) :
    t.CallReceived k := by
  intro ht hy
  apply (receives_iff_of_ready ht hy hready).mpr
  apply operandsSurvive_of_direct
  intro j p b d hj hl
  -- a compiler that tracks no memory believes no operand to be there
  have hholds := hk.1.2 j .general p hj
  rw [show Constraint.loc .general (k.place (j + 1)) = .mem b d from hl] at hholds
  exact hholds

/-- **Run.** Where the statements cover the effect, every trap of a run receives its own call, and the
beliefs at the end are true. -/
theorem reuse_receives (hcov : ∀ y, ys y → (t.asm y).Covers t.arch.isX86 e)
    {c d : Config Reg t.width} {cs : List (Call Reg { y // ys y } (SysArgs t.width) t.width)}
    (hrun : Exec (t.reuse ys e) c cs d) (h0 : c.belief.Sound c.mach) :
    (∀ k ∈ cs, t.CallReceived k) ∧ d.belief.Sound d.mach := by
  have hquiet : ∀ y : { y // ys y }, (t.asm y.1).Quiet t.width t.stackReg t.arch.isX86 :=
    fun y => asm_quiet t y.1
  have hcovers : ∀ y : { y // ys y }, (t.asm y.1).Covers t.arch.isX86 e := fun y => hcov y.1 y.2
  obtain ⟨hready, hs⟩ := Exec.sound_of_covers hquiet hcovers hrun h0
  refine ⟨?_, hs⟩
  intro k hk
  exact callReceived_of_ready (hrun.allowed k hk) (hready k hk)

end Target

/-! ## Linux -/

/-- The Linux architectures on which a trap gives back every register but the result, and on amd64 the
two registers that `syscall` itself uses. -/
inductive TidyLinux where
  | amd64 | i386 | arm | aarch64 | riscv64 | s390x
  deriving DecidableEq

namespace TidyLinux

def target : TidyLinux → Target
  | .amd64 => .linux .amd64
  | .i386 => .linux .i386
  | .arm => .linux .arm
  | .aarch64 => .linux .aarch64
  | .riscv64 => .linux .riscv64
  | .s390x => .linux .s390x

/-- What a trap may change. -/
def effect : TidyLinux → Effect Reg
  | .amd64 => ⟨[.rax, .rcx, .r11], true⟩
  | .i386 => ⟨[.eax], true⟩
  | .arm => ⟨[.r 0], true⟩
  | .aarch64 => ⟨[.x 0], false⟩
  | .riscv64 => ⟨[.a 0], false⟩
  | .s390x => ⟨[.r 2], true⟩

theorem covers (a : TidyLinux) : ∀ y : a.target.Arities,
    (a.target.asm y).Covers a.target.arch.isX86 a.effect := by
  cases a <;> decide

end TidyLinux

/-- **Linux.** On these architectures every run of compiled code, with any calls in any order and
whatever registers are reused in between, hands each trap its own call and ends with true beliefs. -/
theorem linux_reuse_sound (a : TidyLinux) {c d : Config Reg a.target.width}
    {cs : List (Call Reg { _y : a.target.Arities // True } (SysArgs a.target.width) a.target.width)}
    (hrun : Exec (a.target.reuse (fun _ => True) a.effect) c cs d) (h0 : c.belief.Sound c.mach) :
    (∀ k ∈ cs, a.target.Receives k.index.1 k.args
      ((a.target.asm k.index.1).atTrap k.place k.entry.mach)) ∧ d.belief.Sound d.mach := by
  obtain ⟨hreceived, hs⟩ := Target.reuse_receives (fun y _ => a.covers y) hrun h0
  refine ⟨?_, hs⟩
  intro k hk
  apply hreceived k hk
  · cases a <;> rfl
  · have hlinux : a.target.os = .linux := by cases a <;> rfl
    exact fun hlate => hlate.2.1 hlinux

/-- Two writes in a row on riscv64: the second one loads the descriptor again, which the result of the
first has overwritten, and takes the number, the address and the length from where they are. -/
theorem linux_reuse_sound_riscv64 :
    let t : Target := TidyLinux.riscv64.target
    let s : SysArgs 64 := { n := 64, a1 := 1, a2 := 4096, a3 := 5 }
    let reload (m : t.Mach) := (m.set (.a 0) 5).set (.a 0) 1
    t.Receives ⟨.three, by decide⟩ s (reload (SyscallLinuxRiscv64.syscall3.load (fun _ => .imm 0) s.val
      default)) := by
  intro t s reload
  let y : { _y : t.Arities // True } := ⟨⟨.three, by decide⟩, trivial⟩
  let I := t.reuse (fun _ => True) TidyLinux.riscv64.effect
  let e := SyscallLinuxRiscv64.syscall3.load (fun _ => .imm 0) s.val default
  let k : Call Reg { _y : t.Arities // True } (SysArgs 64) 64 :=
    { index := y, args := s, place := fun _ => .imm 0, entry := ⟨.full e, e⟩, ret := e.set (.a 0) 5 }
  let d := k.leave I
  let k' : Call Reg { _y : t.Arities // True } (SysArgs 64) 64 :=
    { index := y, args := s, place := fun _ => .imm 0
      entry := ⟨d.belief.learn (.a 0) 1, d.mach.set (.a 0) 1⟩
      ret := d.mach.set (.a 0) 1 }
  have hpinned : SyscallLinuxRiscv64.syscall3.AllPinned = true := by decide
  have hmay : ∀ m : t.Mach, TidyLinux.riscv64.effect.May m (m.set (.a 0) 5) := by
    intro m
    refine ⟨?_, fun _ => rfl⟩
    intro r hr
    exact Machine.set_regs_of_ne m _ fun h => hr (by simp [h, TidyLinux.effect])
  have hk : k.Allowed I := by
    refine ⟨Belief.inPlace_of_pinned hpinned _ _ ?_, hmay _⟩
    intro r p hp
    have hready := SyscallLinuxRiscv64.syscall3.ready_load_of_pinned hpinned .sp
      (fun _ => .imm 0) s.val default
    exact congrArg some (hready.pin hp)
  have hk' : k'.Allowed I := by
    refine ⟨Belief.inPlace_of_pinned hpinned _ _ ?_, fun _ _ => rfl, fun _ => rfl⟩
    intro r p hp
    change (Constraint.pin r, p) ∈ SyscallLinuxRiscv64.syscall3.inputs at hp
    simp only [SyscallLinuxRiscv64.syscall3, List.mem_cons, List.not_mem_nil, or_false,
      Prod.mk.injEq, Constraint.pin.injEq] at hp
    rcases hp with ⟨rfl, rfl⟩ | ⟨rfl, rfl⟩ | ⟨rfl, rfl⟩ | ⟨rfl, rfl⟩ <;> rfl
  have hrun := Exec.call k' (Exec.load (.a 0) 1 (Exec.call k (Exec.nil ⟨.full e, e⟩) hk)) hk'
  exact (linux_reuse_sound .riscv64 hrun (Belief.full_sound e)).1 k'
    (List.mem_cons_of_mem _ List.mem_cons_self)

end IbSys
