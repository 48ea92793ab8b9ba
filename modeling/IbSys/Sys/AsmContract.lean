/-
# IbSys.Sys.AsmContract -- the operand lists as promises to the compiler

A register that a statement lists as an input only is promised to survive the trap, and so is one that
it does not list. On four targets the kernel may write such a register: `$7`, the error indicator, on
Linux/mips64 (`syscall3` lists it, `syscall6` pins an argument there); `r0` and `r4` up on Linux/ppc64;
the second result register, and on aarch64 the flags, on macOS. `exposed` computes these registers from
the statements, `harmless_iff` says that they are all there is to the matter, and
`reuse_sound` carries runs of any length as long as the kernel leaves them alone.
-/
import IbSys.Lib.Belief
import IbSys.Sys.KernelAbi
import IbSys.Sys.StackSlot

namespace IbSys

open ByteMemory RegMachine InlineAsm

/-! ## What the kernels write -/

inductive ReuseTarget where
  | mips64
  | ppc64
  | macosAmd64
  | macosAarch64
  deriving DecidableEq

namespace ReuseTarget

/-- What the tables of this module say about every target can be decided. -/
instance (p : ReuseTarget → Prop) [DecidablePred p] : Decidable (∀ u, p u) :=
  decidable_of_iff (p .mips64 ∧ p .ppc64 ∧ p .macosAmd64 ∧ p .macosAarch64)
    ⟨fun h u => by cases u <;> simp only [h], fun h => ⟨h _, h _, h _, h _⟩⟩

def target : ReuseTarget → Target
  | .mips64 => .linux .mips64
  | .ppc64 => .linux .ppc64
  | .macosAmd64 => .macos .amd64
  | .macosAarch64 => .macos .aarch64

/-- The registers that a trap may change. On macOS they include the second result register, on amd64
the two that the `syscall` instruction itself uses. -/
def kernelRegs : ReuseTarget → List Reg
  | .mips64 => [.mips 2, .mips 7]
  | .ppc64 => [.r 0, .r 3, .r 4, .r 5, .r 6, .r 7, .r 8, .r 9, .r 10, .r 11, .r 12, .ctr, .xer]
  | .macosAmd64 => [.rax, .rdx, .rcx, .r11]
  | .macosAarch64 => [.x 0, .x 1]

/-- Whether a trap may change the flag; MIPS has none. -/
def kernelFlag : ReuseTarget → Bool
  | .mips64 => false
  | .ppc64 | .macosAmd64 | .macosAarch64 => true

/-- What a kernel may make of a trap state. Memory is its own to change. -/
def kernelMay (u : ReuseTarget) (e m : u.target.Mach) : Prop :=
  (∀ r, r ∉ u.kernelRegs → m.regs r = e.regs r) ∧
    (u.kernelFlag = false → m.flag = e.flag) ∧
    (u = .mips64 → m.regs (.mips 7) = 0 ∨ m.regs (.mips 7) = 1)

/-- The statements of the target, as a compiler and a kernel see them. The compiler drops the flags at
every asm statement on x86, and elsewhere where a statement says so. -/
def interface (u : ReuseTarget) :
    Interface Reg Param u.target.Arities (SysArgs u.target.width) u.target.width where
  stmt := u.target.asm
  val := SysArgs.val
  sp := u.target.stackReg
  implicitFlag := u.target.arch.isX86
  kernel := u.kernelMay

/-- The inputs whose register a trap may change although the statement does not list it. -/
def exposed (u : ReuseTarget) (y : u.target.Arities) : List (Reg × Param) :=
  (u.target.asm y).inputs.filterMap fun o =>
    match o.1 with
    | .pin r => if r ∈ u.kernelRegs ∧ ¬ (u.target.asm y).Lists r then some (r, o.2) else none
    | _ => none

end ReuseTarget

open ReuseTarget

/-! ## The statements are lawful otherwise -/

/-- Whatever a trap may change is on the list of the statement, or is one of its inputs. -/
theorem kernelRegs_covered : ∀ (u : ReuseTarget) (y : u.target.Arities), ∀ r ∈ u.kernelRegs,
    (u.target.asm y).Lists r ∨ ∃ o ∈ (u.target.asm y).inputs, o.1 = .pin r := by
  decide

/-- A template is the trap alone, or the one that stores a seventh argument. -/
theorem asm_template : ∀ (u : ReuseTarget) (y : u.target.Arities),
    ((u.target.asm y).before = [] ∧ (u.target.asm y).after = []) ∨
      (u = .macosAmd64 ∧ y.1 = .seven) := by
  decide

/-- No template writes a register that an operand is pinned to. -/
theorem pins_untouched : ∀ (u : ReuseTarget) (y : u.target.Arities),
    ∀ o ∈ (u.target.asm y).inputs, o.1.pinned = none ∨
      (o.1.pinned ∉ (u.target.asm y).before.map Instr.dest ∧
        o.1.pinned ∉ (u.target.asm y).after.map Instr.dest) := by
  decide

theorem pin_untouched {u : ReuseTarget} {y : u.target.Arities} {r : Reg} {p : Param}
    (h : (Constraint.pin r, p) ∈ (u.target.asm y).inputs) :
    some r ∉ (u.target.asm y).before.map Instr.dest ∧
      some r ∉ (u.target.asm y).after.map Instr.dest := by
  rcases pins_untouched u y _ h with hnone | hsome
  · exact nomatch hnone
  · exact hsome

/-- Over the template that lowers and raises the stack pointer, every register that the kernel keeps
is kept. -/
theorem syscall7_finish_regs {place : Nat → Loc Reg 64} {e m : Machine Reg 64} {r : Reg}
    (h : ∀ r', r' = r ∨ r' = .rsp →
      m.regs r' = (SyscallDarwinAmd64.syscall7.atTrap place e).regs r') :
    (SyscallDarwinAmd64.syscall7.finish place m).regs r = e.regs r := by
  by_cases hr : r = .rsp
  · subst hr
    show m.regs .rsp + 16 = _
    rw [h .rsp (Or.inl rfl)]
    exact BitVec.sub_add_cancel _ _
  · show (m.set .rsp _).regs r = _
    rw [Machine.set_regs_of_ne m _ hr, h r (Or.inl rfl)]
    show (e.set .rsp _).regs r = _
    exact Machine.set_regs_of_ne e _ hr

theorem interface_lawful (u : ReuseTarget) : u.interface.Lawful where
  kept y place e m r hk hl hp := by
    -- the kernel keeps what is neither listed nor an input
    have hkeep : m.regs r = ((u.target.asm y).atTrap place e).regs r := by
      apply hk.1
      intro hin
      rcases kernelRegs_covered u y r hin with h | ⟨⟨c, p⟩, ho, rfl⟩
      · exact hl h
      · exact hp p ho
    rcases asm_template u y with ⟨hbefore, hafter⟩ | ⟨rfl, hseven⟩
    · show (runInstrs _ (u.target.asm y).after m).regs r = e.regs r
      rw [hafter, runInstrs_nil, hkeep]
      show (runInstrs _ (u.target.asm y).before e).regs r = e.regs r
      rw [hbefore, runInstrs_nil]
    · obtain ⟨y, hy⟩ := y
      obtain rfl : y = .seven := hseven
      apply syscall7_finish_regs
      intro r' hr'
      rcases hr' with rfl | rfl
      · exact hkeep
      · exact hk.1 .rsp (by decide)
  finish_pin y place m r p hp := by
    show (runInstrs _ (u.target.asm y).after m).regs r = m.regs r
    exact runInstrs_regs_of_not_mem _ _ _ (pin_untouched hp).2
  finish_flag y place m hf := by
    rcases asm_template u y with ⟨-, hafter⟩ | ⟨rfl, -⟩
    · show (runInstrs _ (u.target.asm y).after m).flag = m.flag
      rw [hafter, runInstrs_nil]
    · -- the one template that moves the stack pointer is x86, where the flag is dropped anyway
      exact absurd hf (by simp [interface, target, Target.arch, Arch.isX86])

/-! ## What is left to the kernel -/

/-- One call of a run. -/
abbrev ReuseTarget.SysCall (u : ReuseTarget) :=
  Call Reg u.target.Arities (SysArgs u.target.width) u.target.width

theorem mem_exposed {u : ReuseTarget} {y : u.target.Arities} {r : Reg} {p : Param} :
    (r, p) ∈ u.exposed y ↔ (Constraint.pin r, p) ∈ (u.target.asm y).inputs ∧
      r ∈ u.kernelRegs ∧ ¬ (u.target.asm y).Lists r := by
  unfold exposed
  rw [List.mem_filterMap]
  refine ⟨?_, ?_⟩
  · rintro ⟨⟨c, p'⟩, ho, h⟩
    cases c with
    | anyReg => exact nomatch h
    | general => exact nomatch h
    | pin r' =>
        dsimp only at h
        split at h
        · rename_i hr
          obtain ⟨rfl, rfl⟩ := Prod.mk.inj (Option.some.inj h)
          exact ⟨ho, hr⟩
        · exact nomatch h
  · rintro ⟨ho, hr⟩
    exact ⟨(.pin r, p), ho, if_pos hr⟩

/-- Where a statement does not drop the flag, its template does nothing to it. -/
theorem flag_cases : ∀ (u : ReuseTarget) (y : u.target.Arities),
    ((u.target.asm y).clobbersFlag || u.target.arch.isX86) = false →
      (u = .mips64 ∨ u = .macosAarch64) ∧ (u.target.asm y).before = [] := by
  decide

/-- On macOS/aarch64 no statement drops the flag. -/
theorem macosAarch64_carries_flag : ∀ y : (target .macosAarch64).Arities,
    (((target .macosAarch64).asm y).clobbersFlag || (target .macosAarch64).arch.isX86) = false := by
  decide

/-- The kernel spares a call: it gives the exposed registers back with their operands, and on
macOS/aarch64 the flag as it was, if the compiler carries it across. -/
def ReuseTarget.Spares (u : ReuseTarget) (c : u.SysCall) : Prop :=
  (∀ r p, (r, p) ∈ u.exposed c.index → c.ret.regs r = c.args.val p) ∧
    (u = .macosAarch64 → ∀ f, c.entry.belief.flag = some f → c.ret.flag = f)

/-- **What the kernel has to leave alone.** From true beliefs, an allowed call is harmless exactly when
the kernel spares it. -/
theorem harmless_iff (u : ReuseTarget) (c : u.SysCall)
    (hs : c.entry.belief.Sound c.entry.mach) (hk : c.Allowed u.interface) :
    c.Harmless u.interface ↔ u.Spares c := by
  have hready := hk.1.ready hs
  refine ⟨?_, ?_⟩
  · rintro ⟨hpin, hflag⟩
    refine ⟨?_, ?_⟩
    · intro r p hrp
      obtain ⟨hp, -, hl⟩ := mem_exposed.mp hrp
      exact hpin r p hp hl
    · rintro rfl
      exact hflag (macosAarch64_carries_flag c.index)
  · rintro ⟨hexp, hflag⟩
    refine ⟨?_, ?_⟩
    · intro r p hp hl
      by_cases hr : r ∈ u.kernelRegs
      · exact hexp r p (mem_exposed.mpr ⟨hp, hr, hl⟩)
      · rw [hk.2.1 r hr]
        exact Asm.atTrap_regs_of_keeps ⟨hp, (pin_untouched hp).1⟩ hready
    · intro hl f hf
      obtain ⟨hu, hb⟩ := flag_cases u c.index hl
      rcases hu with rfl | rfl
      · have htrap : (c.trap (interface .mips64)).flag = c.entry.mach.flag := by
          show (runInstrs _ ((target .mips64).asm c.index).before _).flag = _
          rw [hb, runInstrs_nil]
        rw [hk.2.2.1 rfl, htrap]
        exact hs.2 f hf
      · exact hflag rfl f hf

/-- On mips64 every `syscall3` is spared: its list covers all that the kernel writes. -/
theorem mips64_spares_syscall3 (c : ReuseTarget.SysCall .mips64) (hc : c.index.1 = .three) :
    Spares .mips64 c := by
  obtain ⟨⟨y, hy⟩, _⟩ := c
  obtain rfl : y = .three := hc
  refine ⟨?_, fun h => nomatch h⟩
  intro r p hrp
  exact nomatch hrp

example : exposed .mips64 ⟨.six, by decide⟩ = [(.mips 7, .a4)] := by decide

example : exposed .macosAmd64 ⟨.seven, by decide⟩ = [(.rdx, .a3)] := by decide

/-! ## Runs -/

/-- The trap of a call receives the number and the arguments that the call passed. -/
def Delivered (u : ReuseTarget) (c : u.SysCall) : Prop :=
  (c.trap u.interface).regs u.target.numberReg = c.args.n ∧
    ∀ k < c.index.1.params.length,
      u.target.argWord (c.trap u.interface) k = c.args.val (.arg k)

theorem asm_keeps_number : ∀ (u : ReuseTarget) (y : u.target.Arities),
    (u.target.asm y).Keeps u.target.numberReg .n := by
  decide

theorem asm_passes : ∀ (u : ReuseTarget) (y : u.target.Arities), ∀ k < y.1.params.length,
    u.target.Passes (u.target.asm y) k ∨ (u = .macosAmd64 ∧ y.1 = .seven ∧ k = 6) := by
  decide

theorem delivered_of_ready (u : ReuseTarget) (c : u.SysCall)
    (h : (u.target.asm c.index).Ready u.target.stackReg c.place c.args.val c.entry.mach) :
    Delivered u c := by
  refine ⟨Asm.atTrap_regs_of_keeps (asm_keeps_number u c.index) h, ?_⟩
  intro k hk
  rcases asm_passes u c.index k hk with hpass | ⟨rfl, hseven, rfl⟩
  · exact Target.argWord_of_passes hpass h
  · obtain ⟨⟨y, hy⟩, args, place, entry, ret⟩ := c
    obtain rfl : y = .seven := hseven
    exact syscall7_atTrap_slot (s := args) h

/-- **Reuse across calls.** In a run of compiled code in which the kernel spares every call, every trap
receives its own number and arguments, and everything the compiler believes at the end is true. Every
state that a run reaches is the end of a run. -/
theorem reuse_sound (u : ReuseTarget) {c d : Config Reg u.target.width} {cs : List u.SysCall}
    (hrun : Exec u.interface c cs d) (h0 : c.belief.Sound c.mach) (hok : ∀ k ∈ cs, u.Spares k) :
    (∀ k ∈ cs, Delivered u k) ∧ d.belief.Sound d.mach := by
  have hharm : ∀ k ∈ cs, k.entry.belief.Sound k.entry.mach → k.Allowed u.interface →
      k.Harmless u.interface := by
    intro k hin hs hk
    exact (harmless_iff u k hs hk).mpr (hok k hin)
  obtain ⟨hready, hs⟩ := hrun.sound (interface_lawful u) h0 hharm
  refine ⟨?_, hs⟩
  intro k hk
  exact delivered_of_ready u k (hready k hk)

/-! ## Two calls on Linux/mips64 -/

/-- A `syscall6` on mips64, from a state in which its operands have just been loaded; the kernel clears
its error indicator `$7`, which held the fourth argument. -/
def mips64First (s : SysArgs 64) : ReuseTarget.SysCall .mips64 :=
  let e := SyscallLinuxMips64.syscall6.load (fun _ => .imm 0) s.val default
  { index := ⟨.six, by decide⟩, args := s, place := fun _ => .imm 0
    entry := ⟨.full e, e⟩
    ret := e.set (.mips 7) 0 }

/-- The same call once more: the compiler loads the number again, which `$2` has lost to the result,
and nothing else. -/
def mips64Second (s : SysArgs 64) : ReuseTarget.SysCall .mips64 :=
  let d := (mips64First s).leave (interface .mips64)
  let e := d.mach.set (.mips 2) s.n
  { index := ⟨.six, by decide⟩, args := s, place := fun _ => .imm 0
    entry := ⟨d.belief.learn (.mips 2) s.n, e⟩
    ret := e.set (.mips 7) 0 }

theorem kernelMay_clears (e : (target .mips64).Mach) : kernelMay .mips64 e (e.set (.mips 7) 0) := by
  refine ⟨?_, fun _ => rfl, fun _ => Or.inl (Machine.set_regs_self ..)⟩
  intro r hr
  apply Machine.set_regs_of_ne
  rintro rfl
  exact hr (by decide)

theorem mips64First_allowed (s : SysArgs 64) : (mips64First s).Allowed (interface .mips64) := by
  have hpinned : SyscallLinuxMips64.syscall6.AllPinned = true := by decide
  have hready := SyscallLinuxMips64.syscall6.ready_load_of_pinned hpinned (.mips 29)
    (fun _ => .imm 0) s.val default
  refine ⟨?_, kernelMay_clears _⟩
  apply Belief.inPlace_of_pinned hpinned
  intro r p hp
  exact congrArg some (hready.pin hp)

theorem mips64Second_allowed (s : SysArgs 64) : (mips64Second s).Allowed (interface .mips64) := by
  have hpinned : SyscallLinuxMips64.syscall6.AllPinned = true := by decide
  refine ⟨?_, kernelMay_clears _⟩
  apply Belief.inPlace_of_pinned hpinned
  intro r p hp
  change (Constraint.pin r, p) ∈ SyscallLinuxMips64.syscall6.inputs at hp
  simp only [SyscallLinuxMips64.syscall6, List.mem_cons, List.not_mem_nil, or_false,
    Prod.mk.injEq, Constraint.pin.injEq] at hp
  rcases hp with ⟨rfl, rfl⟩ | ⟨rfl, rfl⟩ | ⟨rfl, rfl⟩ | ⟨rfl, rfl⟩ | ⟨rfl, rfl⟩ | ⟨rfl, rfl⟩ |
    ⟨rfl, rfl⟩ <;> rfl

/-- The run of the two. -/
theorem mips64_run (s : SysArgs 64) :
    Exec (interface .mips64) (mips64First s).entry [mips64First s, mips64Second s]
      ((mips64Second s).leave (interface .mips64)) :=
  Exec.call (mips64Second s) (Exec.load (.mips 2) s.n (Exec.call _ (Exec.nil _) (mips64First_allowed s)))
    (mips64Second_allowed s)

/-- With a fourth argument of 0 both calls are spared, and the second one receives its own, all but the
number from where the first one has left them. -/
theorem reuse_sound_mips64 :
    let s : SysArgs 64 := { n := 5009, a2 := 4096, a3 := 3, a5 := -1, a6 := 4096 }
    Delivered .mips64 (mips64Second s) := by
  intro s
  have hspares : ∀ c : ReuseTarget.SysCall .mips64, c.index = ⟨.six, by decide⟩ →
      c.ret.regs (.mips 7) = c.args.a4 → Spares .mips64 c := by
    rintro ⟨_, args, place, entry, ret⟩ rfl hret
    refine ⟨?_, fun h => nomatch h⟩
    intro r p hrp
    obtain ⟨rfl, rfl⟩ := Prod.mk.inj (List.mem_singleton.mp hrp)
    exact hret
  refine (reuse_sound .mips64 (mips64_run s) (Belief.full_sound _) ?_).1 _
    (List.mem_cons_of_mem _ List.mem_cons_self)
  intro k hk
  rcases List.mem_cons.mp hk with rfl | hk
  · exact hspares _ rfl rfl
  · obtain rfl := List.mem_singleton.mp hk
    exact hspares _ rfl rfl

/-- Two anonymous mappings in a row: the second one gets flags 0 instead of `0x802`. -/
theorem reuse_mips64_fails :
    ¬ ∀ (c d : Config Reg 64) (cs : List (ReuseTarget.SysCall .mips64)),
      Exec (interface .mips64) c cs d → c.belief.Sound c.mach →
        (∀ k ∈ cs, Delivered .mips64 k) ∧ d.belief.Sound d.mach := by
  intro h
  let s : SysArgs 64 := { n := 5009, a2 := 4096, a3 := 3, a4 := 0x802, a5 := -1 }
  have hdel := (h _ _ _ (mips64_run s) (Belief.full_sound _)).1 (mips64Second s) (by simp)
  have hflags : (0 : BitVec 64) = 0x802 := hdel.2 3 (by decide)
  exact absurd hflags (by decide)

end IbSys
