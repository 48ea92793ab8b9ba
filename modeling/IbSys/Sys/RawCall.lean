/-
# IbSys.Sys.RawCall -- the raw primitives on every target

`syscall3`, `syscall6` and `syscall7` of one target differ from those of another in everything but what
they are for: the kernel receives the number and the arguments, and the surrounding code finds its stack
pointer and its memory as they were. `RawDelivered` is the first of these, for every call site, and
`rawDelivered_iff` says for which primitives it holds. Three things stand in the way: a kernel that looks
for the number elsewhere, the BSD/i386 templates, which can lose an argument that the compiler has left in
memory, and ARM under a BSD, whose kernels read the arguments past the fourth from the stack while the
statements pass them in registers. With the last two out of the way, `receives_iff_of_ready` is the exact
condition on one call. `Session` is a run of raw calls with arbitrary code in between, and `session_sound`
what all of this comes to along a run.
-/
import IbSys.Lib.Frame
import IbSys.Sys.KernelAbi
import IbSys.Sys.PushedCall
import IbSys.Sys.StackSlot

namespace IbSys

open ByteMemory RegMachine InlineAsm

namespace Target

/-! ## Call sites -/

/-- The arity of `syscall3`. -/
abbrev three (t : Target) : t.Arities := ⟨.three, by simp⟩

/-- A compiled raw call. -/
abbrev Site (t : Target) (y : t.Arities) (s : SysArgs t.width) :=
  InlineAsm.Site (t.asm y) t.stackReg s.val

/-- The primitive of one arity: `syscall3`, `syscall6` or `syscall7`. -/
def rawCall (t : Target) (y : t.Arities) (K : t.Mach → t.Mach) (place : t.Place)
    (s : SysArgs t.width) (m : t.Mach) : Run Reg t.width :=
  (t.asm y).call K place s.val m

theorem asm_spare : ∀ (t : Target) (y : t.Arities), (t.asm y).Spare t.stackReg .rbx := by
  decide

/-- Bytes below the stack pointer that a raw call writes. -/
def scratch (t : Target) (y : t.Arities) : Nat := (t.asm y).depth t.width

theorem asm_tidy : ∀ (t : Target) (y : t.Arities),
    (t.asm y).Tidy t.width t.stackReg (t.scratch y) := by
  decide

/-- The largest block is the one of the i386 `syscall7`. -/
theorem scratch_le : ∀ (t : Target) (y : t.Arities), t.scratch y ≤ 32 := by
  decide

/-! ## What stands in the way -/

/-- The statements push their arguments, and let the compiler leave them in memory. -/
def Pushes (t : Target) : Prop := t.arch = .i386 ∧ t.os ≠ .linux

instance (t : Target) : Decidable t.Pushes := inferInstanceAs (Decidable (_ ∧ _))

/-- The kernel reads late arguments from the stack, and the statement passes them in registers. -/
def LateOnStack (t : Target) (y : t.Arities) : Prop :=
  t.arch = .arm ∧ t.os ≠ .linux ∧ y.1 ≠ .three

instance (t : Target) (y : t.Arities) : Decidable (t.LateOnStack y) :=
  inferInstanceAs (Decidable (_ ∧ _ ∧ _))

/-- Where the arguments are pushed, each of those in memory still reads as its value once the later ones
are on the stack. -/
def OperandsSurvive (t : Target) (y : t.Arities) (place : t.Place) (s : SysArgs t.width)
    (e : t.Mach) : Prop :=
  t.Pushes → ∀ i p b d, y.1.params[i]? = some p → place (2 + i) = .mem b d →
    (e.pushAll t.stackReg ((y.1.params.drop (i + 1)).map s.val).reverse).read (.mem b d) = s.val p

theorem pushes_cases : ∀ t : Target, t.Pushes →
    ∃ os ∈ [BsdOs.freebsd, .openbsd, .netbsd, .dragonfly], t = .bsd os .i386 := by
  decide

theorem Pushes.dispatches : ∀ {t : Target}, t.Pushes → t.Dispatches := by
  decide

theorem Pushes.not_lateOnStack {t : Target} (h : t.Pushes) (y : t.Arities) : ¬ t.LateOnStack y :=
  fun hy => absurd (h.1.symm.trans hy.1) (by decide)

theorem asm_bsd_i386 (os : BsdOs) (y : (Target.bsd os .i386).Arities) :
    (Target.bsd os .i386).asm y = SyscallBsdI386.asm y.1 := by
  obtain ⟨y, _⟩ := y
  cases y <;> rfl

/-- A call with no operand in memory loses none. -/
theorem operandsSurvive_of_direct {t : Target} {y : t.Arities} {place : t.Place} {s : SysArgs t.width}
    {e : t.Mach} (hdirect : ∀ k p b d, (t.asm y).inputs[k]? = some (.general, p) →
      place (k + 1) ≠ .mem b d) : t.OperandsSurvive y place s e := by
  intro hpush
  obtain ⟨os, -, rfl⟩ := pushes_cases t hpush
  rw [asm_bsd_i386] at hdirect
  exact memOperandsSurvive_of_direct (y := y.1) hdirect

/-! ## Delivery -/

/-- In the trap state `m`, the kernel finds the number and every argument of the call. -/
def Receives (t : Target) (y : t.Arities) (s : SysArgs t.width) (m : t.Mach) : Prop :=
  t.trapNumber m = s.n ∧ ∀ k < y.1.params.length, t.argWord m k = s.val (.arg k)

/-- From every call site, whatever the kernel does, there is one trap and it receives the call. -/
def RawDelivered (t : Target) (y : t.Arities) : Prop :=
  ∀ (s : SysArgs t.width) (c : t.Site y s) (K : t.Mach → t.Mach),
    ∃ e, (t.rawCall y K c.place s c.prior).traps = [e] ∧ t.Receives y s e

theorem asm_keeps_numberReg : ∀ (t : Target) (y : t.Arities),
    (t.asm y).Keeps t.numberReg .n := by
  decide

/-- An argument is passed in the register that the kernel reads it from, except on the stack-based
convention, for the seventh argument on amd64, and for the later arguments on ARM under a BSD. -/
theorem asm_passes_or : ∀ (t : Target) (y : t.Arities), ∀ k < y.1.params.length,
    t.Passes (t.asm y) k ∨ t.Pushes ∨ (t.arch = .amd64 ∧ y.1 = .seven ∧ k = 6) ∨
      t.LateOnStack y := by
  decide

theorem params_getElem? : ∀ (y : Arity), ∀ k < y.params.length,
    y.params[k]? = some (Param.arg k) := by
  intro y
  cases y <;> decide

/-- Under a BSD on i386, the words of a call are those above the slot of a return address. -/
theorem argWord_bsd_i386 (os : BsdOs) (m : Machine Reg 32) (k : Nat) :
    (Target.bsd os .i386).argWord m k =
      loadLE m.mem (m.regs .esp + BitVec.ofNat 32 (4 * (k + 1))) := by
  have hnone : (Target.bsd os .i386).argRegs[k]? = none := by
    cases os <;> rfl
  have hoff : (Target.bsd os .i386).stackArgs + (Target.bsd os .i386).width / 8 *
      (k - (Target.bsd os .i386).argRegs.length) = 4 * (k + 1) := by
    have hskip : (Target.bsd os .i386).argRegs.length = 0 := by
      cases os <;> rfl
    have hret : (Target.bsd os .i386).stackArgs = 4 := by
      cases os <;> rfl
    have hwidth : (Target.bsd os .i386).width = 32 := rfl
    rw [hskip, hret, hwidth]
    omega
  rw [argWord_of_stack (t := .bsd os .i386) m hnone, hoff]
  rfl

/-- They are those of the pushed block, so they are the arguments exactly when the operands in memory
survive. -/
theorem argWords_bsd_i386_iff (os : BsdOs) {y : Arity} {s : SysArgs 32} {place : Nat → Loc Reg 32}
    {e : Machine Reg 32} (hready : (SyscallBsdI386.asm y).Ready .esp place s.val e) :
    (∀ k < y.params.length, (Target.bsd os .i386).argWord ((SyscallBsdI386.asm y).atTrap place e) k =
      s.val (.arg k)) ↔ MemOperandsSurvive y place s e := by
  rw [← block_eq_iff hready]
  constructor
  · intro h i p hp
    have hi := (List.getElem?_eq_some_iff.mp hp).1
    obtain rfl := Option.some.inj ((params_getElem? y i hi).symm.trans hp)
    rw [← argWord_bsd_i386 os]
    exact h i hi
  · intro h k hk
    have hword := h k _ (params_getElem? y k hk)
    rwa [← argWord_bsd_i386 os] at hword

/-- **What the kernel receives.** Where the kernel looks for the number in its register and for no late
argument on the stack, a call whose operands are in place is received exactly when those that are pushed
from memory survive. -/
theorem receives_iff_of_ready {t : Target} {y : t.Arities} (ht : t.Dispatches)
    (hy : ¬ t.LateOnStack y) {s : SysArgs t.width} {place : t.Place} {e : t.Mach}
    (hready : (t.asm y).Ready t.stackReg place s.val e) :
    t.Receives y s ((t.asm y).atTrap place e) ↔ t.OperandsSurvive y place s e := by
  have hn : t.trapNumber ((t.asm y).atTrap place e) = s.n :=
    (ht.trapNumber_eq _).trans (Asm.atTrap_regs_of_keeps (asm_keeps_numberReg t y) hready)
  by_cases hpush : t.Pushes
  · -- the stack-based convention
    obtain ⟨os, -, rfl⟩ := pushes_cases t hpush
    rw [asm_bsd_i386] at hready
    have hwords := argWords_bsd_i386_iff os (y := y.1) hready
    rw [asm_bsd_i386] at hn ⊢
    constructor
    · rintro ⟨-, hargs⟩ -
      exact hwords.mp hargs
    · intro h
      exact ⟨hn, hwords.mpr (h hpush)⟩
  · refine iff_of_true ⟨hn, ?_⟩ fun h => absurd h hpush
    intro k hk
    rcases asm_passes_or t y k hk with hpass | h | ⟨harch, hseven, rfl⟩ | hlate
    · exact argWord_of_passes hpass hready
    · exact absurd h hpush
    · -- the amd64 template that stores its seventh argument
      obtain ⟨y, h7⟩ := y
      obtain rfl : y = .seven := hseven
      have htarget : ∀ t : Target, t.arch = .amd64 → t.HasSyscall7 →
          t = .bsd .netbsd .amd64 ∨ t = .bsd .openbsd .amd64 ∨ t = .macos .amd64 := by
        decide
      rcases htarget t harch (h7 rfl) with rfl | rfl | rfl
      · exact syscall7_atTrap_slot (s := s) hready
      · exact syscall7_atTrap_slot (s := s) hready
      · exact syscall7_atTrap_slot (s := s) hready
    · exact absurd hlate hy

theorem receives_trap {t : Target} {y : t.Arities} (ht : t.Dispatches) (hy : ¬ t.LateOnStack y)
    {s : SysArgs t.width} (c : t.Site y s) (hsurvive : t.OperandsSurvive y c.place s c.entry) :
    t.Receives y s c.trap :=
  (receives_iff_of_ready ht hy c.ready).mpr hsurvive

/-- A kernel that looks for the number elsewhere finds what was there before the call. -/
theorem trapNumber_of_not_dispatches {t : Target} (ht : ¬ t.Dispatches) {y : t.Arities}
    {s : SysArgs t.width} (c : t.Site y s) : t.trapNumber c.trap = t.trapNumber c.prior := by
  have htable : ∀ (t : Target) (y : t.Arities), ¬ t.Dispatches → (t.asm y).AllPinned = true ∧
      ∀ r ∈ [Reg.r 12, .t0, .t6], t.numberSource = .reg r →
        r ∉ ((t.asm y).inputs.filterMap fun o => o.1.pinned) ∧
          some r ∉ (t.asm y).before.map Instr.dest := by
    decide
  have hsource : ∀ t : Target, ¬ t.Dispatches →
      t.numberSource = .trap ∨ ∃ r ∈ [Reg.r 12, .t0, .t6], t.numberSource = .reg r := by
    decide
  obtain ⟨hpin, hfree⟩ := htable t y ht
  rcases hsource t ht with h | ⟨r, hr, h⟩
  · rw [trapNumber, trapNumber, h]
  · obtain ⟨hinput, hdest⟩ := hfree r hr h
    rw [trapNumber, trapNumber, h]
    show (runInstrs _ _ c.entry).regs r = c.prior.regs r
    rw [runInstrs_regs_of_not_mem _ _ _ hdest]
    exact Asm.load_regs_of_pinned _ hpin _ _ _ hinput

/-- The statement leaves the fifth argument word as it was: on ARM under a BSD it is on the stack, which
no operand and no instruction touches. -/
theorem argWord_four_of_lateOnStack {t : Target} {y : t.Arities} (hy : t.LateOnStack y)
    {s : SysArgs t.width} (c : t.Site y s) :
    t.argWord c.trap 4 = loadLE c.prior.mem (c.prior.regs t.stackReg) := by
  have hshape : ∀ (t : Target) (y : t.Arities), t.LateOnStack y →
      t.argRegs[4]? = none ∧ t.stackArgs + t.width / 8 * (4 - t.argRegs.length) = 0 ∧
        (t.asm y).AllPinned = true ∧ (t.asm y).before = [] := by
    decide
  obtain ⟨hnone, hoff, hpin, hbefore⟩ := hshape t y hy
  have htrap : c.trap = c.entry := by
    rw [Site.trap, Asm.atTrap, hbefore, runInstrs_nil]
  rw [argWord_of_stack _ hnone, hoff, htrap, Site.entry_mem (c.direct_of_pinned hpin),
    c.entry_sp (asm_tidy t y)]
  simp

theorem eight_dvd_width : ∀ t : Target, 8 ∣ t.width := by
  decide

theorem zero_ne_one_width (t : Target) : (0 : BitVec t.width) ≠ 1 := by
  rcases t.width_eq with hw | hw <;> rw [hw] <;> decide

/-- A call of the number 1, from a state that is all zero, is lost where the kernel looks elsewhere. -/
theorem RawDelivered.dispatches {t : Target} {y : t.Arities} (h : t.RawDelivered y) : t.Dispatches := by
  by_contra ht
  let s : SysArgs t.width := { n := 1 }
  let c : t.Site y s := Site.ofPrior (asm_spare t y) s.val default
  obtain ⟨e, he, hn, -⟩ := h s c id
  obtain rfl : c.trap = e := List.singleton_injective he
  rw [trapNumber_of_not_dispatches ht c] at hn
  have hzero : t.trapNumber (default : t.Mach) = 0 := by
    rw [trapNumber]
    split <;> rfl
  exact zero_ne_one_width t (hzero.symm.trans hn)

/-- A call with its second argument at `4(%esp)` is lost where the arguments are pushed. -/
theorem RawDelivered.not_pushes {t : Target} {y : t.Arities} (h : t.RawDelivered y) : ¬ t.Pushes := by
  intro hpush
  obtain ⟨os, -, rfl⟩ := pushes_cases t hpush
  have hready := espEntry_ready y.1
  rw [← asm_bsd_i386 os] at hready
  have hbytes := eight_dvd_width (.bsd os .i386)
  let c : (Target.bsd os .i386).Site y espArgs := Site.ofReady hbytes hready
  obtain ⟨e, he, hrec⟩ := h espArgs c id
  obtain rfl : c.trap = e := List.singleton_injective he
  have htrap : c.trap = ((Target.bsd os .i386).asm y).atTrap espPlace espEntry := by
    rw [← show c.entry = espEntry from Site.ofReady_entry hbytes hready]
    rfl
  rw [htrap] at hrec
  have hsurvive :=
    (receives_iff_of_ready hpush.dispatches (hpush.not_lateOnStack y) hready).mp hrec hpush
  exact espEntry_lost y.1 hsurvive

/-- A call whose fifth argument is 1, over a stack that is all zero, is lost where it is read from there. -/
theorem RawDelivered.not_lateOnStack {t : Target} {y : t.Arities} (h : t.RawDelivered y) :
    ¬ t.LateOnStack y := by
  intro hy
  have hlen : ∀ (t : Target) (y : t.Arities), t.LateOnStack y → 4 < y.1.params.length := by
    decide
  let s : SysArgs t.width := { n := 0, a5 := 1 }
  let c : t.Site y s := Site.ofPrior (asm_spare t y) s.val default
  obtain ⟨e, he, -, hargs⟩ := h s c id
  obtain rfl : c.trap = e := List.singleton_injective he
  have hfour := hargs 4 (hlen t y hy)
  rw [argWord_four_of_lateOnStack hy c] at hfour
  exact zero_ne_one_width t ((loadLE_fill false _).symm.trans hfour)

/-- **Delivery of the raw primitives.** A primitive is delivered from every call site exactly when its
kernel looks for the number where the statement puts it, its arguments are not pushed, and it is not
`syscall6` or `syscall7` on ARM under a BSD. -/
theorem rawDelivered_iff (t : Target) (y : t.Arities) :
    t.RawDelivered y ↔ t.Dispatches ∧ ¬ t.Pushes ∧ ¬ t.LateOnStack y := by
  constructor
  · intro h
    exact ⟨h.dispatches, h.not_pushes, h.not_lateOnStack⟩
  · rintro ⟨ht, hpush, hy⟩ s c K
    exact ⟨c.trap, c.call_traps K, receives_trap ht hy c fun h => absurd h hpush⟩

/-! ## Runs of raw calls -/

/-- One raw call of a run, with the state that the kernel gives back. -/
structure RawCall (t : Target) where
  arity : t.Arities
  args : SysArgs t.width
  site : t.Site arity args
  ret : t.Mach
  ret_sp : ret.regs t.stackReg = site.trap.regs t.stackReg

namespace RawCall

variable {t : Target}

/-- The state behind the call. -/
def after (c : RawCall t) : t.Mach := c.site.leave c.ret

/-- A call from a given state, which the kernel answers by doing nothing. -/
def ofSite {y : t.Arities} {s : SysArgs t.width} (c : t.Site y s) : RawCall t where
  arity := y
  args := s
  site := c
  ret := c.trap
  ret_sp := rfl

/-- **Step.** A raw call leaves the stack pointer, and every byte that the kernel keeps and that is not
in the 32 bytes below it. -/
theorem after_frame (c : RawCall t) :
    c.after.regs t.stackReg = c.site.entry.regs t.stackReg ∧
      ∀ x, x ∉ window (c.site.entry.regs t.stackReg) 32 → c.ret.mem x = c.site.trap.mem x →
        c.after.mem x = c.site.entry.mem x := by
  have htidy := asm_tidy t c.arity
  refine ⟨c.site.leave_sp htidy c.ret_sp, ?_⟩
  intro x hx hret
  have hlt : 32 < 2 ^ t.width := by
    rcases t.width_eq with hw | hw <;> rw [hw] <;> decide
  have hx' : x ∉ window (c.site.entry.regs t.stackReg) (t.scratch c.arity) :=
    fun h => hx (window_subset (scratch_le t c.arity) hlt _ h)
  rw [RawCall.after, c.site.leave_mem htidy c.ret_sp hx', hret, c.site.trap_mem htidy hx']

end RawCall

/-- Runs of a program: raw calls with code in between, which also puts the operands in place. The code
and the kernel do as they like, except that both leave the stack pointer and the bytes of `kept` alone. -/
inductive Session (t : Target) (kept : Set (BitVec t.width)) :
    t.Mach → List (RawCall t) → t.Mach → Prop where
  | nil (m : t.Mach) : Session t kept m [] m
  | code {m m₁ m₂ : t.Mach} {cs : List (RawCall t)} (h : Session t kept m cs m₁)
      (hsp : m₂.regs t.stackReg = m₁.regs t.stackReg) (hmem : ∀ x ∈ kept, m₂.mem x = m₁.mem x) :
      Session t kept m cs m₂
  | call {m : t.Mach} {cs : List (RawCall t)} (c : RawCall t) (h : Session t kept m cs c.site.entry)
      (hmem : ∀ x ∈ kept, c.ret.mem x = c.site.trap.mem x) : Session t kept m (cs ++ [c]) c.after

/-- **Run.** In a run of raw calls of any arities, under a kernel that looks for the number where the
statements put it, every trap receives its own call exactly when the operands that are pushed from memory
survive, except for the late arguments on ARM under a BSD; the stack pointer ends where it began; and
every byte kept by the code in between and by the kernel is kept by the run, as long as it is not in the
32 bytes below the stack pointer. -/
theorem session_sound {t : Target} {kept : Set (BitVec t.width)} {m m' : t.Mach}
    {cs : List (RawCall t)} (hrun : Session t kept m cs m') :
    (∀ c ∈ cs, t.Dispatches → ¬ t.LateOnStack c.arity →
      (t.Receives c.arity c.args c.site.trap ↔
        t.OperandsSurvive c.arity c.site.place c.args c.site.entry)) ∧
    m'.regs t.stackReg = m.regs t.stackReg ∧
    ∀ x ∈ kept, x ∉ window (m.regs t.stackReg) 32 → m'.mem x = m.mem x := by
  induction hrun with
  | nil => exact ⟨fun c hc => absurd hc List.not_mem_nil, rfl, fun _ _ _ => rfl⟩
  | code h hsp hmem ih =>
      obtain ⟨hrec, hsp', hmem'⟩ := ih
      refine ⟨hrec, hsp.trans hsp', ?_⟩
      intro x hx hout
      rw [hmem x hx, hmem' x hx hout]
  | call c h hmem ih =>
      obtain ⟨hrec, hsp, hmem'⟩ := ih
      obtain ⟨hstep, hframe⟩ := c.after_frame
      refine ⟨?_, hstep.trans hsp, ?_⟩
      · intro c' hc' ht hy
        rcases List.mem_append.mp hc' with hin | hlast
        · exact hrec c' hin ht hy
        · obtain rfl := List.mem_singleton.mp hlast
          exact receives_iff_of_ready ht hy c'.site.ready
      · intro x hx hout
        rw [hframe x (by rwa [hsp]) (hmem x hx), hmem' x hx hout]

/-- The same write twice on OpenBSD/i386, from a function that keeps the address of the bytes in its
frame: each call pushes four words, the second one is received, and the frame is as it was. -/
theorem session_sound_openbsd_i386 :
    let t : Target := .bsd .openbsd .i386
    let c : t.Site t.three writeFive := Site.ofReady (eight_dvd_width t) frameEntry_ready
    t.Receives t.three writeFive c.trap ∧
      (RawCall.ofSite c).after.mem 0x800c = frameEntry.mem 0x800c := by
  intro t c
  let call := RawCall.ofSite c
  let kept : Set (BitVec 32) := { x | x ∉ window 0x8000 32 }
  have hentry : c.entry = frameEntry := Site.ofReady_entry (eight_dvd_width t) frameEntry_ready
  have hstep := call.after_frame
  rw [show call.site.entry = frameEntry from hentry] at hstep
  have hstart : Session t kept frameEntry [] call.site.entry := by
    rw [show call.site.entry = frameEntry from hentry]
    exact .nil _
  have hone : Session t kept frameEntry [call] call.after := .call call hstart fun _ _ => rfl
  -- the code in between loads the number again, which the result has overwritten
  have hcode : Session t kept frameEntry [call] call.site.entry := by
    rw [show call.site.entry = frameEntry from hentry]
    exact hone.code hstep.1.symm fun x hx => (hstep.2 x hx rfl).symm
  have htwo : Session t kept frameEntry [call, call] call.after := .call call hcode fun _ _ => rfl
  obtain ⟨hrec, -, hmem⟩ := session_sound htwo
  have hout : (0x800c : BitVec 32) ∉ window 0x8000 32 := by
    simp [window]
  refine ⟨(hrec call (by simp) (by decide) (by decide)).mpr ?_, hmem _ hout hout⟩
  intro _
  rw [show call.site.entry = frameEntry from hentry]
  exact frameEntry_survives

end Target

end IbSys
