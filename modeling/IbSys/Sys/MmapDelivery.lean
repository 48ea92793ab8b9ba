/-
# IbSys.Sys.MmapDelivery -- what the kernel's `mmap` is asked for

The position of the offset among the argument words is chosen in one place, the branches of `mmap`,
and where the handler looks for it is fixed in another, the `SYS_MMAP` number of each system. A call
site is everything the source leaves open: what is in registers and memory before the call, and where
the compiler puts the operands. `MmapDelivered` says that at every call site the kernel gets the
caller's request, and that no word it reads is left over from before.

A word that the statement passes in a register is settled by a fact about the statement alone
(`argWord_of_passed`), decided for all targets at once. Once all the handler's words are known, only
the offset is left to compare (`mmapDelivered_iff_pos`); one leftover word settles the rest
(`not_mmapDelivered_of_stale`).
-/
import IbSys.Lib.Frame
import IbSys.Sys.MmapCall
import IbSys.Sys.StackSlot

namespace IbSys

open ByteMemory RegMachine InlineAsm

/-! ## Call sites -/

/-- A compiled call of `mmap`. An operand that may be anywhere (there are such operands on BSD/i386 only)
is in a register or an immediate. -/
structure CallSite (t : Target) (a : MmapArgs t.width)
    extends InlineAsm.Site (mmapAsm t) t.stackReg (mmapSysArgs t a).val where
  direct : toSite.Direct

namespace CallSite

variable {t : Target} {a : MmapArgs t.width}

theorem mmapAsm_spare : ∀ t : Target, (mmapAsm t).Spare t.stackReg .rbx := by
  decide

/-- There is a call site for every prior state. -/
def ofPrior (t : Target) (a : MmapArgs t.width) (m : t.Mach) : CallSite t a where
  toSite := Site.ofPrior (mmapAsm_spare t) _ m
  direct := Site.ofPrior_direct (mmapAsm_spare t) m

end CallSite

/-- `mmap` enters the kernel once, in the trap state of its call site. -/
theorem mmap_traps {t : Target} {a : MmapArgs t.width}
    (s : InlineAsm.Site (mmapAsm t) t.stackReg (mmapSysArgs t a).val) (h : ¬ Misaligned t a)
    (K : t.Mach → t.Mach) : (mmap t K s.place a s.prior).traps = [s.trap] := by
  rw [mmap_eq, if_neg h, decodeMmap_traps]
  rfl

/-- The call is delivered: from every call site `mmap` enters the kernel once, with a trap that the
handler takes for the caller's request, and no word of the handler differs between call sites. -/
def MmapDelivered (t : Target) (a : MmapArgs t.width) : Prop :=
  (∀ (s : CallSite t a) (K : t.Mach → t.Mach), ∃ e,
    (mmap t K s.place a s.prior).traps = [e] ∧ kernelMmap t e = some a.request) ∧
  ∀ c, mmapConv t t.sysMmap = some c → ∀ k ∈ c.words t, ∀ s s' : CallSite t a,
    c.word t s.trap k = c.word t s'.trap k

/-! ## Words passed in registers -/

theorem argWord_of_passed {t : Target} {a : MmapArgs t.width} {k : Nat}
    (h : t.Passes (mmapAsm t) k) (s : CallSite t a) :
    t.argWord s.trap k = (mmapSysArgs t a).val (.arg k) :=
  Target.argWord_of_passes h s.ready

theorem mmapAsm_keeps_number : ∀ t : Target, (mmapAsm t).Keeps t.numberReg .n := by
  decide

theorem sysMmap_lt : ∀ t : Target, t.sysMmap < 2 ^ 32 := by
  decide

/-- The number reaches the kernel, which dispatches on it. -/
theorem kernelMmap_trap {t : Target} {a : MmapArgs t.width} {c : MmapConv}
    (hc : mmapConv t t.sysMmap = some c) (s : CallSite t a) :
    kernelMmap t s.trap = some (c.decode t (c.word t s.trap)) := by
  have hn : s.trap.regs t.numberReg = BitVec.ofNat t.width t.sysMmap :=
    Asm.atTrap_regs_of_keeps (mmapAsm_keeps_number t) s.ready
  have hlt : t.sysMmap < 2 ^ t.width := by
    have h := sysMmap_lt t
    rcases t.width_eq with hw | hw <;> rw [hw] <;> omega
  unfold kernelMmap
  rw [hn, BitVec.toNat_ofNat, Nat.mod_eq_of_lt hlt, hc, Option.map_some]

/-! ## From the words to the request -/

section Request

variable {w : Nat}

/-- Widening to a word and narrowing back gives the `i32`. -/
theorem setWidth_usizeOfI32 (hw : w = 32 ∨ w = 64) (v : BitVec 32) :
    (usizeOfI32 w v).setWidth 32 = v := by
  unfold usizeOfI32
  ext i hi
  simp only [BitVec.getElem_setWidth, BitVec.getLsbD_signExtend]
  have hiw : i < w := by omega
  simp [hi, hiw]

/-- On a 64-bit target the position is one word. -/
theorem joinWords_singleton (v : BitVec w) : joinWords [v] = v.setWidth 64 := by
  simp [joinWords]

theorem setWidth_eq_signExtend_iff (hw : w = 64) (u v : BitVec w) :
    u.setWidth 64 = v.signExtend 64 ↔ u = v := by
  subst hw
  rw [BitVec.setWidth_eq, BitVec.signExtend_eq]

end Request

variable {t : Target} {a : MmapArgs t.width}

/-- With the words that `mmap` passes, only the position can differ from what the caller means. -/
theorem decode_mmapSysArgs_eq_iff (c : MmapConv) :
    c.decode t (fun k => (mmapSysArgs t a).val (.arg k)) = a.request ↔
      c.pos t (fun k => (mmapSysArgs t a).val (.arg k)) = a.offset.signExtend 64 := by
  refine ⟨?_, ?_⟩
  · intro h
    exact congrArg MmapRequest.pos h
  · intro h
    unfold MmapConv.decode MmapArgs.request
    rw [h]
    simp only [SysArgs.val, Param.arg, mmapSysArgs, setWidth_usizeOfI32 t.width_eq]

/-- **When every word of the handler is passed**, delivery is a matter of the position. -/
theorem mmapDelivered_iff_pos {c : MmapConv} (hc : mmapConv t t.sysMmap = some c)
    (ha : ¬ Misaligned t a)
    (hword : ∀ s : CallSite t a, ∀ k ∈ c.words t,
      c.word t s.trap k = (mmapSysArgs t a).val (.arg k)) :
    MmapDelivered t a ↔
      c.pos t (fun k => (mmapSysArgs t a).val (.arg k)) = a.offset.signExtend 64 := by
  have hreq : ∀ s : CallSite t a,
      kernelMmap t s.trap = some a.request ↔
        c.pos t (fun k => (mmapSysArgs t a).val (.arg k)) = a.offset.signExtend 64 := by
    intro s
    rw [kernelMmap_trap hc, MmapConv.decode_congr (hword s), Option.some.injEq,
      decode_mmapSysArgs_eq_iff]
  refine ⟨?_, ?_⟩
  · rintro ⟨h, -⟩
    -- one call site is enough: all of them pass the same words
    obtain ⟨e, he, hk⟩ := h (CallSite.ofPrior t a default) id
    rw [mmap_traps _ ha] at he
    obtain rfl := List.singleton_injective he
    exact (hreq _).mp hk
  · intro h
    refine ⟨?_, ?_⟩
    · intro s K
      exact ⟨s.trap, mmap_traps s.toSite ha K, (hreq s).mpr h⟩
    · intro c' hc' k hk s s'
      obtain rfl := Option.some.inj (hc.symm.trans hc')
      rw [hword s k hk, hword s' k hk]

/-- One word of the handler that follows what was there before the call: nothing is delivered. -/
theorem not_mmapDelivered_of_stale {c : MmapConv} (hc : mmapConv t t.sysMmap = some c) {k : Nat}
    (hk : k ∈ c.words t)
    (hstale : ∀ b, ∃ s : CallSite t a, c.word t s.trap k = BitVec.fill t.width b) :
    ¬ MmapDelivered t a := by
  rintro ⟨-, h⟩
  -- two call sites between which the word differs
  obtain ⟨s, hs⟩ := hstale false
  obtain ⟨s', hs'⟩ := hstale true
  have heq := h c hc k hk s s'
  rw [hs, hs'] at heq
  have hbit := congrArg (fun v => v.getLsbD 0) heq
  have hpos : 0 < t.width := by rcases t.width_eq with hw | hw <;> omega
  simp [hpos] at hbit

/-! ## Words left over from before the call -/

/-- Every register and every byte filled with one bit. -/
def filled (t : Target) (b : Bool) : t.Mach where
  regs _ := BitVec.fill t.width b
  flag := b
  mem _ := BitVec.fill 8 b

theorem argWord_filled (t : Target) (b : Bool) (k : Nat) :
    t.argWord (filled t b) k = BitVec.fill t.width b := by
  unfold Target.argWord
  split
  · rfl
  · exact loadLE_fill b _

/-- Neither loading the operands nor the template touches the place that word `k` is read from. -/
def LeavesWord (t : Target) (k : Nat) : Prop :=
  (mmapAsm t).AllPinned = true ∧
    match t.argRegs[k]? with
    | some r => (r ∉ (mmapAsm t).inputs.filterMap fun o => o.1.pinned) ∧
        some r ∉ (mmapAsm t).before.map Instr.dest
    | none => (t.stackReg ∉ (mmapAsm t).inputs.filterMap fun o => o.1.pinned) ∧
        (mmapAsm t).before = []

instance (t : Target) (k : Nat) : Decidable (LeavesWord t k) := by
  unfold LeavesWord
  cases t.argRegs[k]? <;> exact inferInstanceAs (Decidable (_ ∧ _ ∧ _))

/-- The kernel then reads what was there before the call. -/
theorem argWord_of_leaves {k : Nat} (h : LeavesWord t k) (s : CallSite t a) :
    t.argWord s.trap k = t.argWord s.prior k := by
  obtain ⟨hpin, h⟩ := h
  cases hr : t.argRegs[k]? with
  | some r =>
      rw [hr] at h
      rw [Target.argWord_of_reg _ hr, Target.argWord_of_reg _ hr]
      show (runInstrs _ _ s.entry).regs r = _
      rw [runInstrs_regs_of_not_mem _ _ _ h.2]
      exact Asm.load_regs_of_pinned _ hpin _ _ _ h.1
  | none =>
      rw [hr] at h
      have htrap : s.trap = s.entry := by
        rw [Site.trap, Asm.atTrap, h.2, runInstrs_nil]
      have hsp : s.entry.regs t.stackReg = s.prior.regs t.stackReg :=
        Asm.load_regs_of_pinned _ hpin _ _ _ h.1
      rw [Target.argWord_of_stack _ hr, Target.argWord_of_stack _ hr, htrap, Site.entry_mem s.direct, hsp]

theorem not_mmapDelivered_of_leaves {c : MmapConv} (hc : mmapConv t t.sysMmap = some c)
    (hb : c ≠ .block) {k : Nat} (hk : k ∈ c.words t) (h : LeavesWord t k) :
    ¬ MmapDelivered t a := by
  apply not_mmapDelivered_of_stale hc hk
  intro b
  refine ⟨CallSite.ofPrior t a (filled t b), ?_⟩
  rw [MmapConv.word_eq_argWord hb, argWord_of_leaves h, ← argWord_filled t b k]
  rfl

/-! ## Targets with 64-bit words -/

theorem passes_of_width : ∀ t : Target, t.width = 64 → ∀ k < 6, t.Passes (mmapAsm t) k := by
  decide

/-- The seventh word is in the next argument register or, on amd64, where the template stores it. -/
theorem argWord_seventh (hw : t.width = 64) (h7 : t.HasSyscall7) (s : CallSite t a) :
    t.argWord s.trap 6 = (mmapSysArgs t a).a7 := by
  have hreg : ∀ t : Target, t.width = 64 → t.HasSyscall7 →
      t.Passes (mmapAsm t) 6 ∨ t = .bsd .netbsd .amd64 ∨ t = .bsd .openbsd .amd64 ∨ t = .macos .amd64 := by
    decide
  rcases hreg t hw h7 with h | rfl | rfl | rfl
  · exact argWord_of_passed h s
  -- on amd64 the three systems share one template
  · exact syscall7_atTrap_slot (s := mmapSysArgs (.bsd .netbsd .amd64) a) s.ready
  · exact syscall7_atTrap_slot (s := mmapSysArgs (.bsd .openbsd .amd64) a) s.ready
  · exact syscall7_atTrap_slot (s := mmapSysArgs (.macos .amd64) a) s.ready

theorem mmapDelivered_plain_iff (hw : t.width = 64) (ha : ¬ Misaligned t a)
    (hc : mmapConv t t.sysMmap = some .plain) :
    MmapDelivered t a ↔ (mmapSysArgs t a).a6 = a.offset := by
  have hpos : t.posWords 5 = [5] := if_pos hw
  have hword : ∀ s : CallSite t a, ∀ k ∈ MmapConv.plain.words t,
      MmapConv.plain.word t s.trap k = (mmapSysArgs t a).val (.arg k) := by
    intro s k hk
    apply argWord_of_passed
    apply passes_of_width t hw
    rw [MmapConv.words, hpos] at hk
    simp at hk
    omega
  rw [mmapDelivered_iff_pos hc ha hword]
  unfold MmapConv.pos
  rw [hpos, List.map_singleton, joinWords_singleton]
  exact setWidth_eq_signExtend_iff hw _ _

theorem mmapDelivered_padded (hw : t.width = 64) (h2 : ¬ t.HasMmap2) (h7 : t.HasSyscall7)
    (hc : mmapConv t t.sysMmap = some .padded) : MmapDelivered t a := by
  have hpos : t.posWords 6 = [6] := if_pos hw
  have hword : ∀ s : CallSite t a, ∀ k ∈ MmapConv.padded.words t,
      MmapConv.padded.word t s.trap k = (mmapSysArgs t a).val (.arg k) := by
    intro s k hk
    rw [MmapConv.words, hpos] at hk
    rcases (show k < 6 ∨ k = 6 by simp at hk; omega) with hlt | rfl
    · exact argWord_of_passed (passes_of_width t hw k hlt) s
    · exact argWord_seventh hw h7 s
  apply (mmapDelivered_iff_pos hc (fun h => h2 h.1) hword).mpr
  unfold MmapConv.pos
  rw [hpos, List.map_singleton, joinWords_singleton]
  apply (setWidth_eq_signExtend_iff hw _ _).mpr
  simp only [SysArgs.val, Param.arg, mmapSysArgs, if_pos h7]

end IbSys
