/-
# IbSys.Sys.MmapLinux -- `mmap` on Linux

Every operand of the Linux statements is pinned, so every state and every placement is a call site.
On the 64-bit targets one branch of `mmap` serves seven register layouts and seven numbers, and the
six arguments arrive on all of them; but s390x number 90 takes the address of a block of arguments
instead (`mmap_linux64_delivers_iff`). On i386 and ARM the offset travels in pages. The division that
computes them is signed, the kernel's multiplication is not, and the two agree below the sign bit
only (`mmap2_agrees_iff`).
-/
import IbSys.Sys.MmapDelivery

namespace IbSys

open ByteMemory RegMachine InlineAsm

/-- A call site of a statement whose operands are all pinned. -/
def CallSite.ofPinned {t : Target} (h : (mmapAsm t).AllPinned = true) (a : MmapArgs t.width)
    (place : t.Place) (m : t.Mach) : CallSite t a where
  prior := m
  place := place
  ready := (mmapAsm t).ready_load_of_pinned h t.stackReg place _ m
  direct := Site.direct_of_pinned h _

theorem mmapAsm_linux_pinned : ∀ t : Target, t.os = .linux → (mmapAsm t).AllPinned = true := by
  decide

/-! ## 64-bit targets -/

/-- The six words at `addr` are, one after the other, the arguments of the call. -/
def BlockHolds {w : Nat} (m : Mem w) (a : MmapArgs w) : Prop :=
  blockWord m a.addr 0 = a.addr ∧
    blockWord m a.addr 1 = a.length ∧
    (blockWord m a.addr 2).setWidth 32 = a.prot ∧
    (blockWord m a.addr 3).setWidth 32 = a.flags ∧
    (blockWord m a.addr 4).setWidth 32 = a.fd ∧
    blockWord m a.addr 5 = a.offset

theorem decode_block_eq_iff {t : Target} (hw : t.width = 64) (m : Mem t.width)
    (a : MmapArgs t.width) :
    MmapConv.block.decode t (blockWord m a.addr) = a.request ↔ BlockHolds m a := by
  have hpos : MmapConv.block.pos t (blockWord m a.addr) =
      (blockWord m a.addr 5).setWidth 64 := by
    simp only [MmapConv.pos, Target.posWords, if_pos hw, List.map_singleton, joinWords_singleton]
  unfold MmapConv.decode MmapArgs.request BlockHolds
  rw [hpos, MmapRequest.mk.injEq, setWidth_eq_signExtend_iff hw]

/-- **Delivery on 64-bit Linux.** `mmap` enters the kernel once, and the kernel works on the caller's
request; on s390x, when the memory at `addr` happens to hold the arguments. -/
theorem mmap_linux64_delivers_iff (t : Target) (hw : t.width = 64) (hos : t.os = .linux)
    (a : MmapArgs t.width) (K : t.Mach → t.Mach) (place : t.Place) (m : t.Mach) :
    ∃ e, (mmap t K place a m).traps = [e] ∧
      (kernelMmap t e = some a.request ↔ t.arch ≠ .s390x ∨ BlockHolds m.mem a) := by
  have hconv : ∀ t : Target, t.width = 64 → t.os = .linux → ¬ t.HasMmap2 ∧ ¬ t.HasSyscall7 ∧
      (t.arch = .s390x ∧ mmapConv t t.sysMmap = some .block ∧ (mmapAsm t).before = [] ∨
        t.arch ≠ .s390x ∧ mmapConv t t.sysMmap = some .plain) := by
    decide
  obtain ⟨h2, h7, hc⟩ := hconv t hw hos
  have ha : ¬ Misaligned t a := fun h => h2 h.1
  let s := CallSite.ofPinned (mmapAsm_linux_pinned t hos) a place m
  refine ⟨s.trap, mmap_traps s.toSite ha K, ?_⟩
  rcases hc with ⟨harch, hblock, hbefore⟩ | ⟨harch, hplain⟩
  · -- the kernel reads the block at the first argument, in memory that the call has not touched
    have haddr : t.argWord s.trap 0 = a.addr :=
      argWord_of_passed (passes_of_width t hw 0 (by decide)) s
    have hmem : s.trap.mem = m.mem := by
      rw [Site.trap, Asm.atTrap, hbefore, runInstrs_nil]
      exact Site.entry_mem s.direct
    rw [kernelMmap_trap hblock, Option.some.injEq]
    show MmapConv.block.decode t (blockWord s.trap.mem (t.argWord s.trap 0)) = _ ↔ _
    rw [haddr, hmem, decode_block_eq_iff hw]
    refine ⟨?_, ?_⟩
    · exact Or.inr
    · intro h
      rcases h with h | h
      · exact absurd harch h
      · exact h
  · refine iff_of_true ?_ (Or.inl harch)
    have hdel : MmapDelivered t a := by
      apply (mmapDelivered_plain_iff hw ha hplain).mpr
      simp only [mmapSysArgs, if_neg h2, if_neg h7]
    obtain ⟨e, he, hreq⟩ := hdel.1 s K
    rw [mmap_traps s.toSite ha K] at he
    obtain rfl := List.singleton_injective he
    exact hreq

/-- On amd64 a file mapping at an offset arrives, descriptor and all. -/
theorem mmap_linux_amd64_delivers :
    ∃ e, (mmap (.linux .amd64) id (fun _ => .imm 0) ⟨0, 8192, 1, 2, -1, 4096⟩ default).traps = [e] ∧
      kernelMmap (.linux .amd64) e = some ⟨0, 8192, 1, 2, -1, 4096⟩ := by
  obtain ⟨e, he, h⟩ := mmap_linux64_delivers_iff (.linux .amd64) rfl rfl ⟨0, 8192, 1, 2, -1, 4096⟩
    id (fun _ => .imm 0) default
  exact ⟨e, he, h.mpr (Or.inl (by decide))⟩

/-- On s390x, over memory that is all zero, the kernel is not asked for what the caller meant. -/
theorem mmap_linux_s390x_fails :
    ¬ ∃ e, (mmap (.linux .s390x) id (fun _ => .imm 0) ⟨0, 4096, 3, 34, -1, 0⟩ default).traps = [e] ∧
      kernelMmap (.linux .s390x) e = some (MmapArgs.request ⟨0, 4096, 3, 34, -1, 0⟩) := by
  rintro ⟨e, he, h⟩
  obtain rfl := List.singleton_injective he
  exact absurd (congrArg (Option.map MmapRequest.prot) h) (by decide +kernel)

/-! ## 32-bit targets: `mmap2` -/

/-- What the plain branch of `mmap` passes for the same call. -/
def plainSysArgs (t : Target) (a : MmapArgs t.width) : SysArgs t.width where
  n := BitVec.ofNat t.width t.sysMmap
  a1 := a.addr
  a2 := a.length
  a3 := usizeOfI32 t.width a.prot
  a4 := usizeOfI32 t.width a.flags
  a5 := usizeOfI32 t.width a.fd
  a6 := a.offset

/-- The `mmap2` path agrees with the plain one: the kernel is entered once, its page count stands for
the byte position of the plain path, and the other words are the same. A call whose offset has its top
bit set may fail without entering the kernel instead. -/
def Mmap2Agrees (t : Target) (a : MmapArgs t.width) (r : Run Reg t.width) : Prop :=
  (∃ e, r.traps = [e] ∧
    (t.argWord e 5).toNat * 4096 = (plainSysArgs t a).a6.toNat ∧
    ∀ k < 5, t.argWord e k = (plainSysArgs t a).val (.arg k)) ∨
  (a.offset.msb = true ∧ r.traps = [] ∧ r.value = mapFailed t.width)

/-- The pages of an aligned offset: signed division is right below the sign bit only. -/
theorem sdiv_pageSize_mul_iff {w : Nat} (hw : w = 32) (x : BitVec w) (hx : x.toNat % 4096 = 0) :
    (x.sdiv (pageSize w)).toNat * 4096 = x.toNat ↔ x.msb = false := by
  subst hw
  have hlt := x.isLt
  have hsize : (pageSize 32).toNat = 4096 := by decide
  have hpos : (pageSize 32).msb = false := by decide
  rw [BitVec.sdiv_eq, hpos]
  cases hmsb : x.msb with
  | false =>
      show (x / pageSize 32).toNat * 4096 = x.toNat ↔ _
      rw [BitVec.toNat_udiv, hsize]
      exact iff_of_true (by omega) rfl
  | true =>
      -- the quotient of the negated offset is at least 1, so its negation is close to 2 ^ 32
      have hge : 2 ^ 31 ≤ x.toNat := by
        rw [BitVec.msb_eq_decide, decide_eq_true_eq] at hmsb
        exact hmsb
      show (-(-x / pageSize 32)).toNat * 4096 = x.toNat ↔ _
      rw [BitVec.toNat_neg, BitVec.toNat_udiv, BitVec.toNat_neg, hsize]
      refine iff_of_false ?_ (by decide)
      omega

/-- **When `mmap2` agrees.** For a page-aligned offset the two paths agree exactly when the offset is
below the sign bit. -/
theorem mmap2_agrees_iff (t : Target) (h2 : t.HasMmap2) (a : MmapArgs t.width)
    (ha : a.offset.toNat % 4096 = 0) (K : t.Mach → t.Mach) (place : t.Place) (m : t.Mach) :
    Mmap2Agrees t a (mmap t K place a m) ↔ a.offset.msb = false := by
  have htable : ∀ t : Target, t.HasMmap2 → t.width = 32 ∧ ∀ k < 6, t.Passes (mmapAsm t) k := by
    decide
  obtain ⟨hw, hpass⟩ := htable t h2
  have hal : ¬ Misaligned t a := fun h => h.2 ha
  let s := CallSite.ofPinned (mmapAsm_linux_pinned t h2.1) a place m
  have htraps : (mmap t K place a m).traps = [s.trap] := mmap_traps s.toSite hal K
  have hpages : t.argWord s.trap 5 = a.offset.sdiv (pageSize t.width) := by
    rw [argWord_of_passed (hpass 5 (by decide)) s]
    simp only [SysArgs.val, Param.arg, mmapSysArgs, if_pos h2]
  rw [← sdiv_pageSize_mul_iff hw a.offset ha, ← hpages]
  refine ⟨?_, ?_⟩
  · rintro (⟨e, he, hpos, -⟩ | ⟨-, he, -⟩)
    · obtain rfl := List.singleton_injective (htraps.symm.trans he)
      exact hpos
    · exact absurd (htraps.symm.trans he) (by simp)
  · intro hpos
    refine Or.inl ⟨s.trap, htraps, hpos, ?_⟩
    intro k hk
    rw [argWord_of_passed (hpass k (by omega)) s]
    interval_cases k <;> rfl

/-- On ARM the offset 8192 is passed as two pages. -/
theorem mmap2_arm_agrees :
    Mmap2Agrees (.linux .arm) ⟨0, 4096, 3, 1, 3, 8192⟩
      (mmap (.linux .arm) id (fun _ => .imm 0) ⟨0, 4096, 3, 1, 3, 8192⟩ default) :=
  (mmap2_agrees_iff (.linux .arm) (by decide) ⟨0, 4096, 3, 1, 3, 8192⟩ (by decide) id
    (fun _ => .imm 0) default).mpr (by decide)

/-- On i386 a device at 2 GiB is asked for at page `0xfff80000`, near the end of the file space. -/
theorem mmap2_i386_fails :
    ¬ Mmap2Agrees (.linux .i386) ⟨0, 4096, 3, 1, 3, 0x80000000⟩
      (mmap (.linux .i386) id (fun _ => .imm 0) ⟨0, 4096, 3, 1, 3, 0x80000000⟩ default) := by
  rintro (⟨e, he, hpos, -⟩ | ⟨-, he, -⟩)
  · obtain rfl := List.singleton_injective he
    exact absurd hpos (by decide)
  · exact absurd he (by decide)

end IbSys
