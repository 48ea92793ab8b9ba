/-
# IbSys.Sys.MmapCall -- the one system call of `mmap`

Every branch of `mmap` ends in one asm statement with one list of values. `mmapAsm` and
`mmapSysArgs` name them, and `mmap_eq` says that `mmap` is that call and its decoding, except for the
misaligned offsets that `mmap2` cannot express, which make no call at all. `write_value` and
`mmap_value` take what the wrappers return back to the result register the kernel has left.
-/
import IbSys.Sys.KernelAbi

namespace IbSys

open ByteMemory RegMachine InlineAsm

/-! ## The statement and its values -/

/-- The statement `mmap` executes. -/
def mmapAsm (t : Target) : Asm Reg Param :=
  if h : t.HasSyscall7 then t.asm7 h else t.asm6

/-- The values it passes. -/
def mmapSysArgs (t : Target) (a : MmapArgs t.width) : SysArgs t.width where
  n := BitVec.ofNat t.width t.sysMmap
  a1 := a.addr
  a2 := a.length
  a3 := usizeOfI32 t.width a.prot
  a4 := usizeOfI32 t.width a.flags
  a5 := usizeOfI32 t.width a.fd
  a6 :=
    if t.HasMmap2 then a.offset.sdiv (pageSize t.width)
    else if t.HasSyscall7 then 0
    else a.offset
  a7 := if t.HasSyscall7 then a.offset else 0

/-- The offset is not a multiple of the unit that `mmap2` counts in. -/
def Misaligned (t : Target) (a : MmapArgs t.width) : Prop :=
  t.HasMmap2 ∧ a.offset.toNat % 4096 ≠ 0

instance (t : Target) (a : MmapArgs t.width) : Decidable (Misaligned t a) :=
  inferInstanceAs (Decidable (_ ∧ _))

/-- The mask test of `mmap` is the remainder by the page size. -/
theorem and_pageSize_eq_zero_iff {w : Nat} (hw : w = 32 ∨ w = 64) (v : BitVec w) :
    v &&& (pageSize w - 1) = 0 ↔ v.toNat % 4096 = 0 := by
  have hmask : (pageSize w - 1).toNat = 2 ^ 12 - 1 := by
    rcases hw with rfl | rfl <;> decide
  rw [← BitVec.toNat_inj, BitVec.toNat_and, hmask, Nat.and_two_pow_sub_one_eq_mod]
  simp

theorem not_hasSyscall7_of_hasMmap2 : ∀ t : Target, t.HasMmap2 → ¬ t.HasSyscall7 := by
  decide

/-- **What `mmap` does**: one call of `mmapAsm` and its decoding, or `MAP_FAILED` without a call. -/
theorem mmap_eq (t : Target) (K : t.Mach → t.Mach) (place : t.Place) (a : MmapArgs t.width)
    (m : t.Mach) :
    mmap t K place a m =
      if Misaligned t a then { value := mapFailed t.width, traps := [], mach := m }
      else decodeMmap ((mmapAsm t).call K place (mmapSysArgs t a).val m) := by
  by_cases h2 : t.HasMmap2
  · have h7 := not_hasSyscall7_of_hasMmap2 t h2
    have hal := and_pageSize_eq_zero_iff t.width_eq a.offset
    by_cases hoff : a.offset.toNat % 4096 = 0
    · have hna : ¬ Misaligned t a := fun h => h.2 hoff
      rw [if_neg hna, mmap, if_pos h2, if_neg (not_not.mpr (hal.mpr hoff))]
      simp only [syscall6, mmapAsm, mmapSysArgs, dif_neg h7, if_pos h2, if_neg h7]
    · have hma : Misaligned t a := ⟨h2, hoff⟩
      rw [if_pos hma, mmap, if_pos h2, if_pos fun h => hoff (hal.mp h)]
  · have hna : ¬ Misaligned t a := fun h => h2 h.1
    rw [if_neg hna, mmap, if_neg h2]
    by_cases h7 : t.HasSyscall7
    · simp only [syscall7, mmapAsm, mmapSysArgs, dif_pos h7, if_neg h2, if_pos h7]
    · simp only [syscall6, mmapAsm, mmapSysArgs, dif_neg h7, if_neg h2, if_neg h7]

@[simp] theorem decodeMmap_traps {w : Nat} (r : Run Reg w) : (decodeMmap r).traps = r.traps := by
  unfold decodeMmap
  split <;> rfl

theorem decodeMmap_value {w : Nat} (r : Run Reg w) :
    (decodeMmap r).value = if isErrno r.value then mapFailed w else r.value := by
  unfold decodeMmap
  split <;> rfl

/-! ## Results -/

theorem asm3_output : ∀ t : Target,
    t.asm3.output = t.resultReg ∧ some t.asm3.output ∉ t.asm3.after.map Instr.dest := by
  decide

theorem mmapAsm_output : ∀ t : Target,
    (mmapAsm t).output = t.resultReg ∧
      some (mmapAsm t).output ∉ (mmapAsm t).after.map Instr.dest := by
  decide

/-- The value of `write` is what the kernel leaves in the result register. -/
theorem write_value (t : Target) (K : t.Mach → t.Mach) (place : t.Place)
    (fd data size : BitVec t.width) (m : t.Mach) :
    ∃ e, (write t K place fd data size m).traps = [e] ∧
      (write t K place fd data size m).value = (K e).regs t.resultReg := by
  refine ⟨_, rfl, ?_⟩
  rw [← (asm3_output t).1]
  exact Asm.call_value _ K place _ m (asm3_output t).2

/-- The value of `mmap`, when it makes its call, is the decoded result register. -/
theorem mmap_value (t : Target) (K : t.Mach → t.Mach) (place : t.Place) (a : MmapArgs t.width)
    (m : t.Mach) (h : ¬ Misaligned t a) :
    ∃ e, (mmap t K place a m).traps = [e] ∧
      (mmap t K place a m).value =
        if isErrno ((K e).regs t.resultReg) then mapFailed t.width
        else (K e).regs t.resultReg := by
  refine ⟨_, by rw [mmap_eq, if_neg h, decodeMmap_traps]; rfl, ?_⟩
  rw [mmap_eq, if_neg h, decodeMmap_value, Asm.call_value _ K place _ m (mmapAsm_output t).2,
    (mmapAsm_output t).1]

end IbSys
