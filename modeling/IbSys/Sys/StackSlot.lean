/-
# IbSys.Sys.StackSlot -- the amd64 statements that store their seventh argument

The amd64 `syscall7` of NetBSD/OpenBSD and the one of macOS are one template. It lowers the stack
pointer by 16, stores the seventh argument 8 bytes above it, traps, and raises the stack pointer
again. The register part and the argument are right from every state. The store itself lands in the
128 bytes below the stack pointer, which the compiled function around the statement may be using:
`slotDelivered_iff` says that nothing is lost exactly when the slot already holds the argument.
-/
import IbSys.Sys.Backend

namespace IbSys

open ByteMemory RegMachine InlineAsm

/-- The number and the first six arguments, with the registers they travel in. -/
def registerArgs : List (Reg × Param) :=
  [(.rax, .n), (.rdi, .a1), (.rsi, .a2), (.rdx, .a3), (.r10, .a4), (.r8, .a5), (.r9, .a6)]

/-- Bytes below the stack pointer that the ABI leaves to the compiled function. -/
def redZone : Nat := 128

/-- The call is delivered without damage: the registers and the word at `8(%rsp)` are right at the
trap, the template leaves the stack pointer where it was, and neither the instructions before the
trap nor those after it change a byte at or above the red zone. -/
def SlotDelivered (A : Asm Reg Param) (place : Nat → Loc Reg 64) (s : SysArgs 64)
    (K : Machine Reg 64 → Machine Reg 64) (e : Machine Reg 64) : Prop :=
  let t := A.atTrap place e
  (∀ r p, (r, p) ∈ registerArgs → t.regs r = s.val p) ∧
    loadLE t.mem (t.regs .rsp + 8) = s.a7 ∧
    (A.finish place (K t)).regs .rsp = e.regs .rsp ∧
    ∀ x, (e.regs .rsp).toNat ≤ x.toNat + redZone →
      t.mem x = e.mem x ∧ (A.finish place (K t)).mem x = (K t).mem x

theorem darwin_syscall7_eq : SyscallDarwinAmd64.syscall7 = SyscallBsdAmd64.syscall7 := rfl

/-- The number and the first six arguments are pinned, and the template keeps them to the trap. -/
theorem syscall7_keeps : ∀ o ∈ registerArgs, SyscallBsdAmd64.syscall7.Keeps o.1 o.2 := by
  decide

section Entry

variable {place : Nat → Loc Reg 64} {s : SysArgs 64} {e : Machine Reg 64}

theorem syscall7_atTrap_rsp : (SyscallBsdAmd64.syscall7.atTrap place e).regs .rsp =
    e.regs .rsp - 16 := rfl

/-- Memory at the trap: one word is stored, just below the stack pointer at entry. -/
theorem syscall7_atTrap_mem (hready : SyscallBsdAmd64.syscall7.Ready .rsp place s.val e) :
    (SyscallBsdAmd64.syscall7.atTrap place e).mem = storeLE e.mem (e.regs .rsp - 8) s.a7 := by
  -- the operand is in a register other than the stack pointer, so lowering that leaves it alone
  obtain ⟨r, hr, hplace⟩ := hready.1 7 .anyReg .a7 rfl
  have hval : e.read (place 8) = s.a7 := hready.2 7 .anyReg .a7 rfl
  rw [hplace] at hval
  have hsub : e.regs .rsp - 16 + 8 = e.regs .rsp - 8 := by ring
  show storeLE e.mem (e.regs .rsp - 16 + 8) ((e.set .rsp _).read (place 8)) = _
  rw [hplace, hsub]
  simp only [Machine.read] at hval ⊢
  rw [Machine.set_regs_of_ne _ _ hr, hval]

/-- The seventh argument is at `8(%rsp)` at the trap. -/
theorem syscall7_atTrap_slot (hready : SyscallBsdAmd64.syscall7.Ready .rsp place s.val e) :
    loadLE (SyscallBsdAmd64.syscall7.atTrap place e).mem
      ((SyscallBsdAmd64.syscall7.atTrap place e).regs .rsp + 8) = s.a7 := by
  rw [syscall7_atTrap_mem hready, syscall7_atTrap_rsp,
    show e.regs .rsp - 16 + 8 = e.regs .rsp - 8 by ring]
  exact loadLE_storeLE _ _ _ (by decide)

/-- The word the store writes is inside the protected bytes, wherever the stack pointer is. -/
theorem outside_slot {sp x : BitVec 64} (hx : ¬ sp.toNat ≤ x.toNat + redZone) :
    64 / 8 ≤ (x - (sp - 8)).toNat := by
  unfold redZone at hx
  have hlt := sp.isLt
  bv_omega

/-- Nothing in the protected bytes changes exactly when the slot already holds the argument. -/
theorem slot_kept_iff (m : Mem 64) (sp v : BitVec 64) :
    (∀ x : BitVec 64, sp.toNat ≤ x.toNat + redZone → storeLE m (sp - 8) v x = m x) ↔
      loadLE m (sp - 8) = v := by
  rw [← storeLE_eq_self_iff m (sp - 8) v (by decide)]
  refine ⟨?_, ?_⟩
  · intro h
    funext x
    by_cases hx : sp.toNat ≤ x.toNat + redZone
    · exact h x hx
    · exact storeLE_of_outside m _ v (outside_slot hx)
  · intro h x _
    rw [h]

end Entry

/-- **When the seventh argument costs nothing.** From every state in which the operands are in place
and for every kernel that keeps the stack pointer, the statement delivers its call without damage
exactly when the word below the stack pointer is already the seventh argument. -/
theorem slotDelivered_iff (A : Asm Reg Param)
    (hA : A ∈ [SyscallBsdAmd64.syscall7, SyscallDarwinAmd64.syscall7]) (s : SysArgs 64)
    (place : Nat → Loc Reg 64) (e : Machine Reg 64) (hready : A.Ready .rsp place s.val e)
    (K : Machine Reg 64 → Machine Reg 64) (hK : ∀ m, (K m).regs .rsp = m.regs .rsp) :
    SlotDelivered A place s K e ↔ loadLE e.mem (e.regs .rsp - 8) = s.a7 := by
  obtain rfl : A = SyscallBsdAmd64.syscall7 := by
    simpa [darwin_syscall7_eq] using hA
  unfold SlotDelivered
  rw [← slot_kept_iff]
  refine ⟨?_, ?_⟩
  · rintro ⟨-, -, -, hmem⟩ x hx
    rw [← syscall7_atTrap_mem hready]
    exact (hmem x hx).1
  · intro h
    refine ⟨?_, syscall7_atTrap_slot hready, ?_, ?_⟩
    · intro r p hrp
      exact Asm.atTrap_regs_of_keeps (syscall7_keeps (r, p) hrp) hready
    · -- `addq $16` undoes `subq $16`, as the kernel keeps the stack pointer
      show (K _).regs .rsp + 16 = _
      rw [hK, syscall7_atTrap_rsp]
      exact BitVec.sub_add_cancel _ _
    · intro x hx
      refine ⟨?_, rfl⟩
      rw [syscall7_atTrap_mem hready]
      exact h x hx

/-- The second of two mappings at one offset costs nothing: the slot still holds the offset. -/
theorem slotDelivered_again :
    let A := SyscallBsdAmd64.syscall7
    let s : SysArgs 64 := { n := 197, a2 := 4096, a3 := 1, a4 := 2, a5 := 3, a7 := 4096 }
    let place := A.directPlace .rbx s.val
    let m : Machine Reg 64 :=
      { regs := fun r => if r = .rsp then 0x8000 else 0
        flag := false
        mem := storeLE (fun _ => 0) 0x7ff8 4096 }
    SlotDelivered A place s id (A.load place s.val m) := by
  intro A s place m
  apply (slotDelivered_iff A List.mem_cons_self s place _ (A.ready_load_direct (by decide) s.val m) id
    fun _ => rfl).mpr
  have hsp : (A.load place s.val m).regs .rsp = 0x8000 := rfl
  have hslot : (0x8000 : BitVec 64) - 8 = 0x7ff8 := by decide
  have hmem : (A.load place s.val m).mem = m.mem := rfl
  rw [hsp, hslot, hmem]
  exact loadLE_storeLE _ _ _ (by decide)

/-- Over memory that is all zero, an offset of 4096 overwrites the word below the stack pointer. -/
theorem slotDelivered_fails :
    ¬ ∀ (s : SysArgs 64) (place : Nat → Loc Reg 64) (e : Machine Reg 64),
      SyscallDarwinAmd64.syscall7.Ready .rsp place s.val e →
      ∀ K : Machine Reg 64 → Machine Reg 64, (∀ m, (K m).regs .rsp = m.regs .rsp) →
        SlotDelivered SyscallDarwinAmd64.syscall7 place s K e := by
  intro h
  let A := SyscallDarwinAmd64.syscall7
  let s : SysArgs 64 := { n := 0x20000c5, a7 := 4096 }
  let place := A.directPlace .rbx s.val
  have hready : A.Ready .rsp place s.val (A.load place s.val default) :=
    A.ready_load_direct (by decide) s.val default
  obtain ⟨-, -, -, hmem⟩ := h s place _ hready id fun _ => rfl
  -- the slot would have to hold the offset before the call, and it holds zero
  have hslot : loadLE (A.load place s.val default).mem
      ((A.load place s.val default).regs .rsp - 8) = 4096 := by
    apply (slot_kept_iff _ _ _).mp
    intro x hx
    have hbyte := (hmem x hx).1
    rwa [show (SyscallDarwinAmd64.syscall7.atTrap place (A.load place s.val default)).mem = _ from
      syscall7_atTrap_mem hready] at hbyte
  exact absurd (hslot.symm.trans (loadLE_fill false _)) (by decide)

end IbSys
