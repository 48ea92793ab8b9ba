/-
# IbSys.Sys.PushedCall -- the BSD/i386 statements, which push their arguments

The three BSD/i386 statements have one shape: push the arguments, last one first, push the number,
trap, and drop the block. `%eax`, the stack pointer and the layout of the block come out right under
every placement. What the words of the block are does not: an argument that the compiler has left in
memory is read when its turn comes, after the later arguments have been stored and the stack pointer
has moved. `stackDelivered_iff` says exactly when that is harmless.
-/
import IbSys.Sys.Backend

namespace IbSys

open ByteMemory RegMachine InlineAsm

/-- The operand numbers of the arguments: `%1` is the system-call number. -/
def Arity.operands (y : Arity) : List Nat := List.range' 2 y.params.length

namespace SyscallBsdI386

def asm : Arity → Asm Reg Param
  | .three => syscall3
  | .six => syscall6
  | .seven => syscall7

theorem asm_before (y : Arity) :
    (asm y).before =
      (y.operands.reverse.map fun k => .push .esp (.operand k)) ++ [.push .esp (.reg .eax)] := by
  cases y <;> rfl

theorem asm_after (y : Arity) : (asm y).after = [.add (4 * (y.params.length + 1)) .esp] := by
  cases y <;> rfl

theorem asm_inputs (y : Arity) :
    (asm y).inputs = (.pin .eax, .n) :: y.params.map fun p => (.general, p) := by
  cases y <;> rfl

theorem asm_inputs_succ (y : Arity) (i : Nat) (c : Constraint Reg) (p : Param) :
    (asm y).inputs[i + 1]? = some (c, p) ↔ c = .general ∧ y.params[i]? = some p := by
  rw [asm_inputs, List.getElem?_cons_succ, List.getElem?_map, Option.map_eq_some_iff]
  refine ⟨?_, ?_⟩
  · rintro ⟨p', hp', hcp⟩
    obtain ⟨rfl, rfl⟩ := Prod.mk.inj hcp
    exact ⟨rfl, hp'⟩
  · rintro ⟨rfl, hp⟩
    exact ⟨p, hp, rfl⟩

/-- What holds of every input holds of the number and of every argument. -/
theorem forall_inputs_iff (y : Arity) (Q : Nat → Constraint Reg → Param → Prop) :
    (∀ k c p, (asm y).inputs[k]? = some (c, p) → Q k c p) ↔
      Q 0 (.pin .eax) .n ∧ ∀ i p, y.params[i]? = some p → Q (i + 1) .general p := by
  have hzero : (asm y).inputs[0]? = some (.pin .eax, .n) := by
    rw [asm_inputs]
    rfl
  refine ⟨?_, ?_⟩
  · intro h
    refine ⟨h 0 _ _ hzero, ?_⟩
    intro i p hp
    exact h (i + 1) _ _ ((asm_inputs_succ y i _ p).mpr ⟨rfl, hp⟩)
  · rintro ⟨hn, h⟩ k c p hk
    cases k with
    | zero =>
        obtain ⟨rfl, rfl⟩ := Prod.mk.inj (Option.some.inj (hzero.symm.trans hk))
        exact hn
    | succ i =>
        obtain ⟨rfl, hp⟩ := (asm_inputs_succ y i c p).mp hk
        exact h i p hp

/-- An argument operand is where the compiler has put it. -/
theorem asm_loc (y : Arity) (place : Nat → Loc Reg 32) (i : Nat) :
    (asm y).loc place (2 + i) = place (2 + i) := by
  unfold Asm.loc
  rw [show 2 + i - 1 = i + 1 by omega]
  cases hin : (asm y).inputs[i + 1]? with
  | none => rfl
  | some o =>
      obtain ⟨c, p⟩ := o
      obtain ⟨rfl, -⟩ := (asm_inputs_succ y i c p).mp hin
      rfl

end SyscallBsdI386

open SyscallBsdI386

/-! ## Delivery and its condition -/

/-- The call is delivered: at the trap `%eax` is the number and the words from `4(%esp)` up are the
arguments in order, and the template leaves the stack pointer where it was. -/
def StackDelivered (y : Arity) (place : Nat → Loc Reg 32) (s : SysArgs 32)
    (K : Machine Reg 32 → Machine Reg 32) (e : Machine Reg 32) : Prop :=
  let t := (asm y).atTrap place e
  t.regs .eax = s.n ∧
    (∀ i p, y.params[i]? = some p →
      loadLE t.mem (t.regs .esp + BitVec.ofNat 32 (4 * (i + 1))) = s.val p) ∧
    ((asm y).finish place (K t)).regs .esp = e.regs .esp

/-- Every argument placed in memory still reads as its value when its turn comes: by then the
arguments after it are stored below the stack pointer `%esp` had at entry, and an address relative to
`%esp` has moved down with it. -/
def MemOperandsSurvive (y : Arity) (place : Nat → Loc Reg 32) (s : SysArgs 32)
    (e : Machine Reg 32) : Prop :=
  ∀ i p b d, y.params[i]? = some p → place (2 + i) = .mem b d →
    (e.pushAll .esp ((y.params.drop (i + 1)).map s.val).reverse).read (.mem b d) = s.val p

section Entry

variable {y : Arity} {place : Nat → Loc Reg 32} {s : SysArgs 32} {e : Machine Reg 32}

/-- The words the template pushes for the arguments, in argument order. -/
def pushedArgs (y : Arity) (place : Nat → Loc Reg 32) (e : Machine Reg 32) : List (BitVec 32) :=
  e.argWords .esp (y.operands.map ((asm y).loc place))

theorem length_pushedArgs : (pushedArgs y place e).length = y.params.length := by
  simp [pushedArgs, Arity.operands]

/-- What it is for the operands to be in place: the number in `%eax`, and every argument readable
where the compiler has put it, which is not the stack pointer. -/
theorem ready_iff :
    (asm y).Ready .esp place s.val e ↔
      e.regs .eax = s.n ∧ ∀ i p, y.params[i]? = some p →
        place (2 + i) ≠ .reg .esp ∧ e.read (place (2 + i)) = s.val p := by
  have hplace : ∀ i, place (i + 1 + 1) = place (2 + i) := by
    intro i
    rw [show i + 1 + 1 = 2 + i by omega]
  unfold Asm.Ready Asm.Fits
  rw [forall_inputs_iff y fun k c _ => c.Fits .esp (place (k + 1)),
    forall_inputs_iff y fun k c p => e.read (c.loc (place (k + 1))) = s.val p]
  simp only [hplace]
  refine ⟨?_, ?_⟩
  · rintro ⟨⟨-, hfit⟩, hn, hval⟩
    refine ⟨hn, ?_⟩
    intro i p hp
    exact ⟨hfit i p hp, hval i p hp⟩
  · rintro ⟨hn, h⟩
    refine ⟨⟨trivial, ?_⟩, hn, ?_⟩
    · intro i p hp
      exact (h i p hp).1
    · intro i p hp
      exact (h i p hp).2

/-- The state at the trap: the arguments and, on top of them, the number. -/
theorem asm_atTrap (hready : (asm y).Ready .esp place s.val e) :
    (asm y).atTrap place e = e.pushAll .esp ((pushedArgs y place e).reverse ++ [s.n]) := by
  unfold Asm.atTrap
  rw [asm_before, runInstrs_append, runInstrs_pushes, Machine.pushArgs_eq_pushAll,
    Machine.pushAll_concat, runInstrs_cons, runInstrs_nil]
  simp only [Instr.effect, Src.loc, Machine.read]
  rw [Machine.pushAll_regs_of_ne _ _ (by decide), (ready_iff.mp hready).1]
  rfl

theorem atTrap_eax (hready : (asm y).Ready .esp place s.val e) :
    ((asm y).atTrap place e).regs .eax = s.n := by
  rw [asm_atTrap hready, Machine.pushAll_regs_of_ne _ _ (by decide)]
  exact (ready_iff.mp hready).1

theorem length_params_le (y : Arity) : y.params.length ≤ 7 := by
  cases y <;> decide

/-- The word at `4 * (i + 1)` above the stack pointer is the `i`-th word pushed for an argument. -/
theorem loadLE_atTrap (hready : (asm y).Ready .esp place s.val e) {i : Nat} {v : BitVec 32}
    (hi : (pushedArgs y place e)[i]? = some v) :
    loadLE ((asm y).atTrap place e).mem
      (((asm y).atTrap place e).regs .esp + BitVec.ofNat 32 (4 * (i + 1))) = v := by
  have hle := length_params_le y
  rw [asm_atTrap hready]
  apply Machine.loadLE_pushAll_word e .esp _ (by decide)
  · rw [List.length_append, List.length_reverse, length_pushedArgs, List.length_singleton]
    omega
  · rwa [List.reverse_append, List.reverse_reverse, List.reverse_singleton, List.singleton_append,
      List.getElem?_cons_succ]

/-- The template drops exactly the block it has pushed. -/
theorem finish_esp (hready : (asm y).Ready .esp place s.val e)
    {K : Machine Reg 32 → Machine Reg 32} (hK : ∀ m, (K m).regs .esp = m.regs .esp) :
    ((asm y).finish place (K ((asm y).atTrap place e))).regs .esp = e.regs .esp := by
  unfold Asm.finish
  rw [asm_after, runInstrs_cons, runInstrs_nil]
  simp only [Instr.effect]
  rw [Machine.set_regs_self, hK, asm_atTrap hready, Machine.pushAll_sp, List.length_append,
    List.length_reverse, length_pushedArgs, List.length_singleton]
  exact BitVec.sub_add_cancel _ _

theorem operands_getElem? {i : Nat} {p : Param} (hp : y.params[i]? = some p) :
    (y.operands.map ((asm y).loc place))[i]? = some (place (2 + i)) := by
  have hi := (List.getElem?_eq_some_iff.mp hp).1
  rw [List.getElem?_map, Arity.operands, List.getElem?_range' hi, Option.map_some, Nat.one_mul,
    asm_loc]

/-- An operand that is not in memory reads the same after any pushes. -/
theorem read_pushAll_of_not_mem (hready : (asm y).Ready .esp place s.val e) {i : Nat} {p : Param}
    (hp : y.params[i]? = some p) (hmem : ∀ b d, place (2 + i) ≠ .mem b d)
    (vs : List (BitVec 32)) :
    (e.pushAll .esp vs).read (place (2 + i)) = s.val p := by
  obtain ⟨hfit, hval⟩ := (ready_iff.mp hready).2 i p hp
  cases hl : place (2 + i) with
  | imm v => rwa [hl] at hval
  | reg r =>
      have hr : r ≠ .esp := by
        rintro rfl
        exact hfit hl
      rw [hl] at hval
      show (e.pushAll .esp vs).regs r = _
      rw [Machine.pushAll_regs_of_ne _ _ hr]
      exact hval
  | mem b d => exact absurd hl (hmem b d)

/-- The words pushed are the arguments exactly when the operands in memory survive. -/
theorem pushedArgs_eq_iff (hready : (asm y).Ready .esp place s.val e) :
    pushedArgs y place e = y.params.map s.val ↔ MemOperandsSurvive y place s e := by
  unfold pushedArgs
  rw [Machine.argWords_eq_iff _ _ _ _ (by simp [Arity.operands])]
  refine ⟨?_, ?_⟩
  · intro h i p b d hp hl
    have := h i _ (s.val p) (operands_getElem? hp) (by rw [List.getElem?_map, hp]; rfl)
    rwa [hl, ← List.map_drop] at this
  · intro h i l v hl hv
    rw [List.getElem?_map, Option.map_eq_some_iff] at hv
    obtain ⟨p, hp, rfl⟩ := hv
    rw [operands_getElem? hp] at hl
    obtain rfl := Option.some.inj hl
    rw [← List.map_drop]
    -- an immediate or a register cannot go wrong, so the condition is about memory operands only
    by_cases hmem : ∃ b d, place (2 + i) = .mem b d
    · obtain ⟨b, d, hbd⟩ := hmem
      rw [hbd]
      exact h i p b d hp hbd
    · exact read_pushAll_of_not_mem hready hp (fun b d hbd => hmem ⟨b, d, hbd⟩) _

/-- The block at the trap holds the arguments exactly when the operands in memory survive. -/
theorem block_eq_iff (hready : (asm y).Ready .esp place s.val e) :
    (∀ i p, y.params[i]? = some p →
      loadLE ((asm y).atTrap place e).mem
        (((asm y).atTrap place e).regs .esp + BitVec.ofNat 32 (4 * (i + 1))) = s.val p) ↔
      MemOperandsSurvive y place s e := by
  rw [← pushedArgs_eq_iff hready]
  refine ⟨?_, ?_⟩
  · intro h
    apply List.ext_getElem (by rw [length_pushedArgs, List.length_map])
    intro i hi hi'
    rw [List.length_map] at hi'
    have hp : y.params[i]? = some y.params[i] := List.getElem?_eq_getElem hi'
    rw [List.getElem_map, ← h i _ hp]
    exact (loadLE_atTrap hready (List.getElem?_eq_getElem hi)).symm
  · intro h i p hp
    apply loadLE_atTrap hready
    rw [h, List.getElem?_map, hp]
    rfl

/-- The words above the block at the trap are those above the stack pointer at entry. -/
theorem loadLE_atTrap_above (hready : (asm y).Ready .esp place s.val e) (i : Nat)
    (hi : i + 9 < 2 ^ 28) :
    loadLE ((asm y).atTrap place e).mem (((asm y).atTrap place e).regs .esp +
      BitVec.ofNat 32 (4 * (y.params.length + i + 1))) =
    loadLE e.mem (e.regs .esp + BitVec.ofNat 32 (4 * i)) := by
  have hle := length_params_le y
  have hlen : ((pushedArgs y place e).reverse ++ [s.n]).length = y.params.length + 1 := by
    rw [List.length_append, List.length_reverse, length_pushedArgs, List.length_singleton]
  rw [asm_atTrap hready, Machine.pushAll_sp, hlen]
  have hoff : e.regs .esp - BitVec.ofNat 32 (32 / 8 * (y.params.length + 1)) +
      BitVec.ofNat 32 (4 * (y.params.length + i + 1)) =
        e.regs .esp + BitVec.ofNat 32 (4 * i) := by
    rw [show 4 * (y.params.length + i + 1) = 4 * i + 32 / 8 * (y.params.length + 1) by omega,
      BitVec.ofNat_add]
    ring
  rw [hoff]
  apply Machine.loadLE_pushAll_above e .esp _ (4 * i) (by decide)
  rw [hlen]
  omega

/-- A build that addresses its memory operands through another register than the stack pointer, at
or above where that points, is delivered. -/
theorem memOperandsSurvive_of_frame (hready : (asm y).Ready .esp place s.val e)
    (hframe : ∀ k b d, place k = .mem b d → b ≠ some .esp ∧
      ∃ off, off + 32 ≤ 2 ^ 32 ∧ e.addr b d = e.regs .esp + BitVec.ofNat 32 off) :
    MemOperandsSurvive y place s e := by
  intro i p b d hp hl
  obtain ⟨hb, off, hoff, haddr⟩ := hframe _ b d hl
  have hle := length_params_le y
  have hlen : (((y.params.drop (i + 1)).map s.val).reverse).length ≤ 7 := by
    rw [List.length_reverse, List.length_map, List.length_drop]
    omega
  have hval := ((ready_iff.mp hready).2 i p hp).2
  rw [hl] at hval
  rw [Machine.read_pushAll_above e _ hb off haddr (by decide) (by omega)]
  exact hval

/-- So is one that has no operand in memory. -/
theorem memOperandsSurvive_of_direct (hdirect : ∀ k p b d,
    (asm y).inputs[k]? = some (.general, p) → place (k + 1) ≠ .mem b d) :
    MemOperandsSurvive y place s e := by
  intro i p b d hp hl
  have hin := (asm_inputs_succ y i .general p).mpr ⟨rfl, hp⟩
  rw [Nat.add_comm 2 i] at hl
  exact absurd hl (hdirect (i + 1) p b d hin)

end Entry

/-- **When the pushed block is right.** From every state in which the operands are in place, the
statement delivers its call exactly when no argument left in memory is moved or overwritten by the
pushes before its own. -/
theorem stackDelivered_iff (y : Arity) (s : SysArgs 32) (place : Nat → Loc Reg 32)
    (e : Machine Reg 32) (hready : (asm y).Ready .esp place s.val e)
    (K : Machine Reg 32 → Machine Reg 32) (hK : ∀ m, (K m).regs .esp = m.regs .esp) :
    StackDelivered y place s K e ↔ MemOperandsSurvive y place s e := by
  unfold StackDelivered
  rw [← block_eq_iff hready]
  refine ⟨?_, ?_⟩
  · rintro ⟨-, h, -⟩
    exact h
  · intro h
    exact ⟨atTrap_eax hready, h, finish_esp hready hK⟩

/-! ## A build with a frame pointer, and one without -/

/-- A `write` of five bytes. -/
def writeFive : SysArgs 32 := { n := 4, a1 := 1, a2 := 0x1000, a3 := 5 }

/-- The address of the bytes is a local variable at `-4(%ebp)`, the other arguments are immediates. -/
def framePlace : Nat → Loc Reg 32
  | 2 => .imm 1
  | 3 => .mem (some .ebp) (-4)
  | _ => .imm 5

/-- The frame is that of a function with 16 bytes of locals, the stack pointer at their lower end. -/
def frameEntry : Machine Reg 32 where
  regs r := if r = .eax then 4 else if r = .esp then 0x8000 else if r = .ebp then 0x8010 else 0
  flag := false
  mem := storeLE (fun _ => 0) 0x800c 0x1000

theorem frameEntry_ready : (asm .three).Ready .esp framePlace writeFive.val frameEntry := by
  apply ready_iff.mpr
  refine ⟨rfl, ?_⟩
  intro i p hp
  match i, hp with
  | 0, hp => obtain rfl := Option.some.inj hp; exact ⟨(fun h => nomatch h), rfl⟩
  | 1, hp =>
      obtain rfl := Option.some.inj hp
      exact ⟨(fun h => nomatch h), loadLE_storeLE _ _ _ (by decide)⟩
  | 2, hp => obtain rfl := Option.some.inj hp; exact ⟨(fun h => nomatch h), rfl⟩

/-- The variable is in the frame, so the pushes leave it alone. -/
theorem frameEntry_survives : MemOperandsSurvive .three framePlace writeFive frameEntry := by
  apply memOperandsSurvive_of_frame frameEntry_ready
  intro k b d hk
  unfold framePlace at hk
  split at hk
  · exact nomatch hk
  · obtain ⟨rfl, rfl⟩ := Loc.mem.inj hk
    exact ⟨by decide, 12, by decide, rfl⟩
  · exact nomatch hk

/-- Such a `write` is delivered. -/
theorem stackDelivered_frame : StackDelivered .three framePlace writeFive id frameEntry :=
  (stackDelivered_iff .three writeFive framePlace frameEntry frameEntry_ready id fun _ => rfl).mpr
    frameEntry_survives

/-- A build without frame pointers keeps the second argument of a call at `4(%esp)`. -/
def espPlace : Nat → Loc Reg 32 := fun k => if k = 3 then .mem (some .esp) 4 else .imm 0

def espArgs : SysArgs 32 := { n := 4, a2 := 7 }

def espEntry : Machine Reg 32 where
  regs r := if r = .eax then 4 else if r = .esp then 0x8000 else 0
  flag := false
  mem := storeLE (fun _ => 0) 0x8004 7

theorem espEntry_ready (y : Arity) : (asm y).Ready .esp espPlace espArgs.val espEntry := by
  apply ready_iff.mpr
  refine ⟨rfl, ?_⟩
  intro i p hp
  by_cases hi : i = 1
  · subst hi
    obtain rfl : p = .a2 := by cases y <;> exact (Option.some.inj hp).symm
    exact ⟨(fun h => nomatch h), loadLE_storeLE _ _ _ (by decide)⟩
  · have hplace : espPlace (2 + i) = .imm 0 := if_neg (by omega)
    have hzero : espArgs.val p = 0 := by
      have hparams : ∀ (y : Arity), ∀ j < y.params.length, j ≠ 1 →
          ∀ q ∈ y.params[j]?, espArgs.val q = 0 := by
        intro y
        cases y <;> decide
      exact hparams y i (List.getElem?_eq_some_iff.mp hp).1 hi p hp
    rw [hplace, hzero]
    exact ⟨(fun h => nomatch h), rfl⟩

/-- The pushes of the later arguments make that operand name a word below it. -/
theorem espEntry_lost (y : Arity) : ¬ MemOperandsSurvive y espPlace espArgs espEntry := by
  intro h
  have hword := h 1 .a2 (some .esp) 4 (by cases y <;> rfl) rfl
  revert hword
  cases y <;> decide +kernel

/-- So such a build delivers nothing. -/
theorem stackDelivered_esp_relative_fails :
    ¬ ∀ (y : Arity) (s : SysArgs 32) (place : Nat → Loc Reg 32) (e : Machine Reg 32),
      (asm y).Ready .esp place s.val e →
      ∀ K : Machine Reg 32 → Machine Reg 32, (∀ m, (K m).regs .esp = m.regs .esp) →
        StackDelivered y place s K e := by
  intro h
  have hblock := (h .three espArgs espPlace espEntry (espEntry_ready .three) id fun _ => rfl).2.1
  exact espEntry_lost .three ((block_eq_iff (espEntry_ready .three)).mp hblock)

end IbSys
