/-
# IbSys.Lib.Machine -- a register machine and the instructions around a trap

A machine state is a register file, one condition flag and a memory. The register type `R` is a
parameter, so one development serves every instruction set that names its registers by a type with
decidable equality. The instructions are the few that inline system-call code puts around the trap:
a push, a constant added to or subtracted from a register, and a store relative to a register.

An operand is a location (`Loc`): an immediate, a register, or a memory word addressed through a
base register. A location is evaluated in the state *at the instruction that uses it*; this is the
one point where pushing changes what an operand means. `pushAll` with its three facts (`pushAll_sp`,
`loadLE_pushAll_word`, `loadLE_pushAll_above`) says what a run of pushes does, and `argWords_eq_iff`
when pushing a list of operands puts the intended words on the stack.
-/
import IbSys.Lib.Memory

namespace RegMachine

open ByteMemory

/-- The state of a `w`-bit machine with registers `R`. -/
structure Machine (R : Type) (w : Nat) where
  regs : R → BitVec w
  flag : Bool
  mem : Mem w

/-- Where an operand lives: an immediate, a register, or the memory word at `base + disp` (at the
absolute address `disp` when there is no base). -/
inductive Loc (R : Type) (w : Nat) where
  | imm (v : BitVec w)
  | reg (r : R)
  | mem (base : Option R) (disp : BitVec w)
  deriving DecidableEq

variable {R : Type} {w : Nat}

/-- The state with every register, the flag and every byte at 0. -/
instance : Inhabited (Machine R w) :=
  ⟨{ regs := fun _ => 0, flag := false, mem := fun _ => 0 }⟩

namespace Machine

/-- The address of a memory operand, in the current state. -/
def addr (m : Machine R w) (base : Option R) (disp : BitVec w) : BitVec w :=
  match base with
  | none => disp
  | some r => m.regs r + disp

/-- The value of an operand, in the current state. -/
def read (m : Machine R w) : Loc R w → BitVec w
  | .imm v => v
  | .reg r => m.regs r
  | .mem base disp => loadLE m.mem (m.addr base disp)

variable [DecidableEq R]

def set (m : Machine R w) (r : R) (v : BitVec w) : Machine R w :=
  { m with regs := Function.update m.regs r v }

/-- Put a value where an operand lives. An immediate is part of the instruction: nothing to do. -/
def write (m : Machine R w) (l : Loc R w) (v : BitVec w) : Machine R w :=
  match l with
  | .imm _ => m
  | .reg r => m.set r v
  | .mem base disp => { m with mem := storeLE m.mem (m.addr base disp) v }

/-- Push one word: the stack pointer moves down first, then the word is stored where it points. -/
def push (m : Machine R w) (sp : R) (v : BitVec w) : Machine R w :=
  { m with
    regs := Function.update m.regs sp (m.regs sp - BitVec.ofNat w (w / 8))
    mem := storeLE m.mem (m.regs sp - BitVec.ofNat w (w / 8)) v }

/-- Push the words of a list, its head first. -/
def pushAll (m : Machine R w) (sp : R) (vs : List (BitVec w)) : Machine R w :=
  vs.foldl (fun m v => m.push sp v) m

@[simp] theorem set_regs_self (m : Machine R w) (r : R) (v : BitVec w) : (m.set r v).regs r = v :=
  Function.update_self ..

theorem set_regs_of_ne (m : Machine R w) {r r' : R} (v : BitVec w) (h : r' ≠ r) :
    (m.set r v).regs r' = m.regs r' :=
  Function.update_of_ne h ..

/-- Writing what is there already changes nothing. -/
theorem write_eq_self (m : Machine R w) {l : Loc R w} {v : BitVec w} (hw : 8 ∣ w)
    (h : m.read l = v) : m.write l v = m := by
  subst h
  cases l with
  | imm u => rfl
  | reg r =>
      simp only [write, read, set, Function.update_eq_self]
  | mem base disp =>
      simp only [write, read]
      rw [(storeLE_eq_self_iff m.mem _ _ hw).mpr rfl]

@[simp] theorem push_sp (m : Machine R w) (sp : R) (v : BitVec w) :
    (m.push sp v).regs sp = m.regs sp - BitVec.ofNat w (w / 8) :=
  Function.update_self ..

theorem push_regs_of_ne (m : Machine R w) {sp r : R} (v : BitVec w) (h : r ≠ sp) :
    (m.push sp v).regs r = m.regs r :=
  Function.update_of_ne h ..

theorem push_mem (m : Machine R w) (sp : R) (v : BitVec w) :
    (m.push sp v).mem = storeLE m.mem (m.regs sp - BitVec.ofNat w (w / 8)) v := rfl

/-! ## A run of pushes -/

theorem pushAll_cons (m : Machine R w) (sp : R) (v : BitVec w) (vs : List (BitVec w)) :
    m.pushAll sp (v :: vs) = (m.push sp v).pushAll sp vs := rfl

theorem pushAll_concat (m : Machine R w) (sp : R) (vs : List (BitVec w)) (v : BitVec w) :
    m.pushAll sp (vs ++ [v]) = (m.pushAll sp vs).push sp v := by
  rw [pushAll, List.foldl_append]
  rfl

/-- The stack pointer after a run of pushes. -/
theorem pushAll_sp (m : Machine R w) (sp : R) (vs : List (BitVec w)) :
    (m.pushAll sp vs).regs sp = m.regs sp - BitVec.ofNat w (w / 8 * vs.length) := by
  induction vs generalizing m with
  | nil => simp [pushAll]
  | cons v vs ih =>
      rw [pushAll_cons, ih, push_sp, List.length_cons, Nat.mul_succ, BitVec.ofNat_add]
      ring

/-- Frame: a run of pushes moves no other register. -/
theorem pushAll_regs_of_ne (m : Machine R w) {sp r : R} (vs : List (BitVec w)) (h : r ≠ sp) :
    (m.pushAll sp vs).regs r = m.regs r := by
  induction vs generalizing m with
  | nil => rfl
  | cons v vs ih => rw [pushAll_cons, ih, push_regs_of_ne m v h]

/-- Frame for one push: the words at or above the old stack pointer keep their value. -/
theorem loadLE_push_above (m : Machine R w) (sp : R) (v : BitVec w) (d : Nat)
    (hw : 8 ∣ w) (hd : d + w / 8 * 2 ≤ 2 ^ w) :
    loadLE (m.push sp v).mem (m.regs sp + BitVec.ofNat w d) =
      loadLE m.mem (m.regs sp + BitVec.ofNat w d) := by
  have hoff : m.regs sp + BitVec.ofNat w d - (m.regs sp - BitVec.ofNat w (w / 8)) =
      BitVec.ofNat w (d + w / 8) := by
    rw [BitVec.ofNat_add]
    ring
  rcases Nat.eq_zero_or_pos (w / 8) with h0 | hpos
  · exact loadLE_congr hw fun i hi => absurd hi (by omega)
  · have hlt : (BitVec.ofNat w (d + w / 8)).toNat = d + w / 8 := by
      rw [BitVec.toNat_ofNat, Nat.mod_eq_of_lt (by omega)]
    rw [push_mem]
    exact loadLE_storeLE_of_disjoint _ _ _ _ hw (by rw [hoff, hlt]; omega) (by rw [hoff, hlt]; omega)

/-- Frame: a run of pushes leaves every word at or above the old stack pointer as it was. -/
theorem loadLE_pushAll_above (m : Machine R w) (sp : R) (vs : List (BitVec w)) (d : Nat)
    (hw : 8 ∣ w) (hd : d + w / 8 * (vs.length + 1) ≤ 2 ^ w) :
    loadLE (m.pushAll sp vs).mem (m.regs sp + BitVec.ofNat w d) =
      loadLE m.mem (m.regs sp + BitVec.ofNat w d) := by
  induction vs generalizing m d with
  | nil => rfl
  | cons v vs ih =>
      rw [List.length_cons, Nat.mul_succ, Nat.mul_succ] at hd
      -- seen from the lowered stack pointer, the word is one word further up
      have hup : m.regs sp + BitVec.ofNat w d =
          (m.push sp v).regs sp + BitVec.ofNat w (d + w / 8) := by
        rw [push_sp, BitVec.ofNat_add]
        ring
      rw [pushAll_cons, hup, ih (m.push sp v) (d + w / 8) (by rw [Nat.mul_succ]; omega), ← hup,
        loadLE_push_above m sp v d hw (by omega)]

/-- The words a run of pushes leaves: the last word pushed is on top of the stack. -/
theorem loadLE_pushAll_word (m : Machine R w) (sp : R) (vs : List (BitVec w)) (hw : 8 ∣ w)
    (hlen : w / 8 * vs.length ≤ 2 ^ w) {j : Nat} {v : BitVec w} (hj : vs.reverse[j]? = some v) :
    loadLE (m.pushAll sp vs).mem ((m.pushAll sp vs).regs sp + BitVec.ofNat w (w / 8 * j)) = v := by
  -- induction on the words still to push, the state generalized over those already pushed
  induction vs generalizing m j with
  | nil => simp at hj
  | cons u vs ih =>
      rw [List.length_cons, Nat.mul_succ] at hlen
      rw [List.reverse_cons] at hj
      rw [pushAll_cons]
      rcases Nat.lt_or_ge j vs.length with hlt | hge
      · rw [List.getElem?_append_left (by simpa using hlt)] at hj
        exact ih (m.push sp u) (by omega) hj
      · -- the head was pushed first: its word is the old top, which the later pushes leave alone
        have hjl : j = vs.length := by
          have hlt := (List.getElem?_eq_some_iff.mp hj).1
          simp only [List.length_append, List.length_reverse, List.length_singleton] at hlt
          omega
        subst hjl
        rw [List.getElem?_append_right (by simp)] at hj
        simp only [List.length_reverse, Nat.sub_self, List.getElem?_cons_zero,
          Option.some.injEq] at hj
        have htop : ((m.push sp u).pushAll sp vs).regs sp + BitVec.ofNat w (w / 8 * vs.length) =
            (m.push sp u).regs sp + BitVec.ofNat w 0 := by
          rw [pushAll_sp, BitVec.sub_add_cancel, BitVec.add_zero]
        rw [htop, loadLE_pushAll_above _ sp vs 0 hw (by rw [Nat.mul_succ]; omega),
          BitVec.add_zero, push_sp, push_mem, loadLE_storeLE _ _ _ hw, hj]

/-! ## A run of pushed operands -/

/-- Push the operands of an argument list, the last one first, each evaluated in the state that the
pushes before it have left. -/
def pushArgs (m : Machine R w) (sp : R) (ls : List (Loc R w)) : Machine R w :=
  ls.foldr (fun l m => m.push sp (m.read l)) m

/-- The words this puts on the stack, in argument order. -/
def argWords (m : Machine R w) (sp : R) : List (Loc R w) → List (BitVec w)
  | [] => []
  | l :: ls => (m.pushArgs sp ls).read l :: m.argWords sp ls

theorem pushArgs_cons (m : Machine R w) (sp : R) (l : Loc R w) (ls : List (Loc R w)) :
    m.pushArgs sp (l :: ls) = (m.pushArgs sp ls).push sp ((m.pushArgs sp ls).read l) := rfl

@[simp] theorem length_argWords (m : Machine R w) (sp : R) (ls : List (Loc R w)) :
    (m.argWords sp ls).length = ls.length := by
  induction ls with
  | nil => rfl
  | cons l ls ih => rw [argWords, List.length_cons, List.length_cons, ih]

theorem pushArgs_eq_pushAll (m : Machine R w) (sp : R) (ls : List (Loc R w)) :
    m.pushArgs sp ls = m.pushAll sp (m.argWords sp ls).reverse := by
  induction ls with
  | nil => rfl
  | cons l ls ih => rw [pushArgs_cons, argWords, List.reverse_cons, pushAll_concat, ← ih]

/-- **Which words are pushed.** The words on the stack are the intended ones exactly when every
operand still reads as its word after the later arguments have been pushed. -/
theorem argWords_eq_iff (m : Machine R w) (sp : R) (ls : List (Loc R w)) (vs : List (BitVec w))
    (hlen : ls.length = vs.length) :
    m.argWords sp ls = vs ↔
      ∀ i l v, ls[i]? = some l → vs[i]? = some v →
        (m.pushAll sp (vs.drop (i + 1)).reverse).read l = v := by
  induction ls generalizing vs with
  | nil =>
      obtain rfl := List.length_eq_zero_iff.mp hlen.symm
      refine iff_of_true rfl ?_
      intro i l v hl
      simp at hl
  | cons l ls ih =>
      obtain ⟨v, vs, rfl⟩ := List.exists_cons_of_length_eq_add_one hlen.symm
      have ih := ih vs (Nat.succ.inj hlen)
      rw [argWords, List.cons.injEq]
      constructor
      · rintro ⟨hv, hvs⟩ i l' v' hl' hv'
        cases i with
        | zero =>
            obtain rfl := Option.some.inj hl'
            obtain rfl := Option.some.inj hv'
            rwa [pushArgs_eq_pushAll, hvs] at hv
        | succ i => exact ih.mp hvs i l' v' hl' hv'
      · intro h
        -- the later arguments are settled first: they are pushed before this one
        have hvs : m.argWords sp ls = vs := by
          apply ih.mpr
          intro i l' v' hl' hv'
          exact h (i + 1) l' v' hl' hv'
        refine ⟨?_, hvs⟩
        rw [pushArgs_eq_pushAll, hvs]
        exact h 0 l v rfl rfl

/-- A memory operand at or above the stack pointer, but not relative to it, reads the same after a run of
pushes. -/
theorem read_pushAll_above (m : Machine R w) {sp : R} (vs : List (BitVec w)) {base : Option R}
    {disp : BitVec w} (hbase : base ≠ some sp) (d : Nat)
    (haddr : m.addr base disp = m.regs sp + BitVec.ofNat w d) (hw : 8 ∣ w)
    (hd : d + w / 8 * (vs.length + 1) ≤ 2 ^ w) :
    (m.pushAll sp vs).read (.mem base disp) = m.read (.mem base disp) := by
  have hsame : (m.pushAll sp vs).addr base disp = m.addr base disp := by
    cases base with
    | none => rfl
    | some r =>
        simp only [addr]
        rw [pushAll_regs_of_ne m vs fun hr => hbase (by rw [hr])]
  simp only [read]
  rw [hsame, haddr, loadLE_pushAll_above m sp vs d hw hd]

end Machine

/-! ## Instructions -/

/-- The source operand of an instruction: the `k`-th operand of the asm statement (`%k`), or a
register the template names. -/
inductive Src (R : Type) where
  | operand (k : Nat)
  | reg (r : R)
  deriving DecidableEq

/-- Where a source operand lives, given where the compiler has put each numbered operand. -/
def Src.loc (loc : Nat → Loc R w) : Src R → Loc R w
  | .operand k => loc k
  | .reg r => .reg r

/-- The instructions of a template other than its trap. A push names the stack pointer it uses. -/
inductive Instr (R : Type) where
  | push (sp : R) (src : Src R)
  | sub (k : Nat) (r : R)
  | add (k : Nat) (r : R)
  | mov (src : Src R) (disp : Nat) (base : R)
  deriving DecidableEq

namespace Instr

/-- The register an instruction writes, if any. -/
def dest : Instr R → Option R
  | .push sp _ => some sp
  | .sub _ r => some r
  | .add _ r => some r
  | .mov _ _ _ => none

variable [DecidableEq R]

/-- What an instruction does. A push reads its operand before it moves the stack pointer; the
arithmetic instructions set the condition flag to the borrow or the carry. -/
def effect (loc : Nat → Loc R w) : Instr R → Machine R w → Machine R w
  | .push sp src, m => m.push sp (m.read (src.loc loc))
  | .sub k r, m =>
      { m.set r (m.regs r - BitVec.ofNat w k) with flag := decide ((m.regs r).toNat < k) }
  | .add k r, m =>
      { m.set r (m.regs r + BitVec.ofNat w k) with flag := decide (2 ^ w ≤ (m.regs r).toNat + k) }
  | .mov src disp base, m =>
      { m with mem := storeLE m.mem (m.regs base + BitVec.ofNat w disp) (m.read (src.loc loc)) }

theorem effect_regs_of_ne_dest (loc : Nat → Loc R w) (i : Instr R) (m : Machine R w) {r : R}
    (h : i.dest ≠ some r) : (i.effect loc m).regs r = m.regs r := by
  cases i with
  | push sp src => exact Machine.push_regs_of_ne m _ fun hr => h (by rw [dest, hr])
  | sub k r' => exact Machine.set_regs_of_ne m _ fun hr => h (by rw [dest, hr])
  | add k r' => exact Machine.set_regs_of_ne m _ fun hr => h (by rw [dest, hr])
  | mov src disp base => rfl

end Instr

variable [DecidableEq R]

/-- Execute a straight line of instructions. -/
def runInstrs (loc : Nat → Loc R w) (is : List (Instr R)) (m : Machine R w) : Machine R w :=
  is.foldl (fun m i => i.effect loc m) m

@[simp] theorem runInstrs_nil (loc : Nat → Loc R w) (m : Machine R w) :
    runInstrs loc [] m = m := rfl

@[simp] theorem runInstrs_cons (loc : Nat → Loc R w) (i : Instr R) (is : List (Instr R))
    (m : Machine R w) : runInstrs loc (i :: is) m = runInstrs loc is (i.effect loc m) := rfl

theorem runInstrs_append (loc : Nat → Loc R w) (is js : List (Instr R)) (m : Machine R w) :
    runInstrs loc (is ++ js) m = runInstrs loc js (runInstrs loc is m) :=
  List.foldl_append

/-- A straight line of pushes of numbered operands, in descending order. -/
theorem runInstrs_pushes (loc : Nat → Loc R w) (sp : R) (ks : List Nat) (m : Machine R w) :
    runInstrs loc (ks.reverse.map fun k => .push sp (.operand k)) m =
      m.pushArgs sp (ks.map loc) := by
  unfold runInstrs Machine.pushArgs
  rw [List.foldl_map, List.foldl_reverse, List.foldr_map]
  rfl

/-- Frame: a straight line changes only the registers its instructions write. -/
theorem runInstrs_regs_of_not_mem (loc : Nat → Loc R w) (is : List (Instr R)) (m : Machine R w)
    {r : R} (h : some r ∉ is.map Instr.dest) : (runInstrs loc is m).regs r = m.regs r := by
  induction is generalizing m with
  | nil => rfl
  | cons i is ih =>
      simp only [List.map_cons, List.mem_cons, not_or] at h
      rw [runInstrs_cons, ih _ h.2, i.effect_regs_of_ne_dest loc m fun hd => h.1 hd.symm]

end RegMachine
