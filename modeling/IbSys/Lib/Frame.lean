/-
# IbSys.Lib.Frame -- what a template can do to its surroundings

The instructions around a trap move registers by constants and write words relative to a stack
pointer. So the effect of a template on any register is one sum (`runInstrs_regs`), whatever the
operands are, and the bytes it may write lie in a window below the stack pointer that can be computed
from the template alone (`staysWithin`). `Asm.Tidy` collects what a statement has to satisfy for a call
of it to leave the stack pointer and all memory outside the window as they were; `Site` is a compiled
call of a statement, and `Site.trap_mem`, `Site.leave_sp` and `Site.leave_mem` are the frame facts
about it.
-/
import IbSys.Lib.InlineAsm

namespace RegMachine

open ByteMemory

variable {R : Type} {w : Nat} [DecidableEq R]

/-! ## Registers -/

namespace Instr

/-- The constant that an instruction adds to a register. -/
def shift (w : Nat) (r : R) : Instr R → BitVec w
  | .push sp _ => if r = sp then -BitVec.ofNat w (w / 8) else 0
  | .sub k r' => if r = r' then -BitVec.ofNat w k else 0
  | .add k r' => if r = r' then BitVec.ofNat w k else 0
  | .mov _ _ _ => 0

theorem effect_regs (loc : Nat → Loc R w) (i : Instr R) (m : Machine R w) (r : R) :
    (i.effect loc m).regs r = m.regs r + i.shift w r := by
  cases i with
  | push sp src =>
      by_cases h : r = sp
      · subst h
        simp only [effect, shift, if_true, Machine.push_sp, BitVec.sub_eq_add_neg]
      · simp only [effect, shift, if_neg h, Machine.push_regs_of_ne m _ h, add_zero]
  | sub k r' =>
      by_cases h : r = r'
      · subst h
        simp only [effect, shift, if_true, Machine.set_regs_self, BitVec.sub_eq_add_neg]
      · simp only [effect, shift, if_neg h, Machine.set_regs_of_ne m _ h, add_zero]
  | add k r' =>
      by_cases h : r = r'
      · subst h
        simp only [effect, shift, if_true, Machine.set_regs_self]
      · simp only [effect, shift, if_neg h, Machine.set_regs_of_ne m _ h, add_zero]
  | mov src disp base => simp only [effect, shift, add_zero]

end Instr

/-- The constant that a straight line adds to a register. -/
def shiftAll (w : Nat) (r : R) (is : List (Instr R)) : BitVec w :=
  (is.map (Instr.shift w r)).sum

@[simp] theorem shiftAll_nil (r : R) : shiftAll w r [] = 0 := rfl

@[simp] theorem shiftAll_cons (r : R) (i : Instr R) (is : List (Instr R)) :
    shiftAll w r (i :: is) = i.shift w r + shiftAll w r is := by
  simp [shiftAll]

/-- **Registers**: a straight line moves every register by a constant, whatever its operands are. -/
theorem runInstrs_regs (loc : Nat → Loc R w) (is : List (Instr R)) (m : Machine R w) (r : R) :
    (runInstrs loc is m).regs r = m.regs r + shiftAll w r is := by
  induction is generalizing m with
  | nil => simp
  | cons i is ih => rw [runInstrs_cons, ih, i.effect_regs, shiftAll_cons, BitVec.add_assoc]

/-! ## Memory -/

/-- Bytes by which an instruction lowers a stack pointer. -/
def Instr.lowers (w : Nat) : Instr R → Nat
  | .push _ _ => w / 8
  | .sub k _ => k
  | .add _ _ | .mov _ _ _ => 0

/-- The word at offset `o` from the stack pointer lies in the `depth` bytes below it. -/
def below (w depth : Nat) (o : BitVec w) : Bool :=
  decide ((o + BitVec.ofNat w depth).toNat + w / 8 ≤ depth)

/-- The word that an instruction writes, if any, lies in the `depth` bytes below the stack pointer, when
this has moved by `o` so far. -/
def Instr.staysBelow (sp : R) (depth : Nat) (o : BitVec w) : Instr R → Bool
  | .push sp' _ => decide (sp' = sp) && below w depth (o - BitVec.ofNat w (w / 8))
  | .mov _ disp base => decide (base = sp) && below w depth (o + BitVec.ofNat w disp)
  | .sub _ _ | .add _ _ => true

/-- So does every word that a straight line writes. -/
def staysWithin (w : Nat) (sp : R) (depth : Nat) : BitVec w → List (Instr R) → Bool
  | _, [] => true
  | o, i :: is => i.staysBelow sp depth o && staysWithin w sp depth (o + i.shift w sp) is

/-- The bytes of the window of `depth` bytes below an address. -/
def window (sp : BitVec w) (depth : Nat) : Set (BitVec w) :=
  { x | (x - (sp - BitVec.ofNat w depth)).toNat < depth }

theorem window_zero (sp : BitVec w) : window sp 0 = ∅ := by
  simp [window]

theorem window_subset {d d' : Nat} (h : d ≤ d') (hd : d' < 2 ^ w) (sp : BitVec w) :
    window sp d ⊆ window sp d' := by
  intro x hx
  have hx : (x - (sp - BitVec.ofNat w d)).toNat < d := hx
  -- the lower window starts `d' - d` bytes further down
  have hoff : x - (sp - BitVec.ofNat w d') =
      x - (sp - BitVec.ofNat w d) + BitVec.ofNat w (d' - d) := by
    have hsum : BitVec.ofNat w d' = BitVec.ofNat w d + BitVec.ofNat w (d' - d) := by
      rw [← BitVec.ofNat_add, Nat.add_sub_cancel' h]
    rw [hsum]
    ring
  show (x - (sp - BitVec.ofNat w d')).toNat < d'
  rw [hoff, BitVec.toNat_add, BitVec.toNat_ofNat, Nat.mod_eq_of_lt (by omega : d' - d < 2 ^ w),
    Nat.mod_eq_of_lt (by omega)]
  omega

/-- A word below the stack pointer is in the window, so a byte outside the window is outside the word. -/
theorem storeLE_of_not_mem_window (m : Mem w) {sp o x : BitVec w} (v : BitVec w) {depth : Nat}
    (ho : below w depth o = true) (hx : x ∉ window sp depth) :
    storeLE m (sp + o) v x = m x := by
  apply storeLE_of_outside
  have ho : (o + BitVec.ofNat w depth).toNat + w / 8 ≤ depth := of_decide_eq_true ho
  have hx : depth ≤ (x - (sp - BitVec.ofNat w depth)).toNat := Nat.not_lt.mp hx
  -- both offsets are taken from the bottom of the window
  have hoff : x - (sp + o) =
      x - (sp - BitVec.ofNat w depth) - (o + BitVec.ofNat w depth) := by
    ring
  have hle : o + BitVec.ofNat w depth ≤ x - (sp - BitVec.ofNat w depth) := by
    rw [BitVec.le_def]
    omega
  rw [hoff, BitVec.toNat_sub_of_le hle]
  omega

/-- **Memory**: a straight line that stays within the window writes no byte outside it. -/
theorem runInstrs_mem_of_staysWithin (loc : Nat → Loc R w) {sp : R} {depth : Nat} {x base : BitVec w}
    (hx : x ∉ window base depth) :
    ∀ (is : List (Instr R)) (m : Machine R w) (o : BitVec w), m.regs sp = base + o →
      staysWithin w sp depth o is = true → (runInstrs loc is m).mem x = m.mem x := by
  intro is
  induction is with
  | nil => intro m o _ _; rfl
  | cons i is ih =>
      intro m o hsp h
      rw [staysWithin, Bool.and_eq_true] at h
      have hsp' : (i.effect loc m).regs sp = base + (o + i.shift w sp) := by
        rw [i.effect_regs, hsp, BitVec.add_assoc]
      rw [runInstrs_cons, ih _ _ hsp' h.2]
      cases i with
      | push sp' src =>
          obtain ⟨rfl, hb⟩ := by simpa [Instr.staysBelow] using h.1
          show storeLE m.mem (m.regs sp' - BitVec.ofNat w (w / 8)) _ x = m.mem x
          rw [hsp, BitVec.sub_eq_add_neg, BitVec.add_assoc, ← BitVec.sub_eq_add_neg]
          exact storeLE_of_not_mem_window m.mem _ hb hx
      | mov src disp sp' =>
          obtain ⟨rfl, hb⟩ := by simpa [Instr.staysBelow] using h.1
          show storeLE m.mem (m.regs sp' + BitVec.ofNat w disp) _ x = m.mem x
          rw [hsp, BitVec.add_assoc]
          exact storeLE_of_not_mem_window m.mem _ hb hx
      | sub k r => rfl
      | add k r => rfl

end RegMachine

namespace InlineAsm

open RegMachine

variable {R P : Type} {w : Nat} [DecidableEq R]

/-! ## Statements -/

/-- Bytes by which the template of a statement lowers the stack pointer before its trap. -/
def Asm.depth (A : Asm R P) (w : Nat) : Nat := (A.before.map (Instr.lowers w)).sum

/-- What a statement has to satisfy to leave its surroundings alone: no operand is pinned to the stack
pointer, the template brings this back to where it was, and writes only below it. -/
structure Asm.Tidy (A : Asm R P) (w : Nat) (sp : R) (depth : Nat) : Prop where
  unpinned : sp ∉ A.inputs.filterMap fun o => o.1.pinned
  balanced : shiftAll w sp A.before + shiftAll w sp A.after = 0
  before : staysWithin w sp depth 0 A.before = true
  after : staysWithin w sp depth (shiftAll w sp A.before) A.after = true

instance (A : Asm R P) (w : Nat) (sp : R) (depth : Nat) : Decidable (A.Tidy w sp depth) :=
  decidable_of_iff
    ((sp ∉ A.inputs.filterMap fun o => o.1.pinned) ∧
      shiftAll w sp A.before + shiftAll w sp A.after = 0 ∧
      staysWithin w sp depth 0 A.before = true ∧
      staysWithin w sp depth (shiftAll w sp A.before) A.after = true)
    ⟨fun ⟨h₁, h₂, h₃, h₄⟩ => ⟨h₁, h₂, h₃, h₄⟩, fun h => ⟨h.1, h.2, h.3, h.4⟩⟩

/-! ## Compiled calls -/

/-- A compiled call of a statement: the state of the surrounding code, and a placement of the operands
that leaves every one of them readable at the first instruction. -/
structure Site (A : Asm R P) (sp : R) (val : P → BitVec w) where
  prior : Machine R w
  place : Nat → Loc R w
  ready : A.Ready sp place val (A.load place val prior)

namespace Site

variable {A : Asm R P} {sp : R} {val : P → BitVec w}

/-- There is one for every prior state. -/
def ofPrior {scratch : R} (h : A.Spare sp scratch) (val : P → BitVec w) (m : Machine R w) :
    Site A sp val where
  prior := m
  place := A.directPlace scratch val
  ready := A.ready_load_direct h val m

/-- And one for every state in which the operands are in place. -/
def ofReady (hw : 8 ∣ w) {place : Nat → Loc R w} {m : Machine R w} (h : A.Ready sp place val m) :
    Site A sp val where
  prior := m
  place := place
  ready := by rwa [A.load_of_ready hw h]

/-- The state at the first instruction of the template. -/
def entry (s : Site A sp val) : Machine R w := A.load s.place val s.prior

/-- The state in which the kernel is entered. -/
def trap (s : Site A sp val) : Machine R w := A.atTrap s.place s.entry

/-- The state behind the template, when the kernel returns in `m`. -/
def leave (s : Site A sp val) (m : Machine R w) : Machine R w := A.finish s.place m

/-- No operand is in memory. -/
def Direct (s : Site A sp val) : Prop :=
  ∀ k p b d, A.inputs[k]? = some (.general, p) → s.place (k + 1) ≠ .mem b d

theorem ofPrior_direct {scratch : R} (h : A.Spare sp scratch) (m : Machine R w) :
    (ofPrior h val m).Direct :=
  fun _ _ b d _ => A.directPlace_ne_mem _ _ _ b d

/-- A statement whose operands are all pinned has none in memory. -/
theorem direct_of_pinned (hA : A.AllPinned = true) (s : Site A sp val) : s.Direct := by
  intro k p b d hk
  obtain ⟨r, hr⟩ := Asm.AllPinned.exists_pin hA hk
  exact nomatch hr

@[simp] theorem call_traps (s : Site A sp val) (K : Machine R w → Machine R w) :
    (A.call K s.place val s.prior).traps = [s.trap] := rfl

theorem ofReady_entry (hw : 8 ∣ w) {place : Nat → Loc R w} {m : Machine R w}
    (h : A.Ready sp place val m) : (ofReady hw h).entry = m :=
  A.load_of_ready hw h

/-- With no operand in memory, loading the operands leaves memory alone. -/
theorem entry_mem {s : Site A sp val} (h : s.Direct) : s.entry.mem = s.prior.mem := by
  apply Asm.load_mem
  intro k c p hk b d
  cases c with
  | pin r => exact fun hl => nomatch hl
  | anyReg =>
      obtain ⟨r, -, hr⟩ := s.ready.1 k .anyReg p hk
      rw [hr]
      exact fun hl => nomatch hl
  | general => exact h k p b d hk

variable {depth : Nat} (hA : A.Tidy w sp depth)
include hA

theorem entry_sp (s : Site A sp val) : s.entry.regs sp = s.prior.regs sp := by
  refine Asm.loadFrom_regs_of_ne s.place val 1 A.inputs s.prior ?_
  intro k c p hk hl
  rw [Nat.add_comm 1 k] at hl
  have hfit := s.ready.1 k c p hk
  cases c with
  | pin r =>
      obtain rfl := Loc.reg.inj hl
      exact hA.unpinned (List.mem_filterMap.mpr ⟨_, List.mem_of_getElem? hk, rfl⟩)
  | anyReg =>
      obtain ⟨r, hr, hplace⟩ := hfit
      exact hr (Loc.reg.inj (hplace.symm.trans hl))
  | general => exact hfit hl

omit hA in
theorem trap_sp (s : Site A sp val) :
    s.trap.regs sp = s.entry.regs sp + shiftAll w sp A.before := by
  rw [trap, Asm.atTrap, runInstrs_regs]

/-- Up to the trap, no byte outside the window is written. -/
theorem trap_mem (s : Site A sp val) {x : BitVec w} (hx : x ∉ window (s.entry.regs sp) depth) :
    s.trap.mem x = s.entry.mem x := by
  have hsp : s.entry.regs sp = s.entry.regs sp + 0 := (add_zero _).symm
  rw [trap, Asm.atTrap, runInstrs_mem_of_staysWithin _ hx _ _ _ hsp hA.before]

/-- When the kernel keeps the stack pointer, so does the template. -/
theorem leave_sp (s : Site A sp val) {m : Machine R w} (hm : m.regs sp = s.trap.regs sp) :
    (s.leave m).regs sp = s.entry.regs sp := by
  rw [leave, Asm.finish, runInstrs_regs, hm, s.trap_sp, add_assoc, hA.balanced, add_zero]

/-- Behind the trap, no byte outside the window is written. -/
theorem leave_mem (s : Site A sp val) {m : Machine R w} (hm : m.regs sp = s.trap.regs sp)
    {x : BitVec w} (hx : x ∉ window (s.entry.regs sp) depth) : (s.leave m).mem x = m.mem x := by
  have hsp := hm.trans s.trap_sp
  rw [leave, Asm.finish, runInstrs_mem_of_staysWithin _ hx _ _ _ hsp hA.after]

end Site

end InlineAsm
