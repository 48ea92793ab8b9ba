/-
# IbSys.Lib.InlineAsm -- extended asm statements that enter the kernel once

An extended asm statement is a template of instructions together with a contract with the compiler:
which operands it reads and where each may live, which register it returns, and which registers it
destroys. `Asm` is that statement, with its template split at the one trap it contains. `R` is the
register type and `P` names the source expressions the operands carry, so a statement is static data
and one statement serves every call.

The compiler's side is `place` (where it puts each numbered operand) and `Asm.load` (the code that
moves the values there). `Asm.Ready` is what the compiler owes: at the first instruction, every
operand is read back as its value, from a location its constraint allows. A statement whose operands
are all pinned to registers is always ready after loading (`ready_load_of_pinned`); the others are
ready under the placements that respect their constraints.
-/
import IbSys.Lib.Machine

namespace InlineAsm

open ByteMemory RegMachine

/-- Where an input operand may live: in one given register, in any register (`"r"`), or anywhere at
all (`"g"`: an immediate, a register or memory). -/
inductive Constraint (R : Type) where
  | pin (r : R)
  | anyReg
  | general
  deriving DecidableEq

variable {R P : Type} {w : Nat}

namespace Constraint

def pinned : Constraint R → Option R
  | .pin r => some r
  | _ => none

/-- The location of an operand: the pinned register, or the compiler's choice. -/
def loc : Constraint R → Loc R w → Loc R w
  | .pin r, _ => .reg r
  | _, l => l

/-- The locations a constraint allows. The stack pointer is not allocated to an operand. -/
def Fits (sp : R) : Constraint R → Loc R w → Prop
  | .pin _, _ => True
  | .anyReg, l => ∃ r, r ≠ sp ∧ l = .reg r
  | .general, l => l ≠ .reg sp

end Constraint

/-- An extended asm statement around one trap. Operand `%0` is the output; the inputs are numbered
from `%1`, each with the source expression it carries. An input tied to the output, or an output
that is also read, is an input pinned to the output's register. Two inputs are never pinned to one
register. -/
structure Asm (R P : Type) where
  before : List (Instr R) := []
  after : List (Instr R) := []
  output : R
  inputs : List (Constraint R × P)
  clobbers : List R
  clobbersFlag : Bool
  pins_nodup : (inputs.filterMap fun o => o.1.pinned).Nodup := by decide

/-- What a call returns, the states in which it entered the kernel, and the state it leaves. -/
structure Run (R : Type) (w : Nat) where
  value : BitVec w
  traps : List (Machine R w)
  mach : Machine R w

namespace Asm

/-- The registers the compiler must assume to be changed by the statement. -/
def Lists (A : Asm R P) (r : R) : Prop := r = A.output ∨ r ∈ A.clobbers

instance [DecidableEq R] (A : Asm R P) (r : R) : Decidable (A.Lists r) :=
  inferInstanceAs (Decidable (_ ∨ _))

/-- The location of operand `%k`. -/
def loc (A : Asm R P) (place : Nat → Loc R w) (k : Nat) : Loc R w :=
  match A.inputs[k - 1]? with
  | some (c, _) => c.loc (place k)
  | none => place k

/-- Every operand is given a location its constraint allows. -/
def Fits (A : Asm R P) (sp : R) (place : Nat → Loc R w) : Prop :=
  ∀ (k : Nat) (c : Constraint R) (p : P),
    A.inputs[k]? = some (c, p) → c.Fits sp (place (k + 1))

/-- What the compiler owes at the first instruction: every operand is in a location its constraint
allows, and is read back from there as its value. -/
def Ready (A : Asm R P) (sp : R) (place : Nat → Loc R w) (val : P → BitVec w)
    (m : Machine R w) : Prop :=
  A.Fits sp place ∧
    ∀ (k : Nat) (c : Constraint R) (p : P),
      A.inputs[k]? = some (c, p) → m.read (c.loc (place (k + 1))) = val p

theorem Ready.pin {A : Asm R P} {sp : R} {place : Nat → Loc R w} {val : P → BitVec w}
    {m : Machine R w} (h : A.Ready sp place val m) {r : R} {p : P}
    (hp : (Constraint.pin r, p) ∈ A.inputs) : m.regs r = val p := by
  obtain ⟨k, hk, hkp⟩ := List.mem_iff_getElem.mp hp
  exact h.2 k _ _ (List.getElem?_eq_some_iff.mpr ⟨hk, hkp⟩)

theorem Ready.operand {A : Asm R P} {sp : R} {place : Nat → Loc R w} {val : P → BitVec w}
    {m : Machine R w} (h : A.Ready sp place val m) {k : Nat} {c : Constraint R} {p : P}
    (hk : A.inputs[k]? = some (c, p)) : m.read (A.loc place (k + 1)) = val p := by
  have hl : A.loc place (k + 1) = c.loc (place (k + 1)) := by
    simp only [loc, Nat.add_sub_cancel, hk]
  rw [hl]
  exact h.2 k c p hk

/-- Every operand is pinned to a register. -/
def AllPinned (A : Asm R P) : Bool := A.inputs.all fun o => o.1.pinned.isSome

theorem AllPinned.exists_pin {A : Asm R P} (hA : A.AllPinned = true) {k : Nat} {c : Constraint R}
    {p : P} (hk : A.inputs[k]? = some (c, p)) : ∃ r, c = .pin r := by
  have hc := List.all_eq_true.mp hA _ (List.mem_of_getElem? hk)
  cases c with
  | pin r => exact ⟨r, rfl⟩
  | anyReg => simp [Constraint.pinned] at hc
  | general => simp [Constraint.pinned] at hc

/-- No two inputs are pinned to one register. -/
theorem pin_unique (A : Asm R P) {r : R} {k j : Nat} {p p' : P}
    (hk : A.inputs[k]? = some (.pin r, p)) (hj : A.inputs[j]? = some (.pin r, p')) : ¬ k < j := by
  intro hkj
  have hpw := List.pairwise_iff_getElem.mp (List.pairwise_filterMap.mp A.pins_nodup)
  obtain ⟨hk', hkv⟩ := List.getElem?_eq_some_iff.mp hk
  obtain ⟨hj', hjv⟩ := List.getElem?_eq_some_iff.mp hj
  exact hpw k j hk' hj' hkj r (by rw [hkv]; rfl) r (by rw [hjv]; rfl) rfl

/-- A placement without memory operands: an operand that may be an immediate is one, and an operand
that must be in some register is in `scratch`. -/
def directPlace (A : Asm R P) (scratch : R) (val : P → BitVec w) (k : Nat) : Loc R w :=
  match A.inputs[k - 1]? with
  | some (.anyReg, _) => .reg scratch
  | some (_, p) => .imm (val p)
  | none => .imm 0

theorem directPlace_ne_mem (A : Asm R P) (scratch : R) (val : P → BitVec w) (k : Nat)
    (b : Option R) (d : BitVec w) : A.directPlace scratch val k ≠ .mem b d := by
  unfold directPlace
  split <;> exact fun h => nomatch h

variable [DecidableEq R]

/-- Move the operands numbered from `k` to their locations. -/
def loadFrom (place : Nat → Loc R w) (val : P → BitVec w) :
    Nat → List (Constraint R × P) → Machine R w → Machine R w
  | _, [], m => m
  | k, (c, p) :: ops, m => loadFrom place val (k + 1) ops (m.write (c.loc (place k)) (val p))

/-- The compiled code in front of the template. -/
def load (A : Asm R P) (place : Nat → Loc R w) (val : P → BitVec w) (m : Machine R w) :
    Machine R w :=
  loadFrom place val 1 A.inputs m

/-- The state in which the trap is taken, from the state at the first instruction. -/
def atTrap (A : Asm R P) (place : Nat → Loc R w) (m : Machine R w) : Machine R w :=
  runInstrs (A.loc place) A.before m

/-- The rest of the template, from the state the kernel returns. -/
def finish (A : Asm R P) (place : Nat → Loc R w) (m : Machine R w) : Machine R w :=
  runInstrs (A.loc place) A.after m

/-- One execution of the statement, from the state `m` of the surrounding code; `K` is what the
kernel does to the machine. -/
def call (A : Asm R P) (K : Machine R w → Machine R w) (place : Nat → Loc R w)
    (val : P → BitVec w) (m : Machine R w) : Run R w :=
  let t := A.atTrap place (A.load place val m)
  let f := A.finish place (K t)
  { value := f.regs A.output, traps := [t], mach := f }

/-! ## Loading -/

theorem loadFrom_regs_of_ne (place : Nat → Loc R w) (val : P → BitVec w) {r : R} :
    ∀ (k : Nat) (ops : List (Constraint R × P)) (m : Machine R w),
      (∀ (i : Nat) (c : Constraint R) (p : P),
        ops[i]? = some (c, p) → c.loc (place (k + i)) ≠ .reg r) →
      (loadFrom place val k ops m).regs r = m.regs r := by
  intro k ops
  induction ops generalizing k with
  | nil => intro m _; rfl
  | cons o ops ih =>
      intro m h
      obtain ⟨c, p⟩ := o
      rw [loadFrom, ih (k + 1) _ fun i c' p' hi => by
        have := h (i + 1) c' p' (by simpa using hi)
        rwa [show k + (i + 1) = k + 1 + i by omega] at this]
      have hc : c.loc (place k) ≠ .reg r := h 0 c p rfl
      cases hl : c.loc (place k) with
      | imm v => rfl
      | reg r' => exact Machine.set_regs_of_ne m _ fun hr => hc (by rw [hl, hr])
      | mem base disp => rfl

theorem loadFrom_mem_of_ne (place : Nat → Loc R w) (val : P → BitVec w) :
    ∀ (k : Nat) (ops : List (Constraint R × P)) (m : Machine R w),
      (∀ (i : Nat) (c : Constraint R) (p : P),
        ops[i]? = some (c, p) → ∀ b d, c.loc (place (k + i)) ≠ .mem b d) →
      (loadFrom place val k ops m).mem = m.mem := by
  intro k ops
  induction ops generalizing k with
  | nil => intro m _; rfl
  | cons o ops ih =>
      intro m h
      obtain ⟨c, p⟩ := o
      rw [loadFrom, ih (k + 1) _ fun i c' p' hi => by
        have := h (i + 1) c' p' (by simpa using hi)
        rwa [show k + (i + 1) = k + 1 + i by omega] at this]
      have hc := h 0 c p rfl
      cases hl : c.loc (place k) with
      | imm v => rfl
      | reg r' => rfl
      | mem base disp => exact absurd hl (hc base disp)

/-- A register that no later operand is loaded into keeps what it was loaded with. -/
theorem loadFrom_regs_of_last (place : Nat → Loc R w) (val : P → BitVec w) {r : R} :
    ∀ (k : Nat) (ops : List (Constraint R × P)) (m : Machine R w) (i : Nat) (c : Constraint R)
      (p : P), ops[i]? = some (c, p) → c.loc (place (k + i)) = .reg r →
      (∀ (j : Nat) (c' : Constraint R) (p' : P), i < j → ops[j]? = some (c', p') →
        c'.loc (place (k + j)) ≠ .reg r) →
      (loadFrom place val k ops m).regs r = val p := by
  intro k ops
  induction ops generalizing k with
  | nil => intro m i c p hi; simp at hi
  | cons o ops ih =>
      intro m i c p hi hl hlast
      obtain ⟨c₀, p₀⟩ := o
      rw [loadFrom]
      cases i with
      | zero =>
          -- loaded here, and by no later operand
          obtain ⟨rfl, rfl⟩ := Prod.mk.inj (Option.some.inj hi)
          rw [loadFrom_regs_of_ne]
          · rw [show c₀.loc (place k) = .reg r from hl]
            exact Machine.set_regs_self m r (val p₀)
          · intro j c' p' hj
            rw [Nat.add_assoc, Nat.add_comm 1 j]
            exact hlast (j + 1) c' p' (Nat.succ_pos j) hj
      | succ i =>
          apply ih (k + 1) _ i c p hi
          · rwa [Nat.add_assoc, Nat.add_comm 1 i]
          · intro j c' p' hij hj
            rw [Nat.add_assoc, Nat.add_comm 1 j]
            exact hlast (j + 1) c' p' (Nat.succ_lt_succ hij) hj

/-- **Operands in distinct registers are always in place**: loading them one after the other leaves
every one of them readable. Immediates need no loading. -/
theorem ready_load (A : Asm R P) (sp : R) (place : Nat → Loc R w) (val : P → BitVec w)
    (m : Machine R w) (hfit : A.Fits sp place)
    (hloc : ∀ (k : Nat) (c : Constraint R) (p : P), A.inputs[k]? = some (c, p) →
      c.loc (place (k + 1)) = .imm (val p) ∨ ∃ r, c.loc (place (k + 1)) = .reg r)
    (hone : ∀ (r : R) (k j : Nat) (c c' : Constraint R) (p p' : P),
      A.inputs[k]? = some (c, p) → A.inputs[j]? = some (c', p') → k < j →
      c.loc (place (k + 1)) = .reg r → c'.loc (place (j + 1)) ≠ .reg r) :
    A.Ready sp place val (A.load place val m) := by
  refine ⟨hfit, ?_⟩
  intro k c p hk
  rcases hloc k c p hk with himm | ⟨r, hr⟩
  · rw [himm, Machine.read]
  · rw [hr, Machine.read]
    apply loadFrom_regs_of_last place val 1 A.inputs m k c p hk
    · rwa [Nat.add_comm 1 k]
    · intro j c' p' hkj hj
      rw [Nat.add_comm 1 j]
      exact hone r k j c c' p p' hk hj hkj hr

/-- Pinned operands are always in place: no two are pinned to the same register. -/
theorem ready_load_of_pinned (A : Asm R P) (hA : A.AllPinned = true) (sp : R)
    (place : Nat → Loc R w) (val : P → BitVec w) (m : Machine R w) :
    A.Ready sp place val (A.load place val m) := by
  apply ready_load
  · intro k c p hk
    obtain ⟨r, rfl⟩ := AllPinned.exists_pin hA hk
    trivial
  · intro k c p hk
    obtain ⟨r, rfl⟩ := AllPinned.exists_pin hA hk
    exact Or.inr ⟨r, rfl⟩
  · intro r k j c c' p p' hk hj hkj hr hr'
    obtain ⟨q, rfl⟩ := AllPinned.exists_pin hA hk
    obtain ⟨q', rfl⟩ := AllPinned.exists_pin hA hj
    simp only [Constraint.loc, Loc.reg.injEq] at hr hr'
    subst hr hr'
    exact A.pin_unique hk hj hkj

/-- Operands that are in place already stay as they are when they are loaded. -/
theorem load_of_ready (A : Asm R P) {sp : R} {place : Nat → Loc R w} {val : P → BitVec w}
    {m : Machine R w} (hw : 8 ∣ w) (h : A.Ready sp place val m) : A.load place val m = m := by
  have hfrom : ∀ (ops : List (Constraint R × P)) (k : Nat),
      (∀ (i : Nat) (c : Constraint R) (p : P), ops[i]? = some (c, p) →
        m.read (c.loc (place (k + i))) = val p) → loadFrom place val k ops m = m := by
    intro ops
    induction ops with
    | nil => intro k _; rfl
    | cons o ops ih =>
        intro k hops
        obtain ⟨c, p⟩ := o
        have hwrite : m.write (c.loc (place k)) (val p) = m :=
          Machine.write_eq_self m hw (hops 0 c p rfl)
        rw [loadFrom, hwrite]
        apply ih
        intro i c' p' hi
        rw [show k + 1 + i = k + (i + 1) by omega]
        exact hops (i + 1) c' p' hi
  apply hfrom
  intro i c p hi
  rw [Nat.add_comm 1 i]
  exact h.2 i c p hi

/-- The register `scratch` is free for the one operand, if any, that asks for some register. -/
def Spare (A : Asm R P) (sp scratch : R) : Prop :=
  scratch ≠ sp ∧ scratch ∉ (A.inputs.filterMap fun o => o.1.pinned) ∧
    A.inputs.Pairwise fun o o' => ¬ (o.1 = .anyReg ∧ o'.1 = .anyReg)

instance (A : Asm R P) (sp scratch : R) : Decidable (A.Spare sp scratch) :=
  inferInstanceAs (Decidable (_ ∧ _ ∧ _))

theorem ready_load_direct (A : Asm R P) {sp scratch : R} (hA : A.Spare sp scratch)
    (val : P → BitVec w) (m : Machine R w) :
    A.Ready sp (A.directPlace scratch val) val (A.load (A.directPlace scratch val) val m) := by
  obtain ⟨hsp, hpin, hany⟩ := hA
  have hplace : ∀ (k : Nat) (c : Constraint R) (p : P), A.inputs[k]? = some (c, p) →
      A.directPlace scratch val (k + 1) = if c = .anyReg then .reg scratch else .imm (val p) := by
    intro k c p hk
    simp only [directPlace, Nat.add_sub_cancel, hk]
    cases c <;> rfl
  have hfree : ∀ (k : Nat) (p : P), A.inputs[k]? ≠ some (.pin scratch, p) := by
    intro k p hk
    exact hpin (List.mem_filterMap.mpr ⟨_, List.mem_of_getElem? hk, rfl⟩)
  apply ready_load
  · intro k c p hk
    rw [hplace k c p hk]
    cases c with
    | pin r => trivial
    | anyReg => exact ⟨scratch, hsp, rfl⟩
    | general => exact fun h => nomatch h
  · intro k c p hk
    rw [hplace k c p hk]
    cases c with
    | pin r => exact Or.inr ⟨r, rfl⟩
    | anyReg => exact Or.inr ⟨scratch, rfl⟩
    | general => exact Or.inl rfl
  · intro r k j c c' p p' hk hj hkj hr hr'
    rw [hplace k c p hk] at hr
    rw [hplace j c' p' hj] at hr'
    cases c with
    | general => exact nomatch hr
    | pin q =>
        obtain rfl := Loc.reg.inj hr
        cases c' with
        | general => exact nomatch hr'
        | pin q' =>
            obtain rfl := Loc.reg.inj hr'
            exact A.pin_unique hk hj hkj
        | anyReg =>
            obtain rfl := Loc.reg.inj hr'
            exact hfree k p hk
    | anyReg =>
        obtain rfl := Loc.reg.inj hr
        cases c' with
        | general => exact nomatch hr'
        | pin q' =>
            obtain rfl := Loc.reg.inj hr'
            exact hfree j p' hj
        | anyReg =>
            obtain ⟨hk', hkv⟩ := List.getElem?_eq_some_iff.mp hk
            obtain ⟨hj', hjv⟩ := List.getElem?_eq_some_iff.mp hj
            exact List.pairwise_iff_getElem.mp hany k j hk' hj' hkj
              ⟨by rw [hkv], by rw [hjv]⟩

/-- Frame: loading pinned operands changes no other register. -/
theorem load_regs_of_pinned (A : Asm R P) (hA : A.AllPinned = true) (place : Nat → Loc R w)
    (val : P → BitVec w) (m : Machine R w) {r : R}
    (hr : r ∉ A.inputs.filterMap fun o => o.1.pinned) :
    (A.load place val m).regs r = m.regs r := by
  refine loadFrom_regs_of_ne place val 1 A.inputs m ?_
  intro i c p hi hl
  obtain ⟨r', rfl⟩ := AllPinned.exists_pin hA hi
  simp only [Constraint.loc, Loc.reg.injEq] at hl
  exact hr (List.mem_filterMap.mpr ⟨_, List.mem_of_getElem? hi, by rw [Constraint.pinned, hl]⟩)

/-- Frame: with no operand placed in memory, loading leaves memory alone. -/
theorem load_mem (A : Asm R P) {place : Nat → Loc R w} (val : P → BitVec w) (m : Machine R w)
    (h : ∀ (k : Nat) (c : Constraint R) (p : P), A.inputs[k]? = some (c, p) →
      ∀ b d, c.loc (place (k + 1)) ≠ .mem b d) :
    (A.load place val m).mem = m.mem := by
  refine loadFrom_mem_of_ne place val 1 A.inputs m ?_
  intro i c p hi b d
  rw [Nat.add_comm 1 i]
  exact h i c p hi b d

/-! ## Up to the trap -/

/-- The operand `p` is in the register `r` at the trap: it is pinned there, and the instructions in
front of the trap do not write the register. -/
def Keeps (A : Asm R P) (r : R) (p : P) : Prop :=
  (Constraint.pin r, p) ∈ A.inputs ∧ some r ∉ A.before.map Instr.dest

instance [DecidableEq P] (A : Asm R P) (r : R) (p : P) : Decidable (A.Keeps r p) :=
  inferInstanceAs (Decidable (_ ∧ _))

theorem atTrap_regs_of_keeps {A : Asm R P} {r : R} {p : P} (hA : A.Keeps r p) {sp : R}
    {place : Nat → Loc R w} {val : P → BitVec w} {m : Machine R w}
    (h : A.Ready sp place val m) : (A.atTrap place m).regs r = val p := by
  rw [atTrap, runInstrs_regs_of_not_mem _ _ _ hA.2]
  exact h.pin hA.1

/-! ## Returning -/

/-- The value of a call is what the kernel left in the output register, when the instructions after
the trap do not write that register. -/
theorem call_value (A : Asm R P) (K : Machine R w → Machine R w) (place : Nat → Loc R w)
    (val : P → BitVec w) (m : Machine R w) (h : some A.output ∉ A.after.map Instr.dest) :
    (A.call K place val m).value =
      (K (A.atTrap place (A.load place val m))).regs A.output :=
  runInstrs_regs_of_not_mem _ _ _ h

end Asm

end InlineAsm
