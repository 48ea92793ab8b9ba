/-
# IbSys.Lib.Belief -- what a compiler takes to survive a trap

An asm statement lists an output and some clobbers, and so promises that everything else survives it.
A compiler that takes the promise at its word keeps values in registers across the statement and does
not load them again. `Belief` is what such a compiler knows of the machine; `Belief.after` forgets what
a statement lists and nothing else. `Exec` is compiled code: it loads registers, compares, and executes
a statement whenever it believes the operands to be in place.

Whether the beliefs are true is a matter of what the kernel does. `Call.sound_leave_iff` says which
answers of the kernel keep them true, and `Exec.sound` carries this through a run of any length: as
long as every answer is harmless, every statement finds its operands in place.
-/
import IbSys.Lib.InlineAsm

namespace InlineAsm

open RegMachine

variable {R P ι Args : Type} {w : Nat}

/-! ## Beliefs -/

/-- The registers whose value the compiler knows, and the condition flag if it knows it. -/
structure Belief (R : Type) (w : Nat) where
  reg : R → Option (BitVec w)
  flag : Option Bool

namespace Belief

/-- Everything believed is true. -/
def Sound (b : Belief R w) (m : Machine R w) : Prop :=
  (∀ r v, b.reg r = some v → m.regs r = v) ∧ ∀ f, b.flag = some f → m.flag = f

/-- The beliefs of a compiler that knows every register and the flag. -/
def full (m : Machine R w) : Belief R w where
  reg r := some (m.regs r)
  flag := some m.flag

theorem full_sound (m : Machine R w) : (full m).Sound m :=
  ⟨fun _ _ h => Option.some.inj h, fun _ h => Option.some.inj h⟩

/-- The operand is believed to be at the location. Memory is not tracked, so no operand is ever believed
to be there, and what is said of runs is about statements that take none of their operands from memory. -/
def Holds (b : Belief R w) : Loc R w → BitVec w → Prop
  | .imm u, v => u = v
  | .reg r, v => b.reg r = some v
  | .mem _ _, _ => False

/-- Every operand of the statement is believed to be in place. -/
def InPlace (b : Belief R w) (A : Asm R P) (sp : R) (place : Nat → Loc R w)
    (val : P → BitVec w) : Prop :=
  A.Fits sp place ∧
    ∀ (k : Nat) (c : Constraint R) (p : P),
      A.inputs[k]? = some (c, p) → b.Holds (c.loc (place (k + 1))) (val p)

/-- True beliefs about the operands: the statement finds them in place. -/
theorem InPlace.ready {b : Belief R w} {A : Asm R P} {sp : R} {place : Nat → Loc R w}
    {val : P → BitVec w} {m : Machine R w} (h : b.InPlace A sp place val) (hs : b.Sound m) :
    A.Ready sp place val m := by
  refine ⟨h.1, ?_⟩
  intro k c p hk
  have hb := h.2 k c p hk
  cases hl : c.loc (place (k + 1)) with
  | imm v =>
      rw [hl] at hb
      exact hb
  | reg r =>
      rw [hl] at hb
      exact hs.1 r _ hb
  | mem base disp =>
      rw [hl] at hb
      exact hb.elim

theorem InPlace.pin {b : Belief R w} {A : Asm R P} {sp : R} {place : Nat → Loc R w}
    {val : P → BitVec w} (h : b.InPlace A sp place val) {r : R} {p : P}
    (hp : (Constraint.pin r, p) ∈ A.inputs) : b.reg r = some (val p) := by
  obtain ⟨k, hk, hkp⟩ := List.mem_iff_getElem.mp hp
  exact h.2 k _ _ (List.getElem?_eq_some_iff.mpr ⟨hk, hkp⟩)

/-- With every operand pinned, beliefs about the registers are enough. -/
theorem inPlace_of_pinned {b : Belief R w} {A : Asm R P} (hA : A.AllPinned = true) (sp : R)
    (place : Nat → Loc R w) {val : P → BitVec w}
    (h : ∀ r p, (Constraint.pin r, p) ∈ A.inputs → b.reg r = some (val p)) :
    b.InPlace A sp place val := by
  refine ⟨?_, ?_⟩
  · intro k c p hk
    obtain ⟨r, rfl⟩ := Asm.AllPinned.exists_pin hA hk
    trivial
  · intro k c p hk
    obtain ⟨r, rfl⟩ := Asm.AllPinned.exists_pin hA hk
    exact h r p (List.mem_of_getElem? hk)

def learnFlag (b : Belief R w) (f : Bool) : Belief R w := { b with flag := some f }

theorem Sound.learnFlag {b : Belief R w} {m : Machine R w} (h : b.Sound m) (f : Bool) :
    (b.learnFlag f).Sound { m with flag := f } := by
  refine ⟨h.1, ?_⟩
  intro f' hf
  exact Option.some.inj hf

variable [DecidableEq R]

def learn (b : Belief R w) (r : R) (v : BitVec w) : Belief R w :=
  { b with reg := Function.update b.reg r (some v) }

/-- A statement destroys what it lists: the output, the clobbers and, where the flag is among them or
the compiler drops it at every statement, the flag. -/
def after (b : Belief R w) (A : Asm R P) (implicitFlag : Bool) : Belief R w where
  reg r := if A.Lists r then none else b.reg r
  flag := if A.clobbersFlag || implicitFlag then none else b.flag

theorem Sound.learn {b : Belief R w} {m : Machine R w} (h : b.Sound m) (r : R) (v : BitVec w) :
    (b.learn r v).Sound (m.set r v) := by
  refine ⟨?_, h.2⟩
  intro r' v' hb
  by_cases hr : r' = r
  · subst hr
    simp only [Belief.learn, Function.update_self, Option.some.injEq] at hb
    rw [Machine.set_regs_self, hb]
  · simp only [Belief.learn, Function.update_of_ne hr] at hb
    rw [Machine.set_regs_of_ne m v hr]
    exact h.1 r' v' hb

theorem after_reg_of_not_lists {b : Belief R w} {A : Asm R P} {implicitFlag : Bool} {r : R}
    (h : ¬ A.Lists r) : (b.after A implicitFlag).reg r = b.reg r :=
  if_neg h

theorem not_lists_of_after_reg {b : Belief R w} {A : Asm R P} {implicitFlag : Bool} {r : R}
    {v : BitVec w} (h : (b.after A implicitFlag).reg r = some v) : ¬ A.Lists r := by
  intro hl
  have hnone : (b.after A implicitFlag).reg r = none := if_pos hl
  rw [hnone] at h
  exact nomatch h

theorem after_flag_eq_some {b : Belief R w} {A : Asm R P} {implicitFlag f : Bool} :
    (b.after A implicitFlag).flag = some f ↔
      (A.clobbersFlag || implicitFlag) = false ∧ b.flag = some f := by
  unfold after
  cases A.clobbersFlag || implicitFlag <;> simp

end Belief

/-! ## Compiled runs -/

/-- What compiled code is built on: the statements it may execute, the words their operands carry for
given arguments, the stack pointer, whether the compiler drops the flag at every statement, and what
the kernel may do at a trap. -/
structure Interface (R P ι Args : Type) (w : Nat) where
  stmt : ι → Asm R P
  val : Args → P → BitVec w
  sp : R
  implicitFlag : Bool
  kernel : Machine R w → Machine R w → Prop

/-- What the compiler believes, and what is the case. -/
structure Config (R : Type) (w : Nat) where
  belief : Belief R w
  mach : Machine R w

/-- The record of one executed statement: which one, for which arguments, with which placement, in
which configuration, and the state the kernel gave back. -/
structure Call (R ι Args : Type) (w : Nat) where
  index : ι
  args : Args
  place : Nat → Loc R w
  entry : Config R w
  ret : Machine R w

variable [DecidableEq R] (I : Interface R P ι Args w)

/-- The state in which the call enters the kernel. -/
def Call.trap (c : Call R ι Args w) : Machine R w :=
  (I.stmt c.index).atTrap c.place c.entry.mach

/-- The configuration behind a call. -/
def Call.leave (c : Call R ι Args w) : Config R w where
  belief := c.entry.belief.after (I.stmt c.index) I.implicitFlag
  mach := (I.stmt c.index).finish c.place c.ret

/-- The call is compiled and answered as the interface allows: its operands are believed to be in
place, and the kernel does what it may do. -/
def Call.Allowed (c : Call R ι Args w) : Prop :=
  c.entry.belief.InPlace (I.stmt c.index) I.sp c.place (I.val c.args) ∧
    I.kernel (c.trap I) c.ret

/-- Runs of compiled code, with the calls they make. -/
inductive Exec : Config R w → List (Call R ι Args w) → Config R w → Prop where
  | nil (c : Config R w) : Exec c [] c
  | load {c d : Config R w} {cs : List (Call R ι Args w)} (r : R) (v : BitVec w)
      (h : Exec c cs d) : Exec c cs ⟨d.belief.learn r v, d.mach.set r v⟩
  | compare {c d : Config R w} {cs : List (Call R ι Args w)} (f : Bool)
      (h : Exec c cs d) : Exec c cs ⟨d.belief.learnFlag f, { d.mach with flag := f }⟩
  | call {c : Config R w} {cs : List (Call R ι Args w)} (k : Call R ι Args w)
      (h : Exec c cs k.entry) (hk : k.Allowed I) : Exec c (cs ++ [k]) (k.leave I)

/-! ## When the beliefs stay true -/

/-- Apart from its own operands, a statement lists every register that changes over it; its template
does not touch a pinned operand once the kernel has returned, nor a flag that it does not list. -/
structure Interface.Lawful : Prop where
  kept : ∀ (i : ι) (place : Nat → Loc R w) (e m : Machine R w) (r : R),
    I.kernel ((I.stmt i).atTrap place e) m → ¬ (I.stmt i).Lists r →
    (∀ p, (Constraint.pin r, p) ∉ (I.stmt i).inputs) →
    ((I.stmt i).finish place m).regs r = e.regs r
  finish_pin : ∀ (i : ι) (place : Nat → Loc R w) (m : Machine R w) (r : R) (p : P),
    (Constraint.pin r, p) ∈ (I.stmt i).inputs →
    ((I.stmt i).finish place m).regs r = m.regs r
  finish_flag : ∀ (i : ι) (place : Nat → Loc R w) (m : Machine R w),
    ((I.stmt i).clobbersFlag || I.implicitFlag) = false →
    ((I.stmt i).finish place m).flag = m.flag

/-- The answer of the kernel does the compiler no harm: every register that the statement lists as an
input only still holds the operand, and a flag carried across the statement is as it was. -/
def Call.Harmless (c : Call R ι Args w) : Prop :=
  (∀ r p, (Constraint.pin r, p) ∈ (I.stmt c.index).inputs → ¬ (I.stmt c.index).Lists r →
    c.ret.regs r = I.val c.args p) ∧
  (((I.stmt c.index).clobbersFlag || I.implicitFlag) = false →
    ∀ f, c.entry.belief.flag = some f → c.ret.flag = f)

variable {I}

/-- **Step.** From true beliefs, an allowed call leaves true beliefs exactly when its answer is
harmless. -/
theorem Call.sound_leave_iff (hI : I.Lawful) {c : Call R ι Args w}
    (hs : c.entry.belief.Sound c.entry.mach) (hk : c.Allowed I) :
    (c.leave I).belief.Sound (c.leave I).mach ↔ c.Harmless I := by
  obtain ⟨hplace, hkernel⟩ := hk
  constructor
  · rintro ⟨hreg, hflag⟩
    refine ⟨?_, ?_⟩
    · intro r p hp hl
      rw [← hI.finish_pin c.index c.place c.ret r p hp]
      apply hreg
      show (c.entry.belief.after _ _).reg r = _
      rw [Belief.after_reg_of_not_lists hl]
      exact hplace.pin hp
    · intro hl f hf
      rw [← hI.finish_flag c.index c.place c.ret hl]
      exact hflag f (Belief.after_flag_eq_some.mpr ⟨hl, hf⟩)
  · rintro ⟨hpin, hflag⟩
    refine ⟨?_, ?_⟩
    · intro r v hb
      have hl := Belief.not_lists_of_after_reg hb
      change (c.entry.belief.after _ _).reg r = some v at hb
      rw [Belief.after_reg_of_not_lists hl] at hb
      show ((I.stmt c.index).finish c.place c.ret).regs r = v
      -- a register that is still believed is an operand, or none of the statement's business
      by_cases hin : ∃ p, (Constraint.pin r, p) ∈ (I.stmt c.index).inputs
      · obtain ⟨p, hp⟩ := hin
        rw [hI.finish_pin c.index c.place c.ret r p hp, hpin r p hp hl]
        exact Option.some.inj ((hplace.pin hp).symm.trans hb)
      · rw [hI.kept c.index c.place c.entry.mach c.ret r hkernel hl fun p hp => hin ⟨p, hp⟩]
        exact hs.1 r v hb
    · intro f hf
      obtain ⟨hl, hbf⟩ := Belief.after_flag_eq_some.mp hf
      show ((I.stmt c.index).finish c.place c.ret).flag = f
      rw [hI.finish_flag c.index c.place c.ret hl]
      exact hflag hl f hbf

/-- **Run.** As long as every answer to a call from true beliefs is harmless, every statement of a run
finds its operands in place, and the beliefs at the end are true. -/
theorem Exec.sound (hI : I.Lawful) {c d : Config R w} {cs : List (Call R ι Args w)}
    (hrun : Exec I c cs d) (h0 : c.belief.Sound c.mach)
    (hok : ∀ k ∈ cs, k.entry.belief.Sound k.entry.mach → k.Allowed I → k.Harmless I) :
    (∀ k ∈ cs, (I.stmt k.index).Ready I.sp k.place (I.val k.args) k.entry.mach) ∧
      d.belief.Sound d.mach := by
  -- induction on the run; only a call can make a belief false
  induction hrun with
  | nil => exact ⟨(fun k hk => nomatch hk), h0⟩
  | load r v h ih =>
      obtain ⟨hready, hs⟩ := ih hok
      exact ⟨hready, hs.learn r v⟩
  | compare f h ih =>
      obtain ⟨hready, hs⟩ := ih hok
      exact ⟨hready, hs.learnFlag f⟩
  | call k h hk ih =>
      obtain ⟨hready, hs⟩ := ih fun k' hk' => hok k' (List.mem_append_left _ hk')
      have hharm := hok k (List.mem_append_right _ List.mem_cons_self) hs hk
      refine ⟨?_, (Call.sound_leave_iff hI hs hk).mpr hharm⟩
      intro k' hk'
      rcases List.mem_append.mp hk' with hin | hlast
      · exact hready k' hin
      · obtain rfl := List.mem_singleton.mp hlast
        exact hk.1.ready hs

end InlineAsm
