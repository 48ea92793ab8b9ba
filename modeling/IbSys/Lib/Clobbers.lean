/-
# IbSys.Lib.Clobbers -- when the clobber lists are right

A kernel that may change some registers, and perhaps the condition flag, is described by an `Effect`. A
statement covers it when it lists every one of those registers and, if the flag may change, lets the
compiler drop the flag. Covering is enough for every run of compiled code to end with true beliefs, and
nothing less is: an unlisted register that a trap may change makes some run of a single call end with a
false one. `soundRuns_iff` is this equivalence, for any family of statements whose templates move nothing
but the stack pointer.
-/
import IbSys.Lib.Belief
import IbSys.Lib.Frame

namespace InlineAsm

open RegMachine

variable {R P ι Args : Type} {w : Nat}

/-! ## Effects -/

/-- What a trap may change, apart from memory. -/
structure Effect (R : Type) where
  regs : List R
  flag : Bool

/-- The kernel returns `m'` from the trap state `m`, and changes no more than that. -/
def Effect.May (e : Effect R) (m m' : Machine R w) : Prop :=
  (∀ r, r ∉ e.regs → m'.regs r = m.regs r) ∧ (e.flag = false → m'.flag = m.flag)

/-- Whether the compiler keeps the flag across a statement. -/
def Asm.CarriesFlag (A : Asm R P) (implicitFlag : Bool) : Prop :=
  (A.clobbersFlag || implicitFlag) = false

/-- The statement lists whatever a trap may change. -/
def Asm.Covers (A : Asm R P) (implicitFlag : Bool) (e : Effect R) : Prop :=
  (∀ r ∈ e.regs, A.Lists r) ∧ (A.CarriesFlag implicitFlag → e.flag = false)

instance [DecidableEq R] (A : Asm R P) (implicitFlag : Bool) (e : Effect R) :
    Decidable (A.Covers implicitFlag e) :=
  inferInstanceAs (Decidable ((∀ r ∈ e.regs, A.Lists r) ∧
    ((A.clobbersFlag || implicitFlag) = false → e.flag = false)))

variable [DecidableEq R]

/-! ## Quiet templates -/

/-- The template writes no register but the stack pointer, brings this back, and does nothing to a flag
that the compiler keeps across the statement. -/
structure Asm.Quiet (A : Asm R P) (w : Nat) (sp : R) (implicitFlag : Bool) : Prop where
  unpinned : sp ∉ A.inputs.filterMap fun o => o.1.pinned
  before : ∀ i ∈ A.before, i.dest = none ∨ i.dest = some sp
  after : ∀ i ∈ A.after, i.dest = none ∨ i.dest = some sp
  balanced : shiftAll w sp A.before + shiftAll w sp A.after = 0
  flag : (A.clobbersFlag || implicitFlag) = false → A.before = [] ∧ A.after = []

instance (A : Asm R P) (w : Nat) (sp : R) (implicitFlag : Bool) :
    Decidable (A.Quiet w sp implicitFlag) :=
  decidable_of_iff
    ((sp ∉ A.inputs.filterMap fun o => o.1.pinned) ∧
      (∀ i ∈ A.before, i.dest = none ∨ i.dest = some sp) ∧
      (∀ i ∈ A.after, i.dest = none ∨ i.dest = some sp) ∧
      shiftAll w sp A.before + shiftAll w sp A.after = 0 ∧
      ((A.clobbersFlag || implicitFlag) = false → A.before = [] ∧ A.after = []))
    ⟨fun ⟨h₁, h₂, h₃, h₄, h₅⟩ => ⟨h₁, h₂, h₃, h₄, h₅⟩, fun h => ⟨h.1, h.2, h.3, h.4, h.5⟩⟩

/-- Instructions that write only `sp` move no other register. -/
theorem shiftAll_of_dest {sp r : R} (hr : r ≠ sp) {is : List (Instr R)}
    (h : ∀ i ∈ is, i.dest = none ∨ i.dest = some sp) : shiftAll w r is = 0 := by
  induction is with
  | nil => rfl
  | cons i is ih =>
      have hi : i.shift w r = 0 := by
        have hdest := h i List.mem_cons_self
        cases i with
        | mov src disp base => rfl
        | push sp' src =>
            simp only [Instr.dest, reduceCtorEq, Option.some.injEq, false_or] at hdest
            rw [Instr.shift, hdest, if_neg hr]
        | sub k r' =>
            simp only [Instr.dest, reduceCtorEq, Option.some.injEq, false_or] at hdest
            rw [Instr.shift, hdest, if_neg hr]
        | add k r' =>
            simp only [Instr.dest, reduceCtorEq, Option.some.injEq, false_or] at hdest
            rw [Instr.shift, hdest, if_neg hr]
      rw [shiftAll_cons, hi, ih fun j hj => h j (List.mem_cons_of_mem _ hj), add_zero]

namespace Asm.Quiet

variable {A : Asm R P} {sp : R} {implicitFlag : Bool} (hA : A.Quiet w sp implicitFlag)
include hA

theorem shift_eq_zero (r : R) : shiftAll w r A.before + shiftAll w r A.after = 0 := by
  by_cases hr : r = sp
  · rw [hr]
    exact hA.balanced
  · rw [shiftAll_of_dest hr hA.before, shiftAll_of_dest hr hA.after, add_zero]

/-- What the kernel adds to a register at the trap is added to it over the statement. -/
theorem finish_regs {place : Nat → Loc R w} {e m : Machine R w} {r : R} {d : BitVec w}
    (h : m.regs r = (A.atTrap place e).regs r + d) :
    (A.finish place m).regs r = e.regs r + d := by
  have hzero := hA.shift_eq_zero r
  rw [Asm.finish, runInstrs_regs, h, Asm.atTrap, runInstrs_regs]
  calc e.regs r + shiftAll w r A.before + d + shiftAll w r A.after
      = e.regs r + d + (shiftAll w r A.before + shiftAll w r A.after) := by ring
    _ = e.regs r + d := by rw [hzero, add_zero]

theorem keeps_of_pin {r : R} {p : P} (hp : (Constraint.pin r, p) ∈ A.inputs) : A.Keeps r p := by
  refine ⟨hp, ?_⟩
  intro hin
  obtain ⟨i, hi, hdest⟩ := List.mem_map.mp hin
  rcases hA.before i hi with h | h
  · exact nomatch hdest.symm.trans h
  · obtain rfl : r = sp := Option.some.inj (hdest.symm.trans h)
    exact hA.unpinned (List.mem_filterMap.mpr ⟨_, hp, rfl⟩)

theorem finish_pin {place : Nat → Loc R w} {m : Machine R w} {r : R} {p : P}
    (hp : (Constraint.pin r, p) ∈ A.inputs) : (A.finish place m).regs r = m.regs r := by
  have hr : r ≠ sp := by
    rintro rfl
    exact hA.unpinned (List.mem_filterMap.mpr ⟨_, hp, rfl⟩)
  rw [Asm.finish, runInstrs_regs, shiftAll_of_dest hr hA.after, add_zero]

end Asm.Quiet

/-! ## Runs -/

/-- Compiled code over a family of statements and a kernel with a given effect. -/
def Interface.ofEffect (stmt : ι → Asm R P) (val : Args → P → BitVec w) (sp : R) (implicitFlag : Bool)
    (e : Effect R) : Interface R P ι Args w where
  stmt := stmt
  val := val
  sp := sp
  implicitFlag := implicitFlag
  kernel := e.May

/-- Every run that begins with true beliefs ends with true ones. -/
def Interface.SoundRuns (I : Interface R P ι Args w) : Prop :=
  ∀ (c d : Config R w) (cs : List (Call R ι Args w)),
    Exec I c cs d → c.belief.Sound c.mach → d.belief.Sound d.mach

/-- Every call of a run is compiled and answered as the interface allows. -/
theorem Exec.allowed {I : Interface R P ι Args w} {c d : Config R w} {cs : List (Call R ι Args w)}
    (hrun : Exec I c cs d) : ∀ k ∈ cs, k.Allowed I := by
  induction hrun with
  | nil => exact fun k hk => absurd hk List.not_mem_nil
  | load r v h ih => exact ih
  | compare f h ih => exact ih
  | call k h hk ih =>
      intro k' hk'
      rcases List.mem_append.mp hk' with hin | hlast
      · exact ih k' hin
      · obtain rfl := List.mem_singleton.mp hlast
        exact hk

section Effect

variable {stmt : ι → Asm R P} {val : Args → P → BitVec w} {sp : R} {implicitFlag : Bool}
  {e : Effect R} (hquiet : ∀ i, (stmt i).Quiet w sp implicitFlag)
include hquiet

theorem lawful_of_covers (hcov : ∀ i, (stmt i).Covers implicitFlag e) :
    (Interface.ofEffect stmt val sp implicitFlag e).Lawful where
  kept i place e' m r hk hl _ := by
    have hkeep : m.regs r = ((stmt i).atTrap place e').regs r + 0 := by
      rw [add_zero]
      exact hk.1 r fun hin => hl ((hcov i).1 r hin)
    rw [← add_zero (e'.regs r)]
    exact (hquiet i).finish_regs hkeep
  finish_pin i place m r p hp := (hquiet i).finish_pin hp
  finish_flag i place m hf := by
    show (runInstrs _ (stmt i).after m).flag = m.flag
    rw [((hquiet i).flag hf).2, runInstrs_nil]

/-- Where the lists cover the effect, no answer of the kernel does harm. -/
theorem harmless_of_covers (hcov : ∀ i, (stmt i).Covers implicitFlag e) {c : Call R ι Args w}
    (hs : c.entry.belief.Sound c.entry.mach)
    (hk : c.Allowed (Interface.ofEffect stmt val sp implicitFlag e)) :
    c.Harmless (Interface.ofEffect stmt val sp implicitFlag e) := by
  refine ⟨?_, ?_⟩
  · intro r p hp hl
    rw [hk.2.1 r fun hin => hl ((hcov c.index).1 r hin)]
    exact Asm.atTrap_regs_of_keeps ((hquiet c.index).keeps_of_pin hp) (hk.1.ready hs)
  · intro hf f hb
    have hflag : c.ret.flag = ((stmt c.index).atTrap c.place c.entry.mach).flag :=
      hk.2.2 ((hcov c.index).2 hf)
    rw [hflag, Asm.atTrap, ((hquiet c.index).flag hf).1, runInstrs_nil]
    exact hs.2 f hb

/-- **Run.** Where the lists cover the effect, every statement of a run finds its operands in place, and
the beliefs at the end are true. -/
theorem Exec.sound_of_covers (hcov : ∀ i, (stmt i).Covers implicitFlag e) {c d : Config R w}
    {cs : List (Call R ι Args w)}
    (hrun : Exec (Interface.ofEffect stmt val sp implicitFlag e) c cs d)
    (h0 : c.belief.Sound c.mach) :
    (∀ k ∈ cs, (stmt k.index).Ready sp k.place (val k.args) k.entry.mach) ∧
      d.belief.Sound d.mach :=
  hrun.sound (lawful_of_covers hquiet hcov) h0 fun _ _ hs hk =>
    harmless_of_covers hquiet hcov hs hk

end Effect

omit [DecidableEq R] in
/-- A compiler that knows every register believes that the operands are in place, when they are and none
is in memory. -/
theorem Belief.full_inPlace {A : Asm R P} {sp : R} {place : Nat → Loc R w} {val : P → BitVec w}
    {m : Machine R w} (h : A.Ready sp place val m)
    (hmem : ∀ (k : Nat) (c : Constraint R) (p : P), A.inputs[k]? = some (c, p) →
      ∀ b d, c.loc (place (k + 1)) ≠ .mem b d) :
    (Belief.full m).InPlace A sp place val := by
  refine ⟨h.1, ?_⟩
  intro k c p hk
  have hval := h.2 k c p hk
  cases hl : c.loc (place (k + 1)) with
  | imm v =>
      rw [hl] at hval
      exact hval
  | reg r =>
      rw [hl] at hval
      exact congrArg some hval
  | mem b d => exact absurd hl (hmem k c p hk b d)

section Converse

variable {stmt : ι → Asm R P} {val : Args → P → BitVec w} {sp scratch : R} {implicitFlag : Bool}
  {e : Effect R}

/-- A call with its operands just loaded, all of which the compiler knows. -/
def Call.fresh (stmt : ι → Asm R P) (val : Args → P → BitVec w) (scratch : R) (i : ι) (a : Args)
    (m : Machine R w) (ret : Machine R w → Machine R w) : Call R ι Args w :=
  let place := (stmt i).directPlace scratch (val a)
  let entry := (stmt i).load place (val a) m
  { index := i, args := a, place := place, entry := ⟨.full entry, entry⟩
    ret := ret ((stmt i).atTrap place entry) }

theorem Call.fresh_allowed {i : ι} (hspare : (stmt i).Spare sp scratch) (a : Args)
    (m : Machine R w) {ret : Machine R w → Machine R w} (hret : ∀ m, e.May m (ret m)) :
    (Call.fresh stmt val scratch i a m ret).Allowed
      (Interface.ofEffect stmt val sp implicitFlag e) := by
  refine ⟨Belief.full_inPlace ((stmt i).ready_load_direct hspare (val a) m) ?_, hret _⟩
  intro k c p hk b d
  cases c with
  | pin r => exact fun h => nomatch h
  | anyReg => exact (stmt i).directPlace_ne_mem _ _ _ b d
  | general => exact (stmt i).directPlace_ne_mem _ _ _ b d

/-- **When the lists are right.** For statements with quiet templates, every run of compiled code ends
with true beliefs exactly when every statement covers the effect of the kernel. -/
theorem soundRuns_iff (hw : 0 < w) (hquiet : ∀ i, (stmt i).Quiet w sp implicitFlag)
    (hspare : ∀ i, (stmt i).Spare sp scratch) [Inhabited Args] :
    (Interface.ofEffect stmt val sp implicitFlag e).SoundRuns ↔
      ∀ i, (stmt i).Covers implicitFlag e := by
  refine ⟨?_, fun hcov c d cs hrun h0 => (hrun.sound_of_covers hquiet hcov h0).2⟩
  intro hsound i
  -- one call of the statement, which the kernel answers with `ret`
  have hone : ∀ ret : Machine R w → Machine R w, (∀ m, e.May m (ret m)) →
      let c := Call.fresh stmt val scratch i default default ret
      (c.leave (Interface.ofEffect stmt val sp implicitFlag e)).belief.Sound
        (c.leave (Interface.ofEffect stmt val sp implicitFlag e)).mach := by
    intro ret hret c
    exact hsound _ _ _ (Exec.call c (Exec.nil c.entry) (Call.fresh_allowed (hspare i) _ _ hret))
      (Belief.full_sound _)
  let place := (stmt i).directPlace scratch (val default)
  let entry := (stmt i).load place (val default) default
  refine ⟨?_, ?_⟩
  · intro r hr
    by_contra hl
    -- the kernel adds one to the register
    have hs := hone (fun m => m.set r (m.regs r + 1)) fun m =>
      ⟨fun r' hr' => Machine.set_regs_of_ne m _ fun h => hr' (h ▸ hr), fun _ => rfl⟩
    have hkept := hs.1 r _ (Belief.after_reg_of_not_lists hl)
    let trap := (stmt i).atTrap place entry
    have hmoved : ((stmt i).finish place (trap.set r (trap.regs r + 1))).regs r = entry.regs r + 1 :=
      (hquiet i).finish_regs (Machine.set_regs_self trap r _)
    have hone : (1 : BitVec w) = 0 := add_left_cancel (hmoved.symm.trans (hkept.trans (add_zero _).symm))
    have hnat := congrArg BitVec.toNat hone
    have hlt : 1 < 2 ^ w := Nat.one_lt_two_pow (Nat.ne_of_gt hw)
    simp [Nat.mod_eq_of_lt hlt] at hnat
  · intro hf
    by_contra hflag
    -- the kernel turns the flag over
    have hs := hone (fun m => { m with flag := !m.flag }) fun m =>
      ⟨fun _ _ => rfl, fun h => absurd h hflag⟩
    have hkept := hs.2 _ (Belief.after_flag_eq_some.mpr ⟨hf, rfl⟩)
    obtain ⟨hbefore, hafter⟩ := (hquiet i).flag hf
    simp only [Call.leave, Call.fresh, Interface.ofEffect, Asm.finish, Asm.atTrap, hbefore, hafter,
      runInstrs_nil, Belief.full] at hkept
    simp at hkept

end Converse

end InlineAsm
