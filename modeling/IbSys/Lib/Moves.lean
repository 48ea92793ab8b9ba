/-
# IbSys.Lib.Moves -- statements that move their own operands

Instead of having the compiler put an operand in the register where a kernel reads it, a statement can
take it from anywhere and move it there itself. The moves come one after the other, so a move may spoil
what a later one reads: the compiler is free to put an operand in any register that the statement does
not list as clobbered. `MoveAsm.lands_iff` says exactly when the moves are right under every placement:
each destination that is written before some operand with a free choice is moved has to be listed.
-/
import IbSys.Lib.InlineAsm

namespace RegMachine

variable {R : Type} {w : Nat}

/-! ## Moves into registers -/

/-- The register that a location is read through, if any. -/
def Loc.through : Loc R w → Option R
  | .imm _ => none
  | .reg r => some r
  | .mem base _ => base

variable [DecidableEq R]

theorem Machine.read_set_of_ne (m : Machine R w) {l : Loc R w} {r : R} (v : BitVec w)
    (h : l.through ≠ some r) : (m.set r v).read l = m.read l := by
  cases l with
  | imm u => rfl
  | reg r' =>
      refine Machine.set_regs_of_ne m v ?_
      rintro rfl
      exact h rfl
  | mem base disp =>
      have haddr : (m.set r v).addr base disp = m.addr base disp := by
        cases base with
        | none => rfl
        | some b =>
            have hb : b ≠ r := by
              rintro rfl
              exact h rfl
            simp only [Machine.addr, Machine.set_regs_of_ne m v hb]
      simp only [Machine.read, haddr]
      rfl

/-- Move each location into its register, one after the other. -/
def moveAll (ms : List (Loc R w × R)) (m : Machine R w) : Machine R w :=
  ms.foldl (fun m x => m.set x.2 (m.read x.1)) m

theorem moveAll_cons (x : Loc R w × R) (ms : List (Loc R w × R)) (m : Machine R w) :
    moveAll (x :: ms) m = moveAll ms (m.set x.2 (m.read x.1)) := rfl

theorem moveAll_append (ms ms' : List (Loc R w × R)) (m : Machine R w) :
    moveAll (ms ++ ms') m = moveAll ms' (moveAll ms m) :=
  List.foldl_append

/-- Frame: the moves write no memory. -/
@[simp] theorem moveAll_mem (ms : List (Loc R w × R)) (m : Machine R w) :
    (moveAll ms m).mem = m.mem := by
  induction ms generalizing m with
  | nil => rfl
  | cons x ms ih =>
      rw [moveAll_cons, ih]
      rfl

/-- Frame: they change only their destinations. -/
theorem moveAll_regs_of_not_mem {ms : List (Loc R w × R)} {r : R} (h : r ∉ ms.map Prod.snd)
    (m : Machine R w) : (moveAll ms m).regs r = m.regs r := by
  induction ms generalizing m with
  | nil => rfl
  | cons x ms ih =>
      simp only [List.map_cons, List.mem_cons, not_or] at h
      rw [moveAll_cons, ih h.2, Machine.set_regs_of_ne m _ h.1]

/-- **Sequential moves.** When no move spoils what a later one reads, each destination ends with what
its source held at first, as if all had been moved at once. -/
theorem moveAll_regs {ms : List (Loc R w × R)} (hdest : (ms.map Prod.snd).Nodup)
    (hclear : ms.Pairwise fun x y => y.1.through ≠ some x.2) (m : Machine R w) :
    ∀ x ∈ ms, (moveAll ms m).regs x.2 = m.read x.1 := by
  induction ms generalizing m with
  | nil => exact fun x hx => absurd hx List.not_mem_nil
  | cons x ms ih =>
      rw [List.map_cons, List.nodup_cons] at hdest
      rw [List.pairwise_cons] at hclear
      intro y hy
      rw [moveAll_cons]
      rcases List.mem_cons.mp hy with rfl | hin
      · rw [moveAll_regs_of_not_mem hdest.1, Machine.set_regs_self]
      · rw [ih hdest.2 hclear.2 _ y hin, Machine.read_set_of_ne m _ (hclear.1 y hin)]

end RegMachine

namespace InlineAsm

open RegMachine

/-! ## Statements -/

/-- Where an operand may live: in one given register, anywhere (`"g"`), or in the instruction itself
(`"i"`). -/
inductive Operand (R : Type) where
  | pin (r : R)
  | general
  | const
  deriving DecidableEq

variable {R P : Type} {w : Nat}

namespace Operand

def loc : Operand R → Loc R w → Loc R w
  | .pin r, _ => .reg r
  | _, l => l

/-- The locations a compiler may choose. It takes no register that the statement clobbers, neither for
the operand nor for its address. -/
def Allows (sp : R) (clobbers : List R) : Operand R → Loc R w → Prop
  | .pin _, _ => True
  | .general, l => l ≠ .reg sp ∧ ∀ r ∈ clobbers, l.through ≠ some r
  | .const, l => ∃ v, l = .imm v

end Operand

/-- A statement whose template moves operands into registers and then enters the kernel. Its operands are
numbered from `%0`, the outputs first. -/
structure MoveAsm (R P : Type) where
  outputs : List R := []
  inputs : List (Operand R × P)
  moves : List (Nat × R) := []
  clobbers : List R := []

namespace MoveAsm

/-- Operand `%k`, if it is an input. -/
def operand (A : MoveAsm R P) (k : Nat) : Option (Operand R × P) :=
  if k < A.outputs.length then none else A.inputs[k - A.outputs.length]?

def loc (A : MoveAsm R P) (place : Nat → Loc R w) (k : Nat) : Loc R w :=
  match A.operand k with
  | some (c, _) => c.loc (place k)
  | none => place k

/-- What the compiler owes at the first instruction. -/
def Ready (A : MoveAsm R P) (sp : R) (place : Nat → Loc R w) (val : P → BitVec w)
    (m : Machine R w) : Prop :=
  ∀ k c p, A.operand k = some (c, p) →
    c.Allows sp A.clobbers (place k) ∧ m.read (c.loc (place k)) = val p

theorem operand_mem {A : MoveAsm R P} {k : Nat} {c : Operand R} {p : P}
    (h : A.operand k = some (c, p)) : (c, p) ∈ A.inputs := by
  unfold operand at h
  split at h
  · exact nomatch h
  · exact List.mem_of_getElem? h

theorem exists_operand {A : MoveAsm R P} {c : Operand R} {p : P} (h : (c, p) ∈ A.inputs) :
    ∃ k, A.operand k = some (c, p) := by
  obtain ⟨i, hi⟩ := List.mem_iff_getElem?.mp h
  refine ⟨A.outputs.length + i, ?_⟩
  rw [operand, if_neg (by omega), Nat.add_sub_cancel_left, hi]

/-- The choice of a place for `%k` is free. -/
def Free (A : MoveAsm R P) (k : Nat) : Prop := ∃ p, A.operand k = some (.general, p)

/-- The moves are of operands, each of its own, into registers of their own that no operand is pinned
to. -/
structure Movable (A : MoveAsm R P) (sp : R) : Prop where
  operands : ∀ x ∈ A.moves, (A.operand x.1).isSome = true
  numbers : (A.moves.map Prod.fst).Nodup
  dests : (A.moves.map Prod.snd).Nodup
  unpinned : ∀ x ∈ A.moves, ∀ o ∈ A.inputs, o.1 ≠ .pin x.2
  sp : ∀ x ∈ A.moves, x.2 ≠ sp
  params : (A.inputs.map Prod.snd).Nodup

/-- What is moved early is listed, as long as an operand with a free choice is still to be moved. -/
def Guarded (A : MoveAsm R P) : Prop :=
  A.moves.Pairwise fun x y => A.Free y.1 → x.2 ∈ A.clobbers

/-- The same statement with another list of clobbers. -/
def relist (A : MoveAsm R P) (clobbers : List R) : MoveAsm R P :=
  { A with clobbers := clobbers }

theorem Movable.relist {A : MoveAsm R P} {sp : R} (hA : A.Movable sp) (clobbers : List R) :
    (A.relist clobbers).Movable sp :=
  ⟨hA.operands, hA.numbers, hA.dests, hA.unpinned, hA.sp, hA.params⟩

/-- An operand goes to the register: it is pinned there, or moved there. -/
def Carries (A : MoveAsm R P) (r : R) (p : P) : Prop :=
  (Operand.pin r, p) ∈ A.inputs ∨
    ∃ x ∈ A.moves, x.2 = r ∧ (A.operand x.1).map Prod.snd = some p

section Decidable

variable [DecidableEq R] [DecidableEq P]

instance (A : MoveAsm R P) (k : Nat) : Decidable (A.Free k) :=
  decidable_of_iff ((A.operand k).map Prod.fst = some .general)
    ⟨fun h => by
      obtain ⟨⟨c, p⟩, ho, rfl⟩ := Option.map_eq_some_iff.mp h
      exact ⟨p, ho⟩,
    fun ⟨p, h⟩ => by rw [h]; rfl⟩

instance (A : MoveAsm R P) : Decidable A.Guarded :=
  inferInstanceAs (Decidable (A.moves.Pairwise _))

instance (A : MoveAsm R P) (r : R) (p : P) : Decidable (A.Carries r p) :=
  inferInstanceAs (Decidable (_ ∨ _))

instance (A : MoveAsm R P) (sp : R) : Decidable (A.Movable sp) :=
  decidable_of_iff
    ((∀ x ∈ A.moves, (A.operand x.1).isSome = true) ∧ (A.moves.map Prod.fst).Nodup ∧
      (A.moves.map Prod.snd).Nodup ∧ (∀ x ∈ A.moves, ∀ o ∈ A.inputs, o.1 ≠ .pin x.2) ∧
      (∀ x ∈ A.moves, x.2 ≠ sp) ∧ (A.inputs.map Prod.snd).Nodup)
    ⟨fun ⟨h₁, h₂, h₃, h₄, h₅, h₆⟩ => ⟨h₁, h₂, h₃, h₄, h₅, h₆⟩,
      fun h => ⟨h.1, h.2, h.3, h.4, h.5, h.6⟩⟩

end Decidable

variable [DecidableEq R]

/-- The moves of a template under a placement. -/
def copies (A : MoveAsm R P) (place : Nat → Loc R w) : List (Loc R w × R) :=
  A.moves.map fun x => (A.loc place x.1, x.2)

/-- The state in which the kernel is entered, from the one at the first instruction. -/
def atTrap (A : MoveAsm R P) (place : Nat → Loc R w) (m : Machine R w) : Machine R w :=
  moveAll (A.copies place) m

/-- Wherever the compiler puts the operands, each is in its register when the kernel is entered. -/
def Lands (A : MoveAsm R P) (sp : R) (w : Nat) : Prop :=
  ∀ (place : Nat → Loc R w) (val : P → BitVec w) (m : Machine R w), A.Ready sp place val m →
    ∀ r p, A.Carries r p → (A.atTrap place m).regs r = val p

omit [DecidableEq R] in
theorem copies_dests (A : MoveAsm R P) (place : Nat → Loc R w) :
    (A.copies place).map Prod.snd = A.moves.map Prod.snd := by
  rw [copies, List.map_map]
  rfl

theorem atTrap_mem (A : MoveAsm R P) (place : Nat → Loc R w) (m : Machine R w) :
    (A.atTrap place m).mem = m.mem :=
  moveAll_mem _ m

/-! ## When the moves are right -/

section Guarded

variable {A : MoveAsm R P} {sp : R} (hA : A.Movable sp)
include hA

omit [DecidableEq R] in
/-- A guarded move spoils no later one: the operand that is read later is pinned elsewhere, a constant,
or away from every listed register. -/
theorem Movable.clear (hguard : A.Guarded) {place : Nat → Loc R w} {val : P → BitVec w}
    {m : Machine R w} (hready : A.Ready sp place val m) :
    (A.copies place).Pairwise fun x y => y.1.through ≠ some x.2 := by
  rw [copies, List.pairwise_map]
  refine List.Pairwise.imp_of_mem ?_ hguard
  intro x y hx hy hlisted
  obtain ⟨⟨c, p⟩, ho⟩ := Option.isSome_iff_exists.mp (hA.operands y hy)
  have hloc : A.loc place y.1 = c.loc (place y.1) := by simp only [loc, ho]
  have hallow := (hready y.1 c p ho).1
  rw [hloc]
  cases c with
  | pin r =>
      intro hr
      obtain rfl : r = x.2 := Option.some.inj hr
      exact hA.unpinned x hx _ (operand_mem ho) rfl
  | general => exact hallow.2 _ (hlisted ⟨p, ho⟩)
  | const =>
      obtain ⟨v, hv⟩ := hallow
      show (place y.1).through ≠ _
      rw [hv]
      exact fun h => nomatch h

theorem Movable.lands_of_guarded (hguard : A.Guarded) : A.Lands sp w := by
  intro place val m hready r p hcarry
  have hnodup : ((A.copies place).map Prod.snd).Nodup := by
    rw [copies_dests]
    exact hA.dests
  rcases hcarry with hpin | ⟨x, hx, rfl, hp⟩
  · -- no move writes a pinned register
    obtain ⟨k, hk⟩ := exists_operand hpin
    have hout : r ∉ (A.copies place).map Prod.snd := by
      rw [copies_dests]
      intro hin
      obtain ⟨x, hx, rfl⟩ := List.mem_map.mp hin
      exact hA.unpinned x hx _ hpin rfl
    rw [atTrap, moveAll_regs_of_not_mem hout]
    exact (hready k _ p hk).2
  · obtain ⟨⟨c, p'⟩, ho, rfl⟩ := Option.map_eq_some_iff.mp hp
    have hloc : A.loc place x.1 = c.loc (place x.1) := by simp only [loc, ho]
    have hmoved := moveAll_regs hnodup (hA.clear hguard hready) m _
      (List.mem_map.mpr ⟨x, hx, rfl⟩)
    rw [atTrap, hmoved, hloc]
    exact (hready x.1 c p' ho).2

end Guarded

section Converse

variable [DecidableEq P]

/-- A placement with one operand in a register of choice and the others in the instructions. -/
def onePlace (k : Nat) (r : R) : Nat → Loc R w :=
  fun j => if j = k then .reg r else .imm 0

/-- The operand `p` is 1 and the others are 0. -/
def oneVal (p : P) : P → BitVec w := fun q => if q = p then 1 else 0

/-- The register `r` is 1 and the others are 0. -/
def oneMachine (r : R) : Machine R w :=
  { regs := fun r' => if r' = r then 1 else 0, flag := false, mem := fun _ => 0 }

variable {A : MoveAsm R P} {sp : R} (hA : A.Movable sp)
include hA

omit [DecidableEq R] [DecidableEq P] in
/-- Distinct inputs carry distinct parameters. -/
theorem Movable.param_ne {j k : Nat} {c c' : Operand R} {p q : P}
    (hj : A.operand j = some (c, p)) (hk : A.operand k = some (c', q)) (hne : j ≠ k) : p ≠ q := by
  unfold operand at hj hk
  split at hj
  · exact nomatch hj
  split at hk
  · exact nomatch hk
  rintro rfl
  have hin : j - A.outputs.length < (A.inputs.map Prod.snd).length := by
    rw [List.length_map]
    exact (List.getElem?_eq_some_iff.mp hj).1
  have heq : j - A.outputs.length = k - A.outputs.length := by
    refine (List.getElem?_inj hin hA.params).mp ?_
    rw [List.getElem?_map, List.getElem?_map, hj, hk]
    rfl
  omega

/-- A compiler may put an operand with a free choice in a destination that is not listed. -/
theorem Movable.ready_one {x : Nat × R} (hx : x ∈ A.moves) (hlist : x.2 ∉ A.clobbers) {k : Nat}
    {p : P} (hk : A.operand k = some (.general, p)) :
    A.Ready sp (onePlace k x.2 : Nat → Loc R w) (oneVal p) (oneMachine x.2) := by
  intro j c q hj
  by_cases hjk : j = k
  · subst hjk
    obtain ⟨rfl, rfl⟩ := Prod.mk.inj (Option.some.inj (hj.symm.trans hk))
    simp only [onePlace, if_true, Operand.Allows, Operand.loc, Machine.read, oneMachine, oneVal,
      Loc.through, and_true]
    refine ⟨fun h => hA.sp x hx (Loc.reg.inj h), ?_⟩
    intro r hr h
    exact hlist (Option.some.inj h ▸ hr)
  · have hq : q ≠ p := hA.param_ne hj hk hjk
    simp only [onePlace, if_neg hjk, oneVal, if_neg hq]
    cases c with
    | pin r =>
        have hr : r ≠ x.2 := by
          rintro rfl
          exact hA.unpinned x hx _ (operand_mem hj) rfl
        exact ⟨trivial, if_neg hr⟩
    | general =>
        have hfar : ∀ r ∈ A.clobbers, (Loc.imm 0 : Loc R w).through ≠ some r := by
          intro r _
          simp only [Loc.through, ne_eq, reduceCtorEq, not_false_eq_true]
        exact ⟨⟨by simp only [ne_eq, reduceCtorEq, not_false_eq_true], hfar⟩, rfl⟩
    | const => exact ⟨⟨0, rfl⟩, rfl⟩

omit [DecidableEq R] [DecidableEq P] in
/-- There every other operand is read through no register that is moved to. -/
theorem Movable.through_one {x y : Nat × R} (hx : x ∈ A.moves) (hy : y ∈ A.moves) {k : Nat} {r : R}
    (hne : y.1 ≠ k) : (A.loc (onePlace k r : Nat → Loc R w) y.1).through ≠ some x.2 := by
  obtain ⟨⟨c, p⟩, ho⟩ := Option.isSome_iff_exists.mp (hA.operands y hy)
  have hloc : A.loc (onePlace k r : Nat → Loc R w) y.1 = c.loc (.imm 0) := by
    simp only [loc, ho, onePlace, if_neg hne]
  rw [hloc]
  cases c with
  | pin r' =>
      intro h
      obtain rfl : r' = x.2 := Option.some.inj h
      exact hA.unpinned x hx _ (operand_mem ho) rfl
  | general | const => exact fun h => nomatch h

/-- So the late operand is lost: the early move has put a 0 in its place. -/
theorem Movable.atTrap_one {pre post : List (Nat × R)} {x y : Nat × R}
    (hmoves : A.moves = pre ++ y :: post) (hx : x ∈ pre) {p : P}
    (hy : A.operand y.1 = some (.general, p))
    (hready : A.Ready sp (onePlace y.1 x.2 : Nat → Loc R w) (oneVal p) (oneMachine x.2)) :
    (A.atTrap (onePlace y.1 x.2 : Nat → Loc R w) (oneMachine x.2)).regs y.2 = 0 := by
  let place : Nat → Loc R w := onePlace y.1 x.2
  let copy : Nat × R → Loc R w × R := fun z => (A.loc place z.1, z.2)
  have hin : ∀ z ∈ pre, z ∈ A.moves := by
    intro z hz
    rw [hmoves]
    exact List.mem_append_left _ hz
  -- no move but the late one is of the late operand, and none but it writes its register
  have hnumbers := hA.numbers
  have hdests := hA.dests
  rw [hmoves, List.map_append, List.map_cons, List.nodup_append] at hnumbers hdests
  have hother : ∀ z ∈ pre, z.1 ≠ y.1 := fun z hz =>
    hnumbers.2.2 _ (List.mem_map_of_mem hz) _ List.mem_cons_self
  have hpost : y.2 ∉ (post.map copy).map Prod.snd := by
    rw [List.map_map]
    exact (List.nodup_cons.mp hdests.2.1).1
  have hpre : ((pre.map copy).map Prod.snd).Nodup := by
    rw [List.map_map]
    exact hdests.1
  have hclear : (pre.map copy).Pairwise fun u v => v.1.through ≠ some u.2 := by
    rw [List.pairwise_map]
    apply List.pairwise_of_forall_mem_list
    intro u hu v hv
    exact hA.through_one (hin u hu) (hin v hv) (hother v hv)
  have hzero : (moveAll (pre.map copy) (oneMachine x.2)).regs x.2 = 0 := by
    have hmoved := moveAll_regs hpre hclear (oneMachine x.2) (copy x) (List.mem_map_of_mem hx)
    obtain ⟨⟨c, q⟩, ho⟩ := Option.isSome_iff_exists.mp (hA.operands x (hin x hx))
    have hloc : A.loc place x.1 = c.loc (place x.1) := by simp only [loc, ho]
    rw [show (moveAll (pre.map copy) (oneMachine x.2)).regs x.2 = _ from hmoved]
    show (oneMachine x.2 : Machine R w).read (A.loc place x.1) = 0
    rw [hloc, (hready x.1 c q ho).2, oneVal, if_neg (hA.param_ne ho hy (hother x hx))]
  have hlate : A.loc place y.1 = .reg x.2 := by
    simp only [loc, hy, Operand.loc, place, onePlace, if_true]
  have hcopies : A.copies place = pre.map copy ++ copy y :: post.map copy := by
    rw [copies, hmoves, List.map_append, List.map_cons]
  have hy2 : (A.atTrap place (oneMachine x.2)).regs y.2 =
      (moveAll (pre.map copy) (oneMachine x.2)).read (A.loc place y.1) := by
    rw [atTrap, hcopies, moveAll_append, moveAll_cons, moveAll_regs_of_not_mem hpost]
    exact Machine.set_regs_self ..
  rw [hy2, hlate]
  exact hzero

/-- **When a statement may move its own operands.** Under every placement that a compiler may choose
each operand arrives in its register, exactly when every register that is written before some operand
with a free choice is listed. -/
theorem lands_iff (hw : 0 < w) : A.Lands sp w ↔ A.Guarded := by
  refine ⟨?_, fun hguard => hA.lands_of_guarded hguard⟩
  intro hlands
  rw [Guarded, List.pairwise_iff_getElem]
  intro i j hi hj hij ⟨p, hp⟩
  by_contra hlist
  -- the late operand sits in the register that the early move overwrites
  have hready : A.Ready sp (onePlace A.moves[j].1 A.moves[i].2 : Nat → Loc R w) (oneVal p)
      (oneMachine A.moves[i].2) :=
    hA.ready_one (List.getElem_mem hi) hlist hp
  have hone := hlands _ _ _ hready A.moves[j].2 p
    (Or.inr ⟨A.moves[j], List.getElem_mem hj, rfl, by rw [hp]; rfl⟩)
  have hsplit : A.moves = A.moves.take j ++ A.moves[j] :: A.moves.drop (j + 1) := by
    rw [← List.drop_eq_getElem_cons hj, List.take_append_drop]
  have hearly : A.moves[i] ∈ A.moves.take j :=
    List.mem_take_iff_getElem.mpr ⟨i, by omega, rfl⟩
  have h10 : (1 : BitVec w) = 0 := by
    rw [← hA.atTrap_one hsplit hearly hp hready, hone, oneVal, if_pos rfl]
  have hlt : 1 < 2 ^ w := Nat.one_lt_two_pow (Nat.ne_of_gt hw)
  have hnat := congrArg BitVec.toNat h10
  simp [Nat.mod_eq_of_lt hlt] at hnat

end Converse

end MoveAsm

end InlineAsm
