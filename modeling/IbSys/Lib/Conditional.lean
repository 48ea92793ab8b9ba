/-
# IbSys.Lib.Conditional -- a module whose parts are compiled conditionally

Every part is compiled in every build, and a guard decides which of its declarations are there. `Guard`
is the condition of an `#if`, a conjunction of disjunctions of features. Two guards are apart when a clause
of one and a clause of the other name only features that no build has together, and then no such build
satisfies both (`Guard.Apart.not_both`). When the guards over every shared name are apart, a name means at
most one thing (`Separate.at_most_one`), whichever parts are imported.

`Sees` is what an import makes visible. On an acyclic import graph it is computed by `seen`.
-/
import Mathlib

namespace Conditional

variable {F P N : Type}

/-! ## Guards -/

/-- The condition of a block: every clause has a feature that is on. -/
abbrev Guard (F : Type) := List (List F)

def Guard.holds (g : Guard F) (m : F → Bool) : Bool := g.all fun c => c.any m

theorem Guard.holds_iff {g : Guard F} {m : F → Bool} :
    g.holds m = true ↔ ∀ c ∈ g, ∃ x ∈ c, m x = true := by
  simp [Guard.holds]

/-- No build has two features of which one excludes the other. -/
def Coherent (excl : F → F → Prop) (m : F → Bool) : Prop :=
  ∀ x y, excl x y → ¬ (m x = true ∧ m y = true)

/-- A clause of one guard and a clause of the other exclude each other. -/
def Guard.Apart (excl : F → F → Prop) (g h : Guard F) : Prop :=
  ∃ c ∈ g, ∃ d ∈ h, ∀ x ∈ c, ∀ y ∈ d, excl x y

instance (excl : F → F → Prop) [DecidableRel excl] (g h : Guard F) : Decidable (g.Apart excl h) :=
  inferInstanceAs (Decidable (∃ c ∈ g, ∃ d ∈ h, ∀ x ∈ c, ∀ y ∈ d, excl x y))

theorem Guard.Apart.not_both {excl : F → F → Prop} {g h : Guard F} (hgh : g.Apart excl h)
    {m : F → Bool} (hm : Coherent excl m) : ¬ (g.holds m = true ∧ h.holds m = true) := by
  rintro ⟨hg, hh⟩
  obtain ⟨c, hc, d, hd, hexcl⟩ := hgh
  obtain ⟨x, hx, hmx⟩ := Guard.holds_iff.mp hg c hc
  obtain ⟨y, hy, hmy⟩ := Guard.holds_iff.mp hh d hd
  exact hm x y (hexcl x hx y hy) ⟨hmx, hmy⟩

/-! ## Parts -/

/-- The parts of a module: which others each imports, and the names it declares under each guard. -/
structure Parts (F P N : Type) where
  imports : P → List P
  sections : P → List (Guard F × List N)

namespace Parts

variable (S : Parts F P N)

/-- In the build `m`, the part declares the name. -/
def Declares (m : F → Bool) (p : P) (n : N) : Prop :=
  ∃ s ∈ S.sections p, s.1.holds m = true ∧ n ∈ s.2

instance [DecidableEq N] (m : F → Bool) (p : P) (n : N) : Decidable (S.Declares m p n) :=
  inferInstanceAs (Decidable (∃ s ∈ S.sections p, s.1.holds m = true ∧ n ∈ s.2))

/-- What a part sees: itself, and what its imports see. -/
def Sees (p q : P) : Prop := Relation.ReflTransGen (fun a b => b ∈ S.imports a) p q

/-- The parts within `k` imports. -/
def seen : Nat → P → List P
  | 0, p => [p]
  | k + 1, p => p :: (S.imports p).flatMap (seen k)

/-- **Imports**: on an acyclic graph, as many steps as the rank of a part reach all that it sees. -/
theorem mem_seen_iff {rank : P → Nat} (hrank : ∀ p, ∀ q ∈ S.imports p, rank q < rank p) {k : Nat}
    {p q : P} (hk : rank p ≤ k) : q ∈ S.seen k p ↔ S.Sees p q := by
  induction k generalizing p with
  | zero =>
      -- a part of rank 0 imports nothing
      rw [seen, List.mem_singleton]
      refine ⟨fun h => h ▸ Relation.ReflTransGen.refl, ?_⟩
      intro h
      rcases Relation.ReflTransGen.cases_head h with rfl | ⟨r, hr, -⟩
      · rfl
      · have := hrank p r hr
        omega
  | succ k ih =>
      rw [seen, List.mem_cons, List.mem_flatMap]
      constructor
      · rintro (rfl | ⟨r, hr, hq⟩)
        · exact Relation.ReflTransGen.refl
        · have hlt := hrank p r hr
          exact Relation.ReflTransGen.head hr ((ih (by omega)).mp hq)
      · intro h
        rcases Relation.ReflTransGen.cases_head h with rfl | ⟨r, hr, hq⟩
        · exact Or.inl rfl
        · have hlt := hrank p r hr
          exact Or.inr ⟨r, hr, (ih (by omega)).mpr hq⟩

/-- In the build `m`, the part resolves the name to the one part in sight that declares it. -/
def Resolves (m : F → Bool) (p : P) (n : N) (q : P) : Prop :=
  (S.Sees p q ∧ S.Declares m q n) ∧ ∀ q', S.Sees p q' → S.Declares m q' n → q' = q

/-- The guards of two parts over a name that both may declare are apart. -/
def Separate (excl : F → F → Prop) : Prop :=
  ∀ p q, p = q ∨ ∀ s ∈ S.sections p, ∀ t ∈ S.sections q,
    (∃ n ∈ s.2, n ∈ t.2) → s.1.Apart excl t.1

variable {S} {excl : F → F → Prop} (hS : S.Separate excl) {m : F → Bool} (hm : Coherent excl m)
include hS hm

/-- **At most one part declares a name**, whatever is imported. -/
theorem Separate.at_most_one {n : N} {p q : P} (hp : S.Declares m p n)
    (hq : S.Declares m q n) : p = q := by
  rcases hS p q with h | h
  · exact h
  · obtain ⟨s, hs, hsm, hsn⟩ := hp
    obtain ⟨t, ht, htm, htn⟩ := hq
    exact absurd ⟨hsm, htm⟩ ((h s hs t ht ⟨n, hsn, htn⟩).not_both hm)

/-- So a name resolves as soon as a part in sight declares it. -/
theorem Separate.resolves_iff {n : N} {p q : P} :
    S.Resolves m p n q ↔ S.Sees p q ∧ S.Declares m q n := by
  refine ⟨fun h => h.1, fun h => ⟨h, ?_⟩⟩
  intro q' _ hq'
  exact hS.at_most_one hm hq' h.2

end Parts

end Conditional
