/-
# IbSys.Sys.Detail -- the length of a NUL-terminated string

`str_length` scans bytes until it meets a NUL. Memory is read through a partial function, so a read
outside the readable bytes is visible as a fault. The counter is a `usize`: after `2 ^ w` passes it
has been at every value, so a scan that has not ended by then never ends.
-/
import IbSys.Target

namespace IbSys.Detail

/-- How a scan ends: at a terminator, by reading an unreadable byte, or not at all. -/
inductive StrLength (w : Nat) where
  | length (n : BitVec w)
  | fault (a : BitVec w)
  | diverges
  deriving DecidableEq

variable {w : Nat}

/-- The `while` loop, with the counter it has reached and a bound on its passes. -/
def strLengthLoop (read : BitVec w → Option (BitVec 8)) (string : BitVec w) :
    Nat → BitVec w → StrLength w
  | 0, _ => .diverges
  | fuel + 1, length =>
      match read (string + length) with
      | none => .fault (string + length)
      | some c => if c ≠ 0 then strLengthLoop read string fuel (length + 1) else .length length

def strLength (read : BitVec w → Option (BitVec 8)) (string : BitVec w) : StrLength w :=
  strLengthLoop read string (2 ^ w) 0

/-! ## The length of a string -/

/-- Memory of which some bytes are readable. -/
def view (mem : BitVec w → BitVec 8) (readable : BitVec w → Bool) (a : BitVec w) :
    Option (BitVec 8) :=
  if readable a then some (mem a) else none

/-- The first NUL of the string at `s` is at offset `k`. -/
structure FirstNul (mem : BitVec w → BitVec 8) (s : BitVec w) (k : Nat) : Prop where
  nul : mem (s + BitVec.ofNat w k) = 0
  before : ∀ i < k, mem (s + BitVec.ofNat w i) ≠ 0

section FirstNul

variable {mem : BitVec w → BitVec 8} {s : BitVec w} {k : Nat}

/-- A string that has a NUL has a first one. -/
theorem firstNul_find (h : ∃ k, mem (s + BitVec.ofNat w k) = 0) : FirstNul mem s (Nat.find h) where
  nul := Nat.find_spec h
  before _ hi := Nat.find_min h hi

/-- The first NUL comes before the addresses repeat, so a word counts up to it. -/
theorem FirstNul.lt (h : FirstNul mem s k) : k < 2 ^ w := by
  by_contra hge
  rw [Nat.not_lt] at hge
  have hpos : 0 < 2 ^ w := Nat.two_pow_pos w
  have hsame : BitVec.ofNat w (k - 2 ^ w) = BitVec.ofNat w k := by
    apply BitVec.eq_of_toNat_eq
    rw [BitVec.toNat_ofNat, BitVec.toNat_ofNat, Nat.mod_eq_sub_mod hge]
  have hne := h.before (k - 2 ^ w) (by omega)
  rw [hsame] at hne
  exact hne h.nul

/-- The loop, from any index up to the first NUL: it ends there, whatever the bytes behind hold and
whether or not they are readable. -/
theorem strLengthLoop_eq {read : BitVec w → Option (BitVec 8)} (h : FirstNul mem s k)
    (hread : ∀ i ≤ k, read (s + BitVec.ofNat w i) = some (mem (s + BitVec.ofNat w i))) :
    ∀ (fuel i : Nat), i ≤ k → k - i < fuel →
      strLengthLoop read s fuel (BitVec.ofNat w i) = .length (BitVec.ofNat w k) := by
  intro fuel
  induction fuel with
  | zero => intro i _ hfuel; omega
  | succ fuel ih =>
      intro i hi hfuel
      simp only [strLengthLoop, hread i hi]
      rcases Nat.eq_or_lt_of_le hi with rfl | hlt
      · rw [h.nul, if_neg (not_not.mpr rfl)]
      · -- no NUL yet: one more pass
        rw [if_pos (h.before i hlt), show BitVec.ofNat w i + 1 = BitVec.ofNat w (i + 1) from
          (BitVec.ofNat_add i 1).symm]
        exact ih (i + 1) hlt (by omega)

theorem strLength_eq {read : BitVec w → Option (BitVec 8)} (h : FirstNul mem s k)
    (hread : ∀ i ≤ k, read (s + BitVec.ofNat w i) = some (mem (s + BitVec.ofNat w i))) :
    strLength read s = .length (BitVec.ofNat w k) :=
  strLengthLoop_eq h hread (2 ^ w) 0 (Nat.zero_le k) (by have := h.lt; omega)

end FirstNul

end IbSys.Detail
