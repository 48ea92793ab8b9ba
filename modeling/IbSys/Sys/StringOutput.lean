/-
# IbSys.Sys.StringOutput -- what the string overloads hand over

`write_string` and the two string overloads of `print` measure their string and pass it on as bytes.
What they pass on is the text in front of the first NUL, all of it and nothing else
(`string_output_exact`), whatever stands behind the terminator and whether or not it is readable.
-/
import IbSys.Sys.Posix
import IbSys.Sys.SyscallWindows

namespace IbSys

open ByteMemory Detail

/-! ## Spans -/

/-- The bytes `[s, s + n)`. -/
def span {w : Nat} (s n : BitVec w) : Set (BitVec w) := { a | (a - s).toNat < n.toNat }

/-- The span is the text of the string whose first NUL is at offset `k`: every byte before the NUL, no
NUL, and no byte from there on. -/
structure IsText {w : Nat} (mem : BitVec w → BitVec 8) (s n : BitVec w) (k : Nat) : Prop where
  covers : ∀ i < k, s + BitVec.ofNat w i ∈ span s n
  no_nul : ∀ a ∈ span s n, mem a ≠ 0
  no_more : ∀ i, k ≤ i → i < 2 ^ w → s + BitVec.ofNat w i ∉ span s n

section Span

variable {w : Nat} {mem : BitVec w → BitVec 8} {s : BitVec w} {k : Nat}

theorem mem_span_iff (hk : k < 2 ^ w) {i : Nat} (hi : i < 2 ^ w) :
    s + BitVec.ofNat w i ∈ span s (BitVec.ofNat w k) ↔ i < k := by
  show (s + BitVec.ofNat w i - s).toNat < (BitVec.ofNat w k).toNat ↔ i < k
  rw [toNat_add_ofNat_sub s hi, BitVec.toNat_ofNat, Nat.mod_eq_of_lt hk]

theorem isText_of_firstNul (h : FirstNul mem s k) : IsText mem s (BitVec.ofNat w k) k where
  covers i hi := (mem_span_iff h.lt (hi.trans h.lt)).mpr hi
  no_nul a ha := by
    -- the address is its own offset above `s`
    have ha' : s + BitVec.ofNat w (a - s).toNat = a := by
      rw [BitVec.ofNat_toNat, BitVec.setWidth_eq, BitVec.add_comm, BitVec.sub_add_cancel]
    rw [← ha'] at ha ⊢
    exact h.before _ ((mem_span_iff h.lt (a - s).isLt).mp ha)
  no_more i hki hi hin := by
    have hlt := (mem_span_iff h.lt hi).mp hin
    omega

end Span

/-! ## The wrappers -/

/-- **String output hands over the text.** The length is the offset of the first NUL, and the bytes from
the string on that are counted are its text; reading stops at the NUL, since the bytes behind it need
not be readable. `write_string` and `print` make one call of the raw-byte wrapper with that span. -/
theorem string_output_exact :
    (∀ (w : Nat) (mem : BitVec w → BitVec 8) (readable : BitVec w → Bool) (s : BitVec w)
      (hnul : ∃ k, mem (s + BitVec.ofNat w k) = 0),
      (∀ i ≤ Nat.find hnul, readable (s + BitVec.ofNat w i) = true) →
        ∃ n, strLength (view mem readable) s = .length n ∧ n.toNat = Nat.find hnul ∧
          IsText mem s n (Nat.find hnul) ∧
          ∀ kernel : SyscallWindows.Kernel32 w,
            SyscallWindows.printString kernel (view mem readable) s =
              some (SyscallWindows.print kernel s n)) ∧
    (∀ (t : Target) (K : t.Mach → t.Mach) (place : t.Place) (fd s : BitVec t.width) (m : t.Mach)
      (hnul : ∃ k, m.mem (s + BitVec.ofNat t.width k) = 0),
        ∃ n, n.toNat = Nat.find hnul ∧ IsText m.mem s n (Nat.find hnul) ∧
          writeString t K place fd s m = some (write t K place fd s n m) ∧
          printString t K place s m = some (print t K place s n m)) := by
  refine ⟨?_, ?_⟩
  · intro w mem readable s hnul hread
    have h := firstNul_find hnul
    have hlen : strLength (view mem readable) s = .length (BitVec.ofNat w (Nat.find hnul)) :=
      strLength_eq h fun i hi => if_pos (hread i hi)
    refine ⟨_, hlen, ?_, isText_of_firstNul h, ?_⟩
    · rw [BitVec.toNat_ofNat, Nat.mod_eq_of_lt h.lt]
    · intro kernel
      rw [SyscallWindows.printString, hlen]
  · intro t K place fd s m hnul
    have h := firstNul_find hnul
    have hlen : strLength (fun a => some (m.mem a)) s = .length _ := strLength_eq h fun _ _ => rfl
    refine ⟨_, ?_, isText_of_firstNul h, ?_, ?_⟩
    · rw [BitVec.toNat_ofNat, Nat.mod_eq_of_lt h.lt]
    · rw [writeString, hlen]
    · rw [printString, writeString, hlen]
      rfl

/-- A text of two bytes outside ASCII, in front of a second NUL and of bytes that are not readable. -/
theorem string_output_two_bytes :
    let mem : BitVec 64 → BitVec 8 := fun a => if a = 0x1002 ∨ a = 0x1003 then 0 else 0xc3
    ∃ n, strLength (view mem fun a => decide (0x1000 ≤ a ∧ a ≤ 0x1002)) 0x1000 = .length n ∧
      n.toNat = 2 := by
  intro mem
  have hnul : ∃ k, mem (0x1000 + BitVec.ofNat 64 k) = 0 := ⟨2, by decide⟩
  have hfirst : Nat.find hnul = 2 := (Nat.find_eq_iff hnul).mpr ⟨by decide, by decide⟩
  obtain ⟨n, hlen, hn, -, -⟩ := string_output_exact.1 64 mem
    (fun a => decide (0x1000 ≤ a ∧ a ≤ 0x1002)) 0x1000 hnul (by rw [hfirst]; decide)
  exact ⟨n, hlen, hn.trans hfirst⟩

end IbSys
