/-
# IbSys.Sys.WindowsPrint -- faithful output on Windows

`print` passes a `usize` through a `u32` and hands a `u32` back as an `isize`. `CountFaithful` is what
one call promises: failures are negative, a count comes back as it was reported, and a complete write
of something is progress. `LoopFinishes` is what a caller makes of it who prints the rest until
nothing is left. `print_faithful_iff` says when both hold: on Win32 the sign bit of `isize` is in the
way, on Win64 the bits of the size that the narrowing drops.
-/
import IbSys.Sys.SyscallWindows

namespace IbSys.SyscallWindows

variable {w : Nat}

/-! ## One call -/

/-- The answer of `WriteFile` to the one call that `print` makes. -/
def answer (k : Kernel32 w) (data size : BitVec w) : WriteFileResult :=
  k.writeFile (getStdHandle k .output) data (size.setWidth 32)

/-- There is no handle, or `WriteFile` fails. -/
def Fails (k : Kernel32 w) (data size : BitVec w) : Prop :=
  getStdHandle k .output = invalidHandle w ∨ (answer k data size).ok = 0

/-- What one call promises: it is negative exactly on failure; otherwise it is the reported count,
which is at most `size`; and it is positive when everything asked for was written and there was
something to write. -/
def CountFaithful (k : Kernel32 w) (data size : BitVec w) : Prop :=
  let r := print k data size
  let written := (answer k data size).written
  (r.value.toInt < 0 ↔ Fails k data size) ∧
    (¬ Fails k data size → r.value.toInt = written.toNat ∧ written.toNat ≤ size.toNat) ∧
    (¬ Fails k data size → written = size.setWidth 32 → 0 < size.toNat → 0 < r.value.toInt)

theorem print_of_fails {k : Kernel32 w} {data size : BitVec w} (h : Fails k data size) :
    (print k data size).value = -1 := by
  unfold print writeFile
  by_cases hh : getStdHandle k .output = invalidHandle w
  · rw [if_pos hh]
  · have hok : (answer k data size).ok = 0 := h.resolve_left hh
    unfold answer at hok
    simp [hh, hok]

theorem print_of_not_fails {k : Kernel32 w} {data size : BitVec w} (h : ¬ Fails k data size) :
    print k data size =
      { value := (answer k data size).written.setWidth w
        writes := [⟨getStdHandle k .output, data, size.setWidth 32⟩] } := by
  have hh : getStdHandle k .output ≠ invalidHandle w := fun hh => h (Or.inl hh)
  have hok : (answer k data size).ok ≠ 0 := fun hok => h (Or.inr hok)
  unfold answer at hok
  unfold print writeFile answer
  simp only [if_neg hh, decide_eq_true hok, Bool.not_true, Bool.false_eq_true, if_false]

theorem toNat_setWidth_size (size : BitVec w) : (size.setWidth 32).toNat = size.toNat % 2 ^ 32 :=
  BitVec.toNat_setWidth 32 size

/-- A `u32` as an `isize`: the value, unless it reaches the sign bit. -/
theorem toInt_setWidth (hw : w = 32 ∨ w = 64) (v : BitVec 32) :
    (v.toNat < 2 ^ (w - 1) → (v.setWidth w).toInt = v.toNat) ∧
      (2 ^ (w - 1) ≤ v.toNat → (v.setWidth w).toInt < 0) := by
  have hlt := v.isLt
  rcases hw with rfl | rfl
  · rw [BitVec.toInt_eq_toNat_cond, BitVec.toNat_setWidth]
    constructor <;> intro h <;> split <;> omega
  · rw [BitVec.toInt_eq_toNat_cond, BitVec.toNat_setWidth]
    constructor <;> intro h <;> split <;> omega

/-- **When one call is faithful**: it fails, or the count stays below the sign bit of `isize` and
narrowing the size does not make nothing of something. -/
theorem countFaithful_iff (hw : w = 32 ∨ w = 64) (k : Kernel32 w) (data size : BitVec w) :
    CountFaithful k data size ↔
      Fails k data size ∨ ((answer k data size).written.toNat < 2 ^ (w - 1) ∧
        (size.toNat = 0 ∨ size.toNat % 2 ^ 32 ≠ 0)) := by
  unfold CountFaithful
  by_cases hf : Fails k data size
  · refine iff_of_true ?_ (Or.inl hf)
    have hneg : (print k data size).value.toInt < 0 := by
      rw [print_of_fails hf]
      rcases hw with rfl | rfl <;> decide
    exact ⟨iff_of_true hneg hf, fun h => absurd hf h, fun h => absurd hf h⟩
  · have hok : (answer k data size).ok ≠ 0 := fun hok => hf (Or.inr hok)
    have hreq := k.written_le _ _ _ hok
    change (answer k data size).written.toNat ≤ (size.setWidth 32).toNat at hreq
    rw [toNat_setWidth_size] at hreq
    have hle : size.toNat % 2 ^ 32 ≤ size.toNat := Nat.mod_le _ _
    obtain ⟨hlow, hhigh⟩ := toInt_setWidth hw (answer k data size).written
    simp only [print_of_not_fails hf, hf, iff_false, not_false_eq_true, true_implies, false_or]
    generalize (answer k data size).written = written at *
    refine ⟨?_, ?_⟩
    · rintro ⟨hneg, -, hprog⟩
      -- a count that reaches the sign bit would be returned as a failure
      have hsign : written.toNat < 2 ^ (w - 1) := by
        by_contra hge
        exact hneg (hhigh (Nat.not_lt.mp hge))
      refine ⟨hsign, ?_⟩
      by_contra hbad
      rw [not_or, not_not] at hbad
      -- nothing is asked for, nothing is written, and 0 is returned for a size that is not 0
      have hzero : written.toNat = 0 := by omega
      have hall : written = size.setWidth 32 := by
        apply BitVec.eq_of_toNat_eq
        rw [toNat_setWidth_size]
        omega
      have hpos := hprog hall (Nat.pos_of_ne_zero hbad.1)
      rw [hlow hsign] at hpos
      omega
    · rintro ⟨hsign, hsize⟩
      have hval := hlow hsign
      refine ⟨by omega, ⟨hval, by omega⟩, ?_⟩
      intro hall hpos
      have hnat : written.toNat = size.toNat % 2 ^ 32 := by
        rw [hall, toNat_setWidth_size]
      omega

/-! ## A caller that prints the rest -/

/-- `WriteFile` writes everything it is asked to. -/
def Kernel32.WritesAll (k : Kernel32 w) : Prop :=
  ∀ file data bytes, (k.writeFile file data bytes).ok ≠ 0 ∧
    (k.writeFile file data bytes).written = bytes

/-- A caller that prints what is left until nothing is left, and gives up on an answer that is not
positive. When it gets to the end, the calls of `WriteFile` that were made. -/
def printAll (k : Kernel32 w) : Nat → BitVec w → BitVec w → Option (List (WriteCall w))
  | 0, _, _ => none
  | fuel + 1, data, size =>
      if size = 0 then some []
      else
        let r := print k data size
        if r.value.toInt ≤ 0 then none
        else (printAll k fuel (data + r.value) (size - r.value)).map (r.writes ++ ·)

/-- The calls write `n` bytes from `data` on, each once and in order. -/
def Covers : BitVec w → Nat → List (WriteCall w) → Prop
  | _, n, [] => n = 0
  | data, n, c :: cs =>
      c.data = data ∧ c.bytes.toNat ≤ n ∧
        Covers (data + BitVec.ofNat w c.bytes.toNat) (n - c.bytes.toNat) cs

/-- Over a `WriteFile` that writes everything, the caller ends after writing all of the data. -/
def LoopFinishes (k : Kernel32 w) (data size : BitVec w) : Prop :=
  k.WritesAll → getStdHandle k .output ≠ invalidHandle w →
    ∃ fuel ws, printAll k fuel data size = some ws ∧ Covers data size.toNat ws

section Loop

variable {k : Kernel32 w}

/-- What one call of the loop does: the low 32 bits of the size are written and returned. -/
theorem print_of_writesAll (hall : k.WritesAll)
    (hh : getStdHandle k .output ≠ invalidHandle w) (data size : BitVec w) :
    print k data size =
      { value := (size.setWidth 32).setWidth w
        writes := [⟨getStdHandle k .output, data, size.setWidth 32⟩] } := by
  obtain ⟨hok, hwritten⟩ := hall (getStdHandle k .output) data (size.setWidth 32)
  have hf : ¬ Fails k data size := by
    intro h
    rcases h with h | h
    · exact hh h
    · exact hok h
  have hans : (answer k data size).written = size.setWidth 32 := hwritten
  rw [print_of_not_fails hf, hans]

theorem toNat_returned (hw : w = 32 ∨ w = 64) (size : BitVec w) :
    ((size.setWidth 32).setWidth w).toNat = size.toNat % 2 ^ 32 := by
  have hlt : size.toNat % 2 ^ 32 < 2 ^ 32 := Nat.mod_lt _ (by decide)
  rw [BitVec.toNat_setWidth, toNat_setWidth_size]
  rcases hw with rfl | rfl <;> exact Nat.mod_eq_of_lt (by omega)

theorem toNat_sub_returned (hw : w = 32 ∨ w = 64) (size : BitVec w) :
    (size - (size.setWidth 32).setWidth w).toNat = size.toNat - size.toNat % 2 ^ 32 := by
  have hret := toNat_returned hw size
  have hle : (size.setWidth 32).setWidth w ≤ size := by
    rw [BitVec.le_def, hret]
    exact Nat.mod_le _ _
  rw [BitVec.toNat_sub_of_le hle, hret]

/-- One pass of the loop: it is at the end, or it makes one call and goes on behind what that wrote. -/
theorem printAll_succ (hall : k.WritesAll) (hh : getStdHandle k .output ≠ invalidHandle w)
    {fuel : Nat} {data size : BitVec w} {ws : List (WriteCall w)}
    (h : printAll k (fuel + 1) data size = some ws) :
    size = 0 ∧ ws = [] ∨
      ∃ rest, ws = ⟨getStdHandle k .output, data, size.setWidth 32⟩ :: rest ∧
        printAll k fuel (data + (size.setWidth 32).setWidth w)
          (size - (size.setWidth 32).setWidth w) = some rest := by
  unfold printAll at h
  by_cases hsize : size = 0
  · rw [if_pos hsize] at h
    exact Or.inl ⟨hsize, (Option.some.inj h).symm⟩
  · rw [if_neg hsize, print_of_writesAll hall hh] at h
    dsimp only at h
    split at h
    · exact nomatch h
    · rw [Option.map_eq_some_iff] at h
      obtain ⟨rest, hrest, rfl⟩ := h
      exact Or.inr ⟨rest, rfl, hrest⟩

/-- An answer that is not positive ends the loop short of the end. -/
theorem printAll_of_stuck {data size : BitVec w} (hsize : size ≠ 0)
    (h : (print k data size).value.toInt ≤ 0) (fuel : Nat) : printAll k fuel data size = none := by
  cases fuel with
  | zero => rfl
  | succ fuel =>
      unfold printAll
      rw [if_neg hsize, if_pos h]

/-- When the loop gets to the end, its calls have written the data, all of it and nothing else. -/
theorem covers_of_printAll (hw : w = 32 ∨ w = 64) (hall : k.WritesAll)
    (hh : getStdHandle k .output ≠ invalidHandle w) (fuel : Nat) (data size : BitVec w)
    (ws : List (WriteCall w)) (h : printAll k fuel data size = some ws) :
    Covers data size.toNat ws := by
  induction fuel generalizing data size ws with
  | zero => exact nomatch h
  | succ fuel ih =>
      rcases printAll_succ hall hh h with ⟨rfl, rfl⟩ | ⟨rest, rfl, hrest⟩
      · exact BitVec.toNat_zero
      · have hle : size.toNat % 2 ^ 32 ≤ size.toNat := Nat.mod_le _ _
        have htail := ih _ _ _ hrest
        have hadd : BitVec.ofNat w (size.setWidth 32).toNat = (size.setWidth 32).setWidth w := by
          apply BitVec.eq_of_toNat_eq
          rw [toNat_returned hw, BitVec.toNat_ofNat, toNat_setWidth_size]
          rcases hw with rfl | rfl <;> exact Nat.mod_eq_of_lt (by omega)
        rw [toNat_sub_returned hw] at htail
        refine ⟨rfl, ?_, ?_⟩
        · rw [toNat_setWidth_size]
          exact hle
        · rw [hadd, toNat_setWidth_size]
          exact htail

/-- The loop is stuck on a size that the narrowing turns into nothing or into a negative count. -/
theorem printAll_of_bad_size (hw : w = 32 ∨ w = 64) (hall : k.WritesAll)
    (hh : getStdHandle k .output ≠ invalidHandle w) {data size : BitVec w} (hsize : size.toNat ≠ 0)
    (hbad : 2 ^ (w - 1) ≤ size.toNat % 2 ^ 32 ∨ size.toNat % 2 ^ 32 = 0) (fuel : Nat) :
    printAll k fuel data size = none := by
  obtain ⟨hlow, hhigh⟩ := toInt_setWidth hw (size.setWidth 32)
  rw [toNat_setWidth_size] at hlow hhigh
  apply printAll_of_stuck
  · intro h
    rw [h] at hsize
    exact hsize BitVec.toNat_zero
  · rw [print_of_writesAll hall hh]
    rcases hbad with hneg | hzero
    · exact Int.le_of_lt (hhigh hneg)
    · have hval := hlow (by rw [hzero]; exact Nat.two_pow_pos _)
      rw [hval, hzero]
      decide

/-- **When the loop ends**: the size survives the narrowing, and its count is not negative. -/
theorem loopFinishes_iff (hw : w = 32 ∨ w = 64) (data size : BitVec w) :
    LoopFinishes k data size ↔
      (k.WritesAll → getStdHandle k .output ≠ invalidHandle w →
        size.toNat < 2 ^ 32 ∧ size.toNat < 2 ^ (w - 1)) := by
  unfold LoopFinishes
  refine forall_congr' fun hall => forall_congr' fun hh => ?_
  have hmod : size.toNat % 2 ^ 32 ≤ size.toNat := Nat.mod_le _ _
  refine ⟨?_, ?_⟩
  · rintro ⟨fuel, ws, hrun, -⟩
    have hsize : size.toNat = 0 ∨ size.toNat ≠ 0 := Nat.eq_zero_or_pos _ |>.imp_right Nat.ne_of_gt
    rcases hsize with hzero | hsize
    · rw [hzero]
      exact ⟨by decide, Nat.two_pow_pos _⟩
    · have hgood : ¬ (2 ^ (w - 1) ≤ size.toNat % 2 ^ 32 ∨ size.toNat % 2 ^ 32 = 0) := by
        intro hbad
        rw [printAll_of_bad_size hw hall hh hsize hbad] at hrun
        exact nomatch hrun
      rw [not_or, Nat.not_le] at hgood
      have hlt : size.toNat < 2 ^ 32 := by
        by_contra hge
        -- the first call leaves a multiple of 2 ^ 32, on which the second one is stuck
        have hrest := toNat_sub_returned hw size
        cases fuel with
        | zero => exact nomatch hrun
        | succ fuel =>
            rcases printAll_succ hall hh hrun with ⟨rfl, -⟩ | ⟨rest, -, hrun'⟩
            · exact hsize BitVec.toNat_zero
            · rw [printAll_of_bad_size hw hall hh (by rw [hrest]; omega)
                (Or.inr (by rw [hrest]; omega))] at hrun'
              exact nomatch hrun'
      rw [Nat.mod_eq_of_lt hlt] at hgood
      exact ⟨hlt, hgood.1⟩
  · rintro ⟨hlt, hsign⟩
    have hkeep : (size.setWidth 32).setWidth w = size := by
      apply BitVec.eq_of_toNat_eq
      rw [toNat_returned hw, Nat.mod_eq_of_lt hlt]
    have hrun : ∃ ws, printAll k 2 data size = some ws := by
      unfold printAll
      by_cases hsize : size = 0
      · rw [if_pos hsize]
        exact ⟨_, rfl⟩
      · have hpos : ¬ size.toInt ≤ 0 := by
          have hint := (toInt_setWidth hw (size.setWidth 32)).1
          rw [toNat_setWidth_size, Nat.mod_eq_of_lt hlt, hkeep] at hint
          have hne : size.toNat ≠ 0 := fun h => hsize (BitVec.eq_of_toNat_eq (by simpa using h))
          rw [hint hsign]
          omega
        rw [if_neg hsize, print_of_writesAll hall hh, hkeep, if_neg hpos, BitVec.sub_self]
        exact ⟨_, rfl⟩
    obtain ⟨ws, hws⟩ := hrun
    exact ⟨2, ws, hws, covers_of_printAll hw hall hh 2 data size ws hws⟩

end Loop

/-- **Windows output.** A call is faithful, and the caller who prints the rest gets to the end, exactly
under these conditions: the call fails or its count is below the sign bit of `isize` and its size is
0 or not a multiple of `2 ^ 32`; and, for the loop, the size itself is below both bounds. -/
theorem print_faithful_iff (hw : w = 32 ∨ w = 64) (k : Kernel32 w) (data size : BitVec w) :
    CountFaithful k data size ∧ LoopFinishes k data size ↔
      (Fails k data size ∨ ((answer k data size).written.toNat < 2 ^ (w - 1) ∧
        (size.toNat = 0 ∨ size.toNat % 2 ^ 32 ≠ 0))) ∧
      (k.WritesAll → getStdHandle k .output ≠ invalidHandle w →
        size.toNat < 2 ^ 32 ∧ size.toNat < 2 ^ (w - 1)) :=
  and_congr (countFaithful_iff hw k data size) (loopFinishes_iff hw data size)

/-- An output handle on which every write is complete. -/
def Kernel32.complete (w : Nat) : Kernel32 w where
  getStdHandle _ := 7
  writeFile _ _ bytes := { ok := 1, written := bytes }
  written_le _ _ _ _ := Nat.le_refl _

/-- Win64 prints a short text faithfully. -/
theorem print_win64_faithful :
    CountFaithful (Kernel32.complete 64) 0x1000 14 ∧ LoopFinishes (Kernel32.complete 64) 0x1000 14 :=
  (print_faithful_iff (Or.inr rfl) (Kernel32.complete 64) 0x1000 14).mpr
    ⟨Or.inr ⟨by decide, Or.inr (by decide)⟩, fun _ _ => ⟨by decide, by decide⟩⟩

/-- Win64 answers 0 for 4 GiB, and Win32 a negative value for 2 GiB that were written. -/
theorem print_faithful_fails :
    ¬ CountFaithful (Kernel32.complete 64) 0x1000 0x100000000 ∧
      ¬ CountFaithful (Kernel32.complete 32) 0x1000 0x80000000 := by
  have hok : ∀ (w : Nat) (data size : BitVec w), (7 : BitVec w) ≠ invalidHandle w →
      ¬ Fails (Kernel32.complete w) data size := by
    intro w data size h7 h
    rcases h with h | h
    · exact h7 h
    · have hone : (1 : BitVec 32) = 0 := h
      exact absurd hone (by decide)
  refine ⟨?_, ?_⟩
  · rintro ⟨-, -, hprog⟩
    exact absurd (hprog (hok 64 _ _ (by decide)) (by decide) (by decide)) (by decide)
  · rintro ⟨hneg, -⟩
    exact hok 32 _ _ (by decide) (hneg.mp (by decide))

end IbSys.SyscallWindows
