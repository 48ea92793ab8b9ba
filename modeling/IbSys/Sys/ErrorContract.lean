/-
# IbSys.Sys.ErrorContract -- what the POSIX layer makes of the kernel's answer

A kernel answers with an outcome, and each target has one way of reporting it. The layer looks at the
result register only. Where failure is a negative errno in that register this is enough, and `mmap`
separates errnos from addresses exactly (`mmap_decodes_negative_errno`). Where failure is a positive
errno and an indicator, the register alone does not say which it is, and the documented contract
("a negative error code on failure", "MAP_FAILED on error") is met exactly by the calls that succeed
(`error_contract_iff_succeeded`).
-/
import IbSys.Sys.MmapCall

namespace IbSys

open RegMachine InlineAsm Detail

/-! ## The errno window -/

section Window

variable {w : Nat}

theorem isErrno_iff (v : BitVec w) : isErrno v = true ↔ v.toInt < 0 ∧ v.toInt > -4096 := by
  rw [isErrno, decide_eq_true_eq]

theorem mapFailed_toInt (hw : w = 32 ∨ w = 64) : (mapFailed w).toInt = -1 := by
  rcases hw with rfl | rfl <;> decide

theorem isErrno_mapFailed (hw : w = 32 ∨ w = 64) : isErrno (mapFailed w) = true := by
  rw [isErrno_iff, mapFailed_toInt hw]
  omega

theorem ne_mapFailed_of_not_isErrno (hw : w = 32 ∨ w = 64) {v : BitVec w}
    (hv : isErrno v = false) : v ≠ mapFailed w := by
  rintro rfl
  rw [isErrno_mapFailed hw] at hv
  exact Bool.noConfusion hv

/-- A positive errno is a small positive word. -/
theorem toInt_word_fail (hw : w = 32 ∨ w = 64) (e : Errno) :
    (Outcome.fail e : Outcome w).word.toInt = e.val := by
  have hle := e.le
  rcases hw with rfl | rfl <;>
    rw [Outcome.word, BitVec.toInt_eq_toNat_cond, BitVec.toNat_ofNat, Nat.mod_eq_of_lt (by omega),
      if_pos (by omega)]

/-- A negated errno lies in the window. -/
theorem isErrno_negated_fail (hw : w = 32 ∨ w = 64) (e : Errno) :
    isErrno (Outcome.fail e : Outcome w).negated = true := by
  have hle := e.le
  have hpos := e.pos
  rw [isErrno_iff]
  rcases hw with rfl | rfl <;> rw [Outcome.negated, BitVec.toInt_ofInt, Int.bmod] <;> omega

/-- No multiple of 4096 lies in the window: high addresses, negative as `isize`, are at -4096 or
below. -/
theorem not_isErrno_of_aligned (hw : w = 32 ∨ w = 64) {v : BitVec w} (hv : v.toNat % 4096 = 0) :
    isErrno v = false := by
  rw [Bool.eq_false_iff, ne_eq, isErrno_iff, BitVec.toInt_eq_toNat_cond]
  have hlt := v.isLt
  rcases hw with rfl | rfl <;> split <;> omega

end Window

/-! ## Kernels that report a negative errno -/

theorem regs_of_reports_negative {t : Target} (ht : t.errorReport = .negative)
    {o : Outcome t.width} {m : t.Mach} (h : Reports t o m) : m.regs t.resultReg = o.negated := by
  rw [Reports, ht] at h
  exact h

/-- **Decoding on the negative-errno backends.** For every answer of the kernel that is an errno or
an address at a multiple of 4096, `mmap` fails exactly when the kernel did or the offset cannot be
expressed in pages; in the second case the kernel is not entered and nothing has changed; otherwise
the mapped address is returned, whatever its top bit. -/
theorem mmap_decodes_negative_errno (t : Target) (ht : t.errorReport = .negative)
    (o : Outcome t.width) (ho : ∀ v, o = .ok v → v.toNat % 4096 = 0) (K : Kernel t o)
    (place : t.Place) (a : MmapArgs t.width) (m : t.Mach) :
    let r := mmap t K.run place a m
    (r.value = mapFailed t.width ↔ o.failed = true ∨ Misaligned t a) ∧
      (Misaligned t a → r.traps = [] ∧ r.mach = m) ∧
      (∀ v, o = .ok v → ¬ Misaligned t a → r.value = v) := by
  intro r
  by_cases hma : Misaligned t a
  · have hr : r = { value := mapFailed t.width, traps := [], mach := m } := by
      simp only [r, mmap_eq, if_pos hma]
    refine ⟨?_, fun _ => by rw [hr]; exact ⟨rfl, rfl⟩, fun _ _ h => absurd hma h⟩
    rw [hr]
    exact iff_of_true rfl (Or.inr hma)
  · obtain ⟨e, -, hval⟩ := mmap_value t K.run place a m hma
    rw [regs_of_reports_negative ht (K.reports e)] at hval
    have hval : r.value = _ := hval
    refine ⟨?_, fun h => absurd h hma, ?_⟩
    · cases o with
      | ok v =>
          have hv := not_isErrno_of_aligned t.width_eq (ho v rfl)
          rw [hval, Outcome.negated, hv]
          simp only [Bool.false_eq_true, if_false, Outcome.failed, hma, or_false, iff_false]
          exact ne_mapFailed_of_not_isErrno t.width_eq hv
      | fail e =>
          rw [hval, isErrno_negated_fail t.width_eq e, if_pos rfl]
          exact iff_of_true rfl (Or.inl rfl)
    · rintro v rfl -
      rw [hval, Outcome.negated, not_isErrno_of_aligned t.width_eq (ho v rfl)]
      rfl

/-- A mapping at the top of the 32-bit address space is returned, not taken for an errno. -/
theorem mmap_i386_high_address :
    (mmap (.linux .i386) (Kernel.answering (.linux .i386) (.ok 0xfffff000)).run (fun _ => .imm 0)
      ⟨0, 4096, 3, 34, -1, 0⟩ default).value = 0xfffff000 :=
  (mmap_decodes_negative_errno (.linux .i386) rfl (.ok 0xfffff000)
    (by intro v hv; obtain rfl := Outcome.ok.inj hv; decide)
    (Kernel.answering (.linux .i386) (.ok 0xfffff000)) (fun _ => .imm 0)
    ⟨0, 4096, 3, 34, -1, 0⟩ default).2.2 _ rfl (by decide)

/-! ## Kernels that report a positive errno and an indicator -/

/-- The contract of `write` and its callers: negative exactly on failure, else the byte count. -/
def WriteContract {w : Nat} (o : Outcome w) (value : BitVec w) : Prop :=
  (value.toInt < 0 ↔ o.failed = true) ∧ ∀ v, o = .ok v → value = v

/-- The contract of `mmap`: `MAP_FAILED` exactly on failure, else the mapped address. -/
def MmapContract {w : Nat} (o : Outcome w) (value : BitVec w) : Prop :=
  (value = mapFailed w ↔ o.failed = true) ∧ ∀ v, o = .ok v → value = v

/-- What a kernel promises of a write of `size` bytes, `size` being at most the largest `isize`: a
successful one reports at most `size`. -/
def IsCountOf {w : Nat} (o : Outcome w) (size : BitVec w) : Prop :=
  size.toNat < 2 ^ (w - 1) ∧ ∀ v, o = .ok v → v.toNat ≤ size.toNat

section Contracts

variable {w : Nat}

theorem writeContract_word_iff (hw : w = 32 ∨ w = 64) {o : Outcome w} {size : BitVec w}
    (ho : IsCountOf o size) : WriteContract o o.word ↔ o.failed = false := by
  cases o with
  | ok v =>
      have hle := ho.2 v rfl
      have hlt := ho.1
      have hnn : ¬ v.toInt < 0 := by
        rw [BitVec.toInt_eq_toNat_cond]
        rcases hw with rfl | rfl <;> split <;> omega
      refine iff_of_true ⟨iff_of_false hnn (by simp [Outcome.failed]), ?_⟩ rfl
      intro v' hv
      exact Outcome.ok.inj hv
  | fail e =>
      have hpos := e.pos
      refine iff_of_false ?_ (by simp [Outcome.failed])
      intro h
      have hlt := h.1.mpr rfl
      rw [toInt_word_fail hw e] at hlt
      omega

theorem mmapContract_word_iff (hw : w = 32 ∨ w = 64) (o : Outcome w) :
    MmapContract o (if isErrno o.word then mapFailed w else o.word) ↔
      ∃ v, o = .ok v ∧ isErrno v = false := by
  cases o with
  | ok v =>
      cases hv : isErrno v with
      | true =>
          -- an address in the window is reported as a failure
          simp only [Outcome.word, hv, if_true]
          refine iff_of_false ?_ ?_
          · intro h
            exact Bool.noConfusion (h.1.mp rfl)
          · rintro ⟨v', hv', hw'⟩
            obtain rfl := Outcome.ok.inj hv'
            rw [hv] at hw'
            exact Bool.noConfusion hw'
      | false =>
          simp only [Outcome.word, hv, Bool.false_eq_true, if_false]
          refine iff_of_true ⟨iff_of_false (ne_mapFailed_of_not_isErrno hw hv) ?_, ?_⟩ ⟨v, rfl, hv⟩
          · simp [Outcome.failed]
          · intro v' hv'
            exact Outcome.ok.inj hv'
  | fail e =>
      -- the errno itself is returned as the address
      have hpos := e.pos
      have hne : isErrno (Outcome.fail e : Outcome w).word = false := by
        rw [Bool.eq_false_iff, ne_eq, isErrno_iff, toInt_word_fail hw e]
        omega
      refine iff_of_false ?_ (by rintro ⟨v, hv, -⟩; exact nomatch hv)
      rw [hne]
      intro h
      exact ne_mapFailed_of_not_isErrno hw hne (h.1.mpr rfl)

end Contracts

theorem regs_of_reports_indicator {t : Target} (ht : t.errorReport ≠ .negative)
    {o : Outcome t.width} {m : t.Mach} (h : Reports t o m) : m.regs t.resultReg = o.word := by
  unfold Reports at h
  cases hr : t.errorReport with
  | negative => exact absurd hr ht
  | flag => rw [hr] at h; exact h.1
  | reg r => rw [hr] at h; exact h.1

theorem not_misaligned_of_indicator {t : Target} (ht : t.errorReport ≠ .negative)
    (a : MmapArgs t.width) : ¬ Misaligned t a := by
  have hno : ∀ t : Target, t.errorReport ≠ .negative → ¬ t.HasMmap2 := by decide
  exact fun h => hno t ht h.1

theorem writeContract_write_iff {t : Target} (ht : t.errorReport ≠ .negative) {o : Outcome t.width}
    (K : Kernel t o) (place : t.Place) (fd data : BitVec t.width) {size : BitVec t.width}
    (m : t.Mach) (ho : IsCountOf o size) :
    WriteContract o (write t K.run place fd data size m).value ↔ o.failed = false := by
  obtain ⟨e, -, hval⟩ := write_value t K.run place fd data size m
  rw [hval, regs_of_reports_indicator ht (K.reports e)]
  exact writeContract_word_iff t.width_eq ho

theorem writeContract_writeString_iff {t : Target} (ht : t.errorReport ≠ .negative)
    {o : Outcome t.width} (K : Kernel t o) (place : t.Place) (fd : BitVec t.width)
    {string n : BitVec t.width} (m : t.Mach)
    (hn : strLength (fun a => some (m.mem a)) string = .length n) (ho : IsCountOf o n) :
    ∃ r, writeString t K.run place fd string m = some r ∧
      (WriteContract o r.value ↔ o.failed = false) := by
  refine ⟨write t K.run place fd string n m, ?_, writeContract_write_iff ht K place fd string m ho⟩
  rw [writeString, hn]

/-- **The error contract on the backends that report out of band.** Every wrapper meets its contract
exactly when the kernel succeeded; for `mmap`, with an address outside the errno window (no multiple
of the page size lies in it). A failed write returns the positive errno as if it were a count, and a
failed `mmap` returns it as if it were an address. -/
theorem error_contract_iff_succeeded (t : Target) (ht : t.errorReport ≠ .negative)
    (o : Outcome t.width) (K : Kernel t o) (place : t.Place) (m : t.Mach) :
    (∀ fd data size, IsCountOf o size →
      (WriteContract o (write t K.run place fd data size m).value ↔ o.failed = false)) ∧
    (∀ fd string n, strLength (fun a => some (m.mem a)) string = .length n → IsCountOf o n →
      ∃ r, writeString t K.run place fd string m = some r ∧
        (WriteContract o r.value ↔ o.failed = false)) ∧
    (∀ data size, IsCountOf o size →
      (WriteContract o (print t K.run place data size m).value ↔ o.failed = false)) ∧
    (∀ string n, strLength (fun a => some (m.mem a)) string = .length n → IsCountOf o n →
      ∃ r, printString t K.run place string m = some r ∧
        (WriteContract o r.value ↔ o.failed = false)) ∧
    (∀ a, MmapContract o (mmap t K.run place a m).value ↔
      ∃ v, o = .ok v ∧ isErrno v = false) := by
  refine ⟨?_, ?_, ?_, ?_, ?_⟩
  · intro fd data size ho
    exact writeContract_write_iff ht K place fd data m ho
  · intro fd string n hn ho
    exact writeContract_writeString_iff ht K place fd m hn ho
  · intro data size ho
    exact writeContract_write_iff ht K place (stdout t.width) data m ho
  · intro string n hn ho
    exact writeContract_writeString_iff ht K place (stdout t.width) m hn ho
  · intro a
    obtain ⟨e, -, hval⟩ := mmap_value t K.run place a m (not_misaligned_of_indicator ht a)
    rw [hval, regs_of_reports_indicator ht (K.reports e)]
    exact mmapContract_word_iff t.width_eq o

/-- On FreeBSD/amd64 a one-byte write that succeeds meets the contract. -/
theorem write_freebsd_amd64_succeeds :
    WriteContract (.ok 1) (write (.bsd .freebsd .amd64)
      (Kernel.answering (.bsd .freebsd .amd64) (.ok 1)).run (fun _ => .imm 0) 1 0x1000 1
        default).value :=
  ((error_contract_iff_succeeded (.bsd .freebsd .amd64) (by decide) (.ok 1)
    (Kernel.answering (.bsd .freebsd .amd64) (.ok 1)) (fun _ => .imm 0) default).1 1 0x1000 1
      ⟨by decide, by intro v hv; obtain rfl := Outcome.ok.inj hv; decide⟩).mpr rfl

/-- On FreeBSD/amd64 a write to a closed descriptor (errno 9) returns the count 9 of a one-byte
request, and an `mmap` the kernel refuses (errno 12) returns the address 12. -/
theorem error_contract_freebsd_amd64_fails :
    ¬ WriteContract (.fail ⟨9, by decide, by decide⟩) (write (.bsd .freebsd .amd64)
        (Kernel.answering (.bsd .freebsd .amd64) (.fail ⟨9, by decide, by decide⟩)).run
        (fun _ => .imm 0) 7 0x1000 1 default).value ∧
      ¬ MmapContract (.fail ⟨12, by decide, by decide⟩) (mmap (.bsd .freebsd .amd64)
        (Kernel.answering (.bsd .freebsd .amd64) (.fail ⟨12, by decide, by decide⟩)).run
        (fun _ => .imm 0) ⟨0, 4096, 3, 0x1002, -1, 0⟩ default).value := by
  refine ⟨?_, ?_⟩
  · intro h
    exact absurd (h.1.mpr rfl) (by decide)
  · intro h
    exact absurd (h.1.mpr rfl) (by decide)

/-! ## Every target -/

/-- A negated errno is negative, and a count is itself. -/
theorem writeContract_negated {w : Nat} (hw : w = 32 ∨ w = 64) {o : Outcome w} {size : BitVec w}
    (ho : IsCountOf o size) : WriteContract o o.negated := by
  cases o with
  | ok v =>
      have hword := (writeContract_word_iff hw ho).mpr rfl
      exact hword
  | fail e =>
      refine ⟨iff_of_true ?_ rfl, fun v hv => absurd hv (by simp)⟩
      exact ((isErrno_iff _).mp (isErrno_negated_fail hw e)).1

/-- **Which targets keep the contract of `write`.** A wrapper answers as documented exactly when the kernel
reports failures as negative errnos, or has not failed. -/
theorem write_contract_iff (t : Target) {o : Outcome t.width} (K : Kernel t o) (place : t.Place)
    (fd data : BitVec t.width) {size : BitVec t.width} (m : t.Mach) (ho : IsCountOf o size) :
    WriteContract o (write t K.run place fd data size m).value ↔
      t.errorReport = .negative ∨ o.failed = false := by
  by_cases ht : t.errorReport = .negative
  · obtain ⟨e, -, hval⟩ := write_value t K.run place fd data size m
    rw [hval, regs_of_reports_negative ht (K.reports e)]
    exact iff_of_true (writeContract_negated t.width_eq ho) (Or.inl ht)
  · rw [or_iff_right ht]
    exact writeContract_write_iff ht K place fd data m ho

/-- On Linux/riscv64 a write to a closed descriptor is answered as documented. -/
theorem write_contract_riscv64 :
    WriteContract (.fail ⟨9, by decide, by decide⟩) (write (.linux .riscv64)
      (Kernel.answering (.linux .riscv64) (.fail ⟨9, by decide, by decide⟩)).run (fun _ => .imm 0)
        7 0x1000 1 default).value :=
  (write_contract_iff (.linux .riscv64) (Kernel.answering _ _) (fun _ => .imm 0) 7 0x1000 default
    ⟨by decide, fun _ h => absurd h (by simp)⟩).mpr (Or.inl rfl)

end IbSys
