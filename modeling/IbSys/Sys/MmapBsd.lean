/-
# IbSys.Sys.MmapBsd -- `mmap` on the BSDs and macOS

`mmap` inserts a padding word on NetBSD, OpenBSD and macOS, and passes one word for the offset
everywhere. The handlers of NetBSD and DragonFly have a pad, those of FreeBSD, OpenBSD and macOS do
not, and all of them take a 64-bit position. On the 64-bit targets the two sides agree on FreeBSD and
NetBSD (`mmapDelivered_bsd64_iff`); on the 32-bit ones the position lacks a word everywhere, and
OpenBSD/i386 with offset 0 is the one call that comes out right (`mmapDelivered_bsd32_iff`).
-/
import IbSys.Sys.MmapDelivery
import IbSys.Sys.RawCall

namespace IbSys

open ByteMemory RegMachine InlineAsm SyscallBsdI386

/-! ## 64-bit targets -/

/-- **Delivery on the 64-bit BSDs and macOS.** FreeBSD and NetBSD always get the caller's request.
OpenBSD and macOS take the padding word for the position, so they get it when the offset is 0.
DragonFly never does: its handler reads one word more than `mmap` passes. -/
theorem mmapDelivered_bsd64_iff (t : Target) (hw : t.width = 64)
    (hos : t.os ∈ [Os.freebsd, .netbsd, .openbsd, .dragonfly, .macos]) (a : MmapArgs t.width) :
    MmapDelivered t a ↔
      t.os = .freebsd ∨ t.os = .netbsd ∨ ((t.os = .openbsd ∨ t.os = .macos) ∧ a.offset = 0) := by
  have hconv : ∀ t : Target,
      (t.os = .freebsd → mmapConv t t.sysMmap = some .plain ∧ ¬ t.HasSyscall7) ∧
      (t.os = .netbsd → mmapConv t t.sysMmap = some .padded ∧ t.HasSyscall7) ∧
      (t.os = .openbsd ∨ t.os = .macos → mmapConv t t.sysMmap = some .plain ∧ t.HasSyscall7) ∧
      (t.os = .dragonfly → t.width = 64 →
        mmapConv t t.sysMmap = some .padded ∧ LeavesWord t 6) := by
    decide
  obtain ⟨hfree, hnet, hopen, hdragon⟩ := hconv t
  have h2 : ¬ t.HasMmap2 := by
    intro h
    rw [h.1] at hos
    exact absurd hos (by decide)
  have ha : ¬ Misaligned t a := fun h => h2 h.1
  simp only [List.mem_cons, List.not_mem_nil, or_false] at hos
  have hplain : t.os = .openbsd ∨ t.os = .macos → (MmapDelivered t a ↔ a.offset = 0) := by
    intro h
    obtain ⟨hc, h7⟩ := hopen h
    rw [mmapDelivered_plain_iff hw ha hc]
    simp only [mmapSysArgs, if_neg h2, if_pos h7]
    exact eq_comm
  rcases hos with h | h | h | h | h
  · obtain ⟨hc, h7⟩ := hfree h
    refine iff_of_true ?_ (Or.inl h)
    apply (mmapDelivered_plain_iff hw ha hc).mpr
    simp only [mmapSysArgs, if_neg h2, if_neg h7]
  · obtain ⟨hc, h7⟩ := hnet h
    exact iff_of_true (mmapDelivered_padded hw h2 h7 hc) (Or.inr (Or.inl h))
  · rw [hplain (Or.inl h), h]
    simp
  · obtain ⟨hc, hleft⟩ := hdragon h hw
    refine iff_of_false ?_ (by rw [h]; simp)
    apply not_mmapDelivered_of_leaves hc (by simp) _ hleft
    rw [MmapConv.words, Target.posWords, if_pos hw]
    simp
  · rw [hplain (Or.inr h), h]
    simp

/-- A FreeBSD/amd64 file mapping is delivered. -/
theorem mmapDelivered_freebsd_amd64 :
    MmapDelivered (.bsd .freebsd .amd64) ⟨0, 4096, 1, 2, 3, 4096⟩ :=
  (mmapDelivered_bsd64_iff (.bsd .freebsd .amd64) rfl (by decide) _).mpr (Or.inl rfl)

/-- OpenBSD/amd64 loses the offset 4096, and DragonFly/amd64 reads one word that nobody has set. -/
theorem mmapDelivered_bsd64_fails :
    ¬ MmapDelivered (.bsd .openbsd .amd64) ⟨0, 4096, 1, 2, 3, 4096⟩ ∧
      ¬ MmapDelivered (.bsd .dragonfly .amd64) ⟨0, 4096, 3, 0x1002, -1, 0⟩ := by
  refine ⟨?_, ?_⟩
  · intro h
    have hoff := (mmapDelivered_plain_iff rfl (by decide) rfl).mp h
    exact absurd hoff (by decide)
  · exact not_mmapDelivered_of_leaves rfl (by simp) (k := 6) (by decide) (by decide)

/-! ## i386 -/

section I386

variable {os : BsdOs} {a : MmapArgs (Target.bsd os .i386).width}

/-- The arity of the statement that `mmap` executes. -/
def mmapArity : BsdOs → Arity
  | .netbsd | .openbsd => .seven
  | .freebsd | .dragonfly => .six

theorem mmapAsm_i386 (os : BsdOs) : mmapAsm (.bsd os .i386) = asm (mmapArity os) := by
  cases os <;> rfl

theorem ready_i386 (s : CallSite (.bsd os .i386) a) :
    (asm (mmapArity os)).Ready .esp s.place (mmapSysArgs (.bsd os .i386) a).val s.entry := by
  rw [← mmapAsm_i386]
  exact s.ready

theorem trap_i386 (s : CallSite (.bsd os .i386) a) :
    s.trap = (asm (mmapArity os)).atTrap s.place s.entry := by
  rw [← mmapAsm_i386]
  rfl

/-- The words that are pushed reach the kernel. -/
theorem argWord_i386_pushed (s : CallSite (.bsd os .i386) a) {k : Nat}
    (hk : k < (mmapArity os).params.length) :
    (Target.bsd os .i386).argWord s.trap k = (mmapSysArgs (.bsd os .i386) a).val (.arg k) := by
  -- no operand of a call site is in memory
  have hdirect : ∀ k p b d, (asm (mmapArity os)).inputs[k]? = some (.general, p) →
      s.place (k + 1) ≠ .mem b d := by
    intro j p b d hj
    rw [← mmapAsm_i386] at hj
    exact s.direct j p b d hj
  rw [trap_i386]
  exact (Target.argWords_bsd_i386_iff os (ready_i386 s)).mpr (memOperandsSurvive_of_direct hdirect) k hk

/-- The words above them are those that were on the stack before the call. -/
theorem argWord_i386_above (s : CallSite (.bsd os .i386) a) (i : Nat) (hi : i + 9 < 2 ^ 28) :
    let e : Machine Reg 32 := s.entry
    (Target.bsd os .i386).argWord s.trap ((mmapArity os).params.length + i) =
      loadLE e.mem (e.regs .esp + BitVec.ofNat 32 (4 * i)) := by
  intro e
  have hword := loadLE_atTrap_above (ready_i386 s) i hi
  rw [← Target.argWord_bsd_i386 os] at hword
  rw [trap_i386]
  exact hword

/-- A handler that takes a word above them gets nothing delivered. -/
theorem not_mmapDelivered_i386 {c : MmapConv}
    (hc : mmapConv (.bsd os .i386) (Target.bsd os .i386).sysMmap = some c) (hb : c ≠ .block)
    (hk : (mmapArity os).params.length ∈ c.words (.bsd os .i386)) :
    ¬ MmapDelivered (.bsd os .i386) a := by
  apply not_mmapDelivered_of_stale hc hk
  intro b
  refine ⟨CallSite.ofPrior _ a (filled _ b), ?_⟩
  rw [MmapConv.word_eq_argWord hb]
  have hword := argWord_i386_above (CallSite.ofPrior (.bsd os .i386) a (filled _ b)) 0 (by decide)
  rw [Nat.add_zero] at hword
  have hmem := Site.entry_mem (CallSite.ofPrior (.bsd os .i386) a (filled _ b)).direct
  rw [hword, hmem]
  exact loadLE_fill b _

end I386

/-! ## 32-bit targets -/

/-- A position whose low word is 0 and whose high word is the offset is the offset when that is 0. -/
theorem joinWords_zero_iff {w : Nat} (hw : w = 32) (v : BitVec w) :
    joinWords [0, v] = v.signExtend 64 ↔ v = 0 := by
  subst hw
  refine ⟨?_, ?_⟩
  · intro h
    have hlow := congrArg (BitVec.setWidth 32) h
    rw [show (v.signExtend 64).setWidth 32 = v from setWidth_usizeOfI32 (Or.inr rfl) v] at hlow
    rw [← hlow]
    ext i hi
    simp [joinWords]
  · rintro rfl
    decide

/-- **Delivery on the 32-bit BSDs.** The position is a word short: its high word is left over on
FreeBSD and NetBSD, and on ARM the file descriptor and the position are read from the user stack,
where nothing has been put. OpenBSD/i386 takes the padding word for the low word and the offset for
the high one, which comes to the same when the offset is 0. -/
theorem mmapDelivered_bsd32_iff (os : BsdOs) (hos : os ∈ [BsdOs.freebsd, .netbsd, .openbsd])
    (arch : BsdArch) (harch : arch ∈ [BsdArch.i386, .arm])
    (a : MmapArgs (Target.bsd os arch).width) :
    MmapDelivered (.bsd os arch) a ↔ os = .openbsd ∧ arch = .i386 ∧ a.offset = 0 := by
  -- the fifth word, `fd`, is read from the user stack, and `mmap` loads it into `r4`
  have harm : ∀ os ∈ [BsdOs.freebsd, .netbsd, .openbsd], ∀ a, ¬ MmapDelivered (.bsd os .arm) a := by
    intro os hos a
    cases os with
    | freebsd | openbsd =>
        exact not_mmapDelivered_of_leaves (c := .plain) rfl (by simp) (k := 4)
          (by decide) (by decide)
    | netbsd =>
        exact not_mmapDelivered_of_leaves (c := .padded) rfl (by simp) (k := 4)
          (by decide) (by decide)
    | dragonfly => exact absurd hos (by decide)
  cases arch with
  | amd64 | aarch64 | ppc64 | riscv64 => exact absurd harch (by decide)
  | arm => exact iff_of_false (harm os hos a) (by simp)
  | i386 =>
      cases os with
      | dragonfly => exact absurd hos (by decide)
      | freebsd =>
          -- six words are pushed; the high half of the position is the seventh
          refine iff_of_false ?_ (by simp)
          exact not_mmapDelivered_i386 (c := .plain) rfl (by simp) (by decide)
      | netbsd =>
          -- seven words are pushed; the high half of the position is the eighth
          refine iff_of_false ?_ (by simp)
          exact not_mmapDelivered_i386 (c := .padded) rfl (by simp) (by decide)
      | openbsd =>
          -- seven words are pushed for a handler of seven: the pad is the low half
          have hword : ∀ s : CallSite (.bsd .openbsd .i386) a,
              ∀ k ∈ MmapConv.plain.words (.bsd .openbsd .i386),
              MmapConv.plain.word (.bsd .openbsd .i386) s.trap k =
                (mmapSysArgs (.bsd .openbsd .i386) a).val (.arg k) := by
            intro s k hk
            apply argWord_i386_pushed s
            have hlt : ∀ k ∈ MmapConv.plain.words (.bsd .openbsd .i386), k < 7 := by decide
            exact hlt k hk
          rw [mmapDelivered_iff_pos (c := .plain) rfl (fun h => absurd h.1 (by decide)) hword]
          have hzero := joinWords_zero_iff (w := (Target.bsd .openbsd .i386).width) rfl a.offset
          refine ⟨?_, ?_⟩
          · intro h
            exact ⟨rfl, rfl, hzero.mp h⟩
          · rintro ⟨-, -, h⟩
            exact hzero.mpr h

/-- OpenBSD/i386 delivers an anonymous mapping. -/
theorem mmapDelivered_openbsd_i386 :
    MmapDelivered (.bsd .openbsd .i386) ⟨0, 4096, 3, 0x1002, -1, 0⟩ :=
  (mmapDelivered_bsd32_iff .openbsd (by decide) .i386 (by decide) _).mpr ⟨rfl, rfl, rfl⟩

/-- On FreeBSD/i386 the same mapping gets the high half of its position from the stack, and on
FreeBSD/ARM its descriptor. -/
theorem mmapDelivered_bsd32_fails :
    ¬ MmapDelivered (.bsd .freebsd .i386) ⟨0, 4096, 3, 0x1002, -1, 0⟩ ∧
      ¬ MmapDelivered (.bsd .freebsd .arm) ⟨0, 4096, 3, 0x1002, -1, 0⟩ := by
  refine ⟨?_, ?_⟩
  · exact not_mmapDelivered_i386 (c := .plain) rfl (by simp) (by decide)
  · exact not_mmapDelivered_of_leaves (c := .plain) rfl (by simp) (k := 4)
      (by decide) (by decide)

end IbSys
