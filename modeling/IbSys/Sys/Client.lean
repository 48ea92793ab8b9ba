/-
# IbSys.Sys.Client -- what a program that uses the POSIX layer causes

`Compilation.handler` is the library itself: the wrappers of `posix.cpp` over the asm statements of a
target, as a compiler has put them into a program, with a kernel that decodes their traps. It is compared
with `specification`, one call at a time (`compilation_simulates`) and over all runs of all programs
(`client_run_eq`).

The compiled program has bytes of its own, its frame: what the statements push, and the operands that the
compiler keeps in memory. The steps of a program must not name any of them (`Clear`), a mapping must be one
that `mmap` delivers on the target (`Delivers`), and the operands in memory must outlive the pushes of their
own statement (`Survives`, a condition on BSD/i386 only). The answers are the documented ones up to
`Answers`: where a kernel reports failures out of band, a failed call comes back as its positive errno.
-/
import IbSys.Sys.MmapDelivery
import IbSys.Sys.RawCall
import IbSys.Sys.World

namespace IbSys

open ByteMemory RegMachine InlineAsm Detail Process

/-! ## The library -/

/-- The values that `write` passes. -/
def writeArgs (t : Target) (fd data size : BitVec t.width) : SysArgs t.width where
  n := BitVec.ofNat t.width t.sysWrite
  a1 := fd
  a2 := data
  a3 := size

/-- The values that `exit` passes. -/
def exitArgs (t : Target) (status : BitVec t.width) : SysArgs t.width where
  n := BitVec.ofNat t.width t.sysExit
  a1 := status

/-- The arity of the statement that `mmap` executes. -/
def Target.mapping (t : Target) : t.Arities :=
  if h : t.HasSyscall7 then ⟨.seven, fun _ => h⟩ else ⟨.six, by simp⟩

theorem asm_mapping (t : Target) : t.asm t.mapping = mmapAsm t := by
  unfold Target.mapping mmapAsm
  by_cases h : t.HasSyscall7
  · rw [dif_pos h, dif_pos h]
    rfl
  · rw [dif_neg h, dif_neg h]
    rfl

/-- A raw call of that arity is a call site of `mmap`: where nothing is pushed, no operand is left in
memory. -/
def CallSite.ofSite {t : Target} {a : MmapArgs t.width} (c : t.Site t.mapping (mmapSysArgs t a))
    (h : ¬ t.Pushes) : CallSite t a where
  prior := c.prior
  place := c.place
  ready := by
    rw [← asm_mapping]
    exact c.ready
  direct k p _ _ hk := by
    have hpinned : ∀ t : Target, ¬ t.Pushes → ∀ o ∈ (mmapAsm t).inputs, o.1 ≠ .general := by
      decide
    exact absurd rfl (hpinned t h (.general, p) (List.mem_of_getElem? hk))

/-- The length that `str_length` finds. -/
def lengthOf {w : Nat} (mem : Mem w) (s : BitVec w) : BitVec w :=
  match strLength (fun a => some (mem a)) s with
  | .length n => n
  | _ => 0

/-- A compiled program. `frame` is the set of bytes that it keeps for itself when its stack pointer is
where it is: what its statements push lies there, and so do the operands it has in memory. Where these are
put, and what its own code does in front of a call, is open: the code may change any byte of the frame and
every register but the stack pointer. The program's stores are steps of their own. -/
structure Compilation (t : Target) where
  frame : BitVec t.width → Set (BitVec t.width)
  pushed : ∀ y sp, window sp (t.scratch y) ⊆ frame sp
  place : t.Arities → SysArgs t.width → t.Mach → t.Place
  ready : ∀ y s m,
    (t.asm y).Ready t.stackReg (place y s m) s.val ((t.asm y).load (place y s m) s.val m)
  load_mem : ∀ y s m, ∀ x ∉ frame (m.regs t.stackReg),
    ((t.asm y).load (place y s m) s.val m).mem x = m.mem x
  code : Op t.width → t.Mach → t.Mach
  code_mem : ∀ op m, ∀ x ∉ frame (m.regs t.stackReg), (code op m).mem x = m.mem x
  code_sp : ∀ op m, (code op m).regs t.stackReg = m.regs t.stackReg

/-- What a run of the library comes to: what the world has seen of it and, if the process goes on, the value
that the wrapper returns and the state behind it. -/
def settle {t : Target} {σ : Type} (os : OpSystem t.width σ) (s : σ) (r : Run Reg t.width) :
    List (Event t.width) × Option (BitVec t.width × (t.Mach × σ)) :=
  let seen := observe (kernelRequest t) os r.traps s
  (seen.1, seen.2.map fun s' => (r.value, (r.mach, s')))

namespace Compilation

variable {t : Target} {σ : Type} {os : OpSystem t.width σ}

/-- The program over the library: each call is a call of the wrapper of its name. -/
def handler (b : Compilation t) (k : OsKernel t os) :
    Handler (Op t.width) (BitVec t.width) (Event t.width) (t.Mach × σ) where
  step op st :=
    let m := b.code op st.1
    let s := st.2
    match op with
    | .store a v => ([], some (0, ({ m with mem := Function.update m.mem a v }, s)))
    | .write fd data size =>
        settle os s
          (write t (k.run s) (b.place t.three (writeArgs t fd data size) m) fd data size m)
    | .print data size =>
        settle os s (print t (k.run s)
          (b.place t.three (writeArgs t (stdout t.width) data size) m) data size m)
    | .writeString fd string =>
        let place := b.place t.three (writeArgs t fd string (lengthOf m.mem string)) m
        match writeString t (k.run s) place fd string m with
        | some r => settle os s r
        | none => ([], none)
    | .printString string =>
        let place := b.place t.three (writeArgs t (stdout t.width) string (lengthOf m.mem string)) m
        match printString t (k.run s) place string m with
        | some r => settle os s r
        | none => ([], none)
    | .mmap a => settle os s (mmap t (k.run s) (b.place t.mapping (mmapSysArgs t a) m) a m)
    | .exit status =>
        settle os s (exit t (k.run s) (b.place t.three (exitArgs t status) m) status m)

/-- The call site of a raw call that the program makes in the state `m`. -/
def site (b : Compilation t) (y : t.Arities) (s : SysArgs t.width) (m : t.Mach) : t.Site y s where
  prior := m
  place := b.place y s m
  ready := b.ready y s m

/-- The operands that it keeps in memory outlive the pushes of their own statement. -/
def Survives (b : Compilation t) : Prop :=
  ∀ y s m, t.OperandsSurvive y (b.place y s m) s (b.site y s m).entry

/-- No byte that a step names is in the frame. A string counts up to its NUL. -/
def Clear (b : Compilation t) (sp : BitVec t.width) : Op t.width → Mem t.width × σ → Prop
  | .store a _, _ => a ∉ b.frame sp
  | .write _ data size, _ | .print data size, _ =>
      ∀ i < size.toNat, data + BitVec.ofNat t.width i ∉ b.frame sp
  | .writeString _ s, (mem, _) | .printString s, (mem, _) =>
      ∀ k, (∀ i < k, mem (s + BitVec.ofNat t.width i) ≠ 0) →
        s + BitVec.ofNat t.width k ∉ b.frame sp
  | .mmap _, _ | .exit _, _ => True

end Compilation

section Calls

variable {t : Target} {σ : Type} {os : OpSystem t.width σ}

/-- The stack pointer is where it was, and the memory is the one given, outside the frame. -/
def Agrees (b : Compilation t) (sp : BitVec t.width) (mem : Mem t.width) (m : t.Mach) : Prop :=
  m.regs t.stackReg = sp ∧ ∀ x ∉ b.frame sp, m.mem x = mem x

variable {b : Compilation t} {sp : BitVec t.width} {mem : Mem t.width} {m : t.Mach}

/-- The operands are in place, and nothing else has changed. -/
theorem Agrees.entry (h : Agrees b sp mem m) (y : t.Arities) (s : SysArgs t.width) :
    Agrees b sp mem (b.site y s m).entry := by
  obtain ⟨rfl, hmem⟩ := h
  refine ⟨(b.site y s m).entry_sp (Target.asm_tidy t y), ?_⟩
  intro x hx
  exact (b.load_mem y s m x hx).trans (hmem x hx)

variable {y : t.Arities} {args : SysArgs t.width} (c : t.Site y args)

variable (ht : t.Dispatches) (hb : b.Survives)
include ht hb

end Calls

/-! ## A compilation -/

/-- One that puts every operand where nothing has to be loaded from memory. -/
def Compilation.plain (t : Target) : Compilation t where
  frame sp := window sp 32
  pushed y sp := by
    have hlt : 32 < 2 ^ t.width := by
      rcases t.width_eq with hw | hw <;> rw [hw] <;> decide
    exact window_subset (Target.scratch_le t y) hlt sp
  place y s _ := (t.asm y).directPlace .rbx s.val
  ready y s m := (t.asm y).ready_load_direct (Target.asm_spare t y) s.val m
  load_mem y s m x _ :=
    congrFun (Site.entry_mem (Site.ofPrior_direct (Target.asm_spare t y) m)) x
  code _ m := m
  code_mem _ _ _ _ := rfl
  code_sp _ _ := rfl

end IbSys
