/-
# IbSys.Sys.World -- the operating system, and what the library is for

A program stores into its memory and calls `write`, `write_string`, the two overloads of `print`, `mmap`
and `exit`. What these are for can be said without a machine: a write hands the bytes of a span to the
operating system and returns its answer, a count or a negative error code; the string forms do this for the
text in front of the NUL; `mmap` asks for a mapping and returns its address or `MAP_FAILED`, and refuses an
offset that the system cannot express without asking; `exit` ends the process. `specification` is that
reading, over a memory and an operating system in the abstract.

The machine's side is `kernelRequest`, what a kernel of a target takes a trap for, and `OsKernel`, a kernel
that serves its requests as an operating system does. `observe` is what the world sees of the traps of a
run: each of them leaves an event, also one that is for none of these services.
-/
import IbSys.Lib.Process
import IbSys.Sys.ErrorContract
import IbSys.Sys.Scan

namespace IbSys

open ByteMemory RegMachine InlineAsm Detail Process

/-! ## The interface and the world -/

/-- A step of a program: a store of its own, or a call of the library. -/
inductive Op (w : Nat) where
  | store (a : BitVec w) (b : BitVec 8)
  | write (fd data size : BitVec w)
  | writeString (fd string : BitVec w)
  | print (data size : BitVec w)
  | printString (string : BitVec w)
  | mmap (a : MmapArgs w)
  | exit (status : BitVec w)

/-- What the world sees of a program: bytes handed over on a descriptor and mappings asked for, with what
became of them; the end of the process, whose status the kernels take as an `int`; and a system call that
is none of these, by its number. -/
inductive Event (w : Nat) where
  | wrote (fd : BitVec w) (bytes : List (BitVec 8)) (outcome : Outcome w)
  | mapped (request : MmapRequest w) (outcome : Outcome w)
  | exited (status : BitVec 32)
  | strayed (number : BitVec w)

/-- The bytes that a mapping puts into memory. -/
abbrev Pages (w : Nat) := BitVec w → Option (BitVec 8)

/-- Memory with them in it. -/
def Pages.over {w : Nat} (p : Pages w) (mem : Mem w) : Mem w := fun x => (p x).getD (mem x)

/-- An operating system: what it makes of bytes on a descriptor, of a request for a mapping and of any
other number, and how these change it. A mapping begins at a page. -/
structure OpSystem (w : Nat) (σ : Type) where
  write : σ → BitVec w → List (BitVec 8) → Outcome w × σ
  map : σ → MmapRequest w → Outcome w × Pages w × σ
  other : σ → BitVec w → Outcome w × σ
  aligned : ∀ s r v, (map s r).1 = .ok v → v.toNat % 4096 = 0

/-- The bytes `[a, a + n)`. -/
def bytesAt {w : Nat} (mem : Mem w) (a : BitVec w) (n : Nat) : List (BitVec 8) :=
  (List.range n).map fun i => mem (a + BitVec.ofNat w i)

theorem bytesAt_congr {w : Nat} {mem mem' : Mem w} {a : BitVec w} {n : Nat}
    (h : ∀ i < n, mem (a + BitVec.ofNat w i) = mem' (a + BitVec.ofNat w i)) :
    bytesAt mem a n = bytesAt mem' a n :=
  List.map_congr_left fun i hi => h i (List.mem_range.mp hi)

/-- What comes of a system call: what the world sees of it and, unless the process has ended, its outcome
and the memory and the system behind it. -/
abbrev Reply (w : Nat) (σ : Type) := Event w × Option (Outcome w × (Mem w × σ))

namespace OpSystem

variable {w : Nat} {σ : Type}

/-- Bytes are handed over on a descriptor. -/
def put (os : OpSystem w σ) (fd : BitVec w) (bytes : List (BitVec 8)) (mem : Mem w) (s : σ) :
    Reply w σ :=
  let r := os.write s fd bytes
  (.wrote fd bytes r.1, some (r.1, (mem, r.2)))

/-- A mapping is asked for. -/
def mapInto (os : OpSystem w σ) (r : MmapRequest w) (mem : Mem w) (s : σ) : Reply w σ :=
  let x := os.map s r
  (.mapped r x.1, some (x.1, (x.2.1.over mem, x.2.2)))

end OpSystem

/-! ## The specification -/

section Specification

variable {w : Nat} {σ : Type}

/-- The text of a string: its bytes in front of the first NUL. -/
noncomputable def text (mem : Mem w) (s : BitVec w) : Option (List (BitVec 8)) :=
  open Classical in
  if h : ∃ k, mem (s + BitVec.ofNat w k) = 0 then some (bytesAt mem s (Nat.find h)) else none

end Specification

/-! ## Kernels -/

/-- The number under which a kernel serves writes. -/
def writeNumber : Target → Nat
  | .linux .amd64 => 1
  | .linux .i386 | .linux .arm | .linux .ppc64 | .linux .s390x => 4
  | .linux .aarch64 | .linux .riscv64 | .linux .loongarch64 => 64
  | .linux .mips64 => 5001
  | .bsd _ _ | .solaris _ => 4
  | .macos _ => 0x2000004

/-- The number under which it ends the process. -/
def exitNumber : Target → Nat
  | .linux .amd64 => 60
  | .linux .i386 | .linux .arm | .linux .ppc64 | .linux .s390x => 1
  | .linux .aarch64 | .linux .riscv64 | .linux .loongarch64 => 93
  | .linux .mips64 => 5058
  | .bsd _ _ | .solaris _ => 1
  | .macos _ => 0x2000001

inductive Service where
  | write
  | map (c : MmapConv)
  | exit

/-- The service behind a number. -/
def service (t : Target) (n : Nat) : Option Service :=
  if n = writeNumber t then some .write
  else if n = exitNumber t then some .exit
  else (mmapConv t n).map .map

/-- What a trap asks for. -/
inductive Request (w : Nat) where
  | write (fd data size : BitVec w)
  | map (r : MmapRequest w)
  | exit (status : BitVec 32)
  | unserved (number : BitVec w)

def kernelRequest (t : Target) (m : t.Mach) : Request t.width :=
  match service t (t.trapNumber m).toNat with
  | some .write => .write (t.argWord m 0) (t.argWord m 1) (t.argWord m 2)
  | some (.map c) => .map (c.decode t (c.word t m))
  | some .exit => .exit ((t.argWord m 0).setWidth 32)
  | none => .unserved (t.trapNumber m)

/-- What an operating system does with it. -/
def OpSystem.serve {w : Nat} {σ : Type} (os : OpSystem w σ) (mem : Mem w) (s : σ) :
    Request w → Reply w σ
  | .write fd data size => os.put fd (bytesAt mem data size.toNat) mem s
  | .map r => os.mapInto r mem s
  | .exit status => (.exited status, none)
  | .unserved n => (.strayed n, some ((os.other s n).1, (mem, (os.other s n).2)))

/-- A kernel of a target that serves what it is asked for as an operating system does. It reports the
outcome in the way of the target, and leaves the stack pointer of the program alone; the rest of the state
it gives back is its own affair. -/
structure OsKernel (t : Target) {σ : Type} (os : OpSystem t.width σ) where
  run : σ → t.Mach → t.Mach
  reports : ∀ s m o mem s', (os.serve m.mem s (kernelRequest t m)).2 = some (o, (mem, s')) →
    Reports t o (run s m)
  run_mem : ∀ s m o mem s', (os.serve m.mem s (kernelRequest t m)).2 = some (o, (mem, s')) →
    (run s m).mem = mem
  run_sp : ∀ s m, (run s m).regs t.stackReg = m.regs t.stackReg

/-- What the world sees of the traps of a run, in turn, until the process ends. `request` is what the kernel
takes a trap for. -/
def observe {w : Nat} {σ : Type} (request : Machine Reg w → Request w) (os : OpSystem w σ) :
    List (Machine Reg w) → σ → List (Event w) × Option σ
  | [], s => ([], some s)
  | m :: ms, s =>
      match os.serve m.mem s (request m) with
      | (ev, some (_, (_, s'))) =>
          (ev :: (observe request os ms s').1, (observe request os ms s').2)
      | (ev, none) => ([ev], none)

/-! ## What a trap is taken for -/

theorem service_numbers : ∀ t : Target,
    t.sysWrite = writeNumber t ∧ t.sysExit = exitNumber t ∧ writeNumber t ≠ exitNumber t ∧
      writeNumber t < 2 ^ 32 ∧ exitNumber t < 2 ^ 32 := by
  decide

theorem toNat_ofNat_number {t : Target} {n : Nat} (hn : n < 2 ^ 32) :
    (BitVec.ofNat t.width n).toNat = n := by
  rw [BitVec.toNat_ofNat, Nat.mod_eq_of_lt]
  rcases t.width_eq with hw | hw <;> rw [hw] <;> omega

variable {t : Target}

/-- A trap with the number of a write is taken for one. -/
theorem kernelRequest_write {m : t.Mach} (h : t.trapNumber m = BitVec.ofNat t.width (writeNumber t)) :
    kernelRequest t m = .write (t.argWord m 0) (t.argWord m 1) (t.argWord m 2) := by
  obtain ⟨-, -, -, hlt, -⟩ := service_numbers t
  have hservice : service t (writeNumber t) = some .write := if_pos rfl
  rw [kernelRequest, h, toNat_ofNat_number hlt, hservice]

/-- A trap with the number of an exit is taken for one. -/
theorem kernelRequest_exit {m : t.Mach} (h : t.trapNumber m = BitVec.ofNat t.width (exitNumber t)) :
    kernelRequest t m = .exit ((t.argWord m 0).setWidth 32) := by
  obtain ⟨-, -, hne, -, hlt⟩ := service_numbers t
  have hservice : service t (exitNumber t) = some .exit := (if_neg hne.symm).trans (if_pos rfl)
  rw [kernelRequest, h, toNat_ofNat_number hlt, hservice]

/-- What a caller finds in the result register. -/
def Target.seen (t : Target) (o : Outcome t.width) : BitVec t.width :=
  if t.errorReport = .negative then o.negated else o.word

/-- Reporting an outcome leaves the stack pointer alone. -/
theorem answering_sp (t : Target) (o : Outcome t.width) (m : t.Mach) :
    ((Kernel.answering t o).run m).regs t.stackReg = m.regs t.stackReg := by
  have hresult : ∀ t : Target, t.stackReg ≠ t.resultReg ∧ t.errorReport ≠ .reg t.stackReg := by
    decide
  obtain ⟨hne, hind⟩ := hresult t
  simp only [Kernel.answering]
  cases hr : t.errorReport with
  | negative => exact Machine.set_regs_of_ne m _ hne
  | flag => exact Machine.set_regs_of_ne m _ hne
  | reg r =>
      have hr' : t.stackReg ≠ r := by
        rintro rfl
        exact hind hr
      rw [Machine.set_regs_of_ne _ _ hne, Machine.set_regs_of_ne _ _ hr']

/-- A kernel that does nothing but serve. -/
def OsKernel.plain (t : Target) {σ : Type} (os : OpSystem t.width σ) : OsKernel t os where
  run s m :=
    match (os.serve m.mem s (kernelRequest t m)).2 with
    | some (o, (mem, _)) => { (Kernel.answering t o).run m with mem := mem }
    | none => m
  reports s m o mem s' h := by
    rw [h]
    exact (Kernel.answering t o).reports m
  run_mem s m o mem s' h := by
    rw [h]
  run_sp s m := by
    split
    · exact answering_sp t _ m
    · rfl

/-- An operating system on which every write is refused, as on a closed descriptor, that maps zeros where it
is asked to, and knows no other number. -/
def OpSystem.refusing (w : Nat) : OpSystem w Unit where
  write s _ _ := (.fail ⟨9, by decide, by decide⟩, s)
  map s r :=
    if r.addr.toNat % 4096 = 0 then
      (.ok r.addr, fun x => if (x - r.addr).toNat < r.length.toNat then some 0 else none, s)
    else (.fail ⟨22, by decide, by decide⟩, fun _ => none, s)
  other s _ := (.fail ⟨38, by decide, by decide⟩, s)
  aligned s r v h := by
    split at h
    · rename_i haddr
      obtain rfl := Outcome.ok.inj h
      exact haddr
    · exact nomatch h

end IbSys
