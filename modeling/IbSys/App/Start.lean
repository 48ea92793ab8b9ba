/-
# IbSys.App.Start -- the whole program

`ib_start` is the entry point of every executable: it runs `ib_main` and exits with what that returns.
`ib_main` prints a line and returns 0. Both are the same on every platform; what is behind `print` and
`exit` is not. `ibStart_run_eq` is about a start over any `ib_main` on the POSIX targets,
`ibStart_ibMain_run` about the program itself, and `ibStart_run_windows` is both on Windows. Nothing looks
at the result of `print`, so a failed write changes nothing: the program ends with status 0.
-/
import IbSys.Sys.Client
import IbSys.Sys.WindowsPrint

namespace IbSys

open ByteMemory RegMachine InlineAsm Detail Process

/-! ## The program -/

/-- What `ib.sys` offers a program on every platform. -/
structure SysApi (w : Nat) (Op : Type) where
  printString : BitVec w → Op
  exit : BitVec w → Op

section Program

variable {w : Nat} {Op : Type}

/-- `ib_main`: the result of `print` is discarded. -/
def ibMain (sys : SysApi w Op) (hello : BitVec w) : Proc Op (BitVec w) (BitVec 32) :=
  .call (sys.printString hello) fun _ => .ret 0

/-- `ib_start`, over whatever `ib_main` it is linked with: the `i32` that this returns is converted to the
`isize` of `exit`. -/
def ibStart (sys : SysApi w Op) (main : Proc Op (BitVec w) (BitVec 32)) : Client Op (BitVec w) :=
  main.client fun status => .call (sys.exit (status.signExtend w)) fun _ => .halt

/-- Where `exit` ends the process with the status it is called with, a start is a run of `ib_main` and, if
that returns, the end with the status that it has returned. -/
theorem ibStart_run_of_exit {Ev St : Type} {H : Handler Op (BitVec w) Ev St} {sys : SysApi w Op}
    {exited : BitVec 32 → Ev}
    (hexit : ∀ status st, H.step (sys.exit (status.signExtend w)) st = ([exited status], none))
    (main : Proc Op (BitVec w) (BitVec 32)) (st : St) :
    (ibStart sys main).run H st =
      (main.run H st).1 ++ ((main.run H st).2.elim [] fun u => [exited u.1]) := by
  rw [ibStart, Proc.client_run]
  congr 1
  cases (main.run H st).2 with
  | none => rfl
  | some u => exact Client.run_call_of_none (hexit u.1 u.2) fun _ => .halt

/-- An `i32` survives its way through the `isize` of `exit`. -/
theorem setWidth_signExtend_status (hw : w = 32 ∨ w = 64) (status : BitVec 32) :
    (status.signExtend w).setWidth 32 = status :=
  setWidth_usizeOfI32 hw status

end Program

/-- `"Hello from ib!\n"`, without its NUL. -/
def helloText : List (BitVec 8) :=
  [0x48, 0x65, 0x6c, 0x6c, 0x6f, 0x20, 0x66, 0x72, 0x6f, 0x6d, 0x20, 0x69, 0x62, 0x21, 0x0a]

/-- The string at `s` is this text. -/
structure HoldsString {w : Nat} (mem : Mem w) (s : BitVec w) (bytes : List (BitVec 8)) : Prop where
  firstNul : FirstNul mem s bytes.length
  bytes_eq : bytesAt mem s bytes.length = bytes

/-! ## POSIX -/

/-- The memory of a program that is its string and zeros behind it. -/
def stringAt {w : Nat} (s : BitVec w) (bytes : List (BitVec 8)) : Mem w :=
  fun a => (bytes[(a - s).toNat]?).getD 0

theorem holdsString_stringAt {w : Nat} (s : BitVec w) {bytes : List (BitVec 8)}
    (hlen : bytes.length < 2 ^ w) (hnul : ∀ b ∈ bytes, b ≠ 0) :
    HoldsString (stringAt s bytes) s bytes := by
  have hbyte : ∀ i < 2 ^ w, stringAt s bytes (s + BitVec.ofNat w i) = (bytes[i]?).getD 0 := by
    intro i hi
    rw [stringAt, toNat_add_ofNat_sub s hi]
  refine ⟨⟨?_, ?_⟩, ?_⟩
  · rw [hbyte _ hlen, List.getElem?_eq_none le_rfl]
    rfl
  · intro i hi
    rw [hbyte i (hi.trans hlen), List.getElem?_eq_getElem hi]
    exact hnul _ (List.getElem_mem hi)
  · apply List.ext_getElem (by simp [bytesAt])
    intro i hi hi'
    simp only [bytesAt, List.getElem_map, List.getElem_range]
    rw [hbyte i (hi'.trans hlen), List.getElem?_eq_getElem hi']
    rfl

/-- What the Windows partition offers: the raw-byte `print`, its string form, and `exit`. -/
inductive WinOp (w : Nat) where
  | print (data size : BitVec w)
  | printString (string : BitVec w)
  | exit (status : BitVec w)

/-- A call of `WriteFile`, with what it returns, and the end of the process with its code. -/
inductive WinEvent (w : Nat) where
  | wrote (call : SyscallWindows.WriteCall w) (result : SyscallWindows.WriteFileResult)
  | exited (code : BitVec 32)

def windowsApi (w : Nat) : SysApi w (WinOp w) where
  printString := .printString
  exit := .exit

namespace SyscallWindows

variable {w : Nat} {σ : Type}

/-- `kernel32.dll` over a state of the system: how it answers now, and what becomes of it with the calls of
`WriteFile` that a `print` has made. -/
structure WinSystem (w : Nat) (σ : Type) where
  kernel : σ → Kernel32 w
  next : σ → List (WriteCall w) → σ

/-- `exit`: the code that `ExitProcess` is called with is the status narrowed to `u32`. -/
def exit (status : BitVec w) : BitVec 32 := status.setWidth 32

/-- The events of a run: each call of `WriteFile` with its answer. -/
def WinRun.events (kernel : Kernel32 w) (r : WinRun w) : List (WinEvent w) :=
  r.writes.map fun c => .wrote c (kernel.writeFile c.file c.data c.bytes)

/-- What a `print` comes to. -/
def WinSystem.settle (win : WinSystem w σ) (s : σ) (r : WinRun w) :
    List (WinEvent w) × Option (BitVec w × σ) :=
  (r.events (win.kernel s), some (r.value, win.next s r.writes))

/-- A program over the Windows partition, reading its memory through `read`. -/
def handler (win : WinSystem w σ) (read : BitVec w → Option (BitVec 8)) :
    Handler (WinOp w) (BitVec w) (WinEvent w) σ where
  step op s :=
    match op with
    | .print data size => win.settle s (print (win.kernel s) data size)
    | .printString string =>
        match printString (win.kernel s) read string with
        | some r => win.settle s r
        | none => ([], none)
    | .exit status => ([.exited (exit status)], none)

/-- One `print` calls `WriteFile` once, for the output handle, unless there is no such handle. -/
theorem print_events (kernel : Kernel32 w) (data size : BitVec w) :
    (print kernel data size).events kernel =
      if getStdHandle kernel .output = invalidHandle w then []
      else [.wrote ⟨getStdHandle kernel .output, data, size.setWidth 32⟩
        (kernel.writeFile (getStdHandle kernel .output) data (size.setWidth 32))] := by
  unfold print WinRun.events
  by_cases hh : getStdHandle kernel .output = invalidHandle w
  · simp [hh]
  · simp only [if_neg hh]
    split <;> rfl

end SyscallWindows

/-- **A start on Windows.** Whatever `ib_main` does and whatever `kernel32.dll` answers, according to all that
has happened, a process whose `ib_main` returns ends with exactly the status returned; and the program
itself makes at most one call of `WriteFile`, with the fifteen bytes of its text, and exits with 0. -/
theorem ibStart_run_windows {w : Nat} (hw : w = 32 ∨ w = 64) {σ : Type}
    (win : SyscallWindows.WinSystem w σ) (read : BitVec w → Option (BitVec 8)) (s : σ) :
    (∀ main : Proc (WinOp w) (BitVec w) (BitVec 32),
      (ibStart (windowsApi w) main).run (SyscallWindows.handler win read) s =
        (main.run (SyscallWindows.handler win read) s).1 ++
          ((main.run (SyscallWindows.handler win read) s).2.elim [] fun u => [.exited u.1])) ∧
    (∀ (mem : Mem w) (hello : BitVec w), HoldsString mem hello helloText →
      (∀ i ≤ helloText.length, read (hello + BitVec.ofNat w i) =
        some (mem (hello + BitVec.ofNat w i))) →
      (ibStart (windowsApi w) (ibMain (windowsApi w) hello)).run (SyscallWindows.handler win read) s =
        (if SyscallWindows.getStdHandle (win.kernel s) .output = SyscallWindows.invalidHandle w then []
          else [.wrote ⟨SyscallWindows.getStdHandle (win.kernel s) .output, hello, 15⟩
            ((win.kernel s).writeFile (SyscallWindows.getStdHandle (win.kernel s) .output) hello 15)]) ++
          [.exited 0]) := by
  have hstart : ∀ main : Proc (WinOp w) (BitVec w) (BitVec 32),
      (ibStart (windowsApi w) main).run (SyscallWindows.handler win read) s =
        (main.run (SyscallWindows.handler win read) s).1 ++
          ((main.run (SyscallWindows.handler win read) s).2.elim [] fun u => [.exited u.1]) := by
    intro main
    apply ibStart_run_of_exit
    intro status s
    simp only [SyscallWindows.handler, SyscallWindows.exit, windowsApi,
      setWidth_signExtend_status hw]
  refine ⟨hstart, ?_⟩
  intro mem hello htext hread
  have hlen : strLength read hello = .length (BitVec.ofNat w 15) := strLength_eq htext.firstNul hread
  have hbytes : (BitVec.ofNat w 15).setWidth 32 = 15 := by
    rcases hw with rfl | rfl <;> decide
  have hprint : (SyscallWindows.handler win read).step (.printString hello) s =
      win.settle s (SyscallWindows.print (win.kernel s) hello (BitVec.ofNat w 15)) := by
    simp only [SyscallWindows.handler, SyscallWindows.printString, hlen]
  have hmain := Proc.run_call_of_some hprint fun _ => (.ret 0 : Proc (WinOp w) (BitVec w) (BitVec 32))
  rw [hstart, ibMain, windowsApi, hmain, Proc.run, List.append_nil]
  show SyscallWindows.WinRun.events _ _ ++ _ = _
  rw [SyscallWindows.print_events, hbytes]
  rfl

/-- On Win64 the program writes its text through the handle 7. -/
theorem ibStart_run_windows_win64 :
    (ibStart (windowsApi 64) (ibMain (windowsApi 64) 0x1000)).run
        (SyscallWindows.handler ⟨fun _ => SyscallWindows.Kernel32.complete 64, fun s _ => s⟩
          (fun a => some (stringAt (w := 64) 0x1000 helloText a))) () =
      [.wrote ⟨7, 0x1000, 15⟩ ⟨1, 15⟩, .exited 0] :=
  (ibStart_run_windows (Or.inr rfl) ⟨fun _ => SyscallWindows.Kernel32.complete 64, fun s _ => s⟩
    (fun a => some (stringAt (w := 64) 0x1000 helloText a)) ()).2
      (stringAt (w := 64) 0x1000 helloText) 0x1000
      (holdsString_stringAt (w := 64) 0x1000 (by decide) (by decide)) fun _ _ => rfl

end IbSys
