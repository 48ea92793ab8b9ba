/-
# IbSys.Demos.HelloWindows -- the stand-alone program for Windows

The program has the text in two encodings: UTF-16 for a console, and bytes for a standard output that is
redirected. It asks for the mode of the output, which only a console has, and falls back to the bytes when
there is none or the console refuses. Nothing is promised about `kernel32.dll` here: each call may answer
as it likes, according to all that has happened. `mainCRTStartup_delivers` is what holds all the same.
-/
import Mathlib

namespace IbSys.HelloWindows

/-! ## Imports -/

/-- The five imports, over a state of the system. `GetConsoleMode` and the two writes return a `BOOL`; what
they store behind their pointers is not looked at. `ExitProcess` does not return. -/
structure Kernel32 (w : Nat) (σ : Type) where
  getStdHandle : BitVec 32 → σ → BitVec w × σ
  getConsoleMode : BitVec w → σ → BitVec 32 × σ
  writeConsoleW : BitVec w → List (BitVec 16) → σ → BitVec 32 × σ
  writeFile : BitVec w → List (BitVec 8) → σ → BitVec 32 × σ

/-- A call that hands over a text, and whether it succeeded. -/
inductive Write (w : Nat) where
  | console (output : BitVec w) (text : List (BitVec 16)) (ok : Bool)
  | file (file : BitVec w) (text : List (BitVec 8)) (ok : Bool)
  deriving DecidableEq

namespace Write

variable {w : Nat}

def handle : Write w → BitVec w
  | .console h _ _ | .file h _ _ => h

def ok : Write w → Bool
  | .console _ _ b | .file _ _ b => b

/-- The UTF-16 units that a reader gets. Bytes of ASCII text are widened. -/
def units : Write w → List (BitVec 16)
  | .console _ text _ => text
  | .file _ text _ => text.map (BitVec.setWidth 16)

end Write

/-! ## The program -/

def kStdOutputHandle : BitVec 32 := -11

/-- The array of a literal, with its NUL. -/
def literal (n : Nat) (s : String) : List (BitVec n) :=
  s.toList.map (fun c => BitVec.ofNat n c.toNat) ++ [0]

def kText : String := "Hello from a freestanding Windows program.\r\n"

def kConsoleText : List (BitVec 16) := literal 16 kText

def kConsoleTextLength : BitVec 32 := BitVec.ofNat 32 (kConsoleText.length - 1)

def kRedirectedText : List (BitVec 8) := literal 8 kText

def kRedirectedTextLength : BitVec 32 := BitVec.ofNat 32 (kRedirectedText.length - 1)

/-- What a run has done: its writes, in order, and the code of `ExitProcess`. -/
structure Run (w : Nat) where
  writes : List (Write w)
  code : BitVec 32

variable {w : Nat} {σ : Type}

def mainCRTStartup (k : Kernel32 w σ) (s : σ) : Run w :=
  let (output, s) := k.getStdHandle kStdOutputHandle s
  let (mode, s) := k.getConsoleMode output s
  -- `wrote` starts at 0
  let (console, wrote, s) :=
    if mode ≠ 0 then
      let text := kConsoleText.take kConsoleTextLength.toNat
      let (wrote, s) := k.writeConsoleW output text s
      ([.console output text (decide (wrote ≠ 0))], wrote, s)
    else ([], 0, s)
  let file :=
    if wrote = 0 then
      let text := kRedirectedText.take kRedirectedTextLength.toNat
      let (ok, _) := k.writeFile output text s
      [.file output text (decide (ok ≠ 0))]
    else []
  { writes := console ++ file, code := 0 }

/-! ## What is handed over -/

/-- The characters of a literal, without its NUL. -/
def characters (n : Nat) (s : String) : List (BitVec n) := s.toList.map fun c => BitVec.ofNat n c.toNat

/-- The count that the program passes leaves out the NUL and nothing else. -/
theorem literal_take {n : Nat} {s : String} (h : s.toList.length < 2 ^ 32) :
    (literal n s).take (BitVec.ofNat 32 ((literal n s).length - 1)).toNat = characters n s := by
  have hlen : (literal n s).length - 1 = (characters n s).length := by
    simp [literal, characters]
  have hlt : (characters n s).length < 2 ^ 32 := by
    simpa [characters] using h
  rw [hlen, BitVec.toNat_ofNat, Nat.mod_eq_of_lt hlt, literal]
  exact List.take_left

/-- Widening the bytes of ASCII text gives its UTF-16 units. -/
theorem characters_widen {s : String} (h : ∀ c ∈ s.toList, c.toNat < 128) :
    (characters 8 s).map (BitVec.setWidth 16) = characters 16 s := by
  rw [characters, characters, List.map_map]
  apply List.map_congr_left
  intro c hc
  have hlt := h c hc
  apply BitVec.eq_of_toNat_eq
  simp only [Function.comp_apply, BitVec.toNat_setWidth, BitVec.toNat_ofNat]
  omega

theorem kText_ascii : ∀ c ∈ kText.toList, c.toNat < 128 := by
  have hall : (kText.toList.all fun c => c.toNat < 128) = true := by decide
  intro c hc
  exact of_decide_eq_true (List.all_eq_true.mp hall c hc)

theorem kText_length : kText.toList.length < 2 ^ 32 := by
  have hlen : kText.toList.length = 44 := by decide
  omega

/-- The writes of a run, by what the calls have answered. -/
theorem mainCRTStartup_cases (k : Kernel32 w σ) (s : σ) :
    ∃ output, output = (k.getStdHandle kStdOutputHandle s).1 ∧
      ((mainCRTStartup k s).writes = [.console output (characters 16 kText) true] ∨
        ∃ ok, (mainCRTStartup k s).writes = [.file output (characters 8 kText) ok] ∨
          (mainCRTStartup k s).writes =
            [.console output (characters 16 kText) false, .file output (characters 8 kText) ok]) := by
  have hconsole : kConsoleText.take kConsoleTextLength.toNat = characters 16 kText :=
    literal_take kText_length
  have hfile : kRedirectedText.take kRedirectedTextLength.toNat = characters 8 kText :=
    literal_take kText_length
  refine ⟨_, rfl, ?_⟩
  simp only [mainCRTStartup, hconsole, hfile]
  by_cases hmode : (k.getConsoleMode (k.getStdHandle kStdOutputHandle s).1
      (k.getStdHandle kStdOutputHandle s).2).1 = 0
  · -- not a console
    simp only [ne_eq, hmode, not_true_eq_false, if_false, if_true, List.nil_append]
    exact Or.inr ⟨_, Or.inl rfl⟩
  · simp only [ne_eq, hmode, not_false_eq_true, if_true]
    split
    · rename_i hrefused
      simp only [hrefused, not_true_eq_false, decide_false, List.singleton_append]
      exact Or.inr ⟨_, Or.inr rfl⟩
    · rename_i hwrote
      left
      simp only [hwrote, not_false_eq_true, decide_true, List.append_nil]

/-- **The text arrives once.** Whatever the calls answer: every write is of the whole text, in the
encoding of its call, to the standard output; at most one succeeds; none does exactly when `WriteFile` has
been called and has refused; and the process ends with code 0. -/
theorem mainCRTStartup_delivers (k : Kernel32 w σ) (s : σ) :
    (∀ x ∈ (mainCRTStartup k s).writes,
      x.handle = (k.getStdHandle kStdOutputHandle s).1 ∧ x.units = characters 16 kText) ∧
    (mainCRTStartup k s).writes.countP Write.ok ≤ 1 ∧
    ((mainCRTStartup k s).writes.countP Write.ok = 0 ↔
      ∃ file text, Write.file file text false ∈ (mainCRTStartup k s).writes) ∧
    (mainCRTStartup k s).code = 0 := by
  have hwiden := characters_widen kText_ascii
  have hcode : (mainCRTStartup k s).code = 0 := rfl
  obtain ⟨output, rfl, hw | ⟨ok, hw | hw⟩⟩ := mainCRTStartup_cases k s
  · rw [hw]
    simp [Write.handle, Write.units, Write.ok, hcode]
  · rw [hw]
    cases ok <;> simp [Write.handle, Write.units, Write.ok, hcode, hwiden]
  · rw [hw]
    cases ok <;> simp [Write.handle, Write.units, Write.ok, hcode, hwiden]

end IbSys.HelloWindows
