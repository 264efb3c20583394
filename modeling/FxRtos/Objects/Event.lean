/-
  File:      FxRtos/Objects/Event.lean
  Subject:   EVENTS AS OBJECTS (fx_event.c): calls that wait for the user's events. Setting,
             resetting and deinitialising them are actions of the system itself, since any event
             may be the cancel event of a wait.
-/
import FxRtos.Kernel.Runs

namespace FxRtos

open Function (update)
open Lib

set_option linter.unusedSectionVars false

variable {T E : Type} [DecidableEq T] [DecidableEq E]

/-- A call of `fx_thread_wait_event` or `fx_thread_timedwait_event`. -/
structure EventCall (E : Type) where
  event : E
  args : WaitArgs E

def fxEvent (checks : Bool) : WaitObject T E Empty Empty Unit (EventCall E) Empty where
  start k _ _ c := if checks ∧ k.valid c.event = false then none else some c
  waitable c := .ev (.user c.event)
  attr _ := none
  args c := c.args
  testWait me c wait s :=
    let r := fxEventTestAndWait s.1 (.user c.event) (me, .main) wait
    (r.1, r.2, s.2)
  after _ _ _ s := (none, s)
  caller p := nomatch p
  op p := nomatch p

theorem fxEvent_lawful (checks : Bool) : (fxEvent checks : WaitObject T E _ _ _ _ _).Lawful where
  testTrue me c wait s s' _ h := by
    have h1 : s.1.ev (.user c.event) = true := congrArg Prod.fst h
    have h2 : (fxEventTestAndWait s.1 (.user c.event) (me, .main) wait).2 = s'.1 :=
      congrArg (·.2.1) h
    rw [← h2]
    simp only [fxEventTestAndWait, h1, Bool.true_eq_false, false_and, if_false]
    exact .refl
  testPoll me c s s' _ h := by
    have h2 : (fxEventTestAndWait s.1 (.user c.event) (me, .main) false).2 = s'.1 :=
      congrArg (·.2.1) h
    rw [← h2]
    simp only [fxEventTestAndWait, Bool.false_eq_true, and_false, if_false]
    exact .refl
  testWait me c s s' _ h := by
    have h1 : s.1.ev (.user c.event) = false := congrArg Prod.fst h
    have h2 : (fxEventTestAndWait s.1 (.user c.event) (me, .main) true).2 = s'.1 :=
      congrArg (·.2.1) h
    rw [← h2]
    simp only [fxEventTestAndWait, h1, and_self, if_true]
    exact ⟨fun e he => by cases he; exact h1, .refl⟩
  after _ _ _ _ := .refl
  op p := nomatch p

end FxRtos
