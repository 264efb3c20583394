/-
  File:      FxRtos/Lib/TwoRuns.lean
  Subject:   TWO RUNS OF ONE SYSTEM, side by side: what can be seen of them is the same,
             whatever is done to both.

  * `Alike step see s s'` -- every list of actions is possible from `s` exactly if it is possible
    from `s'`, and what is seen afterwards is the same. The prefixes of a list are lists as well,
    so the two runs look the same all along.
  * `Bisimulation` -- a relation that every action keeps; states it relates are alike.
  * `Never step bad s` -- no run from `s` reaches a bad state.
-/
import FxRtos.Lib.Reach
import Mathlib.Data.Option.Basic

namespace FxRtos.Lib

variable {σ α β : Type*} {step : α → σ → Option σ} {see : σ → β} {R : σ → σ → Prop} {s s' s'' : σ}

/-- Runs from two states that look the same. -/
def Alike (step : α → σ → Option σ) (see : σ → β) (s s' : σ) : Prop :=
  ∀ as : List α, (run step as s).map see = (run step as s').map see

/-- Runs that stay out of the bad states. -/
def Never (step : α → σ → Option σ) (bad : σ → Prop) (s : σ) : Prop :=
  ∀ t, Reach step Always s t → ¬ bad t

theorem Alike.refl (s : σ) : Alike step see s s := fun _ => rfl

theorem Alike.symm (h : Alike step see s s') : Alike step see s' s := fun as => (h as).symm

theorem Alike.trans (h : Alike step see s s') (h' : Alike step see s' s'') :
    Alike step see s s'' := fun as => (h as).trans (h' as)

/-- A run that tells two states apart. -/
theorem Alike.seen (h : Alike step see s s') {as : List α} {t t' : σ}
    (ht : run step as s = some t) (ht' : run step as s' = some t') : see t = see t' := by
  have he := h as
  rw [ht, ht'] at he
  exact Option.some.inj he

/-- The same action taken in both. -/
theorem Alike.next (h : Alike step see s s') {a : α} {t t' : σ} (ht : step a s = some t)
    (ht' : step a s' = some t') : Alike step see t t' := by
  intro as
  have he := h (a :: as)
  have hs : run step (a :: as) s = run step as t := congrArg (Option.bind · (run step as)) ht
  have hs' : run step (a :: as) s' = run step as t' := congrArg (Option.bind · (run step as)) ht'
  rwa [hs, hs'] at he

/-- A relation that every action keeps, between states that look the same. -/
structure Bisimulation (step : α → σ → Option σ) (see : σ → β) (R : σ → σ → Prop) : Prop where
  seen : ∀ s s', R s s' → see s = see s'
  step : ∀ s s', R s s' → ∀ a, Option.Rel R (step a s) (step a s')

theorem Bisimulation.run (h : Bisimulation step see R) (hr : R s s') (as : List α) :
    Option.Rel R (run step as s) (run step as s') := by
  induction as generalizing s s' with
  | nil => exact .some hr
  | cons a as ih =>
    have ha := h.step s s' hr a
    show Option.Rel R ((step a s).bind _) ((step a s').bind _)
    generalize step a s = o at ha
    generalize step a s' = o' at ha
    cases ha with
    | some hr' => exact ih hr'
    | none => exact .none

/-- **Related states are alike.** -/
theorem Bisimulation.alike (h : Bisimulation step see R) (hr : R s s') : Alike step see s s' := by
  intro as
  have ha := h.run hr as
  generalize Lib.run step as s = o at ha
  generalize Lib.run step as s' = o' at ha
  cases ha with
  | some hr' => exact congrArg some (h.seen _ _ hr')
  | none => rfl

/-- What holds at the start, is kept by every step and is not bad. -/
theorem Never.of_inv {bad : σ → Prop} {J : σ → Prop} (h0 : J s)
    (hstep : ∀ s a s', J s → step a s = some s' → J s') (hbad : ∀ s, J s → ¬ bad s) :
    Never step bad s := fun t ht => hbad t (ht.inv h0 fun s a s' hj _ hs => hstep s a s' hj hs)

end FxRtos.Lib
