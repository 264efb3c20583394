/-
  File:      FxRtos/Lib/Reach.lean
  Subject:   RUNS OF A PARTIAL STEP FUNCTION. A system is a function
             `step : α → σ → Option σ`: the action `a` taken in the state `s` leads to at most
             one state, and to none where `a` is not possible.

  * `Reach step G s0 s` -- a run leads from `s0` to `s`, every action of which satisfied the
    guard `G` in the state it was taken in. `G = Always` puts no condition on the run.
  * `run` -- a list of actions executed, for runs written out.
  * `Reach.inv`, `Reach.inv_of` -- the induction over a run, stated once: what holds at the
    start and is kept by every step holds at the end. `inv_of` keeps it only where another
    property, already known of every reached state, holds too.
  * `noted` -- the system with notes kept beside it, which no step depends on.
  * `finitely_often` -- what may not go on for ever in an endless run.
-/
import Mathlib.Logic.Basic
import Mathlib.Data.Option.Basic
import Mathlib.Order.Monotone.Basic
import Mathlib.Order.WellFounded

namespace FxRtos.Lib

variable {σ α : Type*} {step : α → σ → Option σ} {G : σ → α → Prop} {s0 s s' : σ}

/-- A step under a condition that was taken: the condition held. -/
theorem taken {p : Prop} [Decidable p] (h : (if p then some s else none) = some s') :
    p ∧ s = s' := by
  obtain ⟨hp, e⟩ := Option.ite_none_right_eq_some.mp h
  exact ⟨hp, Option.some.inj e⟩

/-- The guard that admits every action. -/
def Always : σ → α → Prop := fun _ _ => True

/-- The states a run of guarded steps leads to. -/
inductive Reach (step : α → σ → Option σ) (G : σ → α → Prop) (s0 : σ) : σ → Prop where
  | start : Reach step G s0 s0
  | next {s s' : σ} (a : α) (h : Reach step G s0 s) (hg : G s a) (hs : step a s = some s') :
      Reach step G s0 s'

/-- **Induction over a run**: what one step preserves, a run preserves. -/
theorem Reach.inv {J : σ → Prop} (h0 : J s0)
    (hstep : ∀ s a s', J s → G s a → step a s = some s' → J s') (h : Reach step G s0 s) : J s := by
  induction h with
  | start => exact h0
  | next a _ hg hs ih => exact hstep _ a _ ih hg hs

/-- Induction over a run with a property `K` already known of every reached state. -/
theorem Reach.inv_of {J K : σ → Prop} (hK : ∀ s, Reach step G s0 s → K s) (h0 : J s0)
    (hstep : ∀ s a s', K s → J s → G s a → step a s = some s' → J s') (h : Reach step G s0 s) :
    J s := by
  induction h with
  | start => exact h0
  | next a h hg hs ih => exact hstep _ a _ (hK _ h) ih hg hs

theorem Reach.mono {G' : σ → α → Prop} (hG : ∀ s a, G s a → G' s a) (h : Reach step G s0 s) :
    Reach step G' s0 s := by
  induction h with
  | start => exact .start
  | next a _ hg hs ih => exact .next a ih (hG _ a hg) hs

theorem Reach.trans {s1 : σ} (h1 : Reach step G s0 s1) (h2 : Reach step G s1 s) :
    Reach step G s0 s := by
  induction h2 with
  | start => exact h1
  | next a _ hg hs ih => exact .next a ih hg hs

/-- A run of a system that refines another one, seen in the other. -/
theorem Reach.map {τ : Type*} {step' : α → τ → Option τ} {G' : τ → α → Prop} (f : σ → τ)
    (hG : ∀ s a, G s a → G' (f s) a)
    (hstep : ∀ s a s', step a s = some s' → step' a (f s) = some (f s'))
    (h : Reach step G s0 s) : Reach step' G' (f s0) (f s) := by
  induction h with
  | start => exact .start
  | next a _ hg hs ih => exact .next a ih (hG _ a hg) (hstep _ a _ hs)

/-- A system with notes beside it: the actions decide what is written down, and not the other
    way round. -/
def noted {γ : Type*} (step : α → σ → Option σ) (note : α → σ → γ → γ) (a : α) (w : σ × γ) :
    Option (σ × γ) :=
  (step a w.1).map fun s' => (s', note a w.1 w.2)

section Notizen

variable {γ : Type*} {note : α → σ → γ → γ} {w w' : σ × γ} {a : α}

theorem noted_some (h : noted step note a w = some w') :
    step a w.1 = some w'.1 ∧ w'.2 = note a w.1 w.2 := by
  obtain ⟨s', hs, rfl⟩ := Option.map_eq_some_iff.mp h
  exact ⟨hs, rfl⟩

/-- The run without the notes. -/
theorem Reach.forget {g0 g : γ} {G' : σ → α → Prop} {Gn : σ × γ → α → Prop}
    (hG : ∀ w a, Gn w a → G' w.1 a) (h : Reach (noted step note) Gn (s0, g0) (s, g)) :
    Reach step G' s0 s :=
  h.map Prod.fst hG fun _ _ _ hs => (noted_some hs).1

/-- Notes that every step keeps right, given what is known of the states themselves. -/
theorem Reach.inv_noted {K : σ → Prop} {J : σ → γ → Prop} {g0 g : γ} {G' : σ → α → Prop}
    {Gn : σ × γ → α → Prop} (hG : ∀ w a, Gn w a → G' w.1 a)
    (hK : ∀ s, Reach step G' s0 s → K s) (h0 : J s0 g0)
    (hstep : ∀ s g a s', K s → J s g → Gn (s, g) a → step a s = some s' → J s' (note a s g))
    (h : Reach (noted step note) Gn (s0, g0) (s, g)) : J s g := by
  refine Reach.inv_of (J := fun w => J w.1 w.2) (K := fun w => K w.1)
    (fun w hw => hK _ (hw.map Prod.fst hG fun _ _ _ hs => (noted_some hs).1)) h0
    (fun w a w' hw hj hg hs => ?_) h
  obtain ⟨hs', he⟩ := noted_some hs
  rw [he]
  exact hstep w.1 w.2 a w'.1 hw hj hg hs'

end Notizen

/-- What lowers a measure that nothing raises happens finitely often in an endless run. -/
theorem finitely_often {g : Nat → Nat} {p : Nat → Prop}
    (hle : ∀ n, g (n + 1) ≤ g n) (hlt : ∀ n, p n → g (n + 1) < g n) :
    ∃ m, ∀ n, m ≤ n → ¬ p n := by
  obtain ⟨_, ⟨m, rfl⟩, hmin⟩ := wellFounded_lt.has_min (Set.range g) ⟨_, 0, rfl⟩
  refine ⟨m, fun n hmn hp => hmin _ ⟨n + 1, rfl⟩ ?_⟩
  exact Nat.lt_of_lt_of_le (hlt n hp) (antitone_nat_of_succ_le hle hmn)

/-- Executes a list of actions. -/
def run (step : α → σ → Option σ) : List α → σ → Option σ
  | [], s => some s
  | a :: as, s => (step a s).bind (run step as)

/-- A run continued from the state it led to. -/
theorem run_append {as bs : List α} (h : run step as s = some s') :
    run step (as ++ bs) s = run step bs s' := by
  induction as generalizing s with
  | nil =>
    cases h
    rfl
  | cons a as ih =>
    obtain ⟨s1, h1, h2⟩ := Option.bind_eq_some_iff.mp h
    show (step a s).bind (run step (as ++ bs)) = _
    rw [h1]
    exact ih h2

/-- Executes a list of actions, each of which has to pass a test. -/
def runIf (g : σ → α → Bool) (step : α → σ → Option σ) : List α → σ → Option σ :=
  run fun a s => if g s a then step a s else none

theorem reach_of_run {as : List α} (h : run step as s0 = some s) : Reach step Always s0 s := by
  induction as generalizing s0 with
  | nil => cases h; exact .start
  | cons a as ih =>
    obtain ⟨s1, h1, h2⟩ := Option.bind_eq_some_iff.mp h
    exact Reach.trans (.next a .start trivial h1) (ih h2)

/-- A list of actions that all pass the test is a guarded run. -/
theorem reach_of_runIf {g : σ → α → Bool} (hg : ∀ s a, g s a = true → G s a) {as : List α}
    (h : runIf g step as s0 = some s) : Reach step G s0 s := by
  induction as generalizing s0 with
  | nil => cases h; exact .start
  | cons a as ih =>
    obtain ⟨s1, h1, h2⟩ := Option.bind_eq_some_iff.mp h
    cases hga : g s0 a with
    | false => simp [hga] at h1
    | true =>
      have hs : step a s0 = some s1 := by simpa [hga] using h1
      exact Reach.trans (.next a .start (hg _ _ hga) hs) (ih h2)

/-- A run written out reaches a state that passes the test `p`. -/
theorem exists_of_run {p : σ → Bool} {as : List α} (h : (run step as s0).any p = true) :
    ∃ s, Reach step Always s0 s ∧ p s = true := by
  obtain ⟨s, hs, hp⟩ := (Option.any_eq_true ..).mp h
  exact ⟨s, reach_of_run hs, hp⟩

theorem exists_of_runIf {g : σ → α → Bool} (hg : ∀ s a, g s a = true → G s a) {p : σ → Bool}
    {as : List α} (h : (runIf g step as s0).any p = true) :
    ∃ s, Reach step G s0 s ∧ p s = true := by
  obtain ⟨s, hs, hp⟩ := (Option.any_eq_true ..).mp h
  exact ⟨s, reach_of_runIf hg hs, hp⟩

end FxRtos.Lib
