/-
  File:      FxRtos/Esr/Levels.lean
  Subject:   BLOCKING BY EPL. "After EPL raised only ESRs with higher EPL can preempt current
             one": the dispatcher compares the level of the ESR to start with that of the current
             one only.

  * `LevelMissed` -- the two ways past that comparison: after an exit or a wait there is no
    current ESR to compare with, and a level that an earlier activation left raised passes for
    the ESR's own.
  * `level_respected` -- where no dispatch of a run is of that kind, an ESR starts only if its EPL
    is stronger than the level of every active one, to any depth.
  * `level_overrun` -- a run of the code in which a raised ESR is preempted by a weaker one.
-/
import FxRtos.Esr.Stack
import Mathlib.Data.Fintype.Basic

namespace FxRtos

open Function (update)
open Lib

set_option linter.unusedSectionVars false

variable {E F Q M : Type} [DecidableEq E] [DecidableEq Q]
variable {cfg : EsrConfig E F} {epl : E → Nat} {psp : F} {msgq : Q → EsrMsgq E M}
variable {s s' : EsrSys E F Q M} {g : E → F} {l : List E} {u me : E}

/-! ## 1. The levels along the stack -/

def EsrOp.isDispatch : EsrOp E F Q M → Bool
  | .dispatch _ => true
  | _ => false

/-- The scheduler gives an ESR that is not active and whose EPL is no stronger than the level of
    the strongest active one; and the test of the dispatcher is not made, or made with another
    level. -/
def LevelMissed (s : EsrSys E F Q M) : Prop :=
  s.sched.reschedPending = true ∧ ∃ n u, s.sched.gDomain.get = some n ∧
    (s.esr n).active = false ∧ (s.esr u).active = true ∧
    (∀ v, (s.esr v).active = true → s.prio u ≤ s.prio v) ∧ (s.esr u).epl ≤ s.prio n ∧
    (s.currentEsr = none ∨ (s.esr n).epl < (s.esr u).epl)

/-- No dispatch misses a level. -/
def LevelTested (s : EsrSys E F Q M) (a : EsrOp E F Q M) : Prop :=
  a.isDispatch = true → ¬ LevelMissed s

instance [Fintype E] (s : EsrSys E F Q M) : Decidable (LevelMissed s) :=
  inferInstanceAs (Decidable (s.sched.reschedPending = true ∧ ∃ n u,
    s.sched.gDomain.get = some n ∧ (s.esr n).active = false ∧ (s.esr u).active = true ∧
    (∀ v, (s.esr v).active = true → s.prio u ≤ s.prio v) ∧ (s.esr u).epl ≤ s.prio n ∧
    (s.currentEsr = none ∨ (s.esr n).epl < (s.esr u).epl)))

instance [Fintype E] (s : EsrSys E F Q M) (a : EsrOp E F Q M) : Decidable (LevelTested s a) :=
  inferInstanceAs (Decidable (a.isDispatch = true → ¬ LevelMissed s))

/-- Every ESR that interrupted another one is stronger than the level at which it did. -/
def LevelsRise (s : EsrSys E F Q M) (l : List E) : Prop :=
  l.Pairwise fun x y => s.prio x < (s.esr y).epl

/-- The level of the one on top is its own affair. -/
theorem LevelsRise.congr (h : LevelsRise s (u :: l)) (hp : ∀ e, s'.prio e = s.prio e)
    (he : ∀ e, e ∈ l → (s'.esr e).epl = (s.esr e).epl) : LevelsRise s' (u :: l) := by
  obtain ⟨hu, hl⟩ := List.pairwise_cons.mp h
  refine List.pairwise_cons.mpr ⟨fun y hy => ?_, hl.imp_of_mem fun {x y} _ hy hxy => ?_⟩
  · rw [hp, he y hy]
    exact hu y hy
  · rw [hp, he y hy]
    exact hxy

/-- **An ESR started by a tested dispatch is stronger than every level on the stack**: than that
    of the one on top by the test, than those below by the priorities. -/
theorem LevelsRise.push {n : E} (h : LevelsRise s (u :: l)) (hst : EsrStack cfg s g (u :: l))
    (hget : s.sched.gDomain.get = some n) (hp : s.sched.reschedPending = true)
    (ha : (s.esr n).active = false) (hlt : s.prio n < s.prio u) (hpre : s.preempts n = true)
    (hm : ¬ LevelMissed s) : ∀ y ∈ u :: l, s.prio n < (s.esr y).epl := by
  intro y hy
  rcases List.mem_cons.mp hy with rfl | hy
  · refine Nat.lt_of_not_le fun hle => hm ⟨hp, n, y, hget, ha, ?_, fun v hv => ?_, hle, ?_⟩
    · exact (hst.mem y).mp List.mem_cons_self
    · rcases hst.prio_le hv with rfl | hgt
      · exact Nat.le_refl _
      · exact Nat.le_of_lt hgt
    · rcases hst.top with ⟨hc, _⟩ | ⟨hc, _⟩
      · have hc' : s.currentEsr = some y := hc
        unfold EsrSys.preempts at hpre
        rw [hc'] at hpre
        exact .inr (of_decide_eq_true hpre)
      · exact .inl hc
  · exact hlt.trans ((List.pairwise_cons.mp h).1 y hy)

/-- The stack with its levels. -/
def LevelOk (cfg : EsrConfig E F) (epl : E → Nat) (s : EsrSys E F Q M) : Prop :=
  ∃ g l, EsrOk cfg epl s g ∧ EsrStack cfg s g l ∧ LevelsRise s l

/-- **A step whose dispatch is tested** keeps the levels, and what it starts is stronger than
    the level of every active ESR. -/
theorem LevelOk.step {a : EsrOp E F Q M} (h : LevelOk cfg epl s) (hg : LevelTested s a)
    (hs : esrStep cfg a s = some s') : LevelOk cfg epl s' ∧
      ∀ n, (s.esr n).active = false → (s'.esr n).active = true →
        ∀ u, (s.esr u).active = true → s.prio n < (s.esr u).epl := by
  obtain ⟨g, l, hok, hst, hrise⟩ := h
  have hok' := hok.step hs
  obtain ⟨u, below, rfl⟩ := hst.exists_cons
  obtain ⟨hnot, _⟩ := List.nodup_cons.mp hst.nodup
  rcases esr_cases hs with ⟨f, rfl, hs'⟩ | ⟨hn, ha⟩ | ⟨me, hm, hne, hn, ha⟩
  · have hepl : ∀ e, (s'.esr e).epl = (s.esr e).epl := fun e => by rw [hs', dispatch_epl]
    have hprio : ∀ e, s'.prio e = s.prio e := fun e => by rw [hs', dispatch_prio]; rfl
    rcases (hst.setPsp f).dispatch hok.sched hs' with
      ⟨hst', _, hesr, _⟩ | ⟨n, hget, hp, _, ha, hlt, hpre, _, hst'⟩
    · refine ⟨⟨_, _, hok', hst', hrise.congr hprio fun e _ => hepl e⟩, fun n hn hn' => ?_⟩
      have hn'' : (s.esr n).active = true := by
        rw [hesr] at hn'
        exact hn'
      rw [hn] at hn''
      cases hn''
    · have hall := hrise.push hst hget hp ha hlt hpre (hg rfl)
      refine ⟨⟨_, _, hok', hst', List.pairwise_cons.mpr ⟨fun y hy => ?_,
        hrise.congr hprio fun e _ => hepl e⟩⟩, fun x hx hx' v hv => ?_⟩
      · rw [hprio, hepl]
        exact hall y hy
      · -- the one started is the only new one on the stack
        have hxn : x = n := by
          rcases List.mem_cons.mp ((hst'.mem x).mpr hx') with rfl | hm
          · rfl
          · rw [(hst.mem x).mp hm] at hx
            cases hx
        rw [hxn]
        exact hall v ((hst.mem v).mpr hv)
  · refine ⟨⟨_, _, hok', ?_, hrise.congr hn.prio fun e he => hn.epl e fun hc => ?_⟩, ?_⟩
    · rw [interruptedAt_other ha]
      exact hst.sameNest hn
    · have := (hst.current_top hc).1
      exact hnot (Option.some.inj this ▸ he)
    · intro n hn0 hn1
      rw [hn.active, hn0] at hn1
      cases hn1
  · have hum : u = me := Option.some.inj (hst.current_top hm).1
    refine ⟨⟨_, below, hok', ?_, ?_⟩, ?_⟩
    · rw [interruptedAt_other ha]
      exact hst.left hm hne hn
    · refine (List.pairwise_cons.mp hrise).2.imp_of_mem fun {x y} _ hy hxy => ?_
      have hym : y ≠ me := fun e => hnot (hum ▸ e ▸ hy)
      rw [hn.prio, hn.epl y hym]
      exact hxy
    · intro n hn0 hn1
      rw [((hn.active n).mp hn1).1] at hn0
      cases hn0

/-! ## 2. Runs -/

theorem levelOk_start (hl : EsrLevels cfg epl) : LevelOk cfg epl (esrStart cfg epl psp msgq) := by
  have hok : EsrOk cfg epl (esrStart cfg epl psp msgq) fun _ => psp := esrOk_start hl _
  obtain ⟨l, hst⟩ := hok.stack
  refine ⟨_, l, hok, hst, ?_⟩
  -- only the idle ESR is active
  have hone : ∀ e ∈ l, e = cfg.idle := fun e he => of_decide_eq_true ((hst.mem e).mp he)
  refine hst.order.imp_of_mem fun {x y} hx hy hxy => ?_
  rw [hone x hx, hone y hy] at hxy
  exact absurd hxy (Nat.lt_irrefl _)

/-- **Blocking by EPL, where no dispatch misses a level.** In a run in which every dispatch tests
    the level that counts, an ESR is started only if its EPL is stronger than the current level
    of every ESR that runs or is interrupted, however deep they are nested. -/
theorem level_respected (hl : EsrLevels cfg epl) {a : EsrOp E F Q M}
    (h : Reach (esrStep cfg) LevelTested (esrStart cfg epl psp msgq) s) (hg : LevelTested s a)
    (hs : esrStep cfg a s = some s') {n : E} (hn : (s.esr n).active = false)
    (hn' : (s'.esr n).active = true) :
    ∀ u, (s.esr u).active = true → epl n < (s.esr u).epl := by
  have hlev : LevelOk cfg epl s :=
    h.inv (levelOk_start hl) fun _ _ _ hj hg hs => (hj.step hg hs).1
  obtain ⟨_, hnew⟩ := hlev.step hg hs
  obtain ⟨g, _, hok, _⟩ := hlev
  intro u hu
  rw [← hok.prio n]
  exact hnew n hn hn' u hu

/-- The condition is exact: a dispatch that misses a level starts an ESR that is no stronger than
    the level of an active one. -/
theorem level_missed (hl : EsrLevels cfg epl)
    (h : Reach (esrStep cfg) Always (esrStart cfg epl psp msgq) s) (hm : LevelMissed s) (f : F)
    (hs : esrStep cfg (.dispatch f) s = some s') :
    ∃ n u, (s.esr n).active = false ∧ (s'.esr n).active = true ∧ (s.esr u).active = true ∧
      (s.esr u).epl ≤ epl n := by
  have hok : ∃ g, EsrOk cfg epl s g := h.inv (J := fun s => ∃ g, EsrOk cfg epl s g)
    ⟨fun _ => psp, esrOk_start hl _⟩ fun s a s' ⟨g, hj⟩ _ hs => ⟨_, hj.step hs⟩
  obtain ⟨g, hok⟩ := hok
  obtain ⟨l, hst⟩ := hok.stack
  obtain ⟨top, below, rfl⟩ := hst.exists_cons
  obtain ⟨hp, n, u, hget, hn, hu, hmin, hle, htest⟩ := hm
  have hut : u = top := by
    rcases hst.prio_le hu with e | hlt
    · exact e
    · exact absurd (hmin top ((hst.mem top).mp List.mem_cons_self)) (Nat.not_le_of_lt hlt)
  have hpre : s.preempts n = true := by
    unfold EsrSys.preempts
    rcases hst.top with ⟨hc, _⟩ | ⟨hc, _⟩
    · have hc' : s.currentEsr = some top := hc
      rcases htest with hc0 | hlt
      · rw [hc0] at hc'
        cases hc'
      · rw [hc', ← hut]
        exact decide_eq_true hlt
    · rw [hc]
      rfl
  have hs' : esrDispatchHandler cfg.alloc { s with psp := f } = s' := Option.some.inj hs
  refine ⟨n, u, hn, ?_, hu, hok.prio n ▸ hle⟩
  rw [← hs', dispatch_pending (by exact hp) (by exact hget)]
  simp only
  rw [if_pos (by exact hpre)]
  unfold EsrSys.switchTo
  rw [if_neg (by show (s.esr n).active ≠ true; rw [hn]; exact Bool.false_ne_true)]
  show (update s.esr n _ n).active = true
  rw [Function.update_self]

/-- The ESR of EPL 21 has raised its level to 5; that of EPL 1 is started over it. -/
theorem level_respected_raised : ∃ s s' : EsrSys (Fin 4) Nat Bool Nat,
    (s.esr 2).epl = 5 ∧ esrStep fourEsrs (.dispatch 500) s = some s' ∧
      (s'.esr 0).active = true ∧ ∀ u, (s.esr u).active = true → fourEpls 0 < (s.esr u).epl := by
  have hrun : (runIf (fun s a => decide (LevelTested s a)) (esrStep fourEsrs)
      [.activate 2 none, .dispatch 900, .call .stub, .call .stub, .call (.raisePl 5),
        .activate 0 none] fourStart).any (fun s => decide ((s.esr 2).epl = 5 ∧
          LevelTested s (.dispatch 500) ∧ (s.esr 0).active = false ∧
          (esrStep fourEsrs (.dispatch 500) s).any (fun s' => (s'.esr 0).active) = true)) =
      true := by
    decide +kernel
  obtain ⟨s, hreach, hs⟩ := exists_of_runIf (fun _ _ h => of_decide_eq_true h) hrun
  obtain ⟨h5, hg, hn, hany⟩ := of_decide_eq_true hs
  obtain ⟨s', hs', hn'⟩ := (Option.any_eq_true ..).mp hany
  exact ⟨s, s', h5, hs', hn', level_respected fourEpls_ok hreach hg hs' hn hn'⟩

/-- **In the code a raised ESR is preempted by a weaker one.** The ESR of EPL 21 raises its level
    to 5 and is interrupted by that of EPL 1, during which the ESR of EPL 11 is activated; when
    the one of EPL 1 exits, the one of EPL 11 is started, and not the raised one resumed. -/
theorem level_overrun : ¬ ∀ (s s' : EsrSys (Fin 4) Nat Bool Nat) (a : EsrOp (Fin 4) Nat Bool Nat),
    Reach (esrStep fourEsrs) Always fourStart s → esrStep fourEsrs a s = some s' →
      ∀ n, (s.esr n).active = false → (s'.esr n).active = true →
        ∀ u, (s.esr u).active = true → fourEpls n < (s.esr u).epl := by
  intro hall
  have hrun : (run (esrStep fourEsrs)
      [.activate 2 none, .dispatch 900, .call .stub, .call .stub, .call (.raisePl 5),
        .activate 0 none, .dispatch 500, .call .stub, .call .stub, .activate 1 none, .call .exit]
      fourStart).any (fun s => decide ((s.esr 2).active = true ∧ (s.esr 2).epl = 5 ∧
        (s.esr 1).active = false ∧ (esrStep fourEsrs (.dispatch 300) s).any
          (fun s' => (s'.esr 1).active) = true)) = true := by
    decide +kernel
  obtain ⟨s, hreach, hs⟩ := exists_of_run hrun
  obtain ⟨hu, h5, hn, hany⟩ := of_decide_eq_true hs
  obtain ⟨s', hs', hn'⟩ := (Option.any_eq_true ..).mp hany
  have hlt := hall s s' _ hreach hs' 1 hn hn' 2 hu
  rw [h5] at hlt
  exact absurd hlt (by decide)

end FxRtos
