/-
  File:      FxRtos/Objects/SemAccount.lean
  Subject:   CONSERVATION OF SEMAPHORES. What is posted is in the counter, has been granted to a
             wait, or was discarded by a reset.

  * `SemAccount` -- the books: posts that count, waits granted, what resets discarded, and for
    each thread how often its last call was granted.
  * `SemOp.balance`, `fxSemTestAndWait_balance` -- what the code of the semaphore keeps.
  * `sem_conservation` -- the books balance in every reachable state, and a wait that returns OK
    was granted once, any other not at all.
-/
import FxRtos.Kernel.Grants
import FxRtos.Objects.Sem

namespace FxRtos

open Function (update)
open Lib

set_option linter.unusedSectionVars false

variable {T E : Type} [DecidableEq T] [DecidableEq E]

abbrev SemSys (T E : Type) := Sys T E Unit Unit FxSem (WaitArgs E)

/-! ## 1. What is granted -/

/-- The thread that a post wakes up. -/
def fxSemPostWakes (p : SyncPolicy) (k : SemKern T E) : List T :=
  match fxSyncWaitBlockGet k (.obj ()) p with
  | some wb => [wb.1]
  | none => []

def SemOp.wakes : SemOp → SemKern T E × FxSem → List T
  | .postWithPolicy p, s => fxSemPostWakes p s.1
  | .post, s => fxSemPostWakes s.2.policy s.1
  | _, _ => []

def fxSemWakers (checks : Bool) : Wakers T E Unit Unit FxSem (WaitArgs E) SemOp where
  test _ _ _ := []
  op p s := if checks ∧ s.2.valid = false then [] else p.wakes s

theorem fxSemPost_wakes (p : SyncPolicy) (s : SemKern T E × FxSem) :
    Wakes NoOne s.1 (fxSemPostWakes p s.1) (fxSemPostWithPolicy p s).1 := by
  unfold fxSemPostWakes fxSemPostWithPolicy
  cases hget : fxSyncWaitBlockGet s.1 (.obj ()) p with
  | some wb => exact Wakes.one hget not_false
  | none => exact .refl

theorem SemOp.run_wakes (p : SemOp) (s : SemKern T E × FxSem) :
    Wakes NoOne s.1 (p.wakes s) (p.run s).1 := by
  cases p with
  | deinit =>
    show Wakes NoOne s.1 [] (if s.2.semaphore = 0 then _ else _)
    split
    · exact Wakes.dropAll ..
    · exact .refl
  | reset => exact .refl
  | postWithPolicy p => exact fxSemPost_wakes p s
  | post => exact fxSemPost_wakes s.2.policy s

theorem fxSem_plain (checks : Bool) :
    (fxSem checks : WaitObject T E _ _ _ _ _).Plain (fxSemWakers checks) where
  lawful := fxSem_lawful checks
  isObj _ := trivial
  passed t c wait s _ h := by
    have hk : (fxSemTestAndWait t wait s).2.1 = s.1 := by
      change (fxSemTestAndWait t wait s).1 = true at h
      unfold fxSemTestAndWait at h ⊢
      split at h
      · rw [if_pos ‹_›]
      · cases h
    show Wakes _ s.1 [] (fxSemTestAndWait t wait s).2.1
    rw [hk]
    exact .refl
  failed t c wait s h := by
    show (fxSemTestAndWait t wait s).2.1 = _
    change (fxSemTestAndWait t wait s).1 = false at h
    unfold fxSemTestAndWait at h ⊢
    split at h
    · cases h
    · rw [if_neg ‹_›]
      rfl
  after _ _ _ _ := ⟨rfl, rfl⟩
  op p s s' h := by
    cases h
    show Wakes NoOne s.1 (if checks ∧ s.2.valid = false then [] else p.wakes s) _
    split
    · exact .refl
    · exact p.run_wakes s

/-! ## 2. The books -/

structure SemAccount (T : Type) where
  posted : Nat
  granted : Nat
  discarded : Nat
  tally : T → Nat

/-- A post counts if it finds a waiter, or the counter below the maximum. -/
def fxSemPostCounts (s : SemKern T E × FxSem) : Nat :=
  if s.1.wq (.obj ()) ≠ [] ∨ s.2.semaphore < s.2.maxCount then 1 else 0

def SemOp.posted : SemOp → SemKern T E × FxSem → Nat
  | .postWithPolicy _, s => fxSemPostCounts s
  | .post, s => fxSemPostCounts s
  | _, _ => 0

def SemOp.discarded : SemOp → SemKern T E × FxSem → Nat
  | .reset, s => s.2.semaphore
  | _, _ => 0

/-- What an operation adds to an entry of the books, unless its checks return an error. -/
def semEntry (checks : Bool) (entry : SemOp → SemKern T E × FxSem → Nat)
    (a : Act T E (WaitArgs E) SemOp) (s : SemSys T E) : Nat :=
  match a with
  | .op p => if checks ∧ s.obj.valid = false then 0 else entry p (s.kern, s.obj)
  | _ => 0

def semNote (checks : Bool) (a : Act T E (WaitArgs E) SemOp) (s : SemSys T E)
    (g : SemAccount T) : SemAccount T where
  posted := g.posted + semEntry checks SemOp.posted a s
  granted := g.granted + ((fxSemWakers checks).woken (fxSem checks) a s).length
  discarded := g.discarded + semEntry checks SemOp.discarded a s
  tally := (fxSemWakers checks).tally (fxSem checks) a s g.tally

/-! ## 3. The code keeps the balance -/

/-- Every operation accounts for what it does to the counter. -/
theorem SemOp.balance (p : SemOp) (s : SemKern T E × FxSem) (hle : s.2.semaphore ≤ s.2.maxCount) :
    (p.run s).2.semaphore + (p.wakes s).length + p.discarded s = s.2.semaphore + p.posted s ∧
      (p.run s).2.semaphore ≤ s.2.maxCount ∧ (p.run s).2.maxCount = s.2.maxCount := by
  have hpost : ∀ policy, (fxSemPostWithPolicy policy s).2.semaphore +
      (fxSemPostWakes policy s.1).length = s.2.semaphore + fxSemPostCounts s ∧
      (fxSemPostWithPolicy policy s).2.semaphore ≤ s.2.maxCount ∧
      (fxSemPostWithPolicy policy s).2.maxCount = s.2.maxCount := by
    intro policy
    unfold fxSemPostWithPolicy fxSemPostWakes fxSemPostCounts
    cases hget : fxSyncWaitBlockGet s.1 (.obj ()) policy with
    | some wb =>
      have hne : s.1.wq (.obj ()) ≠ [] := List.ne_nil_of_mem (fxSyncWaitBlockGet_mem hget)
      rw [if_pos (Or.inl hne)]
      exact ⟨rfl, hle, rfl⟩
    | none =>
      have hnil := fxSyncWaitBlockGet_none.mp hget
      by_cases hlt : s.2.semaphore < s.2.maxCount
      · rw [if_pos (Or.inr hlt)]
        dsimp only
        rw [if_pos hlt]
        exact ⟨rfl, hlt, rfl⟩
      · have hno : ¬ (s.1.wq (.obj ()) ≠ [] ∨ s.2.semaphore < s.2.maxCount) := by
          rintro (hne | h)
          · exact hne hnil
          · exact hlt h
        rw [if_neg hno]
        dsimp only
        rw [if_neg hlt]
        exact ⟨rfl, hle, rfl⟩
  cases p with
  | deinit => exact ⟨rfl, hle, rfl⟩
  | reset => exact ⟨by simp [SemOp.run, fxSemReset, SemOp.wakes, SemOp.discarded, SemOp.posted],
      Nat.zero_le _, rfl⟩
  | postWithPolicy policy => exact hpost policy
  | post => exact hpost s.2.policy

/-- A test takes one from the counter exactly if it succeeds. -/
theorem fxSemTestAndWait_balance (me : T) (wait : Bool) (s : SemKern T E × FxSem) :
    (fxSemTestAndWait me wait s).2.2.semaphore +
      (if (fxSemTestAndWait me wait s).1 then 1 else 0) = s.2.semaphore ∧
      (fxSemTestAndWait me wait s).2.2.maxCount = s.2.maxCount := by
  unfold fxSemTestAndWait
  split
  · rename_i hpos
    exact ⟨Nat.sub_add_cancel hpos, rfl⟩
  · exact ⟨rfl, rfl⟩

structure SemBalance (init maxVal : Nat) (s : SemSys T E) (g : SemAccount T) : Prop where
  sum : s.obj.semaphore + g.granted + g.discarded = init + g.posted
  le : s.obj.semaphore ≤ s.obj.maxCount
  max : s.obj.maxCount = maxVal
  tally : TallyOk s g.tally

theorem SemBalance.step {cfg : Config T} {checks : Bool} {init maxVal : Nat} {s s' : SemSys T E}
    {g : SemAccount T} {a : Act T E (WaitArgs E) SemOp} (hw : WellFormed (fxSem checks) s)
    (h : SemBalance init maxVal s g) (hs : step cfg (fxSem checks) a s = some s') :
    SemBalance init maxVal s' (semNote checks a s g) := by
  have htally := h.tally.step (fxSem_plain checks) hw hs
  obtain ⟨hsum, hle, hmax, _⟩ := h
  -- the account of a step, from that of the code it runs
  have hnote : s'.obj.semaphore + ((fxSemWakers checks).woken (fxSem checks) a s).length +
        semEntry checks SemOp.discarded a s = s.obj.semaphore + semEntry checks SemOp.posted a s →
      s'.obj.semaphore ≤ s.obj.maxCount → s'.obj.maxCount = s.obj.maxCount →
      SemBalance init maxVal s' (semNote checks a s g) := by
    intro h1 h2 h3
    refine ⟨?_, h3 ▸ h2, h3.trans hmax, htally⟩
    simp only [semNote]
    omega
  -- a test accounts for its own caller
  have htest : ∀ (t : T) (c : WaitArgs E) (wait : Bool) (st : SemKern T E),
      s'.obj = (fxSemTestAndWait t wait (st, s.obj)).2.2 →
      (fxSemWakers checks).woken (fxSem checks) a s =
        (fxSemWakers checks).tested (fxSem checks) t c wait (st, s.obj) →
      (∀ p, a ≠ .op p) → SemBalance init maxVal s' (semNote checks a s g) := by
    intro t c wait st hobj hwoken hop
    obtain ⟨hbal, hm⟩ := fxSemTestAndWait_balance t wait (st, s.obj)
    have hlen : ((fxSemWakers checks).tested (fxSem checks) t c wait (st, s.obj)).length =
        if (fxSemTestAndWait t wait (st, s.obj)).1 then 1 else 0 := by
      unfold Wakers.tested
      show (if (fxSemTestAndWait t wait (st, s.obj)).1 then [] ++ [t] else []).length = _
      split <;> rfl
    have hentry : ∀ entry, semEntry checks entry a s = 0 := by
      intro entry
      cases a with
      | op p => exact absurd rfl (hop p)
      | _ => rfl
    rw [hwoken, hlen, hobj, hentry, hentry] at hnote
    refine hnote hbal ?_ hm
    change _ = s.obj.semaphore at hbal
    omega
  cases code_case (fxSem_lawful checks) hw hs with
  | quiet t hq hno =>
    have hentry : ∀ entry, semEntry checks entry a s = 0 := by
      intro entry
      cases a with
      | op p => exact absurd trivial hno
      | _ => rfl
    rw [woken_nil hno, hentry, hentry, hq.obj] at hnote
    exact hnote rfl hle rfl
  | enter t c ab r k ha hpc hr he hs1 =>
    subst ha
    exact htest t c true _ (by rw [hs1]; rfl) (woken_enter hpc) fun p e => by cases e
  | poll t c ha hpc hr hs1 =>
    subst ha
    exact htest t c false _ (by rw [hs1]; rfl) (woken_poll hpc) fun p e => by cases e
  | after t c r ha hpc hs1 =>
    subst ha
    rw [(fxSem_plain checks).ret] at hs1
    rw [woken_ret hpc] at hnote
    subst hs1
    exact hnote rfl hle rfl
  | op p ko ha hc ho hs1 =>
    subst ha
    change some (if checks ∧ s.obj.valid = false then _ else _) = some ko at ho
    simp only [semEntry, Wakers.woken, fxSemWakers] at hnote
    by_cases hchk : checks ∧ s.obj.valid = false
    · rw [if_pos hchk] at ho
      cases ho
      subst hs1
      refine hnote ?_ hle rfl
      rw [if_pos hchk, if_pos hchk, if_pos hchk]
      rfl
    · rw [if_neg hchk] at ho
      cases ho
      subst hs1
      obtain ⟨h1, h2, h3⟩ := p.balance (s.kern, s.obj) hle
      refine hnote ?_ h2 h3
      rw [if_neg hchk, if_neg hchk, if_neg hchk]
      exact h1

/-- **Conservation of semaphores**, in every run of any threads and interrupts. -/
theorem sem_conservation {cfg : Config T} {init maxVal : Nat} (hinit : init ≤ maxVal)
    {policy : SyncPolicy} {s : SemSys T E} {g : SemAccount T}
    (h : Reach (noted (step cfg (fxSem cfg.checks)) (semNote cfg.checks)) Always
      (boot cfg (fxSemInit init maxVal policy), ⟨0, 0, 0, fun _ => 0⟩) (s, g)) :
    -- the counter
    (s.obj.semaphore : Int) = init + g.posted - g.granted - g.discarded ∧
    s.obj.semaphore ≤ s.obj.maxCount ∧ s.obj.maxCount = maxVal ∧
    -- a wait that returns
    (∀ t r c, s.pc t = .inCall (.ret r) c → g.tally t = if r = .ok then 1 else 0) ∧
    -- what a step notes as granted is what the waits under way are granted by it
    (∀ a s' t stage c, step cfg (fxSem cfg.checks) a s = some s' →
      s'.pc t = .inCall stage c → s'.grants t = s.grants t +
        ((fxSemWakers cfg.checks).woken (fxSem cfg.checks) a s).count t) := by
  have hplain := fxSem_plain (T := T) (E := E) cfg.checks
  have hwell : ∀ s : SemSys T E, Reach (step cfg (fxSem cfg.checks)) Always
      (boot cfg (fxSemInit init maxVal policy)) s → WellFormed (fxSem cfg.checks) s :=
    fun _ hr => reach_wellFormed hplain.lawful hr
  have hbal : SemBalance init maxVal s g := by
    refine Reach.inv_noted (J := SemBalance init maxVal) (fun _ _ _ => trivial) hwell ?_
      (fun _ _ _ _ hw hj _ hs => hj.step hw hs) h
    exact ⟨rfl, hinit, rfl, fun _ _ _ hpc => by cases hpc⟩
  have hsum := hbal.sum
  refine ⟨by omega, hbal.le, hbal.max, fun t r c hpc => hbal.tally.ret hpc, ?_⟩
  exact fun a s' t stage c hs hpc' =>
    hplain.grants (hwell s (h.forget fun _ _ _ => trivial)) hs hpc'

/-- A post wakes up thread 0, whose timeout runs out before it runs; thread 1 polls in vain; two
    more posts, of which the second finds the counter at its maximum, and a reset. -/
theorem sem_conservation_timeout :
    let cfg : Config (Fin 3) := ⟨true, 8, 2⟩
    ∃ (s : SemSys (Fin 3) Unit) (g : SemAccount (Fin 3)),
      Reach (noted (step cfg (fxSem cfg.checks)) (semNote cfg.checks)) Always
        (boot cfg (fxSemInit 0 1 .fifo), ⟨0, 0, 0, fun _ => 0⟩) (s, g) ∧
      s.kern.ev (.timer 0) = true ∧ g.posted = 2 ∧ g.tally 0 = 1 ∧ g.tally 1 = 0 ∧
      (s.obj.semaphore : Int) = 0 + 2 - g.granted - g.discarded ∧ g.granted = 1 ∧
      g.discarded = 1 := by
  intro cfg
  let acts : List (Act (Fin 3) Unit (WaitArgs Unit) SemOp) :=
    [.init 0 5 false, .call 0 (.timeout 9), .go 0, .go 0, .go 0, .op .post, .expire 0,
      .init 1 4 false, .call 1 (.timeout 0), .go 1, .op .post, .op .post, .op .reset, .go 0, .go 0]
  have h : (run (noted (step cfg (fxSem cfg.checks)) (semNote cfg.checks)) acts
      (boot cfg (fxSemInit 0 1 .fifo), ⟨0, 0, 0, fun _ => 0⟩)).any (fun w =>
        w.1.kern.ev (.timer 0) = true ∧ w.2.posted = 2 ∧ w.2.tally 0 = 1 ∧ w.2.tally 1 = 0 ∧
          w.2.granted = 1 ∧ w.2.discarded = 1) = true := by
    decide +kernel
  obtain ⟨⟨s, g⟩, hr, hp⟩ := exists_of_run h
  obtain ⟨he, hposted, h0, h1, hgranted, hdiscarded⟩ := of_decide_eq_true hp
  have hc := (sem_conservation (Nat.zero_le 1) hr).1
  rw [hposted] at hc
  exact ⟨s, g, hr, he, hposted, h0, h1, hc, hgranted, hdiscarded⟩

end FxRtos
