/-
  File:      FxRtos/Objects/Barrier.lean
  Subject:   BARRIERS (fx_barrier.c). A thread that arrives is counted by the test function and
             queued; the one that makes the count complete opens the barrier for all.

  * `BarrierStays` -- nobody leaves the queue but by the opening of the barrier. The count is not
    taken back when a thread does.
  * `barrier_present` -- in every run of such steps the count is the number of threads queued, and
    the barrier opens for exactly these and the caller.
-/
import FxRtos.Kernel.Grants

namespace FxRtos

open Function (update)
open Lib

set_option linter.unusedSectionVars false

/-! ## 1. The code -/

/-- `k` is the variable of a thread in `fx_barrier_wait` that its attribute points to, where the
    call has written it; `key` the variable of its caller. -/
structure FxBarrier (T : Type) where
  barrier : Nat
  blocked : Nat
  valid : Bool
  k : T → Option Nat
  key : T → Nat

variable {T E : Type} [DecidableEq T] [DecidableEq E]

/-- Attributes are the address of the variable `k` of the thread. -/
abbrev BarrierKern (T E : Type) := Kern T E Unit Unit

def fxBarrierSerialThread : Nat := 1

def fxBarrierTestAndWait (me : T) (wait : Bool) (s : BarrierKern T E × FxBarrier T) :
    Bool × BarrierKern T E × FxBarrier T :=
  if s.2.blocked + 1 = s.2.barrier then
    (true, fxSyncWaitNotifyAll s.1 (.obj ()) .satisfied,
      { s.2 with blocked := 0, k := update s.2.k me (some fxBarrierSerialThread) })
  else
    (false, if wait then fxSyncWaitStart s.1 (.obj ()) (me, .main) else s.1,
      { s.2 with blocked := s.2.blocked + 1 })

def fxBarrierInit (barrier : Nat) (key : T → Nat) : FxBarrier T :=
  ⟨barrier, 0, true, fun _ => none, key⟩

def fxBarrierDeinit (s : BarrierKern T E × FxBarrier T) : BarrierKern T E × FxBarrier T :=
  (fxSyncWaitNotifyAll s.1 (.obj ()) .deleted, { s.2 with valid := false })

/-- A call of `fx_barrier_wait` or `fx_barrier_timedwait`. `stack` is what the uninitialised
    variable `k` holds. -/
structure BarrierCall (E : Type) where
  args : WaitArgs E
  keyGiven : Bool
  stack : Nat

/-- Only `fx_barrier_wait` looks at the value of `k`. -/
def BarrierCall.writesKey (c : BarrierCall E) (k : Nat) : Bool :=
  match c.args with
  | .event _ => k = fxBarrierSerialThread
  | .timeout _ => true

/-- What follows the wait. -/
def fxBarrierEnd (me : T) (c : BarrierCall E) (res : ThreadStatus) (o : FxBarrier T) :
    FxBarrier T :=
  let k := (o.k me).getD c.stack
  { o with
    k := update o.k me none
    key := if c.keyGiven ∧ res = .ok ∧ c.writesKey k then update o.key me k else o.key }

inductive BarrierOp where
  | deinit

def fxBarrier (checks : Bool) :
    WaitObject T E Unit Unit (FxBarrier T) (BarrierCall E) BarrierOp where
  start _ o _ c := if checks ∧ o.valid = false then none else some c
  waitable _ := .obj ()
  attr _ := some ()
  args c := c.args
  testWait me _ := fxBarrierTestAndWait me
  after me c res s := (none, s.1, fxBarrierEnd me c res s.2)
  caller _ := none
  op _ s := some (if checks ∧ s.2.valid = false then s else fxBarrierDeinit s)

/-! ## 2. What the functions do -/

section Schranke

variable {wait : Bool} {me t : T} {k : BarrierKern T E} {o : FxBarrier T}

/-- The next thread that arrives opens the barrier. -/
def FxBarrier.Last (o : FxBarrier T) : Prop := o.blocked + 1 = o.barrier

instance (o : FxBarrier T) : Decidable o.Last := inferInstanceAs (Decidable (_ = _))

theorem fxBarrierTest_opens (h : o.Last) :
    fxBarrierTestAndWait me wait (k, o) = (true, fxSyncWaitNotifyAll k (.obj ()) .satisfied,
      { o with blocked := 0, k := update o.k me (some fxBarrierSerialThread) }) := if_pos h

theorem fxBarrierTest_counts (h : ¬ o.Last) :
    fxBarrierTestAndWait me wait (k, o) = (false,
      if wait then fxSyncWaitStart k (.obj ()) (me, .main) else k,
      { o with blocked := o.blocked + 1 }) := if_neg h

/-- No queued block belongs to a thread that is awake. -/
theorem Awake.not_queued (ha : Awake k t) :
    ∀ b ∈ k.wq (.obj ()), ¬ b.1 = t := fun _ hb => ha.ne_of_mem hb

theorem fxBarrier_lawful (checks : Bool) :
    (fxBarrier checks : WaitObject T E _ _ _ _ _).Lawful where
  testTrue me c wait s s' ha h := by
    change fxBarrierTestAndWait me wait s = (true, s') at h
    by_cases hopen : s.2.Last
    · rw [fxBarrierTest_opens hopen] at h
      cases h
      exact (Wakes.wakeAll ha.not_queued).moves
    · rw [fxBarrierTest_counts hopen] at h
      cases h
  testPoll me c s s' _ h := by
    change fxBarrierTestAndWait me false s = (false, s') at h
    by_cases hopen : s.2.Last
    · rw [fxBarrierTest_opens hopen] at h
      cases h
    · rw [fxBarrierTest_counts hopen] at h
      cases h
      exact .refl
  testWait me c s s' _ h := by
    change fxBarrierTestAndWait me true s = (false, s') at h
    by_cases hopen : s.2.Last
    · rw [fxBarrierTest_opens hopen] at h
      cases h
    · rw [fxBarrierTest_counts hopen] at h
      cases h
      exact ⟨nofun, .refl⟩
  after _ _ _ _ := .refl
  op p s s' _ _ h := by
    cases h
    split
    · exact .refl
    · exact Moves.notifyAll (w := .obj ()) trivial (Or.inr rfl) s.1

/-- Opening the barrier wakes up everyone queued. -/
def fxBarrierWakers : Wakers T E Unit Unit (FxBarrier T) (BarrierCall E) BarrierOp where
  test _ _ s := (s.1.wq (.obj ())).map Prod.fst
  op _ _ := []

theorem fxBarrier_plain (checks : Bool) :
    (fxBarrier checks : WaitObject T E _ _ _ _ _).Plain fxBarrierWakers where
  lawful := fxBarrier_lawful checks
  isObj _ := trivial
  passed t c wait s ha h := by
    change (fxBarrierTestAndWait t wait s).1 = true at h
    show Wakes _ s.1 _ (fxBarrierTestAndWait t wait s).2.1
    by_cases hopen : s.2.Last
    · rw [fxBarrierTest_opens hopen]
      exact Wakes.wakeAll ha.not_queued
    · rw [fxBarrierTest_counts hopen] at h
      cases h
  failed t c wait s h := by
    change (fxBarrierTestAndWait t wait s).1 = false at h
    show (fxBarrierTestAndWait t wait s).2.1 = _
    by_cases hopen : s.2.Last
    · rw [fxBarrierTest_opens hopen] at h
      cases h
    · rw [fxBarrierTest_counts hopen]
      rfl
  after _ _ _ _ := ⟨rfl, rfl⟩
  op p s s' h := by
    cases h
    split
    · exact .refl
    · exact Wakes.dropAll ..

end Schranke

/-! ## 3. Nobody leaves -/

abbrev BarrierSys (T E : Type) := Sys T E Unit Unit (FxBarrier T) (BarrierCall E)

/-- The thread is queued on the barrier. -/
def BarrierSys.Queued (s : BarrierSys T E) (t : T) : Prop := (t, .main) ∈ s.kern.wq (.obj ())

instance (s : BarrierSys T E) (t : T) : Decidable (s.Queued t) :=
  inferInstanceAs (Decidable (_ ∈ _))

/-- The critical section does not take a thread from the queue, and does not count one that is
    not queued. -/
def BarrierSys.stays (s : BarrierSys T E) (t : T) : Pc T E (BarrierCall E) → Prop
  | .inCall (.asleep _) _ => ¬ s.Queued t
  | .inCall .poll _ => s.obj.Last
  | .inCall (.enter (some e)) _ => s.kern.ev e = false ∨ s.obj.Last
  | _ => True

/-- Nobody leaves the queue but by the opening of the barrier. -/
def BarrierStays (s : BarrierSys T E) (a : Act T E (BarrierCall E) BarrierOp) : Prop :=
  match a with
  | .go t => s.stays t (s.pc t)
  | .terminate t => ¬ s.Queued t
  | .op _ => False
  | _ => True

instance (s : BarrierSys T E) (t : T) (p : Pc T E (BarrierCall E)) : Decidable (s.stays t p) := by
  cases p with
  | inCall stage c =>
    cases stage with
    | enter ab => cases ab <;> unfold BarrierSys.stays <;> infer_instance
    | _ => unfold BarrierSys.stays; infer_instance
  | _ => unfold BarrierSys.stays; infer_instance

instance (s : BarrierSys T E) (a : Act T E (BarrierCall E) BarrierOp) :
    Decidable (BarrierStays s a) := by
  cases a <;> unfold BarrierStays <;> infer_instance

section Lauf

variable {cfg : Config T} {checks : Bool} {s s' : BarrierSys T E} {t u : T}
  {a : Act T E (BarrierCall E) BarrierOp}

/-- The count is the number of threads queued. -/
def BarrierSys.Counted (s : BarrierSys T E) : Prop :=
  s.obj.blocked = (s.kern.wq (.obj ())).length

/-- A step that runs no code of the barrier, and takes nobody from the queue, leaves it alone. -/
theorem barrier_quiet (hw : WellFormed (fxBarrier checks) s)
    (hw' : WellFormed (fxBarrier checks) s') (hs : step cfg (fxBarrier checks) a s = some s')
    (hg : BarrierStays s a) (hq : Quiet cfg (fxBarrier checks) a s s' t) :
    s'.kern.wq (.obj ()) = s.kern.wq (.obj ()) := by
  refine hq.queue hw hw' fun b hb => ?_
  obtain ⟨hmain, ab, c, hpc, _⟩ := call_of_mem hw.phases hb rfl
  by_contra hne
  have hb' : s.Queued b.1 := by
    obtain ⟨u, slot⟩ := b
    change slot = .main at hmain
    subst hmain
    exact hb
  rcases mover_of_calling hs (calling_iff.mpr ⟨_, _, hpc⟩) hne with rfl | rfl
  · change s.stays b.1 (s.pc b.1) at hg
    rw [hpc] at hg
    exact hg hb'
  · exact hg hb'

/-- A thread that finds the barrier not complete, and sleeps. -/
theorem barrier_enter {ab : Option (Ev T E)} {c : BarrierCall E} {r : Option ThreadStatus}
    {k : BarrierKern T E} (hcount : s.Counted) (hlast : ¬ s.obj.Last)
    (hev : s.stays t (.inCall (.enter ab) c))
    (he : Entered t ab (fxBarrierTestAndWait t true
      (fxSyncWaiterPrepare s.kern t (some ()), s.obj)) r k) :
    s.obj.blocked + 1 = (k.wq (.obj ())).length := by
  rw [fxBarrierTest_counts hlast] at he
  have hlen : ((fxSyncWaitStart (fxSyncWaiterPrepare s.kern t (some ())) (.obj ())
      (t, .main)).wq (.obj ())).length = s.obj.blocked + 1 := by
    rw [waitStart_wq, List.length_append, hcount]
    rfl
  cases he with
  | passed h => cases h
  | cancelled h e hab hset =>
    subst hab
    rcases hev with hev | hev
    · change s.kern.ev e = true at hset
      rw [hev] at hset
      cases hset
    · exact absurd hev hlast
  | alone h hab => exact hlen.symm
  | both h e hab hclear =>
    refine hlen.symm.trans ?_
    have hne : (.obj () : Wtbl T E Unit) ≠ .ev e := by
      intro h
      cases h
    show _ = ((fxSyncWaitStart (fxSyncWaitStart (fxSyncWaiterPrepare s.kern t (some ()))
      (.obj ()) (t, .main)) (.ev e) (t, .abort)).wq (.obj ())).length
    rw [waitStart_wq_ne hne]

/-- **One step** in which nobody leaves keeps the count. -/
theorem BarrierSys.Counted.step (hw : WellFormed (fxBarrier checks) s) (hcount : s.Counted)
    (hg : BarrierStays s a) (hs : step cfg (fxBarrier checks) a s = some s') : s'.Counted := by
  have hw' := (step_case (fxBarrier_lawful checks) hw hs).2
  cases code_case (fxBarrier_lawful checks) hw hs with
  | quiet t hq hno =>
    unfold BarrierSys.Counted
    rw [hq.obj, barrier_quiet hw hw' hs hg hq]
    exact hcount
  | enter t c ab r k ha hpc hr he hs1 =>
    subst ha hs1
    change s.stays t (s.pc t) at hg
    rw [hpc] at hg
    by_cases hlast : s.obj.Last
    · -- opened: the queue is empty, also after what follows the test
      have hwq : (k.wq (.obj ())).Sublist [] := by
        have hph : s.phases (fxBarrier checks) t = .awake := by rw [Sys.phases, hpc]; rfl
        have ht := (fxBarrier_lawful checks).tested (c := c) (o := s.obj) hw.phases (phases_ne s)
          hw.ev hph hr
        have hf := (he.frame ht.ok.tied ht.abort).sub ()
        change (k.wq (.obj ())).Sublist ((fxBarrierTestAndWait t true (_, s.obj)).2.1.wq _) at hf
        rw [fxBarrierTest_opens hlast] at hf
        rwa [notifyAll_nil] at hf
      show (fxBarrierTestAndWait t true (_, s.obj)).2.2.blocked = (k.wq (.obj ())).length
      rw [fxBarrierTest_opens hlast, List.sublist_nil.mp hwq]
      rfl
    · show (fxBarrierTestAndWait t true (_, s.obj)).2.2.blocked = (k.wq (.obj ())).length
      rw [fxBarrierTest_counts hlast]
      exact barrier_enter hcount hlast hg he
  | poll t c ha hpc hr hs1 =>
    subst ha hs1
    change s.stays t (s.pc t) at hg
    rw [hpc] at hg
    have hlast : s.obj.Last := hg
    show (fxBarrierTestAndWait t false (_, s.obj)).2.2.blocked =
      ((fxBarrierTestAndWait t false (_, s.obj)).2.1.wq (.obj ())).length
    rw [fxBarrierTest_opens hlast, notifyAll_nil]
    rfl
  | after t c r ha hpc hs1 =>
    rw [(fxBarrier_plain checks).ret] at hs1
    subst hs1
    exact hcount
  | op p ko ha hc ho hs1 =>
    subst ha
    exact hg.elim

/-- How often a thread is among those the opening wakes up. -/
theorem opening_count (hw : WellFormed (fxBarrier checks) s) {v : T} (hv : v ≠ t) :
    ((s.kern.wq (.obj ())).map Prod.fst ++ [t]).count v = if s.Queued v then 1 else 0 := by
  have hnd := queued_nodup hw.kern ()
  have hmem : v ∈ (s.kern.wq (.obj ())).map Prod.fst ↔ s.Queued v := by
    constructor
    · intro hm
      obtain ⟨⟨u, slot⟩, hb, rfl⟩ := List.mem_map.mp hm
      obtain ⟨hmain, _⟩ := call_of_mem hw.phases hb rfl
      change slot = .main at hmain
      subst hmain
      exact hb
    · exact fun hq => List.mem_map_of_mem (f := Prod.fst) hq
  rw [List.count_append, List.count_singleton, beq_eq_false_iff_ne.mpr hv.symm]
  show List.count v _ + 0 = _
  by_cases hq : s.Queued v
  · rw [if_pos hq, List.count_eq_one_of_mem hnd (hmem.mpr hq)]
  · rw [if_neg hq, List.count_eq_zero_of_not_mem fun h => hq (hmem.mp h)]

/-- **The opening**: everyone queued is granted its call, and the caller. -/
theorem barrier_opening (hw : WellFormed (fxBarrier checks) s) (hcount : s.Counted)
    {stage : Stage T E} {c : BarrierCall E} (hpc : s.pc t = .inCall stage c) (hst : stage.tests)
    (hlast : s.obj.Last) (hs : step cfg (fxBarrier checks) (.go t) s = some s') :
    ¬ s.Queued t ∧ s'.kern.wq (.obj ()) = [] ∧ s'.grants t = 1 ∧
      ∀ v, v ≠ t → s'.grants v = s.grants v + if s.Queued v then 1 else 0 := by
  have hplain := fxBarrier_plain (T := T) (E := E) checks
  have hwoken : fxBarrierWakers.woken (fxBarrier checks) (.go t) s =
      (s.kern.wq (.obj ())).map Prod.fst ++ [t] := by
    cases stage with
    | enter ab =>
      rw [woken_enter hpc]
      unfold Wakers.tested
      show (if (fxBarrierTestAndWait t true (_, s.obj)).1 then _ else _) = _
      rw [fxBarrierTest_opens hlast]
      rfl
    | poll =>
      rw [woken_poll hpc]
      unfold Wakers.tested
      show (if (fxBarrierTestAndWait t false (_, s.obj)).1 then _ else _) = _
      rw [fxBarrierTest_opens hlast]
      rfl
    | _ => exact hst.elim
  have hawake : s.phases (fxBarrier checks) t = .awake := by
    rw [Sys.phases, hpc]
    cases stage with
    | asleep ab => exact hst.elim
    | _ => rfl
  have hnot : ¬ s.Queued t := fun hq => (hw.awake hawake).1.ne_of_mem hq rfl
  have hstays : BarrierStays s (.go t) := by
    show s.stays t (s.pc t)
    rw [hpc]
    cases stage with
    | enter ab =>
      cases ab with
      | none => trivial
      | some e => exact Or.inr hlast
    | poll => exact hlast
    | _ => exact hst.elim
  have hcount' := hcount.step hw hstays hs
  have hafter : s'.obj.blocked = 0 ∧ ∃ stage', s'.pc = update s.pc t (.inCall stage' c) := by
    cases stage with
    | enter ab =>
      obtain ⟨_, r, k, _, rfl⟩ := step_enter hpc hs
      refine ⟨?_, _, rfl⟩
      show (fxBarrierTestAndWait t true (_, s.obj)).2.2.blocked = 0
      rw [fxBarrierTest_opens hlast]
    | poll =>
      obtain ⟨_, rfl⟩ := step_poll hpc hs
      refine ⟨?_, _, rfl⟩
      show (fxBarrierTestAndWait t false (_, s.obj)).2.2.blocked = 0
      rw [fxBarrierTest_opens hlast]
    | _ => exact hst.elim
  obtain ⟨hzero, stage', hpc'⟩ := hafter
  have hnil : s'.kern.wq (.obj ()) = [] := List.length_eq_zero_iff.mp (hcount'.symm.trans hzero)
  refine ⟨hnot, hnil, ?_, fun v hv => ?_⟩
  · have ht : s'.pc t = .inCall stage' c := by rw [hpc', Function.update_self]
    rw [hplain.grants hw hs ht, hwoken, List.count_append, List.count_singleton_self]
    have hno : t ∉ (s.kern.wq (.obj ())).map Prod.fst := fun hm => by
      obtain ⟨b, hb, hbt⟩ := List.mem_map.mp hm
      exact (hw.awake hawake).1.ne_of_mem hb hbt
    have h0 : s.grants t = 0 := by
      refine grants_zero ?_
      rw [hpc]
      cases stage with
      | enter ab => rfl
      | poll => rfl
      | _ => exact hst.elim
    rw [h0, List.count_eq_zero_of_not_mem hno]
  · have hsame : s'.pc v = s.pc v := by rw [hpc', Function.update_of_ne hv]
    rw [← opening_count hw hv, ← hwoken]
    cases hv' : s.pc v with
    | inCall stage1 d => exact hplain.grants hw hs (hsame.trans hv')
    | _ =>
      -- not in a call: nothing is granted, and it is not queued
      have hno : ¬ s.Queued v := by
        intro hq
        obtain ⟨_, ab, d, hasl, _⟩ := call_of_mem hw.phases hq rfl
        change s.pc v = _ at hasl
        rw [hv'] at hasl
        cases hasl
      have h0 : s'.grants v = 0 ∧ s.grants v = 0 := by
        unfold Sys.grants
        rw [hsame, hv']
        exact ⟨rfl, rfl⟩
      rw [h0.1, h0.2, hwoken, opening_count hw hv, if_neg hno]

/-- The count stays below the threshold. -/
theorem fxBarrier_inv (checks : Bool) {n : Nat} (hn : 1 ≤ n) :
    ObjInv (fxBarrier checks : WaitObject T E _ _ _ _ _)
      fun s => s.2.barrier = n ∧ s.2.blocked < n where
  frame _ _ _ _ h := h
  test me c wait s _ _ _ h := by
    obtain ⟨k, o⟩ := s
    obtain ⟨hb, hlt⟩ := h
    change o.barrier = n at hb
    change o.blocked < n at hlt
    show (fxBarrierTestAndWait me wait (k, o)).2.2.barrier = n ∧
      (fxBarrierTestAndWait me wait (k, o)).2.2.blocked < n
    by_cases hlast : o.Last
    · rw [fxBarrierTest_opens hlast]
      exact ⟨hb, hn⟩
    · rw [fxBarrierTest_counts hlast]
      have hne : o.blocked + 1 ≠ o.barrier := hlast
      exact ⟨hb, show o.blocked + 1 < n by omega⟩
  after _ _ _ _ _ _ _ h := h
  op p s s' _ _ _ h e := by
    cases e
    split <;> exact h

end Lauf

/-- **A barrier counts the threads that are present**, in every run in which nobody leaves it. -/
theorem barrier_present {cfg : Config T} {n : Nat} (hn : 1 ≤ n) {key : T → Nat}
    {s : BarrierSys T E} (h : Reach (step cfg (fxBarrier cfg.checks)) BarrierStays
      (boot cfg (fxBarrierInit n key)) s) :
    s.obj.blocked = (s.kern.wq (.obj ())).length ∧ s.obj.blocked < n ∧
    ((s.kern.wq (.obj ())).map Prod.fst).Nodup ∧
    -- a step that releases somebody
    ∀ a s' u, step cfg (fxBarrier cfg.checks) a s = some s' → s'.grants u = s.grants u + 1 →
      ∃ t stage c, a = .go t ∧ s.pc t = .inCall stage c ∧ stage.tests ∧
        (s.kern.wq (.obj ())).length = n - 1 ∧ ¬ s.Queued t ∧
        s'.kern.wq (.obj ()) = [] ∧ s'.grants t = 1 ∧
        ∀ v, v ≠ t → s'.grants v = s.grants v + if s.Queued v then 1 else 0 := by
  have hplain := fxBarrier_plain (T := T) (E := E) cfg.checks
  have hwell : ∀ s : BarrierSys T E, Reach (step cfg (fxBarrier cfg.checks)) BarrierStays
      (boot cfg (fxBarrierInit n key)) s → WellFormed (fxBarrier cfg.checks) s :=
    fun _ hr => reach_wellFormed hplain.lawful hr
  have hw := hwell s h
  have hcount : s.Counted := Reach.inv_of hwell rfl
    (fun _ _ _ hw hj hg hs => hj.step hw hg hs) h
  have hinv := (fxBarrier_inv cfg.checks hn).reach hplain.lawful
    (o := fxBarrierInit n key) ⟨rfl, hn⟩ h
  have hbarrier : s.obj.barrier = n := hinv.1
  have hlt : s.obj.blocked < n := hinv.2
  refine ⟨hcount, hlt, queued_nodup hw.kern (), fun a s' u hs hu => ?_⟩
  obtain ⟨stage', c, hpc'⟩ := calling_of_grants (s := s') (u := u) (by omega)
  have hgrants := hplain.grants hw hs hpc'
  have hwoken : fxBarrierWakers.woken (fxBarrier cfg.checks) a s ≠ [] := by
    intro hnil
    rw [hnil] at hgrants
    change _ = _ + 0 at hgrants
    omega
  -- what a test that fails grants is nobody
  have htest : ∀ {t stage d wait k}, s.pc t = .inCall stage d → stage.tests → a = .go t →
      fxBarrierWakers.woken (fxBarrier cfg.checks) a s =
        fxBarrierWakers.tested (fxBarrier cfg.checks) t d wait (k, s.obj) →
      ∃ t stage c, a = .go t ∧ s.pc t = .inCall stage c ∧ stage.tests ∧
        (s.kern.wq (.obj ())).length = n - 1 ∧ ¬ s.Queued t ∧
        s'.kern.wq (.obj ()) = [] ∧ s'.grants t = 1 ∧
        ∀ v, v ≠ t → s'.grants v = s.grants v + if s.Queued v then 1 else 0 := by
    intro t stage d wait k hpc hst ha hw'
    by_cases hlast : s.obj.Last
    · have hb : s.obj.blocked + 1 = s.obj.barrier := hlast
      have hlen : s.obj.blocked = (s.kern.wq (.obj ())).length := hcount
      refine ⟨t, stage, d, ha, hpc, hst, by omega, ?_⟩
      rw [ha] at hs
      exact barrier_opening hw hcount hpc hst hlast hs
    · refine absurd ?_ hwoken
      rw [hw']
      unfold Wakers.tested
      show (if (fxBarrierTestAndWait t wait (k, s.obj)).1 then _ else _) = _
      rw [fxBarrierTest_counts hlast]
      rfl
  cases code_case hplain.lawful hw hs with
  | quiet t hq hno => exact absurd (woken_nil hno) hwoken
  | enter t d ab r k ha hpc hr he hs1 =>
    exact htest hpc trivial ha (by rw [ha]; exact woken_enter hpc)
  | poll t d ha hpc hr hs1 =>
    exact htest hpc trivial ha (by rw [ha]; exact woken_poll hpc)
  | after t d r ha hpc hs1 =>
    rw [ha] at hwoken
    exact absurd (woken_ret hpc) hwoken
  | op p ko ha hc ho hs1 =>
    rw [ha] at hwoken
    exact absurd rfl hwoken

/-- Thread 0 is queued; thread 1 opens the barrier. -/
theorem barrier_present_opened :
    let cfg : Config (Fin 3) := ⟨true, 8, 2⟩
    ∃ s s' : BarrierSys (Fin 3) Unit, Reach (step cfg (fxBarrier true)) BarrierStays
        (boot cfg (fxBarrierInit 2 fun _ => 0)) s ∧ s.obj.blocked = 1 ∧
      step cfg (fxBarrier true) (.go 1) s = some s' ∧ s'.kern.wq (.obj ()) = [] ∧
      s'.grants 1 = 1 := by
  intro cfg
  let acts : List (Act (Fin 3) Unit (BarrierCall Unit) BarrierOp) :=
    [.init 0 5 false, .call 0 ⟨.event none, true, 0⟩, .go 0, .init 1 4 false,
      .call 1 ⟨.timeout 9, true, 0⟩, .go 1, .go 1]
  have h : (runIf (fun s a => decide (BarrierStays s a)) (step cfg (fxBarrier true)) acts
      (boot cfg (fxBarrierInit 2 fun _ => 0))).any (fun s =>
        s.obj.blocked = 1 ∧ (step cfg (fxBarrier true) (.go 1) s).any (fun s' =>
          s'.grants 1 = s.grants 1 + 1)) = true := by
    decide +kernel
  obtain ⟨s, hr, hp⟩ := exists_of_runIf (G := BarrierStays) (fun _ _ hg => of_decide_eq_true hg) h
  obtain ⟨hb, hstep⟩ := of_decide_eq_true hp
  obtain ⟨s', hs, hgrant⟩ := (Option.any_eq_true ..).mp hstep
  obtain ⟨_, _, _, hopen⟩ := barrier_present (T := Fin 3) (by decide) hr
  obtain ⟨t, stage, c, ha, _, _, _, _, hnil, ht, _⟩ := hopen _ s' 1 hs (of_decide_eq_true hgrant)
  cases ha
  exact ⟨s, s', hr, hb, hs, hnil, ht⟩

/-- Thread 0 arrives and times out. It is still counted, and thread 1 opens the barrier for two
    with nobody queued. -/
theorem barrier_absent :
    let cfg : Config (Fin 3) := ⟨true, 8, 2⟩
    ∃ s s' : BarrierSys (Fin 3) Unit, Reach (step cfg (fxBarrier true)) Always
        (boot cfg (fxBarrierInit 2 fun _ => 0)) s ∧
      s.obj.blocked = 1 ∧ s.kern.wq (.obj ()) = [] ∧
      step cfg (fxBarrier true) (.go 1) s = some s' ∧ s.grants 1 = 0 ∧ s'.grants 1 = 1 := by
  intro cfg
  let acts : List (Act (Fin 3) Unit (BarrierCall Unit) BarrierOp) :=
    [.init 0 5 false, .call 0 ⟨.timeout 9, true, 0⟩, .go 0, .go 0, .go 0, .expire 0, .go 0, .go 0,
      .go 0, .init 1 4 false, .call 1 ⟨.event none, true, 0⟩]
  have h : (run (step cfg (fxBarrier true)) acts
      (boot cfg (fxBarrierInit 2 fun _ => 0))).any (fun s =>
        s.obj.blocked = 1 ∧ s.kern.wq (.obj ()) = [] ∧ s.grants 1 = 0 ∧
          (step cfg (fxBarrier true) (.go 1) s).any (fun s' => s'.grants 1 = 1)) = true := by
    decide +kernel
  obtain ⟨s, hr, hp⟩ := exists_of_run h
  obtain ⟨hb, hnil, h0, hstep⟩ := of_decide_eq_true hp
  obtain ⟨s', hs, hgrant⟩ := (Option.any_eq_true ..).mp hstep
  exact ⟨s, s', hr, hb, hnil, hs, h0, of_decide_eq_true hgrant⟩

end FxRtos
