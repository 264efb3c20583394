/-
  File:      FxRtos/Kernel/OldThread.lean
  Subject:   THREADS OVER OLD MEMORY (fx_thread_api.c). `fx_thread_init_ex` leaves three fields as
             the memory held them: the linkage of the thread's timer, and `wb` and `wb_num` of its
             waiter. `fx_sync_waiter_init` sets the scheduling parameters only.

  * `OldSys` -- the system with these fields beside it, from the constructor on until the timer
    is set or cancelled and until the thread waits for the first time.
  * Terminating a thread cancels its timer and rolls its wait back, so it reads all three.
  * `thread_alike_iff` -- what the memory held cannot be told exactly if the linkage does not look
    linked and `wb_num` is zero.
-/
import FxRtos.Kernel.SameRuns
import FxRtos.Objects.Event
import FxRtos.Timer.OldLink

namespace FxRtos

open Function (update)
open Lib

set_option linter.unusedSectionVars false

variable {T E Q A O C Op P : Type} [DecidableEq T] [DecidableEq E] [DecidableEq Q]

/-! ## 1. The code -/

/-- The memory of a thread, without what the constructor sets and no later function reads. -/
structure ThreadMemory (T P : Type) where
  item : SchedItem
  state : ThreadState
  isTerminating : Bool
  completion : Bool
  completionWq : List (Blk T)
  timerEvent : Bool
  timerEventWq : List (Blk T)
  link : Link P
  wbNum : Nat

/-- `link` is the linkage of the timers that were not set or cancelled yet, `wbNum` the number of
    wait blocks of the threads that did not wait yet: their `wb` is no pointer to wait blocks.
    The kernel's own `timer` and `wbNum` speak of the others. -/
structure OldSys (T E Q A O C P : Type) where
  sys : Sys T E Q A O C
  link : T → Link P
  wbNum : T → Nat
  wild : Bool

/-- The fields of a thread that the constructor overwrites, as the memory held them. -/
def Kern.overThread (k : Kern T E Q A) (t : T) (m : ThreadMemory T P) : Kern T E Q A :=
  { k with
    sched := k.sched.setItem t m.item
    state := update k.state t m.state
    isTerminating := update k.isTerminating t m.isTerminating
    ev := update (update k.ev (.completion t) m.completion) (.timer t) m.timerEvent
    wq := update (update k.wq (.ev (.completion t)) m.completionWq) (.ev (.timer t))
      m.timerEventWq }

/-- `fx_thread_init_ex` over the memory `m`. -/
def fxThreadInitOver (s : OldSys T E Q A O C P) (t : T) (m : ThreadMemory T P) (prio : Nat)
    (createSuspended : Bool) : OldSys T E Q A O C P :=
  { s with
    sys := { s.sys with
      kern := fxThreadInitEx (s.sys.kern.overThread t m) t prio createSuspended
      pc := update s.sys.pc t .idle
      base := update s.sys.base t prio }
    link := update s.link t m.link
    wbNum := update s.wbNum t m.wbNum }

/-- The thread whose timer an action sets or cancels. -/
def Act.timerOf (s : Sys T E Q A O C) : Act T E C Op → Option T
  | .terminate t => if s.kern.isTerminating t then none else some t
  | .go t =>
    match s.pc t with
    | .inCall .arm _ => some t
    | .inCall (.disarm _) _ => some t
    | _ => none
  | _ => none

/-- The thread whose wait an action rolls back without having prepared it. -/
def Act.waiterOf (s : Sys T E Q A O C) : Act T E C Op → Option T
  | .terminate t => if s.kern.isTerminating t then none else some t
  | .go t =>
    match s.pc t with
    | .inCall (.asleep _) _ => some t
    | _ => none
  | _ => none

/-- The thread that an action prepares for a wait: `fx_sync_waiter_prepare`. -/
def Act.preparedOf (s : Sys T E Q A O C) : Act T E C Op → Option T
  | .go t =>
    match s.pc t with
    | .inCall (.enter _) _ => some t
    | _ => none
  | _ => none

/-- The value at a thread, if there is one. -/
def replaced {α : Type} (f : T → α) (t : Option T) (v : α) : T → α :=
  match t with
  | some t => update f t v
  | none => f

/-- A node that looks linked is removed through its old pointers, and wait blocks are looked for
    where the old `wb` points to. -/
def OldSys.touches (s : OldSys T E Q A O C P) (a : Act T E C Op) : Bool :=
  (a.timerOf s.sys).any (fun t => (s.link t).looksLinked) ||
    (a.waiterOf s.sys).any (fun t => s.wbNum t != 0)

def oldStep (cfg : Config T) (W : WaitObject T E Q A O C Op) (a : Act T E C Op)
    (s : OldSys T E Q A O C P) : Option (OldSys T E Q A O C P) :=
  (step cfg W a s.sys).map fun sys =>
    { sys := sys
      link := replaced s.link (a.timerOf s.sys) .null
      wbNum := replaced (replaced s.wbNum (a.waiterOf s.sys) 0) (a.preparedOf s.sys) 0
      wild := s.wild || s.touches a }

/-! ## 2. Two runs -/

/-- The thread `t` holds nothing old. -/
def OldSys.CleanAt (s : OldSys T E Q A O C P) (t : T) : Prop :=
  (s.link t).looksLinked = false ∧ s.wbNum t = 0

/-- What the threads see, and all of the object. -/
def OldSys.seen (s : OldSys T E Q A O C P) : Seen T E C O := s.sys.seen fun r => r.2

/-- **The claim for threads**: whatever the two memories held, the runs show the same, and none
    follows an old pointer. The other threads hold nothing old. -/
def ThreadAlike (cfg : Config T) (m m' : ThreadMemory T P) : Prop :=
  ∀ (E Q A O C Op : Type) [DecidableEq E] [DecidableEq Q] (W : WaitObject T E Q A O C Op)
    (s : OldSys T E Q A O C P) (t : T) (prio : Nat) (createSuspended : Bool),
    s.wild = false → (∀ u, u ≠ t → s.CleanAt u) →
    Alike (oldStep cfg W) OldSys.seen (fxThreadInitOver s t m prio createSuspended)
        (fxThreadInitOver s t m' prio createSuspended) ∧
      Never (oldStep cfg W) (·.wild = true) (fxThreadInitOver s t m prio createSuspended) ∧
      Never (oldStep cfg W) (·.wild = true) (fxThreadInitOver s t m' prio createSuspended)

/-- Two values written over two others. -/
theorem update_twice {ι α : Type} [DecidableEq ι] {x y : ι} (f : ι → α) (a b c d : α) :
    update (update (update (update f x a) y b) x c) y d = update (update f x c) y d := by
  funext z
  by_cases hy : z = y
  · rw [hy, Function.update_self, Function.update_self]
  · rw [Function.update_of_ne hy, Function.update_of_ne hy]
    by_cases hx : z = x
    · rw [hx, Function.update_self, Function.update_self]
    · rw [Function.update_of_ne hx, Function.update_of_ne hy, Function.update_of_ne hx,
        Function.update_of_ne hx]

/-- The constructor overwrites the fields it sets. -/
theorem initEx_overThread (k : Kern T E Q A) (t : T) (m : ThreadMemory T P) (prio : Nat)
    (createSuspended : Bool) :
    fxThreadInitEx (k.overThread t m) t prio createSuspended =
      fxThreadInitEx k t prio createSuspended := by
  have hitem : fxSchedItemInit (k.sched.setItem t m.item) t prio =
      fxSchedItemInit k.sched t prio := by
    unfold fxSchedItemInit SchedContext.setItem
    dsimp only
    rw [Function.update_idem]
  unfold fxThreadInitEx Kern.overThread
  dsimp only
  rw [update_twice, update_twice, hitem, Function.update_idem, Function.update_idem]

section Lauf

variable {cfg : Config T} {W : WaitObject T E Q A O C Op} {s s' : OldSys T E Q A O C P}

/-- Two systems that differ in what does not look linked, with no old wait block. -/
def OldSys.SameAs (s s' : OldSys T E Q A O C P) : Prop :=
  s'.sys = s.sys ∧ (∀ t, s.CleanAt t) ∧ (∀ t, s'.CleanAt t) ∧ s.wild = false ∧ s'.wild = false

theorem OldSys.touches_of_clean (h : ∀ t, s.CleanAt t) (a : Act T E C Op) :
    s.touches a = false := by
  have hlink : ∀ o : Option T, o.any (fun t => (s.link t).looksLinked) = false := by
    intro o
    cases o with
    | none => rfl
    | some t => exact (h t).1
  have hwb : ∀ o : Option T, o.any (fun t => s.wbNum t != 0) = false := by
    intro o
    cases o with
    | none => rfl
    | some t => simp [(h t).2]
  unfold OldSys.touches
  rw [hlink, hwb]
  rfl

/-- What is written over is clean. -/
theorem replaced_of {α : Type} {p : α → Prop} {f : T → α} (h : ∀ t, p (f t)) (o : Option T) {v : α}
    (hv : p v) (t : T) : p (replaced f o v t) := by
  cases o with
  | none => exact h t
  | some u =>
    show p (update f u v t)
    by_cases htu : t = u
    · rw [htu, Function.update_self]
      exact hv
    · rw [Function.update_of_ne htu]
      exact h t

variable (cfg W) in
theorem OldSys.SameAs.step (h : s.SameAs s') (a : Act T E C Op) :
    Option.Rel OldSys.SameAs (oldStep cfg W a s) (oldStep cfg W a s') := by
  obtain ⟨hsys, hc, hc', hw, hw'⟩ := h
  have hclean : ∀ (s : OldSys T E Q A O C P) (sys : Sys T E Q A O C), (∀ t, s.CleanAt t) →
      ∀ t, OldSys.CleanAt { sys := sys
                            link := replaced s.link (a.timerOf s.sys) .null
                            wbNum := replaced (replaced s.wbNum (a.waiterOf s.sys) 0)
                              (a.preparedOf s.sys) 0
                            wild := s.wild || s.touches a } t := by
    intro s sys hs t
    refine ⟨replaced_of (p := fun l : Link P => l.looksLinked = false) (fun u => (hs u).1) _ rfl t,
      ?_⟩
    exact replaced_of (p := (· = 0)) (replaced_of (p := (· = 0)) (fun u => (hs u).2) _ rfl) _ rfl t
  unfold oldStep
  rw [hsys]
  cases FxRtos.step cfg W a s.sys with
  | none => exact .none
  | some sys =>
    refine .some ⟨rfl, hclean s sys hc, ?_, ?_, ?_⟩
    · have := hclean s' sys hc'
      rw [hsys] at this
      exact this
    · show (s.wild || s.touches a) = false
      rw [hw, OldSys.touches_of_clean hc]
      rfl
    · show (s'.wild || s'.touches a) = false
      rw [hw', OldSys.touches_of_clean hc']
      rfl

theorem oldStep_bisimulation :
    Bisimulation (oldStep cfg W : _ → OldSys T E Q A O C P → _) OldSys.seen OldSys.SameAs where
  seen s s' h := by
    unfold OldSys.seen
    rw [h.1]
  step _ _ h a := h.step cfg W a

theorem OldSys.SameAs.never (h : s.SameAs s) : Never (oldStep cfg W) (·.wild = true) s := by
  have hstep : ∀ (s : OldSys T E Q A O C P) a s1, s.SameAs s → oldStep cfg W a s = some s1 →
      s1.SameAs s1 := by
    intro s a s1 hj hs
    have hr := hj.step cfg W a
    rw [hs] at hr
    cases hr with
    | some h1 => exact ⟨rfl, h1.2.1, h1.2.2.1, h1.2.2.2.1, h1.2.2.2.2⟩
  refine Never.of_inv (J := fun s => s.SameAs s) h hstep fun s hj hw => ?_
  rw [hj.2.2.2.1] at hw
  cases hw

/-- A thread whose memory holds nothing that is followed. -/
theorem initOver_cleanAt {t : T} {m : ThreadMemory T P} (prio : Nat) (createSuspended : Bool)
    (hs : ∀ u, u ≠ t → s.CleanAt u) (hl : m.link.looksLinked = false) (hn : m.wbNum = 0) (u : T) :
    (fxThreadInitOver s t m prio createSuspended).CleanAt u := by
  show (update s.link t m.link u).looksLinked = false ∧ update s.wbNum t m.wbNum u = 0
  by_cases hu : u = t
  · rw [hu, Function.update_self, Function.update_self]
    exact ⟨hl, hn⟩
  · rw [Function.update_of_ne hu, Function.update_of_ne hu]
    exact hs u hu

end Lauf

/-- A thread terminated before it ever waits: what its memory held is followed. -/
theorem terminate_follows (cfg : Config T) {m : ThreadMemory T P} (h : ThreadAlike cfg m m) :
    m.link.looksLinked = false ∧ m.wbNum = 0 := by
  let W : WaitObject T Empty Empty Empty Unit (EventCall Empty) Empty := fxEvent false
  let s : OldSys T Empty Empty Empty Unit (EventCall Empty) P :=
    ⟨boot cfg (), fun _ => .null, fun _ => 0, false⟩
  obtain ⟨-, hn, -⟩ := h Empty Empty Empty Unit (EventCall Empty) Empty W s cfg.idle 0 true rfl
    fun _ _ => ⟨rfl, rfl⟩
  let s1 := fxThreadInitOver s cfg.idle m 0 true
  let a : Act T Empty (EventCall Empty) Empty := .terminate cfg.idle
  have hcreated : s1.sys.Created cfg.idle := by
    unfold Sys.Created
    rw [show s1.sys.pc cfg.idle = .idle from Function.update_self ..]
    trivial
  have hterm : s1.sys.kern.isTerminating cfg.idle = false := Function.update_self ..
  obtain ⟨s2, hs2⟩ : ∃ s2, oldStep cfg W a s1 = some s2 := by
    unfold oldStep
    rw [show step cfg W a s1.sys = some _ from if_pos hcreated]
    exact ⟨_, rfl⟩
  have hwild : s2.wild = s1.touches a := by
    obtain ⟨sys, -, rfl⟩ := Option.map_eq_some_iff.mp hs2
    rfl
  have htouch : s1.touches a = (m.link.looksLinked || m.wbNum != 0) := by
    have ht : a.timerOf s1.sys = some cfg.idle := by
      show (if s1.sys.kern.isTerminating cfg.idle then none else some cfg.idle) = _
      rw [hterm]
      rfl
    have hw : a.waiterOf s1.sys = some cfg.idle := ht
    unfold OldSys.touches
    rw [ht, hw]
    show ((update s.link cfg.idle m.link cfg.idle).looksLinked ||
      update s.wbNum cfg.idle m.wbNum cfg.idle != 0) = _
    rw [Function.update_self, Function.update_self]
  have hfalse : (m.link.looksLinked || m.wbNum != 0) = false := by
    rw [← htouch, ← hwild]
    exact Bool.eq_false_of_not_eq_true (hn s2 (.next a .start trivial hs2))
  simpa using hfalse

/-- **Two memories of a thread cannot be told apart** exactly if no timer looks linked in them and
    no wait block is counted. -/
theorem thread_alike_iff (cfg : Config T) (m m' : ThreadMemory T P) :
    ThreadAlike cfg m m' ↔
      (m.link.looksLinked = false ∧ m.wbNum = 0) ∧ m'.link.looksLinked = false ∧ m'.wbNum = 0 := by
  constructor
  · intro h
    constructor
    · refine terminate_follows cfg ?_
      intro E Q A O C Op _ _ W s t prio createSuspended hw hs
      have hn := (h E Q A O C Op W s t prio createSuspended hw hs).2.1
      exact ⟨.refl _, hn, hn⟩
    · refine terminate_follows cfg ?_
      intro E Q A O C Op _ _ W s t prio createSuspended hw hs
      have hn := (h E Q A O C Op W s t prio createSuspended hw hs).2.2
      exact ⟨.refl _, hn, hn⟩
  · intro ⟨⟨hl, hn⟩, hl', hn'⟩ E Q A O C Op _ _ W s t prio createSuspended hw hs
    have hc := initOver_cleanAt prio createSuspended hs hl hn
    have hc' := initOver_cleanAt prio createSuspended hs hl' hn'
    have hsys : (fxThreadInitOver s t m' prio createSuspended).sys =
        (fxThreadInitOver s t m prio createSuspended).sys := by
      unfold fxThreadInitOver
      dsimp only
      rw [initEx_overThread, initEx_overThread]
    have h : OldSys.SameAs (fxThreadInitOver s t m prio createSuspended)
        (fxThreadInitOver s t m' prio createSuspended) := ⟨hsys, hc, hc', hw, hw⟩
    exact ⟨oldStep_bisimulation.alike h, OldSys.SameAs.never ⟨rfl, hc, hc, hw, hw⟩,
      OldSys.SameAs.never ⟨rfl, hc', hc', hw, hw⟩⟩

end FxRtos
