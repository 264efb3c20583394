/-
  File:      FxRtos/Esr/Stack.lean
  Subject:   THE ACTIVE ESRS FORM A STACK. Each is interrupted by the one above it, at the frame
             that one returns to, and the fixed priorities grow from the bottom to the top.

  * `SameNest`, `LeftNest` -- what a step can do to the stack: nothing, or take the current ESR
    off. Only the dispatcher puts one on.
  * `EsrStack` -- the stack, with the frame at which each ESR was last interrupted noted beside
    the state (`interruptedAt`).
  * `esr_contexts_nest` -- after an exit or a wait the scheduler and `virtual_frame` agree: the
    active ESR selected is the one on top, at its own frame.
-/
import FxRtos.Esr.Esr
import Mathlib.Data.List.Chain

namespace FxRtos

open Function (update)
open Lib

set_option linter.unusedSectionVars false

variable {E F Q M : Type} [DecidableEq E] [DecidableEq Q]
variable {cfg : EsrConfig E F} {s s1 s' : EsrSys E F Q M} {me : E}

/-! ## 1. What a step does to the active ESRs -/

/-- A step that starts no ESR and ends none; at most the level of the current one changes. -/
structure SameNest (s s' : EsrSys E F Q M) : Prop where
  current : s'.currentEsr = s.currentEsr
  frame : s'.virtualFrame = s.virtualFrame
  active : ∀ e, (s'.esr e).active = (s.esr e).active
  context : ∀ e, (s'.esr e).intrContext = (s.esr e).intrContext
  epl : ∀ e, s.currentEsr ≠ some e → (s'.esr e).epl = (s.esr e).epl
  prio : ∀ e, s'.prio e = s.prio e
  ready : ∀ e, s.Ready e → s'.Ready e
  pending : s.sched.reschedPending = true → s'.sched.reschedPending = true
  ok : BitmapOk s.sched → BitmapOk s'.sched

theorem SameNest.refl (s : EsrSys E F Q M) : SameNest s s :=
  ⟨rfl, rfl, fun _ => rfl, fun _ => rfl, fun _ _ => rfl, fun _ => rfl, fun _ h => h, fun h => h,
    fun h => h⟩

theorem SameNest.trans (h : SameNest s s1) (h' : SameNest s1 s') : SameNest s s' where
  current := h'.current.trans h.current
  frame := h'.frame.trans h.frame
  active e := (h'.active e).trans (h.active e)
  context e := (h'.context e).trans (h.context e)
  epl e he := (h'.epl e (by rw [h.current]; exact he)).trans (h.epl e he)
  prio e := (h'.prio e).trans (h.prio e)
  ready e he := h'.ready e (h.ready e he)
  pending hp := h'.pending (h.pending hp)
  ok hk := h'.ok (h.ok hk)

/-- Fields of an ESR other than those the stack is made of. -/
theorem SameNest.setEsr (me : E) (x : FxEsr F Q M) (ha : x.active = (s.esr me).active)
    (hc : x.intrContext = (s.esr me).intrContext)
    (he : x.epl = (s.esr me).epl ∨ s.currentEsr = some me) : SameNest s (s.setEsr me x) where
  current := rfl
  frame := rfl
  active e := by
    show (update s.esr me x e).active = _
    by_cases hem : e = me
    · rw [hem, Function.update_self, ha]
    · rw [Function.update_of_ne hem]
  context e := by
    show (update s.esr me x e).intrContext = _
    by_cases hem : e = me
    · rw [hem, Function.update_self, hc]
    · rw [Function.update_of_ne hem]
  epl e hne := by
    show (update s.esr me x e).epl = _
    by_cases hem : e = me
    · rw [hem, Function.update_self]
      exact he.resolve_right (hem ▸ hne)
    · rw [Function.update_of_ne hem]
  prio _ := rfl
  ready _ h := h
  pending h := h
  ok h := h

theorem SameNest.setMsg (e : E) (m : Option M) : SameNest s (s.setMsg e m) :=
  .setEsr _ _ rfl rfl (.inl rfl)

theorem SameNest.setMsgq (q : Q) (x : EsrMsgq E M) : SameNest s (s.setMsgq q x) :=
  ⟨rfl, rfl, fun _ => rfl, fun _ => rfl, fun _ _ => rfl, fun _ => rfl, fun _ h => h, fun h => h,
    fun h => h⟩

theorem fxSchedItemResume_pending {I C : Type} [DecidableEq I] [SchedAlg I C]
    {c : SchedContext I C} {x : I} (h : c.reschedPending = true) :
    (fxSchedItemResume c x).reschedPending = true := by
  unfold fxSchedItemResume
  simp only
  split
  · split
    · split
      · rfl
      · exact h
    · exact h
  · exact h

theorem fxSchedItemSuspend_pending {I C : Type} [DecidableEq I] [SchedAlg I C]
    {c : SchedContext I C} {x : I} (h : (c.item x).suspendCount = 0) :
    (fxSchedItemSuspend c x).reschedPending = true := by
  unfold fxSchedItemSuspend
  rw [if_pos h]
  rfl

theorem resume_item (s : EsrSys E F Q M) (x e : E) :
    (s.resume x).sched.item e = if e = x then ⟨(s.sched.item x).suspendCount - 1, s.prio x⟩
      else s.sched.item e := by
  show (fxSchedItemResume s.sched x).item e = _
  rw [fxSchedItemResume_item]
  by_cases he : e = x
  · rw [if_pos he, he, Function.update_self]
    rfl
  · rw [if_neg he, Function.update_of_ne he]

theorem suspend_item (s : EsrSys E F Q M) (x e : E) :
    (s.suspend x).sched.item e = if e = x then ⟨(s.sched.item x).suspendCount + 1, s.prio x⟩
      else s.sched.item e := by
  show (fxSchedItemSuspend s.sched x).item e = _
  rw [fxSchedItemSuspend_item]
  by_cases he : e = x
  · rw [if_pos he, he, Function.update_self]
    rfl
  · rw [if_neg he, Function.update_of_ne he]

theorem SameNest.resume (x : E) : SameNest s (s.resume x) where
  current := rfl
  frame := rfl
  active _ := rfl
  context _ := rfl
  epl _ _ := rfl
  prio e := by
    show ((s.resume x).sched.item e).prio = _
    rw [resume_item]
    split
    · rename_i he
      rw [he]
    · rfl
  ready e he := by
    show ((s.resume x).sched.item e).suspendCount = 0
    rw [resume_item]
    split
    · rename_i hex
      rw [← hex]
      have h0 : (s.sched.item e).suspendCount = 0 := he
      simp [h0]
    · exact he
  pending := fxSchedItemResume_pending
  ok h := h.itemResume x

theorem SameNest.activate (e : E) (msg : Option M) : SameNest s (fxEsrActivate s e msg) := by
  unfold fxEsrActivate
  split
  · exact .resume e
  · split
    · exact (SameNest.setMsg e _).trans (.resume e)
    · exact .refl s

theorem SameNest.notify (q : Q) (e : E) : SameNest s (s.notify q e) :=
  ((SameNest.setMsgq q _).trans (.setEsr e { s.esr e with wbWaitable := none } rfl rfl
    (.inl rfl))).trans (.resume e)

theorem SameNest.send (q : Q) (m : Option M) : SameNest s (fxMsgqSend s q m).2 := by
  unfold fxMsgqSend
  split
  · exact .refl s
  · split
    · exact (SameNest.setMsg _ _).trans (.notify q _)
    · exact .setMsgq q _

theorem SameNest.waitStart (q : Q) : SameNest s (s.waitStart me q) :=
  (SameNest.setMsgq q _).trans (.setEsr _ _ rfl rfl (.inl rfl))

theorem SameNest.testAndWaitRecv (q : Q) (wait : Bool) :
    SameNest s (esrTestAndWaitRecv s me q wait).2 := by
  unfold esrTestAndWaitRecv
  split
  · show SameNest s (if wait then s.waitStart me q else s)
    split
    · exact .waitStart q
    · exact .refl s
  · exact (SameNest.setMsg me _).trans (.setMsgq q _)

theorem SameNest.rollback : SameNest s (s.rollback me) := by
  unfold EsrSys.rollback
  split
  · exact (SameNest.setMsgq _ _).trans (.setEsr _ _ rfl rfl (.inl rfl))
  · exact .refl s

theorem SameNest.stub (h : fxEsrStub s me = some s') : SameNest s s' := by
  unfold fxEsrStub at h
  split at h
  · obtain rfl := Option.some.inj h
    exact SameNest.rollback.trans (.setEsr _ _ rfl rfl (.inl rfl))
  · obtain rfl := Option.some.inj h
    exact .setEsr _ _ rfl rfl (.inl rfl)
  · cases h

theorem rollback_sched (s : EsrSys E F Q M) (me : E) : (s.rollback me).sched = s.sched := by
  unfold EsrSys.rollback
  split <;> rfl

theorem testAndWaitRecv_sched (s : EsrSys E F Q M) (me : E) (q : Q) (wait : Bool) :
    (esrTestAndWaitRecv s me q wait).2.sched = s.sched := by
  unfold esrTestAndWaitRecv
  split
  · show (if wait then s.waitStart me q else s).sched = _
    split <;> rfl
  · rfl

/-- A step that takes the current ESR off the stack, with its own frame left for the
    dispatcher. -/
structure LeftNest (me : E) (s s' : EsrSys E F Q M) : Prop where
  current : s'.currentEsr = none
  frame : s'.virtualFrame = (s.esr me).intrContext
  active : ∀ e, (s'.esr e).active = true ↔ (s.esr e).active = true ∧ e ≠ me
  context : ∀ e, (s'.esr e).intrContext = (s.esr e).intrContext
  epl : ∀ e, e ≠ me → (s'.esr e).epl = (s.esr e).epl
  prio : ∀ e, s'.prio e = s.prio e
  ready : ∀ e, e ≠ me → s.Ready e → s'.Ready e
  pending : s.Ready me → s'.sched.reschedPending = true
  ok : BitmapOk s.sched → BitmapOk s'.sched

theorem LeftNest.leave : LeftNest me s (s.leave me) where
  current := rfl
  frame := rfl
  active e := by
    show (update s.esr me _ e).active = true ↔ _
    by_cases hem : e = me
    · simp [hem]
    · simp [hem]
  context e := by
    show (update s.esr me _ e).intrContext = _
    by_cases hem : e = me
    · rw [hem, Function.update_self]
    · rw [Function.update_of_ne hem]
  epl e hem := by
    show (update s.esr me _ e).epl = _
    rw [Function.update_of_ne hem]
  prio e := by
    show (((s.setEsr me _).suspend me).sched.item e).prio = _
    rw [suspend_item]
    split
    · rename_i he
      rw [he]
      rfl
    · rfl
  ready e hem he := by
    show (((s.setEsr me _).suspend me).sched.item e).suspendCount = 0
    rw [suspend_item, if_neg hem]
    exact he
  pending := fxSchedItemSuspend_pending
  ok h := h.itemSuspend me

theorem LeftNest.before (h : SameNest s s1) (hm : s.currentEsr = some me)
    (h' : LeftNest me s1 s') : LeftNest me s s' where
  current := h'.current
  frame := h'.frame.trans (h.context me)
  active e := by rw [h'.active, h.active]
  context e := (h'.context e).trans (h.context e)
  epl e he := by
    rw [h'.epl e he, h.epl e]
    rw [hm]
    exact fun e' => he (Option.some.inj e').symm
  prio e := (h'.prio e).trans (h.prio e)
  ready e he hr := h'.ready e he (h.ready e hr)
  pending hr := h'.pending (h.ready me hr)
  ok hk := h'.ok (h.ok hk)

theorem LeftNest.after (h : LeftNest me s s1) (h' : SameNest s1 s') : LeftNest me s s' where
  current := h'.current.trans h.current
  frame := h'.frame.trans h.frame
  active e := by rw [h'.active, h.active]
  context e := (h'.context e).trans (h.context e)
  epl e he := by
    rw [h'.epl e (by rw [h.current]; exact nofun), h.epl e he]
  prio e := (h'.prio e).trans (h.prio e)
  ready e he hr := h'.ready e (h.ready e he hr)
  pending hr := h'.pending (h.pending hr)
  ok hk := h'.ok (h.ok hk)

/-- **What a step can be**: the dispatcher, a step that leaves the stack alone, or the end of the
    current ESR, which is not the idle one. -/
theorem esr_cases {a : EsrOp E F Q M} (h : esrStep cfg a s = some s') :
    (∃ f, a = .dispatch f ∧ s' = esrDispatchHandler cfg.alloc { s with psp := f }) ∨
    SameNest s s' ∧ (∀ f, a ≠ .dispatch f) ∨
    ∃ me, s.currentEsr = some me ∧ me ≠ cfg.idle ∧ LeftNest me s s' ∧ ∀ f, a ≠ .dispatch f := by
  cases a with
  | activate e msg =>
    obtain rfl := Option.some.inj h
    exact .inr (.inl ⟨.activate e msg, fun _ e => by cases e⟩)
  | send q msg =>
    obtain rfl := Option.some.inj h
    exact .inr (.inl ⟨.send q msg, fun _ e => by cases e⟩)
  | dispatch f => exact .inl ⟨f, rfl, (Option.some.inj h).symm⟩
  | call c =>
    refine .inr ?_
    obtain ⟨me, hme, hc⟩ := Option.bind_eq_some_iff.mp h
    cases c with
    | stub => exact .inl ⟨.stub hc, fun _ e => by cases e⟩
    | raisePl v =>
      obtain ⟨_, rfl⟩ := taken hc
      exact .inl ⟨.setEsr _ _ rfl rfl (.inr hme), fun _ e => by cases e⟩
    | lowerPl v =>
      obtain ⟨_, rfl⟩ := taken hc
      have h1 : SameNest s (fxEsrRaisePl s me v) := .setEsr _ _ rfl rfl (.inr hme)
      exact .inl ⟨⟨h1.current, h1.frame, h1.active, h1.context, h1.epl, h1.prio, h1.ready,
        fun _ => rfl, fun hk => (h1.ok hk).congr rfl rfl⟩, fun _ e => by cases e⟩
    | exit =>
      obtain ⟨⟨_, hne⟩, rfl⟩ := taken hc
      exact .inr ⟨me, hme, hne, LeftNest.leave.after (.setMsg me none), fun _ e => by cases e⟩
    | waitMsg q wait =>
      obtain ⟨⟨_, hne⟩, rfl⟩ := taken hc
      have htest : SameNest s (esrTestAndWaitRecv (s.prepareWb me) me q wait).2 :=
        (SameNest.setEsr me { s.esr me with wbWaitable := none } rfl rfl (.inl rfl)).trans
          (.testAndWaitRecv q wait)
      unfold fxEsrWaitMsg
      cases wait with
      | false => exact .inl ⟨htest, fun _ e => by cases e⟩
      | true =>
        refine .inr ⟨me, hme, hne rfl, LeftNest.before htest hme ?_, fun _ e => by cases e⟩
        show LeftNest me _ (if _ then _ else _)
        split
        · exact LeftNest.leave.after (.resume me)
        · exact .leave

/-! ## 2. The stack -/

/-- At a dispatch interrupt the context of the ESR that runs is saved: noted is where. -/
def interruptedAt (a : EsrOp E F Q M) (s : EsrSys E F Q M) (g : E → F) : E → F :=
  match a, s.currentEsr with
  | .dispatch f, some t => update g t f
  | _, _ => g

theorem interruptedAt_other {a : EsrOp E F Q M} {g : E → F} (h : ∀ f, a ≠ .dispatch f) :
    interruptedAt a s g = g := by
  unfold interruptedAt
  split
  · rename_i f _ _
    exact absurd rfl (h f)
  · rfl

theorem interruptedAt_none {a : EsrOp E F Q M} {g : E → F} (h : s.currentEsr = none) :
    interruptedAt a s g = g := by
  unfold interruptedAt
  rw [h]
  split
  · rename_i e
    cases e
  · rfl

/-- The active ESRs from the top to the bottom; `g` is where each was interrupted last. -/
structure EsrStack (cfg : EsrConfig E F) (s : EsrSys E F Q M) (g : E → F) (l : List E) :
    Prop where
  mem : ∀ e, e ∈ l ↔ (s.esr e).active = true
  bottom : l.getLast? = some cfg.idle
  -- each ESR returns to where the one below was interrupted
  link : l.IsChain fun x y => (s.esr x).intrContext = some (g y)
  order : l.Pairwise fun x y => s.prio x < s.prio y
  ready : ∀ e, (s.esr e).active = true → s.Ready e
  -- the one on top runs, or the one above it has ended and a dispatch is due
  top : (s.currentEsr = l.head? ∧ s.virtualFrame = none) ∨
    (s.currentEsr = none ∧ s.sched.reschedPending = true ∧ s.virtualFrame = l.head?.map g)

variable {g : E → F} {l : List E} {u : E}

theorem EsrStack.nodup (h : EsrStack cfg s g l) : l.Nodup := by
  show l.Pairwise (· ≠ ·)
  refine h.order.imp fun {x y} hlt e => ?_
  rw [e] at hlt
  exact Nat.lt_irrefl _ hlt

theorem EsrStack.exists_cons (h : EsrStack cfg s g l) : ∃ u below, l = u :: below := by
  cases l with
  | nil => cases h.bottom
  | cons u below => exact ⟨u, below, rfl⟩

theorem EsrStack.sameNest (h : EsrStack cfg s g l) (hn : SameNest s s') :
    EsrStack cfg s' g l where
  mem e := by rw [hn.active, h.mem]
  bottom := h.bottom
  link := h.link.imp fun x y hxy => (hn.context x).trans hxy
  order := h.order.imp fun {x y} hxy => by rwa [hn.prio, hn.prio]
  ready e he := hn.ready e (h.ready e ((hn.active e).symm.trans he))
  top := by
    rw [hn.current, hn.frame]
    exact h.top.imp_right fun ⟨hc, hp, hf⟩ => ⟨hc, hn.pending hp, hf⟩

/-- The ESR that runs is the one on top. -/
theorem EsrStack.current_top (h : EsrStack cfg s g l) (hm : s.currentEsr = some me) :
    l.head? = some me ∧ s.virtualFrame = none := by
  rcases h.top with ⟨hc, hf⟩ | ⟨hc, _⟩
  · exact ⟨hc.symm.trans hm, hf⟩
  · rw [hc] at hm
    cases hm

/-- **The end of an ESR** uncovers the one below, whose frame is handed to the dispatcher. -/
theorem EsrStack.left (h : EsrStack cfg s g l) (hm : s.currentEsr = some me)
    (hne : me ≠ cfg.idle) (hn : LeftNest me s s') : EsrStack cfg s' g l.tail := by
  obtain ⟨top, below, rfl⟩ := h.exists_cons
  obtain rfl : top = me := Option.some.inj (h.current_top hm).1
  obtain ⟨hlink, hbelow⟩ := List.isChain_cons.mp h.link
  obtain ⟨hnot, _⟩ := List.nodup_cons.mp h.nodup
  show EsrStack cfg s' g below
  cases below with
  | nil => exact absurd (Option.some.inj h.bottom) hne
  | cons y below =>
    refine ⟨fun e => ?_, ?_, ?_, ?_, fun e he => ?_, .inr ⟨hn.current, ?_, ?_⟩⟩
    · rw [hn.active, ← h.mem]
      constructor
      · intro he
        exact ⟨List.mem_cons_of_mem top he, fun e' => hnot (e' ▸ he)⟩
      · rintro ⟨he, hne'⟩
        exact (List.mem_cons.mp he).resolve_left hne'
    · rw [← h.bottom, List.getLast?_cons_cons]
    · exact hbelow.imp fun x y hxy => (hn.context x).trans hxy
    · exact (List.pairwise_cons.mp h.order).2.imp fun {x y} hxy => by rwa [hn.prio, hn.prio]
    · obtain ⟨ha, hne'⟩ := (hn.active e).mp he
      exact hn.ready e hne' (h.ready e ha)
    · exact hn.pending (h.ready top ((h.mem top).mp List.mem_cons_self))
    · rw [hn.frame, hlink y rfl]
      rfl

/-! ## 3. The dispatcher -/

/-- What the dispatcher does with the ESR `n` that the scheduler gives: nothing, if the level of
    the current one keeps it out. -/
theorem dispatch_pending {n : E} (hp : s.sched.reschedPending = true)
    (hn : s.sched.gDomain.get = some n) (alloc : F → F) :
    esrDispatchHandler alloc s =
      (let s1 := { s with
        virtualFrame := none
        sched := { s.sched with reschedPending := false, active := n } }
      if s.preempts n then s1.switchTo alloc n (s.virtualFrame.getD s.psp) else s1) := by
  unfold esrDispatchHandler
  rw [fxSchedGetNext_pending hp hn]

theorem dispatch_idle (hp : s.sched.reschedPending = false) (alloc : F → F) :
    esrDispatchHandler alloc s = { s with virtualFrame := none } := by
  have hnone : fxSchedGetNext s.sched = (none, s.sched) := by
    unfold fxSchedGetNext
    rw [if_neg (by rw [hp]; exact Bool.false_ne_true)]
  unfold esrDispatchHandler
  rw [hnone]

/-- A stack stays one when the top one is interrupted anywhere. -/
theorem EsrStack.interrupted (h : EsrStack cfg s g (u :: l)) (hc : s.currentEsr = some u)
    (f : F) : EsrStack cfg s (update g u f) (u :: l) where
  mem := h.mem
  bottom := h.bottom
  link := h.link.imp_of_mem_tail_imp fun x y _ hy hxy => by
    have hyu : y ≠ u := fun e => (List.nodup_cons.mp h.nodup).1 (e ▸ hy)
    rw [Function.update_of_ne hyu]
    exact hxy
  order := h.order
  ready := h.ready
  top := .inl ⟨hc, (h.current_top hc).2⟩

/-- **A new ESR on top**, stronger than all the others, that returns to where the last top one
    was interrupted. -/
theorem EsrStack.push {n : E} (h : EsrStack cfg s g (u :: l)) (hr : s.Ready n)
    (ha : (s.esr n).active = false) (hlt : s.prio n < s.prio u) (sd : SchedContext E _)
    (hi : sd.item = s.sched.item) (alloc : F → F) :
    EsrStack cfg (({ s with virtualFrame := none, sched := sd } : EsrSys E F Q M).switchTo alloc n
      (g u)) g (n :: u :: l) := by
  have hnot : n ∉ u :: l := fun hm => by
    rw [(h.mem n).mp hm] at ha
    cases ha
  have hprio : ∀ e, (sd.item e).prio = s.prio e := fun e => congrArg (fun i => (i e).prio) hi
  unfold EsrSys.switchTo
  rw [if_neg (by show (s.esr n).active ≠ true; rw [ha]; exact Bool.false_ne_true)]
  refine ⟨fun e => ?_, ?_, ?_, ?_, fun e he => ?_, .inl ⟨rfl, rfl⟩⟩
  · show _ ↔ (update s.esr n _ e).active = true
    by_cases hen : e = n
    · subst hen
      simp
    · rw [Function.update_of_ne hen, ← h.mem, List.mem_cons]
      exact or_iff_right hen
  · rw [List.getLast?_cons_cons]
    exact h.bottom
  · have hself : (update s.esr n { s.esr n with
        active := true, intrContext := some (g u), pc := .stub } n).intrContext = some (g u) := by
      rw [Function.update_self]
    refine List.isChain_cons_cons.mpr ⟨hself, h.link.imp_of_mem_imp fun x y hx _ hxy => ?_⟩
    show (update s.esr n _ x).intrContext = _
    rw [Function.update_of_ne (fun e : x = n => hnot (e ▸ hx))]
    exact hxy
  · refine List.pairwise_cons.mpr ⟨fun y hy => ?_, h.order.imp fun {x y} hxy => ?_⟩
    · show (sd.item n).prio < (sd.item y).prio
      rw [hprio, hprio]
      rcases List.mem_cons.mp hy with rfl | hy
      · exact hlt
      · exact hlt.trans ((List.pairwise_cons.mp h.order).1 y hy)
    · show (sd.item x).prio < (sd.item y).prio
      rw [hprio, hprio]
      exact hxy
  · show (sd.item e).suspendCount = 0
    rw [hi]
    by_cases hen : e = n
    · rw [hen]
      exact hr
    · refine h.ready e ?_
      have he' : (update s.esr n _ e).active = true := he
      rwa [Function.update_of_ne hen] at he'

/-- The stack depends neither on the stack pointer nor on what only the dispatcher changes in the
    scheduler; with the one on top running there is no frame left over. -/
theorem EsrStack.runs (h : EsrStack cfg s g (u :: l)) (sd : SchedContext E _) (f : F)
    (hi : sd.item = s.sched.item) : EsrStack cfg
      { s with currentEsr := some u, virtualFrame := none, sched := sd, psp := f } g (u :: l) where
  mem := h.mem
  bottom := h.bottom
  link := h.link
  order := h.order.imp fun {x y} hxy => by
    show (sd.item x).prio < (sd.item y).prio
    rw [hi]
    exact hxy
  ready e he := by
    show (sd.item e).suspendCount = 0
    rw [hi]
    exact h.ready e he
  top := .inl ⟨rfl, rfl⟩

theorem EsrStack.setPsp (h : EsrStack cfg s g l) (f : F) : EsrStack cfg { s with psp := f } g l :=
  ⟨h.mem, h.bottom, h.link, h.order, h.ready, h.top⟩

/-- An active ESR is no stronger than the one on top. -/
theorem EsrStack.prio_le (h : EsrStack cfg s g (u :: l)) {e : E}
    (he : (s.esr e).active = true) : e = u ∨ s.prio u < s.prio e := by
  rcases List.mem_cons.mp ((h.mem e).mpr he) with rfl | hm
  · exact .inl rfl
  · exact .inr ((List.pairwise_cons.mp h.order).1 e hm)

/-- The frame from which the ESR on top has to be resumed, when the dispatcher begins. -/
theorem EsrStack.atDispatch (h : EsrStack cfg s g (u :: l)) :
    EsrStack cfg s (interruptedAt (.dispatch s.psp : EsrOp E F Q M) s g) (u :: l) ∧
      s.virtualFrame.getD s.psp = interruptedAt (.dispatch s.psp : EsrOp E F Q M) s g u := by
  unfold interruptedAt
  rcases h.top with ⟨hc, hv⟩ | ⟨hc, _, hv⟩
  · have hc' : s.currentEsr = some u := hc
    rw [hc', hv]
    refine ⟨h.interrupted hc' s.psp, ?_⟩
    show s.psp = update g u s.psp u
    rw [Function.update_self]
  · rw [hc, hv]
    exact ⟨h, rfl⟩

/-- **What a dispatch does to the stack.** Either the one on top runs on, resumed at its own
    frame if the one above it has ended; or a stronger one starts above it. -/
theorem EsrStack.dispatch (h : EsrStack cfg s g (u :: l)) (hk : BitmapOk s.sched)
    (hs : s' = esrDispatchHandler cfg.alloc s) :
    (EsrStack cfg s' (interruptedAt (.dispatch s.psp : EsrOp E F Q M) s g) (u :: l) ∧
      s'.currentEsr = some u ∧ s'.esr = s.esr ∧ (s.currentEsr = none → s'.psp = g u)) ∨
    ∃ n, s.sched.gDomain.get = some n ∧ s.sched.reschedPending = true ∧ s.Ready n ∧
      (s.esr n).active = false ∧ s.prio n < s.prio u ∧ s.preempts n = true ∧
      s'.currentEsr = some n ∧
      EsrStack cfg s' (interruptedAt (.dispatch s.psp : EsrOp E F Q M) s g) (n :: u :: l) := by
  obtain ⟨h1, hframe⟩ := h.atDispatch
  have hu : s.Ready u := h.ready u ((h.mem u).mp List.mem_cons_self)
  obtain ⟨n, hget, hn0, hmin⟩ := hk.get_spec hu
  have hnew : n ≠ u → s.prio n < s.prio u ∧ (s.esr n).active = false := by
    intro hne
    have hlt : s.prio n < s.prio u :=
      Nat.lt_of_le_of_ne (hmin u hu) fun e => hne (hk.inj n u e)
    refine ⟨hlt, Bool.eq_false_iff.mpr fun ha => ?_⟩
    rcases h.prio_le ha with e | hgt
    · exact hne e
    · exact Nat.lt_asymm hlt hgt
  cases hp : s.sched.reschedPending with
  | false =>
    -- only after an end is the current ESR unknown, and then a dispatch is due
    rcases h.top with ⟨hc, _⟩ | ⟨_, hp', _⟩
    · have hc' : s.currentEsr = some u := hc
      rw [dispatch_idle hp] at hs
      subst hs
      refine .inl ⟨?_, hc', rfl, fun hn => ?_⟩
      · have := h1.runs s.sched s.psp rfl
        rwa [← hc'] at this
      · rw [hn] at hc'
        cases hc'
    · rw [hp] at hp'
      cases hp'
  | true =>
    rw [dispatch_pending hp hget, hframe] at hs
    simp only at hs
    split at hs
    · rename_i hpre
      by_cases hnu : n = u
      · -- selected again: it was not the current one, or its own level would keep it out
        subst hnu
        have hc : s.currentEsr = none := by
          rcases h.top with ⟨hc, _⟩ | ⟨hc, _⟩
          · have hc' : s.currentEsr = some n := hc
            unfold EsrSys.preempts at hpre
            rw [hc'] at hpre
            exact absurd (of_decide_eq_true hpre) (Nat.lt_irrefl _)
          · exact hc
        unfold EsrSys.switchTo at hs
        rw [if_pos ((h.mem n).mp List.mem_cons_self)] at hs
        subst hs
        exact .inl ⟨h1.runs _ _ rfl, rfl, rfl, fun _ => congrFun (interruptedAt_none hc) n⟩
      · obtain ⟨hlt, ha⟩ := hnew hnu
        refine .inr ⟨n, hget, rfl, hn0, ha, hlt, hpre, ?_, ?_⟩
        · rw [hs]
          unfold EsrSys.switchTo
          split <;> rfl
        · rw [hs]
          exact h1.push hn0 ha hlt { s.sched with reschedPending := false, active := n } rfl
            cfg.alloc
    · rename_i hpre
      rcases h.top with ⟨hc, _⟩ | ⟨hc, _⟩
      · have hc' : s.currentEsr = some u := hc
        subst hs
        refine .inl ⟨?_, hc', rfl, fun hn => ?_⟩
        · have := h1.runs { s.sched with reschedPending := false, active := n } s.psp rfl
          rwa [← hc'] at this
        · rw [hn] at hc'
          cases hc'
      · refine absurd ?_ hpre
        unfold EsrSys.preempts
        rw [hc]
        rfl

theorem switchTo_sched (alloc : F → F) (n : E) (f : F) :
    (s.switchTo alloc n f).sched = s.sched := by
  unfold EsrSys.switchTo
  split <;> rfl

theorem switchTo_epl (alloc : F → F) (n : E) (f : F) (e : E) :
    ((s.switchTo alloc n f).esr e).epl = (s.esr e).epl := by
  unfold EsrSys.switchTo
  split
  · rfl
  · show (update s.esr n _ e).epl = _
    by_cases hen : e = n
    · rw [hen, Function.update_self]
    · rw [Function.update_of_ne hen]

theorem dispatch_sched (alloc : F → F) (s : EsrSys E F Q M) :
    (esrDispatchHandler alloc s).sched = (fxSchedGetNext s.sched).2 := by
  unfold esrDispatchHandler
  simp only
  split
  · rfl
  · split
    · exact switchTo_sched ..
    · rfl

theorem dispatch_epl (alloc : F → F) (s : EsrSys E F Q M) (e : E) :
    ((esrDispatchHandler alloc s).esr e).epl = (s.esr e).epl := by
  unfold esrDispatchHandler
  simp only
  split
  · rfl
  · split
    · exact switchTo_epl ..
    · rfl

theorem dispatch_prio (alloc : F → F) (s : EsrSys E F Q M) (e : E) :
    (esrDispatchHandler alloc s).prio e = s.prio e := by
  unfold EsrSys.prio
  rw [dispatch_sched, fxSchedGetNext_item]

/-! ## 4. Runs -/

/-- What every run keeps: the container is sound, the priorities are those of the start, and the
    active ESRs are stacked. -/
structure EsrOk (cfg : EsrConfig E F) (epl : E → Nat) (s : EsrSys E F Q M) (g : E → F) :
    Prop where
  sched : BitmapOk s.sched
  prio : ∀ e, s.prio e = epl e
  stack : ∃ l, EsrStack cfg s g l

variable {epl : E → Nat} {psp : F} {msgq : Q → EsrMsgq E M}

theorem esrStart_item (e : E) : (esrStart cfg epl psp msgq).sched.item e =
    if e = cfg.idle then ⟨0, epl e⟩ else ⟨1, epl e⟩ := by
  show (fxSchedItemResume _ cfg.idle).item e = _
  rw [fxSchedItemResume_item]
  by_cases he : e = cfg.idle
  · rw [he, Function.update_self, if_pos rfl]
    rfl
  · rw [Function.update_of_ne he, if_neg he]

theorem esrOk_start (hl : EsrLevels cfg epl) (g : E → F) :
    EsrOk cfg epl (esrStart cfg epl psp msgq) g where
  sched := bitmapCtor_ok hl.inj hl.lt
  prio e := by
    unfold EsrSys.prio
    rw [esrStart_item]
    split <;> rfl
  stack := by
    refine ⟨[cfg.idle], fun e => ?_, rfl, List.isChain_singleton _, List.pairwise_singleton ..,
      fun e he => ?_, .inl ⟨rfl, rfl⟩⟩
    · show _ ↔ decide (e = cfg.idle) = true
      rw [List.mem_singleton, decide_eq_true_eq]
    · have he' : e = cfg.idle := of_decide_eq_true he
      unfold EsrSys.Ready
      rw [esrStart_item, if_pos he']

theorem EsrOk.step {a : EsrOp E F Q M} (h : EsrOk cfg epl s g) (hs : esrStep cfg a s = some s') :
    EsrOk cfg epl s' (interruptedAt a s g) := by
  obtain ⟨l, hst⟩ := h.stack
  rcases esr_cases hs with ⟨f, rfl, rfl⟩ | ⟨hn, ha⟩ | ⟨me, hm, hne, hn, ha⟩
  · obtain ⟨u, below, rfl⟩ := hst.exists_cons
    refine ⟨?_, fun e => (dispatch_prio ..).trans (h.prio e), ?_⟩
    · rw [dispatch_sched]
      exact h.sched.getNext
    · rcases (hst.setPsp f).dispatch h.sched rfl with ⟨h', _⟩ | ⟨n, _, _, _, _, _, _, _, h'⟩
      · exact ⟨_, h'⟩
      · exact ⟨_, h'⟩
  · rw [interruptedAt_other ha]
    exact ⟨hn.ok h.sched, fun e => (hn.prio e).trans (h.prio e), l, hst.sameNest hn⟩
  · rw [interruptedAt_other ha]
    exact ⟨hn.ok h.sched, fun e => (hn.prio e).trans (h.prio e), _, hst.left hm hne hn⟩

/-- **The active ESRs nest.** In every state reached they form a stack, each ESR returning to the
    frame at which the one below was interrupted. A dispatch makes an active ESR that is not the
    current one run only if that one is on top and what was above it has ended, and then from
    the frame at which it was interrupted; and as soon as what was above it has ended, the
    dispatch that is due resumes it there, or starts a stronger ESR above it. -/
theorem esr_contexts_nest (hl : EsrLevels cfg epl) {g0 : E → F}
    (h : Reach (noted (esrStep cfg) interruptedAt) Always (esrStart cfg epl psp msgq, g0) (s, g)) :
    ∃ u below, EsrStack cfg s g (u :: below) ∧
      ∀ f s', esrStep cfg (.dispatch f) s = some s' →
        (∀ e, (s.esr e).active = true → s.currentEsr ≠ some e → s'.currentEsr = some e →
          s.currentEsr = none ∧ e = u ∧ s'.psp = g u) ∧
        (s.currentEsr = none → s'.currentEsr = some u ∧ s'.psp = g u ∨
          ∃ n, s.Ready n ∧ (s.esr n).active = false ∧ epl n < epl u ∧
            s'.currentEsr = some n ∧ (s'.esr n).intrContext = some (g u)) := by
  have hok : EsrOk cfg epl s g := by
    refine Reach.inv_noted (J := fun s g => EsrOk cfg epl s g) (K := fun _ => True)
      (fun _ _ _ => trivial) (fun s (_ : Reach (esrStep cfg) Always _ s) => trivial)
      (esrOk_start hl g0) ?_ h
    exact fun s g a s' _ hj _ hs => hj.step hs
  obtain ⟨l, hst⟩ := hok.stack
  obtain ⟨u, below, rfl⟩ := hst.exists_cons
  refine ⟨u, below, hst, fun f s' hs => ?_⟩
  have hs' : s' = esrDispatchHandler cfg.alloc { s with psp := f } := (Option.some.inj hs).symm
  rcases (hst.setPsp f).dispatch hok.sched hs' with
    ⟨_, hc', _, hpsp⟩ | ⟨n, _, _, hr, ha, hlt, _, hc', hst'⟩
  · -- the one on top runs on
    refine ⟨fun e _ hne he => ?_, fun hc => .inl ⟨hc', hpsp hc⟩⟩
    obtain rfl : u = e := Option.some.inj (hc'.symm.trans he)
    have hc : s.currentEsr = none := by
      rcases hst.top with ⟨hc, _⟩ | ⟨hc, _⟩
      · exact absurd hc hne
      · exact hc
    exact ⟨hc, rfl, hpsp hc⟩
  · -- a new one runs above it
    refine ⟨fun e he _ he' => ?_, fun hc => .inr ⟨n, hr, ha, ?_, hc', ?_⟩⟩
    · obtain rfl : n = e := Option.some.inj (hc'.symm.trans he')
      have ha' : (s.esr n).active = false := ha
      rw [ha'] at he
      cases he
    · rw [← hok.prio n, ← hok.prio u]
      exact hlt
    · have hlink := (List.isChain_cons_cons.mp hst'.link).1
      exact hlink.trans (congrArg some (congrFun (interruptedAt_none hc) u))

/-- The idle ESR and three others, of the EPLs 1, 11 and 21, and ports of one cell. -/
def fourEsrs : EsrConfig (Fin 4) Nat := ⟨Fin.last 3, fun frame => frame - 32⟩

def fourEpls (e : Fin 4) : Nat := 1 + 10 * e.val

def fourStart : EsrSys (Fin 4) Nat Bool Nat :=
  esrStart fourEsrs fourEpls 0 fun _ => esrMsgqInit (Fin 4) (fun _ => none) 1 .fifo

theorem fourEpls_ok : EsrLevels fourEsrs fourEpls := ⟨by decide, by decide, by decide⟩

/-- The ESR of level 21 is interrupted by that of level 1, which exits. -/
theorem esr_contexts_nest_exit : ∃ w : EsrSys (Fin 4) Nat Bool Nat × (Fin 4 → Nat),
    w.1.currentEsr = none ∧ w.1.virtualFrame = some 500 ∧
      ∃ u below, EsrStack fourEsrs w.1 w.2 (u :: below) := by
  have hrun : (run (noted (esrStep fourEsrs) interruptedAt)
      [.activate 2 none, .dispatch 900, .call .stub, .call .stub, .activate 0 none, .dispatch 500,
        .call .stub, .call .stub, .call .exit] (fourStart, fun _ => 0)).any
      (fun w => decide (w.1.currentEsr = none ∧ w.1.virtualFrame = some 500)) = true := by
    decide +kernel
  obtain ⟨w, hreach, hw⟩ := exists_of_run hrun
  obtain ⟨hc, hv⟩ := of_decide_eq_true hw
  obtain ⟨u, below, hst, _⟩ := esr_contexts_nest fourEpls_ok hreach
  exact ⟨w, hc, hv, u, below, hst⟩

end FxRtos
