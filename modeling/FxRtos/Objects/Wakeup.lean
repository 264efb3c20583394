/-
  File:      FxRtos/Objects/Wakeup.lean
  Subject:   NO LOST WAKEUP. Whatever the threads, the interrupts and the timers do, no thread is
             queued on a semaphore, an event, event flags, a message queue or a block pool whose
             state would satisfy its wait.
-/
import FxRtos.Objects.Sem
import FxRtos.Objects.Event
import FxRtos.Objects.EvFlags
import FxRtos.Objects.Msgq
import FxRtos.Objects.BlockPool

namespace FxRtos

open Lib

/-- **No lost wakeup**, in every state that a run of any number of threads reaches. -/
theorem no_lost_wakeup {T E D : Type} [DecidableEq T] [DecidableEq E] (cfg : Config T) :
    (∀ init maxVal policy s,
      Reach (step cfg (fxSem (E := E) cfg.checks)) Always
        (boot cfg (fxSemInit init maxVal policy)) s →
      s.kern.wq (.obj ()) ≠ [] → s.obj.semaphore = 0) ∧
    (∀ s, Reach (step cfg (fxEvent (E := E) cfg.checks)) Always (boot cfg ()) s →
      ∀ e, s.kern.wq (.ev (.user e)) ≠ [] → s.kern.ev (.user e) = false) ∧
    (∀ s, Reach (step cfg (fxEvFlags (E := E) cfg.checks)) Always
        (boot cfg (fxEvFlagsInit T)) s →
      ∀ b ∈ s.kern.wq (.obj ()), ∃ attr, (s.kern.wb b).u.getAttr = some attr ∧
        attr.satisfied s.obj.flags = false) ∧
    (∀ buf itemsMax policy rcvrBuf s,
      Reach (step cfg (fxMsgq (E := E) (D := D) cfg.checks)) Always
        (boot cfg (fxMsgqInit buf itemsMax policy rcvrBuf)) s →
      (s.kern.wq (.obj .recv) ≠ [] → s.obj.items = 0) ∧
      (s.kern.wq (.obj .send) ≠ [] → s.obj.items = s.obj.itemsMax)) ∧
    (∀ storage basePtr sz blkSz s,
      Reach (step cfg (fxBlockPool (E := E) cfg.checks)) Always
        (boot cfg (fxBlockPoolInit storage basePtr sz blkSz)) s →
      s.kern.wq (.obj ()) ≠ [] → s.obj.freeBlocks = [] ∧ s.obj.remainingSz < s.obj.sz) := by
  refine ⟨fun init maxVal policy s h => ?_, fun s h e hne => ?_, fun s h => ?_,
    fun buf itemsMax policy rcvrBuf s h => ?_, fun storage basePtr sz blkSz s h => ?_⟩
  · exact (fxSem_inv cfg.checks).reach (fxSem_lawful cfg.checks) (fun hne => absurd rfl hne) h
  · have hev := (reach_wellFormed (fxEvent_lawful cfg.checks) h).ev
    exact Bool.eq_false_iff.mpr fun hset => hne (hev _ hset)
  · exact (fxEvFlags_inv cfg.checks).reach (fxEvFlags_lawful cfg.checks) (fun b hb => by cases hb) h
  · have h0 : MsgqWaits (fxThreadCtor (E := E) cfg.prioNum cfg.idle,
        fxMsgqInit buf itemsMax policy rcvrBuf) :=
      ⟨Nat.zero_le _, fun hne => absurd rfl hne, fun hne => absurd rfl hne⟩
    have hw := (fxMsgq_inv cfg.checks).reach (fxMsgq_lawful cfg.checks) h0 h
    exact ⟨hw.recv, hw.send⟩
  · exact (fxBlockPool_inv cfg.checks).reach (fxBlockPool_lawful cfg.checks)
      (fun hne => absurd rfl hne) h

/-- A run written out at whose end the thread 0 is queued. -/
theorem exists_queued {Q A O C P : Type} [DecidableEq Q] (cfg : Config (Fin 3))
    (W : WaitObject (Fin 3) Unit Q A O C P) (o : O) (w : Wtbl (Fin 3) Unit Q)
    (acts : List (Act (Fin 3) Unit C P))
    (h : (run (step cfg W) acts (boot cfg o)).any (fun s => s.kern.wq w == [(0, .main)]) = true) :
    ∃ s, Reach (step cfg W) Always (boot cfg o) s ∧ (0, .main) ∈ s.kern.wq w ∧
      s.kern.wq w ≠ [] := by
  obtain ⟨s, hs, hq⟩ := exists_of_run h
  refine ⟨s, hs, ?_, ?_⟩
  all_goals rw [beq_iff_eq.mp hq]
  · exact List.mem_singleton_self _
  · exact List.cons_ne_nil _ _

/-- A thread waiting on each of them: a semaphore at zero, a clear event, flags that lack one, a
    full message queue of one place, a pool with no memory. -/
theorem no_lost_wakeup_waiting :
    let cfg : Config (Fin 3) := ⟨true, 8, 2⟩
    let pool : FxBlockPool (Fin 3) := ⟨0, 0, 0, [], 0, 0#32, true, fun _ => 0, fun _ => none⟩
    (∃ s, Reach (step cfg (fxSem (E := Unit) true)) Always (boot cfg (fxSemInit 0 1 .fifo)) s ∧
      s.kern.wq (.obj ()) ≠ [] ∧ s.obj.semaphore = 0) ∧
    (∃ s, Reach (step cfg (fxEvent (E := Unit) true)) Always (boot cfg ()) s ∧
      s.kern.wq (.ev (.user ())) ≠ [] ∧ s.kern.ev (.user ()) = false) ∧
    (∃ s, Reach (step cfg (fxEvFlags (E := Unit) true)) Always
        (boot cfg (fxEvFlagsInit (Fin 3))) s ∧
      ∃ b ∈ s.kern.wq (.obj ()), ∃ attr, (s.kern.wb b).u.getAttr = some attr ∧
        attr.satisfied s.obj.flags = false) ∧
    (∃ s, Reach (step cfg (fxMsgq (E := Unit) (D := Nat) true)) Always
        (boot cfg (fxMsgqInit (fun _ => 0) 1 .fifo fun _ => 0)) s ∧
      s.kern.wq (.obj .send) ≠ [] ∧ s.obj.items = s.obj.itemsMax) ∧
    (∃ s, Reach (step cfg (fxBlockPool (E := Unit) true)) Always
        (boot cfg (fxBlockPoolInit pool 0 0 8)) s ∧
      s.kern.wq (.obj ()) ≠ [] ∧ s.obj.freeBlocks = [] ∧ s.obj.remainingSz < s.obj.sz) := by
  intro cfg pool
  obtain ⟨hsem, hevent, hflags, hmsgq, hpool⟩ :=
    no_lost_wakeup (T := Fin 3) (E := Unit) (D := Nat) cfg
  refine ⟨?_, ?_, ?_, ?_, ?_⟩
  · obtain ⟨s, hs, _, hne⟩ := exists_queued cfg (fxSem true) (fxSemInit 0 1 .fifo) (.obj ())
      [.init 0 3 false, .call 0 (.event none), .go 0] (by decide +kernel)
    exact ⟨s, hs, hne, hsem _ _ _ s hs hne⟩
  · obtain ⟨s, hs, _, hne⟩ := exists_queued cfg (fxEvent true) () (.ev (.user ()))
      [.init 0 3 false, .call 0 ⟨(), .event none⟩, .go 0] (by decide +kernel)
    exact ⟨s, hs, hne, hevent s hs () hne⟩
  · obtain ⟨s, hs, hb, _⟩ := exists_queued cfg (fxEvFlags true) (fxEvFlagsInit (Fin 3)) (.obj ())
      [.init 0 3 false, .call 0 ⟨1, 0, .event none⟩, .go 0] (by decide +kernel)
    exact ⟨s, hs, (0, .main), hb, hflags s hs _ hb⟩
  · obtain ⟨s, hs, _, hne⟩ := exists_queued cfg (fxMsgq true)
      (fxMsgqInit (fun _ => 0) 1 .fifo fun _ => 0) (.obj .send)
      [.init 0 3 false, .call 0 (.send 7 true (.event none)), .go 0, .go 0,
        .call 0 (.send 8 true (.event none)), .go 0] (by decide +kernel)
    exact ⟨s, hs, hne, (hmsgq _ _ _ _ s hs).2 hne⟩
  · obtain ⟨s, hs, _, hne⟩ := exists_queued cfg (fxBlockPool true)
      (fxBlockPoolInit pool 0 0 8) (.obj ())
      [.init 0 3 false, .call 0 (.event none), .go 0] (by decide +kernel)
    exact ⟨s, hs, hne, hpool _ _ _ _ s hs hne⟩

end FxRtos
