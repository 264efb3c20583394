/-
  File:      FxRtos/Objects/Msgq.lean
  Subject:   MESSAGE QUEUES (fx_msgq_core.c): a ring buffer with a queue of senders and one of
             receivers. A message goes straight to a waiting receiver, and a waiting sender's
             message into the place that a receiver has made free.

  * `MsgqWaits` -- receivers wait only while the queue is empty, senders only while it is full.
    It stands on the bound `items ≤ itemsMax`, and no more is assumed of the capacity.
-/
import FxRtos.Kernel.Runs

namespace FxRtos

open Function (update)
open Lib

set_option linter.unusedSectionVars false

/-! ## 1. The code -/

/-- The two waitables, `send_wtbl` and `recv_wtbl`. -/
inductive MsgqQ where
  | send
  | recv
  deriving DecidableEq

/-- The attribute of a wait: a sender's message and the end it goes to. A receiver's attribute
    is the address of its buffer, for which the thread stands (`rcvrBuf`). -/
inductive MsgqAttr (D : Type) where
  | send (buf : D) (toBack : Bool)
  | recv

structure FxMsgq (T D : Type) where
  buf : Nat → D
  itemsMax : Nat
  items : Nat
  head : Nat
  tail : Nat
  policy : SyncPolicy
  valid : Bool
  rcvrBuf : T → D

variable {T E D : Type} [DecidableEq T] [DecidableEq E]

abbrev MsgqKern (T E D : Type) := Kern T E MsgqQ (MsgqAttr D)

/-- `_fx_msgq_put_msg`: to the back at `head`, to the front before `tail`. -/
def fxMsgqPutMsg (q : FxMsgq T D) (data : D) (insertToBack : Bool) : FxMsgq T D :=
  if insertToBack then
    { q with buf := update q.buf q.head data, head := (q.head + 1) % q.itemsMax }
  else
    let tail := (q.tail + (q.itemsMax - 1)) % q.itemsMax
    { q with tail := tail, buf := update q.buf tail data }

/-- The message of a sender put into the queue, with one more item. -/
def FxMsgq.put (q : FxMsgq T D) (attr : Option (MsgqAttr D)) : FxMsgq T D :=
  match attr with
  | some (.send d toBack) => { fxMsgqPutMsg q d toBack with items := q.items + 1 }
  | _ => { q with items := q.items + 1 }

/-- The message of a sender copied into the buffer of the thread `t`. -/
def FxMsgq.deliver (q : FxMsgq T D) (t : T) (attr : Option (MsgqAttr D)) : FxMsgq T D :=
  match attr with
  | some (.send d _) => { q with rcvrBuf := update q.rcvrBuf t d }
  | _ => q

def fxMsgqTestAndWaitSend (me : T) (wait : Bool) (s : MsgqKern T E D × FxMsgq T D) :
    Bool × MsgqKern T E D × FxMsgq T D :=
  if s.2.items = s.2.itemsMax then
    (false, if wait then fxSyncWaitStart s.1 (.obj .send) (me, .main) else s.1, s.2)
  else
    let attr := (s.1.wb (me, .main)).u.getAttr
    -- an empty queue with receivers waiting: the message is handed over
    match if s.2.items = 0 then fxSyncWaitBlockGet s.1 (.obj .recv) s.2.policy else none with
    | some rcvr => (true, fxSyncWaitNotify s.1 .satisfied rcvr, s.2.deliver rcvr.1 attr)
    | none => (true, s.1, s.2.put attr)

/-- A message taken out of the queue into the buffer of the thread `me`. -/
def FxMsgq.get (q : FxMsgq T D) (me : T) : FxMsgq T D :=
  { q with
    rcvrBuf := update q.rcvrBuf me (q.buf q.tail)
    tail := (q.tail + 1) % q.itemsMax
    items := q.items - 1 }

def fxMsgqTestAndWaitRecv (me : T) (wait : Bool) (s : MsgqKern T E D × FxMsgq T D) :
    Bool × MsgqKern T E D × FxMsgq T D :=
  if s.2.items = 0 then
    (false, if wait then fxSyncWaitStart s.1 (.obj .recv) (me, .main) else s.1, s.2)
  else
    let q := s.2.get me
    -- the queue was full: the message of a waiting sender takes the free place
    match if q.items = q.itemsMax - 1 then fxSyncWaitBlockGet s.1 (.obj .send) q.policy
      else none with
    | some sndr =>
      (true, fxSyncWaitNotify s.1 .satisfied sndr, q.put (s.1.wb sndr).u.getAttr)
    | none => (true, s.1, q)

def fxMsgqInit (buf : Nat → D) (itemsMax : Nat) (policy : SyncPolicy) (rcvrBuf : T → D) :
    FxMsgq T D := ⟨buf, itemsMax, 0, 0, 0, policy, true, rcvrBuf⟩

def fxMsgqDeinit (s : MsgqKern T E D × FxMsgq T D) : MsgqKern T E D × FxMsgq T D :=
  (fxSyncWaitNotifyAll (fxSyncWaitNotifyAll s.1 (.obj .send) .deleted) (.obj .recv) .deleted,
    { s.2 with valid := false })

/-- The loop of `fx_msgq_core_flush`: at most `n` rounds. -/
def fxMsgqFlushLoop : Nat → MsgqKern T E D × FxMsgq T D → MsgqKern T E D × FxMsgq T D
  | 0, s => s
  | n + 1, s =>
    match if s.2.items < s.2.itemsMax then fxSyncWaitBlockGet s.1 (.obj .send) s.2.policy
      else none with
    | some sndr =>
      fxMsgqFlushLoop n
        (fxSyncWaitNotify s.1 .satisfied sndr, s.2.put (s.1.wb sndr).u.getAttr)
    | none => s

/-- Every round adds an item, so `itemsMax` rounds are enough. -/
def fxMsgqFlush (s : MsgqKern T E D × FxMsgq T D) : MsgqKern T E D × FxMsgq T D :=
  fxMsgqFlushLoop s.2.itemsMax (s.1, { s.2 with head := 0, tail := 0, items := 0 })

/-- `fx_msgq_back_send`, `fx_msgq_front_send`, `fx_msgq_receive`, each with a cancel event or a
    timeout. -/
inductive MsgqCall (E D : Type) where
  | send (msg : D) (toBack : Bool) (args : WaitArgs E)
  | receive (args : WaitArgs E)

def MsgqCall.queue : MsgqCall E D → MsgqQ
  | .send .. => .send
  | .receive _ => .recv

def MsgqCall.attr : MsgqCall E D → MsgqAttr D
  | .send msg toBack _ => .send msg toBack
  | .receive _ => .recv

def MsgqCall.args : MsgqCall E D → WaitArgs E
  | .send _ _ args => args
  | .receive args => args

inductive MsgqOp where
  | deinit
  | flush

def MsgqOp.run : MsgqOp → MsgqKern T E D × FxMsgq T D → MsgqKern T E D × FxMsgq T D
  | .deinit => fxMsgqDeinit
  | .flush => fxMsgqFlush

def fxMsgq (checks : Bool) :
    WaitObject T E MsgqQ (MsgqAttr D) (FxMsgq T D) (MsgqCall E D) MsgqOp where
  start _ o _ c := if checks ∧ o.valid = false then none else some c
  waitable c := .obj c.queue
  attr c := some c.attr
  args c := c.args
  testWait me c :=
    match c.queue with
    | .send => fxMsgqTestAndWaitSend me
    | .recv => fxMsgqTestAndWaitRecv me
  after _ _ _ s := (none, s)
  caller _ := none
  op p s := some (if checks ∧ s.2.valid = false then s else p.run s)

/-! ## 2. What the functions do to the kernel -/

section Schlange

variable {s : MsgqKern T E D × FxMsgq T D} {q : FxMsgq T D} {attr : Option (MsgqAttr D)} {me : T}

@[simp] theorem put_items (q : FxMsgq T D) (attr : Option (MsgqAttr D)) :
    (q.put attr).items = q.items + 1 := by
  unfold FxMsgq.put
  split <;> rfl

@[simp] theorem put_itemsMax (q : FxMsgq T D) (attr : Option (MsgqAttr D)) :
    (q.put attr).itemsMax = q.itemsMax := by
  unfold FxMsgq.put fxMsgqPutMsg
  split
  · dsimp only
    split <;> rfl
  · rfl

@[simp] theorem deliver_items (q : FxMsgq T D) (t : T) (attr : Option (MsgqAttr D)) :
    (q.deliver t attr).items = q.items ∧ (q.deliver t attr).itemsMax = q.itemsMax := by
  unfold FxMsgq.deliver
  split <;> exact ⟨rfl, rfl⟩

/-- The outcomes of a send. -/
theorem fxMsgqTestAndWaitSend_cases (me : T) (wait : Bool) (s : MsgqKern T E D × FxMsgq T D) :
    (s.2.items = s.2.itemsMax ∧ fxMsgqTestAndWaitSend me wait s =
      (false, if wait then fxSyncWaitStart s.1 (.obj .send) (me, .main) else s.1, s.2)) ∨
    (s.2.items ≠ s.2.itemsMax ∧ s.2.items = 0 ∧ ∃ rcvr q,
      fxSyncWaitBlockGet s.1 (.obj .recv) s.2.policy = some rcvr ∧ q.items = s.2.items ∧
      q.itemsMax = s.2.itemsMax ∧ fxMsgqTestAndWaitSend me wait s =
        (true, fxSyncWaitNotify s.1 .satisfied rcvr, q)) ∨
    (s.2.items ≠ s.2.itemsMax ∧ (s.2.items = 0 → s.1.wq (.obj .recv) = []) ∧ ∃ q,
      q.items = s.2.items + 1 ∧ q.itemsMax = s.2.itemsMax ∧
      fxMsgqTestAndWaitSend me wait s = (true, s.1, q)) := by
  unfold fxMsgqTestAndWaitSend
  split
  · rename_i hfull
    exact Or.inl ⟨hfull, rfl⟩
  · rename_i hfull
    refine Or.inr ?_
    dsimp only
    split
    · rename_i rcvr hget
      split at hget
      · rename_i hz
        obtain ⟨h1, h2⟩ := deliver_items s.2 rcvr.1 (s.1.wb (me, .main)).u.getAttr
        exact Or.inl ⟨hfull, hz, rcvr, _, hget, h1, h2, rfl⟩
      · cases hget
    · rename_i hget
      refine Or.inr ⟨hfull, fun hz => ?_, _, put_items .., put_itemsMax .., rfl⟩
      rw [if_pos hz] at hget
      exact fxSyncWaitBlockGet_none.mp hget

/-- The outcomes of a receive. -/
theorem fxMsgqTestAndWaitRecv_cases (me : T) (wait : Bool) (s : MsgqKern T E D × FxMsgq T D) :
    (s.2.items = 0 ∧ fxMsgqTestAndWaitRecv me wait s =
      (false, if wait then fxSyncWaitStart s.1 (.obj .recv) (me, .main) else s.1, s.2)) ∨
    (s.2.items ≠ 0 ∧ ∃ sndr q, fxSyncWaitBlockGet s.1 (.obj .send) s.2.policy = some sndr ∧
      q.items = s.2.items ∧ q.itemsMax = s.2.itemsMax ∧ fxMsgqTestAndWaitRecv me wait s =
        (true, fxSyncWaitNotify s.1 .satisfied sndr, q)) ∨
    (s.2.items ≠ 0 ∧ (s.2.items = s.2.itemsMax → s.1.wq (.obj .send) = []) ∧ ∃ q,
      q.items = s.2.items - 1 ∧ q.itemsMax = s.2.itemsMax ∧
      fxMsgqTestAndWaitRecv me wait s = (true, s.1, q)) := by
  unfold fxMsgqTestAndWaitRecv
  split
  · rename_i hz
    exact Or.inl ⟨hz, rfl⟩
  · rename_i hz
    refine Or.inr ?_
    dsimp only
    split
    · rename_i sndr hget
      split at hget
      · refine Or.inl ⟨hz, sndr, (s.2.get me).put (s.1.wb sndr).u.getAttr, hget, ?_,
          put_itemsMax .., rfl⟩
        rw [put_items]
        show s.2.items - 1 + 1 = s.2.items
        omega
      · cases hget
    · rename_i hget
      refine Or.inr ⟨hz, fun hfull => ?_, s.2.get me, rfl, rfl, rfl⟩
      have hlast : (s.2.get me).items = (s.2.get me).itemsMax - 1 := congrArg (· - 1) hfull
      rw [if_pos hlast] at hget
      exact fxSyncWaitBlockGet_none.mp hget

theorem fxMsgqFlushLoop_moves (n : Nat) (s : MsgqKern T E D × FxMsgq T D) :
    Moves IsObj NoOne s.1 (fxMsgqFlushLoop n s).1 := by
  induction n generalizing s with
  | zero => exact .refl
  | succ n ih =>
    unfold fxMsgqFlushLoop
    split
    · rename_i sndr hget
      split at hget
      · have h1 : Moves IsObj NoOne s.1 (fxSyncWaitNotify s.1 .satisfied sndr) :=
          Moves.wake hget trivial (Or.inl rfl)
        exact h1.trans (ih (_, _))
      · cases hget
    · exact .refl

theorem MsgqOp.run_moves (p : MsgqOp) (s : MsgqKern T E D × FxMsgq T D) :
    Moves IsObj NoOne s.1 (p.run s).1 := by
  cases p with
  | deinit =>
    have h1 : Moves IsObj NoOne s.1 (fxSyncWaitNotifyAll s.1 (.obj .send) .deleted) :=
      Moves.notifyAll (w := .obj .send) trivial (Or.inr rfl) s.1
    exact h1.trans (Moves.notifyAll (w := .obj MsgqQ.recv) trivial (Or.inr rfl) _)
  | flush =>
    exact fxMsgqFlushLoop_moves s.2.itemsMax (s.1, { s.2 with head := 0, tail := 0, items := 0 })

theorem fxMsgq_lawful (checks : Bool) :
    (fxMsgq checks : WaitObject T E _ _ (FxMsgq T D) _ _).Lawful where
  testTrue me c wait s s' ha h := by
    cases c with
    | send msg toBack args =>
      rcases fxMsgqTestAndWaitSend_cases me wait s with ⟨_, e⟩ | ⟨_, _, b, q, hb, _, _, e⟩ |
        ⟨_, _, q, _, _, e⟩
      all_goals cases (show (true, s') = _ from h.symm.trans e)
      · exact Moves.wakeOther ha hb trivial (Or.inl rfl)
      · exact .refl
    | receive args =>
      rcases fxMsgqTestAndWaitRecv_cases me wait s with ⟨_, e⟩ | ⟨_, b, q, hb, _, _, e⟩ |
        ⟨_, _, q, _, _, e⟩
      all_goals cases (show (true, s') = _ from h.symm.trans e)
      · exact Moves.wakeOther ha hb trivial (Or.inl rfl)
      · exact .refl
  testPoll me c s s' _ h := by
    cases c with
    | send msg toBack args =>
      rcases fxMsgqTestAndWaitSend_cases me false s with ⟨_, e⟩ | ⟨_, _, b, q, hb, _, _, e⟩ |
        ⟨_, _, q, _, _, e⟩
      all_goals cases (show (false, s') = _ from h.symm.trans e)
      exact .refl
    | receive args =>
      rcases fxMsgqTestAndWaitRecv_cases me false s with ⟨_, e⟩ | ⟨_, b, q, hb, _, _, e⟩ |
        ⟨_, _, q, _, _, e⟩
      all_goals cases (show (false, s') = _ from h.symm.trans e)
      exact .refl
  testWait me c s s' _ h := by
    cases c with
    | send msg toBack args =>
      rcases fxMsgqTestAndWaitSend_cases me true s with ⟨_, e⟩ | ⟨_, _, b, q, hb, _, _, e⟩ |
        ⟨_, _, q, _, _, e⟩
      all_goals cases (show (false, s') = _ from h.symm.trans e)
      exact ⟨nofun, .refl⟩
    | receive args =>
      rcases fxMsgqTestAndWaitRecv_cases me true s with ⟨_, e⟩ | ⟨_, b, q, hb, _, _, e⟩ |
        ⟨_, _, q, _, _, e⟩
      all_goals cases (show (false, s') = _ from h.symm.trans e)
      exact ⟨nofun, .refl⟩
  after _ _ _ _ := .refl
  op p s s' _ _ h := by
    cases h
    split
    · exact .refl
    · exact p.run_moves s

/-! ## 3. Who waits -/

structure MsgqWaits (s : MsgqKern T E D × FxMsgq T D) : Prop where
  le : s.2.items ≤ s.2.itemsMax
  recv : s.1.wq (.obj .recv) ≠ [] → s.2.items = 0
  send : s.1.wq (.obj .send) ≠ [] → s.2.items = s.2.itemsMax

theorem MsgqWaits.frame {k k' : MsgqKern T E D} {o : FxMsgq T D} (hf : Frame k k')
    (h : MsgqWaits (k, o)) : MsgqWaits (k', o) where
  le := h.le
  recv hne := h.recv fun e => hne (List.sublist_nil.mp (e ▸ hf.sub .recv))
  send hne := h.send fun e => hne (List.sublist_nil.mp (e ▸ hf.sub .send))

/-- One more waiter, that has to wait. -/
theorem MsgqWaits.waitStart (h : MsgqWaits s) (wq : MsgqQ)
    (hw : match wq with | .send => s.2.items = s.2.itemsMax | .recv => s.2.items = 0) :
    MsgqWaits (fxSyncWaitStart s.1 (.obj wq) (me, .main), s.2) where
  le := h.le
  recv hne := by
    cases wq with
    | recv => exact hw
    | send =>
      exact h.recv fun e => hne <|
        (waitStart_wq_ne (v := .obj MsgqQ.recv) (w := .obj MsgqQ.send) nofun).trans e
  send hne := by
    cases wq with
    | send => exact hw
    | recv =>
      exact h.send fun e => hne <|
        (waitStart_wq_ne (v := .obj MsgqQ.send) (w := .obj MsgqQ.recv) nofun).trans e

theorem fxMsgqTestAndWaitSend_waits (me : T) (wait : Bool) (h : MsgqWaits s) :
    MsgqWaits (fxMsgqTestAndWaitSend me wait s).2 := by
  rcases fxMsgqTestAndWaitSend_cases me wait s with ⟨hfull, e⟩ |
    ⟨hfull, hz, b, q, hb, hq, hmax, e⟩ | ⟨hfull, hno, q, hq, hmax, e⟩
  all_goals rw [e]
  · cases wait with
    | true => exact h.waitStart .send hfull
    | false => exact h
  · -- handed over: no sender waits, the queue was not full
    have hsend : s.1.wq (.obj .send) = [] := by
      by_contra hne
      exact hfull (h.send hne)
    refine ⟨by rw [hq, hmax]; exact h.le, fun _ => by rw [hq]; exact hz, fun hne => ?_⟩
    refine absurd ?_ hne
    show (s.1.wq (.obj .send)).erase b = []
    rw [hsend]
    rfl
  · have := h.le
    refine ⟨by rw [hq, hmax]; omega, fun hne => ?_, fun hne => ?_⟩
    · exact absurd (hno (h.recv hne)) hne
    · exact absurd (h.send hne) hfull

theorem fxMsgqTestAndWaitRecv_waits (me : T) (wait : Bool) (h : MsgqWaits s) :
    MsgqWaits (fxMsgqTestAndWaitRecv me wait s).2 := by
  rcases fxMsgqTestAndWaitRecv_cases me wait s with ⟨hz, e⟩ |
    ⟨hz, b, q, hb, hq, hmax, e⟩ | ⟨hz, hno, q, hq, hmax, e⟩
  all_goals rw [e]
  · cases wait with
    | true => exact h.waitStart .recv hz
    | false => exact h
  · -- refilled by a sender, so the queue is full again
    have hfull := h.send (List.ne_nil_of_mem (fxSyncWaitBlockGet_mem hb))
    refine ⟨by rw [hq, hmax]; exact h.le, fun hne => ?_, fun _ => by rw [hq, hmax]; exact hfull⟩
    refine absurd (h.recv fun e => hne ?_) hz
    show (s.1.wq (.obj .recv)).erase b = []
    rw [e]
    rfl
  · have := h.le
    refine ⟨by rw [hq, hmax]; omega, fun hne => absurd (h.recv hne) hz, fun hne => ?_⟩
    exact absurd (hno (h.send hne)) hne

/-- The flush fills the queue from the senders until it is full or none is left. -/
theorem fxMsgqFlushLoop_waits (n : Nat) (hn : s.2.itemsMax ≤ s.2.items + n)
    (hle : s.2.items ≤ s.2.itemsMax) (hrecv : s.1.wq (.obj .recv) ≠ [] →
      s.2.items = 0 ∧ (s.1.wq (.obj .send) = [] ∨ s.2.itemsMax = 0)) :
    MsgqWaits (fxMsgqFlushLoop n s) := by
  induction n generalizing s with
  | zero => exact ⟨hle, fun hne => (hrecv hne).1, fun _ => Nat.le_antisymm hle hn⟩
  | succ n ih =>
    unfold fxMsgqFlushLoop
    split
    · rename_i sndr hget
      split at hget
      · rename_i hlt
        have hmem := fxSyncWaitBlockGet_mem hget
        refine ih ?_ ?_ fun hne => ?_
        · show (s.2.put _).itemsMax ≤ (s.2.put _).items + n
          rw [put_items, put_itemsMax]
          omega
        · show (s.2.put _).items ≤ (s.2.put _).itemsMax
          rw [put_items, put_itemsMax]
          exact hlt
        · have hne' : s.1.wq (.obj .recv) ≠ [] := fun e => hne (by
            show (s.1.wq (.obj .recv)).erase sndr = []
            rw [e]
            rfl)
          rcases (hrecv hne').2 with hsend | hmax
          · rw [hsend] at hmem
            cases hmem
          · omega
      · cases hget
    · rename_i hget
      refine ⟨hle, fun hne => (hrecv hne).1, fun hne => ?_⟩
      split at hget
      · exact absurd (fxSyncWaitBlockGet_none.mp hget) hne
      · omega

theorem MsgqOp.run_waits (p : MsgqOp) (h : MsgqWaits s) : MsgqWaits (p.run s) := by
  cases p with
  | deinit =>
    have hsend : (fxMsgqDeinit s).1.wq (.obj .send) = [] := by
      have h1 : (fxSyncWaitNotifyAll s.1 (.obj .send) .deleted).wq (.obj .send) = [] :=
        notifyAll_nil ..
      have h2 : Moves IsObj NoOne (fxSyncWaitNotifyAll s.1 (.obj .send) .deleted)
          (fxMsgqDeinit s).1 := Moves.notifyAll (w := .obj MsgqQ.recv) trivial (Or.inr rfl) _
      exact List.sublist_nil.mp (h1 ▸ h2.sublist (.obj .send))
    have hrecv : (fxMsgqDeinit s).1.wq (.obj .recv) = [] := notifyAll_nil ..
    exact ⟨h.le, fun hne => absurd hrecv hne, fun hne => absurd hsend hne⟩
  | flush =>
    refine fxMsgqFlushLoop_waits _ (Nat.le_add_left ..) (Nat.zero_le _) fun hne => ⟨rfl, ?_⟩
    -- a receiver waited, so the queue was empty; it was not full then, or has no place at all
    by_cases hsend : s.1.wq (.obj .send) = []
    · exact Or.inl hsend
    · exact Or.inr ((h.send hsend).symm.trans (h.recv hne))

theorem fxMsgq_inv (checks : Bool) :
    ObjInv (fxMsgq checks : WaitObject T E _ _ (FxMsgq T D) _ _) MsgqWaits where
  frame _ _ _ hf h := h.frame hf
  test me c wait s _ _ _ h := by
    cases c with
    | send msg toBack args => exact fxMsgqTestAndWaitSend_waits me wait h
    | receive args => exact fxMsgqTestAndWaitRecv_waits me wait h
  after _ _ _ _ _ _ _ h := h
  op p s s' _ _ _ h e := by
    cases e
    split
    · exact h
    · exact p.run_waits h

end Schlange

end FxRtos
