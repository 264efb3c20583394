/-
  File:      FxRtos/Objects/MsgqDeque.lean
  Subject:   MESSAGE QUEUES AS BOUNDED DEQUES. What the buffer holds is a list; what the calls and
             the flush do to it is said by their effects.

  * `MsgqEffect`, `MsgqStep` -- the abstract queue: what may take effect on a list of messages, for
    whom, and who of those that wait is admitted.
  * `MsgqCall.effects`, `fxMsgqFlushEffects` -- what takes effect when the code runs.
  * `FxMsgq.Ring` -- the buffer is a ring, so that the ends of the list are where the code
    writes and reads.
  * `MsgqNotes` -- for each thread, how often the message of its last call took effect and what
    was delivered to it.
  * `msgq_refines_deque` -- every step is one of the abstract queue, and what a call returns says
    what it did.
-/
import FxRtos.Kernel.Grants
import FxRtos.Lib.Ring
import FxRtos.Objects.Msgq

namespace FxRtos

open Function (update)
open Lib

set_option linter.unusedSectionVars false

/-! ## 1. The abstract queue -/

/-- What takes effect on a queue: a message stored, handed to a receiver, or taken out, and a
    flush. -/
inductive MsgqEffect (T D : Type) where
  | stored (t : T) (msg : D) (toBack : Bool)
  | handed (t r : T) (msg : D)
  | received (t : T) (msg : D)
  | flushed

variable {T E D : Type} [DecidableEq T] [DecidableEq E]

abbrev MsgqSys (T E D : Type) := Sys T E MsgqQ (MsgqAttr D) (FxMsgq T D) (MsgqCall E D)

/-- Where a message goes. -/
def insertMsg (toBack : Bool) (msg : D) (l : List D) : List D :=
  if toBack then l ++ [msg] else msg :: l

/-- The thread waits in a call with this one. -/
def Waits (pc : T → Pc T E (MsgqCall E D)) (t : T) (c : MsgqCall E D) : Prop :=
  ∃ ab, pc t = .inCall (.asleep ab) c

/-- Blocked senders admitted one by one, each the one that the policy selects, to a queue of `cap`
    places. -/
inductive Admits (cap : Nat) (policy : SyncPolicy) (pc : T → Pc T E (MsgqCall E D)) :
    MsgqKern T E D → List D → List (MsgqEffect T D) → MsgqKern T E D → List D → Prop where
  | done (k : MsgqKern T E D) (l : List D) : Admits cap policy pc k l [] k l
  | next {k k' : MsgqKern T E D} {l l' : List D} {es : List (MsgqEffect T D)} {b : Blk T}
      {msg : D} {toBack : Bool} {args : WaitArgs E}
      (hb : k.Selects (.obj .send) b policy) (hc : Waits pc b.1 (.send msg toBack args))
      (hlt : l.length < cap)
      (h : Admits cap policy pc (fxSyncWaitNotify k .satisfied b) (insertMsg toBack msg l) es
        k' l') :
      Admits cap policy pc k l (.stored b.1 msg toBack :: es) k' l'

/-- **The steps of a bounded deque with waiters.** -/
inductive MsgqStep (cap : Nat) (policy : SyncPolicy) (pc : T → Pc T E (MsgqCall E D))
    (k : MsgqKern T E D) : List D → List (MsgqEffect T D) → List D → Prop where
  | nothing (l : List D) : MsgqStep cap policy pc k l [] l
  /-- A message stored: there is room, and nobody waits for it. -/
  | store {l : List D} {t : T} {stage : Stage T E} {msg : D} {toBack : Bool} {args : WaitArgs E}
      (hpc : pc t = .inCall stage (.send msg toBack args)) (hlt : l.length < cap)
      (hno : l = [] → k.wq (.obj .recv) = []) :
      MsgqStep cap policy pc k l [.stored t msg toBack] (insertMsg toBack msg l)
  /-- A message given directly to the receiver that the policy selects. -/
  | hand {t : T} {b : Blk T} {stage : Stage T E} {msg : D} {toBack : Bool}
      {args rargs : WaitArgs E} (hpc : pc t = .inCall stage (.send msg toBack args))
      (hb : k.Selects (.obj .recv) b policy) (hr : Waits pc b.1 (.receive rargs)) :
      MsgqStep cap policy pc k [] [.handed t b.1 msg] []
  /-- The first message taken out. -/
  | receive {t : T} {stage : Stage T E} {msg : D} {l : List D} {args : WaitArgs E}
      (hpc : pc t = .inCall stage (.receive args))
      (hno : l.length + 1 = cap → k.wq (.obj .send) = []) :
      MsgqStep cap policy pc k (msg :: l) [.received t msg] l
  /-- The first message taken out of a full queue, and the message of a blocked sender stored. -/
  | refill {t : T} {b : Blk T} {stage : Stage T E} {msg msg' : D} {toBack : Bool} {l : List D}
      {args sargs : WaitArgs E} (hpc : pc t = .inCall stage (.receive args))
      (hfull : l.length + 1 = cap) (hb : k.Selects (.obj .send) b policy)
      (hc : Waits pc b.1 (.send msg' toBack sargs)) :
      MsgqStep cap policy pc k (msg :: l) [.received t msg, .stored b.1 msg' toBack]
        (insertMsg toBack msg' l)
  /-- A flush admits blocked senders until the queue is full or none is left. -/
  | flush {l l' : List D} {es : List (MsgqEffect T D)} {k' : MsgqKern T E D}
      (h : Admits cap policy pc k [] es k' l')
      (hend : l'.length = cap ∨ k'.wq (.obj .send) = []) :
      MsgqStep cap policy pc k l (.flushed :: es) l'

/-! ## 2. What takes effect -/

/-- The receiver that a message is handed to. -/
def fxMsgqHandTo (s : MsgqKern T E D × FxMsgq T D) : Option (Blk T) :=
  if s.2.items = 0 then fxSyncWaitBlockGet s.1 (.obj .recv) s.2.policy else none

/-- The sender whose message takes the place made free. -/
def fxMsgqRefillFrom (s : MsgqKern T E D × FxMsgq T D) : Option (Blk T) :=
  if s.2.items = s.2.itemsMax - 1 then fxSyncWaitBlockGet s.1 (.obj .send) s.2.policy else none

/-- The message of a blocked sender stored. -/
def storedOf (k : MsgqKern T E D) (b : Blk T) : List (MsgqEffect T D) :=
  match (k.wb b).u.getAttr with
  | some (.send msg toBack) => [.stored b.1 msg toBack]
  | _ => []

/-- What takes effect when the call tests the queue. -/
def MsgqCall.effects (me : T) (s : MsgqKern T E D × FxMsgq T D) :
    MsgqCall E D → List (MsgqEffect T D)
  | .send msg toBack _ =>
    if s.2.items = s.2.itemsMax then []
    else match fxMsgqHandTo s with
      | some rcvr => [.handed me rcvr.1 msg]
      | none => [.stored me msg toBack]
  | .receive _ =>
    if s.2.items = 0 then []
    else .received me (s.2.buf s.2.tail) :: match fxMsgqRefillFrom (s.1, s.2.get me) with
      | some sndr => storedOf s.1 sndr
      | none => []

def fxMsgqFlushLoopEffects : Nat → MsgqKern T E D × FxMsgq T D → List (MsgqEffect T D)
  | 0, _ => []
  | n + 1, s =>
    match if s.2.items < s.2.itemsMax then fxSyncWaitBlockGet s.1 (.obj .send) s.2.policy
      else none with
    | some sndr => storedOf s.1 sndr ++ fxMsgqFlushLoopEffects n
        (fxSyncWaitNotify s.1 .satisfied sndr, s.2.put (s.1.wb sndr).u.getAttr)
    | none => []

def fxMsgqFlushEffects (s : MsgqKern T E D × FxMsgq T D) : List (MsgqEffect T D) :=
  .flushed ::
    fxMsgqFlushLoopEffects s.2.itemsMax (s.1, { s.2 with head := 0, tail := 0, items := 0 })

/-- What takes effect in the next critical section of a thread. -/
def msgqSection (t : T) (s : MsgqKern T E D × FxMsgq T D) :
    Pc T E (MsgqCall E D) → List (MsgqEffect T D)
  | .inCall (.enter _) c => c.effects t (fxSyncWaiterPrepare s.1 t (some c.attr), s.2)
  | .inCall .poll c => c.effects t (fxSyncWaitBlockInit s.1 t (some c.attr), s.2)
  | _ => []

/-- What takes effect in a step. -/
def msgqEffects (checks : Bool) (a : Act T E (MsgqCall E D) MsgqOp) (s : MsgqSys T E D) :
    List (MsgqEffect T D) :=
  match a with
  | .go t => msgqSection t (s.kern, s.obj) (s.pc t)
  | .op .flush => if checks ∧ s.obj.valid = false then [] else fxMsgqFlushEffects (s.kern, s.obj)
  | _ => []

/-- The threads whose calls the effect grants. -/
def MsgqEffect.grants : MsgqEffect T D → List T
  | .stored t _ _ => [t]
  | .handed t r _ => [r, t]
  | .received t _ => [t]
  | .flushed => []

/-! ## 3. The buffer -/

/-- What the queue holds, read from `tail` on. -/
def FxMsgq.contents (q : FxMsgq T D) : List D := ring q.itemsMax q.buf q.tail q.items

/-- `head` is where the ring ends. -/
structure FxMsgq.Ring (q : FxMsgq T D) : Prop where
  tail : q.tail < q.itemsMax
  head : q.head = (q.tail + q.items) % q.itemsMax
  le : q.items ≤ q.itemsMax

section Puffer

variable {q : FxMsgq T D} {msg : D} {toBack : Bool} {me : T}

@[simp] theorem contents_length (q : FxMsgq T D) : q.contents.length = q.items := ring_length

theorem contents_nil (h : q.items = 0) : q.contents = [] :=
  List.length_eq_zero_iff.mp ((contents_length q).trans h)

/-- A message put to either end. -/
theorem FxMsgq.Ring.put (h : q.Ring) (hlt : q.items < q.itemsMax) (msg : D) (toBack : Bool) :
    (q.put (some (.send msg toBack))).Ring ∧
      (q.put (some (.send msg toBack))).contents = insertMsg toBack msg q.contents := by
  obtain ⟨htail, hhead, hle⟩ := h
  have hpos : 0 < q.itemsMax := Nat.zero_lt_of_lt hlt
  cases toBack with
  | true =>
    refine ⟨⟨htail, ?_, hlt⟩, ?_⟩
    · show (q.head + 1) % q.itemsMax = (q.tail + (q.items + 1)) % q.itemsMax
      rw [hhead, Nat.mod_add_mod, Nat.add_assoc]
    · show ring q.itemsMax (update q.buf q.head msg) q.tail (q.items + 1) = q.contents ++ [msg]
      rw [hhead]
      exact ring_append hlt
  | false =>
    refine ⟨⟨Nat.mod_lt _ hpos, ?_, hlt⟩, ring_cons hlt⟩
    show q.head = ((q.tail + (q.itemsMax - 1)) % q.itemsMax + (q.items + 1)) % q.itemsMax
    rw [hhead, Nat.mod_add_mod,
      show q.tail + (q.itemsMax - 1) + (q.items + 1) = q.tail + q.items + q.itemsMax by omega,
      Nat.add_mod_right]

/-- A message taken out of a queue that holds one. -/
theorem FxMsgq.Ring.get (me : T) (h : q.Ring) (hpos : 0 < q.items) :
    (q.get me).Ring ∧ q.contents = q.buf q.tail :: (q.get me).contents := by
  obtain ⟨htail, hhead, hle⟩ := h
  have hmax : 0 < q.itemsMax := Nat.lt_of_lt_of_le hpos hle
  refine ⟨⟨Nat.mod_lt _ hmax, ?_, (Nat.sub_le ..).trans hle⟩, ring_uncons htail hpos⟩
  show q.head = ((q.tail + 1) % q.itemsMax + (q.items - 1)) % q.itemsMax
  rw [hhead, Nat.mod_add_mod, show q.tail + 1 + (q.items - 1) = q.tail + q.items by omega]

/-- An empty ring. -/
theorem FxMsgq.Ring.reset (h : q.Ring) :
    ({ q with head := 0, tail := 0, items := 0 } : FxMsgq T D).Ring :=
  ⟨Nat.zero_lt_of_lt h.tail, (Nat.zero_mod _).symm, Nat.zero_le _⟩

/-- Only the buffer of a receiver is written. -/
theorem FxMsgq.Ring.deliver (h : q.Ring) (t : T) (d : D) :
    ({ q with rcvrBuf := update q.rcvrBuf t d } : FxMsgq T D).Ring := ⟨h.tail, h.head, h.le⟩

theorem put_rcvrBuf (attr : Option (MsgqAttr D)) : (q.put attr).rcvrBuf = q.rcvrBuf := by
  unfold FxMsgq.put fxMsgqPutMsg
  split
  · dsimp only
    split <;> rfl
  · rfl

theorem put_policy (attr : Option (MsgqAttr D)) : (q.put attr).policy = q.policy := by
  unfold FxMsgq.put fxMsgqPutMsg
  split
  · dsimp only
    split <;> rfl
  · rfl

end Puffer

/-! ## 4. Who is queued -/

/-- A queued block is the main block of a thread that waits there, and holds the attribute of its
    call. -/
def QueuedCalls (pc : T → Pc T E (MsgqCall E D)) (k : MsgqKern T E D) : Prop :=
  ∀ q, ∀ b ∈ k.wq (.obj q), ∃ c, Waits pc b.1 c ∧ c.queue = q ∧
    (k.wb b).u.getAttr = some c.attr

section Wartende

variable {pc : T → Pc T E (MsgqCall E D)} {k k' : MsgqKern T E D} {b : Blk T} {checks : Bool}
  {s : MsgqSys T E D}

theorem QueuedCalls.frame (h : QueuedCalls pc k) (hf : Frame k k') : QueuedCalls pc k' := by
  intro q b hb
  obtain ⟨c, hc, hq, hattr⟩ := h q b ((hf.sub q).mem hb)
  exact ⟨c, hc, hq, by rw [hf.wb q b hb]; exact hattr⟩

theorem queuedCalls (hw : WellFormed (fxMsgq checks) s) (ha : AttrOk (fxMsgq checks) s) :
    QueuedCalls s.pc s.kern := by
  intro q b hb
  obtain ⟨hmain, ab, c, hpc, hq⟩ := call_of_mem hw.phases hb rfl
  obtain ⟨u, slot⟩ := b
  change slot = .main at hmain
  subst hmain
  refine ⟨c, ⟨ab, hpc⟩, Wtbl.obj.inj hq, ?_⟩
  rw [ha u ab c q hpc hb]
  rfl

/-- The next sender. -/
theorem QueuedCalls.sender (h : QueuedCalls pc k) (hb : b ∈ k.wq (.obj .send)) :
    ∃ msg toBack args, Waits pc b.1 (.send msg toBack args) ∧
      (k.wb b).u.getAttr = some (.send msg toBack) ∧ storedOf k b = [.stored b.1 msg toBack] := by
  obtain ⟨c, hc, hq, hattr⟩ := h .send b hb
  cases c with
  | send msg toBack args =>
    refine ⟨msg, toBack, args, hc, hattr, ?_⟩
    unfold storedOf
    rw [hattr]
    rfl
  | receive args => cases hq

/-- The next receiver. -/
theorem QueuedCalls.receiver (h : QueuedCalls pc k) (hb : b ∈ k.wq (.obj .recv)) :
    ∃ args, Waits pc b.1 (.receive args) := by
  obtain ⟨c, hc, hq, _⟩ := h .recv b hb
  cases c with
  | send msg toBack args => cases hq
  | receive args => exact ⟨args, hc⟩

end Wartende

/-! ## 5. The code -/

/-- What an effect puts into the buffer of a receiver. -/
def MsgqEffect.deliveredTo (u : T) : MsgqEffect T D → List D
  | .handed _ r msg => if r = u then [msg] else []
  | .received t msg => if t = u then [msg] else []
  | _ => []

/-- The messages that the effects deliver to a thread. -/
def deliveries (u : T) (es : List (MsgqEffect T D)) : List D := es.flatMap (·.deliveredTo u)

/-- The senders that a flush wakes up. -/
def fxMsgqFlushWakes : Nat → MsgqKern T E D × FxMsgq T D → List T
  | 0, _ => []
  | n + 1, s =>
    match if s.2.items < s.2.itemsMax then fxSyncWaitBlockGet s.1 (.obj .send) s.2.policy
      else none with
    | some sndr => sndr.1 :: fxMsgqFlushWakes n
        (fxSyncWaitNotify s.1 .satisfied sndr, s.2.put (s.1.wb sndr).u.getAttr)
    | none => []

/-- Whom the functions of a message queue wake up. -/
def fxMsgqWakers (checks : Bool) :
    Wakers T E MsgqQ (MsgqAttr D) (FxMsgq T D) (MsgqCall E D) MsgqOp where
  test t c s := ((match c.queue with
    | .send => fxMsgqHandTo s
    | .recv => fxMsgqRefillFrom (s.1, s.2.get t)).toList).map Prod.fst
  op p s := if checks ∧ s.2.valid = false then [] else
    match p with
    | .deinit => []
    | .flush =>
      fxMsgqFlushWakes s.2.itemsMax (s.1, { s.2 with head := 0, tail := 0, items := 0 })

/-- The queue changed as the effects say. -/
structure Effected (pc : T → Pc T E (MsgqCall E D)) (k : MsgqKern T E D) (q : FxMsgq T D)
    (es : List (MsgqEffect T D)) (q' : FxMsgq T D) : Prop where
  ring : q'.Ring
  step : MsgqStep q.itemsMax q.policy pc k q.contents es q'.contents
  buf : ∀ u, q'.rcvrBuf u = (deliveries u es).getLast?.getD (q.rcvrBuf u)
  max : q'.itemsMax = q.itemsMax
  policy : q'.policy = q.policy

section Code

variable {pc : T → Pc T E (MsgqCall E D)} {k k0 k' : MsgqKern T E D} {b : Blk T} {checks : Bool}
  {q : FxMsgq T D} {me u : T} {stage : Stage T E} {msg : D} {toBack wait : Bool}
  {args : WaitArgs E}

/-- Who is selected depends on the queue and the priorities only. -/
theorem Kern.Selects.congr {w : Wtbl T E MsgqQ} {policy : SyncPolicy} (h : k.Selects w b policy)
    (hwq : k.wq = k0.wq) (hs : k.sched = k0.sched) : k0.Selects w b policy := by
  have hp : k.prioOf = k0.prioOf := by
    funext b
    unfold Kern.prioOf
    rw [hs]
  cases policy with
  | fifo =>
    obtain ⟨rest, hr⟩ := h
    exact ⟨rest, by rw [← hwq]; exact hr⟩
  | prio =>
    show FirstMin k0.prioOf (k0.wq w) b
    rw [← hwq, ← hp]
    exact h

theorem fxMsgqHandTo_some (h : fxMsgqHandTo (k, q) = some b) :
    q.items = 0 ∧ b ∈ k.wq (.obj .recv) ∧ k.Selects (.obj .recv) b q.policy := by
  unfold fxMsgqHandTo at h
  split at h
  · exact ⟨‹_›, fxSyncWaitBlockGet_mem h, fxSyncWaitBlockGet_spec h⟩
  · cases h

theorem fxMsgqHandTo_none (h : fxMsgqHandTo (k, q) = none) (h0 : q.items = 0) :
    k.wq (.obj .recv) = [] := by
  unfold fxMsgqHandTo at h
  rw [if_pos h0] at h
  exact fxSyncWaitBlockGet_none.mp h

theorem fxMsgqRefillFrom_some (h : fxMsgqRefillFrom (k, q) = some b) :
    q.items = q.itemsMax - 1 ∧ b ∈ k.wq (.obj .send) ∧ k.Selects (.obj .send) b q.policy := by
  unfold fxMsgqRefillFrom at h
  split at h
  · exact ⟨‹_›, fxSyncWaitBlockGet_mem h, fxSyncWaitBlockGet_spec h⟩
  · cases h

theorem fxMsgqRefillFrom_none (h : fxMsgqRefillFrom (k, q) = none)
    (h0 : q.items = q.itemsMax - 1) : k.wq (.obj .send) = [] := by
  unfold fxMsgqRefillFrom at h
  rw [if_pos h0] at h
  exact fxSyncWaitBlockGet_none.mp h

/-- A send, by what it finds. -/
theorem fxMsgqSend_eq (me : T) (wait : Bool) (k : MsgqKern T E D) (q : FxMsgq T D) :
    fxMsgqTestAndWaitSend me wait (k, q) = if q.items = q.itemsMax then
      (false, if wait then fxSyncWaitStart k (.obj .send) (me, .main) else k, q)
    else (true, match fxMsgqHandTo (k, q) with
      | some rcvr => (fxSyncWaitNotify k .satisfied rcvr,
          q.deliver rcvr.1 (k.wb (me, .main)).u.getAttr)
      | none => (k, q.put (k.wb (me, .main)).u.getAttr)) := by
  unfold fxMsgqTestAndWaitSend
  split
  · rfl
  · show (match fxMsgqHandTo (k, q) with
      | some rcvr => (true, fxSyncWaitNotify k .satisfied rcvr,
          q.deliver rcvr.1 (k.wb (me, .main)).u.getAttr)
      | none => (true, k, q.put (k.wb (me, .main)).u.getAttr)) = _
    split <;> rfl

/-- A receive, by what it finds. -/
theorem fxMsgqRecv_eq (me : T) (wait : Bool) (k : MsgqKern T E D) (q : FxMsgq T D) :
    fxMsgqTestAndWaitRecv me wait (k, q) = if q.items = 0 then
      (false, if wait then fxSyncWaitStart k (.obj .recv) (me, .main) else k, q)
    else (true, match fxMsgqRefillFrom (k, q.get me) with
      | some sndr => (fxSyncWaitNotify k .satisfied sndr,
          (q.get me).put (k.wb sndr).u.getAttr)
      | none => (k, q.get me)) := by
  unfold fxMsgqTestAndWaitRecv
  split
  · rfl
  · show (match fxMsgqRefillFrom (k, q.get me) with
      | some sndr => (true, fxSyncWaitNotify k .satisfied sndr,
          (q.get me).put (k.wb sndr).u.getAttr)
      | none => (true, k, q.get me)) = _
    split <;> rfl

/-- **A send** takes effect as it should. -/
theorem send_effected (hr : q.Ring) (hq : QueuedCalls pc k)
    (hpc : pc me = .inCall stage (.send msg toBack args))
    (hattr : (k.wb (me, .main)).u.getAttr = some (.send msg toBack)) (hwq : k.wq = k0.wq)
    (hs : k.sched = k0.sched) :
    Effected pc k0 q ((MsgqCall.send msg toBack args).effects me (k, q))
      (fxMsgqTestAndWaitSend me wait (k, q)).2.2 := by
  rw [fxMsgqSend_eq, hattr]
  by_cases hfull : q.items = q.itemsMax
  · have he : (MsgqCall.send msg toBack args).effects me (k, q) = [] := if_pos hfull
    rw [he, if_pos hfull]
    exact ⟨hr, .nothing _, fun _ => rfl, rfl, rfl⟩
  · rw [if_neg hfull]
    cases hget : fxMsgqHandTo (k, q) with
    | some rcvr =>
      have he : (MsgqCall.send msg toBack args).effects me (k, q) = [.handed me rcvr.1 msg] := by
        simp only [MsgqCall.effects, hget]
        exact if_neg hfull
      obtain ⟨hz, hmem, hsel⟩ := fxMsgqHandTo_some hget
      obtain ⟨rargs, hw⟩ := hq.receiver hmem
      have hnil : q.contents = [] := contents_nil hz
      rw [he]
      refine ⟨hr.deliver _ _, ?_, fun u => ?_, rfl, rfl⟩
      · have hnil' : (q.deliver rcvr.1 (some (.send msg toBack))).contents = [] := contents_nil hz
        rw [hnil, hnil']
        exact .hand hpc (hsel.congr hwq hs) hw
      · show update q.rcvrBuf rcvr.1 msg u = (deliveries u [.handed me rcvr.1 msg]).getLast?.getD _
        unfold deliveries
        simp only [List.flatMap_singleton, MsgqEffect.deliveredTo]
        by_cases hu : rcvr.1 = u
        · rw [if_pos hu, hu, Function.update_self]
          rfl
        · rw [if_neg hu, Function.update_of_ne (Ne.symm hu)]
          rfl
    | none =>
      have he : (MsgqCall.send msg toBack args).effects me (k, q) = [.stored me msg toBack] := by
        simp only [MsgqCall.effects, hget]
        exact if_neg hfull
      have hlt : q.items < q.itemsMax := Nat.lt_of_le_of_ne hr.le hfull
      obtain ⟨hring, hput⟩ := hr.put hlt msg toBack
      rw [he]
      refine ⟨hring, ?_, fun u => ?_, put_itemsMax .., put_policy ..⟩
      · show MsgqStep _ _ _ _ _ _ (q.put (some (.send msg toBack))).contents
        rw [hput]
        refine .store hpc (by rw [contents_length]; exact hlt) fun hnil => ?_
        rw [← hwq]
        refine fxMsgqHandTo_none hget ?_
        rw [← contents_length q, hnil]
        rfl
      · show (q.put (some (.send msg toBack))).rcvrBuf u = _
        rw [put_rcvrBuf]
        rfl

/-- **A receive** takes effect as it should. -/
theorem receive_effected (hr : q.Ring) (hq : QueuedCalls pc k)
    (hpc : pc me = .inCall stage (.receive args)) (hwq : k.wq = k0.wq)
    (hs : k.sched = k0.sched) :
    Effected pc k0 q ((MsgqCall.receive args).effects me (k, q))
      (fxMsgqTestAndWaitRecv me wait (k, q)).2.2 := by
  rw [fxMsgqRecv_eq]
  by_cases hz : q.items = 0
  · have he : (MsgqCall.receive args).effects me (k, q) = [] := if_pos hz
    rw [he, if_pos hz]
    exact ⟨hr, .nothing _, fun _ => rfl, rfl, rfl⟩
  · have hpos := Nat.pos_of_ne_zero hz
    obtain ⟨hring, hcont⟩ := hr.get me hpos
    have hlen : (q.get me).contents.length + 1 = q.items := by
      rw [contents_length]
      exact Nat.sub_add_cancel hpos
    have hle := hr.le
    -- what the receiver finds in its buffer
    have hbuf : ∀ u es, deliveries u es = [] → update q.rcvrBuf me (q.buf q.tail) u =
        (deliveries u (.received me (q.buf q.tail) :: es)).getLast?.getD (q.rcvrBuf u) := by
      intro u es hes
      unfold deliveries at hes ⊢
      rw [List.flatMap_cons, hes, List.append_nil]
      simp only [MsgqEffect.deliveredTo]
      by_cases hu : me = u
      · rw [if_pos hu, hu, Function.update_self]
        rfl
      · rw [if_neg hu, Function.update_of_ne (Ne.symm hu)]
        rfl
    rw [if_neg hz]
    cases hget : fxMsgqRefillFrom (k, q.get me) with
    | some sndr =>
      obtain ⟨hlast, hmem, hsel⟩ := fxMsgqRefillFrom_some hget
      obtain ⟨msg', toBack', sargs, hw, hattr, hstored⟩ := hq.sender hmem
      have he : (MsgqCall.receive args).effects me (k, q) =
          [.received me (q.buf q.tail), .stored sndr.1 msg' toBack'] := by
        simp only [MsgqCall.effects, hget, hstored]
        exact if_neg hz
      have hlast' : q.items - 1 = q.itemsMax - 1 := hlast
      have hlt : (q.get me).items < (q.get me).itemsMax := by
        show q.items - 1 < q.itemsMax
        omega
      obtain ⟨hring', hput⟩ := hring.put hlt msg' toBack'
      rw [he]
      show Effected pc k0 q _ ((q.get me).put (k.wb sndr).u.getAttr)
      rw [hattr]
      refine ⟨hring', ?_, fun u => ?_, put_itemsMax .., put_policy ..⟩
      · rw [hput, hcont]
        exact .refill hpc (by omega) (hsel.congr hwq hs) hw
      · rw [put_rcvrBuf]
        exact hbuf u [.stored sndr.1 msg' toBack'] rfl
    | none =>
      have he : (MsgqCall.receive args).effects me (k, q) = [.received me (q.buf q.tail)] := by
        simp only [MsgqCall.effects, hget]
        exact if_neg hz
      rw [he]
      refine ⟨hring, ?_, fun u => hbuf u [] rfl, rfl, rfl⟩
      show MsgqStep _ _ _ _ _ _ (q.get me).contents
      rw [hcont]
      refine .receive hpc fun hfull => ?_
      rw [← hwq]
      refine fxMsgqRefillFrom_none hget ?_
      show q.items - 1 = q.itemsMax - 1
      omega

/-- A flush, after the queue was emptied. -/
structure Flushed (pc : T → Pc T E (MsgqCall E D)) (k : MsgqKern T E D) (q : FxMsgq T D)
    (es : List (MsgqEffect T D)) (wakes : List T) (s : MsgqKern T E D × FxMsgq T D) : Prop where
  ring : s.2.Ring
  admits : Admits q.itemsMax q.policy pc k q.contents es s.1 s.2.contents
  fin : s.2.items = q.itemsMax ∨ s.1.wq (.obj .send) = []
  buf : s.2.rcvrBuf = q.rcvrBuf
  max : s.2.itemsMax = q.itemsMax
  policy : s.2.policy = q.policy
  grants : es.flatMap (·.grants) = wakes
  silent : ∀ u, deliveries u es = []

theorem flushLoop_flushed {ph : T → Phase T E MsgqQ} (hne : ∀ u, ph u ≠ .entering) (n : Nat)
    (hr : q.Ring) (hk : KernOk k ph) (hq : QueuedCalls pc k) (hn : q.itemsMax ≤ q.items + n) :
    Flushed pc k q (fxMsgqFlushLoopEffects n (k, q)) (fxMsgqFlushWakes n (k, q))
      (fxMsgqFlushLoop n (k, q)) := by
  induction n generalizing k q with
  | zero =>
    exact ⟨hr, .done _ _, Or.inl (Nat.le_antisymm hr.le hn), rfl, rfl, rfl, rfl, fun _ => rfl⟩
  | succ n ih =>
    unfold fxMsgqFlushLoopEffects fxMsgqFlushWakes fxMsgqFlushLoop
    dsimp only
    by_cases hlt : q.items < q.itemsMax
    · rw [if_pos hlt]
      cases hget : fxSyncWaitBlockGet k (.obj .send) q.policy with
      | none =>
        have hnil := fxSyncWaitBlockGet_none.mp hget
        exact ⟨hr, .done _ _, Or.inr hnil, rfl, rfl, rfl, rfl, fun _ => rfl⟩
      | some sndr =>
        have hmem := fxSyncWaitBlockGet_mem hget
        obtain ⟨msg', toBack', sargs, hw, hattr, hstored⟩ := hq.sender hmem
        obtain ⟨hring, hput⟩ := hr.put hlt msg' toBack'
        have hk' := hk.notify hmem (hne _) (Or.inl rfl)
        have hq' := hq.frame (Frame.notify (hk.tied sndr) .satisfied)
        have hrest := ih hring hk' hq' (by rw [put_items, put_itemsMax]; omega)
        dsimp only
        rw [hattr, hstored]
        refine ⟨hrest.ring, ?_, ?_, ?_, ?_, ?_, ?_, fun u => ?_⟩
        · have hadmits := hrest.admits
          rw [put_itemsMax, put_policy, hput] at hadmits
          exact .next (fxSyncWaitBlockGet_spec hget) hw (by rw [contents_length]; exact hlt) hadmits
        · exact (put_itemsMax q _) ▸ hrest.fin
        · exact hrest.buf.trans (put_rcvrBuf _)
        · exact hrest.max.trans (put_itemsMax ..)
        · exact hrest.policy.trans (put_policy _)
        · rw [List.flatMap_append, hrest.grants]
          rfl
        · exact hrest.silent u
    · rw [if_neg hlt]
      have hfull := Nat.le_antisymm hr.le (Nat.le_of_not_lt hlt)
      exact ⟨hr, .done _ _, Or.inl hfull, rfl, rfl, rfl, rfl, fun _ => rfl⟩

/-- **A flush** takes effect as it should. -/
theorem flush_effected {ph : T → Phase T E MsgqQ} (hne : ∀ u, ph u ≠ .entering) (hr : q.Ring)
    (hk : KernOk k ph) (hq : QueuedCalls pc k) :
    Effected pc k q (fxMsgqFlushEffects (k, q)) (fxMsgqFlush (k, q)).2 ∧
      (fxMsgqFlushEffects (k, q)).flatMap (·.grants) =
        fxMsgqFlushWakes q.itemsMax (k, { q with head := 0, tail := 0, items := 0 }) := by
  have h := flushLoop_flushed hne q.itemsMax hr.reset hk hq (Nat.le_add_left ..)
  refine ⟨⟨h.ring, ?_, fun u => ?_, h.max, h.policy⟩, h.grants⟩
  · exact .flush h.admits (by rw [contents_length]; exact h.fin)
  · have hnone : deliveries u (fxMsgqFlushEffects (k, q)) = [] := h.silent u
    rw [hnone]
    exact congrFun h.buf u

/-! ### Whose calls are granted -/

theorem flushLoop_wakes (n : Nat) (s : MsgqKern T E D × FxMsgq T D) :
    Wakes NoOne s.1 (fxMsgqFlushWakes n s) (fxMsgqFlushLoop n s).1 := by
  induction n generalizing s with
  | zero => exact .refl
  | succ n ih =>
    unfold fxMsgqFlushWakes fxMsgqFlushLoop
    cases hget : (if s.2.items < s.2.itemsMax then
        fxSyncWaitBlockGet s.1 (.obj .send) s.2.policy else none) with
    | some sndr =>
      split at hget
      · exact (Wakes.one hget not_false).trans (ih (_, _))
      · cases hget
    | none => exact .refl

theorem MsgqOp.run_wakes (p : MsgqOp) (s : MsgqKern T E D × FxMsgq T D) :
    Wakes NoOne s.1 ((fxMsgqWakers false).op p s) (p.run s).1 := by
  cases p with
  | deinit =>
    have h1 := Wakes.dropAll s.1 MsgqQ.send
    exact h1.trans (Wakes.dropAll _ MsgqQ.recv)
  | flush => exact flushLoop_wakes s.2.itemsMax (s.1, { s.2 with head := 0, tail := 0, items := 0 })

theorem fxMsgq_plain (checks : Bool) :
    (fxMsgq checks : WaitObject T E _ _ (FxMsgq T D) _ _).Plain (fxMsgqWakers checks) where
  lawful := fxMsgq_lawful checks
  isObj _ := trivial
  passed t c wait s ha h := by
    obtain ⟨k, q⟩ := s
    cases c with
    | send msg toBack args =>
      change (fxMsgqTestAndWaitSend t wait (k, q)).1 = true at h
      show Wakes _ k ((fxMsgqHandTo (k, q)).toList.map Prod.fst)
        (fxMsgqTestAndWaitSend t wait (k, q)).2.1
      rw [fxMsgqSend_eq] at h ⊢
      by_cases hfull : q.items = q.itemsMax
      · rw [if_pos hfull] at h
        cases h
      · rw [if_neg hfull]
        cases hget : fxMsgqHandTo (k, q) with
        | some rcvr =>
          have hmem := (fxMsgqHandTo_some hget).2.1
          exact Wakes.refl.wake hmem (ha.ne_of_mem hmem)
        | none => exact .refl
    | receive args =>
      change (fxMsgqTestAndWaitRecv t wait (k, q)).1 = true at h
      show Wakes _ k ((fxMsgqRefillFrom (k, q.get t)).toList.map Prod.fst)
        (fxMsgqTestAndWaitRecv t wait (k, q)).2.1
      rw [fxMsgqRecv_eq] at h ⊢
      by_cases hz : q.items = 0
      · rw [if_pos hz] at h
        cases h
      · rw [if_neg hz]
        cases hget : fxMsgqRefillFrom (k, q.get t) with
        | some sndr =>
          have hmem := (fxMsgqRefillFrom_some hget).2.1
          exact Wakes.refl.wake hmem (ha.ne_of_mem hmem)
        | none => exact .refl
  failed t c wait s h := by
    obtain ⟨k, q⟩ := s
    cases c with
    | send msg toBack args =>
      change (fxMsgqTestAndWaitSend t wait (k, q)).1 = false at h
      show (fxMsgqTestAndWaitSend t wait (k, q)).2.1 = _
      rw [fxMsgqSend_eq] at h ⊢
      by_cases hfull : q.items = q.itemsMax
      · rw [if_pos hfull]
        rfl
      · rw [if_neg hfull] at h
        cases h
    | receive args =>
      change (fxMsgqTestAndWaitRecv t wait (k, q)).1 = false at h
      show (fxMsgqTestAndWaitRecv t wait (k, q)).2.1 = _
      rw [fxMsgqRecv_eq] at h ⊢
      by_cases hz : q.items = 0
      · rw [if_pos hz]
        rfl
      · rw [if_neg hz] at h
        cases h
  after _ _ _ _ := ⟨rfl, rfl⟩
  op p s s' h := by
    cases h
    show Wakes NoOne s.1 (if checks ∧ s.2.valid = false then [] else _) _
    split
    · exact .refl
    · exact p.run_wakes s

/-- The effects of a test and the threads it grants. -/
theorem effects_tested (hq : QueuedCalls pc k) (c : MsgqCall E D) (u : T) :
    ((c.effects me (k, q)).flatMap (·.grants)).count u =
      ((fxMsgqWakers checks).tested (fxMsgq checks) me c wait (k, q)).count u := by
  unfold Wakers.tested
  cases c with
  | send msg toBack args =>
    show _ = (if (fxMsgqTestAndWaitSend me wait (k, q)).1 then
      (fxMsgqHandTo (k, q)).toList.map Prod.fst ++ [me] else []).count u
    rw [fxMsgqSend_eq]
    simp only [MsgqCall.effects]
    by_cases hfull : q.items = q.itemsMax
    · rw [if_pos hfull, if_pos hfull]
      rfl
    · rw [if_neg hfull, if_neg hfull]
      cases fxMsgqHandTo (k, q) <;> rfl
  | receive args =>
    show _ = (if (fxMsgqTestAndWaitRecv me wait (k, q)).1 then
      (fxMsgqRefillFrom (k, q.get me)).toList.map Prod.fst ++ [me] else []).count u
    rw [fxMsgqRecv_eq]
    simp only [MsgqCall.effects]
    by_cases hz : q.items = 0
    · rw [if_pos hz, if_pos hz]
      rfl
    · rw [if_neg hz, if_neg hz]
      cases hget : fxMsgqRefillFrom (k, q.get me) with
      | some sndr =>
        obtain ⟨msg', toBack', sargs, _, _, hstored⟩ := hq.sender (fxMsgqRefillFrom_some hget).2.1
        dsimp only
        rw [hstored]
        show List.count u ([me] ++ [sndr.1]) = List.count u ([sndr.1] ++ [me])
        rw [List.count_append, List.count_append, Nat.add_comm]
      | none => rfl

end Code

/-! ## 6. Who takes part -/

/-- How often the effect is that of a message of the thread. -/
def MsgqEffect.sentBy (u : T) : MsgqEffect T D → Nat
  | .stored t _ _ => if t = u then 1 else 0
  | .handed t _ _ => if t = u then 1 else 0
  | _ => 0

def sends (u : T) (es : List (MsgqEffect T D)) : Nat := (es.map (·.sentBy u)).sum

/-- The threads that take part in an effect are in the calls it says. -/
def MsgqEffect.Typed (pc : T → Pc T E (MsgqCall E D)) : MsgqEffect T D → Prop
  | .stored t msg toBack => ∃ stage args, pc t = .inCall stage (.send msg toBack args)
  | .handed t r msg => (∃ stage toBack args, pc t = .inCall stage (.send msg toBack args)) ∧
      ∃ stage args, pc r = .inCall stage (.receive args)
  | .received t _ => ∃ stage args, pc t = .inCall stage (.receive args)
  | .flushed => True

section Rollen

variable {pc : T → Pc T E (MsgqCall E D)} {k k' : MsgqKern T E D} {cap : Nat} {policy : SyncPolicy}
  {l l' : List D} {es : List (MsgqEffect T D)} {u : T} {stage : Stage T E} {c : MsgqCall E D}

theorem Waits.typed {t : T} (h : Waits pc t c) : ∃ stage, pc t = .inCall stage c := by
  obtain ⟨ab, h⟩ := h
  exact ⟨_, h⟩

theorem Admits.typed (h : Admits cap policy pc k l es k' l') : ∀ e ∈ es, e.Typed pc := by
  induction h with
  | done => exact fun _ he => by cases he
  | next hb hc hlt _ ih =>
    intro e he
    rcases List.mem_cons.mp he with rfl | he
    · obtain ⟨stage, hpc⟩ := hc.typed
      exact ⟨stage, _, hpc⟩
    · exact ih e he

theorem MsgqStep.typed (h : MsgqStep cap policy pc k l es l') : ∀ e ∈ es, e.Typed pc := by
  intro e he
  cases h with
  | nothing => cases he
  | store hpc =>
    cases List.mem_singleton.mp he
    exact ⟨_, _, hpc⟩
  | hand hpc hb hr =>
    cases List.mem_singleton.mp he
    obtain ⟨stage, hr⟩ := hr.typed
    exact ⟨⟨_, _, _, hpc⟩, stage, _, hr⟩
  | receive hpc =>
    cases List.mem_singleton.mp he
    exact ⟨_, _, hpc⟩
  | refill hpc hfull hb hc =>
    rcases List.mem_cons.mp he with rfl | he
    · exact ⟨_, _, hpc⟩
    · cases List.mem_singleton.mp he
      obtain ⟨stage, hc⟩ := hc.typed
      exact ⟨stage, _, hc⟩
  | flush h =>
    rcases List.mem_cons.mp he with rfl | he
    · trivial
    · exact h.typed e he

/-- A sender takes part by its message, a receiver by what is delivered to it. -/
theorem MsgqEffect.Typed.roles {e : MsgqEffect T D} (h : e.Typed pc)
    (hpc : pc u = .inCall stage c) :
    (c.queue = .send → e.deliveredTo u = [] ∧ e.sentBy u = e.grants.count u) ∧
      (c.queue = .recv → e.sentBy u = 0 ∧ (e.deliveredTo u).length = e.grants.count u) := by
  -- a thread in a call of the one kind is not in one of the other
  have hsend : ∀ {t stage msg toBack args}, pc t = .inCall stage (.send msg toBack args) →
      c.queue = .recv → t ≠ u := by
    rintro t stage' msg toBack args ht hq rfl
    rw [hpc] at ht
    cases ht
    cases hq
  have hrecv : ∀ {t stage args}, pc t = .inCall stage (.receive args) → c.queue = .send →
      t ≠ u := by
    rintro t stage' args ht hq rfl
    rw [hpc] at ht
    cases ht
    cases hq
  cases e with
  | stored t msg toBack =>
    obtain ⟨_, _, ht⟩ := h
    refine ⟨fun _ => ⟨rfl, ?_⟩, fun hq => ?_⟩
    · simp only [MsgqEffect.sentBy, MsgqEffect.grants, List.count_singleton, beq_iff_eq]
    · have hne := hsend ht hq
      simp [MsgqEffect.sentBy, MsgqEffect.grants, MsgqEffect.deliveredTo, hne]
  | handed t r msg =>
    obtain ⟨⟨_, _, _, ht⟩, _, _, hr⟩ := h
    refine ⟨fun hq => ?_, fun hq => ?_⟩
    · have hne := hrecv hr hq
      simp [MsgqEffect.sentBy, MsgqEffect.grants, MsgqEffect.deliveredTo, hne, List.count_cons]
    · have hne := hsend ht hq
      simp only [MsgqEffect.sentBy, MsgqEffect.grants, MsgqEffect.deliveredTo, if_neg hne,
        List.count_cons, List.count_nil, beq_iff_eq]
      refine ⟨trivial, ?_⟩
      split <;> rfl
  | received t msg =>
    obtain ⟨_, _, ht⟩ := h
    refine ⟨fun hq => ?_, fun _ => ⟨rfl, ?_⟩⟩
    · have hne := hrecv ht hq
      simp [MsgqEffect.sentBy, MsgqEffect.grants, MsgqEffect.deliveredTo, hne]
    · simp only [MsgqEffect.grants, MsgqEffect.deliveredTo, List.count_singleton, beq_iff_eq]
      split <;> rfl
  | flushed => exact ⟨fun _ => ⟨rfl, rfl⟩, fun _ => ⟨rfl, rfl⟩⟩

/-- The same, of all effects of a step. -/
theorem roles (h : ∀ e ∈ es, e.Typed pc) (hpc : pc u = .inCall stage c) :
    (c.queue = .send →
      deliveries u es = [] ∧ sends u es = (es.flatMap (·.grants)).count u) ∧
      (c.queue = .recv →
        sends u es = 0 ∧ (deliveries u es).length = (es.flatMap (·.grants)).count u) := by
  induction es with
  | nil => exact ⟨fun _ => ⟨rfl, rfl⟩, fun _ => ⟨rfl, rfl⟩⟩
  | cons e es ih =>
    obtain ⟨h1, h2⟩ := (h e List.mem_cons_self).roles hpc
    obtain ⟨ih1, ih2⟩ := ih fun e' he => h e' (List.mem_cons_of_mem e he)
    unfold deliveries sends at ih1 ih2 ⊢
    simp only [List.flatMap_cons, List.map_cons, List.sum_cons, List.count_append,
      List.length_append]
    refine ⟨fun hq => ?_, fun hq => ?_⟩
    · rw [(h1 hq).1, (h1 hq).2, (ih1 hq).1, (ih1 hq).2]
      exact ⟨rfl, rfl⟩
    · rw [(h2 hq).1, (h2 hq).2, (ih2 hq).1, (ih2 hq).2]
      exact ⟨rfl, rfl⟩

end Rollen

/-! ## 7. The system -/

/-- For each thread, how often the message of its last call took effect, and what was delivered to
    that call. -/
structure MsgqNotes (T D : Type) where
  sent : T → Nat
  delivered : T → List D

def msgqNote (checks : Bool) (a : Act T E (MsgqCall E D) MsgqOp) (s : MsgqSys T E D)
    (g : MsgqNotes T D) : MsgqNotes T D where
  sent u := (if a.calls u then 0 else g.sent u) + sends u (msgqEffects checks a s)
  delivered u := (if a.calls u then [] else g.delivered u) ++
    deliveries u (msgqEffects checks a s)

section Lauf

variable {cfg : Config T} {checks : Bool} {s s' : MsgqSys T E D} {t u : T}
  {a : Act T E (MsgqCall E D) MsgqOp} {c : MsgqCall E D} {stage : Stage T E}

theorem msgqEffects_nil (h : ¬ s.RunsCode a) : msgqEffects checks a s = [] := by
  cases a with
  | go t =>
    change ¬ (s.pc t).runsCode at h
    show msgqSection t (s.kern, s.obj) (s.pc t) = []
    cases hpc : s.pc t with
    | inCall stage c =>
      rw [hpc] at h
      cases stage with
      | enter ab => exact absurd trivial h
      | poll => exact absurd trivial h
      | _ => rfl
    | _ => rfl
  | op p => exact absurd trivial h
  | _ => rfl

theorem msgqEffects_go (t : T) :
    msgqEffects checks (.go t) s = msgqSection t (s.kern, s.obj) (s.pc t) := rfl

theorem Effected.same {pc : T → Pc T E (MsgqCall E D)} {k : MsgqKern T E D} {q : FxMsgq T D}
    (h : q.Ring) : Effected pc k q [] q := ⟨h, .nothing _, fun _ => rfl, rfl, rfl⟩

/-- A test takes effect as it should. -/
theorem test_effected {k : MsgqKern T E D} {wait : Bool} (hr : s.obj.Ring)
    (hq : QueuedCalls s.pc k) (hpc : s.pc t = .inCall stage c)
    (hattr : (k.wb (t, .main)).u.getAttr = some c.attr) (hwq : k.wq = s.kern.wq)
    (hsched : k.sched = s.kern.sched) :
    Effected s.pc s.kern s.obj (c.effects t (k, s.obj))
      ((fxMsgq checks).testWait t c wait (k, s.obj)).2.2 := by
  cases c with
  | send msg toBack args => exact send_effected hr hq hpc hattr hwq hsched
  | receive args => exact receive_effected hr hq hpc hwq hsched

/-- **Every step** takes effect as it should, and grants the calls that take part. -/
theorem msgq_step (hw : WellFormed (fxMsgq checks) s) (ha : AttrOk (fxMsgq checks) s)
    (hr : s.obj.Ring) (hs : step cfg (fxMsgq checks) a s = some s') :
    Effected s.pc s.kern s.obj (msgqEffects checks a s) s'.obj ∧
      ∀ u, ((msgqEffects checks a s).flatMap (·.grants)).count u =
        ((fxMsgqWakers checks).woken (fxMsgq checks) a s).count u := by
  have hplain := fxMsgq_plain (T := T) (E := E) (D := D) checks
  have hq := queuedCalls hw ha
  cases code_case hplain.lawful hw hs with
  | quiet t hquiet hno =>
    rw [msgqEffects_nil hno, woken_nil hno, hquiet.obj]
    exact ⟨.same hr, fun _ => rfl⟩
  | enter t c ab r k ha' hpc hready he hs1 =>
    subst ha' hs1
    have hph : s.phases (fxMsgq checks) t = .awake := by rw [Sys.phases, hpc]; rfl
    obtain ⟨_, hprep, hf⟩ := prepare_kernOk hw.phases hph hready (some c.attr)
    have hes : msgqEffects checks (.go t) s =
        c.effects t (fxSyncWaiterPrepare s.kern t (some c.attr), s.obj) := by
      rw [msgqEffects_go, hpc]
      rfl
    rw [hes, woken_enter hpc]
    refine ⟨test_effected hr (hq.frame hf) hpc ?_ rfl rfl, effects_tested (hq.frame hf) c⟩
    rw [hprep.main]
    rfl
  | poll t c ha' hpc hready hs1 =>
    subst ha' hs1
    have hph : s.phases (fxMsgq checks) t = .awake := by rw [Sys.phases, hpc]; rfl
    obtain ⟨_, _, hf⟩ := blockInit_kernOk hw.phases hph (some c.attr)
    have hes : msgqEffects checks (.go t) s =
        c.effects t (fxSyncWaitBlockInit s.kern t (some c.attr), s.obj) := by
      rw [msgqEffects_go, hpc]
      rfl
    rw [hes, woken_poll hpc]
    refine ⟨test_effected hr (hq.frame hf) hpc ?_ rfl rfl, effects_tested (hq.frame hf) c⟩
    show (update s.kern.wb _ _ _).u.getAttr = _
    rw [Function.update_self]
    rfl
  | after t c r ha' hpc hs1 =>
    subst ha'
    have hes : msgqEffects checks (.go t) s = [] := by
      rw [msgqEffects_go, hpc]
      rfl
    rw [hplain.ret] at hs1
    rw [hes, woken_ret hpc, hs1]
    exact ⟨.same hr, fun _ => rfl⟩
  | op p ko ha' hc ho hs1 =>
    subst ha' hs1
    change some (if checks ∧ s.obj.valid = false then _ else _) = some ko at ho
    by_cases hchk : checks ∧ s.obj.valid = false
    · rw [if_pos hchk] at ho
      cases ho
      have hes : msgqEffects checks (.op p) s = [] := by
        cases p with
        | deinit => rfl
        | flush => exact if_pos hchk
      have hwk : (fxMsgqWakers checks).woken (fxMsgq checks) (.op p) s = [] := if_pos hchk
      rw [hes, hwk]
      exact ⟨.same hr, fun _ => rfl⟩
    · rw [if_neg hchk] at ho
      cases ho
      cases p with
      | deinit =>
        have hwk : (fxMsgqWakers checks).woken (fxMsgq checks) (.op .deinit) s = [] := if_neg hchk
        rw [hwk]
        exact ⟨⟨⟨hr.tail, hr.head, hr.le⟩, .nothing _, fun _ => rfl, rfl, rfl⟩, fun _ => rfl⟩
      | flush =>
        have hes : msgqEffects checks (.op .flush) s = fxMsgqFlushEffects (s.kern, s.obj) :=
          if_neg hchk
        have hwk : (fxMsgqWakers checks).woken (fxMsgq checks) (.op .flush) s =
            fxMsgqFlushWakes s.obj.itemsMax
              (s.kern, { s.obj with head := 0, tail := 0, items := 0 }) := if_neg hchk
        obtain ⟨h1, h2⟩ := flush_effected (phases_ne s) hr hw.phases hq
        rw [hes, hwk, ← h2]
        exact ⟨h1, fun _ => rfl⟩

/-- The notes of every call under way say what it was granted. -/
def NotesOk (s : MsgqSys T E D) (g : MsgqNotes T D) : Prop :=
  ∀ u stage c, s.pc u = .inCall stage c →
    (c.queue = .send → g.sent u = s.grants u ∧ g.delivered u = []) ∧
    (c.queue = .recv → g.sent u = 0 ∧
      g.delivered u = List.replicate (s.grants u) (s.obj.rcvrBuf u))

theorem NotesOk.step {g : MsgqNotes T D} (hw : WellFormed (fxMsgq checks) s)
    (ha : AttrOk (fxMsgq checks) s) (hr : s.obj.Ring) (hn : NotesOk s g)
    (hs : step cfg (fxMsgq checks) a s = some s') : NotesOk s' (msgqNote checks a s g) := by
  have hplain := fxMsgq_plain (T := T) (E := E) (D := D) checks
  obtain ⟨he, hcount⟩ := msgq_step hw ha hr hs
  intro u stage' c hpc'
  have hgrants := hplain.grants hw hs hpc'
  have hle := grants_le s' u
  rw [← hcount u] at hgrants
  simp only [msgqNote]
  rcases (step_case hplain.lawful hw hs).1.callBefore hpc' with ⟨d, rfl, hidle, _⟩ |
    ⟨stage, hpc⟩ | ⟨r, d, _, hnone⟩
  · -- a new call
    have h0 : s'.grants u = 0 := by
      rw [hgrants]
      show s.grants u + 0 = 0
      refine grants_zero ?_
      rw [hidle]
      rfl
    have hcalls : (Act.call u d : Act T E (MsgqCall E D) MsgqOp).calls u = true :=
      decide_eq_true rfl
    rw [h0, hcalls]
    exact ⟨fun _ => ⟨rfl, rfl⟩, fun _ => ⟨rfl, rfl⟩⟩
  · have hno : a.calls u = false := by
      cases a with
      | call t d =>
        refine decide_eq_false fun e => ?_
        rw [← e, step_call_idle hs] at hpc
        cases hpc
      | _ => rfl
    obtain ⟨hsend, hrecv⟩ := hn u stage c hpc
    obtain ⟨rsend, rrecv⟩ := roles he.step.typed hpc
    rw [hno, hgrants]
    refine ⟨fun hq => ?_, fun hq => ?_⟩
    · rw [(rsend hq).1, (rsend hq).2, (hsend hq).1, (hsend hq).2]
      exact ⟨rfl, rfl⟩
    · obtain ⟨h1, h2⟩ := rrecv hq
      rw [h1, (hrecv hq).1, (hrecv hq).2]
      refine ⟨rfl, ?_⟩
      have hbuf := he.buf u
      rw [← h2] at hgrants ⊢
      -- either nothing is delivered, or this is the first message
      cases hd : deliveries u (msgqEffects checks a s) with
      | nil =>
        rw [hd] at hbuf
        rw [hbuf]
        exact List.append_nil _
      | cons d rest =>
        rw [hd] at hgrants hbuf
        change _ = _ + (rest.length + 1) at hgrants
        have hrest : rest = [] := List.length_eq_zero_iff.mp (by omega)
        have h0 : s.grants u = 0 := by omega
        subst hrest
        rw [hbuf, h0]
        rfl
  · rw [(hplain.after u d r _).1] at hnone
    cases hnone

end Lauf

/-- **A message queue is a bounded deque**, in every run of any threads and interrupts. -/
theorem msgq_refines_deque {cfg : Config T} {buf : Nat → D} {itemsMax : Nat}
    (hmax : 0 < itemsMax) {policy : SyncPolicy} {rcvrBuf : T → D} {s : MsgqSys T E D}
    {g : MsgqNotes T D}
    (h : Reach (noted (step cfg (fxMsgq cfg.checks)) (msgqNote cfg.checks)) Always
      (boot cfg (fxMsgqInit buf itemsMax policy rcvrBuf), ⟨fun _ => 0, fun _ => []⟩) (s, g)) :
    s.obj.contents.length ≤ itemsMax ∧
    -- what takes effect in a step, and where the messages go
    (∀ a s', step cfg (fxMsgq cfg.checks) a s = some s' →
      MsgqStep itemsMax policy s.pc s.kern s.obj.contents (msgqEffects cfg.checks a s)
        s'.obj.contents ∧
      ∀ t, s'.obj.rcvrBuf t =
        (deliveries t (msgqEffects cfg.checks a s)).getLast?.getD (s.obj.rcvrBuf t)) ∧
    -- a send that returns
    (∀ t r msg toBack args, s.pc t = .inCall (.ret r) (.send msg toBack args) →
      g.sent t = if r = .ok then 1 else 0) ∧
    -- a receive that returns
    (∀ t r args, s.pc t = .inCall (.ret r) (.receive args) →
      g.delivered t = if r = .ok then [s.obj.rcvrBuf t] else []) := by
  have hlawful := fxMsgq_lawful (T := T) (E := E) (D := D) cfg.checks
  have hwell : ∀ s : MsgqSys T E D, Reach (step cfg (fxMsgq cfg.checks)) Always
      (boot cfg (fxMsgqInit buf itemsMax policy rcvrBuf)) s →
      WellFormed (fxMsgq cfg.checks) s ∧ AttrOk (fxMsgq cfg.checks) s :=
    fun _ hr => ⟨reach_wellFormed hlawful hr, reach_attrOk hlawful hr⟩
  obtain ⟨hw, ha⟩ := hwell s (h.forget fun _ _ _ => trivial)
  have hinv : (s.obj.Ring ∧ s.obj.itemsMax = itemsMax ∧ s.obj.policy = policy) ∧ NotesOk s g := by
    refine Reach.inv_noted (J := fun (s : MsgqSys T E D) g =>
      (s.obj.Ring ∧ s.obj.itemsMax = itemsMax ∧ s.obj.policy = policy) ∧ NotesOk s g)
      (fun _ _ _ => trivial) hwell ?_ (fun s g a s' hw hj _ hs => ?_) h
    · exact ⟨⟨⟨hmax, (Nat.zero_mod _).symm, Nat.zero_le _⟩, rfl, rfl⟩,
        fun _ _ _ hpc => by cases hpc⟩
    · obtain ⟨⟨hr, hm, hp⟩, hn⟩ := hj
      have he := (msgq_step hw.1 hw.2 hr hs).1
      exact ⟨⟨he.ring, he.max.trans hm, he.policy.trans hp⟩, hn.step hw.1 hw.2 hr hs⟩
  obtain ⟨⟨hr, hm, hp⟩, hn⟩ := hinv
  refine ⟨?_, fun a s' hs => ?_, fun t r msg toBack args hpc => ?_, fun t r args hpc => ?_⟩
  · rw [contents_length, ← hm]
    exact hr.le
  · have he := (msgq_step hw ha hr hs).1
    have hstep := he.step
    rw [hm, hp] at hstep
    exact ⟨hstep, he.buf⟩
  · rw [((hn t _ _ hpc).1 rfl).1, grants_ret hpc]
  · rw [((hn t _ _ hpc).2 rfl).2, grants_ret hpc]
    split <;> rfl

/-- A full queue of one place: thread 1 is blocked, thread 0 takes the message out and that of
    thread 1 takes its place, and the timeout of thread 1 runs out before it returns. -/
theorem msgq_refines_deque_refill :
    let cfg : Config (Fin 3) := ⟨true, 8, 2⟩
    ∃ (s : MsgqSys (Fin 3) Unit Nat) (g : MsgqNotes (Fin 3) Nat),
      Reach (noted (step cfg (fxMsgq cfg.checks)) (msgqNote cfg.checks)) Always
        (boot cfg (fxMsgqInit (fun _ => 0) 1 .fifo fun _ => 0), ⟨fun _ => 0, fun _ => []⟩)
        (s, g) ∧
      s.kern.ev (.timer 1) = true ∧ s.obj.contents = [8] ∧ s.obj.contents.length ≤ 1 ∧
      g.sent 1 = 1 ∧ g.delivered 0 = [7] := by
  intro cfg
  let acts : List (Act (Fin 3) Unit (MsgqCall Unit Nat) MsgqOp) :=
    [.init 0 5 false, .call 0 (.send 7 true (.event none)), .go 0, .go 0,
      .init 1 4 false, .call 1 (.send 8 false (.timeout 9)), .go 1, .go 1, .go 1,
      .call 0 (.receive (.event none)), .go 0, .expire 1, .go 1, .go 1]
  have h : (run (noted (step cfg (fxMsgq cfg.checks)) (msgqNote cfg.checks)) acts
      (boot cfg (fxMsgqInit (fun _ => 0) 1 .fifo fun _ => 0),
        ⟨fun _ => 0, fun _ => []⟩)).any (fun w =>
          w.1.kern.ev (.timer 1) = true ∧ w.1.obj.contents = [8] ∧ w.2.sent 1 = 1 ∧
            w.2.delivered 0 = [7]) = true := by
    decide +kernel
  obtain ⟨⟨s, g⟩, hr, hp⟩ := exists_of_run h
  obtain ⟨he, hc, hsent, hdelivered⟩ := of_decide_eq_true hp
  have hlen := (msgq_refines_deque (Nat.zero_lt_one) hr).1
  exact ⟨s, g, hr, he, hc, hlen, hsent, hdelivered⟩

end FxRtos
