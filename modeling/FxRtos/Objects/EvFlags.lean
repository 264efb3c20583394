/-
  File:      FxRtos/Objects/EvFlags.lean
  Subject:   EVENT FLAGS (fx_ev_flags.c). Setting flags examines every waiter once, collects the
             satisfied ones in a temporary queue with the flags they consume, clears these, and
             then notifies what it collected.

  * `fxEvFlagsScan_spec` -- what is collected: the satisfied waiters, the last one in front.
  * `notifyEach_unlinkEach` -- taking blocks out of a queue first and notifying them afterwards
    comes to the same as notifying them one by one.
-/
import FxRtos.Kernel.Runs

namespace FxRtos

open Function (update)
open Lib

set_option linter.unusedSectionVars false

/-! ## 1. The code -/

abbrev UintFast32 := BitVec 32

/-- What a waiter asks for. The third field of `fx_ev_flags_attr_t`, `prev`, is written by
    others: it is in `EvFlagsMem`. -/
structure EvFlagsAttr where
  type : BitVec 32
  flags : UintFast32
  deriving DecidableEq

def fxEvFlagsAnd : BitVec 32 := 1
def fxEvFlagsClear : BitVec 32 := 2

def EvFlagsAttr.waitAll (a : EvFlagsAttr) : Bool := a.type &&& fxEvFlagsAnd != 0
def EvFlagsAttr.clears (a : EvFlagsAttr) : Bool := a.type &&& fxEvFlagsClear != 0

/-- The wait condition: all of the flags, or any of them. -/
def EvFlagsAttr.satisfied (a : EvFlagsAttr) (flags : UintFast32) : Bool :=
  if a.waitAll then a.flags &&& flags == a.flags else a.flags &&& flags != 0

variable {T E : Type} [DecidableEq T] [DecidableEq E]

/-- The flags, and what belongs to the calls of the threads: `prev` of the attributes, the state
    returned and the error code of the last call. -/
structure EvFlagsMem (T : Type) where
  flags : UintFast32
  valid : Bool
  prev : T → UintFast32
  state : T → UintFast32
  error : T → ThreadStatus

abbrev EvfKern (T E : Type) := Kern T E Unit EvFlagsAttr

/-- The condition of a block. -/
def Kern.satisfiedAt (k : EvfKern T E) (flags : UintFast32) (b : Blk T) : Bool :=
  match (k.wb b).u.getAttr with
  | some attr => attr.satisfied flags
  | none => false

def fxEvfTestAndWait (me : T) (wait : Bool) (s : EvfKern T E × EvFlagsMem T) :
    Bool × EvfKern T E × EvFlagsMem T :=
  match (s.1.wb (me, .main)).u.getAttr with
  | some attr =>
    if attr.satisfied s.2.flags then
      (true, s.1, { s.2 with
        prev := update s.2.prev me s.2.flags
        flags := if attr.clears then s.2.flags &&& ~~~ attr.flags else s.2.flags })
    else (false, if wait then fxSyncWaitStart s.1 (.obj ()) (me, .main) else s.1, s.2)
  | none => (false, if wait then fxSyncWaitStart s.1 (.obj ()) (me, .main) else s.1, s.2)

def fxEvFlagsInit (T : Type) : EvFlagsMem T := ⟨0, true, fun _ => 0, fun _ => 0, fun _ => .ok⟩

def fxEvFlagsDeinit (s : EvfKern T E × EvFlagsMem T) : EvfKern T E × EvFlagsMem T :=
  (fxSyncWaitNotifyAll s.1 (.obj ()) .deleted, { s.2 with valid := false })

/-- The state of the loop over the waiters. -/
structure EvfScan (T E : Type) where
  kern : EvfKern T E
  prev : T → UintFast32
  flagsToClear : UintFast32
  temp : List (Blk T)

/-- One waiter examined. `rtl_queue_insert` puts a collected block in front of the others. -/
def fxEvFlagsScanOne (flags : UintFast32) (s : EvfScan T E) (wb : Blk T) : EvfScan T E :=
  match (s.kern.wb wb).u.getAttr with
  | some attr =>
    if attr.satisfied flags then
      { kern := s.kern.unlink wb
        prev := update s.prev wb.1 flags
        flagsToClear := if attr.clears then s.flagsToClear ||| attr.flags else s.flagsToClear
        temp := wb :: s.temp }
    else s
  | none => s

/-- The loop that notifies what the temporary queue holds. -/
def notifyEach {Q A : Type} [DecidableEq Q] (k : Kern T E Q A) (temp : List (Blk T)) :
    Kern T E Q A :=
  temp.foldl (fun k wb => fxSyncWaitNotify k .satisfied wb) k

/-- The loop of `fx_ev_flags_set` over the waiters, for the flags after the change. -/
def fxEvFlagsScan (flags : UintFast32) (s : EvfKern T E × EvFlagsMem T) : EvfScan T E :=
  (s.1.wq (.obj ())).foldl (fxEvFlagsScanOne flags) ⟨s.1, s.2.prev, 0, []⟩

def fxEvFlagsSet (flags : UintFast32) (set : Bool) (s : EvfKern T E × EvFlagsMem T) :
    EvfKern T E × EvFlagsMem T :=
  if set then
    let new := s.2.flags ||| flags
    let scan := fxEvFlagsScan new s
    (notifyEach scan.kern scan.temp,
      { s.2 with prev := scan.prev, flags := new &&& ~~~ scan.flagsToClear })
  else (s.1, { s.2 with flags := s.2.flags &&& ~~~ flags })

/-- A call of `fx_ev_flags_wait` or `fx_ev_flags_timedwait`. -/
structure EvFlagsCall (E : Type) where
  reqFlags : UintFast32
  option : BitVec 32
  args : WaitArgs E

/-- The end of a call: a wait that was examined with success counts as one, whatever its status
    says. The attributes end with the call, so `prev` is zero for the next one. -/
def fxEvFlagsWaitEnd (me : T) (error : ThreadStatus) (m : EvFlagsMem T) : EvFlagsMem T :=
  { m with
    error := update m.error me (if m.prev me ≠ 0 then .ok else error)
    state := if m.prev me ≠ 0 then update m.state me (m.prev me) else m.state
    prev := update m.prev me 0 }

inductive EvFlagsOp where
  | deinit
  | set (flags : UintFast32) (value : Bool)

def EvFlagsOp.run : EvFlagsOp → EvfKern T E × EvFlagsMem T → EvfKern T E × EvFlagsMem T
  | .deinit => fxEvFlagsDeinit
  | .set flags value => fxEvFlagsSet flags value

/-- The parameter check of an operation. -/
def EvFlagsOp.accepted (valid : Bool) : EvFlagsOp → Bool
  | .deinit => valid
  | .set flags _ => valid && flags != 0

def fxEvFlags (checks : Bool) :
    WaitObject T E Unit EvFlagsAttr (EvFlagsMem T) (EvFlagsCall E) EvFlagsOp where
  start _ o _ c :=
    if checks ∧ (o.valid = false ∨ c.reqFlags = 0 ∨ c.option &&& ~~~ 3 ≠ 0) then none else some c
  waitable _ := .obj ()
  attr c := some ⟨c.option, c.reqFlags⟩
  args c := c.args
  testWait me _ := fxEvfTestAndWait me
  after me _ r s := (none, s.1, fxEvFlagsWaitEnd me r s.2)
  caller _ := none
  op p s := some (if checks ∧ p.accepted s.2.valid = false then s else p.run s)

/-! ## 2. Notifying several blocks -/

section Mehrere

variable {Q A : Type} [DecidableEq Q] {k : Kern T E Q A} {l : List (Blk T)} {b : Blk T}

def Kern.unlinkEach (k : Kern T E Q A) (l : List (Blk T)) : Kern T E Q A :=
  l.foldl (fun k b => k.unlink b) k

theorem unlinkEach_wb (k : Kern T E Q A) (l : List (Blk T)) : (k.unlinkEach l).wb = k.wb := by
  induction l generalizing k with
  | nil => rfl
  | cons b l ih => exact ih _

theorem unlinkEach_sched (k : Kern T E Q A) (l : List (Blk T)) :
    (k.unlinkEach l).sched = k.sched := by
  induction l generalizing k with
  | nil => rfl
  | cons b l ih => exact ih _

/-- The order in which blocks are taken out does not matter. -/
theorem unlinkEach_reverse (k : Kern T E Q A) (l : List (Blk T)) :
    k.unlinkEach l.reverse = k.unlinkEach l := by
  refine (List.reverse_perm l).foldl_eq' (fun b _ c _ k => ?_) k
  have : (fun w => ((k.wq w).erase b).erase c) = fun w => ((k.wq w).erase c).erase b :=
    funext fun w => List.erase_comm ..
  show { k with wq := fun w => ((k.wq w).erase b).erase c } = _
  rw [this]
  rfl

theorem unlink_of_not_mem (h : ∀ w, b ∉ k.wq w) : k.unlink b = k := by
  have : (fun w => (k.wq w).erase b) = k.wq := funext fun w => List.erase_of_not_mem (h w)
  show { k with wq := fun w => (k.wq w).erase b } = k
  rw [this]

/-- Taking blocks out and notifying another one commute. -/
theorem unlinkEach_notifyOne (k : Kern T E Q A) (r : WaitStatus) (b : Blk T) (l : List (Blk T)) :
    (fxSyncWaitNotifyOne k r b).unlinkEach l = fxSyncWaitNotifyOne (k.unlinkEach l) r b := by
  induction l generalizing k with
  | nil => rfl
  | cons c l ih => exact ih (k.unlink c)

theorem unlinkEach_sublist (k : Kern T E Q A) (l : List (Blk T)) (w : Wtbl T E Q) :
    ((k.unlinkEach l).wq w).Sublist (k.wq w) := by
  induction l generalizing k with
  | nil => exact List.Sublist.refl _
  | cons b l ih => exact (ih (k.unlink b)).trans List.erase_sublist

/-- Taking blocks out of a queue first and notifying them afterwards comes to the same as
    notifying them one by one. -/
theorem notifyEach_unlinkEach (ht : ∀ b ∈ l, Tied k b) (hl : l.Nodup) :
    notifyEach (k.unlinkEach l) l = notifyEach k l := by
  induction l generalizing k with
  | nil => rfl
  | cons b l ih =>
    obtain ⟨hbl, hl⟩ := List.nodup_cons.mp hl
    have hout : ∀ w, b ∉ ((k.unlink b).unlinkEach l).wq w := fun w hm =>
      (ht b List.mem_cons_self).not_mem_erase ((unlinkEach_sublist _ l w).subset hm)
    have e : fxSyncWaitNotify ((k.unlink b).unlinkEach l) .satisfied b =
        (fxSyncWaitNotify k .satisfied b).unlinkEach l := by
      show fxSyncWaitNotifyOne (((k.unlink b).unlinkEach l).unlink b) _ b = _
      rw [unlink_of_not_mem hout, ← unlinkEach_notifyOne]
      rfl
    show notifyEach (fxSyncWaitNotify ((k.unlink b).unlinkEach l) .satisfied b) l =
      notifyEach (fxSyncWaitNotify k .satisfied b) l
    rw [e]
    have hne : ∀ c ∈ l, c ≠ b := fun c hc e => hbl (e ▸ hc)
    exact ih (fun c hc => (ht c (List.mem_cons_of_mem _ hc)).notify_ne (hne c hc) _) hl

/-- Notifying queued blocks one by one is a move, and afterwards none of them is queued. -/
theorem notifyEach_moves {ws : Wtbl T E Q → Prop} {w : Wtbl T E Q} (hw : ws w)
    (ht : ∀ b ∈ l, Tied k b) (hl : l.Nodup) (hq : ∀ b ∈ l, b ∈ k.wq w) :
    Moves ws NoOne k (notifyEach k l) ∧ ∀ c ∈ (notifyEach k l).wq w, c ∈ k.wq w ∧ c ∉ l := by
  induction l generalizing k with
  | nil => exact ⟨.refl, fun c hc => ⟨hc, List.not_mem_nil⟩⟩
  | cons b l ih =>
    obtain ⟨hbl, hl⟩ := List.nodup_cons.mp hl
    have hne : ∀ c ∈ l, c ≠ b := fun c hc e => hbl (e ▸ hc)
    obtain ⟨hm, hrest⟩ := ih (k := fxSyncWaitNotify k .satisfied b)
      (fun c hc => (ht c (List.mem_cons_of_mem _ hc)).notify_ne (hne c hc) _) hl
      fun c hc => (List.mem_erase_of_ne (hne c hc)).mpr (hq c (List.mem_cons_of_mem _ hc))
    have h1 : Moves ws NoOne k (fxSyncWaitNotify k .satisfied b) :=
      Moves.refl.notify (hq b List.mem_cons_self) hw not_false (Or.inl rfl)
    refine ⟨h1.trans hm, fun c hc => ?_⟩
    obtain ⟨hc1, hc2⟩ := hrest c hc
    have hcb : c ≠ b := fun e =>
      (ht b List.mem_cons_self).not_mem_erase (e ▸ hc1)
    exact ⟨List.mem_of_mem_erase hc1, fun hmem => (List.mem_cons.mp hmem).elim hcb hc2⟩

end Mehrere

/-! ## 3. No satisfied waiter stays queued -/

section Merker

variable {k : EvfKern T E} {f : UintFast32} {b : Blk T} {s : EvfKern T E × EvFlagsMem T}
  {ph : T → Phase T E Unit}

theorem scanOne_spec (flags : UintFast32) (s : EvfScan T E) (wb : Blk T) :
    (fxEvFlagsScanOne flags s wb).kern =
      s.kern.unlinkEach ([wb].filter fun b => s.kern.satisfiedAt flags b) ∧
    (fxEvFlagsScanOne flags s wb).temp =
      ([wb].filter fun b => s.kern.satisfiedAt flags b).reverse ++ s.temp := by
  have hp : s.kern.satisfiedAt flags wb = match (s.kern.wb wb).u.getAttr with
    | some attr => attr.satisfied flags
    | none => false := rfl
  unfold fxEvFlagsScanOne
  cases ha : (s.kern.wb wb).u.getAttr with
  | none =>
    rw [ha] at hp
    simp [hp, Kern.unlinkEach]
  | some attr =>
    rw [ha] at hp
    cases hs : attr.satisfied flags with
    | true => simp [hp, hs, Kern.unlinkEach]
    | false => simp [hp, hs, Kern.unlinkEach]

/-- **What the loop collects**: the satisfied waiters, the last one in front. -/
theorem fxEvFlagsScan_spec (flags : UintFast32) (s : EvfKern T E × EvFlagsMem T) :
    (fxEvFlagsScan flags s).temp =
      ((s.1.wq (.obj ())).filter fun b => s.1.satisfiedAt flags b).reverse ∧
    (fxEvFlagsScan flags s).kern = s.1.unlinkEach (fxEvFlagsScan flags s).temp := by
  have hloop : ∀ (l : List (Blk T)) (sc : EvfScan T E),
      (l.foldl (fxEvFlagsScanOne flags) sc).temp =
        (l.filter fun b => sc.kern.satisfiedAt flags b).reverse ++ sc.temp ∧
      (l.foldl (fxEvFlagsScanOne flags) sc).kern =
        sc.kern.unlinkEach (l.filter fun b => sc.kern.satisfiedAt flags b) := by
    intro l
    induction l with
    | nil => exact fun sc => ⟨rfl, rfl⟩
    | cons b l ih =>
      intro sc
      obtain ⟨hk, ht⟩ := scanOne_spec flags sc b
      obtain ⟨h1, h2⟩ := ih (fxEvFlagsScanOne flags sc b)
      have hsat : (fxEvFlagsScanOne flags sc b).kern.satisfiedAt flags =
          sc.kern.satisfiedAt flags := by
        funext c
        unfold Kern.satisfiedAt
        rw [hk, unlinkEach_wb]
      have e : (b :: l).filter (fun b => sc.kern.satisfiedAt flags b) =
          [b].filter (fun b => sc.kern.satisfiedAt flags b) ++
            l.filter fun b => sc.kern.satisfiedAt flags b := List.filter_append [b] l
      rw [List.foldl_cons, h1, h2, hsat, ht, hk, e, List.reverse_append, List.append_assoc]
      exact ⟨rfl, (List.foldl_append ..).symm⟩
  obtain ⟨h1, h2⟩ := hloop (s.1.wq (.obj ())) ⟨s.1, s.2.prev, 0, []⟩
  have ht : (fxEvFlagsScan flags s).temp =
      ((s.1.wq (.obj ())).filter fun b => s.1.satisfiedAt flags b).reverse := by
    rw [← List.append_nil (List.reverse _)]
    exact h1
  exact ⟨ht, by rw [ht, unlinkEach_reverse]; exact h2⟩

theorem tied_nodup {w : Wtbl T E Unit} (ht : ∀ b ∈ k.wq w, Tied k b) : (k.wq w).Nodup := by
  refine List.nodup_iff_count_le_one.mpr fun b => ?_
  by_cases hb : b ∈ k.wq w
  · rw [ht b hb w]
    split <;> omega
  · rw [List.count_eq_zero_of_not_mem hb]
    omega

/-- **What a set does to the kernel**: it notifies the satisfied waiters, the last one first. -/
theorem fxEvFlagsSet_kern (ht : ∀ b ∈ s.1.wq (.obj ()), Tied s.1 b) (flags : UintFast32) :
    (fxEvFlagsSet flags true s).1 = notifyEach s.1
      ((s.1.wq (.obj ())).filter fun b => s.1.satisfiedAt (s.2.flags ||| flags) b).reverse := by
  obtain ⟨htemp, hk⟩ := fxEvFlagsScan_spec (s.2.flags ||| flags) s
  show notifyEach (fxEvFlagsScan (s.2.flags ||| flags) s).kern _ = _
  rw [hk, htemp]
  refine notifyEach_unlinkEach (fun b hb => ?_) (List.nodup_reverse.mpr ((tied_nodup ht).filter _))
  exact ht b (List.mem_of_mem_filter (List.mem_reverse.mp hb))

/-- Setting flags is a move, and who is queued afterwards was not satisfied. -/
theorem fxEvFlagsSet_moves (h : KernOk s.1 ph) (flags : UintFast32) :
    Moves IsObj NoOne s.1 (fxEvFlagsSet flags true s).1 ∧
      ∀ b ∈ (fxEvFlagsSet flags true s).1.wq (.obj ()),
        s.1.satisfiedAt (s.2.flags ||| flags) b = false := by
  have hnd : (s.1.wq (.obj ())).Nodup := tied_nodup fun b _ => h.tied b
  rw [fxEvFlagsSet_kern (fun b _ => h.tied b) flags]
  have hmoves : Moves IsObj NoOne s.1 (notifyEach s.1 _) ∧ ∀ c ∈ _, c ∈ s.1.wq (.obj ()) ∧ _ :=
    notifyEach_moves (w := .obj ()) trivial (fun b _ => h.tied b)
      (List.nodup_reverse.mpr (hnd.filter fun b => s.1.satisfiedAt (s.2.flags ||| flags) b))
      fun b hb => List.mem_of_mem_filter (List.mem_reverse.mp hb)
  obtain ⟨hm, hrest⟩ := hmoves
  refine ⟨hm, fun b hb => ?_⟩
  obtain ⟨hb1, hb2⟩ := hrest b hb
  rw [List.mem_reverse, List.mem_filter] at hb2
  exact Bool.eq_false_iff.mpr fun hs => hb2 ⟨hb1, hs⟩

theorem EvFlagsOp.run_moves (h : KernOk s.1 ph) (p : EvFlagsOp) :
    Moves IsObj NoOne s.1 (p.run s).1 := by
  cases p with
  | deinit => exact Moves.notifyAll (w := .obj ()) trivial (Or.inr rfl) _
  | set flags value =>
    cases value with
    | true => exact (fxEvFlagsSet_moves h flags).1
    | false => exact .refl

/-- The test, by whether the caller's condition is satisfied. -/
theorem fxEvfTestAndWait_spec (me : T) (wait : Bool) (s : EvfKern T E × EvFlagsMem T) :
    (fxEvfTestAndWait me wait s).1 = s.1.satisfiedAt s.2.flags (me, .main) ∧
    (s.1.satisfiedAt s.2.flags (me, .main) = true → (fxEvfTestAndWait me wait s).2.1 = s.1 ∧
      ∃ g, (fxEvfTestAndWait me wait s).2.2.flags = s.2.flags &&& g) ∧
    (s.1.satisfiedAt s.2.flags (me, .main) = false → (fxEvfTestAndWait me wait s).2 =
      (if wait then fxSyncWaitStart s.1 (.obj ()) (me, .main) else s.1, s.2)) := by
  unfold fxEvfTestAndWait Kern.satisfiedAt
  cases ha : (s.1.wb (me, .main)).u.getAttr with
  | none => exact ⟨rfl, nofun, fun _ => rfl⟩
  | some attr =>
    cases hs : attr.satisfied s.2.flags with
    | false => simp [hs]
    | true =>
      refine ⟨by simp [hs], fun _ => ⟨by simp [hs], ?_⟩, by simp [hs]⟩
      cases hc : attr.clears with
      | true => exact ⟨~~~ attr.flags, by simp [hs, hc]⟩
      | false => exact ⟨s.2.flags, by simp [hs, hc]⟩

theorem fxEvFlags_lawful (checks : Bool) :
    (fxEvFlags checks : WaitObject T E _ _ _ _ _).Lawful where
  testTrue me c wait s s' _ h := by
    obtain ⟨h1, h2, _⟩ := fxEvfTestAndWait_spec me wait s
    rw [show fxEvfTestAndWait me wait s = (true, s') from h] at h1 h2
    rw [← (h2 h1.symm).1]
    exact .refl
  testPoll me c s s' _ h := by
    obtain ⟨h1, _, h3⟩ := fxEvfTestAndWait_spec me false s
    rw [show fxEvfTestAndWait me false s = (false, s') from h] at h1 h3
    rw [show s' = _ from h3 h1.symm]
    exact .refl
  testWait me c s s' _ h := by
    obtain ⟨h1, _, h3⟩ := fxEvfTestAndWait_spec me true s
    rw [show fxEvfTestAndWait me true s = (false, s') from h] at h1 h3
    rw [show s' = _ from h3 h1.symm]
    exact ⟨nofun, .refl⟩
  after _ _ _ _ := .refl
  op p s s' ph hk h := by
    cases h
    split
    · exact .refl
    · exact p.run_moves hk

/-- The conditions are monotone in the flags. -/
theorem satisfied_mono {a : EvFlagsAttr} {g : UintFast32} (h : a.satisfied (f &&& g) = true) :
    a.satisfied f = true := by
  unfold EvFlagsAttr.satisfied at h ⊢
  split
  · rename_i hall
    rw [if_pos hall] at h
    have e : a.flags &&& f = a.flags := by
      have h' : a.flags &&& (f &&& g) = a.flags := beq_iff_eq.mp h
      calc a.flags &&& f = (a.flags &&& (f &&& g)) &&& f := by rw [h']
        _ = a.flags &&& (f &&& g) := by
          rw [BitVec.and_assoc, BitVec.and_comm (f &&& g) f, ← BitVec.and_assoc f f,
            BitVec.and_self]
        _ = a.flags := h'
    exact beq_iff_eq.mpr e
  · rename_i hany
    rw [if_neg hany] at h
    refine bne_iff_ne.mpr fun e => bne_iff_ne.mp h ?_
    rw [← BitVec.and_assoc, e]
    exact BitVec.zero_and

theorem satisfied_mono_not {a : EvFlagsAttr} {g : UintFast32} (h : a.satisfied f = false) :
    a.satisfied (f &&& g) = false := Bool.eq_false_iff.mpr fun hs => by
  rw [satisfied_mono hs] at h
  cases h

/-- Every waiter queued has a condition, and the flags do not satisfy it. -/
def EvFlagsWait (s : EvfKern T E × EvFlagsMem T) : Prop :=
  ∀ b ∈ s.1.wq (.obj ()), ∃ attr, (s.1.wb b).u.getAttr = some attr ∧
    attr.satisfied s.2.flags = false

theorem EvFlagsWait.frame {k' : EvfKern T E} {o : EvFlagsMem T} (hf : Frame k k')
    (h : EvFlagsWait (k, o)) : EvFlagsWait (k', o) := fun b hb => by
  rw [hf.wb () b hb]
  exact h b ((hf.sub ()).subset hb)

/-- Queueing a waiter that is not satisfied. -/
theorem EvFlagsWait.waitStart {o : EvFlagsMem T} {me : T} {attr : EvFlagsAttr}
    (h : EvFlagsWait (k, o)) (ha : (k.wb (me, .main)).u.getAttr = some attr)
    (hs : attr.satisfied o.flags = false) :
    EvFlagsWait (fxSyncWaitStart k (.obj ()) (me, .main), o) := fun b hb => by
  have hu : ((fxSyncWaitStart k (.obj ()) (me, .main)).wb b).u = (k.wb b).u := by
    show (update k.wb _ _ b).u = _
    by_cases hbm : b = (me, .main)
    · rw [hbm, Function.update_self]
    · rw [Function.update_of_ne hbm]
  rw [hu]
  rw [waitStart_wq] at hb
  rcases List.mem_append.mp hb with hb | hb
  · exact h b hb
  · rw [List.mem_singleton.mp hb]
    exact ⟨attr, ha, hs⟩

theorem fxEvfTestAndWait_wait {me : T} {attr : EvFlagsAttr} (wait : Bool)
    (ha : (s.1.wb (me, .main)).u.getAttr = some attr) (h : EvFlagsWait s) :
    EvFlagsWait (fxEvfTestAndWait me wait s).2 := by
  obtain ⟨_, h2, h3⟩ := fxEvfTestAndWait_spec me wait s
  have hat : s.1.satisfiedAt s.2.flags (me, .main) = attr.satisfied s.2.flags := by
    unfold Kern.satisfiedAt
    rw [ha]
  cases hs : s.1.satisfiedAt s.2.flags (me, .main) with
  | true =>
    obtain ⟨hk, g, hg⟩ := h2 hs
    intro b hb
    rw [hk] at hb ⊢
    rw [hg]
    obtain ⟨attr', ha', hs'⟩ := h b hb
    exact ⟨attr', ha', satisfied_mono_not hs'⟩
  | false =>
    rw [h3 hs]
    cases wait with
    | true => exact h.waitStart ha (hat.symm.trans hs)
    | false => exact h

theorem EvFlagsOp.run_wait (hk : KernOk s.1 ph) (he : ∀ t, ph t ≠ .entering) (p : EvFlagsOp)
    (h : EvFlagsWait s) : EvFlagsWait (p.run s) := by
  cases p with
  | deinit =>
    intro b hb
    have : (fxEvFlagsDeinit s).1.wq (.obj ()) = [] := notifyAll_nil ..
    rw [show (EvFlagsOp.deinit.run s).1 = (fxEvFlagsDeinit s).1 from rfl, this] at hb
    cases hb
  | set flags value =>
    cases value with
    | true =>
      obtain ⟨hm, hrest⟩ := fxEvFlagsSet_moves hk flags
      have hf := Frame.moves hk hm fun t ht => absurd ht (he t)
      intro b hb
      obtain ⟨attr, ha, _⟩ := h b ((hf.sub ()).subset hb)
      have hs := hrest b hb
      unfold Kern.satisfiedAt at hs
      rw [ha] at hs
      exact ⟨attr, by rw [← ha]; exact congrArg (·.u.getAttr) (hf.wb () b hb),
        satisfied_mono_not hs⟩
    | false =>
      intro b hb
      obtain ⟨attr, ha, hs⟩ := h b hb
      exact ⟨attr, ha, satisfied_mono_not hs⟩

theorem fxEvFlags_inv (checks : Bool) :
    ObjInv (fxEvFlags checks : WaitObject T E _ _ _ _ _) EvFlagsWait where
  frame _ _ _ hf h := h.frame hf
  test me c wait s _ _ ha h :=
    fxEvfTestAndWait_wait wait (by rw [ha]; rfl) h
  after _ _ _ _ _ _ _ h := h
  op p s s' ph hk he h e := by
    cases e
    split
    · exact h
    · exact p.run_wait hk he h

end Merker

end FxRtos
