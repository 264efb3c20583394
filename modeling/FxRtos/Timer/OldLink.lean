/-
  File:      FxRtos/Timer/OldLink.lean
  Subject:   TIMERS OVER OLD MEMORY (fx_timer_internal.c). `fx_timer_internal_init` sets the
             callback and nothing else: the linkage keeps what the memory held, and
             `rtl_list_is_node_linked` reads it.

  * `Link` -- the linkage of a node. A node that is in no list but looks linked is removed
    through its old pointers: the write goes to an address that is not known (`wild`).
  * `timer_alike_iff` -- what the memory held cannot be told exactly if it does not look linked.
-/
import FxRtos.Timer.TimerInternal
import FxRtos.Lib.TwoRuns

namespace FxRtos

open Function (update)
open Lib

set_option linter.unusedSectionVars false

/-! ## 1. The code -/

/-- `rtl_list_linkage_t`, `none` for NULL. -/
structure Link (P : Type) where
  next : Option P
  prev : Option P
  deriving DecidableEq

def Link.null {P : Type} : Link P := ⟨none, none⟩

/-- `rtl_list_is_node_linked`. -/
def Link.looksLinked {P : Type} (l : Link P) : Bool := l.next.isSome && l.prev.isSome

/-- The memory of a timer, without the callback and its argument, which the constructor sets. -/
structure TimerMemory (P : Type) where
  timer : FxTimer
  link : Link P

/-- What a call shows: its status, or the timer that was called back. -/
inductive TimerSeen (I : Type) where
  | status (s : TimerStatus)
  | called (item : Option I)

/-- `link` is the linkage of the timers that are not in the list. -/
structure TimerMachine (I P : Type) where
  ctx : TimerContext I
  link : I → Link P
  log : List (TimerSeen I)
  wild : Bool

inductive TimerCmd (I : Type) where
  | cancel (x : I)
  | setAbs (x : I) (delay period : BitVec 32)
  | setRel (x : I) (delay period : BitVec 32)
  | tick
  | handle

variable {I P : Type} [DecidableEq I]

/-- `fx_timer_internal_init` over the memory `m`. -/
def fxTimerInternalInit (s : TimerMachine I P) (x : I) (m : TimerMemory P) : TimerMachine I P :=
  { s with
    ctx := { s.ctx with timer := update s.ctx.timer x m.timer }
    link := update s.link x m.link }

/-- A node in no list that looks linked. -/
def TimerMachine.stale (s : TimerMachine I P) (x : I) : Bool :=
  !s.ctx.timers.contains x && (s.link x).looksLinked

/-- `rtl_list_remove` of such a node. -/
def TimerMachine.unlinkStale (s : TimerMachine I P) (x : I) : TimerMachine I P :=
  { s with link := update s.link x .null, wild := true }

def TimerMachine.note (s : TimerMachine I P) (e : TimerSeen I) : TimerMachine I P :=
  { s with log := e :: s.log }

def TimerMachine.cancel (s : TimerMachine I P) (x : I) : TimerMachine I P :=
  if s.stale x then (s.unlinkStale x).note (.status .ok)
  else
    let r := fxTimerInternalCancel s.ctx x
    { s with ctx := r.2 }.note (.status r.1)

def TimerMachine.setAbs (s : TimerMachine I P) (x : I) (delay period : BitVec 32) :
    TimerMachine I P :=
  let s1 := if s.stale x then s.unlinkStale x else s
  let r := fxTimerInternalSetAbs s1.ctx x delay period
  { s1 with ctx := r.2 }.note (.status r.1)

/-- One tick, and one round of the loop of the tick handler. Between two rounds the callback may
    do anything. -/
def oldTimerStep : TimerCmd I → TimerMachine I P → Option (TimerMachine I P)
  | .cancel x, s => some (s.cancel x)
  | .setAbs x delay period, s => some (s.setAbs x delay period)
  | .setRel x delay period, s => some (s.setAbs x (s.ctx.ticks + delay) period)
  | .tick, s => some { s with ctx := { s.ctx with ticks := s.ctx.ticks + 1 } }
  | .handle, s =>
    match fxTickTake s.ctx with
    | some (item, c) => some ({ s with ctx := c }.note (.called (some item)))
    | none => some (s.note (.called none))

/-! ## 2. Values of timers that are not in the list -/

/-- Two contexts that differ in the values of unlinked timers only. -/
structure SameList (c c' : TimerContext I) : Prop where
  timers : c'.timers = c.timers
  ticks : c'.ticks = c.ticks
  timer : ∀ y ∈ c.timers, c'.timer y = c.timer y

section Liste

variable {c c' : TimerContext I} {x : I} {v : FxTimer}

omit [DecidableEq I] in
theorem orderedInsert_congr {r r' : I → I → Prop} [DecidableRel r] [DecidableRel r'] {l : List I}
    (h : ∀ y ∈ l, r x y ↔ r' x y) : l.orderedInsert r x = l.orderedInsert r' x := by
  induction l with
  | nil => rfl
  | cons y l ih =>
    have hy := h y List.mem_cons_self
    have htail := ih fun z hz => h z (List.mem_cons_of_mem y hz)
    simp only [List.orderedInsert_cons, hy, htail]

theorem SameList.erase (h : SameList c c') (x : I) :
    SameList { c with timers := c.timers.erase x } { c' with timers := c'.timers.erase x } where
  timers := congrArg (·.erase x) h.timers
  ticks := h.ticks
  timer _ hy := h.timer _ (List.mem_of_mem_erase hy)

theorem SameList.cancel (h : SameList c c') (x : I) :
    (fxTimerInternalCancel c' x).1 = (fxTimerInternalCancel c x).1 ∧
      SameList (fxTimerInternalCancel c x).2 (fxTimerInternalCancel c' x).2 := by
  unfold fxTimerInternalCancel
  rw [h.timers]
  by_cases hx : x ∈ c.timers
  · rw [if_pos hx, if_pos hx]
    have he := h.erase x
    rw [h.timers] at he
    exact ⟨rfl, he⟩
  · rw [if_neg hx, if_neg hx]
    exact ⟨rfl, h⟩

/-- A timer given a value and put into the list. -/
theorem SameList.insert (h : SameList c c') (x : I) (v : FxTimer) :
    SameList (fxTimerInsert { c with timer := update c.timer x v } x)
      (fxTimerInsert { c' with timer := update c'.timer x v } x) := by
  have hval : ∀ y ∈ x :: c.timers, update c'.timer x v y = update c.timer x v y := by
    intro y hy
    by_cases hyx : y = x
    · rw [hyx, Function.update_self, Function.update_self]
    · rw [Function.update_of_ne hyx, Function.update_of_ne hyx]
      exact h.timer y ((List.mem_cons.mp hy).resolve_left hyx)
  refine ⟨?_, h.ticks, ?_⟩
  · show c'.timers.orderedInsert _ x = c.timers.orderedInsert _ x
    rw [h.timers]
    refine orderedInsert_congr fun y hy => ?_
    have hy' := hval y (List.mem_cons_of_mem x hy)
    have hx' := hval x List.mem_cons_self
    dsimp only
    rw [hy', hx']
  · intro y hy
    have hmem : y = x ∨ y ∈ c.timers := by simpa [fxTimerInsert] using hy
    exact hval y (List.mem_cons.mpr hmem)

theorem SameList.setAbs (h : SameList c c') (x : I) (delay period : BitVec 32) :
    SameList (fxTimerInternalSetAbs c x delay period).2
      (fxTimerInternalSetAbs c' x delay period).2 := by
  unfold fxTimerInternalSetAbs
  dsimp only
  rw [h.timers]
  by_cases hx : x ∈ c.timers
  · rw [if_pos hx, if_pos hx]
    have he := h.erase x
    rw [h.timers] at he
    exact he.insert x ⟨delay, period⟩
  · rw [if_neg hx, if_neg hx]
    exact h.insert x ⟨delay, period⟩

/-- One round of the tick handler. -/
theorem SameList.take (h : SameList c c') :
    (fxTickTake c = none ∧ fxTickTake c' = none) ∨
      ∃ item c1 c1', fxTickTake c = some (item, c1) ∧ fxTickTake c' = some (item, c1') ∧
        SameList c1 c1' := by
  unfold fxTickTake
  rw [h.timers, h.ticks]
  cases hl : c.timers with
  | nil => exact Or.inl ⟨rfl, rfl⟩
  | cons item rest =>
    have hrest : SameList { c with timers := rest } ⟨rest, c.ticks, c'.timer⟩ :=
      ⟨rfl, rfl, fun y hy => h.timer y (hl ▸ List.mem_cons_of_mem item hy)⟩
    dsimp only
    rw [h.timer item (hl ▸ List.mem_cons_self)]
    by_cases hdue : fxTimerTimeAfterOrEq c.ticks (c.timer item).timeout = true
    · rw [if_pos hdue, if_pos hdue]
      refine Or.inr ?_
      by_cases hper : (c.timer item).period ≠ 0
      · rw [if_pos hper, if_pos hper]
        exact ⟨item, _, _, rfl, rfl, hrest.insert item _⟩
      · rw [if_neg hper, if_neg hper]
        exact ⟨item, _, _, rfl, rfl, hrest⟩
    · rw [if_neg hdue, if_neg hdue]
      exact Or.inl ⟨rfl, rfl⟩

end Liste

/-! ## 3. Two runs -/

/-- Nothing looks linked that is not. -/
def TimerMachine.Clean (s : TimerMachine I P) : Prop :=
  (∀ y, (s.link y).looksLinked = false) ∧ s.wild = false

def TimerMachine.SameAs (s s' : TimerMachine I P) : Prop :=
  SameList s.ctx s'.ctx ∧ s'.log = s.log ∧ s.Clean ∧ s'.Clean

/-- **The claim for timers**: whatever the two memories held, the runs show the same, and none
    writes through an old pointer. The other timers are not stale. -/
def TimerAlike (m m' : TimerMemory P) : Prop :=
  ∀ (I : Type) [DecidableEq I] (s : TimerMachine I P) (x : I), x ∉ s.ctx.timers → s.wild = false →
    (∀ y, y ≠ x → (s.link y).looksLinked = false) →
    Alike oldTimerStep TimerMachine.log (fxTimerInternalInit s x m) (fxTimerInternalInit s x m') ∧
      Never oldTimerStep (·.wild = true) (fxTimerInternalInit s x m) ∧
      Never oldTimerStep (·.wild = true) (fxTimerInternalInit s x m')

section Lauf

variable {s s' : TimerMachine I P} {x : I}

theorem TimerMachine.Clean.not_stale (h : s.Clean) (x : I) : s.stale x = false := by
  unfold TimerMachine.stale
  rw [h.1 x, Bool.and_false]

theorem TimerMachine.Clean.cancel (h : s.Clean) (x : I) :
    s.cancel x = { s with ctx := (fxTimerInternalCancel s.ctx x).2 }.note
      (.status (fxTimerInternalCancel s.ctx x).1) := by
  unfold TimerMachine.cancel
  rw [h.not_stale x]
  rfl

theorem TimerMachine.Clean.setAbs (h : s.Clean) (x : I) (delay period : BitVec 32) :
    s.setAbs x delay period = { s with ctx := (fxTimerInternalSetAbs s.ctx x delay period).2 }.note
      (.status .ok) := by
  unfold TimerMachine.setAbs
  rw [h.not_stale x]
  rfl

/-- The same line in both logs. -/
theorem TimerMachine.SameAs.note {c c' : TimerContext I} (h : s.SameAs s') (hl : SameList c c')
    (e : TimerSeen I) :
    TimerMachine.SameAs ({ s with ctx := c }.note e) ({ s' with ctx := c' }.note e) :=
  ⟨hl, congrArg (e :: ·) h.2.1, h.2.2⟩

/-- One action, in two machines that differ in the values of unlinked timers. -/
theorem TimerMachine.SameAs.step (h : s.SameAs s') (a : TimerCmd I) :
    Option.Rel TimerMachine.SameAs (oldTimerStep a s) (oldTimerStep a s') := by
  have hsame := h
  obtain ⟨hl, hlog, hc, hc'⟩ := h
  cases a with
  | cancel x =>
    obtain ⟨hr, h2⟩ := hl.cancel x
    simp only [oldTimerStep]
    rw [hc.cancel, hc'.cancel, hr]
    exact .some (hsame.note h2 _)
  | setAbs x delay period =>
    simp only [oldTimerStep]
    rw [hc.setAbs, hc'.setAbs]
    exact .some (hsame.note (hl.setAbs x delay period) _)
  | setRel x delay period =>
    simp only [oldTimerStep]
    rw [hc.setAbs, hc'.setAbs, hl.ticks]
    exact .some (hsame.note (hl.setAbs x _ period) _)
  | tick => exact .some ⟨⟨hl.timers, congrArg (· + 1) hl.ticks, hl.timer⟩, hlog, hc, hc'⟩
  | handle =>
    simp only [oldTimerStep]
    obtain ⟨h1, h2⟩ | ⟨item, c1, c1', h1, h2, h3⟩ := hl.take
    · rw [h1, h2]
      exact .some (hsame.note hl _)
    · rw [h1, h2]
      exact .some (hsame.note h3 _)

theorem sameAs_bisimulation :
    Bisimulation (oldTimerStep : TimerCmd I → TimerMachine I P → _) TimerMachine.log
      TimerMachine.SameAs where
  seen _ _ h := h.2.1.symm
  step _ _ h a := h.step a

theorem TimerMachine.Clean.never (h : s.Clean) : Never oldTimerStep (·.wild = true) s := by
  refine Never.of_inv h (fun s a s1 hj hs => ?_) fun s hj hw => ?_
  · have hself : s.SameAs s := ⟨⟨rfl, rfl, fun _ _ => rfl⟩, rfl, hj, hj⟩
    have hr := hself.step a
    rw [hs] at hr
    cases hr with
    | some h1 => exact h1.2.2.1
  · rw [hj.2] at hw
    cases hw

end Lauf

/-- A timer whose memory does not look linked. -/
theorem fxTimerInternalInit_clean {s : TimerMachine I P} {x : I} {m : TimerMemory P}
    (hs : ∀ y, y ≠ x → (s.link y).looksLinked = false) (hw : s.wild = false)
    (hm : m.link.looksLinked = false) : (fxTimerInternalInit s x m).Clean := by
  refine ⟨fun y => ?_, hw⟩
  show (update s.link x m.link y).looksLinked = false
  by_cases hy : y = x
  · rw [hy, Function.update_self]
    exact hm
  · rw [Function.update_of_ne hy]
    exact hs y hy

/-- A timer whose memory looks linked is removed through its old pointers by the first call. -/
theorem looksLinked_wild {m : TimerMemory P} (h : TimerAlike m m) : m.link.looksLinked = false := by
  let s : TimerMachine Unit P := ⟨⟨[], 0, fun _ => ⟨0, 0⟩⟩, fun _ => .null, [], false⟩
  obtain ⟨-, hn, -⟩ := h Unit s () List.not_mem_nil rfl fun _ _ => rfl
  cases hm : m.link.looksLinked with
  | false => rfl
  | true =>
    have hstale : (fxTimerInternalInit s () m).stale () = true := hm
    have hrun : Reach oldTimerStep Always (fxTimerInternalInit s () m)
        ((fxTimerInternalInit s () m).cancel ()) := .next (.cancel ()) .start trivial rfl
    refine absurd ?_ (hn _ hrun)
    unfold TimerMachine.cancel
    rw [if_pos hstale]
    rfl

/-- **Two memories of a timer cannot be told apart** exactly if neither looks linked. -/
theorem timer_alike_iff (m m' : TimerMemory P) :
    TimerAlike m m' ↔ m.link.looksLinked = false ∧ m'.link.looksLinked = false := by
  constructor
  · intro h
    constructor
    · exact looksLinked_wild fun I _ s x h1 h2 h3 =>
        ⟨.refl _, (h I s x h1 h2 h3).2.1, (h I s x h1 h2 h3).2.1⟩
    · exact looksLinked_wild fun I _ s x h1 h2 h3 =>
        ⟨.refl _, (h I s x h1 h2 h3).2.2, (h I s x h1 h2 h3).2.2⟩
  · intro ⟨hm, hm'⟩ I _ s x hx hw hs
    have hc := fxTimerInternalInit_clean hs hw hm
    have hc' := fxTimerInternalInit_clean hs hw hm'
    refine ⟨sameAs_bisimulation.alike ⟨⟨rfl, rfl, fun y hy => ?_⟩, rfl, hc, hc'⟩, hc.never,
      hc'.never⟩
    have hne : y ≠ x := by
      intro h
      exact hx (h ▸ hy)
    show update s.ctx.timer x m'.timer y = update s.ctx.timer x m.timer y
    rw [Function.update_of_ne hne, Function.update_of_ne hne]

end FxRtos
