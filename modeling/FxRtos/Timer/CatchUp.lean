/-
  File:      FxRtos/Timer/CatchUp.lean
  Subject:   THE TICK HANDLER AFTER A JUMP of the counter (`fx_timer_set_tick_count`): everything
             that became due is served in one run, periodic timers once for each period missed.

  * `logged` -- a callback with a record of its calls, and of the deadlines they were made for.
  * `Catching` -- the window moves: what is in the list lies less than half the range after the
    last deadline served, and after the count.
  * `tick_catch_up` -- the handler ends, calls back in the order of the deadlines, each timer as
    often as it was due, and leaves nothing due behind.
-/
import FxRtos.Timer.Alarms

namespace FxRtos

open Function (update)
open Lib

set_option linter.unusedSectionVars false

variable {I γ : Type} [DecidableEq I]

/-! ## 1. The record -/

/-- The deadline that a timer is called back for: a periodic one waits for the next already. -/
def FxTimer.served (t : FxTimer) : BitVec 32 := t.timeout - t.period

def logged (callback : I → TimerContext I × γ → TimerContext I × γ) (x : I)
    (s : TimerContext I × (γ × List (I × BitVec 32))) :
    TimerContext I × (γ × List (I × BitVec 32)) :=
  ((callback x (s.1, s.2.1)).1,
    ((callback x (s.1, s.2.1)).2, s.2.2 ++ [(x, (s.1.timer x).served)]))

/-- How often a timer is called back up to the count `n`: a one-shot timer once, a periodic one
    for each period that its deadline `d` lies behind, and once more. -/
def calls (n d p : Nat) : Nat :=
  if d ≤ n then (if p = 0 then 1 else (n - d) / p + 1) else 0

theorem calls_periodic {n d p : Nat} (hd : d ≤ n) (hp : p ≠ 0) :
    calls n d p = calls n (d + p) p + 1 := by
  unfold calls
  rw [if_pos hd, if_neg hp]
  by_cases hnext : d + p ≤ n
  · rw [if_pos hnext, if_neg hp, show n - d = (n - (d + p)) + p by omega,
      Nat.add_div_right _ (Nat.pos_of_ne_zero hp)]
  · rw [if_neg hnext, Nat.div_eq_of_lt (by omega)]

/-! ## 2. The window -/

/-- Everything in the list lies between the last deadline served, `lo`, and less than half the
    range after it and after the count `n`, which is less than half the range after `lo` itself. -/
structure Catching (n lo : Nat) (c : TimerContext I) (key : I → Nat) : Prop
    extends Keyed c key where
  ticks : c.ticks = BitVec.ofNat 32 n
  short : ∀ x ∈ c.timers, (c.timer x).period.toNat < fxTimerMaxRelativeTimeout
  low : ∀ x ∈ c.timers, lo ≤ key x
  high : ∀ x ∈ c.timers, key x < lo + 0x7FFFFFFF ∧ key x < n + 0x7FFFFFFF
  near : n < lo + 0x7FFFFFFF

section Runden

variable {n lo : Nat} {c c' : TimerContext I} {key : I → Nat} {x y : I}

/-- The head is due in the code exactly if its deadline has come. -/
theorem Catching.due_iff (h : Catching n lo c key) (hx : x ∈ c.timers) :
    fxTimerTimeAfterOrEq c.ticks (c.timer x).timeout = true ↔ key x ≤ n := by
  have hlow := h.low x hx
  have hhigh := h.high x hx
  have hnear := h.near
  rw [h.ticks, h.timeout x hx]
  exact circLe_ofNat (by omega) (by omega)

/-- What a round does to the timer it serves. -/
def nextKey (c : TimerContext I) (key : I → Nat) (x : I) : I → Nat :=
  update key x (key x + (c.timer x).period.toNat)

/-- What one round leaves: the head was served, and is in the list again if it is periodic. -/
structure Round (n lo : Nat) (c c' : TimerContext I) (key : I → Nat) (x : I) : Prop where
  mem : x ∈ c.timers
  due : key x ≤ n
  low : lo ≤ key x
  least : ∀ y ∈ c.timers, key x ≤ key y
  next : Catching n (key x) c' (nextKey c key x)
  linked : ∀ y, y ∈ c'.timers ↔ y ∈ c.timers ∧ (y = x → (c.timer x).period ≠ 0)
  period : ∀ y, (c'.timer y).period = (c.timer y).period
  served : (c'.timer x).served = BitVec.ofNat 32 (key x)

/-- **One round.** -/
theorem Catching.take (h : Catching n lo c key) (ht : fxTickTake c = some (x, c')) :
    Round n lo c c' key x := by
  obtain ⟨rest, hl, hdue, hc⟩ := fxTickTake_some ht
  have hx : x ∈ c.timers := hl ▸ List.mem_cons_self
  have hnot : x ∉ rest := (List.nodup_cons.mp (hl ▸ h.nodup)).1
  have hne : ∀ y ∈ rest, y ≠ x := fun y hy e => hnot (e ▸ hy)
  have hd : key x ≤ n := (h.due_iff hx).mp hdue
  have hrest : ∀ y ∈ rest, y ∈ c.timers := fun y hy => hl ▸ List.mem_cons_of_mem x hy
  have hleast : ∀ y ∈ rest, key x ≤ key y :=
    (List.pairwise_cons.mp (hl ▸ h.sorted : (x :: rest).Pairwise _)).1
  have hmem : ∀ {y}, y ∈ c.timers ↔ y = x ∨ y ∈ rest := fun {y} => hl ▸ List.mem_cons
  have hlow := h.low x hx
  have hnear := h.near
  -- without the head
  have h0 : Keyed { c with timers := rest } key := by
    have herase := h.toKeyed.erase x
    rwa [hl, List.erase_cons_head] at herase
  have hwindow : ∀ y ∈ rest, key y < key x + 0x7FFFFFFF ∧ key y < n + 0x7FFFFFFF := by
    intro y hy
    have hhigh := h.high y (hrest y hy)
    omega
  have hall : ∀ y ∈ c.timers, key x ≤ key y := by
    intro y hy
    rcases hmem.mp hy with rfl | hy
    · exact Nat.le_refl _
    · exact hleast y hy
  by_cases hp : (c.timer x).period = 0
  · rw [if_neg (not_not.mpr hp)] at hc
    subst hc
    have hkey : nextKey c key x = key := by
      unfold nextKey
      rw [hp]
      exact Function.update_eq_self ..
    refine ⟨hx, hd, hlow, hall, ?_, fun y => ?_, fun _ => rfl, ?_⟩
    · rw [hkey]
      exact ⟨h0, h.ticks, fun y hy => h.short y (hrest y hy), hleast, hwindow, by omega⟩
    · rw [hmem]
      constructor
      · exact fun hy => ⟨Or.inr hy, fun e => absurd e (hne y hy)⟩
      · intro ⟨hy, hper⟩
        exact hy.resolve_left fun e => hper e hp
    · show (c.timer x).timeout - (c.timer x).period = _
      rw [hp, h.timeout x hx]
      exact BitVec.sub_zero _
  · rw [if_pos hp] at hc
    have hshort := h.short x hx
    have hpos : 0 < (c.timer x).period.toNat :=
      Nat.pos_of_ne_zero fun h0 => hp (BitVec.eq_of_toNat_eq h0)
    unfold fxTimerMaxRelativeTimeout at hshort
    have hto : (c.timer x).timeout + (c.timer x).period =
        BitVec.ofNat 32 (key x + (c.timer x).period.toNat) := by
      rw [h.timeout x hx, BitVec.ofNat_add, BitVec.ofNat_toNat, BitVec.setWidth_eq]
    have hins := h0.insert (t := ⟨(c.timer x).timeout + (c.timer x).period, (c.timer x).period⟩)
      hnot hto fun y hy => by
        have hle := hleast y hy
        have hhigh := hwindow y hy
        omega
    have htimer : c'.timer = update c.timer x
        ⟨(c.timer x).timeout + (c.timer x).period, (c.timer x).period⟩ := by rw [hc]; rfl
    have hperiod : ∀ y, (c'.timer y).period = (c.timer y).period := by
      intro y
      rw [htimer]
      by_cases hyx : y = x
      · rw [hyx, Function.update_self]
      · rw [Function.update_of_ne hyx]
    have hlinked : ∀ y, y ∈ c'.timers ↔ y ∈ c.timers := by
      intro y
      rw [hc, mem_fxTimerInsert, hmem]
    refine ⟨hx, hd, hlow, hall, ⟨?_, ?_, fun y hy => ?_, fun y hy => ?_, fun y hy => ?_, ?_⟩,
      fun y => ?_, hperiod, ?_⟩
    · rw [hc]
      exact hins
    · rw [hc]
      exact h.ticks
    · rw [hperiod]
      exact h.short y ((hlinked y).mp hy)
    · unfold nextKey
      by_cases hyx : y = x
      · rw [hyx, Function.update_self]
        exact Nat.le_add_right ..
      · rw [Function.update_of_ne hyx]
        exact hall y ((hlinked y).mp hy)
    · unfold nextKey
      by_cases hyx : y = x
      · rw [hyx, Function.update_self]
        omega
      · rw [Function.update_of_ne hyx]
        exact hwindow y ((hmem.mp ((hlinked y).mp hy)).resolve_left hyx)
    · omega
    · rw [hlinked]
      exact ⟨fun hy => ⟨hy, fun _ => hp⟩, fun h => h.1⟩
    · unfold FxTimer.served
      rw [htimer, Function.update_self, h.timeout x hx]
      exact BitVec.add_sub_cancel ..

/-- Where the loop ends, nothing is due. -/
theorem Catching.done (h : Catching n lo c key) (ht : fxTickTake c = none) :
    ∀ y ∈ c.timers, n < key y := by
  intro y hy
  cases hl : c.timers with
  | nil =>
    rw [hl] at hy
    cases hy
  | cons x rest =>
    have hx : x ∈ c.timers := hl ▸ List.mem_cons_self
    have hlt : n < key x := by
      refine Nat.lt_of_not_le fun hle => ?_
      unfold fxTickTake at ht
      rw [hl] at ht
      dsimp only at ht
      rw [if_pos ((h.due_iff hx).mpr hle)] at ht
      split at ht <;> cases ht
    have hsorted := h.sorted
    rw [hl] at hy hsorted
    rcases List.mem_cons.mp hy with rfl | hy
    · exact hlt
    · exact Nat.lt_of_lt_of_le hlt ((List.pairwise_cons.mp hsorted).1 y hy)

/-! ## 3. The loop -/

/-- What a run of the loop has served, and what it leaves in the list. -/
structure CaughtUp (n lo : Nat) (c c' : TimerContext I) (key : I → Nat)
    (served : List (I × Nat)) : Prop where
  rest : ∃ lo' key', Catching n lo' c' key' ∧ ∀ x ∈ c'.timers, n < key' x
  linked : ∀ x, x ∈ c'.timers ↔ x ∈ c.timers ∧ (key x ≤ n → (c.timer x).period ≠ 0)
  order : served.Pairwise fun a b => a.2 ≤ b.2
  range : ∀ a ∈ served, lo ≤ a.2 ∧ a.2 ≤ n
  count : ∀ x, (served.map Prod.fst).count x =
    if x ∈ c.timers then calls n (key x) (c.timer x).period.toNat else 0

theorem CaughtUp.nil (h : Catching n lo c key) (ht : fxTickTake c = none) :
    CaughtUp n lo c c key [] := by
  have hdone := h.done ht
  refine ⟨⟨lo, key, h, hdone⟩, fun x => ?_, List.Pairwise.nil, nofun, fun x => ?_⟩
  · exact ⟨fun hx => ⟨hx, fun hle => absurd hle (Nat.not_le.mpr (hdone x hx))⟩, fun h => h.1⟩
  · show 0 = _
    by_cases hx : x ∈ c.timers
    · unfold calls
      rw [if_pos hx, if_neg (Nat.not_le.mpr (hdone x hx))]
    · rw [if_neg hx]

/-- A round before the rest of the run. -/
theorem CaughtUp.cons {c1 : TimerContext I} {served : List (I × Nat)} (hr : Round n lo c c1 key x)
    (h : CaughtUp n (key x) c1 c' (nextKey c key x) served) :
    CaughtUp n lo c c' key ((x, key x) :: served) := by
  have hself : nextKey c key x x = key x + (c.timer x).period.toNat := Function.update_self ..
  have hother : ∀ {y}, y ≠ x → nextKey c key x y = key y :=
    fun hy => Function.update_of_ne hy ..
  refine ⟨h.rest, fun y => ?_, ?_, ?_, fun y => ?_⟩
  · rw [h.linked, hr.linked, hr.period]
    by_cases hyx : y = x
    · subst hyx
      constructor
      · exact fun hy => ⟨hy.1.1, fun _ => hy.1.2 rfl⟩
      · exact fun hy => ⟨⟨hy.1, fun _ => hy.2 hr.due⟩, fun _ => hy.2 hr.due⟩
    · rw [hother hyx]
      exact ⟨fun hy => ⟨hy.1.1, hy.2⟩, fun hy => ⟨⟨hy.1, fun e => absurd e hyx⟩, hy.2⟩⟩
  · exact List.pairwise_cons.mpr ⟨fun a ha => (h.range a ha).1, h.order⟩
  · intro a ha
    rcases List.mem_cons.mp ha with rfl | ha
    · exact ⟨hr.low, hr.due⟩
    · exact ⟨Nat.le_trans hr.low (h.range a ha).1, (h.range a ha).2⟩
  · rw [List.map_cons, List.count_cons, h.count y, hr.period]
    by_cases hyx : y = x
    · subst hyx
      rw [if_pos (beq_self_eq_true _), if_pos hr.mem, hself]
      by_cases hp : (c.timer y).period = 0
      · have hout : y ∉ c1.timers := fun hy => ((hr.linked y).mp hy).2 rfl hp
        unfold calls
        rw [if_neg hout, if_pos hr.due, hp]
        rfl
      · have hin : y ∈ c1.timers := (hr.linked y).mpr ⟨hr.mem, fun _ => hp⟩
        have hp' : (c.timer y).period.toNat ≠ 0 := fun h0 => hp (BitVec.eq_of_toNat_eq h0)
        rw [if_pos hin, calls_periodic hr.due hp']
    · have hmem : y ∈ c1.timers ↔ y ∈ c.timers := by
        rw [hr.linked]
        exact and_iff_left fun e => absurd e hyx
      rw [if_neg (fun e => hyx (beq_iff_eq.mp e).symm), hother hyx, if_congr hmem rfl rfl]
      rfl

/-- **The loop** ends, whatever is in the window. -/
theorem Catching.loop {callback : I → TimerContext I × γ → TimerContext I × γ}
    (hcb : ∀ x s, (callback x s).1 = s.1) (h : Catching n lo c key) (s : γ)
    (log : List (I × BitVec 32)) : ∃ fuel c' s' served,
      fxTickLoop (logged callback) fuel (c, (s, log)) =
        some (c', (s', log ++ served.map fun a => (a.1, BitVec.ofNat 32 a.2))) ∧
      CaughtUp n lo c c' key served := by
  induction hb : backlog c using Nat.strong_induction_on generalizing c key lo s log with
  | _ b ih =>
    cases ht : fxTickTake c with
    | none =>
      refine ⟨1, c, s, [], ?_, .nil h ht⟩
      unfold fxTickLoop
      rw [ht, List.map_nil, List.append_nil]
    | some xc =>
      obtain ⟨x, c1⟩ := xc
      have hr := h.take ht
      have hlt := (Serviceable.take ⟨h.nodup, h.short⟩ ht).2
      obtain ⟨fuel, c', s', served, hloop, hserved⟩ := ih (backlog c1) (hb ▸ hlt) hr.next
        (callback x (c1, s)).2 (log ++ [(x, BitVec.ofNat 32 (key x))]) rfl
      refine ⟨fuel + 1, c', s', (x, key x) :: served, ?_, .cons hr hserved⟩
      have hcall : logged callback x (c1, (s, log)) =
          (c1, ((callback x (c1, s)).2, log ++ [(x, BitVec.ofNat 32 (key x))])) := by
        unfold logged
        rw [hcb, hr.served]
      unfold fxTickLoop
      rw [ht]
      dsimp only
      rw [hcall, hloop, List.map_cons, List.append_assoc]
      rfl

/-! ## 4. The jump -/

/-- The number a timeout stands for that is not due at the count of the list. -/
def ahead (c : TimerContext I) (x : I) : Nat :=
  c.ticks.toNat + ((c.timer x).timeout - c.ticks).toNat

theorem ahead_bounds (h : fxTimerTimeAfterOrEq c.ticks (c.timer x).timeout = false) :
    c.ticks.toNat < ahead c x ∧ ahead c x < c.ticks.toNat + 0x80000000 := by
  have hpos : ¬ ((c.timer x).timeout - c.ticks).toInt ≤ 0 := of_decide_eq_false h
  rw [BitVec.toInt_eq_toNat_cond] at hpos
  have hlt := ((c.timer x).timeout - c.ticks).isLt
  unfold ahead
  split at hpos <;> omega

theorem ofNat_ahead : (c.timer x).timeout = BitVec.ofNat 32 (ahead c x) := by
  unfold ahead
  rw [BitVec.ofNat_add, BitVec.ofNat_toNat, BitVec.ofNat_toNat, BitVec.setWidth_eq,
    BitVec.setWidth_eq, BitVec.add_comm, BitVec.sub_add_cancel]

/-- Where two numbers are near, the comparison of their residues fails from the lesser on. -/
theorem not_after {u v : Nat} (hle : u ≤ v) (hnear : v < u + 0x80000000) :
    fxTimerTimeAfter (BitVec.ofNat 32 u) (BitVec.ofNat 32 v) = false := by
  refine Bool.eq_false_iff.mpr fun h => ?_
  have hlt := (circLt_ofNat (a := v) (b := u) (by omega) (by omega)).mp h
  omega

/-- The list at the start of the run, after the jump. -/
theorem Catching.start {newticks : BitVec 32} (hnodup : c.timers.Nodup)
    (hsorted : c.timers.Pairwise fun x y =>
      fxTimerTimeAfter (c.timer x).timeout (c.timer y).timeout = false)
    (hwait : ∀ x ∈ c.timers, fxTimerTimeAfterOrEq c.ticks (c.timer x).timeout = false)
    (hshort : ∀ x ∈ c.timers, (c.timer x).period.toNat < fxTimerMaxRelativeTimeout)
    (hjump : (newticks - c.ticks).toNat < 0x7FFFFFFF) :
    Catching (c.ticks.toNat + (newticks - c.ticks).toNat + 1) (c.ticks.toNat + 1)
      { c with ticks := newticks + 1 } (ahead c) := by
  refine ⟨⟨hnodup, ?_, fun x _ => ofNat_ahead (c := c)⟩, ?_, hshort, fun x hx => ?_,
    fun x hx => ?_, ?_⟩
  · refine hsorted.imp_of_mem fun {x y} hx hy h => ?_
    have hxb := ahead_bounds (hwait x hx)
    have hyb := ahead_bounds (hwait y hy)
    rw [ofNat_ahead, ofNat_ahead (x := y)] at h
    refine Nat.le_of_not_lt fun hlt => ?_
    have hafter := (circLt_ofNat (w := 32) (by omega) (by omega)).mpr hlt
    rw [show circLt _ _ = false from h] at hafter
    cases hafter
  · show newticks + 1 = _
    rw [BitVec.ofNat_add, BitVec.ofNat_add, BitVec.ofNat_toNat, BitVec.ofNat_toNat,
      BitVec.setWidth_eq, BitVec.setWidth_eq, BitVec.add_comm c.ticks, BitVec.sub_add_cancel]
    rfl
  · exact (ahead_bounds (hwait x hx)).1
  · have hb := ahead_bounds (hwait x hx)
    omega
  · omega

end Runden

/-- **The tick handler catches up** after a jump of less than half the range, whatever the list:
    it ends; it calls back in the order of the deadlines, each one-shot timer that is due once and
    each periodic one once for each whole period it is behind and once more, and no other; what it
    leaves are the periodic timers and those not due, sorted and none of them due. -/
theorem tick_catch_up {c : TimerContext I}
    {callback : I → TimerContext I × γ → TimerContext I × γ}
    (hcb : ∀ x s, (callback x s).1 = s.1) (hnodup : c.timers.Nodup)
    (hsorted : c.timers.Pairwise fun x y =>
      fxTimerTimeAfter (c.timer x).timeout (c.timer y).timeout = false)
    (hwait : ∀ x ∈ c.timers, fxTimerTimeAfterOrEq c.ticks (c.timer x).timeout = false)
    (hshort : ∀ x ∈ c.timers, (c.timer x).period.toNat < fxTimerMaxRelativeTimeout)
    {newticks : BitVec 32} (hjump : (newticks - c.ticks).toNat < 0x7FFFFFFF) (s : γ) :
    ∃ fuel c' s' log,
      fxTickHandler (logged callback) fuel ((fxTimerSetTickCount c newticks).2, (s, [])) =
        some (c', (s', log)) ∧
      c'.ticks = newticks + 1 ∧
      -- the calls
      log.Pairwise (fun a b => fxTimerTimeAfter a.2 b.2 = false) ∧
      (∀ x, (log.map Prod.fst).count x =
        if x ∈ c.timers ∧ fxTimerTimeAfterOrEq c'.ticks (c.timer x).timeout = true then
          if (c.timer x).period = 0 then 1
          else (c'.ticks - (c.timer x).timeout).toNat / (c.timer x).period.toNat + 1
        else 0) ∧
      -- the list
      (∀ x, x ∈ c'.timers ↔ x ∈ c.timers ∧
        (fxTimerTimeAfterOrEq c'.ticks (c.timer x).timeout = true → (c.timer x).period ≠ 0)) ∧
      c'.timers.Nodup ∧
      c'.timers.Pairwise (fun x y =>
        fxTimerTimeAfter (c'.timer x).timeout (c'.timer y).timeout = false) ∧
      ∀ x ∈ c'.timers, fxTimerTimeAfterOrEq c'.ticks (c'.timer x).timeout = false := by
  have hstart := Catching.start hnodup hsorted hwait hshort hjump
  obtain ⟨fuel, c', s', served, hloop, hserved⟩ := hstart.loop hcb s []
  obtain ⟨lo', key', hend, hdone⟩ := hserved.rest
  have hticks : c'.ticks = newticks + 1 := hend.ticks.trans hstart.ticks.symm
  have hdue : ∀ x ∈ c.timers, fxTimerTimeAfterOrEq c'.ticks (c.timer x).timeout = true ↔
      ahead c x ≤ c.ticks.toNat + (newticks - c.ticks).toNat + 1 := by
    intro x hx
    rw [hticks]
    exact hstart.due_iff hx
  refine ⟨fuel, c', s', _, hloop, hticks, ?_, fun x => ?_, fun x => ?_, hend.nodup, ?_,
    fun x hx => ?_⟩
  · rw [List.nil_append, List.pairwise_map]
    refine hserved.order.imp_of_mem fun {a b} ha hb hle => not_after hle ?_
    have har := hserved.range a ha
    have hbr := hserved.range b hb
    omega
  · rw [List.nil_append, List.map_map]
    show (served.map Prod.fst).count x = _
    rw [hserved.count]
    by_cases hx : x ∈ c.timers
    · by_cases hd : ahead c x ≤ c.ticks.toNat + (newticks - c.ticks).toNat + 1
      · rw [if_pos hx, if_pos ⟨hx, (hdue x hx).mpr hd⟩]
        unfold calls
        rw [if_pos hd]
        have hlag : (c'.ticks - (c.timer x).timeout).toNat =
            c.ticks.toNat + (newticks - c.ticks).toNat + 1 - ahead c x := by
          have hlow := hstart.low x hx
          rw [hend.ticks, ofNat_ahead, BitVec.toNat_sub, BitVec.toNat_ofNat, BitVec.toNat_ofNat]
          omega
        by_cases hp : (c.timer x).period = 0
        · rw [if_pos hp, hp]
          rfl
        · have hp' : (c.timer x).period.toNat ≠ 0 := fun h0 => hp (BitVec.eq_of_toNat_eq h0)
          rw [if_neg hp, if_neg hp', hlag]
      · rw [if_pos hx, if_neg fun h => hd ((hdue x hx).mp h.2)]
        exact if_neg hd
    · rw [if_neg hx, if_neg fun h => hx h.1]
  · rw [hserved.linked]
    refine and_congr_right fun hx => ?_
    rw [hdue x hx]
  · refine hend.sorted.imp_of_mem fun {x y} hx hy hle => ?_
    rw [hend.timeout x hx, hend.timeout y hy]
    have hlow := hend.low x hx
    have hhigh := hend.high y hy
    exact not_after hle (by omega)
  · refine Bool.eq_false_iff.mpr fun h => ?_
    have hle := (hend.due_iff hx).mp h
    have hlt := hdone x hx
    omega

/-- At the count 5 a jump to 20: the run is at 21, 13 ticks after the deadline of a timer with a
    period of 3. -/
theorem tick_catch_up_twenty :
    let c : TimerContext (Fin 3) := ⟨[1, 0, 2], 5#32, fun x =>
      if x = 0 then ⟨10#32, 0#32⟩ else if x = 1 then ⟨8#32, 3#32⟩ else ⟨0x70000000#32, 0#32⟩⟩
    ∃ fuel c' log, fxTickHandler (logged fun _ s => s) fuel
        ((fxTimerSetTickCount c 20#32).2, ((), [])) = some (c', ((), log)) ∧
      (log.map Prod.fst).count 0 = 1 ∧ (log.map Prod.fst).count 1 = 5 ∧
      (log.map Prod.fst).count 2 = 0 ∧ 0 ∉ c'.timers ∧ 1 ∈ c'.timers := by
  intro c
  let callback : Fin 3 → TimerContext (Fin 3) × Unit → TimerContext (Fin 3) × Unit := fun _ s => s
  have hcb : ∀ x s, (callback x s).1 = s.1 := fun _ _ => rfl
  have hjump : (20#32 - c.ticks).toNat < 0x7FFFFFFF := by decide
  obtain ⟨fuel, c', s', log, hrun, hticks, _, hcount, hlinked, _⟩ :=
    tick_catch_up hcb (by decide) (by decide) (by decide) (by decide) hjump ()
  rw [hticks] at hcount hlinked
  refine ⟨fuel, c', log, hrun, (hcount 0).trans ?_, (hcount 1).trans ?_, (hcount 2).trans ?_,
    fun h => absurd ((hlinked 0).mp h) ?_, (hlinked 1).mpr ?_⟩ <;> decide

end FxRtos
