/-
  File:      FxRtos/Objects/EvFlagsSet.lean
  Subject:   WHOM A SET OF EVENT FLAGS RELEASES. A set first examines all waiters on the flags with
             its own added, and then takes away what the released ones consume; who times out
             in the meantime is released nevertheless.

  * `fxEvFlagsSet_effect` -- one set, for any queue of waiters.
  * `evfHeld` -- the flags on which the condition of a call holds in a step: those of its own
    test, or those of a set while its block is queued.
  * `ev_flags_set_semantics` -- a wait returns OK exactly if its condition held once, it is told
    the flags it held on, and nobody else consumes flags.
-/
import FxRtos.Kernel.Grants
import FxRtos.Objects.EvFlags

namespace FxRtos

open Function (update)
open Lib

set_option linter.unusedSectionVars false

variable {T E : Type} [DecidableEq T] [DecidableEq E]

/-! ## 1. What a set is for -/

/-- The flags that the waiter of a block consumes when it is released. -/
def Kern.clearsAt (k : EvfKern T E) (b : Blk T) : UintFast32 :=
  match (k.wb b).u.getAttr with
  | some attr => if attr.clears then attr.flags else 0
  | none => 0

def flagsUnion (l : List UintFast32) : UintFast32 := l.foldr (· ||| ·) 0

/-- Waiters as they queue: each is linked once, by its main block, and asks for some flags. -/
def EvfQueue (k : EvfKern T E) : Prop :=
  ∀ b ∈ k.wq (.obj ()), b.2 = .main ∧ Tied k b ∧
    ∃ attr, (k.wb b).u.getAttr = some attr ∧ attr.flags ≠ 0

/-- The thread is queued, and its condition holds on the flags. -/
def Kern.Releases (k : EvfKern T E) (flags : UintFast32) (t : T) : Prop :=
  (t, .main) ∈ k.wq (.obj ()) ∧ k.satisfiedAt flags (t, .main) = true

/-- What a set does where `v` are the flags with those of the set added. -/
structure SetEffect (v : UintFast32) (s s' : EvfKern T E × EvFlagsMem T) : Prop where
  queue : s'.1.wq (.obj ()) = (s.1.wq (.obj ())).filter fun b => !s.1.satisfiedAt v b
  released : ∀ t, s.1.Releases v t →
    s'.1.wb (t, .main) = ⟨none, .status .satisfied⟩ ∧ s'.1.state t = .ready ∧
    s'.2.prev t = v ∧ ∀ r, (fxEvFlagsWaitEnd t r s'.2).error t = .ok ∧
      (fxEvFlagsWaitEnd t r s'.2).state t = v
  kept : ∀ t, ¬ s.1.Releases v t → s'.1.wb (t, .main) = s.1.wb (t, .main) ∧
    s'.1.state t = s.1.state t ∧ s'.2.prev t = s.2.prev t
  flags : s'.2.flags = v &&& ~~~ flagsUnion
    (((s.1.wq (.obj ())).filter fun b => s.1.satisfiedAt v b).map s.1.clearsAt)

theorem getLsbD_flagsUnion (l : List UintFast32) (i : Nat) :
    (flagsUnion l).getLsbD i = l.any fun f => f.getLsbD i := by
  induction l with
  | nil => exact BitVec.getLsbD_zero
  | cons f l ih =>
    show (f ||| flagsUnion l).getLsbD i = _
    rw [BitVec.getLsbD_or, ih, List.any_cons]

/-- A condition asks for flags that are there. -/
theorem satisfied_ne_zero {a : EvFlagsAttr} {v : UintFast32} (h0 : a.flags ≠ 0)
    (h : a.satisfied v = true) : v ≠ 0 := by
  rintro rfl
  unfold EvFlagsAttr.satisfied at h
  have hz : a.flags &&& (0 : UintFast32) = 0 := BitVec.and_zero
  rw [hz] at h
  split at h
  · exact h0 (beq_iff_eq.mp h).symm
  · exact absurd rfl (bne_iff_ne.mp h)

/-! ## 2. The loops -/

section Schleifen

variable {k : EvfKern T E} {v : UintFast32} {s : EvfKern T E × EvFlagsMem T}

theorem scanOne_told (v : UintFast32) (s : EvfScan T E) (b : Blk T) :
    (fxEvFlagsScanOne v s b).prev =
      (if s.kern.satisfiedAt v b then update s.prev b.1 v else s.prev) ∧
    (fxEvFlagsScanOne v s b).flagsToClear =
      s.flagsToClear ||| flagsUnion (([b].filter fun b => s.kern.satisfiedAt v b).map
        s.kern.clearsAt) ∧
    (fxEvFlagsScanOne v s b).kern.wb = s.kern.wb := by
  unfold fxEvFlagsScanOne Kern.satisfiedAt
  cases ha : (s.kern.wb b).u.getAttr with
  | none => simp [ha, flagsUnion]
  | some attr =>
    cases hs : attr.satisfied v with
    | false => simp [ha, hs, flagsUnion]
    | true =>
      cases hc : attr.clears with
      | true => simp [ha, hs, hc, flagsUnion, Kern.clearsAt, Kern.unlink]
      | false => simp [ha, hs, hc, flagsUnion, Kern.clearsAt, Kern.unlink]

theorem satisfiedAt_congr {k' : EvfKern T E} (h : k'.wb = k.wb) :
    k'.satisfiedAt = k.satisfiedAt ∧ k'.clearsAt = k.clearsAt := by
  unfold Kern.satisfiedAt Kern.clearsAt
  rw [h]
  exact ⟨rfl, rfl⟩

theorem flagsUnion_append (l l' : List UintFast32) :
    flagsUnion (l ++ l') = flagsUnion l ||| flagsUnion l' := by
  refine BitVec.eq_of_getLsbD_eq fun i _ => ?_
  rw [BitVec.getLsbD_or, getLsbD_flagsUnion, getLsbD_flagsUnion, getLsbD_flagsUnion,
    List.any_append]

/-- **What the loop notes down**: the flags for every satisfied waiter, and what they clear. -/
theorem fxEvFlagsScan_told (v : UintFast32) (s : EvfKern T E × EvFlagsMem T) :
    (∀ t, (fxEvFlagsScan v s).prev t =
      if ∃ b ∈ s.1.wq (.obj ()), s.1.satisfiedAt v b = true ∧ b.1 = t then v else s.2.prev t) ∧
    (fxEvFlagsScan v s).flagsToClear =
      flagsUnion (((s.1.wq (.obj ())).filter fun b => s.1.satisfiedAt v b).map s.1.clearsAt) := by
  have hloop : ∀ (l : List (Blk T)) (sc : EvfScan T E),
      (∀ t, (l.foldl (fxEvFlagsScanOne v) sc).prev t =
        if ∃ b ∈ l, sc.kern.satisfiedAt v b = true ∧ b.1 = t then v else sc.prev t) ∧
      (l.foldl (fxEvFlagsScanOne v) sc).flagsToClear = sc.flagsToClear |||
        flagsUnion ((l.filter fun b => sc.kern.satisfiedAt v b).map sc.kern.clearsAt) := by
    intro l
    induction l with
    | nil =>
      intro sc
      exact ⟨fun t => (if_neg (by simp)).symm, (BitVec.or_zero ..).symm⟩
    | cons b l ih =>
      intro sc
      obtain ⟨hprev, hclear, hwb⟩ := scanOne_told v sc b
      obtain ⟨hsat, hcl⟩ := satisfiedAt_congr hwb
      obtain ⟨h1, h2⟩ := ih (fxEvFlagsScanOne v sc b)
      rw [hsat] at h1 h2
      rw [hcl] at h2
      refine ⟨fun t => ?_, ?_⟩
      · rw [List.foldl_cons, h1, hprev]
        by_cases hl : ∃ c ∈ l, sc.kern.satisfiedAt v c = true ∧ c.1 = t
        · obtain ⟨c, hc, hct⟩ := hl
          rw [if_pos ⟨c, hc, hct⟩, if_pos ⟨c, List.mem_cons_of_mem b hc, hct⟩]
        · rw [if_neg hl]
          by_cases hb : sc.kern.satisfiedAt v b = true ∧ b.1 = t
          · rw [if_pos hb.1, if_pos ⟨b, List.mem_cons_self, hb⟩, ← hb.2, Function.update_self]
          · have hno : ¬ ∃ c ∈ b :: l, sc.kern.satisfiedAt v c = true ∧ c.1 = t := by
              rintro ⟨c, hc, hct⟩
              rcases List.mem_cons.mp hc with rfl | hc
              · exact hb hct
              · exact hl ⟨c, hc, hct⟩
            rw [if_neg hno]
            split
            · rename_i hsb
              exact Function.update_of_ne (fun e => hb ⟨hsb, e.symm⟩) ..
            · rfl
      · have e : (b :: l).filter (fun b => sc.kern.satisfiedAt v b) =
            [b].filter (fun b => sc.kern.satisfiedAt v b) ++
              l.filter fun b => sc.kern.satisfiedAt v b := List.filter_append [b] l
        rw [List.foldl_cons, h2, hclear, e, List.map_append, flagsUnion_append,
          BitVec.or_assoc]
  obtain ⟨h1, h2⟩ := hloop (s.1.wq (.obj ())) ⟨s.1, s.2.prev, 0, []⟩
  exact ⟨h1, h2.trans (BitVec.zero_or ..)⟩

/-- Several blocks notified as satisfied. -/
theorem notifyEach_spec {Q A : Type} [DecidableEq Q] {k : Kern T E Q A} (l : List (Blk T)) :
    (∀ b, (notifyEach k l).wb b = if b ∈ l then ⟨none, .status .satisfied⟩ else k.wb b) ∧
    (∀ t, (notifyEach k l).state t = if ∃ b ∈ l, b.1 = t then .ready else k.state t) ∧
    ∀ w, (k.wq w).Nodup → (notifyEach k l).wq w = (k.wq w).filter (· ∉ l) := by
  induction l generalizing k with
  | nil =>
    refine ⟨fun b => rfl, fun t => (if_neg (by simp)).symm, fun w _ => ?_⟩
    exact (List.filter_eq_self.mpr fun b _ => by simp).symm
  | cons b l ih =>
    obtain ⟨hwb, hstate, hwq⟩ := ih (k := fxSyncWaitNotify k .satisfied b)
    refine ⟨fun c => ?_, fun t => ?_, fun w hnd => ?_⟩
    · show (notifyEach (fxSyncWaitNotify k .satisfied b) l).wb c = _
      rw [hwb, fxSyncWaitNotify_wb]
      by_cases hc : c ∈ l
      · rw [if_pos hc, if_pos (List.mem_cons_of_mem b hc)]
      · rw [if_neg hc]
        by_cases hcb : c = b
        · rw [hcb, Function.update_self, if_pos List.mem_cons_self]
        · rw [Function.update_of_ne hcb, if_neg fun hm => (List.mem_cons.mp hm).elim hcb hc]
    · show (notifyEach (fxSyncWaitNotify k .satisfied b) l).state t = _
      rw [hstate]
      by_cases hl : ∃ c ∈ l, c.1 = t
      · obtain ⟨c, hc, hct⟩ := hl
        rw [if_pos ⟨c, hc, hct⟩, if_pos ⟨c, List.mem_cons_of_mem b hc, hct⟩]
      · rw [if_neg hl]
        show update k.state b.1 .ready t = _
        by_cases hbt : b.1 = t
        · rw [hbt, Function.update_self, if_pos ⟨b, List.mem_cons_self, hbt⟩]
        · rw [Function.update_of_ne (Ne.symm hbt), if_neg]
          rintro ⟨c, hc, hct⟩
          rcases List.mem_cons.mp hc with rfl | hc
          · exact hbt hct
          · exact hl ⟨c, hc, hct⟩
    · show (notifyEach (fxSyncWaitNotify k .satisfied b) l).wq w = _
      have hnd' : ((fxSyncWaitNotify k .satisfied b).wq w).Nodup := by
        rw [fxSyncWaitNotify_wq]
        exact hnd.erase b
      rw [hwq w hnd', fxSyncWaitNotify_wq, hnd.erase_eq_filter, List.filter_filter]
      refine List.filter_congr fun c _ => ?_
      rw [Bool.eq_iff_iff]
      simp [List.mem_cons, not_or, and_comm]

/-- **One set of flags**, for any queue of waiters. -/
theorem fxEvFlagsSet_effect (h : EvfQueue s.1) (flags : UintFast32) :
    SetEffect (s.2.flags ||| flags) s (fxEvFlagsSet flags true s) := by
  have hnd : (s.1.wq (.obj ())).Nodup := tied_nodup fun b hb => (h b hb).2.1
  have hkern : (fxEvFlagsSet flags true s).1 = _ :=
    fxEvFlagsSet_kern (fun b hb => (h b hb).2.1) flags
  obtain ⟨hprev, hclear⟩ := fxEvFlagsScan_told (s.2.flags ||| flags) s
  generalize hv : s.2.flags ||| flags = v at *
  obtain ⟨hwb, hstate, hwq⟩ := notifyEach_spec (k := s.1)
    ((s.1.wq (.obj ())).filter fun b => s.1.satisfiedAt v b).reverse
  have hmem : ∀ b, b ∈ ((s.1.wq (.obj ())).filter fun b => s.1.satisfiedAt v b).reverse ↔
      b ∈ s.1.wq (.obj ()) ∧ s.1.satisfiedAt v b = true := fun b => by
    rw [List.mem_reverse, List.mem_filter]
  -- a thread is queued by its main block
  have hthread : ∀ t, (∃ b ∈ s.1.wq (.obj ()), s.1.satisfiedAt v b = true ∧ b.1 = t) ↔
      s.1.Releases v t := by
    intro t
    constructor
    · rintro ⟨⟨u, slot⟩, hb, hs, rfl⟩
      have hmain : slot = .main := (h _ hb).1
      subst hmain
      exact ⟨hb, hs⟩
    · rintro ⟨hb, hs⟩
      exact ⟨_, hb, hs, rfl⟩
  have hprev' : ∀ t, (fxEvFlagsSet flags true s).2.prev t =
      if ∃ b ∈ s.1.wq (.obj ()), s.1.satisfiedAt v b = true ∧ b.1 = t then v
      else s.2.prev t := fun t => by
    rw [← hprev t, ← hv]
    rfl
  have hready : ∀ t, (∃ b ∈ ((s.1.wq (.obj ())).filter fun b => s.1.satisfiedAt v b).reverse,
      b.1 = t) ↔ s.1.Releases v t := by
    intro t
    rw [← hthread t]
    simp only [hmem, and_assoc]
  refine ⟨?_, fun t ht => ?_, fun t ht => ?_, ?_⟩
  · rw [hkern, hwq _ hnd]
    refine List.filter_congr fun b hb => ?_
    simp only [hmem, hb, true_and]
    cases s.1.satisfiedAt v b <;> rfl
  · have hv0 : v ≠ 0 := by
      obtain ⟨_, _, attr, ha, h0⟩ := h _ ht.1
      have hs := ht.2
      unfold Kern.satisfiedAt at hs
      rw [ha] at hs
      exact satisfied_ne_zero h0 hs
    have hp : (fxEvFlagsSet flags true s).2.prev t = v :=
      (hprev' t).trans (if_pos ((hthread t).mpr ht))
    refine ⟨?_, ?_, hp, fun r => ?_⟩
    · rw [hkern, hwb, if_pos ((hmem _).mpr ht)]
    · rw [hkern, hstate, if_pos ((hready t).mpr ht)]
    · unfold fxEvFlagsWaitEnd
      rw [hp, if_pos hv0, if_pos hv0]
      exact ⟨Function.update_self .., Function.update_self ..⟩
  · refine ⟨?_, ?_, (hprev' t).trans (if_neg fun hx => ht ((hthread t).mp hx))⟩
    · rw [hkern, hwb, if_neg fun hx => ht ((hmem _).mp hx)]
    · rw [hkern, hstate, if_neg fun hx => ht ((hready t).mp hx)]
  · rw [← hclear, ← hv]
    rfl

end Schleifen

/-! ## 3. The books -/

abbrev EvfSys (T E : Type) := Sys T E Unit EvFlagsAttr (EvFlagsMem T) (EvFlagsCall E)

abbrev EvfAct (T E : Type) := Act T E (EvFlagsCall E) EvFlagsOp

def EvFlagsCall.request (c : EvFlagsCall E) : EvFlagsAttr := ⟨c.option, c.reqFlags⟩

/-- The flags, if the condition of the call holds on them. -/
def EvFlagsCall.holdsOn (c : EvFlagsCall E) (flags : UintFast32) : Option UintFast32 :=
  if c.request.satisfied flags then some flags else none

/-- The parameter checks let the operation pass. -/
def EvFlagsOp.passes (checks valid : Bool) (p : EvFlagsOp) : Bool := !checks || p.accepted valid

/-- The flags on which the condition of the call of `t` holds in a step: where it is tested at
    its entry, or by a set while its block is queued. -/
def evfHeld (checks : Bool) (a : EvfAct T E) (s : EvfSys T E) (t : T) : Option UintFast32 :=
  match a, s.pc t with
  | .go u, .inCall (.enter _) c => if u = t then c.holdsOn s.obj.flags else none
  | .go u, .inCall .poll c => if u = t then c.holdsOn s.obj.flags else none
  | .op (.set flags true), .inCall _ c =>
    if (EvFlagsOp.set flags true).passes checks s.obj.valid &&
        (s.kern.wq (.obj ())).contains (t, .main) then
      c.holdsOn (s.obj.flags ||| flags)
    else none
  | _, _ => none

/-- The flags after a step, but for what it consumes. -/
def evfRaised (checks : Bool) (a : EvfAct T E) (s : EvfSys T E) : UintFast32 :=
  match a with
  | .op (.set flags value) =>
    if (EvFlagsOp.set flags value).passes checks s.obj.valid then
      if value then s.obj.flags ||| flags else s.obj.flags &&& ~~~ flags
    else s.obj.flags
  | _ => s.obj.flags

/-- What the call of `t` consumes in a step: if its condition holds, the flags it asks for. -/
def evfConsumes (checks : Bool) (a : EvfAct T E) (s : EvfSys T E) (t : T) : UintFast32 :=
  match s.pc t, evfHeld checks a s t with
  | .inCall _ c, some _ => if c.request.clears then c.reqFlags else 0
  | _, _ => 0

/-- For the last call of each thread: the flags on which its condition held, and what it
    consumed. -/
structure EvfBooks (T : Type) where
  held : T → Option UintFast32
  consumed : T → UintFast32

def evfNote (checks : Bool) (a : EvfAct T E) (s : EvfSys T E) (g : EvfBooks T) : EvfBooks T where
  held t := if a.calls t then none else (evfHeld checks a s t).or (g.held t)
  consumed t := if a.calls t then 0 else g.consumed t ||| evfConsumes checks a s t

/-- Calls are made with some flags to wait for; the parameter checks, if there are any, see to
    it. -/
def EvfAsked (cfg : Config T) (_ : EvfSys T E) : EvfAct T E → Prop
  | .call _ c => cfg.checks = true ∨ c.reqFlags ≠ 0
  | _ => True

instance decidableEvfAsked (cfg : Config T) (s : EvfSys T E) :
    (a : EvfAct T E) → Decidable (EvfAsked cfg s a)
  | .call _ c => inferInstanceAs (Decidable (cfg.checks = true ∨ c.reqFlags ≠ 0))
  | .init .. | .go _ | .op _ | .expire _ | .evSet _ | .evReset _ | .evDeinit _ | .terminate _
  | .exit _ | .suspend _ | .resume _ | .yield _ | .setPrio .. | .dispatch =>
    inferInstanceAs (Decidable True)

/-! ## 4. What a step does to the calls -/

section Schritt

variable {cfg : Config T} {checks : Bool} {s s' : EvfSys T E} {a : EvfAct T E} {t u : T}
  {c : EvFlagsCall E} {st : EvfKern T E × EvFlagsMem T} {g : EvfBooks T}

theorem holdsOn_some {v f : UintFast32} (h : c.holdsOn v = some f) :
    v = f ∧ c.request.satisfied v = true := by
  obtain ⟨hs, e⟩ := Option.ite_none_right_eq_some.mp h
  exact ⟨Option.some.inj e, hs⟩

/-- What the test of a call comes to. -/
structure EvfTested (t : T) (c : EvFlagsCall E) (st : EvfKern T E × EvFlagsMem T)
    (p : Bool × EvfKern T E × EvFlagsMem T) : Prop where
  result : p.1 = (c.holdsOn st.2.flags).isSome
  wb : ∀ u, u ≠ t → p.2.1.wb (u, .main) = st.1.wb (u, .main)
  prev : p.2.2.prev = update st.2.prev t ((c.holdsOn st.2.flags).getD (st.2.prev t))
  flags : p.2.2.flags = st.2.flags &&& ~~~
    (if (c.holdsOn st.2.flags).isSome && c.request.clears then c.reqFlags else 0)

theorem evfTest_spec (checks wait : Bool) (st : EvfKern T E × EvFlagsMem T)
    (ha : (st.1.wb (t, .main)).u = .attribute (some c.request)) :
    EvfTested t c st ((fxEvFlags checks).testWait t c wait st) := by
  show EvfTested t c st (fxEvfTestAndWait t wait st)
  have hattr : (st.1.wb (t, .main)).u.getAttr = some c.request := congrArg _ ha
  have hz : st.2.flags &&& ~~~(0 : UintFast32) = st.2.flags := by
    show st.2.flags &&& ~~~0#32 = _
    rw [BitVec.not_zero, BitVec.and_allOnes]
  unfold fxEvfTestAndWait
  rw [hattr]
  dsimp only
  cases hs : c.request.satisfied st.2.flags with
  | true =>
    have hheld : c.holdsOn st.2.flags = some st.2.flags := if_pos hs
    rw [if_pos rfl]
    refine ⟨?_, fun u _ => rfl, ?_, ?_⟩
    · rw [hheld]
      rfl
    · rw [hheld]
      rfl
    · rw [hheld]
      cases hc : c.request.clears with
      | true => rfl
      | false => exact hz.symm
  | false =>
    have hheld : c.holdsOn st.2.flags = none := if_neg (Bool.eq_false_iff.mp hs)
    rw [if_neg Bool.false_ne_true]
    refine ⟨?_, fun u hu => ?_, ?_, ?_⟩
    · rw [hheld]
      rfl
    · cases wait with
      | true => exact (waitStart_view (Ne.symm hu)).wb .main
      | false => rfl
    · rw [hheld]
      exact (Function.update_eq_self t st.2.prev).symm
    · rw [hheld]
      exact hz.symm

theorem held_quiet (h : ¬ s.RunsCode a) (u : T) : evfHeld checks a s u = none := by
  unfold evfHeld
  cases a with
  | go t =>
    change ¬ (s.pc t).runsCode at h
    split
    · rename_i t' _ c heq hpc
      cases heq
      refine if_neg ?_
      rintro rfl
      rw [hpc] at h
      exact h trivial
    · rename_i t' c heq hpc
      cases heq
      refine if_neg ?_
      rintro rfl
      rw [hpc] at h
      exact h trivial
    · rename_i heq _
      cases heq
    · rfl
  | op p => exact absurd trivial h
  | _ => rfl

theorem held_go_ne (h : u ≠ t) : evfHeld checks (.go t) s u = none := by
  unfold evfHeld
  split
  · rename_i heq _
    cases heq
    exact if_neg (Ne.symm h)
  · rename_i heq _
    cases heq
    exact if_neg (Ne.symm h)
  · rename_i heq _
    cases heq
  · rfl

theorem held_enter {ab : Option (Ev T E)} (hpc : s.pc t = .inCall (.enter ab) c) :
    evfHeld checks (.go t) s t = c.holdsOn s.obj.flags := by
  unfold evfHeld
  rw [hpc]
  exact if_pos rfl

theorem held_poll (hpc : s.pc t = .inCall .poll c) :
    evfHeld checks (.go t) s t = c.holdsOn s.obj.flags := by
  unfold evfHeld
  rw [hpc]
  exact if_pos rfl

theorem held_ret {r : ThreadStatus} (hpc : s.pc t = .inCall (.ret r) c) (u : T) :
    evfHeld checks (.go t) s u = none := by
  by_cases hu : u = t
  · subst hu
    unfold evfHeld
    rw [hpc]
  · exact held_go_ne hu

/-- A queued waiter is asleep in a call, and its block holds what it asks for. -/
theorem evf_queued (h : WellFormed (fxEvFlags checks) s) (hA : AttrOk (fxEvFlags checks) s)
    {b : Blk T} (hb : b ∈ s.kern.wq (.obj ())) : b.2 = .main ∧ ∃ ab c,
      s.pc b.1 = .inCall (.asleep ab) c ∧ (s.kern.wb b).u = .attribute (some c.request) := by
  obtain ⟨hmain, ab, c, hpc, _⟩ := call_of_mem h.phases hb rfl
  obtain ⟨u, slot⟩ := b
  change slot = .main at hmain
  subst hmain
  exact ⟨rfl, ab, c, hpc, hA u ab c () hpc hb⟩

theorem evfQueue_of (h : WellFormed (fxEvFlags checks) s) (hA : AttrOk (fxEvFlags checks) s)
    (hasks : ∀ t stage c, s.pc t = .inCall stage c → c.reqFlags ≠ 0) : EvfQueue s.kern := by
  intro b hb
  obtain ⟨hmain, ab, c, hpc, hu⟩ := evf_queued h hA hb
  exact ⟨hmain, h.phases.tied b, c.request, congrArg _ hu, hasks _ _ c hpc⟩

/-- Who is released by a set is whose condition holds on the flags. -/
theorem releases_held (h : WellFormed (fxEvFlags checks) s) (hA : AttrOk (fxEvFlags checks) s)
    {flags : UintFast32} (hp : (EvFlagsOp.set flags true).passes checks s.obj.valid = true)
    (t : T) :
    (s.kern.Releases (s.obj.flags ||| flags) t →
      evfHeld checks (.op (.set flags true)) s t = some (s.obj.flags ||| flags)) ∧
    (¬ s.kern.Releases (s.obj.flags ||| flags) t →
      evfHeld checks (.op (.set flags true)) s t = none) := by
  by_cases hq : (t, .main) ∈ s.kern.wq (.obj ())
  · obtain ⟨_, ab, c, hpc, hu⟩ := evf_queued h hA hq
    change s.pc t = _ at hpc
    have hheld : evfHeld checks (.op (.set flags true)) s t =
        c.holdsOn (s.obj.flags ||| flags) := by
      unfold evfHeld
      rw [hpc]
      exact if_pos (Bool.and_eq_true_iff.mpr ⟨hp, List.contains_iff_mem.mpr hq⟩)
    have hsat : s.kern.satisfiedAt (s.obj.flags ||| flags) (t, .main) =
        c.request.satisfied (s.obj.flags ||| flags) := by
      unfold Kern.satisfiedAt
      rw [hu]
      rfl
    rw [hheld]
    refine ⟨fun hr => if_pos (hsat ▸ hr.2), fun hr => if_neg fun hs => hr ⟨hq, hsat ▸ hs⟩⟩
  · refine ⟨fun hr => absurd hr.1 hq, fun _ => ?_⟩
    unfold evfHeld
    split
    · rename_i heq _
      cases heq
    · rename_i heq _
      cases heq
    · rename_i heq _
      cases heq
      exact if_neg fun hx => hq (List.contains_iff_mem.mp (Bool.and_eq_true_iff.mp hx).2)
    · rfl

/-- What a released waiter consumes is noted for its block. -/
theorem releases_clears (h : WellFormed (fxEvFlags checks) s) (hA : AttrOk (fxEvFlags checks) s)
    {flags : UintFast32} (hp : (EvFlagsOp.set flags true).passes checks s.obj.valid = true)
    (hr : s.kern.Releases (s.obj.flags ||| flags) t) :
    s.kern.clearsAt (t, .main) = evfConsumes checks (.op (.set flags true)) s t := by
  obtain ⟨_, ab, c, hpc, hu⟩ := evf_queued h hA hr.1
  change s.pc t = _ at hpc
  unfold Kern.clearsAt evfConsumes
  rw [hu, hpc, (releases_held h hA hp t).1 hr]
  rfl

/-- **What one step can do** to event flags. -/
inductive EvfCase (cfg : Config T) (checks : Bool) (a : EvfAct T E) (s s' : EvfSys T E) : Prop where
  | quiet (t : T) (hq : Quiet cfg (fxEvFlags checks) a s s' t) (hno : ¬ s.RunsCode a)
  | test (t : T) (c : EvFlagsCall E) (stage stage' : Stage T E) (ha : a = .go t)
      (hpc : s.pc t = .inCall stage c) (hpc' : s'.pc = update s.pc t (.inCall stage' c))
      (hheld : evfHeld checks a s t = c.holdsOn s.obj.flags) (hnone : s.granted t = none)
      (hgranted : (s'.granted t).isSome = (c.holdsOn s.obj.flags).isSome)
      (hwb : ∀ u, u ≠ t → s'.kern.wb (u, .main) = s.kern.wb (u, .main))
      (hprev : s'.obj.prev =
        update s.obj.prev t ((c.holdsOn s.obj.flags).getD (s.obj.prev t)))
      (hflags : s'.obj.flags = s.obj.flags &&& ~~~
        (if (c.holdsOn s.obj.flags).isSome && c.request.clears then c.reqFlags else 0))
  | after (t : T) (c : EvFlagsCall E) (r : ThreadStatus) (ha : a = .go t)
      (hpc : s.pc t = .inCall (.ret r) c)
      (hs : s' = ⟨s.kern, fxEvFlagsWaitEnd t r s.obj, update s.pc t .idle, s.base⟩)
  | op (p : EvFlagsOp) (ha : a = .op p) (hp : p.passes checks s.obj.valid = true)
      (hs : s' = ⟨(p.run (s.kern, s.obj)).1, (p.run (s.kern, s.obj)).2, s.pc, s.base⟩)
  | rejected (p : EvFlagsOp) (ha : a = .op p) (hp : p.passes checks s.obj.valid = false)
      (hs : s' = s)

theorem evf_case (h : WellFormed (fxEvFlags checks) s)
    (hs : step cfg (fxEvFlags checks) a s = some s') : EvfCase cfg checks a s s' := by
  cases code_case (fxEvFlags_lawful checks) h hs with
  | quiet t hq hno => exact .quiet t hq hno
  | enter t c ab r k ha hpc hr he hs1 =>
    subst ha
    have hph : s.phases (fxEvFlags checks) t = .awake := by rw [Sys.phases, hpc]; rfl
    obtain ⟨_, hprep, _⟩ := prepare_kernOk h.phases hph hr (some c.request)
    have htest := (fxEvFlags_lawful checks).tested (c := c) (o := s.obj) h.phases (phases_ne s)
      h.ev hph hr
    have ht := evfTest_spec (t := t) (c := c) checks true
      (fxSyncWaiterPrepare s.kern t (some c.request), s.obj) (congrArg WaitBlock.u hprep.main)
    have hg := he.granted (c := c) htest.queued
    have hwb : ∀ u, u ≠ t → s'.kern.wb (u, .main) = s.kern.wb (u, .main) := by
      intro u hu
      rw [hs1]
      refine ((he.view hu).wb .main).trans ((ht.wb u hu).trans ?_)
      exact (prepare_view (Ne.symm hu) _).wb .main
    refine .test t c _ (r.elim (.asleep ab) (afterWait ab)) rfl hpc (by rw [hs1])
      (held_enter hpc) ?_ ?_ hwb ?_ ?_
    · unfold Sys.granted
      rw [hpc]
      rfl
    · unfold Sys.granted
      rw [hs1]
      show ((update s.pc t _ t).granted k t).isSome = _
      rw [Function.update_self, hg, ← ht.result]
      have hite : ∀ b : Bool, (if b = true then some c else none).isSome = b :=
        fun b => by cases b <;> rfl
      exact hite _
    · rw [hs1]
      exact ht.prev
    · rw [hs1]
      exact ht.flags
  | poll t c ha hpc hr hs1 =>
    subst ha
    have hinit : (fxSyncWaitBlockInit s.kern t (some c.request)).wb (t, .main) =
        ⟨none, .attribute (some c.request)⟩ := Function.update_self ..
    have ht := evfTest_spec (t := t) (c := c) checks false
      (fxSyncWaitBlockInit s.kern t (some c.request), s.obj) (congrArg WaitBlock.u hinit)
    have hwb : ∀ u, u ≠ t → s'.kern.wb (u, .main) = s.kern.wb (u, .main) := by
      intro u hu
      rw [hs1]
      refine (ht.wb u hu).trans ?_
      show update s.kern.wb _ _ _ = _
      exact Function.update_of_ne (fun e => hu (congrArg Prod.fst e)) ..
    refine .test t c _ _ rfl hpc (by rw [hs1]) (held_poll hpc) ?_ ?_ hwb ?_ ?_
    · unfold Sys.granted
      rw [hpc]
      rfl
    · unfold Sys.granted
      rw [hs1]
      show ((update s.pc t _ t).granted _ t).isSome = _
      rw [Function.update_self, ← ht.result]
      have hite : ∀ b : Bool, (if (if b = true then ThreadStatus.ok else .waitTimeout) = .ok
          then some c else none).isSome = b := fun b => by cases b <;> rfl
      exact hite _
    · rw [hs1]
      exact ht.prev
    · rw [hs1]
      exact ht.flags
  | after t c r ha hpc hs1 => exact .after t c r ha hpc hs1
  | op p ko ha hc ho hs1 =>
    change some (if checks = true ∧ p.accepted s.obj.valid = false then _ else _) = some ko at ho
    by_cases hchk : checks = true ∧ p.accepted s.obj.valid = false
    · rw [if_pos hchk] at ho
      cases ho
      refine .rejected p ha ?_ hs1
      unfold EvFlagsOp.passes
      rw [hchk.1, hchk.2]
      rfl
    · rw [if_neg hchk] at ho
      cases ho
      refine .op p ha ?_ hs1
      unfold EvFlagsOp.passes
      cases hc : checks with
      | false => rfl
      | true => exact Bool.of_not_eq_false fun hacc => hchk ⟨hc, hacc⟩

/-- No call is examined by an operation other than a set that passes its checks. -/
theorem held_op {p : EvFlagsOp}
    (h : ∀ flags, p = .set flags true → p.passes checks s.obj.valid = false) (u : T) :
    evfHeld checks (.op p) s u = none := by
  unfold evfHeld
  split
  · rename_i heq _
    cases heq
  · rename_i heq _
    cases heq
  · rename_i flags _ _ heq _
    cases heq
    exact if_neg fun hx => Bool.eq_false_iff.mp (h flags rfl) (Bool.and_eq_true_iff.mp hx).1
  · rfl

/-- **What a step grants**: the calls whose condition holds in it, and these are told the flags. -/
theorem evf_grants (h : WellFormed (fxEvFlags checks) s) (hA : AttrOk (fxEvFlags checks) s)
    (hasks : ∀ t stage c, s.pc t = .inCall stage c → c.reqFlags ≠ 0)
    (hs : step cfg (fxEvFlags checks) a s = some s') (hgone : s'.pc u ≠ .gone)
    (hret : ∀ r c, a = .go u → s.pc u ≠ .inCall (.ret r) c) :
    (s'.granted u).isSome = ((evfHeld checks a s u).isSome || (s.granted u).isSome) ∧
      s'.obj.prev u = (evfHeld checks a s u).getD (s.obj.prev u) := by
  have hobj : ∀ c, IsObj ((fxEvFlags checks : WaitObject T E _ _ _ _ _).waitable c) :=
    fun _ => trivial
  -- a thread that no code of the flags touches
  have hsame : evfHeld checks a s u = none → s'.granted u = s.granted u →
      s'.obj.prev u = s.obj.prev u → (s'.granted u).isSome =
        ((evfHeld checks a s u).isSome || (s.granted u).isSome) ∧
      s'.obj.prev u = (evfHeld checks a s u).getD (s.obj.prev u) := by
    intro hheld hg hprev
    rw [hheld, hg, hprev]
    exact ⟨(Bool.false_or _).symm, rfl⟩
  cases evf_case h hs with
  | quiet t hq hno =>
    exact hsame (held_quiet hno u) (hq.granted hobj h u hgone) (congrFun (congrArg _ hq.obj) u)
  | test t c stage stage' ha hpc hpc' hheld hnone hg hwb hprev _ =>
    subst ha
    by_cases hut : u = t
    · subst hut
      rw [hheld, hnone, hg, hprev, Function.update_self]
      exact ⟨(Bool.or_false _).symm, rfl⟩
    · refine hsame (held_go_ne hut) ?_ (by rw [hprev, Function.update_of_ne hut])
      unfold Sys.granted
      rw [hpc', Function.update_of_ne hut]
      exact granted_congr (hwb u hut)
  | after t c r ha hpc hs1 =>
    subst ha
    have hut : u ≠ t := by
      rintro rfl
      exact hret r c rfl hpc
    refine hsame (held_go_ne hut) ?_ ?_
    · unfold Sys.granted
      rw [hs1]
      show (update s.pc t _ u).granted s.kern u = _
      rw [Function.update_of_ne hut]
    · rw [hs1]
      exact Function.update_of_ne hut ..
  | rejected p ha hp hs1 =>
    subst ha
    exact hsame (held_op (fun _ _ => hp) u) (by rw [hs1]) (by rw [hs1])
  | op p ha hp hs1 =>
    subst ha
    have hpc : s'.pc = s.pc := by rw [hs1]
    cases p with
    | deinit =>
      refine hsame (held_op (fun _ e => by cases e) u) ?_ (by rw [hs1]; rfl)
      unfold Sys.granted
      rw [hs1]
      exact granted_notifyAll_deleted h.kern () u
    | set flags value =>
      cases value with
      | false =>
        refine hsame (held_op (fun _ e => by cases e) u) ?_ (by rw [hs1]; rfl)
        unfold Sys.granted
        rw [hs1]
        rfl
      | true =>
        have heff := fxEvFlagsSet_effect (s := (s.kern, s.obj)) (evfQueue_of h hA hasks) flags
        obtain ⟨hheld, hnone⟩ := releases_held h hA hp u
        have hkern : s'.kern = (fxEvFlagsSet flags true (s.kern, s.obj)).1 := by rw [hs1]; rfl
        have hmem : s'.obj = (fxEvFlagsSet flags true (s.kern, s.obj)).2 := by rw [hs1]; rfl
        by_cases hr : s.kern.Releases (s.obj.flags ||| flags) u
        · obtain ⟨_, ab, c, hasl, _⟩ := evf_queued h hA hr.1
          obtain ⟨hwb, _, hprev, _⟩ := heff.released u hr
          rw [hheld hr, hmem, hprev]
          refine ⟨?_, rfl⟩
          unfold Sys.granted Pc.granted
          rw [hpc, hkern, hasl]
          show (if (_ : WaitBlock T E Unit EvFlagsAttr).u.getStatus = .satisfied then some c
            else none).isSome = true
          rw [hwb]
          rfl
        · obtain ⟨hwb, _, hprev⟩ := heff.kept u hr
          refine hsame (hnone hr) ?_ (by rw [hmem]; exact hprev)
          unfold Sys.granted
          rw [hpc, hkern]
          exact granted_congr hwb

theorem consumes_none (h : evfHeld checks a s t = none) : evfConsumes checks a s t = 0 := by
  unfold evfConsumes
  rw [h]
  split
  · rename_i heq
    cases heq
  · rfl

/-- **What a step consumes**: what the calls ask for whose condition holds in it. -/
theorem evf_flags (h : WellFormed (fxEvFlags checks) s) (hA : AttrOk (fxEvFlags checks) s)
    (hasks : ∀ t stage c, s.pc t = .inCall stage c → c.reqFlags ≠ 0)
    (hs : step cfg (fxEvFlags checks) a s = some s') (i : Nat) :
    s'.obj.flags.getLsbD i = true ↔ (evfRaised checks a s).getLsbD i = true ∧
      ∀ t, (evfConsumes checks a s t).getLsbD i = false := by
  -- what is taken away is what the calls consume
  have hbits : ∀ f, s'.obj.flags = evfRaised checks a s &&& ~~~f →
      (f.getLsbD i = true ↔ ∃ t, (evfConsumes checks a s t).getLsbD i = true) →
      (s'.obj.flags.getLsbD i = true ↔ (evfRaised checks a s).getLsbD i = true ∧
        ∀ t, (evfConsumes checks a s t).getLsbD i = false) := by
    intro f hflags hf
    have hall : (∀ t, (evfConsumes checks a s t).getLsbD i = false) ↔ ¬ f.getLsbD i = true := by
      rw [hf, not_exists]
      exact forall_congr' fun t => Bool.eq_false_iff
    rw [hall, hflags, BitVec.getLsbD_and, BitVec.getLsbD_not]
    by_cases hi : i < 32
    · simp [hi]
    · have hge : (evfRaised checks a s).getLsbD i = false :=
        BitVec.getLsbD_of_ge _ i (Nat.le_of_not_lt hi)
      simp [hge]
  have hnone : (∀ t, evfHeld checks a s t = none) → s'.obj.flags = evfRaised checks a s →
      (s'.obj.flags.getLsbD i = true ↔ (evfRaised checks a s).getLsbD i = true ∧
        ∀ t, (evfConsumes checks a s t).getLsbD i = false) := by
    intro hheld hf
    rw [hf]
    refine ⟨fun hi => ⟨hi, fun t => ?_⟩, fun hi => hi.1⟩
    rw [consumes_none (hheld t)]
    exact BitVec.getLsbD_zero
  cases evf_case h hs with
  | quiet t hq hno =>
    refine hnone (held_quiet hno) ?_
    rw [hq.obj]
    cases a with
    | op p => exact absurd trivial hno
    | _ => rfl
  | test t c stage stage' ha hpc hpc' hheld _ _ _ _ hflags =>
    subst ha
    refine hbits _ hflags ?_
    have hme : evfConsumes checks (.go t) s t =
        if (c.holdsOn s.obj.flags).isSome && c.request.clears then c.reqFlags else 0 := by
      unfold evfConsumes
      rw [hpc, hheld]
      cases c.holdsOn s.obj.flags with
      | none => rfl
      | some v => rfl
    rw [← hme]
    refine ⟨fun hi => ⟨t, hi⟩, ?_⟩
    rintro ⟨u, hu⟩
    by_cases hut : u = t
    · exact hut ▸ hu
    · rw [consumes_none (held_go_ne hut)] at hu
      cases BitVec.getLsbD_zero.symm.trans hu
  | after t c r ha hpc hs1 =>
    subst ha
    refine hnone (held_ret hpc) ?_
    rw [hs1]
    rfl
  | rejected p ha hp hs1 =>
    subst ha
    refine hnone (held_op fun _ _ => hp) ?_
    rw [hs1]
    cases p with
    | deinit => rfl
    | set flags value => exact (if_neg (Bool.eq_false_iff.mp hp)).symm
  | op p ha hp hs1 =>
    subst ha
    cases p with
    | deinit => exact hnone (held_op fun _ e => by cases e) (by rw [hs1]; rfl)
    | set flags value =>
      cases value with
      | false =>
        refine hnone (held_op fun _ e => by cases e) ?_
        rw [hs1]
        exact (if_pos hp).symm
      | true =>
        have heff := fxEvFlagsSet_effect (s := (s.kern, s.obj)) (evfQueue_of h hA hasks) flags
        have hraised : evfRaised checks (.op (.set flags true)) s = s.obj.flags ||| flags :=
          if_pos hp
        have hflags : s'.obj.flags = evfRaised checks (.op (.set flags true)) s &&&
            ~~~flagsUnion (((s.kern.wq (.obj ())).filter fun b =>
              s.kern.satisfiedAt (s.obj.flags ||| flags) b).map s.kern.clearsAt) := by
          rw [hraised, hs1]
          exact heff.flags
        refine hbits _ hflags ?_
        rw [getLsbD_flagsUnion, List.any_map, List.any_eq_true]
        constructor
        · rintro ⟨⟨t, slot⟩, hb, hi⟩
          obtain ⟨hb, hsat⟩ := List.mem_filter.mp hb
          obtain ⟨hmain, ab, c, hpc, hu⟩ := evf_queued h hA hb
          change slot = .main at hmain
          subst hmain
          refine ⟨t, ?_⟩
          rw [← releases_clears h hA hp ⟨hb, hsat⟩]
          exact hi
        · rintro ⟨t, hi⟩
          by_cases hr : s.kern.Releases (s.obj.flags ||| flags) t
          · refine ⟨(t, .main), List.mem_filter.mpr hr, ?_⟩
            rw [← releases_clears h hA hp hr] at hi
            exact hi
          · rw [consumes_none ((releases_held h hA hp t).2 hr)] at hi
            cases BitVec.getLsbD_zero.symm.trans hi

/-! ## 5. Runs -/

/-- What the books say of the calls under way, and of the threads that are in none. -/
structure EvfOk (s : EvfSys T E) (g : EvfBooks T) : Prop where
  idle : ∀ t, (s.pc t).isInCall = false → s.pc t ≠ .gone → s.obj.prev t = 0
  asks : ∀ t stage c, s.pc t = .inCall stage c → c.reqFlags ≠ 0
  told : ∀ t stage c, s.pc t = .inCall stage c → s.obj.prev t = (g.held t).getD 0
  nonzero : ∀ t stage c, s.pc t = .inCall stage c → g.held t ≠ some 0
  granted : ∀ t stage c, s.pc t = .inCall stage c → (g.held t).isSome = (s.granted t).isSome
  consumed : ∀ t, g.held t = none → g.consumed t = 0

theorem held_ne_zero (hasks : ∀ t stage c, s.pc t = .inCall stage c → c.reqFlags ≠ 0) (t : T) :
    evfHeld checks a s t ≠ some 0 := by
  have hholds : ∀ {stage c v}, s.pc t = .inCall stage c → c.holdsOn v ≠ some 0 := by
    intro stage c v hpc hv
    obtain ⟨rfl, hs⟩ := holdsOn_some hv
    exact satisfied_ne_zero (hasks t stage c hpc) hs rfl
  unfold evfHeld
  split
  · split
    · exact hholds ‹_›
    · exact nofun
  · split
    · exact hholds ‹_›
    · exact nofun
  · split
    · exact hholds ‹_›
    · exact nofun
  · exact nofun

/-- No condition holds for a thread that is in no call. -/
theorem held_of_not_call (h : (s.pc t).isInCall = false) : evfHeld checks a s t = none := by
  unfold evfHeld
  split
  · rename_i hpc
    rw [hpc] at h
    cases h
  · rename_i hpc
    rw [hpc] at h
    cases h
  · rename_i hpc
    rw [hpc] at h
    cases h
  · rfl

/-- A call that returns. -/
theorem evf_ret {r : ThreadStatus} (hpc : s.pc t = .inCall (.ret r) c)
    (hs : step cfg (fxEvFlags checks) (.go t) s = some s') :
    s' = ⟨s.kern, fxEvFlagsWaitEnd t r s.obj, update s.pc t .idle, s.base⟩ := step_ret hpc hs

/-- A call under way was under way before, or was just made by a thread that was in none. -/
theorem evf_callBefore {stage : Stage T E} (h : WellFormed (fxEvFlags checks) s)
    (hg : ∀ c, a = .call t c → checks = true ∨ c.reqFlags ≠ 0)
    (hs : step cfg (fxEvFlags checks) a s = some s') (hpc' : s'.pc t = .inCall stage c) :
    a = .call t c ∧ s.pc t = .idle ∧ c.reqFlags ≠ 0 ∨
      a.calls t = false ∧ (∃ stage0, s.pc t = .inCall stage0 c) ∧
        ∀ r d, a = .go t → s.pc t ≠ .inCall (.ret r) d := by
  have hret : ∀ r d, a = .go t → s.pc t ≠ .inCall (.ret r) d := by
    rintro r d rfl hpc
    rw [evf_ret hpc hs] at hpc'
    change update s.pc t _ t = _ at hpc'
    rw [Function.update_self] at hpc'
    cases hpc'
  rcases (step_case (fxEvFlags_lawful checks) h hs).1.callBefore hpc' with
    ⟨d, rfl, hidle, hstart⟩ | ⟨stage0, hpc⟩ | ⟨r, d, _, hnone⟩
  · have hstart : (if checks = true ∧ (s.obj.valid = false ∨ d.reqFlags = 0 ∨
        d.option &&& ~~~3 ≠ 0) then none else some d) = some c := hstart
    obtain ⟨hchk, e⟩ := Option.ite_none_left_eq_some.mp hstart
    cases e
    refine Or.inl ⟨rfl, hidle, fun h0 => ?_⟩
    exact (hg c rfl).elim (fun hc => hchk ⟨hc, Or.inr (Or.inl h0)⟩) fun hne => hne h0
  · refine Or.inr ⟨?_, ⟨stage0, hpc⟩, hret⟩
    cases a with
    | call u d =>
      refine decide_eq_false fun e => ?_
      rw [← e, step_call_idle hs] at hpc
      cases hpc
    | _ => rfl
  · cases hnone

theorem EvfOk.step (h : WellFormed (fxEvFlags checks) s) (hA : AttrOk (fxEvFlags checks) s)
    (hj : EvfOk s g) (hg : ∀ t c, a = .call t c → checks = true ∨ c.reqFlags ≠ 0)
    (hs : step cfg (fxEvFlags checks) a s = some s') : EvfOk s' (evfNote checks a s g) := by
  -- a call that goes on, or was just made
  have hcall : ∀ t stage c, s'.pc t = .inCall stage c → c.reqFlags ≠ 0 ∧
      s'.obj.prev t = ((evfNote checks a s g).held t).getD 0 ∧
      (evfNote checks a s g).held t ≠ some 0 ∧
      ((evfNote checks a s g).held t).isSome = (s'.granted t).isSome := by
    intro t stage c hpc'
    rcases evf_callBefore h (hg t) hs hpc' with ⟨rfl, hidle, h0⟩ | ⟨hno, ⟨stage0, hpc⟩, hret⟩
    · have hcalls : (Act.call t c : EvfAct T E).calls t = true := decide_eq_true rfl
      obtain ⟨hgr, hprev⟩ := evf_grants h hA hj.asks hs (u := t) (not_gone hpc') nofun
      have hheld : evfHeld checks (.call t c) s t = none :=
        held_quiet (s := s) (a := .call t c) not_false t
      rw [hheld, Option.getD_none, hj.idle t (by rw [hidle]; rfl) (by rw [hidle]; exact nofun)]
        at hprev
      have hgranted : s.granted t = none := by
        unfold Sys.granted
        rw [hidle]
        rfl
      rw [hheld, hgranted] at hgr
      have hnote : (evfNote checks (.call t c) s g).held t = none := if_pos hcalls
      rw [hnote, hprev, hgr]
      exact ⟨h0, rfl, nofun, rfl⟩
    · obtain ⟨hgr, hprev⟩ := evf_grants h hA hj.asks hs (u := t) (not_gone hpc') hret
      have hnote : (evfNote checks a s g).held t = (evfHeld checks a s t).or (g.held t) :=
        if_neg (Bool.eq_false_iff.mp hno)
      rw [hnote, hprev, hgr, hj.told t stage0 c hpc, ← hj.granted t stage0 c hpc]
      refine ⟨hj.asks t stage0 c hpc, ?_⟩
      have hnow : evfHeld checks a s t ≠ some 0 := held_ne_zero hj.asks t
      have hold := hj.nonzero t stage0 c hpc
      cases hv : evfHeld checks a s t with
      | none => exact ⟨rfl, hold, (Bool.false_or _).symm⟩
      | some v =>
        rw [hv] at hnow
        exact ⟨rfl, hnow, rfl⟩
  refine ⟨fun t hpc' hgone => ?_, fun t stage c hpc' => (hcall t stage c hpc').1,
    fun t stage c hpc' => (hcall t stage c hpc').2.1,
    fun t stage c hpc' => (hcall t stage c hpc').2.2.1,
    fun t stage c hpc' => (hcall t stage c hpc').2.2.2, fun t hnone => ?_⟩
  · by_cases hret : ∃ r c, a = .go t ∧ s.pc t = .inCall (.ret r) c
    · obtain ⟨r, c, rfl, hpc⟩ := hret
      rw [evf_ret hpc hs]
      exact Function.update_self ..
    · have hret' : ∀ r c, a = .go t → s.pc t ≠ .inCall (.ret r) c :=
        fun r c ha hpc => hret ⟨r, c, ha, hpc⟩
      have hidle : (s.pc t).isInCall = false := by
        refine Bool.eq_false_iff.mpr fun hin => ?_
        obtain ⟨stage, c, hpc⟩ := calling_iff.mp hin
        rcases (step_case (fxEvFlags_lawful checks) h hs).1.callAfter hpc with
          hg' | ⟨stage', hpc2⟩ | ⟨r, rfl, ha⟩
        · exact hgone hg'
        · rw [hpc2] at hpc'
          cases hpc'
        · exact hret' r c ha hpc
      rw [(evf_grants h hA hj.asks hs hgone hret').2, held_of_not_call hidle, Option.getD_none]
      exact hj.idle t hidle fun hg' => hgone (gone_stays (fxEvFlags_lawful checks) h hs hg')
  · change (if a.calls t = true then none else _) = none at hnone
    show (if a.calls t = true then 0 else _) = (0 : UintFast32)
    split at hnone
    · exact if_pos ‹_›
    · rename_i hno
      obtain ⟨h1, h2⟩ := Option.or_eq_none_iff.mp hnone
      rw [if_neg hno, consumes_none h1, hj.consumed t h2]
      exact BitVec.or_zero

end Schritt

section Lauf

variable {cfg : Config T} {s : EvfSys T E} {g : EvfBooks T}

/-- The start: no flags are set, and no call was made. -/
def evfStart (cfg : Config T) : EvfSys T E × EvfBooks T :=
  (boot cfg (fxEvFlagsInit T), ⟨fun _ => none, fun _ => 0⟩)

/-- **Event flags**, in every run of any threads and interrupts. -/
theorem ev_flags_set_semantics
    (h : Reach (noted (step cfg (fxEvFlags cfg.checks)) (evfNote cfg.checks))
      (fun w a => EvfAsked cfg w.1 a) (evfStart cfg) (s, g)) :
    -- a set, whoever is queued
    (∀ (st : EvfKern T E × EvFlagsMem T) flags, EvfQueue st.1 →
      SetEffect (st.2.flags ||| flags) st (fxEvFlagsSet flags true st)) ∧
    EvfQueue s.kern ∧
    -- a wait that returns
    (∀ t r c s', s.pc t = .inCall (.ret r) c → step cfg (fxEvFlags cfg.checks) (.go t) s = some s' →
      (s'.obj.error t = .ok ↔ (g.held t).isSome = true) ∧
      (∀ v, g.held t = some v → s'.obj.state t = v) ∧
      (s'.obj.error t ≠ .ok → g.consumed t = 0)) ∧
    -- what a step consumes
    ∀ a s', step cfg (fxEvFlags cfg.checks) a s = some s' → ∀ i,
      s'.obj.flags.getLsbD i = true ↔ (evfRaised cfg.checks a s).getLsbD i = true ∧
        ∀ t, (evfConsumes cfg.checks a s t).getLsbD i = false := by
  have hlaw := fxEvFlags_lawful (T := T) (E := E) cfg.checks
  have hwell : ∀ s : EvfSys T E, Reach (step cfg (fxEvFlags cfg.checks)) (EvfAsked cfg)
      (boot cfg (fxEvFlagsInit T)) s →
      WellFormed (fxEvFlags cfg.checks) s ∧ AttrOk (fxEvFlags cfg.checks) s :=
    fun _ hr => ⟨reach_wellFormed hlaw hr, reach_attrOk hlaw hr⟩
  have hreach : Reach (step cfg (fxEvFlags cfg.checks)) (EvfAsked cfg)
      (boot cfg (fxEvFlagsInit T)) s := h.forget fun _ _ hg => hg
  obtain ⟨hw, hA⟩ := hwell s hreach
  have hok : EvfOk s g := by
    refine Reach.inv_noted (J := EvfOk) (fun _ _ hg => hg) hwell ?_
      (fun _ _ _ _ hk hj hg hs => ?_) h
    · have hno : ∀ t stage c, (boot cfg (fxEvFlagsInit T) : EvfSys T E).pc t ≠ .inCall stage c :=
        fun _ _ _ hpc => by cases hpc
      exact ⟨fun _ _ _ => rfl, fun t st c hpc => absurd hpc (hno t st c),
        fun t st c hpc => absurd hpc (hno t st c), fun t st c hpc => absurd hpc (hno t st c),
        fun t st c hpc => absurd hpc (hno t st c), fun _ _ => rfl⟩
    · refine hj.step hk.1 hk.2 (fun t c e => ?_) hs
      subst e
      exact hg
  refine ⟨fun st flags hq => fxEvFlagsSet_effect hq flags, evfQueue_of hw hA hok.asks,
    fun t r c s' hpc hs => ?_, fun a s' hs i => evf_flags hw hA hok.asks hs i⟩
  have hprev := hok.told t _ c hpc
  have hgr := hok.granted t _ c hpc
  have hmem : s'.obj = fxEvFlagsWaitEnd t r s.obj := by rw [evf_ret hpc hs]
  have herror : s'.obj.error t = if s.obj.prev t ≠ 0 then .ok else r := by
    rw [hmem]
    exact Function.update_self ..
  cases hheld : g.held t with
  | none =>
    rw [hheld] at hprev hgr
    have hr : r ≠ .ok := by
      rintro rfl
      unfold Sys.granted at hgr
      rw [hpc] at hgr
      cases hgr
    rw [herror, if_neg fun hne => hne hprev]
    exact ⟨iff_of_false hr nofun, nofun, fun _ => hok.consumed t hheld⟩
  | some v =>
    have hv : v ≠ 0 := fun e => hok.nonzero t _ c hpc (by rw [hheld, e])
    rw [hheld] at hprev
    change s.obj.prev t = v at hprev
    rw [herror, if_pos (hprev ▸ hv)]
    refine ⟨iff_of_true rfl rfl, fun v' e => ?_, fun hne => absurd rfl hne⟩
    cases e
    rw [hmem]
    unfold fxEvFlagsWaitEnd
    rw [if_pos (hprev ▸ hv), hprev]
    exact Function.update_self ..

end Lauf

/-- The status of a wait whose call has only to return. -/
def Pc.returns {C : Type} : Pc T E C → Option ThreadStatus
  | .inCall (.ret r) _ => some r
  | _ => none

theorem returns_some {C : Type} {p : Pc T E C} {r : ThreadStatus} (h : p.returns = some r) :
    ∃ c, p = .inCall (.ret r) c := by
  unfold Pc.returns at h
  split at h
  · cases h
    exact ⟨_, rfl⟩
  · cases h

/-- Thread 0 waits for both flags and thread 1 for one of them, to clear them; a set of both
    releases the two, and the timeout of thread 0 comes too late. -/
theorem ev_flags_set_semantics_late : ∃ (s s' : EvfSys (Fin 4) Unit) (g : EvfBooks (Fin 4)),
    s.kern.ev (.timer 0) = true ∧
    step ⟨true, 8, 3⟩ (fxEvFlags true) (.go 0) s = some s' ∧
    s'.obj.error 0 = .ok ∧ s'.obj.state 0 = 3 ∧ s'.obj.flags = 0 ∧ g.held 1 = some 3 := by
  let cfg : Config (Fin 4) := ⟨true, 8, 3⟩
  let acts : List (EvfAct (Fin 4) Unit) :=
    [.init 0 5 false, .init 1 4 false, .call 0 ⟨3, 3, .timeout 9⟩, .go 0, .go 0, .go 0,
      .call 1 ⟨2, 2, .event none⟩, .go 1, .op (.set 3 true), .expire 0, .go 0, .go 0]
  have h : (runIf (fun w a => decide (EvfAsked cfg w.1 a))
      (noted (step cfg (fxEvFlags cfg.checks)) (evfNote cfg.checks)) acts (evfStart cfg)).any
      (fun w => decide ((w.1.pc 0).returns = some .ok ∧ w.1.kern.ev (.timer 0) = true ∧
        w.1.kern.state 0 = .ready ∧ w.1.obj.flags = 0 ∧ w.2.held 0 = some 3 ∧
        w.2.held 1 = some 3)) = true := by
    decide +kernel
  obtain ⟨⟨s, g⟩, hreach, hp⟩ := exists_of_runIf (fun _ _ hg => of_decide_eq_true hg) h
  obtain ⟨hret, hev, hready, hflags, h0, h1⟩ := of_decide_eq_true hp
  obtain ⟨c, hpc⟩ : ∃ c, s.pc 0 = .inCall (.ret .ok) c := returns_some hret
  have hs : step cfg (fxEvFlags cfg.checks) (.go 0) s =
      some ⟨s.kern, fxEvFlagsWaitEnd 0 .ok s.obj, update s.pc 0 .idle, s.base⟩ := by
    simp only [step, hpc]
    exact if_pos hready
  obtain ⟨hok, hstate, _⟩ := (ev_flags_set_semantics hreach).2.2.1 0 .ok c _ hpc hs
  refine ⟨s, _, g, hev, hs, hok.mpr ?_, hstate 3 h0, hflags, h1⟩
  rw [h0]
  rfl

end FxRtos
