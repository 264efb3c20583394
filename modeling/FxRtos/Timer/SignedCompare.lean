/-
  File:      FxRtos/Timer/SignedCompare.lean
  Subject:   THE SIGNED SUBTRACTIONS OF THE TIMER LIST. `fx_timer_time_after(a, b)` makes both
             values signed and then subtracts them, so the difference of two ticks close to each
             other may be out of the range of an `int32_t`.

  * `timerPairs` -- the pairs compared in one critical section of `timerStep`.
  * `era`, `place` -- how often the signed counter has turned from 0x7FFFFFFF to 0x80000000, and
    where it stands since. `TurnsFit` -- it turns between two values as often as their distance
    makes up a whole range: not at all where that is less than half of it.
  * `signed_compare` -- no subtraction is out of range exactly as long as the turns between two
    values that are compared fit.
-/
import FxRtos.Timer.Punctual

namespace FxRtos

open Function (update)
open Lib

set_option linter.unusedSectionVars false

variable {I : Type} [DecidableEq I]

/-! ## 1. The pairs compared -/

/-- The comparisons of `_fx_timer_insert`, by their arguments. -/
def insertPairs (c : TimerContext I) (x : I) : List (BitVec 32 × BitVec 32) :=
  (compared (fun x t => fxTimerTimeAfter (c.timer t).timeout (c.timer x).timeout) x c.timers).map
    fun t => ((c.timer t).timeout, (c.timer x).timeout)

/-- The comparisons of one round of `fx_tick_handler`. -/
def roundPairs (c : TimerContext I) : List (BitVec 32 × BitVec 32) :=
  match c.timers with
  | [] => []
  | item :: rest =>
    let t := c.timer item
    (c.ticks, t.timeout) ::
      if fxTimerTimeAfterOrEq c.ticks t.timeout ∧ t.period ≠ 0 then
        insertPairs { c with
          timers := rest
          timer := update c.timer item ⟨t.timeout + t.period, t.period⟩ } item
      else []

/-- The comparisons of the second section of `fx_timer_internal_set_rel`. -/
def RelCall.pairs (call : RelCall I) (c : TimerContext I) : List (BitVec 32 × BitVec 32) :=
  insertPairs { c with
    timers := c.timers.erase call.timer
    timer := update c.timer call.timer ⟨call.ticks + call.delay.val, call.period.val⟩ } call.timer

/-- The pairs compared in a critical section. -/
def timerPairs : TimerAct I → TimerSys I → List (BitVec 32 × BitVec 32)
  | .arm n, s => (s.calls[n]?.map (·.pairs s.ctx)).getD []
  | .tick, s => roundPairs s.ticked.ctx
  | .next, s => roundPairs s.ctx
  | _, _ => []

def timerNote (a : TimerAct I) (s : TimerSys I) (log : List (BitVec 32 × BitVec 32)) :
    List (BitVec 32 × BitVec 32) := timerPairs a s ++ log

/-- `(int32_t)(b) - (int32_t)(a)`, exact, is a value of its type. -/
def InInt32 (p : BitVec 32 × BitVec 32) : Prop :=
  -0x80000000 ≤ p.2.toInt - p.1.toInt ∧ p.2.toInt - p.1.toInt ≤ 0x7FFFFFFF

/-! ## 2. Turns -/

/-- How often the signed counter has turned up to the tick `n`. -/
def era (n : Nat) : Nat := (n + 0x80000000) / 0x100000000

/-- Where it stands at the tick `n`, counted from its lowest value. -/
def place (n : Nat) : Nat := (n + 0x80000000) % 0x100000000

/-- The turns from `u` to `v` are their distance, rounded to whole ranges of the counter. -/
def TurnsFit (u v : Nat) : Prop :=
  (era v : Int) - era u = ((v : Int) - u + 0x80000000) / 0x100000000

/-- The turns fit between `v` and every deadline that the signed counter has not above it, or has as
    the next one above it. -/
def OneEra (key : I → Nat) (l : List I) (v : Nat) : Prop :=
  ∀ y ∈ l, (∀ z ∈ l, place v < place (key z) → place (key y) ≤ place (key z)) → TurnsFit (key y) v

/-- The turns fit between the count and the first deadline, and if the signed counter has that not
    above the count, between the next deadline of a periodic timer and those it is compared with. -/
def TimerSys.OneEra (s : TimerSys I) : Prop :=
  ∀ item ∈ s.ctx.timers.head?, TurnsFit s.now (s.next item) ∧
    (place (s.next item) ≤ place s.now ∧ (s.ctx.timer item).period ≠ 0 →
      FxRtos.OneEra s.next s.ctx.timers.tail (s.next item + (s.ctx.timer item).period.toNat))

/-- The turns fit between two values that the section compares. -/
def NoTurn (w : TimerSys I × List (BitVec 32 × BitVec 32)) (a : TimerAct I) : Prop :=
  match a with
  | .arm n => ∀ c ∈ w.1.calls[n]?, OneEra w.1.next (w.1.ctx.timers.erase c.timer) c.deadline
  | .tick => w.1.ticked.OneEra
  | .next => w.1.OneEra
  | _ => True

instance (u v : Nat) : Decidable (TurnsFit u v) := inferInstanceAs (Decidable (_ = _))

instance OneEra.decidable (key : I → Nat) (l : List I) (v : Nat) : Decidable (OneEra key l v) :=
  inferInstanceAs (Decidable (∀ y ∈ l, _))

instance TimerSys.OneEra.decidable (s : TimerSys I) : Decidable s.OneEra :=
  inferInstanceAs (Decidable (∀ item ∈ s.ctx.timers.head?, _))

instance NoTurn.decidable (w : TimerSys I × List (BitVec 32 × BitVec 32)) :
    (a : TimerAct I) → Decidable (NoTurn w a)
  | .arm n => inferInstanceAs (Decidable (∀ c ∈ w.1.calls[n]?, _))
  | .tick => TimerSys.OneEra.decidable w.1.ticked
  | .next => TimerSys.OneEra.decidable w.1
  | .cancel _ => instDecidableTrue
  | .read .. => instDecidableTrue

/-! ## 3. The invariant -/

/-- The list is sorted as the signed counter sorts its deadlines. -/
structure SignedOk (s : TimerSys I) : Prop where
  ticks : s.ctx.ticks = BitVec.ofNat 32 s.now
  calls : ∀ c ∈ s.calls, c.ticks = BitVec.ofNat 32 c.t
  nodup : s.ctx.timers.Nodup
  sorted : s.ctx.timers.Pairwise fun x y => place (s.next x) ≤ place (s.next y)
  timeout : ∀ x ∈ s.ctx.timers, (s.ctx.timer x).timeout = BitVec.ofNat 32 (s.next x)
  armed : ∀ x ∈ s.ctx.timers, ∃ a, s.arming x = some a ∧ (s.ctx.timer x).period.toNat = a.p

section Rechnung

variable {u v : Nat}

/-- Less than half the range apart, they are in one era. -/
theorem turnsFit_near (h1 : u < v + 0x80000000) (h2 : v < u + 0x80000000) :
    TurnsFit u v ↔ era u = era v := by
  unfold TurnsFit
  omega

theorem toInt_ofNat_place (n : Nat) :
    (BitVec.ofNat 32 n).toInt = (place n : Int) - 0x80000000 := by
  rw [BitVec.toInt_ofNat', Int.bmod_def]
  unfold place
  omega

/-- **The difference fits exactly if the turns do.** -/
theorem inInt32_iff (u v : Nat) :
    InInt32 (BitVec.ofNat 32 u, BitVec.ofNat 32 v) ↔ TurnsFit u v := by
  unfold InInt32 TurnsFit
  rw [toInt_ofNat_place, toInt_ofNat_place]
  unfold era place
  omega

/-- And then the signed difference is that of the places. -/
theorem TurnsFit.toInt_sub (h : TurnsFit u v) :
    (BitVec.ofNat 32 v - BitVec.ofNat 32 u).toInt = (place v : Int) - place u := by
  have hin := (inInt32_iff u v).mpr h
  unfold InInt32 at hin
  dsimp only at hin
  rw [BitVec.toInt_sub, Int.bmod_eq_of_le_mul_two (by omega) (by omega), toInt_ofNat_place,
    toInt_ofNat_place]
  omega

theorem timeAfter_iff (h : TurnsFit u v) :
    fxTimerTimeAfter (BitVec.ofNat 32 u) (BitVec.ofNat 32 v) = true ↔ place v < place u := by
  unfold fxTimerTimeAfter circLt
  rw [decide_eq_true_iff, h.toInt_sub]
  omega

theorem timeAfterOrEq_iff (h : TurnsFit u v) :
    fxTimerTimeAfterOrEq (BitVec.ofNat 32 u) (BitVec.ofNat 32 v) = true ↔ place v ≤ place u := by
  unfold fxTimerTimeAfterOrEq circLe
  rw [decide_eq_true_iff, h.toInt_sub]
  omega

theorem ofNat_eq_of_place (h : place u = place v) : BitVec.ofNat 32 u = BitVec.ofNat 32 v := by
  apply BitVec.eq_of_toInt_eq
  rw [toInt_ofNat_place, toInt_ofNat_place, h]

end Rechnung

/-! ## 4. An insertion -/

section Einfuegung

variable {c : TimerContext I} {key : I → Nat} {x : I} {v : Nat}

/-- **The comparisons of an insertion** into a list that is sorted. -/
theorem insertPairs_iff (hx : x ∉ c.timers) (hv : (c.timer x).timeout = BitVec.ofNat 32 v)
    (hkey : ∀ y ∈ c.timers, (c.timer y).timeout = BitVec.ofNat 32 (key y))
    (hs : c.timers.Pairwise fun y z => place (key y) ≤ place (key z)) :
    (∀ p ∈ insertPairs c x, InInt32 p) ↔ OneEra key c.timers v := by
  have hne : ∀ y ∈ c.timers, y ≠ x := fun y hy e => hx (e ▸ hy)
  let k : I → Nat := fun y => place (update key x v y)
  have hself : k x = place v := congrArg place (Function.update_self ..)
  have hk : ∀ y ∈ c.timers, k y = place (key y) :=
    fun y hy => congrArg place (Function.update_of_ne (hne y hy) ..)
  have hpair : ∀ y ∈ c.timers, InInt32 ((c.timer y).timeout, (c.timer x).timeout) ↔
      TurnsFit (key y) v := by
    intro y hy
    rw [hkey y hy, hv]
    exact inInt32_iff ..
  have hword : ∀ y ∈ c.timers, InInt32 ((c.timer y).timeout, (c.timer x).timeout) →
      (fxTimerTimeAfter (c.timer y).timeout (c.timer x).timeout = true ↔ k x < k y) := by
    intro y hy hin
    rw [hself, hk y hy, hkey y hy, hv]
    exact timeAfter_iff ((hpair y hy).mp hin)
  have hsame : ∀ y ∈ c.timers, ∀ z ∈ c.timers, k y = k z →
      InInt32 ((c.timer y).timeout, (c.timer x).timeout) →
      InInt32 ((c.timer z).timeout, (c.timer x).timeout) := by
    intro y hy z hz he hin
    rw [hk y hy, hk z hz] at he
    rwa [hkey z hz, ← ofNat_eq_of_place he, ← hkey y hy]
  have hsorted : c.timers.Pairwise fun y z => k y ≤ k z := by
    refine hs.imp_of_mem fun {y z} hy hz hle => ?_
    rwa [hk y hy, hk z hz]
  unfold insertPairs
  rw [List.forall_mem_map, forall_compared hword hsame hsorted]
  refine forall₂_congr fun y hy => ?_
  rw [hself, hk y hy, hpair y hy]
  refine imp_congr_left (forall₂_congr fun z hz => ?_)
  rw [hk z hz]

/-- Where the turns fit it stays sorted. -/
theorem OneEra.sorted (h : OneEra key c.timers v) (hx : x ∉ c.timers)
    (hv : (c.timer x).timeout = BitVec.ofNat 32 v)
    (hkey : ∀ y ∈ c.timers, (c.timer y).timeout = BitVec.ofNat 32 (key y))
    (hs : c.timers.Pairwise fun y z => place (key y) ≤ place (key z)) :
    (fxTimerInsert c x).timers.Pairwise fun y z =>
      place (update key x v y) ≤ place (update key x v z) := by
  have hne : ∀ y ∈ c.timers, y ≠ x := fun y hy e => hx (e ▸ hy)
  let k : I → Nat := fun y => place (update key x v y)
  have hself : k x = place v := congrArg place (Function.update_self ..)
  have hk : ∀ y ∈ c.timers, k y = place (key y) :=
    fun y hy => congrArg place (Function.update_of_ne (hne y hy) ..)
  have hafter : ∀ y ∈ c.timers,
      (∀ z ∈ c.timers, place v < place (key z) → place (key y) ≤ place (key z)) →
      (fxTimerTimeAfter (c.timer y).timeout (c.timer x).timeout = true ↔
        place v < place (key y)) := by
    intro y hy hleast
    rw [hkey y hy, hv]
    exact timeAfter_iff (h y hy hleast)
  show (fxTimerInsert c x).timers.Pairwise fun y z => k y ≤ k z
  refine pairwise_orderedInsert_least (fun y hy hle => ?_) (fun y hy hlt hleast => ?_) ?_
  · rw [hself, hk y hy] at hle
    rw [hafter y hy fun z _ hz => Nat.le_trans hle (Nat.le_of_lt hz)]
    exact Nat.not_lt.mpr hle
  · rw [hself, hk y hy] at hlt
    refine (hafter y hy fun z hz hvz => ?_).mpr hlt
    have hyz := hleast z hz (by rwa [hself, hk z hz])
    rwa [hk y hy, hk z hz] at hyz
  · refine hs.imp_of_mem fun {y z} hy hz hle => ?_
    rwa [hk y hy, hk z hz]

end Einfuegung

/-! ## 5. One step -/

section Schritte

variable {s s' : TimerSys I} {x : I} {v : Nat} {log : List (BitVec 32 × BitVec 32)}

/-- Some timers leave the list. -/
theorem SignedOk.drop (h : SignedOk s) {l : List I} (hl : l.Sublist s.ctx.timers) :
    SignedOk { s with ctx := { s.ctx with timers := l } } :=
  ⟨h.ticks, h.calls, h.nodup.sublist hl, h.sorted.sublist hl,
    fun y hy => h.timeout y (hl.subset hy), fun y hy => h.armed y (hl.subset hy)⟩

/-- A timer out of the list: what its account says does not count. -/
theorem SignedOk.account (h : SignedOk s) (hx : x ∉ s.ctx.timers) {q : TimerSys I}
    {o : Option Arming} (hctx : q.ctx = s.ctx) (hnow : q.now = s.now)
    (hcalls : q.calls ⊆ s.calls) (har : q.arming = update s.arming x o) : SignedOk q := by
  have hne : ∀ y ∈ s.ctx.timers, y ≠ x := fun y hy e => hx (e ▸ hy)
  have hnext : ∀ y ∈ s.ctx.timers, q.next y = s.next y := fun y hy => next_update har (hne y hy)
  refine ⟨?_, fun c hc => h.calls c (hcalls hc), hctx ▸ h.nodup, ?_, fun y hy => ?_, fun y hy => ?_⟩
  · rw [hctx, hnow]
    exact h.ticks
  · rw [hctx]
    refine h.sorted.imp_of_mem fun {y z} hy hz hle => ?_
    rwa [hnext y hy, hnext z hz]
  · rw [hctx] at hy ⊢
    rw [hnext y hy]
    exact h.timeout y hy
  · rw [hctx] at hy ⊢
    rw [har, Function.update_of_ne (hne y hy)]
    exact h.armed y hy

/-- **An insertion** keeps the list sorted where the turns fit, and they do if nothing that is
    compared is out of range. -/
theorem SignedOk.insert (h : SignedOk s) (hx : x ∉ s.ctx.timers) {t : FxTimer} {a : Arming}
    (ht : t.timeout = BitVec.ofNat 32 v) (hp : t.period.toNat = a.p)
    (hv : a.deadline a.fired.length = v) {q : TimerSys I}
    (hctx : q.ctx = fxTimerInsert { s.ctx with timer := update s.ctx.timer x t } x)
    (hnow : q.now = s.now) (hcalls : q.calls ⊆ s.calls)
    (har : q.arming = update s.arming x (some a)) :
    ((∀ p ∈ insertPairs { s.ctx with timer := update s.ctx.timer x t } x, InInt32 p) ↔
      OneEra s.next s.ctx.timers v) ∧ (OneEra s.next s.ctx.timers v → SignedOk q) := by
  have hne : ∀ y ∈ s.ctx.timers, y ≠ x := fun y hy e => hx (e ▸ hy)
  have hself : update s.ctx.timer x t x = t := Function.update_self ..
  have htimer : ∀ y ∈ s.ctx.timers, update s.ctx.timer x t y = s.ctx.timer y :=
    fun y hy => Function.update_of_ne (hne y hy) ..
  have hnext : ∀ y, q.next y = update s.next x v y := by
    intro y
    by_cases hyx : y = x
    · subst hyx
      rw [Function.update_self, ← hv]
      exact next_of_arming (by rw [har, Function.update_self])
    · rw [Function.update_of_ne hyx]
      exact next_update har hyx
  have hword : (update s.ctx.timer x t x).timeout = BitVec.ofNat 32 v := by rw [hself, ht]
  have hkey : ∀ y ∈ s.ctx.timers,
      (update s.ctx.timer x t y).timeout = BitVec.ofNat 32 (s.next y) := by
    intro y hy
    rw [htimer y hy]
    exact h.timeout y hy
  refine ⟨insertPairs_iff hx hword hkey h.sorted, fun hera => ?_⟩
  have hmem : ∀ y ∈ q.ctx.timers, y = x ∨ y ∈ s.ctx.timers := by
    intro y hy
    rw [hctx] at hy
    exact (List.mem_orderedInsert _).mp hy
  have hqtimer : q.ctx.timer = update s.ctx.timer x t := by rw [hctx]; rfl
  refine ⟨?_, fun c hc => h.calls c (hcalls hc), ?_, ?_, fun y hy => ?_, fun y hy => ?_⟩
  · rw [hctx, hnow]
    exact h.ticks
  · rw [hctx]
    exact (List.perm_orderedInsert _ _ _).nodup_iff.mpr (List.nodup_cons.mpr ⟨hx, h.nodup⟩)
  · have hsorted := OneEra.sorted (c := { s.ctx with timer := update s.ctx.timer x t }) hera hx
      hword hkey h.sorted
    rw [← hctx] at hsorted
    exact hsorted.imp fun {y z} hle => by rwa [hnext y, hnext z]
  · rw [hqtimer, hnext y]
    rcases hmem y hy with rfl | hy
    · rw [Function.update_self, Function.update_self, ht]
    · rw [hkey y hy, Function.update_of_ne (hne y hy)]
  · rw [hqtimer, har]
    rcases hmem y hy with rfl | hy
    · rw [Function.update_self, Function.update_self]
      exact ⟨a, rfl, hp⟩
    · rw [htimer y hy, Function.update_of_ne (hne y hy)]
      exact h.armed y hy

/-- The second section of a call. -/
theorem SignedOk.arm (h : SignedOk s) {c : RelCall I} (hc : c ∈ s.calls) (n : Nat) :
    ((∀ p ∈ c.pairs s.ctx, InInt32 p) ↔
      OneEra s.next (s.ctx.timers.erase c.timer) c.deadline) ∧
    (OneEra s.next (s.ctx.timers.erase c.timer) c.deadline →
      SignedOk { s.arm c with calls := s.calls.eraseIdx n }) := by
  have h0 := h.drop (l := s.ctx.timers.erase c.timer) List.erase_sublist
  have hword : c.ticks + c.delay.val = BitVec.ofNat 32 c.deadline := by
    unfold RelCall.deadline
    rw [h.calls c hc, BitVec.ofNat_add, BitVec.ofNat_toNat, BitVec.setWidth_eq]
  refine h0.insert (t := ⟨c.ticks + c.delay.val, c.period.val⟩)
    (a := ⟨c.t, c.delay.val.toNat, c.period.val.toNat, s.now, []⟩)
    (q := { s.arm c with calls := s.calls.eraseIdx n }) h.nodup.not_mem_erase hword rfl ?_ ?_ rfl
    List.eraseIdx_subset rfl
  · show c.deadline + 0 * _ = _
    rw [Nat.zero_mul, Nat.add_zero]
  · exact fxTimerInternalSetAbs_ctx s.ctx c.timer (c.ticks + c.delay.val) c.period.val

/-- **A round of the handler.** -/
theorem SignedOk.round (h : SignedOk s) :
    ((∀ p ∈ roundPairs s.ctx, InInt32 p) ↔ s.OneEra) ∧ (s.OneEra → SignedOk s.round) := by
  have hend : SignedOk { s with handler := false } :=
    ⟨h.ticks, h.calls, h.nodup, h.sorted, h.timeout, h.armed⟩
  cases hl : s.ctx.timers with
  | nil =>
    have hround : s.round = { s with handler := false } := by
      unfold TimerSys.round fxTickTake
      rw [hl]
    unfold roundPairs TimerSys.OneEra
    rw [hround, hl]
    exact ⟨iff_of_true nofun nofun, fun _ => hend⟩
  | cons x rest =>
    have hx : x ∈ s.ctx.timers := hl ▸ List.mem_cons_self
    have hnot : x ∉ rest := (List.nodup_cons.mp (hl ▸ h.nodup)).1
    have h0 := h.drop (l := rest) (hl ▸ List.sublist_cons_self x rest)
    obtain ⟨a, ha, hp⟩ := h.armed x hx
    have hnext := next_of_arming ha
    have hera : s.OneEra ↔ TurnsFit s.now (s.next x) ∧
        (fxTimerTimeAfterOrEq s.ctx.ticks (s.ctx.timer x).timeout ∧
          (s.ctx.timer x).period ≠ 0 →
        FxRtos.OneEra s.next rest (s.next x + (s.ctx.timer x).period.toNat)) := by
      have hhead : s.OneEra ↔ TurnsFit s.now (s.next x) ∧ (place (s.next x) ≤ place s.now ∧
          (s.ctx.timer x).period ≠ 0 →
          FxRtos.OneEra s.next rest (s.next x + (s.ctx.timer x).period.toNat)) := by
        unfold TimerSys.OneEra
        rw [hl]
        exact ⟨fun h => h x rfl, fun h y hy => Option.some.inj hy ▸ h⟩
      rw [hhead, h.ticks, h.timeout x hx]
      exact and_congr_right fun hturn => by rw [timeAfterOrEq_iff hturn]
    have hhead : InInt32 (s.ctx.ticks, (s.ctx.timer x).timeout) ↔ TurnsFit s.now (s.next x) := by
      rw [h.ticks, h.timeout x hx]
      exact inInt32_iff ..
    have hpairs : (∀ p ∈ roundPairs s.ctx, InInt32 p) ↔ TurnsFit s.now (s.next x) ∧
        ∀ p ∈ (if fxTimerTimeAfterOrEq s.ctx.ticks (s.ctx.timer x).timeout ∧
            (s.ctx.timer x).period ≠ 0 then
          insertPairs { s.ctx with
            timers := rest
            timer := update s.ctx.timer x
              ⟨(s.ctx.timer x).timeout + (s.ctx.timer x).period, (s.ctx.timer x).period⟩ } x
          else []), InInt32 p := by
      unfold roundPairs
      rw [hl]
      dsimp only
      rw [List.forall_mem_cons, hhead]
    rw [hpairs, hera]
    have hfire : s.fire x = { s with
        arming := update s.arming x (some { a with fired := a.fired ++ [s.now] }) } :=
      fire_of_arming ha
    cases ht : fxTickTake s.ctx with
    | none =>
      have hround : s.round = { s with handler := false } := by
        unfold TimerSys.round
        rw [ht]
      have hnodue : ¬ fxTimerTimeAfterOrEq s.ctx.ticks (s.ctx.timer x).timeout = true := by
        intro hdue
        unfold fxTickTake at ht
        simp only [hl, hdue, if_true] at ht
        split at ht <;> cases ht
      rw [hround, if_neg fun hd => hnodue hd.1]
      exact ⟨and_congr_right' (iff_of_true nofun fun hd => absurd hd.1 hnodue), fun _ => hend⟩
    | some yc =>
      obtain ⟨y, c⟩ := yc
      have hround : s.round = { s.fire y with ctx := c } := by
        unfold TimerSys.round
        rw [ht]
      obtain ⟨rest', hl', hdue, hc⟩ := fxTickTake_some ht
      obtain ⟨rfl, rfl⟩ := List.cons.inj (hl.symm.trans hl')
      by_cases hper : (s.ctx.timer x).period ≠ 0
      · rw [if_pos hper] at hc
        have hword : (s.ctx.timer x).timeout + (s.ctx.timer x).period =
            BitVec.ofNat 32 (s.next x + (s.ctx.timer x).period.toNat) := by
          rw [h.timeout x hx, BitVec.ofNat_add, BitVec.ofNat_toNat, BitVec.setWidth_eq]
        obtain ⟨hiff, hok⟩ := h0.insert (q := s.round)
          (t := ⟨(s.ctx.timer x).timeout + (s.ctx.timer x).period, (s.ctx.timer x).period⟩)
          (a := { a with fired := a.fired ++ [s.now] }) hnot hword hp
          (by rw [hnext, hp]; exact congrArg Alarm.deadline (Arming.alarm_fire a s.now))
          (by rw [hround]; exact hc) (by rw [hround, hfire])
          (by rw [hround, hfire]; exact fun _ h => h) (by rw [hround, hfire])
        rw [if_pos ⟨hdue, hper⟩]
        refine ⟨and_congr_right' (hiff.trans ⟨fun h _ => h, fun h => h ⟨hdue, hper⟩⟩), ?_⟩
        intro hturn
        exact hok (hturn.2 ⟨hdue, hper⟩)
      · rw [if_neg hper] at hc
        rw [if_neg fun hd => hper hd.2, hround, hc]
        refine ⟨and_congr_right' (iff_of_true nofun fun hd => absurd hd.2 hper), fun _ => ?_⟩
        exact h0.account hnot rfl (by rw [hfire]) (by rw [hfire]; exact fun _ h => h)
          (by rw [hfire])

/-- **One step** compares nothing whose difference is out of range exactly if the guard holds, and
    then keeps the list sorted. -/
theorem SignedOk.step (h : SignedOk s) {a : TimerAct I} (hs : timerStep a s = some s') :
    ((∀ p ∈ timerPairs a s, InInt32 p) ↔ NoTurn (s, log) a) ∧
    (NoTurn (s, log) a → SignedOk s') := by
  cases a with
  | cancel x =>
    cases hs
    refine ⟨iff_of_true nofun trivial, fun _ => ?_⟩
    rw [fxTimerInternalCancel_ctx]
    exact (h.drop List.erase_sublist).account (x := x) h.nodup.not_mem_erase rfl rfl
      (fun _ hc => hc) rfl
  | read x delay period =>
    cases hs
    refine ⟨iff_of_true nofun trivial, fun _ => ?_⟩
    refine ⟨h.ticks, fun c hc => ?_, h.nodup, h.sorted, h.timeout, h.armed⟩
    rcases List.mem_append.mp hc with hc | hc
    · exact h.calls c hc
    · obtain rfl := List.mem_singleton.mp hc
      exact h.ticks
  | arm n =>
    cases hc : s.calls[n]? with
    | none => simp [timerStep, hc] at hs
    | some c =>
      simp only [timerStep, hc] at hs
      obtain ⟨_, rfl⟩ := taken hs
      have hguard : NoTurn (s, log) (.arm n) ↔
          OneEra s.next (s.ctx.timers.erase c.timer) c.deadline :=
        ⟨fun h => h c hc, fun h c' hc' => Option.some.inj (hc.symm.trans hc') ▸ h⟩
      obtain ⟨hiff, hok⟩ := h.arm (List.mem_of_getElem? hc) n
      rw [hguard]
      simp only [timerPairs, hc, Option.map_some, Option.getD_some]
      exact ⟨hiff, hok⟩
  | tick =>
    obtain ⟨_, hs⟩ := Option.ite_none_left_eq_some.mp hs
    cases hs
    have hticked : SignedOk s.ticked := by
      refine ⟨?_, h.calls, h.nodup, h.sorted, h.timeout, h.armed⟩
      show s.ctx.ticks + 1 = BitVec.ofNat 32 (s.now + 1)
      rw [h.ticks, BitVec.ofNat_add]
      rfl
    exact hticked.round
  | next =>
    obtain ⟨_, rfl⟩ := taken hs
    exact h.round

theorem timerStart_signed (ticks : BitVec 32) : SignedOk (timerStart ticks : TimerSys I) :=
  ⟨(timerStart_ok ticks).alarms.ticks, nofun, List.nodup_nil, List.Pairwise.nil, nofun, nofun⟩

end Schritte

/-- **No subtraction leaves the range of its type** in any run in which the turns between the values
    that are compared fit; the first step in which they do not makes one that does. -/
theorem signed_compare {ticks : BitVec 32} {s : TimerSys I} {log : List (BitVec 32 × BitVec 32)}
    (h : Reach (noted timerStep timerNote) NoTurn (timerStart ticks, []) (s, log)) :
    (∀ p ∈ log, InInt32 p) ∧
    ∀ a s', timerStep a s = some s' → ((∀ p ∈ timerPairs a s, InInt32 p) ↔ NoTurn (s, log) a) := by
  have hrun : SignedOk s ∧ ∀ p ∈ log, InInt32 p := by
    refine h.inv (J := fun w => SignedOk w.1 ∧ ∀ p ∈ w.2, InInt32 p)
      ⟨timerStart_signed ticks, fun _ hp => absurd hp List.not_mem_nil⟩ fun w a w' hj hg hs => ?_
    obtain ⟨hs, hlog⟩ := noted_some hs
    obtain ⟨hiff, hok⟩ : (_ ↔ NoTurn (w.1, w.2) a) ∧ (_ → SignedOk w'.1) := hj.1.step hs
    refine ⟨hok hg, ?_⟩
    rw [hlog]
    exact List.forall_mem_append.mpr ⟨hiff.mpr hg, hj.2⟩
  exact ⟨hrun.2, fun a s' hs => (hrun.1.step hs).1⟩

/-- The counter wraps around to zero, with a periodic timer armed, and another one by a call that
    a tick comes in between: it does not turn. -/
theorem signed_compare_wrap : ∃ (s : TimerSys Bool) (log : List (BitVec 32 × BitVec 32)),
    Reach (noted timerStep timerNote) NoTurn (timerStart 0xFFFFFFFE#32, []) (s, log) ∧
    s.ctx.ticks = 0#32 ∧ log.length = 4 ∧ ∀ p ∈ log, InInt32 p := by
  let acts : List (TimerAct Bool) :=
    [.read false ⟨1#32, by decide⟩ ⟨3#32, by decide⟩,
      .read true ⟨9#32, by decide⟩ ⟨0#32, by decide⟩, .arm 0, .tick, .next, .arm 0, .tick]
  have hrun : (runIf (fun w a => decide (NoTurn w a)) (noted timerStep timerNote) acts
      (timerStart 0xFFFFFFFE#32, [])).any (fun w =>
        w.1.ctx.ticks = 0#32 ∧ w.2.length = 4) = true := by
    decide +kernel
  obtain ⟨⟨s, log⟩, hr, hp⟩ := exists_of_runIf (G := NoTurn) (fun _ _ hg => of_decide_eq_true hg)
    hrun
  obtain ⟨hticks, hlen⟩ := of_decide_eq_true hp
  exact ⟨s, log, hr, hticks, hlen, (signed_compare hr).1⟩

/-- **A subtraction out of range**: one timer armed for five ticks at the count 0x7FFFFFFE, and the
    next tick. -/
theorem signed_compare_overflows : ∃ s s' : TimerSys Bool,
    Reach timerStep Always (timerStart 0x7FFFFFFE#32) s ∧ timerStep .tick s = some s' ∧
    (0x7FFFFFFF#32, 0x80000003#32) ∈ timerPairs .tick s ∧
    ¬ InInt32 (0x7FFFFFFF#32, 0x80000003#32) := by
  let acts : List (TimerAct Bool) := [.read false ⟨5#32, by decide⟩ ⟨0#32, by decide⟩, .arm 0]
  have hrun : (run timerStep acts (timerStart 0x7FFFFFFE#32)).any (fun s =>
      (timerStep .tick s).isSome ∧ (0x7FFFFFFF#32, 0x80000003#32) ∈ timerPairs .tick s) = true := by
    decide +kernel
  obtain ⟨s, hr, hp⟩ := exists_of_run hrun
  obtain ⟨hstep, hpair⟩ := of_decide_eq_true hp
  obtain ⟨s', hs⟩ := Option.isSome_iff_exists.mp hstep
  refine ⟨s, s', hr, hs, hpair, ?_⟩
  unfold InInt32
  decide

end FxRtos
