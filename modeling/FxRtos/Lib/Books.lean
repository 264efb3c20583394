/-
  File:      FxRtos/Lib/Books.lean
  Subject:   BOOKS ON TOKENS. Numbered tokens are kept in places, accepted and consumed; a token
             that was accepted is consumed at most once, and until then lies in one place.

  * `Books` -- what was accepted and consumed so far, and the number of the next token.
  * `Kept` -- the books fit the places: `stock` is what the places hold that is still to be
    consumed, `spent` what lies about besides and may not be consumed again.
  * `Kept.note` -- one step: tokens are moved, a new one comes in, one goes out.
-/
import Mathlib.Data.List.Nodup

namespace FxRtos.Lib

structure Books (τ : Type*) where
  next : Nat
  accepted : List τ
  consumed : List τ

variable {τ P X : Type*} {serial : τ → Nat}

def Books.empty (τ : Type*) : Books τ := ⟨0, [], []⟩

/-- One step written down, with the token that it accepts and the one that it consumes. -/
def Books.note (L : Books τ) (acc con : Option τ) : Books τ :=
  ⟨L.next + 1, acc.toList ++ L.accepted, con.toList ++ L.consumed⟩

structure Kept (serial : τ → Nat) (L : Books τ) (stock : P → Option τ) (spent : X → Option τ) :
    Prop where
  once : ∀ p p' m, stock p = some m → stock p' = some m → p = p'
  unread : ∀ p m, stock p = some m → m ∉ L.consumed
  kept : ∀ m ∈ L.accepted, m ∈ L.consumed ∨ ∃ p, stock p = some m
  stale : ∀ x m, spent x = some m → m ∈ L.accepted → m ∈ L.consumed
  nodup : L.consumed.Nodup
  stock_lt : ∀ p m, stock p = some m → serial m < L.next
  spent_lt : ∀ x m, spent x = some m → serial m < L.next
  accepted_lt : ∀ m ∈ L.accepted, serial m < L.next
  consumed_lt : ∀ m ∈ L.consumed, serial m < L.next

variable {L : Books τ} {stock stock' : P → Option τ} {spent spent' : X → Option τ}
  {acc con : Option τ}

theorem kept_empty (serial : τ → Nat) (h : ∀ p, stock p = none) (h' : ∀ x, spent x = none) :
    Kept serial (Books.empty τ) stock spent where
  once p _ m hp := by rw [h p] at hp; cases hp
  unread p m hp := by rw [h p] at hp; cases hp
  kept _ hm := absurd hm List.not_mem_nil
  stale x m hx := by rw [h' x] at hx; cases hx
  nodup := List.nodup_nil
  stock_lt p m hp := by rw [h p] at hp; cases hp
  spent_lt x m hx := by rw [h' x] at hx; cases hx
  accepted_lt _ hm := absurd hm List.not_mem_nil
  consumed_lt _ hm := absurd hm List.not_mem_nil

theorem Books.mem_note_accepted {m : τ} :
    m ∈ (L.note acc con).accepted ↔ acc = some m ∨ m ∈ L.accepted := by
  simp [Books.note, List.mem_append, Option.mem_toList]

theorem Books.mem_note_consumed {m : τ} :
    m ∈ (L.note acc con).consumed ↔ con = some m ∨ m ∈ L.consumed := by
  simp [Books.note, List.mem_append, Option.mem_toList]

/-- **One step.** What a place holds came from a place of its own (`origin`), or is the token of
    this step, for which there is one place at most; nothing is lost but what is consumed, and
    only a token from the stock is consumed; what is accepted is the token of this step, and it
    is there. -/
theorem Kept.note (h : Kept serial L stock spent) (origin : P → P) (New : P → Prop)
    (hnew : ∀ p p', New p → New p' → p = p')
    (hfrom : ∀ p m, stock' p = some m →
      stock (origin p) = some m ∨ (serial m = L.next ∧ New p))
    (hinj : ∀ p p', origin p = origin p' → p = p')
    (hkeep : ∀ p m, stock p = some m → (∃ p', stock' p' = some m) ∨ con = some m)
    (hcon : ∀ m, con = some m → (∃ p, stock p = some m) ∧ ∀ p, stock' p ≠ some m)
    (hacc : ∀ m, acc = some m → serial m = L.next ∧ ∃ p, stock' p = some m)
    (hspent : ∀ x m, spent' x = some m →
      spent x = some m ∨ con = some m ∨ (serial m = L.next ∧ acc ≠ some m)) :
    Kept serial (L.note acc con) stock' spent' := by
  have hlt : ∀ m, serial m < L.next → serial m < (L.note acc con).next := fun m hm =>
    Nat.lt_succ_of_lt hm
  have hself : ∀ m, serial m = L.next → serial m < (L.note acc con).next := fun m hm =>
    Nat.lt_succ_of_le (Nat.le_of_eq hm)
  refine ⟨fun p p' m hp hp' => ?_, fun p m hp hm => ?_, fun m hm => ?_, fun x m hx hm => ?_, ?_,
    fun p m hp => ?_, fun x m hx => ?_, fun m hm => ?_, fun m hm => ?_⟩
  · rcases hfrom p m hp with h1 | ⟨h1, e1⟩
    · rcases hfrom p' m hp' with h2 | ⟨h2, _⟩
      · exact hinj p p' (h.once _ _ m h1 h2)
      · exact absurd (h.stock_lt _ m h1) (h2 ▸ Nat.lt_irrefl _)
    · rcases hfrom p' m hp' with h2 | ⟨_, e2⟩
      · exact absurd (h.stock_lt _ m h2) (h1 ▸ Nat.lt_irrefl _)
      · exact hnew p p' e1 e2
  · rcases Books.mem_note_consumed.mp hm with hc | hc
    · exact (hcon m hc).2 p hp
    · rcases hfrom p m hp with h1 | ⟨h1, _⟩
      · exact h.unread _ m h1 hc
      · exact absurd (h.consumed_lt m hc) (h1 ▸ Nat.lt_irrefl _)
  · rw [Books.mem_note_consumed]
    rcases Books.mem_note_accepted.mp hm with ha | ha
    · exact .inr (hacc m ha).2
    · rcases h.kept m ha with hc | ⟨p, hp⟩
      · exact .inl (.inr hc)
      · exact (hkeep p m hp).elim .inr fun hc => .inl (.inl hc)
  · rw [Books.mem_note_consumed]
    rcases hspent x m hx with h1 | h1 | ⟨h1, h2⟩
    · rcases Books.mem_note_accepted.mp hm with ha | ha
      · exact absurd (h.spent_lt x m h1) ((hacc m ha).1 ▸ Nat.lt_irrefl _)
      · exact .inr (h.stale x m h1 ha)
    · exact .inl h1
    · rcases Books.mem_note_accepted.mp hm with ha | ha
      · exact absurd ha h2
      · exact absurd (h.accepted_lt m ha) (h1 ▸ Nat.lt_irrefl _)
  · cases hc : con with
    | none => exact h.nodup
    | some m =>
      obtain ⟨p, hp⟩ := (hcon m hc).1
      exact List.nodup_cons.mpr ⟨h.unread p m hp, h.nodup⟩
  · rcases hfrom p m hp with h1 | ⟨h1, _⟩
    · exact hlt m (h.stock_lt _ m h1)
    · exact hself m h1
  · rcases hspent x m hx with h1 | h1 | ⟨h1, _⟩
    · exact hlt m (h.spent_lt x m h1)
    · obtain ⟨p, hp⟩ := (hcon m h1).1
      exact hlt m (h.stock_lt p m hp)
    · exact hself m h1
  · rcases Books.mem_note_accepted.mp hm with ha | ha
    · exact hself m (hacc m ha).1
    · exact hlt m (h.accepted_lt m ha)
  · rcases Books.mem_note_consumed.mp hm with hc | hc
    · obtain ⟨p, hp⟩ := (hcon m hc).1
      exact hlt m (h.stock_lt p m hp)
    · exact hlt m (h.consumed_lt m hc)

/-- A step that moves nothing, takes nothing in and gives nothing out. -/
theorem Kept.same (h : Kept serial L stock spent) (hs : ∀ p, stock' p = stock p)
    (hspent : ∀ x m, spent' x = some m → spent x = some m ∨ serial m = L.next) :
    Kept serial (L.note none none) stock' spent' :=
  h.note id (fun _ => False) (fun _ _ hf => hf.elim) (fun p _ hp => .inl ((hs p).symm.trans hp))
    (fun _ _ e => e) (fun p _ hp => .inl ⟨p, (hs p).trans hp⟩) nofun nofun
    fun x m hx => (hspent x m hx).imp_right fun e => .inr ⟨e, nofun⟩

/-- **A token accepted and not yet consumed lies in one place**, whatever else the places hold
    that was consumed before. -/
theorem Kept.unique (h : Kept serial L stock spent) {held : P → Option τ}
    (hstock : ∀ p m, stock p = some m → held p = some m)
    (hheld : ∀ p m, held p = some m → stock p = some m ∨ ∃ x, spent x = some m) {m : τ}
    (hm : m ∈ L.accepted) (hc : m ∉ L.consumed) : ∃! p, held p = some m := by
  obtain ⟨p, hp⟩ := (h.kept m hm).resolve_left hc
  refine ⟨p, hstock p m hp, fun p' hp' => ?_⟩
  rcases hheld p' m hp' with h1 | ⟨x, h1⟩
  · exact h.once p' p m h1 hp
  · exact absurd (h.stale x m h1 hm) hc

end FxRtos.Lib
