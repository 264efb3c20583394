/-
  File:      FxRtos/Lib/Machine.lean
  Subject:   MACHINE CODE. A function of machine code is a list of instructions; `exec` says what
             one of them does to the state of the processor and where control goes on.

  * `steps`, `Leads` -- the code executed on its own.
  * `leads_loop` -- the rule for a loop: an invariant, and a measure that every round lowers.
  * `CodeMove`, `Ends` -- the code with interference: between two instructions, `env` may change the
    state, any number of times; `fn` is what a called function may do to it.
  * `Annotated` -- the rule for code with interference: an assertion for every instruction, kept
    by the instruction before it and by the environment.
  * `Ends.instr`, `Ends.callee`, `Ends.still` -- a run taken apart: an instruction, a call, an
    instruction that the environment cannot disturb.
  * `Line`, `Ends.line` -- instructions one after the other: a run with interference stays close to
    the one without.
-/
import Mathlib.Logic.Relation

namespace FxRtos.Lib

open Relation (ReflTransGen)

/-- What an instruction does; `φ` are the functions that are called by name. -/
inductive Flow (φ σ : Type*) where
  -- the next instruction
  | next (s : σ)
  | jump (pc : Nat) (s : σ)
  -- another function, and then the next instruction
  | call (f : φ) (s : σ)
  -- the code is left, and not entered again
  | leave (s : σ)
  | fault

/-- How far the code is: before an instruction, in a function that returns to one, left, or stopped
    by a fault. -/
inductive Point (φ σ : Type*) where
  | before (pc : Nat) (s : σ)
  | called (f : φ) (pc : Nat) (s : σ)
  | left (s : σ)
  | fault

variable {ι φ σ : Type*}

def Flow.point (pc : Nat) : Flow φ σ → Point φ σ
  | .next s => .before (pc + 1) s
  | .jump pc' s => .before pc' s
  | .call f s => .called f (pc + 1) s
  | .leave s => .left s
  | .fault => .fault

/-- The instruction at `pc`; there is none after the last one. -/
def execAt (exec : ι → σ → Flow φ σ) (code : List ι) (pc : Nat) (s : σ) : Point φ σ :=
  (code[pc]?.elim .fault fun i => exec i s).point pc

/-- One instruction, if there is one to execute. -/
def Point.step (exec : ι → σ → Flow φ σ) (code : List ι) : Point φ σ → Point φ σ
  | .before pc s => execAt exec code pc s
  | p => p

def steps (exec : ι → σ → Flow φ σ) (code : List ι) : Nat → Point φ σ → Point φ σ
  | 0, p => p
  | n + 1, p => steps exec code n (p.step exec code)

def Point.isLeft : Point φ σ → Bool
  | .left _ => true
  | _ => false

variable {exec : ι → σ → Flow φ σ} {code : List ι} {pc : Nat} {s s' : σ} {p q : Point φ σ}

theorem execAt_of {i : ι} (h : code[pc]? = some i) :
    execAt exec code pc s = (exec i s).point pc := by
  rw [execAt, h]
  rfl

/-! ## 1. The code on its own -/

/-- From `p` the code comes to `q`. -/
def Leads (exec : ι → σ → Flow φ σ) (code : List ι) (p q : Point φ σ) : Prop :=
  ∃ n, steps exec code n p = q

theorem steps_add (n m : Nat) (p : Point φ σ) :
    steps exec code (n + m) p = steps exec code m (steps exec code n p) := by
  induction n generalizing p with
  | zero => rw [Nat.zero_add]; rfl
  | succ n ih => rw [Nat.succ_add]; exact ih _

theorem Leads.refl (p : Point φ σ) : Leads exec code p p := ⟨0, rfl⟩

theorem Leads.trans {r : Point φ σ} (h1 : Leads exec code p q) (h2 : Leads exec code q r) :
    Leads exec code p r := by
  obtain ⟨n, rfl⟩ := h1
  obtain ⟨m, rfl⟩ := h2
  exact ⟨n + m, steps_add n m p⟩

theorem Leads.next {i : ι} (hi : code[pc]? = some i) (he : exec i s = .next s') :
    Leads exec code (.before pc s) (.before (pc + 1) s') :=
  ⟨1, by rw [steps, Point.step, execAt_of hi, he]; rfl⟩

theorem Leads.jump {i : ι} {l : Nat} (hi : code[pc]? = some i) (he : exec i s = .jump l s') :
    Leads exec code (.before pc s) (.before l s') :=
  ⟨1, by rw [steps, Point.step, execAt_of hi, he]; rfl⟩

theorem Leads.leave {i : ι} (hi : code[pc]? = some i) (he : exec i s = .leave s') :
    Leads exec code (.before pc s) (.left s') :=
  ⟨1, by rw [steps, Point.step, execAt_of hi, he]; rfl⟩

/-- **The rule for a loop** at `pc`: every round that does not come to its end starts over with a
    smaller measure. -/
theorem leads_loop {I : Nat → σ → Prop} {Q : Point φ σ → Prop}
    (hround : ∀ n s, I n s → (∃ q, Leads exec code (.before pc s) q ∧ Q q) ∨
      ∃ m s', m < n ∧ I m s' ∧ Leads exec code (.before pc s) (.before pc s'))
    (n : Nat) (s : σ) (h : I n s) : ∃ q, Leads exec code (.before pc s) q ∧ Q q := by
  induction n using Nat.strongRecOn generalizing s with
  | ind n ih =>
    obtain hend | ⟨m, s', hm, hI, hlead⟩ := hround n s h
    · exact hend
    · obtain ⟨q, hq, hQ⟩ := ih m hm s' hI
      exact ⟨q, hlead.trans hq, hQ⟩

/-! ## 2. The code with interference -/

/-- One move: an instruction, the environment between two of them, or a called function. -/
inductive CodeMove (exec : ι → σ → Flow φ σ) (code : List ι) (fn : φ → σ → σ → Prop)
    (env : σ → σ → Prop) :
    Point φ σ → Point φ σ → Prop where
  | instr (pc : Nat) (s : σ) :
      CodeMove exec code fn env (.before pc s) (execAt exec code pc s)
  | callee (f : φ) (pc : Nat) {s s' : σ} (h : fn f s s') :
      CodeMove exec code fn env (.called f pc s) (.before pc s')
  | env (pc : Nat) {s s' : σ} (h : env s s') :
      CodeMove exec code fn env (.before pc s) (.before pc s')

/-- The code has come to an end. -/
def Point.Over : Point φ σ → Prop
  | .before _ _ => False
  | .called _ _ _ => False
  | _ => True

/-- A run with interference from `p` to its end `q`. -/
structure Ends (exec : ι → σ → Flow φ σ) (code : List ι) (fn : φ → σ → σ → Prop)
    (env : σ → σ → Prop)
    (p q : Point φ σ) : Prop where
  run : ReflTransGen (CodeMove exec code fn env) p q
  ended : q.Over

variable {fn : φ → σ → σ → Prop} {env : σ → σ → Prop}

/-- A point at which its assertion holds: `A` before an instruction, `C` in a called function, `Q`
    at the end. No fault is one. -/
def Point.Fits (A : Nat → σ → Prop) (C : φ → Nat → σ → Prop) (Q : σ → Prop) : Point φ σ → Prop
  | .before pc s => A pc s
  | .called f pc s => C f pc s
  | .left s => Q s
  | .fault => False

/-- Code with an assertion before every instruction and in every call. -/
structure Annotated (exec : ι → σ → Flow φ σ) (code : List ι) (fn : φ → σ → σ → Prop)
    (env : σ → σ → Prop)
    (A : Nat → σ → Prop) (C : φ → Nat → σ → Prop) (Q : σ → Prop) : Prop where
  instr : ∀ pc s, A pc s → (execAt exec code pc s).Fits A C Q
  callee : ∀ f pc s s', C f pc s → fn f s s' → A pc s'
  env : ∀ pc s s', A pc s → env s s' → A pc s'

section Annotiert

variable {A : Nat → σ → Prop} {C : φ → Nat → σ → Prop} {Q : σ → Prop}

/-- **The rule for code with interference**: the assertions hold wherever a run comes to. -/
theorem Annotated.fits (h : Annotated exec code fn env A C Q) (hp : p.Fits A C Q)
    (hr : ReflTransGen (CodeMove exec code fn env) p q) : q.Fits A C Q := by
  induction hr with
  | refl => exact hp
  | tail _ hm ih =>
    cases hm with
    | instr pc s => exact h.instr pc s ih
    | callee f pc hc => exact h.callee f pc _ _ ih hc
    | env pc he => exact h.env pc _ _ ih he

theorem Annotated.ends (h : Annotated exec code fn env A C Q) (hp : p.Fits A C Q)
    (hr : Ends exec code fn env p q) : ∃ s, q = .left s ∧ Q s := by
  have hq := h.fits hp hr.run
  cases q with
  | before pc s => exact hr.ended.elim
  | called f pc s => exact hr.ended.elim
  | left s => exact ⟨s, rfl, hq⟩
  | fault => exact hq.elim

end Annotiert

/-- **One instruction of a run**: the environment first, then the instruction. -/
theorem Ends.instr (h : Ends exec code fn env (.before pc s) q) :
    ∃ s', ReflTransGen env s s' ∧ Ends exec code fn env (execAt exec code pc s') q := by
  obtain ⟨hr, ho⟩ := h
  generalize hp : Point.before pc s = p at hr
  induction hr using ReflTransGen.head_induction_on generalizing s with
  | refl => exact (hp ▸ ho : (Point.before pc s).Over).elim
  | head hm hrest ih =>
    subst hp
    cases hm with
    | instr => exact ⟨s, .refl, hrest, ho⟩
    | env _ he =>
      obtain ⟨s', hs, hend⟩ := ih rfl
      exact ⟨s', .head he hs, hend⟩

/-- The code on its own is one of its runs. -/
theorem Leads.run (h : Leads exec code p q) : ReflTransGen (CodeMove exec code fn env) p q := by
  obtain ⟨n, rfl⟩ := h
  induction n generalizing p with
  | zero => exact .refl
  | succ n ih =>
    cases p with
    | before pc s => exact .head (.instr pc s) ih
    | _ => exact ih

/-- A called function of a run. -/
theorem Ends.callee {f : φ} (h : Ends exec code fn env (.called f pc s) q) :
    ∃ s', fn f s s' ∧ Ends exec code fn env (.before pc s') q := by
  obtain ⟨hr, ho⟩ := h
  obtain rfl | ⟨p, hm, hrest⟩ := hr.cases_head
  · exact ho.elim
  · cases hm with
    | callee _ _ hc => exact ⟨_, hc, hrest, ho⟩

/-- **An instruction that cannot be disturbed.** -/
theorem Ends.still (hq : ∀ s', ¬ env s s') (h : Ends exec code fn env (.before pc s) q) :
    Ends exec code fn env (execAt exec code pc s) q := by
  obtain ⟨s', hs, hend⟩ := h.instr
  obtain rfl | ⟨s1, he, _⟩ := hs.cases_head
  · exact hend
  · exact (hq s1 he).elim

theorem Ends.left (h : Ends exec code fn env (.left s) q) : q = .left s := by
  obtain rfl | ⟨p, hm, _⟩ := h.run.cases_head
  · rfl
  · cases hm

/-! ## 3. Straight lines -/

/-- The instructions `is` take `t` to `t'`, and each is `Safe` where it is executed. -/
inductive Line (exec : ι → σ → Flow φ σ) (Safe : ι → σ → Prop) : List ι → σ → σ → Prop where
  | nil (t : σ) : Line exec Safe [] t t
  | cons {i : ι} {is : List ι} {t t1 t' : σ} (hs : Safe i t) (he : exec i t = .next t1)
      (h : Line exec Safe is t1 t') : Line exec Safe (i :: is) t t'

theorem Line.append {Safe : ι → σ → Prop} {is js : List ι} {t t1 t' : σ}
    (h : Line exec Safe is t t1) (h' : Line exec Safe js t1 t') :
    Line exec Safe (is ++ js) t t' := by
  induction h with
  | nil => exact h'
  | cons hs he _ ih => exact .cons hs he (ih h')

theorem Line.leads {Safe : ι → σ → Prop} {is rest : List ι} {t t' : σ}
    (h : Line exec Safe is t t') (hcode : code.drop pc = is ++ rest) :
    Leads exec code (.before pc t) (.before (pc + is.length) t') := by
  induction h generalizing pc with
  | nil => exact .refl _
  | @cons i is t t1 t' _ he _ ih =>
    have hi : code[pc]? = some i := by
      rw [← List.head?_drop, hcode]
      rfl
    have hcode' : code.drop (pc + 1) = is ++ rest := by
      rw [← List.drop_drop, hcode]
      rfl
    rw [List.length_cons, Nat.add_comm is.length 1, ← Nat.add_assoc]
    exact (Leads.next hi he).trans (ih hcode')

/-- Neither a jump nor a call. -/
def Flow.Straight : Flow φ σ → Prop
  | .jump _ _ => False
  | .call _ _ => False
  | _ => True

/-- Code without jumps and calls comes to its end. -/
theorem leads_over (h : ∀ i ∈ code.drop pc, ∀ s, (exec i s).Straight) (s : σ) :
    ∃ q, Leads exec code (.before pc s) q ∧ q.Over := by
  obtain ⟨n, hn⟩ : ∃ n, code.length - pc = n := ⟨_, rfl⟩
  induction n generalizing pc s with
  | zero =>
    have hpc : code[pc]? = none := List.getElem?_eq_none (by omega)
    refine ⟨.fault, ⟨1, ?_⟩, trivial⟩
    rw [steps, Point.step, execAt, hpc]
    rfl
  | succ n ih =>
    have hlt : pc < code.length := by omega
    have hi : code[pc]? = some code[pc] := List.getElem?_eq_getElem hlt
    rw [List.drop_eq_getElem_cons hlt] at h
    have hs := h code[pc] List.mem_cons_self s
    have hone : Leads exec code (.before pc s) ((exec code[pc] s).point pc) :=
      ⟨1, by rw [steps, Point.step, execAt_of hi]; rfl⟩
    cases he : exec code[pc] s with
    | next s' =>
      rw [he] at hone
      obtain ⟨q, hq, ho⟩ := ih (fun i hi => h i (List.mem_cons_of_mem _ hi)) s' (by omega)
      exact ⟨q, hone.trans hq, ho⟩
    | jump l s' => exact (he ▸ hs : (Flow.jump l s' : Flow φ σ).Straight).elim
    | call f s' => exact (he ▸ hs : (Flow.call f s' : Flow φ σ).Straight).elim
    | leave s' =>
      rw [he] at hone
      exact ⟨_, hone, trivial⟩
    | fault =>
      rw [he] at hone
      exact ⟨_, hone, trivial⟩

section Gerade

variable {A : σ → σ → Prop} {Safe : ι → σ → Prop}

/-- Whatever is `A`-close to the line without interference before an instruction that is safe is so
    after it, and interference does not matter. -/
structure Follows (exec : ι → σ → Flow φ σ) (env : σ → σ → Prop) (Safe : ι → σ → Prop)
    (A : σ → σ → Prop) : Prop where
  env : ∀ i t s s', Safe i t → A t s → env s s' → A t s'
  instr : ∀ i t t' s, Safe i t → A t s → exec i t = .next t' → ∃ s', exec i s = .next s' ∧ A t' s'

theorem Follows.later {i : ι} {t : σ} (hf : Follows exec env Safe A) (hs : Safe i t) (hA : A t s)
    (h : ReflTransGen env s s') : A t s' := by
  induction h with
  | refl => exact hA
  | tail _ he ih => exact hf.env i t _ _ hs ih he

/-- **The rule for a straight line with interference.** -/
theorem Ends.line {is rest : List ι} {t t' : σ} (hf : Follows exec env Safe A)
    (hl : Line exec Safe is t t') (hcode : code.drop pc = is ++ rest) (hA : A t s)
    (h : Ends exec code fn env (.before pc s) q) :
    ∃ s', A t' s' ∧ Ends exec code fn env (.before (pc + is.length) s') q := by
  induction hl generalizing pc s with
  | nil t => exact ⟨s, hA, h⟩
  | @cons i is t t1 t' hs he _ ih =>
    have hi : code[pc]? = some i := by
      rw [← List.head?_drop, hcode]
      rfl
    obtain ⟨s1, e1, h⟩ := h.instr
    obtain ⟨s2, he2, hA2⟩ := hf.instr i t t1 s1 hs (hf.later hs hA e1) he
    rw [execAt_of hi, he2] at h
    have hcode' : code.drop (pc + 1) = is ++ rest := by
      rw [← List.drop_drop, hcode]
      rfl
    obtain ⟨s', hA', h⟩ := ih hcode' hA2 h
    refine ⟨s', hA', ?_⟩
    rwa [List.length_cons, Nat.add_comm is.length 1, ← Nat.add_assoc]

end Gerade

end FxRtos.Lib
