import Mathlib.Logic.Function.Basic
import RoutingApi.Process.Runs

/-! Programs that act on the world only through calls. One program text has two
readings: `run` executes it alone, and a `Pool` interleaves the calls of many. -/
namespace RoutingApi.Process

/-- A program either returns, fails, or makes a call and continues with the response. -/
inductive Program (C : Type) (R : C → Type) (ε α : Type) where
  | ret (a : α)
  | fail (e : ε)
  | call (c : C) (next : R c → Program C R ε α)

/-- What each call answers, and what it does to the world. -/
abbrev Handler (C : Type) (R : C → Type) (W : Type) := (c : C) → W → R c × W

section Sequential
variable {C : Type} {R : C → Type} {ε α β W : Type}

namespace Program

def bind : Program C R ε α → (α → Program C R ε β) → Program C R ε β
  | .ret a, f => f a
  | .fail e, _ => .fail e
  | .call c next, f => .call c fun r => (next r).bind f

instance : Monad (Program C R ε) where
  pure := .ret
  bind := bind

/-- A single call, with its response as the result. -/
def perform (c : C) : Program C R ε (R c) := .call c .ret

def ofExcept : Except ε α → Program C R ε α
  | .ok a => .ret a
  | .error e => .fail e

@[simp] theorem pure_def (a : α) : (pure a : Program C R ε α) = .ret a := rfl

@[simp] theorem ret_bind (a : α) (f : α → Program C R ε β) : (ret a >>= f) = f a := rfl

@[simp] theorem fail_bind (e : ε) (f : α → Program C R ε β) : (fail e >>= f) = fail e := rfl

@[simp] theorem call_bind (c : C) (next : R c → Program C R ε α) (f : α → Program C R ε β) :
    (call c next >>= f) = call c fun r => next r >>= f := rfl

@[simp] theorem perform_bind (c : C) (f : R c → Program C R ε β) :
    (perform c >>= f) = call c f := rfl

@[simp] theorem ofExcept_ok (a : α) : (ofExcept (.ok a) : Program C R ε α) = .ret a := rfl

@[simp] theorem ofExcept_error (e : ε) : (ofExcept (.error e) : Program C R ε α) = .fail e := rfl

theorem bind_assoc {γ : Type} (p : Program C R ε α) (f : α → Program C R ε β)
    (g : β → Program C R ε γ) : (p >>= f) >>= g = p >>= fun a => f a >>= g := by
  induction p with
  | ret a => rfl
  | fail e => rfl
  | call c next ih =>
    simp only [call_bind]
    congr 1
    funext r
    exact ih r

/-- Run to completion with nobody else acting. -/
def run (h : Handler C R W) : Program C R ε α → W → Except ε α × W
  | .ret a, w => (.ok a, w)
  | .fail e, w => (.error e, w)
  | .call c next, w => (next (h c w).1).run h (h c w).2

@[simp] theorem run_ret (h : Handler C R W) (a : α) (w : W) :
    (ret a : Program C R ε α).run h w = (.ok a, w) := rfl

@[simp] theorem run_fail (h : Handler C R W) (e : ε) (w : W) :
    (fail e : Program C R ε α).run h w = (.error e, w) := rfl

@[simp] theorem run_call (h : Handler C R W) (c : C) (next : R c → Program C R ε α) (w : W) :
    (call c next).run h w = (next (h c w).1).run h (h c w).2 := rfl

theorem run_bind (h : Handler C R W) (p : Program C R ε α) (f : α → Program C R ε β) (w : W) :
    (p >>= f).run h w = match p.run h w with
      | (.ok a, w') => (f a).run h w'
      | (.error e, w') => (.error e, w') := by
  induction p generalizing w with
  | ret a => rfl
  | fail e => rfl
  | call c next ih => exact ih _ _

theorem run_bind_ok {h : Handler C R W} {p : Program C R ε α} {f : α → Program C R ε β}
    {w w' : W} {a : α} (hp : p.run h w = (.ok a, w')) :
    (p >>= f).run h w = (f a).run h w' := by
  rw [run_bind, hp]

theorem run_bind_error {h : Handler C R W} {p : Program C R ε α} {f : α → Program C R ε β}
    {w w' : W} {e : ε} (hp : p.run h w = (.error e, w')) :
    (p >>= f).run h w = (.error e, w') := by
  rw [run_bind, hp]

/-- Turn the errors that `catches` accepts into results; the others still end the program. -/
def attempt (catches : ε → Bool) : Program C R ε α → Program C R ε (Except ε α)
  | .ret a => .ret (.ok a)
  | .fail e => if catches e then .ret (.error e) else .fail e
  | .call c next => .call c fun r => (next r).attempt catches

theorem run_attempt (h : Handler C R W) (catches : ε → Bool) (p : Program C R ε α) (w : W) :
    (p.attempt catches).run h w = match p.run h w with
      | (.ok a, w') => (.ok (.ok a), w')
      | (.error e, w') => (if catches e then .ok (.error e) else .error e, w') := by
  induction p generalizing w with
  | ret a => rfl
  | fail e =>
    simp only [attempt, run_fail]
    split <;> rfl
  | call c next ih => exact ih _ _

/-- An attempt that catches every error of the program always returns. -/
theorem run_attempt_caught {h : Handler C R W} {catches : ε → Bool} {p : Program C R ε α} {w : W}
    (hp : ∀ e, (p.run h w).1 = .error e → catches e = true) :
    (p.attempt catches).run h w = (.ok (p.run h w).1, (p.run h w).2) := by
  rw [run_attempt]
  match hr : p.run h w with
  | (.ok a, w') => rfl
  | (.error e, w') => simp [hp e (by rw [hr])]

/-- One call, the unit of interleaving. A finished program does nothing. -/
def advance (h : Handler C R W) : Program C R ε α → W → Program C R ε α × W
  | .call c next, w => (next (h c w).1, (h c w).2)
  | p, w => (p, w)

/-- The call a program is about to make. -/
def next? : Program C R ε α → Option C
  | .call c _ => some c
  | _ => none

/-- The error of a program that has failed. -/
def error? : Program C R ε α → Option ε
  | .fail e => some e
  | _ => none

/-- The result of a program that has returned. -/
def value? : Program C R ε α → Option α
  | .ret a => some a
  | _ => none

theorem value?_eq_some {p : Program C R ε α} {a : α} : p.value? = some a ↔ p = .ret a := by
  cases p <;> simp [value?]

def Finished (p : Program C R ε α) : Prop := p.next? = none

instance : (p : Program C R ε α) → Decidable p.Finished
  | .ret _ => isTrue rfl
  | .fail _ => isTrue rfl
  | .call _ _ => isFalse (by simp [Finished, next?])

@[simp] theorem advance_call (h : Handler C R W) (c : C) (next : R c → Program C R ε α) (w : W) :
    (call c next).advance h w = (next (h c w).1, (h c w).2) := rfl

@[simp] theorem next?_call (c : C) (next : R c → Program C R ε α) :
    (call c next).next? = some c := rfl

theorem Finished.bind {p : Program C R ε α} {f : α → Program C R ε β} (hp : p.Finished)
    (hf : ∀ a, (f a).Finished) : (p >>= f).Finished := by
  cases p with
  | ret a => exact hf a
  | fail e => rfl
  | call c next => cases hp

theorem Finished.attempt {p : Program C R ε α} {catches : ε → Bool} (hp : p.Finished) :
    (p.attempt catches).Finished := by
  cases p with
  | ret a => rfl
  | fail e =>
    unfold Program.attempt
    split <;> rfl
  | call c next => cases hp

/-- A program that makes exactly one call. -/
def Single (p : Program C R ε α) : Prop := ∃ c next, p = call c next ∧ ∀ r, (next r).Finished

theorem Single.bind {p : Program C R ε α} {f : α → Program C R ε β} (hp : p.Single)
    (hf : ∀ a, (f a).Finished) : (p >>= f).Single := by
  obtain ⟨c, next, rfl, hnext⟩ := hp
  exact ⟨c, fun r => next r >>= f, rfl, fun r => (hnext r).bind hf⟩

theorem Single.attempt {p : Program C R ε α} {catches : ε → Bool} (hp : p.Single) :
    (p.attempt catches).Single := by
  obtain ⟨c, next, rfl, hnext⟩ := hp
  exact ⟨c, fun r => (next r).attempt catches, rfl, fun r => (hnext r).attempt⟩

/-- One step of a program that begins with a single call runs that call's program to its end. -/
theorem Single.advance_bind {p : Program C R ε α} (hp : p.Single) (f : α → Program C R ε β)
    (h : Handler C R W) (w : W) :
    (p >>= f).advance h w = (match (p.run h w).1 with
      | .ok a => f a
      | .error e => .fail e, (p.run h w).2) := by
  obtain ⟨c, next, rfl, hnext⟩ := hp
  have hfin := hnext (h c w).1
  simp only [call_bind, advance_call, run_call]
  cases hr : next (h c w).1 with
  | ret a => rfl
  | fail e => rfl
  | call c' next' =>
    rw [hr] at hfin
    cases hfin

end Program
end Sequential

/-- A move of a pool: the environment acts, or one thread makes its next call. -/
inductive Move (A ι : Type) where
  | env (a : A)
  | step (i : ι)
  deriving DecidableEq, Repr

structure Pool (C : Type) (R : C → Type) (ε α W ι : Type) where
  world : W
  threads : ι → Program C R ε α

namespace Pool
variable {C : Type} {R : C → Type} {ε α W ι A : Type} [DecidableEq ι]
variable (h : Handler C R W) (act : A → W → W)

def move (P : Pool C R ε α W ι) : Move A ι → Pool C R ε α W ι
  | .env a => { P with world := act a P.world }
  | .step i =>
    let r := (P.threads i).advance h P.world
    ⟨r.2, Function.update P.threads i r.1⟩

end Pool

/-- Named control points for the residual programs of a family of threads. The
programs stay the model; a chart only lets proofs speak about where a thread is. -/
structure Chart {C : Type} {R : C → Type} {W : Type} (h : Handler C R W) (ε α Pt : Type) where
  prog : Pt → Program C R ε α
  next : Pt → W → Pt
  advance_fst : ∀ p w, ((prog p).advance h w).1 = prog (next p w)

namespace Chart
variable {C : Type} {R : C → Type} {ε α W ι A Pt : Type}
variable {h : Handler C R W} (K : Chart h ε α Pt)

/-- What the next call of a thread does to the world. -/
def step (p : Pt) (w : W) : W := ((K.prog p).advance h w).2

/-- The pool whose threads stand at the given points. -/
def pool (w : W) (pts : ι → Pt) : Pool C R ε α W ι := ⟨w, fun i => K.prog (pts i)⟩

@[simp] theorem pool_world (w : W) (pts : ι → Pt) : (K.pool w pts).world = w := rfl

@[simp] theorem pool_threads (w : W) (pts : ι → Pt) (i : ι) :
    (K.pool w pts).threads i = K.prog (pts i) := rfl

variable [DecidableEq ι] {act : A → W → W}

theorem move_step (w : W) (pts : ι → Pt) (i : ι) :
    (K.pool w pts).move h act (.step i) =
      K.pool (K.step (pts i) w) (Function.update pts i (K.next (pts i) w)) := by
  simp only [Pool.move, pool, step]
  congr 1
  funext j
  by_cases hj : j = i
  · subst hj
    simp [K.advance_fst]
  · simp [hj]

@[simp] theorem move_env (w : W) (pts : ι → Pt) (a : A) :
    (K.pool w pts).move h act (.env a) = K.pool (act a w) pts := rfl

/-- The pool is one whose threads stand at points that satisfy `J`. -/
def At (J : W → (ι → Pt) → Prop) (P : Pool C R ε α W ι) : Prop :=
  ∃ pts, P = K.pool P.world pts ∧ J P.world pts

variable {K} {J J' : W → (ι → Pt) → Prop} {Q : Pool C R ε α W ι → Move A ι → Prop}

/-- A pool moves from points that satisfy `J` to points that satisfy `J'` when every kind of
move does; with one predicate for both this is how an invariant is kept. -/
theorem at_move (henv : ∀ w pts a, J w pts → Q (K.pool w pts) (.env a) → J' (act a w) pts)
    (hstep : ∀ w pts i, J w pts → Q (K.pool w pts) (.step i) →
      J' (K.step (pts i) w) (Function.update pts i (K.next (pts i) w)))
    (P : Pool C R ε α W ι) (m : Move A ι) (hP : K.At J P) (hQ : Q P m) :
    K.At J' (P.move h act m) := by
  obtain ⟨pts, heq, hJ⟩ := hP
  rw [heq] at hQ ⊢
  cases m with
  | env a => exact ⟨pts, rfl, henv _ _ a hJ hQ⟩
  | step i =>
    rw [K.move_step]
    exact ⟨_, rfl, hstep _ _ i hJ hQ⟩

section Observed
variable {O : Type} {f : Pool C R ε α W ι → Move A ι → O → O}
variable {J : W → (ι → Pt) → O → Prop} {Q : Pool C R ε α W ι × O → Move A ι → Prop}

/-- The same with a history variable. -/
theorem at_observed
    (henv : ∀ w pts o a, J w pts o → Q (K.pool w pts, o) (.env a) →
      J (act a w) pts (f (K.pool w pts) (.env a) o))
    (hstep : ∀ w pts o i, J w pts o → Q (K.pool w pts, o) (.step i) →
      J (K.step (pts i) w) (Function.update pts i (K.next (pts i) w))
        (f (K.pool w pts) (.step i) o))
    (S : Pool C R ε α W ι × O) (m : Move A ι) (hS : K.At (fun w pts => J w pts S.2) S.1)
    (hQ : Q S m) :
    K.At (fun w pts => J w pts (observed (Pool.move h act) f S m).2)
      (observed (Pool.move h act) f S m).1 := by
  obtain ⟨P, o⟩ := S
  obtain ⟨pts, heq, hJ⟩ := hS
  rw [show P = K.pool P.world pts from heq] at hQ ⊢
  cases m with
  | env a => exact ⟨pts, rfl, henv _ _ o a hJ hQ⟩
  | step i =>
    simp only [observed]
    rw [K.move_step]
    exact ⟨_, rfl, hstep _ _ o i hJ hQ⟩

end Observed
end Chart
end RoutingApi.Process
