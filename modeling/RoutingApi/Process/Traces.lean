import RoutingApi.Process.Program

/-! The calls of a program with the answers they get: when it runs alone, and when it is one
thread among others and only a condition on the world is known at each of its calls. -/
namespace RoutingApi.Process

section Traces
variable {C : Type} {R : C → Type} {ε α β W : Type}

/-- A call with its answer. -/
abbrev Exchange (C : Type) (R : C → Type) := (c : C) × R c

namespace Program

/-- The exchanges of a program that runs alone. -/
def trace (h : Handler C R W) : Program C R ε α → W → List (Exchange C R)
  | .call c next, w => ⟨c, (h c w).1⟩ :: (next (h c w).1).trace h (h c w).2
  | _, _ => []

/-- Some exchange of the program, run alone, has the property. -/
def Occurs (φ : Exchange C R → Prop) (h : Handler C R W) (p : Program C R ε α) (w : W) : Prop :=
  ∃ x ∈ p.trace h w, φ x

section Occurs
variable {φ : Exchange C R → Prop} {h : Handler C R W} {w : W}

@[simp] theorem not_occurs_ret {a : α} : ¬Occurs φ h (ret a : Program C R ε α) w := by
  simp [Occurs, trace]

@[simp] theorem not_occurs_fail {e : ε} : ¬Occurs φ h (fail e : Program C R ε α) w := by
  simp [Occurs, trace]

@[simp] theorem not_occurs_ofExcept {r : Except ε α} :
    ¬Occurs φ h (ofExcept r : Program C R ε α) w := by
  cases r <;> simp

@[simp] theorem occurs_call {c : C} {next : R c → Program C R ε α} :
    Occurs φ h (call c next) w ↔
      φ ⟨c, (h c w).1⟩ ∨ Occurs φ h (next (h c w).1) (h c w).2 := by
  simp [Occurs, trace]

theorem occurs_bind {q : Program C R ε β} {f : β → Program C R ε α} :
    Occurs φ h (q >>= f) w ↔ Occurs φ h q w ∨
      ∃ b, (q.run h w).1 = .ok b ∧ Occurs φ h (f b) (q.run h w).2 := by
  induction q generalizing w with
  | ret b => simp
  | fail e => simp
  | call c next ih =>
    rw [call_bind, occurs_call, ih, occurs_call, run_call, or_assoc]

/-- With all its errors caught, the first program always goes on to the second. -/
theorem occurs_attempt_bind {q : Program C R ε β} {f : Except ε β → Program C R ε α} :
    Occurs φ h (q.attempt (fun _ => true) >>= f) w ↔
      Occurs φ h q w ∨ Occurs φ h (f (q.run h w).1) (q.run h w).2 := by
  induction q generalizing w with
  | ret b => simp [attempt]
  | fail e => simp [attempt]
  | call c next ih =>
    rw [attempt, call_bind, occurs_call, ih, occurs_call, run_call, or_assoc]

theorem run_attempt_bind {q : Program C R ε β} {f : Except ε β → Program C R ε α} :
    (q.attempt (fun _ => true) >>= f).run h w = (f (q.run h w).1).run h (q.run h w).2 := by
  rw [run_bind, run_attempt_caught fun _ _ => rfl]

theorem run_bind_of_ok {q : Program C R ε β} {f : β → Program C R ε α} {b : β}
    (hq : (q.run h w).1 = .ok b) : (q >>= f).run h w = (f b).run h (q.run h w).2 :=
  run_bind_ok (Prod.ext hq rfl)

theorem run_bind_of_error {q : Program C R ε β} {f : β → Program C R ε α} {e : ε}
    (hq : (q.run h w).1 = .error e) : (q >>= f).run h w = (.error e, (q.run h w).2) :=
  run_bind_error (Prod.ext hq rfl)

end Occurs

/-- What a program that has ended has ended with. -/
def result? : Program C R ε α → Option (Except ε α)
  | .ret a => some (.ok a)
  | .fail e => some (.error e)
  | .call _ _ => none

/-- The exchange of the next step. -/
def exchanged (h : Handler C R W) : Program C R ε α → W → List (Exchange C R)
  | .call c _, w => [⟨c, (h c w).1⟩]
  | _, _ => []

/-- Every call that the program can make satisfies the condition, whatever it is answered. -/
def Only (φ : C → Prop) : Program C R ε α → Prop
  | .call c next => φ c ∧ ∀ x, (next x).Only φ
  | _ => True

section Only
variable {φ : C → Prop}

theorem Only.bind {q : Program C R ε β} {f : β → Program C R ε α} (hq : q.Only φ)
    (hf : ∀ b, (f b).Only φ) : (q >>= f).Only φ := by
  induction q with
  | ret b => exact hf b
  | fail e => trivial
  | call c next ih => exact ⟨hq.1, fun x => ih x (hq.2 x)⟩

theorem only_ofExcept (r : Except ε α) : (ofExcept r : Program C R ε α).Only φ := by
  cases r <;> trivial

theorem Only.advance {p : Program C R ε α} (hp : p.Only φ) (h : Handler C R W) (w : W) :
    (p.advance h w).1.Only φ := by
  cases p with
  | ret a => trivial
  | fail e => trivial
  | call c next => exact hp.2 _

end Only

/-- What holds of the exchanges and of the result when each call is made in some world that
satisfies the condition, whatever others do between the calls. -/
def Ensures (h : Handler C R W) (I : W → Prop) :
    Program C R ε α → (List (Exchange C R) → Except ε α → Prop) → Prop
  | .ret a, Q => Q [] (.ok a)
  | .fail e, Q => Q [] (.error e)
  | .call c next, Q =>
    ∀ w, I w → Ensures h I (next (h c w).1) fun tr r => Q (⟨c, (h c w).1⟩ :: tr) r

section Ensures
variable {h : Handler C R W} {I : W → Prop} {Q T : List (Exchange C R) → Except ε α → Prop}
variable {p : Program C R ε α}

@[simp] theorem ensures_ret {a : α} : (ret a).Ensures h I Q ↔ Q [] (.ok a) := Iff.rfl

theorem Ensures.mono (hp : p.Ensures h I Q) (hQT : ∀ tr r, Q tr r → T tr r) :
    p.Ensures h I T := by
  induction p generalizing Q T with
  | ret a => exact hQT _ _ hp
  | fail e => exact hQT _ _ hp
  | call c next ih => exact fun w hw => ih _ (hp w hw) fun tr r => hQT _ r

/-- The rule for a sequence: the exchanges of both parts are put together. -/
theorem Ensures.bind {q : Program C R ε β} {f : β → Program C R ε α}
    (hq : q.Ensures h I fun tr r => match r with
      | .ok b => (f b).Ensures h I fun tr' r' => Q (tr ++ tr') r'
      | .error e => Q tr (.error e)) : (q >>= f).Ensures h I Q := by
  induction q generalizing Q with
  | ret b => exact hq
  | fail e => exact hq
  | call c next ih => exact fun w hw => ih _ (hq w hw)

theorem Ensures.advance (hp : p.Ensures h I Q) {w : W} (hw : I w) :
    (p.advance h w).1.Ensures h I fun tr r => Q (p.exchanged h w ++ tr) r := by
  cases p with
  | ret a => exact hp
  | fail e => exact hp
  | call c next => exact hp w hw

theorem Ensures.of_result {r : Except ε α} (hp : p.Ensures h I Q) (hr : p.result? = some r) :
    Q [] r := by
  cases p with
  | ret a =>
    cases hr
    exact hp
  | fail e =>
    cases hr
    exact hp
  | call c next => cases hr

/-- In a world with the condition the program can go on to its end. -/
theorem Ensures.exists (hp : p.Ensures h I Q) {w : W} (hw : I w) : ∃ tr r, Q tr r := by
  induction p generalizing Q with
  | ret a => exact ⟨_, _, hp⟩
  | fail e => exact ⟨_, _, hp⟩
  | call c next ih =>
    obtain ⟨tr, r, hQ⟩ := ih _ (hp w hw)
    exact ⟨_, r, hQ⟩

end Ensures
end Program
end Traces

namespace Pool
variable {C : Type} {R : C → Type} {ε α W ι A : Type} [DecidableEq ι]

section Journals
variable (h : Handler C R W) (act : A → W → W)

/-- The exchange of one thread in a move, if the move is one of its steps. -/
def exchange (i : ι) (P : Pool C R ε α W ι) : Move A ι → List (Exchange C R)
  | .step j => if j = i then (P.threads i).exchanged h P.world else []
  | .env _ => []

/-- The exchanges of one thread along a run. -/
def journal (i : ι) : Pool C R ε α W ι → List (Move A ι) → List (Exchange C R)
  | _, [] => []
  | P, m :: ms => P.exchange h i m ++ journal i (P.move h act m) ms

/-- How many steps of the thread there are in a run. -/
def steps (i : ι) (ms : List (Move A ι)) : ℕ :=
  ms.countP fun
    | .step j => decide (j = i)
    | .env _ => false

end Journals

variable {h : Handler C R W} {act : A → W → W} {i : ι} {P : Pool C R ε α W ι}
variable {ms : List (Move A ι)} {I : W → Prop} {Q : List (Exchange C R) → Except ε α → Prop}

theorem ensures_move (hp : (P.threads i).Ensures h I Q) {m : Move A ι}
    (hI : m = .step i → I P.world) :
    ((P.move h act m).threads i).Ensures h I fun tr r => Q (P.exchange h i m ++ tr) r := by
  cases m with
  | env a => exact hp
  | step j =>
    by_cases hij : j = i
    · subst hij
      simpa [move, exchange] using hp.advance (hI rfl)
    · simpa [move, exchange, hij, Function.update_of_ne (Ne.symm hij)] using hp

/-- What a thread ensures under a condition holds of it in every run that meets the condition at
the steps of the thread. -/
theorem journal_of_ensures {r : Except ε α} (hp : (P.threads i).Ensures h I Q)
    (hI : Meets (move h act) (fun P m => m = .step i → I P.world) P ms)
    (hend : ((play (move h act) P ms).threads i).result? = some r) :
    Q (P.journal h act i ms) r := by
  induction ms generalizing P Q with
  | nil => exact hp.of_result hend
  | cons m ms ih => exact ih (ensures_move hp hI.1) hI.2 hend

/-- A thread that makes a step makes it in a world with the condition. -/
theorem exists_of_steps (hI : Meets (move h act) (fun P m => m = .step i → I P.world) P ms)
    (hsteps : 0 < steps i ms) : ∃ w, I w := by
  induction ms generalizing P with
  | nil => simp [steps] at hsteps
  | cons m ms ih =>
    by_cases hm : m = .step i
    · exact ⟨P.world, hI.1 hm⟩
    · apply ih hI.2
      cases m with
      | env a => simpa [steps] using hsteps
      | step j =>
        have hij : j ≠ i := fun h => hm (congrArg _ h)
        simpa [steps, hij] using hsteps

/-- A thread that makes at most so many calls has ended after so many steps of its own. -/
theorem ends_of_ensures {n : ℕ} {w : W} (hw : I w)
    (hp : (P.threads i).Ensures h I fun tr _ => tr.length ≤ n)
    (hI : Meets (move h act) (fun P m => m = .step i → I P.world) P ms)
    (hsteps : n ≤ steps i ms) : ∃ r, ((play (move h act) P ms).threads i).result? = some r := by
  induction ms generalizing P n with
  | nil =>
    rw [play_nil]
    cases hthread : P.threads i with
    | ret a => exact ⟨_, rfl⟩
    | fail e => exact ⟨_, rfl⟩
    | call c next =>
      rw [hthread] at hp
      obtain ⟨tr, _, hlen⟩ := (hp w hw).exists hw
      simp only [steps, List.countP_nil, List.length_cons] at hsteps hlen
      omega
  | cons m ms ih =>
    cases m with
    | env a => exact ih hp hI.2 (by simpa [steps] using hsteps)
    | step j =>
      by_cases hij : j = i
      · subst hij
        have hsteps : n ≤ steps j ms + 1 := by simpa [steps] using hsteps
        have hnext : (P.move h act (.step j)).threads j =
            ((P.threads j).advance h P.world).1 := by simp [move]
        cases hthread : P.threads j with
        | ret a =>
          rw [hthread] at hnext
          exact ih (hnext ▸ Nat.le_refl 0) hI.2 (Nat.zero_le _)
        | fail e =>
          rw [hthread] at hnext
          exact ih (hnext ▸ Nat.le_refl 0) hI.2 (Nat.zero_le _)
        | call c next =>
          rw [hthread] at hp hnext
          have hrest : n - 1 ≤ steps j ms := by omega
          refine ih (hnext ▸ (hp _ (hI.1 rfl)).mono fun tr r hlen => ?_) hI.2 hrest
          have hlen : tr.length + 1 ≤ n := hlen
          omega
      · refine ih ?_ hI.2 (by simpa [steps, hij] using hsteps)
        simpa [move, Function.update_of_ne (Ne.symm hij)] using hp

/-- The world satisfies the condition, and no thread makes a call of another kind. -/
structure Kept (I : W → Prop) (φ : C → Prop) (P : Pool C R ε α W ι) : Prop where
  world : I P.world
  threads : ∀ j, (P.threads j).Only φ

/-- What the calls of one kind and the others' acts keep, holds all along. -/
theorem kept_move {φ : C → Prop} (hcall : ∀ c w, φ c → I w → I (h c w).2)
    (hact : ∀ a w, I w → I (act a w)) (P : Pool C R ε α W ι) (m : Move A ι) (hP : P.Kept I φ) :
    (P.move h act m).Kept I φ := by
  cases m with
  | env a => exact ⟨hact a _ hP.world, hP.threads⟩
  | step i =>
    have hi := hP.threads i
    constructor
    · cases hthread : P.threads i with
      | ret a => simpa [move, hthread, Program.advance] using hP.world
      | fail e => simpa [move, hthread, Program.advance] using hP.world
      | call c next =>
        rw [hthread] at hi
        simpa [move, hthread] using hcall c P.world hi.1 hP.world
    · intro j
      by_cases hij : j = i
      · subst hij
        simpa [move] using hi.advance h P.world
      · simpa [move, Function.update_of_ne hij] using hP.threads j

end Pool
end RoutingApi.Process
