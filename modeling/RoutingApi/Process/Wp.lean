import RoutingApi.Process.Program

/-! Weakest preconditions of programs that run alone: what has to hold of the world for a
program to end, with a result or an error, in a world of the wanted kind. -/
namespace RoutingApi.Process.Program

section
variable {C : Type} {R : C → Type} {ε α β W : Type} {h : Handler C R W}

def wp (h : Handler C R W) (p : Program C R ε α) (w : W) (Q : Except ε α → W → Prop) : Prop :=
  Q (p.run h w).1 (p.run h w).2

variable {Q T : Except ε α → W → Prop} {w : W}

@[simp] theorem wp_ret {a : α} : wp h (ret a) w Q ↔ Q (.ok a) w := Iff.rfl

@[simp] theorem wp_fail {e : ε} : wp h (fail e) w Q ↔ Q (.error e) w := Iff.rfl

@[simp] theorem wp_call {c : C} {next : R c → Program C R ε α} :
    wp h (call c next) w Q ↔ wp h (next (h c w).1) (h c w).2 Q := Iff.rfl

theorem wp_mono {p : Program C R ε α} (hp : wp h p w Q) (hQT : ∀ r w', Q r w' → T r w') :
    wp h p w T := hQT _ _ hp

theorem wp_ite {c : Prop} [Decidable c] {p q : Program C R ε α} (hp : c → wp h p w Q)
    (hq : ¬c → wp h q w Q) : wp h (if c then p else q) w Q := by
  by_cases hc : c
  · rw [if_pos hc]
    exact hp hc
  · rw [if_neg hc]
    exact hq hc

/-- An error of the first program ends the whole, a result goes on to the second. -/
theorem wp_bind {p : Program C R ε β} {f : β → Program C R ε α}
    (hp : wp h p w fun
      | .ok b, w' => wp h (f b) w' Q
      | .error e, w' => Q (.error e) w') : wp h (p >>= f) w Q := by
  unfold wp at hp ⊢
  rw [run_bind]
  match hr : p.run h w with
  | (.ok b, w') =>
    rw [hr] at hp
    exact hp
  | (.error e, w') =>
    rw [hr] at hp
    exact hp

/-- The errors that are caught become results. -/
theorem wp_attempt {p : Program C R ε β} {catches : ε → Bool} {Q : Except ε (Except ε β) → W → Prop}
    (hp : wp h p w fun
      | .ok b, w' => Q (.ok (.ok b)) w'
      | .error e, w' => Q (if catches e then .ok (.error e) else .error e) w') :
    wp h (p.attempt catches) w Q := by
  unfold wp at hp ⊢
  rw [run_attempt]
  match hr : p.run h w with
  | (.ok b, w') =>
    rw [hr] at hp
    exact hp
  | (.error e, w') =>
    rw [hr] at hp
    exact hp

/-- With all its errors caught, the first program always goes on to the second. -/
theorem wp_attempt_bind {p : Program C R ε β} {f : Except ε β → Program C R ε α}
    (hp : wp h p w fun r w' => wp h (f r) w' Q) :
    wp h (p.attempt (fun _ => true) >>= f) w Q := by
  apply wp_bind
  apply wp_attempt
  apply wp_mono hp
  intro r w' hr
  cases r with
  | ok b => exact hr
  | error e => exact hr

/-- A step of a program that begins with a single call, by what that call's program does. -/
theorem advance_of_wp {p : Program C R ε β} {f : β → Program C R ε α} (hs : p.Single)
    {Q : Except ε β → W → Prop} {T : Program C R ε α × W → Prop} (hp : wp h p w Q)
    (hok : ∀ b w', Q (.ok b) w' → T (f b, w')) (herror : ∀ e w', Q (.error e) w' → T (.fail e, w')) :
    T ((p >>= f).advance h w) := by
  unfold wp at hp
  rw [hs.advance_bind]
  match hr : p.run h w with
  | (.ok b, w') =>
    rw [hr] at hp
    exact hok b w' hp
  | (.error e, w') =>
    rw [hr] at hp
    exact herror e w' hp

/-- A postcondition may also say which run it is about. -/
theorem wp_run {p : Program C R ε α} (hp : wp h p w Q) :
    wp h p w fun r w' => Q r w' ∧ p.run h w = (r, w') := ⟨hp, rfl⟩

end
end RoutingApi.Process.Program
