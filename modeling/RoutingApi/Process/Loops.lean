import Mathlib.Data.List.Forall2
import Mathlib.Tactic

/-! Loops that may not end, run for a number of rounds, and folds and maps that stop at the
first error. -/
namespace RoutingApi.Process

section Loops
variable {S R : Type}

/-- At most `n` rounds of a body that goes on in a new state or leaves with a result. -/
def loop (body : S → S ⊕ R) : ℕ → S → Option R
  | 0, _ => none
  | n + 1, s =>
    match body s with
    | .inl s' => loop body n s'
    | .inr r => some r

variable {b : S → S ⊕ R} {I : S → Prop}

/-- What every round keeps, and leaving turns into `Q`, holds of the result. -/
theorem loop_invariant {Q : R → Prop} (hround : ∀ s s', I s → b s = .inl s' → I s')
    (hleave : ∀ s r, I s → b s = .inr r → Q r) {n : ℕ} {s : S} {r : R} (h0 : I s)
    (h : loop b n s = some r) : Q r := by
  induction n generalizing s with
  | zero => cases h
  | succ n ih =>
    simp only [loop] at h
    cases hbody : b s with
    | inl s' =>
      rw [hbody] at h
      exact ih (hround s s' h0 hbody) h
    | inr r' =>
      rw [hbody] at h
      cases h
      exact hleave s _ h0 hbody

/-- A loop ends when every round makes a measure smaller. -/
theorem loop_ends (μ : S → ℕ) (hround : ∀ s s', I s → b s = .inl s' → I s' ∧ μ s' < μ s)
    {n : ℕ} {s : S} (h0 : I s) (hn : μ s < n) : ∃ r, loop b n s = some r := by
  induction n generalizing s with
  | zero => omega
  | succ n ih =>
    simp only [loop]
    cases hbody : b s with
    | inl s' =>
      obtain ⟨hI, hμ⟩ := hround s s' h0 hbody
      exact ih hI (by omega)
    | inr r => exact ⟨r, rfl⟩

end Loops

/-- A sequence that succeeds has succeeded at each step. -/
theorem bind_ok {ε α β : Type} {x : Except ε α} {f : α → Except ε β} {b : β}
    (h : (x >>= f) = .ok b) : ∃ a, x = .ok a ∧ f a = .ok b := by
  cases x with
  | error e => cases h
  | ok a => exact ⟨a, rfl, h⟩

section Folds
variable {S A B ε : Type} {f : S → A → Except ε S} {M : S → B → Prop} {N : A → B → Prop}

/-- A fold whose rounds each add the elements of `N a` has added those of the whole list. -/
theorem foldlM_collects
    (hround : ∀ s a s', f s a = .ok s' → ∀ b, M s' b ↔ M s b ∨ N a b)
    {l : List A} {s s' : S} (h : l.foldlM f s = .ok s') :
    ∀ b, M s' b ↔ M s b ∨ ∃ a ∈ l, N a b := by
  induction l generalizing s with
  | nil =>
    cases h
    simp
  | cons a l ih =>
    rw [List.foldlM_cons] at h
    obtain ⟨s₁, ha, h⟩ := bind_ok h
    intro b
    rw [ih h b, hround s a s₁ ha b, List.exists_mem_cons_iff, or_assoc]

/-- A fold that succeeds has succeeded in every round. -/
theorem foldlM_each {l : List A} {s s' : S} (h : l.foldlM f s = .ok s') :
    ∀ a ∈ l, ∃ s₁ s₂, f s₁ a = .ok s₂ := by
  induction l generalizing s with
  | nil => simp
  | cons a l ih =>
    rw [List.foldlM_cons] at h
    obtain ⟨s₁, ha, h⟩ := bind_ok h
    exact List.forall_mem_cons.mpr ⟨⟨s, s₁, ha⟩, ih h⟩

/-- The error of a fold is the error of one of its rounds. -/
theorem foldlM_error {l : List A} {s : S} {e : ε} (h : l.foldlM f s = .error e) :
    ∃ a ∈ l, ∃ s', f s' a = .error e := by
  induction l generalizing s with
  | nil => cases h
  | cons a l ih =>
    rw [List.foldlM_cons] at h
    cases ha : f s a with
    | error e' =>
      rw [ha] at h
      cases h
      exact ⟨a, List.mem_cons_self, s, ha⟩
    | ok s₁ =>
      rw [ha] at h
      obtain ⟨b, hb, s', hs'⟩ := ih h
      exact ⟨b, List.mem_cons_of_mem a hb, s', hs'⟩

end Folds

section Maps

/-- A list whose elements all succeed, with their results in order. -/
theorem mapM_ok {α β ε : Type} {f : α → Except ε β} {l : List α} {l' : List β} :
    l.mapM f = .ok l' ↔ List.Forall₂ (fun a b => f a = .ok b) l l' := by
  induction l generalizing l' with
  | nil =>
    rw [List.forall₂_nil_left_iff]
    exact ⟨fun h => (Except.ok.inj h).symm, fun h => congrArg Except.ok h.symm⟩
  | cons a l ih =>
    rw [List.mapM_cons, List.forall₂_cons_left_iff]
    cases ha : f a with
    | error e =>
      refine iff_of_false (fun h => by cases h) ?_
      rintro ⟨b, bs, hb, -, -⟩
      cases hb
    | ok b =>
      cases hl : l.mapM f with
      | error e =>
        refine iff_of_false (fun h => by cases h) ?_
        rintro ⟨b', bs, -, hbs, -⟩
        rw [ih.mpr hbs] at hl
        cases hl
      | ok bs =>
        constructor
        · intro h
          cases h
          exact ⟨b, bs, rfl, ih.mp hl, rfl⟩
        · rintro ⟨b', bs', hb, hbs, rfl⟩
          rw [ih.mpr hbs] at hl
          cases hb
          cases hl
          rfl

/-- The error of a loop is that of one of its elements. -/
theorem mapM_error {α β ε : Type} {f : α → Except ε β} {l : List α} {e : ε}
    (h : l.mapM f = .error e) : ∃ a ∈ l, f a = .error e := by
  induction l with
  | nil => cases h
  | cons a l ih =>
    rw [List.mapM_cons] at h
    cases ha : f a with
    | error e' =>
      rw [ha] at h
      cases h
      exact ⟨a, List.mem_cons_self, ha⟩
    | ok b =>
      cases hl : l.mapM f with
      | error e' =>
        rw [ha, hl] at h
        cases h
        obtain ⟨x, hx, hfx⟩ := ih hl
        exact ⟨x, List.mem_cons_of_mem _ hx, hfx⟩
      | ok bs =>
        rw [ha, hl] at h
        cases h

theorem mapM_ok_mem {α β ε : Type} {f : α → Except ε β} {l : List α} {l' : List β}
    (h : l.mapM f = .ok l') {b : β} (hb : b ∈ l') : ∃ a ∈ l, f a = .ok b := by
  have hall := mapM_ok.mp h
  obtain ⟨i, hi, rfl⟩ := List.mem_iff_getElem.mp hb
  have hlen := hall.length_eq
  exact ⟨l[i], List.getElem_mem (by omega), hall.get (by omega) hi⟩

end Maps
end RoutingApi.Process
