import Mathlib.Tactic

/-! Runs of a transition function: what holds after a run, in every state along it, and
of every move of it, and history variables and journals that record what it has done. -/
namespace RoutingApi.Process

section Runs
variable {S M : Type} (move : S → M → S)

def play (s : S) (ms : List M) : S := ms.foldl move s

@[simp] theorem play_nil (s : S) : play move s [] = s := rfl

@[simp] theorem play_cons (s : S) (m : M) (ms : List M) :
    play move s (m :: ms) = play move (move s m) ms := rfl

theorem play_append (s : S) (ms ms' : List M) :
    play move s (ms ++ ms') = play move (play move s ms) ms' := by
  simp [play]

/-- Every state along the moves satisfies `I`, the first one included. -/
def Always (I : S → Prop) : S → List M → Prop
  | s, [] => I s
  | s, m :: ms => I s ∧ Always I (move s m) ms

/-- Every move is made in a state that satisfies the condition for it. -/
def Meets (Q : S → M → Prop) : S → List M → Prop
  | _, [] => True
  | s, m :: ms => Q s m ∧ Meets Q (move s m) ms

instance decidableMeets (Q : S → M → Prop) [∀ s m, Decidable (Q s m)] :
    (s : S) → (ms : List M) → Decidable (Meets move Q s ms)
  | _, [] => isTrue trivial
  | s, m :: ms =>
    have := decidableMeets Q (move s m) ms
    inferInstanceAs (Decidable (Q s m ∧ Meets move Q (move s m) ms))

variable {move} {I J : S → Prop} {Q T : S → M → Prop} {s : S} {ms : List M}

theorem Always.mono (hIJ : ∀ s, I s → J s) (h : Always move I s ms) : Always move J s ms := by
  induction ms generalizing s with
  | nil => exact hIJ s h
  | cons m ms ih => exact ⟨hIJ s h.1, ih h.2⟩

theorem Meets.mono (hQT : ∀ s m, Q s m → T s m) (h : Meets move Q s ms) : Meets move T s ms := by
  induction ms generalizing s with
  | nil => trivial
  | cons m ms ih => exact ⟨hQT s m h.1, ih h.2⟩

theorem meets_append {ms' : List M} : Meets move Q s (ms ++ ms') ↔
    Meets move Q s ms ∧ Meets move Q (play move s ms) ms' := by
  induction ms generalizing s with
  | nil => exact (and_iff_right trivial).symm
  | cons m ms ih => exact (and_congr_right' ih).trans and_assoc.symm

/-- A condition on the moves alone. -/
theorem meets_of_forall {P : M → Prop} (h : ∀ m ∈ ms, P m) : Meets move (fun _ m => P m) s ms := by
  induction ms generalizing s with
  | nil => trivial
  | cons m ms ih => exact ⟨h m List.mem_cons_self, ih fun a ha => h a (List.mem_cons_of_mem m ha)⟩

section Invariant
variable (hstep : ∀ s m, I s → Q s m → I (move s m))
include hstep

/-- The invariant rule: what each admitted move keeps holds all along. -/
theorem always_of_meets (h0 : I s) (hQ : Meets move Q s ms) : Always move I s ms := by
  induction ms generalizing s with
  | nil => exact h0
  | cons m ms ih => exact ⟨h0, ih (hstep s m h0 hQ.1) hQ.2⟩

theorem play_of_meets (h0 : I s) (hQ : Meets move Q s ms) : I (play move s ms) := by
  induction ms generalizing s with
  | nil => exact h0
  | cons m ms ih => exact ih (hstep s m h0 hQ.1) hQ.2

/-- What the invariant and the condition give for each move holds of every move. -/
theorem meets_of_meets (hT : ∀ s m, I s → Q s m → T s m) (h0 : I s) (hQ : Meets move Q s ms) :
    Meets move T s ms := by
  induction ms generalizing s with
  | nil => trivial
  | cons m ms ih => exact ⟨hT s m h0 hQ.1, ih (hstep s m h0 hQ.1) hQ.2⟩

end Invariant

theorem play_invariant (hstep : ∀ s m, I s → I (move s m)) (h0 : I s) : I (play move s ms) := by
  induction ms generalizing s with
  | nil => exact h0
  | cons m ms ih => exact ih (hstep s m h0)

/-- If a move outside the condition breaks something for good, then a run that ends
unbroken has met the condition. -/
theorem meets_of_play {B : S → Prop} (hstep : ∀ s m, I s → Q s m → I (move s m))
    (hbreak : ∀ s m, I s → ¬Q s m → B (move s m)) (hbroken : ∀ s m, B s → B (move s m))
    (h0 : I s) (hend : ¬B (play move s ms)) : Meets move Q s ms := by
  induction ms generalizing s with
  | nil => trivial
  | cons m ms ih =>
    by_cases hQ : Q s m
    · exact ⟨hQ, ih (hstep s m h0 hQ) hend⟩
    · exact absurd (play_invariant hbroken (hbreak s m h0 hQ)) hend

/-- How many of the moves satisfy `p` in the state in which they are made. -/
def countMoves (move : S → M → S) (p : S → M → Bool) : S → List M → ℕ
  | _, [] => 0
  | s, m :: ms => (if p s m then 1 else 0) + countMoves move p (move s m) ms

/-- The rule for bounded progress: moves that cost some of a potential which no move brings back
can be made only so often. -/
theorem countMoves_le {p : S → M → Bool} {potential : S → ℕ}
    (hstep : ∀ s m, I s → I (move s m))
    (hcost : ∀ s m, I s → (if p s m then 1 else 0) + potential (move s m) ≤ potential s)
    (h0 : I s) : countMoves move p s ms + potential (play move s ms) ≤ potential s := by
  induction ms generalizing s with
  | nil => simp [countMoves]
  | cons m ms ih =>
    have hrest := ih (hstep s m h0)
    have hfirst := hcost s m h0
    simp only [countMoves, play_cons]
    omega

/-- The same moves with a history variable that is updated at each of them. -/
def observed {O : Type} (move : S → M → S) (f : S → M → O → O) : S × O → M → S × O :=
  fun p m => (move p.1 m, f p.1 m p.2)

end Runs

section Journals
variable {α : Type} {J : List α → α → Prop} {l : List α} {a : α}

/-- Every entry of the journal is justified by the entries before it. -/
def Grounded (J : List α → α → Prop) (l : List α) : Prop :=
  ∀ before a after, l = before ++ a :: after → J before a

theorem grounded_nil : Grounded J [] := by
  intro before a after h
  simp at h

theorem Grounded.concat (hl : Grounded J l) (ha : J l a) : Grounded J (l ++ [a]) := by
  intro before b after h
  -- the entry in question is either the new one or one of the old journal
  rcases List.eq_nil_or_concat after with rfl | ⟨rest, c, rfl⟩
  · obtain ⟨rfl, hab⟩ := List.append_inj' h rfl
    cases hab
    exact ha
  · have hsplit : l ++ [a] = (before ++ b :: rest) ++ [c] := by simpa using h
    exact hl before b rest (List.append_inj' hsplit rfl).1

theorem Grounded.of_append {l' : List α} (h : Grounded J (l ++ l')) : Grounded J l := by
  intro before b after hl
  exact h before b (after ++ l') (by rw [hl, List.append_assoc]; rfl)

/-- Entries that are always justified can be added. -/
theorem Grounded.append {l' : List α} (hl : Grounded J l) (h : ∀ b ∈ l', ∀ before, J before b) :
    Grounded J (l ++ l') := by
  induction l' generalizing l with
  | nil => rwa [List.append_nil]
  | cons b l' ih =>
    have hb : Grounded J (l ++ [b]) := hl.concat (h b List.mem_cons_self l)
    have hrest := ih hb fun c hc => h c (List.mem_cons_of_mem b hc)
    rwa [List.append_assoc] at hrest

/-- The entry at which a count passes a given number. -/
theorem exists_of_lt_countP {p : α → Bool} {n : ℕ} (h : n < l.countP p) :
    ∃ before a after, l = before ++ a :: after ∧ p a = true ∧ before.countP p = n := by
  induction l generalizing n with
  | nil => simp at h
  | cons x xs ih =>
    cases hx : p x with
    | false =>
      rw [List.countP_cons_of_neg (by simp [hx])] at h
      obtain ⟨before, a, after, rfl, ha, hcount⟩ := ih h
      exact ⟨x :: before, a, after, rfl, ha, by simp [hx, hcount]⟩
    | true =>
      rw [List.countP_cons_of_pos hx] at h
      cases n with
      | zero => exact ⟨[], x, xs, rfl, hx, rfl⟩
      | succ n =>
        obtain ⟨before, a, after, rfl, ha, hcount⟩ := ih (Nat.lt_of_succ_lt_succ h)
        exact ⟨x :: before, a, after, rfl, ha, by simp [hx, hcount]⟩

end Journals
end RoutingApi.Process
