import Mathlib.Logic.Function.Basic
import Mathlib.Tactic

/-! Values that are held under a key until some time. What can be seen of them at a time are those
whose time has not run out. -/
namespace RoutingApi.Replica

structure Lease (V : Type) where
  value : V
  expires : ℤ
  deriving DecidableEq, Repr

/-- The lease of each key. -/
abbrev Leases (κ V : Type) := κ → Option (Lease V)

section Operations
variable {κ V : Type}

/-- What is seen at a time. -/
def live (now : ℤ) (L : Leases κ V) (k : κ) : Option V :=
  (L k).bind fun l => if now < l.expires then some l.value else none

/-- Nobody who looks from now on can tell the two apart. -/
def SameFrom (now : ℤ) (L L' : Leases κ V) : Prop := ∀ t ≥ now, ∀ k, live t L k = live t L' k

variable [DecidableEq κ]

def grant (k : κ) (l : Lease V) (L : Leases κ V) : Leases κ V := Function.update L k (some l)

def revoke (k : κ) (L : Leases κ V) : Leases κ V := Function.update L k none

end Operations

section Lemmas
variable {κ V : Type} {L L' L'' : Leases κ V} {now t : ℤ} {k : κ}

theorem live_eq_some {v : V} :
    live now L k = some v ↔ ∃ l, L k = some l ∧ now < l.expires ∧ l.value = v := by
  simp only [live, Option.bind_eq_some_iff, Option.ite_none_right_eq_some, Option.some.injEq]

theorem live_congr (h : L k = L' k) : live now L k = live now L' k := by rw [live, live, h]

theorem SameFrom.refl (now : ℤ) (L : Leases κ V) : SameFrom now L L := fun _ _ _ => rfl

theorem SameFrom.trans (h : SameFrom now L L') (h' : SameFrom now L' L'') : SameFrom now L L'' :=
  fun t ht k => (h t ht k).trans (h' t ht k)

theorem SameFrom.mono (h : SameFrom now L L') (hle : now ≤ t) : SameFrom t L L' :=
  fun t' ht' => h t' (hle.trans ht')

/-- It cannot be told whether a lease that has run out is kept. -/
theorem sameFrom_of_forgotten (h : ∀ k, L' k = L k ∨ L' k = none ∧ ∀ l, L k = some l → l.expires ≤ now) :
    SameFrom now L' L := by
  intro t ht k
  rcases h k with hk | ⟨hk, hold⟩
  · exact live_congr hk
  · have hnone : live t L k = none := by
      apply Option.eq_none_iff_forall_ne_some.mpr
      intro v hv
      obtain ⟨l, hl, hlt, -⟩ := live_eq_some.mp hv
      have := hold l hl
      omega
    rw [hnone, live, hk, Option.bind_none]

variable [DecidableEq κ]

/-- An update of one key tells nothing about what was held under it. -/
theorem SameFrom.update (h : SameFrom now L L') (k : κ) (o : Option (Lease V)) :
    SameFrom now (Function.update L k o) (Function.update L' k o) := by
  intro t ht j
  by_cases hj : j = k
  · subst hj
    exact live_congr (by rw [Function.update_self, Function.update_self])
  · rw [live_congr (Function.update_of_ne hj o L), live_congr (Function.update_of_ne hj o L')]
    exact h t ht j

end Lemmas
end RoutingApi.Replica
