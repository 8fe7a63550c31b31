import RoutingApi.Database.Operations

/-! Sequential runs: operations executed one after the other while time passes. -/
namespace RoutingApi.Database
open Relational Gorm Models Process Program

inductive Op (E : Type) where
  | tick (d : ℕ)
  | save (m : E)
  | delete (m : E)
  | prune
  deriving DecidableEq, Repr

section Runs
variable {E C κ : Type} [DecidableEq E] {K : Kind E C κ} (env : Env) (s : Schema C)

def Op.perform : Op E → World K → World K
  | .tick d, w => w.tick d
  | .save m, w => ((saveEntity K m).run (handler env s) w).2
  | .delete m, w => ((deleteEntity K m).run (handler env s) w).2
  | .prune, w => ((pruneEntities K).run (handler env s) w).2

def runOps (ops : List (Op E)) (w : World K) : World K :=
  play (fun w op => op.perform env s w) w ops

theorem runOps_append (ops ops' : List (Op E)) (w : World K) :
    runOps env s (ops ++ ops') w = runOps env s ops' (runOps env s ops w) :=
  play_append _ _ _ _

/-- What an operation does to the world, whatever it returns. -/
inductive Effect (w : World K) : World K → Prop
  | ticked (d : ℕ) : Effect w (w.tick d)
  | idle (w' : World K) : w.Emits w' [] → Effect w w'
  | updated (m : E) (x : Row C) (e : E) (w₁ w' : World K) : w.Matched m x →
      K.update w.now (K.model.ofRow x) m = some e → K.guid e ≠ "" → w.Updates w₁ s e →
      w₁.Emits w' [⟨.update, e⟩] → Effect w w'
  | created (m : E) (i j : ℕ) (g u : String) (e₀ : E) (w₁ w' : World K) : w.Unmatched m →
      w.uuids ≤ i → i < j → j < w₁.uuids → env.newV4 i = .ok g → env.newV4 j = .ok u →
      K.withModel g w.now m = some e₀ → w.Inserts w₁ s (K.setTag ⟨u, 0⟩ e₀) →
      w₁.Emits w' [⟨.create, K.setTag ⟨u, 0⟩ e₀⟩] → Effect w w'
  | deleted (m : E) (x : Row C) (w₁ w' : World K) : w.Matched m x →
      K.guid (K.model.ofRow x) ≠ "" →
      w.Removes w₁ (fun g => decide (g = K.guid (K.model.ofRow x))) →
      w₁.Emits w' [⟨.delete, K.model.ofRow x⟩] → Effect w w'
  | pruned (w₁ w' : World K) :
      w.Removes w₁ (fun g => decide (g ∈ prunedGuids K ((expiredRows K w).map K.model.ofRow))) →
      w₁.Emits w' (((expiredRows K w).map K.model.ofRow).map fun r => ⟨.expire, r⟩) →
      Effect w w'

variable {env s}

omit [DecidableEq E] in
theorem Saved.effect {m : E} {w : World K} {r : Except Err Unit × World K}
    (h : Saved env s m w r) : Effect env s w r.2 := by
  cases h with
  | failed e w' hw _ => exact .idle w' hw
  | duplicated w' hw _ => exact .idle w' hw
  | panicked w' hw _ => exact .idle w' hw
  | refused w' hw _ => exact .idle w' hw
  | updated x e w₁ w' hx hu hg hup hev => exact .updated m x e w₁ w' hx hu hg hup hev
  | created i j g u e₀ w₁ w' hx hi hij hj hg hu he hins hev =>
    exact .created m i j g u e₀ w₁ w' hx hi hij hj hg hu he hins hev

omit [DecidableEq E] in
theorem Deleted.effect {m : E} {w : World K} {r : Except Err Unit × World K}
    (h : Deleted env m w r) : Effect env s w r.2 := by
  cases h with
  | failed e w' hw _ => exact .idle w' hw
  | duplicated w' hw _ => exact .idle w' hw
  | notFound w' hw _ => exact .idle w' hw
  | keyless x w' hw _ _ => exact .idle w' hw
  | deleted x w₁ w' hx hg hr hev => exact .deleted m x w₁ w' hx hg hr hev

omit [DecidableEq E] in
theorem Pruned.effect {w : World K} {r : Except Err Unit × World K}
    (h : Pruned env w r) : Effect env s w r.2 := by
  cases h with
  | failed e w' hw _ => exact .idle w' hw
  | pruned w₁ w' hr hev => exact .pruned w₁ w' hr hev

theorem Op.effect (op : Op E) (w : World K) : Effect env s w (op.perform env s w) := by
  cases op with
  | tick d => exact .ticked d
  | save m => exact (run_saveEntity m w).effect
  | delete m => exact (run_deleteEntity m w).effect
  | prune => exact (run_pruneEntities w).effect

/-- The invariant rule: what every effect keeps holds after every run. -/
theorem runOps_invariant {I : World K → Prop} (hstep : ∀ w w', I w → Effect env s w w' → I w')
    {w : World K} (h0 : I w) (ops : List (Op E)) : I (runOps env s ops w) :=
  play_invariant (fun w op h => hstep w _ h (op.effect w)) h0

omit [DecidableEq E] in
theorem Effect.log {w w' : World K} (h : Effect env s w w') : ∃ evs, w'.log = w.log ++ evs := by
  cases h with
  | ticked d => exact ⟨[], (List.append_nil _).symm⟩
  | idle _ hw => exact ⟨_, hw.log⟩
  | updated _ _ _ _ _ _ _ _ hup hev => exact ⟨_, by rw [hev.log, hup.log]⟩
  | created _ _ _ _ _ _ _ _ _ _ _ _ _ _ _ hins hev => exact ⟨_, by rw [hev.log, hins.log]⟩
  | deleted _ _ _ _ _ _ hr hev => exact ⟨_, by rw [hev.log, hr.log]⟩
  | pruned _ _ hr hev => exact ⟨_, by rw [hev.log, hr.log]⟩

omit [DecidableEq E] in
theorem Effect.now {w w' : World K} (h : Effect env s w w') : w.now ≤ w'.now := by
  cases h with
  | ticked d => simp [World.tick]
  | idle _ hw => exact hw.now.ge
  | updated _ _ _ _ _ _ _ _ hup hev => exact (hev.now.trans hup.now).ge
  | created _ _ _ _ _ _ _ _ _ _ _ _ _ _ _ hins hev => exact (hev.now.trans hins.now).ge
  | deleted _ _ _ _ _ _ hr hev => exact (hev.now.trans hr.now).ge
  | pruned _ _ hr hev => exact (hev.now.trans hr.now).ge

omit [DecidableEq E] in
/-- No row gets an empty guid. -/
theorem Effect.guids {w w' : World K} (hids : env.Uuids) (h : Effect env s w w')
    (hguids : ∀ y ∈ w.stored, K.guid y ≠ "") : ∀ y ∈ w'.stored, K.guid y ≠ "" := by
  intro y hy
  cases h with
  | ticked d => exact hguids y hy
  | idle _ hw =>
    rw [hw.stored] at hy
    exact hguids y hy
  | updated m x e w₁ _ hx hu hg hup hev =>
    rw [hev.stored] at hy
    rcases hup.mem_stored.mp hy with ⟨hy, -⟩ | rfl
    · exact hguids y hy
    · exact hg
  | created m i j g u e₀ w₁ _ hx hi hij hj hg hu he hins hev =>
    rw [hev.stored, hins.stored] at hy
    rcases List.mem_append.mp hy with hy | hy
    · exact hguids y hy
    · rw [List.mem_singleton.mp hy, K.guid_ofRow, K.insertRow_pk, Kind.new_guid he]
      exact hids.nonempty i g hg
  | deleted m x w₁ _ hx hg hr hev =>
    rw [hev.stored] at hy
    exact hguids y (hr.mem_stored.mp hy).1
  | pruned w₁ _ hr hev =>
    rw [hev.stored] at hy
    exact hguids y (hr.mem_stored.mp hy).1

theorem runOps_guids (hids : env.Uuids) {w : World K} (hguids : ∀ y ∈ w.stored, K.guid y ≠ "")
    (ops : List (Op E)) : ∀ y ∈ (runOps env s ops w).stored, K.guid y ≠ "" :=
  runOps_invariant (I := fun w => ∀ y ∈ w.stored, K.guid y ≠ "") (fun _ _ h hw => hw.guids hids h)
    hguids ops

theorem runOps_log (ops : List (Op E)) (w : World K) :
    ∃ evs, (runOps env s ops w).log = w.log ++ evs := by
  refine runOps_invariant (I := fun w' => ∃ evs, w'.log = w.log ++ evs) ?_
    ⟨[], (List.append_nil _).symm⟩ ops
  rintro w' w'' ⟨evs, hevs⟩ hw
  obtain ⟨evs', hevs'⟩ := hw.log
  exact ⟨evs ++ evs', by rw [hevs', hevs, List.append_assoc]⟩

theorem runOps_now (ops : List (Op E)) (w : World K) : w.now ≤ (runOps env s ops w).now :=
  runOps_invariant (I := fun w' => w.now ≤ w'.now) (fun _ _ h hw => h.trans hw.now) le_rfl ops

end Runs
end RoutingApi.Database
