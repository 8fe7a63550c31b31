import RoutingApi.Concurrency.ControlPoints
import RoutingApi.Migration.Migrations

/-! A prune pass among other calls. The pass reads the expired rows, deletes them by guid
and announces them as it read them; what it read can be out of date by then. -/
namespace RoutingApi.Concurrency
open Relational Gorm Models Process Program Database Migrations

/-- What the prune pass has used so far: the instant it compares expiries with, and the
rows that its read returned. -/
structure Pass (E : Type) where
  instant : ℤ
  rows : List E
  deriving DecidableEq, Repr

section Statements
variable {E C κ ι : Type} [DecidableEq ι] {K : Kind E C κ}

/-- What a pass learns from a call. -/
def Pass.note (w : World K) (pass : Pass E) : Option (Call E C) → Pass E
  | some .now => { pass with instant := w.now - second }
  | some (.find q) => { pass with rows := (w.table.select q).map K.model.ofRow }
  | _ => pass

/-- Records the clock and the rows that thread `j` reads. -/
def watch (j : ι) (P : Pool (Call E C) Call.Resp Err Unit (World K) ι) (m : Move ℕ ι)
    (pass : Pass E) : Pass E :=
  if m = .step j then pass.note P.world (P.threads j).next? else pass

/-- What a step of the pass may do: delete only rows that expired before its instant, and
announce the expiry of a row only if no live row has its guid. -/
def RemovesExpired (w : World K) (pass : Pass E) : Option (Call E C) → Prop
  | some (.deleteIn guids) => ∀ e ∈ w.stored, K.guid e ∈ guids → K.expiresAt e < pass.instant
  | some (.emit ev) => ev.type = .expire →
      ∀ e ∈ w.stored, K.guid e = K.guid ev.value → ¬w.now < K.expiresAt e
  | _ => True

def PruneSafe (j : ι) (S : Pool (Call E C) Call.Resp Err Unit (World K) ι × Pass E) :
    Move ℕ ι → Prop
  | .step i => i = j → RemovesExpired S.1.world S.2 (S.1.threads j).next?
  | .env _ => True

/-- A write of a row that the pass has read leaves it expired at the pass's instant. -/
def LeavesExpired (s : Schema C) (w : World K) (pass : Pass E) (c : Option (Call E C)) : Prop :=
  ∀ row ∈ written s w c, row.1 ∈ pass.rows.map K.guid → row.2 < pass.instant

/-- While the pass is under way, no call refreshes a row that the pass has read. -/
def RefreshesOthers (s : Schema C) (j : ι)
    (S : Pool (Call E C) Call.Resp Err Unit (World K) ι × Pass E) : Move ℕ ι → Prop
  | .step i => ¬(S.1.threads j).Finished →
      LeavesExpired s S.1.world S.2 (S.1.threads i).next?
  | .env _ => True

instance (w : World K) (pass : Pass E) :
    (c : Option (Call E C)) → Decidable (RemovesExpired w pass c)
  | some (.deleteIn _) => inferInstanceAs (Decidable (∀ e ∈ w.stored, _ → _))
  | some (.emit _) => inferInstanceAs (Decidable (_ → ∀ e ∈ w.stored, _ → ¬_))
  | none | some (.find _) | some (.create _) | some (.save _) | some (.delete _) | some .newV4
  | some .now | some .isReadLocked | some .findRouterGroups => isTrue trivial

instance (s : Schema C) (w : World K) (pass : Pass E) (c : Option (Call E C)) :
    Decidable (LeavesExpired s w pass c) :=
  inferInstanceAs (Decidable (∀ row ∈ written s w c, _ → _))

instance (j : ι) (S : Pool (Call E C) Call.Resp Err Unit (World K) ι × Pass E) :
    (m : Move ℕ ι) → Decidable (PruneSafe j S m)
  | .env _ => isTrue trivial
  | .step i => inferInstanceAs
      (Decidable (i = j → RemovesExpired S.1.world S.2 (S.1.threads j).next?))

instance (s : Schema C) (j : ι) (S : Pool (Call E C) Call.Resp Err Unit (World K) ι × Pass E) :
    (m : Move ℕ ι) → Decidable (RefreshesOthers s j S m)
  | .env _ => isTrue trivial
  | .step i => inferInstanceAs (Decidable (¬(S.1.threads j).Finished →
      LeavesExpired s S.1.world S.2 (S.1.threads i).next?))

/-- In every run in which no call refreshes a row that the pass `j` has read, the pass
removes and announces only expired rows. -/
def PrunesSafely [DecidableEq E] (K : Kind E C κ) (env : Env) (s : Schema C) : Prop :=
  ∀ (ι : Type) [DecidableEq ι] (w : World K) (jobs : ι → Job E) (j : ι)
    (ms : List (Move ℕ ι)), (∀ e ∈ w.stored, K.guid e ≠ "") → jobs j = .prune →
    Meets (observed (move env s) (watch j)) (RefreshesOthers s j) (calls w jobs, ⟨0, []⟩) ms →
    Meets (observed (move env s) (watch j)) (PruneSafe j) (calls w jobs, ⟨0, []⟩) ms

end Statements

section Invariant
variable {E C κ : Type} {K : Kind E C κ}

/-- The rows stored under the guids that the pass has read are expired at its instant. -/
def Covered (w : World K) (pass : Pass E) : Prop :=
  ∀ e ∈ w.stored, K.guid e ∈ pass.rows.map K.guid → K.expiresAt e < pass.instant

/-- What the pass knows at each of its points. -/
def PassAt (w : World K) (pass : Pass E) : Point E → Prop
  | .pruning => True
  | .scanning now => pass.instant = now - second ∧ now ≤ w.now
  | .clearing routes => pass.rows = routes ∧ pass.instant ≤ w.now ∧ Covered w pass
  | .expiring (r :: rest) =>
    (∀ a ∈ r :: rest, a ∈ pass.rows) ∧ pass.instant ≤ w.now ∧ Covered w pass
  | .expiring [] | .failed _ => True
  | _ => False

/-- The rows that a point holds have a guid. -/
def Named (K : Kind E C κ) : Point E → Prop
  | .refreshing existing _ => K.guid existing ≠ ""
  | .storing e => K.guid e ≠ ""
  | .stamping guid _ => guid ≠ ""
  | .tagging e => K.guid e ≠ ""
  | .inserting e => K.guid e ≠ ""
  | _ => True

structure PassInv {ι : Type} (j : ι) (w : World K) (pts : ι → Point E) (pass : Pass E) :
    Prop where
  guids : ∀ e ∈ w.stored, K.guid e ≠ ""
  named : ∀ i, Named K (pts i)
  pass : PassAt w pass (pts j)

variable {w w' : World K} {pass : Pass E} {p p' : Point E} {env : Env} {s : Schema C}

theorem Covered.mono (h : Covered w pass) (hsub : ∀ e ∈ w'.stored, e ∈ w.stored) :
    Covered w' pass := fun e he => h e (hsub e he)

/-- Clock and table may change, as long as the pass's rows stay expired. -/
theorem PassAt.mono (h : PassAt w pass p) (hnow : w.now ≤ w'.now)
    (hcov : Covered w pass → p.call K ≠ none → Covered w' pass) : PassAt w' pass p := by
  cases p with
  | pruning => trivial
  | scanning now => exact ⟨h.1, h.2.trans hnow⟩
  | clearing routes => exact ⟨h.1, h.2.1.trans hnow, hcov h.2.2 (by simp [Point.call])⟩
  | expiring routes =>
    cases routes with
    | nil => trivial
    | cons r rest => exact ⟨h.1, h.2.1.trans hnow, hcov h.2.2 (by simp [Point.call])⟩
  | failed e => trivial
  | _ => exact h

theorem Named.step [DecidableEq E] (hids : ∀ i u, env.newV4 i = .ok u → u ≠ "")
    (hguids : ∀ e ∈ w.stored, K.guid e ≠ "") (hp : Named K p) (h : Step env s w p p' w') :
    Named K p' := by
  cases h with
  | matched m x _ _ hx => exact hguids _ (World.mem_stored.mpr ⟨x, hx.mem, rfl⟩)
  | refreshed existing m e hu =>
    show K.guid e ≠ ""
    rw [K.update_guid _ _ _ _ hu]
    exact hp
  | drewGuid m g hg => exact hids _ _ hg
  | stamped g m e he =>
    show K.guid e ≠ ""
    rw [K.withModel_guid _ _ _ _ he]
    exact hp
  | drewTag e u _ =>
    show K.guid (K.setTag ⟨u, 0⟩ e) ≠ ""
    rw [K.setTag_guid]
    exact hp
  | finished _ _ => exact hp
  | _ => trivial

/-- Rows keep having a guid. -/
theorem guids_step [DecidableEq E] (hguids : ∀ e ∈ w.stored, K.guid e ≠ "") (hp : Named K p)
    (h : Step env s w p p' w') : ∀ e ∈ w'.stored, K.guid e ≠ "" := by
  intro e he
  rcases h.stored he with he | hwritten
  · exact hguids e he
  · cases p with
    | storing e₁ =>
      have hg : w.target s e₁ = K.guid e := congrArg Prod.fst (Option.some.inj hwritten)
      rw [← hg]
      rcases World.target_cases s e₁ w with htarget | ⟨y, hy, htarget⟩
      · rw [htarget]
        exact hp
      · rw [htarget]
        exact hguids y hy
    | inserting e₁ =>
      have hg : K.guid e₁ = K.guid e := congrArg Prod.fst (Option.some.inj hwritten)
      rw [← hg]
      exact hp
    | expiring routes => cases routes <;> cases hwritten
    | _ => cases hwritten

section Moves
variable {ι : Type} [DecidableEq E] [DecidableEq ι] {pts : ι → Point E} {i j : ι}

theorem Covered.step (hcov : Covered w pass) (hleaves : LeavesExpired s w pass (p.call K))
    (h : Step env s w p p' w') : Covered w' pass := by
  intro e he hmem
  rcases h.stored he with he | hwritten
  · exact hcov e he hmem
  · exact hleaves _ hwritten hmem

/-- A step of another call. -/
theorem PassInv.other (hids : ∀ i u, env.newV4 i = .ok u → u ≠ "") (h : PassInv j w pts pass)
    (hij : i ≠ j) (hQ : ¬(pts j).call K = none → LeavesExpired s w pass ((pts i).call K))
    (hs : Step env s w (pts i) p' w') : PassInv j w' (Function.update pts i p') pass := by
  refine ⟨guids_step h.guids (h.named i) hs, ?_, ?_⟩
  · rw [Function.forall_update_iff]
    exact ⟨(h.named i).step hids h.guids hs, fun a _ => h.named a⟩
  · rw [Function.update_of_ne hij.symm]
    exact h.pass.mono hs.now.ge fun hcov hcall => hcov.step (hQ hcall) hs

omit [DecidableEq ι] in
/-- A step of the pass itself. -/
theorem PassAt.step (hp : PassAt w pass p) (h : Step env s w p p' w') :
    PassAt w' (pass.note w (p.call K)) p' := by
  cases h with
  | failed _ _ _ _ _ _ => trivial
  | looked => exact ⟨rfl, le_rfl⟩
  | scanned now _ hw =>
    obtain ⟨hinst, hnow⟩ := hp
    refine ⟨rfl, ?_, ?_⟩
    · show pass.instant ≤ w'.now
      have hsec : (0 : ℤ) ≤ second := by decide
      rw [hw.now, hinst]
      omega
    · -- a stored row with the guid of a row just read is that row
      intro e he hmem
      rw [hw.stored] at he
      obtain ⟨r, hr, hg⟩ := List.mem_map.mp hmem
      obtain ⟨x, hx, rfl⟩ := List.mem_map.mp hr
      obtain ⟨hxrow, hexp⟩ := (w.select_before _).mp hx
      rw [← World.stored_inj (World.mem_stored.mpr ⟨x, hxrow, rfl⟩) he hg]
      exact hinst ▸ hexp
  | cleared routes _ hr =>
    obtain ⟨hrows, hinst, hcov⟩ := hp
    cases routes with
    | nil => trivial
    | cons r rest =>
      exact ⟨fun a ha => hrows ▸ ha, hr.now ▸ hinst,
        hcov.mono fun e he => (hr.mem_stored.mp he).1⟩
  | expired r rest _ hw =>
    obtain ⟨hrows, hinst, hcov⟩ := hp
    cases rest with
    | nil => trivial
    | cons r' rest =>
      exact ⟨fun a ha => hrows a (List.mem_cons_of_mem r ha), hw.now ▸ hinst,
        hcov.mono fun e he => hw.stored ▸ he⟩
  | finished _ hfin =>
    have hcall : p.call K = none := (next?_prog p).symm.trans hfin
    rw [hcall]
    exact hp
  | _ => exact hp.elim

/-- Every step that leaves the pass's rows expired keeps the invariant. -/
theorem PassInv.step (hids : ∀ i u, env.newV4 i = .ok u → u ≠ "") (h : PassInv j w pts pass)
    (hQ : ¬(pts j).call K = none → LeavesExpired s w pass ((pts i).call K))
    (hs : Step env s w (pts i) p' w') :
    PassInv j w' (Function.update pts i p')
      (if i = j then pass.note w ((pts j).call K) else pass) := by
  by_cases hij : i = j
  · subst hij
    rw [if_pos rfl]
    refine ⟨guids_step h.guids (h.named i) hs, ?_, ?_⟩
    · rw [Function.forall_update_iff]
      exact ⟨(h.named i).step hids h.guids hs, fun a _ => h.named a⟩
    · rw [Function.update_self]
      exact h.pass.step hs
  · rw [if_neg hij]
    exact h.other hids hij hQ hs

omit [DecidableEq E] [DecidableEq ι] in
/-- What the invariant says about the next step of the pass. -/
theorem PassInv.removesExpired (h : PassInv j w pts pass) :
    RemovesExpired w pass ((pts j).call K) := by
  have hpass := h.pass
  cases hp : pts j with
  | clearing routes =>
    rw [hp] at hpass
    obtain ⟨hrows, -, hcov⟩ := hpass
    intro e he hmem
    rcases List.mem_append.mp hmem with hempty | hmem
    · exact absurd (List.eq_of_mem_replicate hempty) (h.guids e he)
    · exact hcov e he (hrows ▸ hmem)
  | expiring routes =>
    cases routes with
    | nil => trivial
    | cons r rest =>
      rw [hp] at hpass
      obtain ⟨hrows, hinst, hcov⟩ := hpass
      intro _ e he hg
      have hexp := hcov e he (hg ▸ List.mem_map_of_mem (hrows r List.mem_cons_self))
      omega
  | announcing ev =>
    rw [hp] at hpass
    exact hpass.elim
  | _ => trivial

end Moves
end Invariant

section Runs
variable {E C κ : Type} [DecidableEq E] {K : Kind E C κ}

theorem watch_step {ι : Type} [DecidableEq ι] (env : Env) (s : Schema C) (w : World K)
    (pts : ι → Point E) (i j : ι) (pass : Pass E) :
    watch j ((chart env s).pool w pts) (.step i) pass =
      if i = j then pass.note w ((pts j).call K) else pass := by
  have hnext : (((chart env s).pool w pts).threads j).next? = (pts j).call K := next?_prog (pts j)
  simp only [watch, Move.step.injEq, hnext]
  rfl

/-- A pass that runs among any other calls is safe as long as none of them refreshes a
row that it has read. -/
theorem prunesSafely {env : Env} (hids : ∀ i u, env.newV4 i = .ok u → u ≠ "") (s : Schema C) :
    PrunesSafely K env s := by
  intro ι _ w jobs j ms hguids hj hms
  refine meets_of_meets (I := fun S => (chart env s).At (fun w pts => PassInv j w pts S.2) S.1)
    (Chart.at_observed ?_ ?_) ?_ ?_ hms
  · intro w pts pass d h _
    refine ⟨h.guids, h.named, h.pass.mono ?_ fun hcov _ => hcov⟩
    simp [World.tick]
  · intro w pts pass i h hQ
    rw [watch_step]
    refine h.step hids (fun hcall => ?_) (chart_step env s w (pts i))
    have hnext (a : ι) : (((chart env s).pool w pts).threads a).next? = (pts a).call K :=
      next?_prog (pts a)
    rw [← hnext]
    exact hQ fun hfin => hcall ((hnext j).symm.trans hfin)
  · rintro S m ⟨pts, hS, h⟩ _
    cases m with
    | env d => trivial
    | step i =>
      rintro rfl
      rw [next?_threads hS]
      exact h.removesExpired
  · rw [calls_eq env s]
    refine ⟨_, rfl, hguids, fun i => ?_, ?_⟩
    · show Named K (jobs i).start
      cases jobs i <;> trivial
    · show PassAt w ⟨0, []⟩ (jobs j).start
      rw [hj]
      trivial

end Runs

/-- HTTP routes and TCP route mappings are pruned by the same code. -/
theorem prune_passes_safe (env : Env) (hids : ∀ i u, env.newV4 i = .ok u → u ≠ "")
    (s : Schema RouteColumn) (t : Schema TcpColumn) :
    PrunesSafely routeKind env s ∧ PrunesSafely tcpKind env t :=
  ⟨prunesSafely hids s, prunesSafely hids t⟩

/-- A route that lives for the given number of seconds. -/
def routeFor (ttl : ℤ) : Route :=
  { route := "a.example.com", port := 8080, ip := "10.0.0.1", ttl := some ttl }

/-- A route is registered for a second; a prune pass and two refreshes follow. -/
def pruneAndRefresh : Fin 4 → Job Route
  | 0 => .save (routeFor 1)
  | 1 => .prune
  | 2 => .save (routeFor 60)
  | 3 => .save (routeFor 60)

/-- The pass has read the expired row, one refresh is done and the other is about to save. -/
def refreshedAfterRead : List (Move ℕ (Fin 4)) :=
  [.step 0, .step 0, .step 0, .step 0, .step 0, .step 0, .env 3000000000, .step 1, .step 1,
    .step 2, .step 2, .step 2, .step 2, .step 3, .step 3]

/-- The pass deletes a row that expires in a minute, and announces the expiry of the row
that the second refresh has put back. -/
theorem refreshed_route_pruned :
    let go := play (observed (move .quiet (routeSchema .mysql)) (watch 1))
      (calls (World.initial routeKind) pruneAndRefresh, ⟨0, []⟩)
    let live := go refreshedAfterRead
    let deleted := go (refreshedAfterRead ++ [.step 1])
    let restored := go (refreshedAfterRead ++ [.step 1, .step 3])
    let expired := go (refreshedAfterRead ++ [.step 1, .step 3, .step 1])
    live.2.instant = 2000000000 ∧
      live.1.world.stored.map (fun e => (e.guid, e.expiresAt)) = [("u", 63000000000)] ∧
      deleted.1.world.stored = [] ∧ ¬PruneSafe 1 live (.step 1) ∧
      restored.1.world.now = 3000000000 ∧
      restored.1.world.stored.map (fun e => (e.guid, e.expiresAt)) = [("u", 63000000000)] ∧
      (expired.1.world.log.getLast?.map fun ev => (ev.type, ev.value.guid)) =
        some (.expire, "u") ∧
      ¬PruneSafe 1 restored (.step 1) := by
  decide +kernel

/-- The refreshes wait for the pass, and find nothing to refresh. -/
def refreshedAfterPass : List (Move ℕ (Fin 4)) :=
  [.step 0, .step 0, .step 0, .step 0, .step 0, .step 0, .env 3000000000, .step 1, .step 1,
    .step 1, .step 1, .step 2, .step 2, .step 2, .step 2, .step 2, .step 2]

theorem expired_route_pruned :
    Meets (observed (move .quiet (routeSchema .mysql)) (watch 1)) (PruneSafe 1)
      (calls (World.initial routeKind) pruneAndRefresh, ⟨0, []⟩) refreshedAfterPass :=
  (prune_passes_safe .quiet Env.quiet_uuids.nonempty (routeSchema .mysql) (.absent .anyKey)).1 (Fin 4)
    (World.initial routeKind) pruneAndRefresh 1 refreshedAfterPass (by decide) rfl
    (by decide +kernel)

end RoutingApi.Concurrency
