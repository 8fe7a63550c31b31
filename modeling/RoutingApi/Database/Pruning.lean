import RoutingApi.Database.Runs
import RoutingApi.Migration.Migrations

/-! A prune pass that runs alone: which rows it removes and announces, and why the second of
margin keeps it from removing a row too early. -/
namespace RoutingApi.Database
open Relational Gorm Models Process Program
open Migrations (routeSchema)

section Pass
variable {E C κ : Type} {K : Kind E C κ} {env : Env} {s : Schema C} {w : World K}

variable (K) in
/-- What a pass at this time takes for expired. -/
def Kind.expired (now : ℤ) (x : Row C) : Bool :=
  decide (K.expiresAt (K.model.ofRow x) < now - second)

theorem expiredRows_eq (w : World K) : expiredRows K w = w.table.rows.filter (K.expired w.now) := by
  unfold expiredRows Table.select
  apply List.filter_congr
  intro x hx
  simp [Kind.expired, holdsAll, Cond.holds, (w.typed x hx).expiry]

theorem World.Removes.rows {w' : World K} {p : String → Bool} (h : w.Removes w' p) :
    w'.table.rows = w.table.rows.filter fun x => !p (K.guid (K.model.ofRow x)) := by
  rw [h.table]
  rfl

/-- The guids that a pass deletes are those of the expired rows. -/
theorem mem_prunedGuids (hguids : ∀ y ∈ w.stored, K.guid y ≠ "") {x : Row C}
    (hx : x ∈ w.table.rows) :
    decide (K.guid (K.model.ofRow x) ∈ prunedGuids K ((expiredRows K w).map K.model.ofRow)) =
      K.expired w.now x := by
  have hmem := (filter_prunedGuids hguids).trans (expiredRows_eq w)
  have hiff := congrArg (x ∈ ·) hmem
  rw [Bool.eq_iff_iff]
  simpa [List.mem_filter, hx] using hiff

/-- The pass ends well when neither its SELECT nor its DELETE fails. -/
theorem pruneEntities_ok_iff (w : World K) :
    ((pruneEntities K).run (handler env s) w).1 = .ok () ↔
      env.fault w.calls = none ∧ env.fault (w.calls + 1) = none := by
  unfold pruneEntities findExpiredRoutes
  rw [bind_assoc, run_bind_ok (run_timeNow env s w)]
  cases hfind : env.fault w.calls with
  | some msg =>
    rw [run_bind_error (by rw [run_find, World.client, hfind])]
    simp
  | none =>
    rw [run_bind_ok (by rw [run_find, World.client, hfind])]
    have hcalls : w.called.calls = w.calls + 1 := rfl
    cases hdelete : env.fault (w.calls + 1) with
    | some msg =>
      rw [run_bind_error (by rw [run_deleteIn, World.client, hcalls, hdelete])]
      simp
    | none =>
      rw [run_bind_ok (by rw [run_deleteIn, World.client, hcalls, hdelete])]
      obtain ⟨w', hrun, -⟩ := run_emitExpired env s ((expiredRows K w).map K.model.ofRow)
        (w.called.called.remove fun g => decide (g ∈
          prunedGuids K ((expiredRows K w).map K.model.ofRow)))
      exact iff_of_true (congrArg Prod.fst hrun) ⟨rfl, rfl⟩

/-- A pass removes exactly the rows whose stored expiry lies more than a second back, announces
each of them once, and does neither when a call of it fails. Where a stored expiry is less than
a second before the requested one, no row is removed before its requested expiry. -/
theorem prune_exact (K : Kind E C κ) (env : Env) (s : Schema C) (w : World K)
    (hguids : ∀ y ∈ w.stored, K.guid y ≠ "") :
    let r := (pruneEntities K).run (handler env s) w
    (r.1 = .ok () ↔ env.fault w.calls = none ∧ env.fault (w.calls + 1) = none) ∧
      (r.1 = .ok () → r.2.table.rows = w.table.rows.filter (fun x => !K.expired w.now x) ∧
        r.2.log = w.log ++
          (w.table.rows.filter (K.expired w.now)).map fun x => ⟨.expire, K.model.ofRow x⟩) ∧
      (r.1 ≠ .ok () → r.2.table = w.table ∧ r.2.log = w.log) ∧
      ∀ requested : Row C → ℤ,
        (∀ x ∈ w.table.rows, requested x - second < K.expiresAt (K.model.ofRow x)) →
          ∀ x ∈ w.table.rows, w.now ≤ requested x → x ∈ r.2.table.rows := by
  intro r
  have hpass : Pruned env w r := run_pruneEntities w
  have hok : r.1 = .ok () ↔ env.fault w.calls = none ∧ env.fault (w.calls + 1) = none :=
    pruneEntities_ok_iff w
  refine ⟨hok, ?_⟩
  clear_value r
  cases hpass with
  | failed msg w' hw _ =>
    refine ⟨nofun, fun _ => ⟨hw.table, by simpa using hw.log⟩, ?_⟩
    intro requested _ x hx _
    rw [hw.table]
    exact hx
  | pruned w₁ w' hr hev =>
    have hrows : w'.table.rows = w.table.rows.filter fun x => !K.expired w.now x := by
      rw [hev.table, hr.rows]
      apply List.filter_congr
      intro x hx
      rw [← mem_prunedGuids hguids hx]
    refine ⟨fun _ => ⟨hrows, ?_⟩, fun h => absurd rfl h, ?_⟩
    · rw [hev.log, hr.log, expiredRows_eq, List.map_map]
      rfl
    · intro requested hstored x hx hnow
      have hexp := hstored x hx
      rw [hrows, List.mem_filter]
      refine ⟨hx, ?_⟩
      simp only [Kind.expired, Bool.not_eq_true', decide_eq_false_iff_not]
      omega

end Pass

def prunedRun : List (Op Route) :=
  [.save { route := "a.com", ip := "1.1.1.1", port := 80, ttl := some 10 },
    .save { route := "b.com", ip := "1.1.1.1", port := 80, ttl := some 60 },
    .tick 30000000000]

/-- Of two routes, the one whose time has run out is removed. -/
theorem pruned_after_ttl :
    let w := runOps .quiet (routeSchema .mysql) prunedRun (.initial routeKind)
    let r := (pruneEntities routeKind).run (handler .quiet (routeSchema .mysql)) w
    r.1 = .ok () ∧ r.2.stored.map (·.route) = ["b.com"] := by
  intro w r
  have hguids : ∀ y ∈ w.stored, routeKind.guid y ≠ "" :=
    runOps_guids Env.quiet_uuids (by simp [World.stored, World.initial, Table.empty]) prunedRun
  obtain ⟨hok, hrows, -, -⟩ := prune_exact routeKind .quiet (routeSchema .mysql) w hguids
  have hr : r.1 = .ok () := hok.mpr ⟨rfl, rfl⟩
  refine ⟨hr, ?_⟩
  rw [World.stored, (hrows hr).1]
  decide +kernel

end RoutingApi.Database
