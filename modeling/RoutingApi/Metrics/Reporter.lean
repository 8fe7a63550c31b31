import RoutingApi.Database.Runs
import RoutingApi.Migration.Migrations

/-! `MetricsReporter`: gauges of the routes that are set by counting rows at every tick and moved
by the events in between, and how far they are from the tables they are about. -/
namespace RoutingApi.Metrics
open Relational Models Process Program Database
open Migrations (routeSchema tcpSchema)

section Model

inductive Stat where
  | totalHttpSubscriptions
  | totalHttpRoutes
  | totalTcpSubscriptions
  | totalTcpRoutes
  | totalTokenErrors
  | keyRefreshEvents
  deriving DecidableEq, Repr

/-- A call of `PartialStatsdClient`; its error is only logged. -/
inductive StatsCall where
  | gauge (stat : Stat) (value : ℤ)
  | gaugeDelta (stat : Stat) (value : ℤ)
  deriving DecidableEq, Repr

def StatsCall.apply (stat : Stat) (value : ℤ) : StatsCall → ℤ
  | .gauge stat' v => if stat' = stat then v else value
  | .gaugeDelta stat' d => if stat' = stat then value + d else value

/-- The value of a stat after some calls. -/
def value (stat : Stat) (calls : List StatsCall) : ℤ := calls.foldl (StatsCall.apply stat) 0

def getStatsEventType {E : Type} (event : Event E) : ℤ :=
  if event.type = .create then 1
  else if event.type = .expire ∨ event.type = .delete then -1
  else 0

section Total
variable {E C κ : Type} (K : Kind E C κ) (env : Env) (s : Schema C)

/-- A failed read counts as no routes. -/
def getTotal (w : World K) : ℤ × World K :=
  match (readEntities K).run (handler env s) w with
  | (.ok routes, w') => (routes.length, w')
  | (.error _, w') => (0, w')

end Total

def getTotalRoutes : Env → Schema RouteColumn → World routeKind → ℤ × World routeKind :=
  getTotal routeKind

def getTotalTcpRoutes : Env → Schema TcpColumn → World tcpKind → ℤ × World tcpKind :=
  getTotal tcpKind

/-- The two tables and all calls that the reporter has made. -/
structure System where
  routes : World routeKind
  tcpRoutes : World tcpKind
  calls : List StatsCall

/-- What the world outside decides for each table, and the schemas. -/
structure Setting where
  routes : Env
  tcpRoutes : Env
  routeSchema : Schema RouteColumn
  tcpSchema : Schema TcpColumn

/-- The beginning of `Run`. -/
def start (routes : World routeKind) (tcpRoutes : World tcpKind) : System :=
  ⟨routes, tcpRoutes, [.gauge .totalHttpSubscriptions 0, .gauge .totalTcpSubscriptions 0]⟩

/-- A tick of the reporter finds the two counters at the given values. -/
inductive Act where
  | save (r : Route)
  | delete (r : Route)
  | prune
  | saveTcp (m : TcpRouteMapping)
  | deleteTcp (m : TcpRouteMapping)
  | pruneTcp
  | clock (d : ℕ)
  | tick (tokenErrors keyRefreshes : ℤ)
  deriving DecidableEq, Repr

def Act.routeOp : Act → Option (Op Route)
  | .save r => some (.save r)
  | .delete r => some (.delete r)
  | .prune => some .prune
  | .clock d => some (.tick d)
  | _ => none

def Act.tcpOp : Act → Option (Op TcpRouteMapping)
  | .saveTcp m => some (.save m)
  | .deleteTcp m => some (.delete m)
  | .pruneTcp => some .prune
  | .clock d => some (.tick d)
  | _ => none

def Act.isTick : Act → Bool
  | .tick _ _ => true
  | _ => false

section Events
variable {E C κ : Type} [DecidableEq E] {K : Kind E C κ}

def perform (env : Env) (s : Schema C) (w : World K) : Option (Op E) → World K
  | some op => op.perform env s w
  | none => w

/-- The calls for the events that were emitted between two states. -/
def eventCalls (stat : Stat) (w w' : World K) : List StatsCall :=
  (w'.log.drop w.log.length).map fun event => .gaugeDelta stat (getStatsEventType event)

end Events

variable (cfg : Setting)

/-- One step of the system, with all that the reporter does about it. -/
def step (p : System) : Act → System
  | .tick tokenErrors keyRefreshes =>
    let (routes, w) := getTotalRoutes cfg.routes cfg.routeSchema p.routes
    let (tcpRoutes, v) := getTotalTcpRoutes cfg.tcpRoutes cfg.tcpSchema p.tcpRoutes
    ⟨w, v, p.calls ++ [.gauge .totalHttpRoutes routes, .gaugeDelta .totalHttpSubscriptions 0,
      .gauge .totalTcpRoutes tcpRoutes, .gaugeDelta .totalTcpSubscriptions 0,
      .gauge .totalTokenErrors tokenErrors, .gauge .keyRefreshEvents keyRefreshes]⟩
  | act =>
    let w := perform cfg.routes cfg.routeSchema p.routes act.routeOp
    let v := perform cfg.tcpRoutes cfg.tcpSchema p.tcpRoutes act.tcpOp
    ⟨w, v, p.calls ++ eventCalls .totalHttpRoutes p.routes w ++
      eventCalls .totalTcpRoutes p.tcpRoutes v⟩

end Model

section Definitions
variable {E C κ : Type} {K : Kind E C κ}

/-- How many rows have not expired. -/
def live (w : World K) : ℕ := w.stored.countP fun e => decide (w.now < K.expiresAt e)

/-- How many rows have expired and are still stored. -/
def expired (w : World K) : ℕ := w.stored.countP fun e => decide (¬w.now < K.expiresAt e)

/-- How many rows a count of the rows would leave out. -/
def uncounted (env : Env) (w : World K) : ℕ :=
  match env.fault w.calls with
  | none => expired w
  | some _ => w.stored.length

/-- A gauge lies between the live and the stored rows. -/
def Accurate (w : World K) (gauge : ℤ) : Prop := live w ≤ gauge ∧ gauge ≤ w.stored.length

instance (w : World K) (gauge : ℤ) : Decidable (Accurate w gauge) :=
  inferInstanceAs (Decidable (live w ≤ gauge ∧ gauge ≤ w.stored.length))

end Definitions

section Counting
variable {E C κ : Type} {K : Kind E C κ} {env : Env} {s : Schema C} {w w' : World K}

theorem live_add_expired (w : World K) : live w + expired w = w.stored.length := by
  unfold live expired
  rw [List.length_eq_countP_add_countP (fun e => decide (w.now < K.expiresAt e))]
  simp

theorem select_after_length (w : World K) :
    (w.table.select [.after K.expiry w.now]).length = live w := by
  unfold live World.stored Table.select
  rw [List.countP_map, ← List.countP_eq_length_filter]
  apply List.countP_congr
  intro x hx
  simp [holdsAll, Cond.holds, (w.typed x hx).expiry]

/-- A tick counts all rows but the uncounted ones, and changes no row. -/
theorem getTotal_spec (env : Env) (s : Schema C) (w : World K) :
    (getTotal K env s w).1 + uncounted env w = w.stored.length ∧
      w.Emits (getTotal K env s w).2 [] := by
  have hsum := live_add_expired w
  unfold getTotal readEntities uncounted
  rw [run_bind_ok (run_timeNow env s w), run_find]
  rcases w.client_cases env fun w' : World K =>
      (.ok ((w'.table.select [.after K.expiry w.now]).map K.model.ofRow), w') with
    ⟨msg, hf, hc⟩ | ⟨hf, hc⟩
  · rw [hc, hf]
    exact ⟨by simp, w.emits_called⟩
  · rw [hc, hf]
    refine ⟨?_, w.emits_called⟩
    have hlive : (w.called.table.select [.after K.expiry w.now]).length = live w :=
      select_after_length w
    simp only [List.length_map, hlive]
    omega

/-- The events that were emitted on the way from one state to another, added up. -/
def delta (events : List (Event E)) : ℤ := (events.map getStatsEventType).sum

theorem delta_expire (routes : List E) :
    delta (routes.map fun r => (⟨.expire, r⟩ : Event E)) = -routes.length := by
  induction routes with
  | nil => rfl
  | cons r rest ih =>
    unfold delta at ih ⊢
    simp only [List.map_cons, List.sum_cons, ih, List.length_cons]
    simp [getStatsEventType]

/-- Every effect changes the number of rows as its events say. -/
theorem counted_of_effect (hguids : ∀ y ∈ w.stored, K.guid y ≠ "") (h : Effect env s w w') :
    (w'.stored.length : ℤ) = w.stored.length + delta (w'.log.drop w.log.length) := by
  cases h with
  | ticked d => simp [delta, World.tick, World.stored]
  | idle _ hw =>
    rw [hw.stored, hw.log]
    simp [delta]
  | updated m x e w₁ _ hx hu hg hup hev =>
    rw [hev.stored, hev.log, hup.log, hup.length_stored]
    simp [delta, getStatsEventType]
  | created m i j g u e₀ w₁ _ hx hi hij hj hg hu he hins hev =>
    rw [hev.stored, hev.log, hins.log, hins.stored]
    simp [delta, getStatsEventType]
  | deleted m x w₁ _ hx hg hr hev =>
    have hlength := hr.length_stored
    rw [w.filter_guid hx.mem] at hlength
    rw [hev.stored, hev.log, hr.log]
    simp [delta, getStatsEventType] at hlength ⊢
    omega
  | pruned w₁ _ hr hev =>
    have hlength := hr.length_stored
    rw [filter_prunedGuids hguids] at hlength
    rw [hev.stored, hev.log, hr.log, List.drop_left, delta_expire, List.length_map]
    omega

end Counting

section Gauge
variable {cfg : Setting} {p : System} {n : ℕ}

theorem value_append (stat : Stat) (calls calls' : List StatsCall) :
    value stat (calls ++ calls') = calls'.foldl (StatsCall.apply stat) (value stat calls) :=
  List.foldl_append

theorem foldl_deltas {E : Type} (stat stat' : Stat) (events : List (Event E)) (v : ℤ) :
    (events.map fun event => StatsCall.gaugeDelta stat' (getStatsEventType event)).foldl
      (StatsCall.apply stat) v = if stat' = stat then v + delta events else v := by
  induction events generalizing v with
  | nil => simp [delta]
  | cons event rest ih =>
    rw [List.map_cons, List.foldl_cons, ih]
    by_cases h : stat' = stat
    · simp [StatsCall.apply, delta, h, add_assoc]
    · simp [StatsCall.apply, h]

theorem step_of_not_tick (cfg : Setting) (p : System) {act : Act} (h : act.isTick = false) :
    step cfg p act =
      let w := perform cfg.routes cfg.routeSchema p.routes act.routeOp
      let v := perform cfg.tcpRoutes cfg.tcpSchema p.tcpRoutes act.tcpOp
      ⟨w, v, p.calls ++ eventCalls .totalHttpRoutes p.routes w ++
        eventCalls .totalTcpRoutes p.tcpRoutes v⟩ := by
  cases act with
  | tick _ _ => cases h
  | _ => rfl

/-- The gauge of the routes counts all rows but `n`, and every row has a guid. -/
structure Counts (n : ℕ) (p : System) : Prop where
  guids : ∀ r ∈ p.routes.stored, r.guid ≠ ""
  total : value .totalHttpRoutes p.calls + n = p.routes.stored.length

theorem counted_of_perform (hids : cfg.routes.Uuids)
    (hguids : ∀ r ∈ p.routes.stored, r.guid ≠ "") (op : Option (Op Route)) :
    let w := perform cfg.routes cfg.routeSchema p.routes op
    (∀ r ∈ w.stored, r.guid ≠ "") ∧ (w.stored.length : ℤ) =
      p.routes.stored.length + delta (w.log.drop p.routes.log.length) := by
  cases op with
  | none => exact ⟨hguids, by simp [perform, delta]⟩
  | some op =>
    have heffect : Effect cfg.routes cfg.routeSchema p.routes
        (op.perform cfg.routes cfg.routeSchema p.routes) := op.effect p.routes
    exact ⟨heffect.guids hids hguids, counted_of_effect hguids heffect⟩

theorem Counts.step (hids : cfg.routes.Uuids) (h : Counts n p) {act : Act}
    (hact : act.isTick = false) : Counts n (step cfg p act) := by
  obtain ⟨hguids, hlength⟩ := counted_of_perform hids h.guids act.routeOp
  rw [step_of_not_tick cfg p hact]
  refine ⟨hguids, ?_⟩
  have htotal := h.total
  simp only [eventCalls, value_append, foldl_deltas, if_true, reduceCtorEq, if_false]
  omega

/-- A tick sets the gauge anew. -/
theorem Counts.tick (cfg : Setting) (hguids : ∀ r ∈ p.routes.stored, r.guid ≠ "") (a b : ℤ) :
    Counts (uncounted cfg.routes p.routes) (Metrics.step cfg p (.tick a b)) := by
  obtain ⟨htotal, hemits⟩ := getTotal_spec cfg.routes cfg.routeSchema p.routes
  have hstored : (Metrics.step cfg p (.tick a b)).routes.stored = p.routes.stored := hemits.stored
  constructor
  · rw [hstored]
    exact hguids
  · rw [hstored, ← htotal]
    simp [Metrics.step, value_append, StatsCall.apply, getTotalRoutes]

theorem guids_play (hids : cfg.routes.Uuids) (hguids : ∀ r ∈ p.routes.stored, r.guid ≠ "")
    (acts : List Act) : ∀ r ∈ (play (step cfg) p acts).routes.stored, r.guid ≠ "" := by
  refine play_invariant (I := fun p : System => ∀ r ∈ p.routes.stored, r.guid ≠ "") ?_ hguids
  intro p act hp
  cases hact : act.isTick with
  | true =>
    cases act with
    | tick a b => exact (Counts.tick cfg hp a b).guids
    | _ => cases hact
  | false =>
    rw [step_of_not_tick cfg p hact]
    exact (counted_of_perform hids hp act.routeOp).1

/-- After a tick the gauge stays as far below the number of rows as the tick left it. -/
theorem counts_since_tick (hids : cfg.routes.Uuids)
    (hguids : ∀ r ∈ p.routes.stored, r.guid ≠ "") (before since : List Act) (a b : ℤ)
    (hsince : ∀ act ∈ since, act.isTick = false) :
    Counts (uncounted cfg.routes (play (step cfg) p before).routes)
      (play (step cfg) p (before ++ .tick a b :: since)) := by
  rw [play_append, play_cons]
  have htick := Counts.tick cfg (guids_play hids hguids before) a b
  generalize step cfg (play (step cfg) p before) (.tick a b) = q at htick ⊢
  induction since generalizing q with
  | nil => exact htick
  | cons act rest ih =>
    have hrest : ∀ x ∈ rest, x.isTick = false := fun x hx => hsince x (List.mem_cons_of_mem act hx)
    exact ih hrest _ (htick.step hids (hsince act List.mem_cons_self))

/-- At every point after a tick, `before` being what came before the last one: the gauge of the
routes is accurate exactly if the rows that this tick left out are at most as many as the rows
that have expired by now and are still stored. -/
theorem route_gauge_accurate_iff (cfg : Setting) (hids : cfg.routes.Uuids)
    (routes : World routeKind) (tcpRoutes : World tcpKind)
    (hguids : ∀ r ∈ routes.stored, r.guid ≠ "") (before since : List Act)
    (tokenErrors keyRefreshes : ℤ) (hsince : ∀ act ∈ since, act.isTick = false) :
    let p := play (step cfg) (start routes tcpRoutes) before
    let q := play (step cfg) (start routes tcpRoutes)
      (before ++ .tick tokenErrors keyRefreshes :: since)
    Accurate q.routes (value .totalHttpRoutes q.calls) ↔
      uncounted cfg.routes p.routes ≤ expired q.routes := by
  intro p q
  have hcounts : Counts (uncounted cfg.routes p.routes) q :=
    counts_since_tick (p := start routes tcpRoutes) hids hguids before since _ _ hsince
  have htotal := hcounts.total
  have hsum := live_add_expired q.routes
  unfold Accurate
  omega

/-- No call fails, and the tables are migrated. -/
def quiet : Setting := ⟨.quiet, .quiet, routeSchema .mysql, tcpSchema .mysql⟩

/-- A route that lives for the given number of seconds. -/
def shortRoute (ttl : ℤ) : Route :=
  { route := "a.example.com", port := 8080, ip := "10.0.0.1", ttl := some ttl }

/-- A tick while the route is alive counts it, and the gauge follows when it is pruned. -/
theorem route_gauge_after_prune :
    let q := play (step quiet) (start (.initial _) (.initial _))
      ([.save (shortRoute 1)] ++ .tick 0 0 :: [.clock 3000000000, .prune])
    Accurate q.routes (value .totalHttpRoutes q.calls) ∧ q.routes.stored = [] :=
  ⟨(route_gauge_accurate_iff quiet Env.quiet_uuids (.initial _) (.initial _) (by decide +kernel)
    [.save (shortRoute 1)] [.clock 3000000000, .prune] 0 0 (by decide)).mpr (by decide +kernel),
    by decide +kernel⟩

/-- A tick after the route has expired does not count it, and its pruning is then subtracted. -/
theorem route_gauge_negative :
    let q := play (step quiet) (start (.initial _) (.initial _))
      [.save (shortRoute 1), .clock 3000000000, .tick 0 0, .prune]
    value .totalHttpRoutes q.calls = -1 ∧
      ¬Accurate q.routes (value .totalHttpRoutes q.calls) := by
  decide +kernel

end Gauge
end RoutingApi.Metrics
