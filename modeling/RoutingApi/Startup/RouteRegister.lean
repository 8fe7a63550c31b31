import RoutingApi.Database.Leases
import RoutingApi.Startup.Config

/-! The runner that registers the route of the API itself, and registers it again at every tick
until it is told to stop, while other operations on routes go on. -/
namespace RoutingApi.Startup.RouteRegister
open Relational Gorm Models Duration Process Program Replica Database

section Model

/-- A `time.Ticker`: when it ticks next, and whether its channel holds a tick. -/
structure Ticker where
  due : ℤ
  buffered : Bool
  deriving DecidableEq, Repr

/-- The channel has room for one tick, and the ticker does not wait for the receiver. -/
def Ticker.advance (period now : ℤ) (t : Ticker) : Ticker :=
  if now < t.due then t else ⟨t.due + period * ((now - t.due) / period + 1), true⟩

/-- Where `Run` is; `stopped` with what it returned. -/
inductive Phase where
  | starting
  | registered
  | stopped (err : Option String)
  deriving DecidableEq, Repr

/-- The time of the last registration that succeeded is kept for the statements only. -/
structure State where
  world : World routeKind
  ticker : Ticker
  phase : Phase
  refreshed : ℤ

inductive Move where
  | start
  | tick
  | signal
  | wait (d : ℕ)
  | other (op : Op Route)
  deriving DecidableEq, Repr

variable (r : RouteRegister) (env : Env) (s : Schema RouteColumn)

/-- The first registration, after which the runner is ready. -/
def register (st : State) : State :=
  let result := (saveRoute r.route).run (handler env s) st.world
  match result.1 with
  | .ok () => { st with world := result.2, phase := .registered, refreshed := st.world.now }
  | .error err =>
    { st with world := result.2, phase := .stopped (some ("registration error: " ++ err.message)) }

/-- A registration at a tick; an error of it is only logged. -/
def refresh (st : State) : State :=
  let result := (saveRoute r.route).run (handler env s) st.world
  { st with
    world := result.2
    ticker := { st.ticker with buffered := false }
    refreshed := match result.1 with
      | .ok () => st.world.now
      | .error _ => st.refreshed }

def unregister (st : State) : State :=
  let result := (deleteRoute r.route).run (handler env s) st.world
  { st with
    world := result.2
    phase := .stopped (match result.1 with
      | .ok () => none
      | .error err => some err.message) }

/-- Time passes only by `wait`. -/
def move (st : State) : Move → State
  | .start => if st.phase = .starting then register r env s st else st
  | .tick => if st.phase = .registered ∧ st.ticker.buffered = true then refresh r env s st else st
  | .signal => if st.phase = .registered then unregister r env s st else st
  | .wait d =>
    { st with
      world := st.world.tick d
      ticker := st.ticker.advance r.ticker (st.world.now + d) }
  | .other (.tick _) => st
  | .other op => { st with world := op.perform env s st.world }

/-- The other operations are on other routes. -/
def Foreign (k : Route.Key) : Move → Prop
  | .other (.save x) => x.key ≠ k
  | .other (.delete x) => x.key ≠ k
  | _ => True

/-- No tick is lost: none is left in the channel when the next is due. -/
def Prompt (st : State) : Move → Prop
  | .wait d => st.world.now + d < st.ticker.due + if st.ticker.buffered then 0 else r.ticker
  | _ => True

instance (k : Route.Key) : (m : Move) → Decidable (Foreign k m)
  | .other (.save x) => inferInstanceAs (Decidable (x.key ≠ k))
  | .other (.delete x) => inferInstanceAs (Decidable (x.key ≠ k))
  | .other (.tick _) => isTrue trivial
  | .other .prune => isTrue trivial
  | .start => isTrue trivial
  | .tick => isTrue trivial
  | .signal => isTrue trivial
  | .wait _ => isTrue trivial

instance (st : State) : (m : Move) → Decidable (Prompt r st m)
  | .wait _ => inferInstanceAs (Decidable (_ < _))
  | .start => isTrue trivial
  | .tick => isTrue trivial
  | .signal => isTrue trivial
  | .other _ => isTrue trivial

/-- The runner starts in the world that earlier operations have left. -/
def startingAfter (ops : List (Op Route)) (t : Ticker) : State :=
  ⟨runOps env s ops (.initial routeKind), t, .starting, 0⟩

end Model

section Listed
variable {r : RouteRegister} {env : Env} {s : Schema RouteColumn} {st : State} {m : Move}

/-- What is seen of the route after a registration. -/
def seen (r : RouteRegister) (refreshed t : ℤ) : Option (Option ℤ × String) :=
  if t < refreshed + routeView.duration r.route then some (routeView.shown r.route) else none

/-- What will be seen of the route if nothing more happens to it. -/
structure Invariant (r : RouteRegister) (st : State) : Prop where
  kept : Kept st.world
  registered : st.phase = .registered → ∀ t ≥ st.world.now,
    live t (routeView.held st.world) r.route.key = seen r st.refreshed t
  gone : st.phase = .stopped none → ∀ t ≥ st.world.now,
    live t (routeView.held st.world) r.route.key = none

theorem kept_perform (hids : env.Uuids) {w : World routeKind} (h : Kept w) (op : Op Route) :
    Kept (op.perform env s w) := h.effect hids (Route.model_exact s) (op.effect w)

/-- A registration that succeeds is seen. -/
theorem live_saved (hids : env.Uuids) (hfull : routeView.Full r.route) {w : World routeKind}
    (h : Kept w) (hok : ((saveRoute r.route).run (handler env s) w).1 = .ok ()) (t : ℤ) :
    live t (routeView.held ((saveRoute r.route).run (handler env s) w).2) r.route.key =
      seen r w.now t := by
  rcases held_save routeView hids (Route.model_exact s) h r.route with
    ⟨-, l, hheld, hl⟩ | ⟨⟨e, herror⟩, -⟩
  · have hgrant : grant (routeKind.key r.route) l (routeView.held w) r.route.key =
        some (routeView.asked w.now r.route) := by
      rw [hl hfull]
      exact Function.update_self _ _ _
    rw [show routeView.held ((saveRoute r.route).run (handler env s) w).2 = _ from hheld]
    rw [live, hgrant]
    rfl
  · rw [show ((saveRoute r.route).run (handler env s) w).1 = _ from herror] at hok
    cases hok

/-- How the three operations of the runner end. -/
theorem register_cases (r : RouteRegister) (env : Env) (s : Schema RouteColumn) (st : State) :
    let result := (saveRoute r.route).run (handler env s) st.world
    (result.1 = .ok () ∧ register r env s st =
        { st with world := result.2, phase := .registered, refreshed := st.world.now }) ∨
      ∃ err, register r env s st = { st with world := result.2, phase := .stopped (some err) } := by
  intro result
  cases hresult : result.1 with
  | ok u => exact .inl ⟨rfl, by simp only [register, show _ = _ from hresult, result]⟩
  | error err => exact .inr ⟨_, by simp only [register, show _ = _ from hresult, result]; rfl⟩

theorem refresh_cases (r : RouteRegister) (env : Env) (s : Schema RouteColumn) (st : State) :
    let result := (saveRoute r.route).run (handler env s) st.world
    (result.1 = .ok () ∧ refresh r env s st = { st with
        world := result.2, ticker := { st.ticker with buffered := false },
        refreshed := st.world.now }) ∨
      (∃ err, result.1 = .error err) ∧ refresh r env s st = { st with
        world := result.2, ticker := { st.ticker with buffered := false } } := by
  intro result
  cases hresult : result.1 with
  | ok u => exact .inl ⟨rfl, by simp only [refresh, show _ = _ from hresult, result]⟩
  | error err => exact .inr ⟨⟨err, rfl⟩, by simp only [refresh, show _ = _ from hresult, result]⟩

theorem unregister_cases (r : RouteRegister) (env : Env) (s : Schema RouteColumn) (st : State) :
    let result := (deleteRoute r.route).run (handler env s) st.world
    (result.1 = .ok () ∧ unregister r env s st =
        { st with world := result.2, phase := .stopped none }) ∨
      ∃ err, unregister r env s st = { st with world := result.2, phase := .stopped (some err) } := by
  intro result
  cases hresult : result.1 with
  | ok u => exact .inl ⟨rfl, by simp only [unregister, show _ = _ from hresult, result]⟩
  | error err => exact .inr ⟨_, by simp only [unregister, show _ = _ from hresult, result]; rfl⟩

theorem Invariant.register (hids : env.Uuids) (hfull : routeView.Full r.route) (h : Invariant r st) :
    Invariant r (register r env s st) := by
  have hkept : Kept ((saveRoute r.route).run (handler env s) st.world).2 :=
    kept_perform hids h.kept (.save r.route)
  rcases register_cases r env s st with ⟨hok, hregister⟩ | ⟨err, hregister⟩
  · rw [hregister]
    exact ⟨hkept, fun _ t _ => live_saved hids hfull h.kept hok t, fun hphase => by cases hphase⟩
  · rw [hregister]
    exact ⟨hkept, fun hphase => (by cases hphase), fun hphase => by cases hphase⟩

theorem Invariant.refresh (hids : env.Uuids) (hfull : routeView.Full r.route) (h : Invariant r st)
    (hphase : st.phase = .registered) : Invariant r (refresh r env s st) := by
  have hkept : Kept ((saveRoute r.route).run (handler env s) st.world).2 :=
    kept_perform hids h.kept (.save r.route)
  have hnow : ((saveRoute r.route).run (handler env s) st.world).2.now = st.world.now :=
    (run_saveEntity r.route st.world).now
  have hgone : st.phase ≠ .stopped none := by simp [hphase]
  rcases refresh_cases r env s st with ⟨hok, hrefresh⟩ | ⟨⟨err, herror⟩, hrefresh⟩
  · rw [hrefresh]
    exact ⟨hkept, fun _ t _ => live_saved hids hfull h.kept hok t, fun hstopped => absurd hstopped hgone⟩
  · rw [hrefresh]
    refine ⟨hkept, fun _ t ht => ?_, fun hstopped => absurd hstopped hgone⟩
    rcases held_save routeView hids (Route.model_exact s) h.kept r.route with
      ⟨hok, -⟩ | ⟨-, hheld⟩
    · rw [show ((saveEntity routeKind r.route).run (handler env s) st.world).1 = _ from herror] at hok
      cases hok
    · have hheld : routeView.held ((saveRoute r.route).run (handler env s) st.world).2 =
          routeView.held st.world := hheld
      rw [hheld]
      exact h.registered hphase t (hnow ▸ ht)

theorem Invariant.unregister (hids : env.Uuids) (h : Invariant r st) :
    Invariant r (unregister r env s st) := by
  have hkept : Kept ((deleteRoute r.route).run (handler env s) st.world).2 :=
    kept_perform hids h.kept (.delete r.route)
  rcases unregister_cases r env s st with ⟨hok, hunregister⟩ | ⟨err, hunregister⟩
  · rw [hunregister]
    refine ⟨hkept, fun hphase => (by cases hphase), fun _ t _ => ?_⟩
    rcases held_delete routeView env s h.kept r.route with ⟨-, hheld⟩ | ⟨⟨e, herror⟩, -⟩
    · have hheld : routeView.held ((deleteRoute r.route).run (handler env s) st.world).2 =
          revoke (routeKind.key r.route) (routeView.held st.world) := hheld
      have hrevoke : revoke (routeKind.key r.route) (routeView.held st.world) r.route.key = none :=
        Function.update_self _ _ _
      rw [hheld, live, hrevoke]
      rfl
    · rw [show ((deleteRoute r.route).run (handler env s) st.world).1 = _ from herror] at hok
      cases hok
  · rw [hunregister]
    exact ⟨hkept, fun hphase => (by cases hphase), fun hphase => by cases hphase⟩

theorem Invariant.wait (h : Invariant r st) (d : ℕ) : Invariant r (move r env s st (.wait d)) := by
  have hlater {t : ℤ} (ht : st.world.now + d ≤ t) : st.world.now ≤ t := by omega
  exact ⟨⟨h.kept.exact, h.kept.unique, h.kept.guids⟩,
    fun hphase t ht => h.registered hphase t (hlater ht),
    fun hphase t ht => h.gone hphase t (hlater ht)⟩

theorem Invariant.other (hids : env.Uuids) (h : Invariant r st) {op : Op Route}
    (hop : ∀ x, op = .save x ∨ op = .delete x → x.key ≠ r.route.key) :
    Invariant r { st with world := op.perform env s st.world } := by
  have hnow : st.world.now ≤ (op.perform env s st.world).now := (op.effect st.world).now
  have hlive {t : ℤ} (ht : (op.perform env s st.world).now ≤ t) :
      live t (routeView.held (op.perform env s st.world)) r.route.key =
        live t (routeView.held st.world) r.route.key :=
    live_perform_of_ne hids (Route.model_exact s) h.kept hop (hnow.trans ht)
  exact ⟨kept_perform hids h.kept op,
    fun hphase t ht => (hlive ht).trans (h.registered hphase t (hnow.trans ht)),
    fun hphase t ht => (hlive ht).trans (h.gone hphase t (hnow.trans ht))⟩

theorem Invariant.move (hids : env.Uuids) (hfull : routeView.Full r.route) (h : Invariant r st)
    (hm : Foreign r.route.key m) : Invariant r (move r env s st m) := by
  cases m with
  | start =>
    simp only [RouteRegister.move]
    split
    next => exact h.register hids hfull
    next => exact h
  | tick =>
    simp only [RouteRegister.move]
    split
    next hc => exact h.refresh hids hfull hc.1
    next => exact h
  | signal =>
    simp only [RouteRegister.move]
    split
    next => exact h.unregister hids
    next => exact h
  | wait d => exact h.wait d
  | other op =>
    cases op with
    | tick d => exact h
    | save x =>
      refine h.other hids fun y hy => ?_
      rcases hy with hy | hy <;> cases hy
      exact hm
    | delete x =>
      refine h.other hids fun y hy => ?_
      rcases hy with hy | hy <;> cases hy
      exact hm
    | prune =>
      refine h.other hids fun y hy => ?_
      rcases hy with hy | hy <;> cases hy

theorem invariant_play (hids : env.Uuids) (hfull : routeView.Full r.route) {ms : List Move}
    (hms : ∀ m ∈ ms, Foreign r.route.key m) (h : Invariant r st) :
    Invariant r (play (RouteRegister.move r env s) st ms) := by
  refine play_of_meets (I := Invariant r) (Q := fun _ m => Foreign r.route.key m) ?_ h ?_
  · exact fun st m h hm => h.move hids hfull hm
  · exact meets_of_forall hms

theorem kept_runOps (hids : env.Uuids) (ops : List (Op Route)) :
    Kept (runOps env s ops (.initial routeKind)) :=
  runOps_invariant (fun _ _ h hw => h.effect hids (Route.model_exact s) hw) Kept.initial ops

theorem guidsDrawn_runOps (ops : List (Op Route)) :
    GuidsDrawn env (runOps env s ops (.initial routeKind)) :=
  runOps_invariant (fun _ _ h hw => h.effect hw) (fun e he => by cases he) ops

theorem invariant_starting (hids : env.Uuids) (ops : List (Op Route)) (t : Ticker) :
    Invariant r (startingAfter env s ops t) :=
  ⟨kept_runOps hids ops, fun hphase => (by cases hphase), fun hphase => by cases hphase⟩

/-- A register with a TTL of four seconds. -/
def shortRegister : RouteRegister :=
  ⟨selfRoute "10.0.0.1" 3000 "log" "example.com" 4000000000, 2000000000⟩

/-- The route is registered, and registered again after it would otherwise have run out. -/
def refreshedRun : List Move :=
  [.start, .wait 3000000000, .tick,
    .other (.save { route := "b.com", ip := "1.1.1.1", port := 80, ttl := some 1, logGuid := "b" }),
    .wait 2500000000, .other .prune]

end Listed

section Punctual
variable {r : RouteRegister} {env : Env} {s : Schema RouteColumn} {st : State} {m : Move}

/-- The ticker is at the time, and the last registration was at the last tick that was taken. -/
structure OnTime (r : RouteRegister) (st : State) : Prop where
  next : st.world.now < st.ticker.due
  last : st.ticker.due - r.ticker ≤ st.world.now
  fresh : st.phase = .registered →
    st.ticker.due - (if st.ticker.buffered then 2 * r.ticker else r.ticker) ≤ st.refreshed

theorem OnTime.wait (h : OnTime r st) {d : ℕ}
    (hprompt : Prompt r st (.wait d)) : OnTime r (move r env s st (.wait d)) := by
  have hnext := h.next
  have hlast := h.last
  simp only [Prompt] at hprompt
  by_cases hbefore : st.world.now + d < st.ticker.due
  · have hmove : move r env s st (.wait d) = { st with world := st.world.tick d } := by
      simp [move, Ticker.advance, hbefore]
    rw [hmove]
    refine ⟨hbefore, ?_, h.fresh⟩
    simp only [World.tick]
    omega
  · have hempty : st.ticker.buffered = false := by
      by_contra hbuffered
      rw [eq_true_of_ne_false hbuffered] at hprompt
      simp only [if_true] at hprompt
      omega
    rw [hempty] at hprompt
    simp only [Bool.false_eq_true, if_false] at hprompt
    have hdiv : (st.world.now + d - st.ticker.due) / r.ticker = 0 :=
      Int.ediv_eq_zero_of_lt (by omega) (by omega)
    have hmove : move r env s st (.wait d) =
        { st with world := st.world.tick d, ticker := ⟨st.ticker.due + r.ticker, true⟩ } := by
      simp [move, Ticker.advance, hbefore, hdiv]
    rw [hmove]
    refine ⟨hprompt, ?_, fun hphase => ?_⟩
    · simp only [World.tick]
      omega
    · have hfresh := h.fresh hphase
      rw [hempty] at hfresh
      simp only [Bool.false_eq_true, if_false, if_true] at hfresh ⊢
      omega

theorem OnTime.register (hperiod : 0 < r.ticker) (h : OnTime r st)
    (hok : ((saveRoute r.route).run (handler env s) st.world).1 = .ok ()) :
    OnTime r (register r env s st) := by
  have hnow : ((saveRoute r.route).run (handler env s) st.world).2.now = st.world.now :=
    (run_saveEntity r.route st.world).now
  have hlast := h.last
  have hregister : RouteRegister.register r env s st = { st with
      world := ((saveRoute r.route).run (handler env s) st.world).2, phase := .registered,
      refreshed := st.world.now } := by
    simp only [RouteRegister.register, hok]
  rw [hregister]
  refine ⟨hnow ▸ h.next, hnow ▸ h.last, fun _ => ?_⟩
  dsimp only
  split <;> omega

theorem OnTime.refresh (h : OnTime r st)
    (hok : ((saveRoute r.route).run (handler env s) st.world).1 = .ok ()) :
    OnTime r (refresh r env s st) := by
  have hnow : ((saveRoute r.route).run (handler env s) st.world).2.now = st.world.now :=
    (run_saveEntity r.route st.world).now
  have hrefresh : RouteRegister.refresh r env s st = { st with
      world := ((saveRoute r.route).run (handler env s) st.world).2,
      ticker := { st.ticker with buffered := false }, refreshed := st.world.now } := by
    simp only [RouteRegister.refresh, hok]
  rw [hrefresh]
  exact ⟨hnow ▸ h.next, hnow ▸ h.last, fun _ => h.last⟩

theorem OnTime.unregister (h : OnTime r st) : OnTime r (unregister r env s st) := by
  have hnow : ((deleteRoute r.route).run (handler env s) st.world).2.now = st.world.now :=
    (run_deleteEntity r.route st.world).now
  exact ⟨hnow ▸ h.next, hnow ▸ h.last, fun hphase => by cases hphase⟩

theorem OnTime.world (h : OnTime r st) {w : World routeKind} (hnow : w.now = st.world.now) :
    OnTime r { st with world := w } := ⟨hnow ▸ h.next, hnow ▸ h.last, h.fresh⟩

variable (hids : env.Uuids) (henv : env.Faultless) (hdraw : ∀ i, ∃ u, env.newV4 i = .ok u)
variable (hindexes : s.indexes = []) (hfull : routeView.Full r.route)

include hids henv hdraw hindexes hfull in
theorem saveRoute_ok {w : World routeKind} (h : Kept w) (hdrawn : GuidsDrawn env w) :
    ((saveRoute r.route).run (handler env s) w).1 = .ok () :=
  saveEntity_ok hids henv hdraw hindexes h hdrawn (routeView.total _ hfull).1
    (routeView.total _ hfull).2

include hids henv hdraw hindexes hfull in
/-- Without faults, a run in which no tick is lost stays on time. -/
theorem onTime_move (hperiod : 0 < r.ticker) (h : Kept st.world) (hdrawn : GuidsDrawn env st.world)
    (htime : OnTime r st) (hprompt : Prompt r st m) :
    GuidsDrawn env (move r env s st m).world ∧ OnTime r (move r env s st m) := by
  have hok := saveRoute_ok hids henv hdraw hindexes hfull h hdrawn
  have heffect (op : Op Route) : GuidsDrawn env (op.perform env s st.world) :=
    hdrawn.effect (op.effect st.world)
  cases m with
  | start =>
    simp only [move]
    split
    next =>
      refine ⟨?_, htime.register hperiod hok⟩
      rcases register_cases r env s st with ⟨-, hregister⟩ | ⟨err, hregister⟩
      · rw [hregister]
        exact heffect (.save r.route)
      · rw [hregister]
        exact heffect (.save r.route)
    next => exact ⟨hdrawn, htime⟩
  | tick =>
    simp only [move]
    split
    next => exact ⟨heffect (.save r.route), htime.refresh hok⟩
    next => exact ⟨hdrawn, htime⟩
  | signal =>
    simp only [move]
    split
    next => exact ⟨heffect (.delete r.route), htime.unregister⟩
    next => exact ⟨hdrawn, htime⟩
  | wait d => exact ⟨hdrawn, htime.wait hprompt⟩
  | other op =>
    cases op with
    | tick d => exact ⟨hdrawn, htime⟩
    | save x => exact ⟨heffect (.save x), htime.world (run_saveEntity x st.world).now⟩
    | delete x => exact ⟨heffect (.delete x), htime.world (run_deleteEntity x st.world).now⟩
    | prune => exact ⟨heffect .prune, htime.world (run_pruneEntities st.world).now⟩

/-- The route is registered again twice in its TTL. -/
theorem twice_in_ttl {ip : String} {port : UInt16} {logGuid systemDomain : String} {maxTTL : Int64}
    (hr : constructRouteRegister ip port logGuid systemDomain maxTTL = .ok r) :
    r.route = selfRoute ip port logGuid systemDomain maxTTL ∧ 0 < r.ticker ∧
      2 * r.ticker ≤ routeView.duration r.route := by
  obtain ⟨ticker, hticker, hr⟩ := bind_ok hr
  cases hr
  unfold newTicker at hticker
  split at hticker
  next => cases hticker
  next hpos =>
    cases hticker
    have hpos : 0 < registerInterval maxTTL := not_le.mp hpos
    refine ⟨rfl, hpos, ?_⟩
    have htwo := two_le_wholeSeconds.mpr ((registerInterval_pos maxTTL).mp hpos)
    have hle := wholeSeconds_le maxTTL
    show 2 * registerInterval maxTTL ≤ ttlDuration (wholeSeconds maxTTL)
    rw [registerInterval, Int.tdiv_eq_ediv_of_nonneg (by omega),
      ttlDuration_exact (by omega) (by omega), ttlDuration_exact (by omega) (by omega)]
    unfold second
    omega

/-- Without faults of the database or of the uuid source, and as long as no tick is lost, the route
of the API is listed from the time at which the runner is ready until it is told to stop, whatever
others do to other routes and whenever pruning passes run. -/
theorem self_route_stays_listed (ip : String) (port : UInt16) (logGuid systemDomain : String)
    (maxTTL : Int64) (r : RouteRegister) (env : Env) (d : Migrations.Dialect) (ops : List (Op Route))
    (t : Ticker) (ms : List Move)
    (hr : constructRouteRegister ip port logGuid systemDomain maxTTL = .ok r) (hlog : logGuid ≠ "")
    (hids : env.Uuids) (henv : env.Faultless) (hdraw : ∀ i, ∃ u, env.newV4 i = .ok u)
    (ht : t.due - r.ticker ≤ (startingAfter env (Migrations.routeSchema d) ops t).world.now ∧
      (startingAfter env (Migrations.routeSchema d) ops t).world.now < t.due)
    (hms : Meets (move r env (Migrations.routeSchema d))
      (fun st m => Foreign r.route.key m ∧ Prompt r st m)
      (startingAfter env (Migrations.routeSchema d) ops t) ms)
    (hphase : (play (move r env (Migrations.routeSchema d))
      (startingAfter env (Migrations.routeSchema d) ops t) ms).phase =
        .registered) :
    ∃ loaded, (readRoutes.run (handler env (Migrations.routeSchema d))
        (play (move r env (Migrations.routeSchema d))
          (startingAfter env (Migrations.routeSchema d) ops t) ms).world).1 =
        .ok loaded ∧
      ∃ x ∈ loaded, x.key = r.route.key ∧ (x.ttl, x.logGuid) = (r.route.ttl, r.route.logGuid) := by
  obtain ⟨hroute, hperiod, htwice⟩ := twice_in_ttl hr
  have hfull : routeView.Full r.route := by
    rw [hroute]
    exact ⟨Option.some_ne_none _, hlog⟩
  have hindexes := Migrations.routeSchema_indexes d
  obtain ⟨hinv, hdrawn, htime⟩ := play_of_meets
    (I := fun st => Invariant r st ∧ GuidsDrawn env st.world ∧ OnTime r st)
    (fun st m h hm => ⟨h.1.move hids hfull hm.1,
      onTime_move hids henv hdraw hindexes hfull hperiod h.1.kept h.2.1 h.2.2 hm.2⟩)
    ⟨invariant_starting hids ops t, guidsDrawn_runOps ops, ht.2, ht.1, fun h => by cases h⟩ hms
  obtain ⟨loaded, hread⟩ := readEntities_ok (s := Migrations.routeSchema d) henv
    (play (move r env (Migrations.routeSchema d))
      (startingAfter env (Migrations.routeSchema d) ops t) ms).world
  refine ⟨loaded, hread, ?_⟩
  obtain ⟨-, hlisted⟩ := listed_iff (W := routeView) hinv.kept hread
  refine (hlisted r.route.key _).mpr ?_
  have hfresh := htime.fresh hphase
  have hnext := htime.next
  rw [hinv.registered hphase _ le_rfl, seen, if_pos]
  · rfl
  · split at hfresh <;> omega

theorem constructRouteRegister_short :
    constructRouteRegister "10.0.0.1" 3000 "log" "example.com" 4000000000 = .ok shortRegister := by
  have hticker : newTicker (registerInterval 4000000000) = .ok 2000000000 := by decide +kernel
  rw [constructRouteRegister, hticker]
  rfl

theorem self_route_stays_listed_refreshed :
    ∃ loaded, (readRoutes.run (handler .quiet (Migrations.routeSchema .mysql))
        (play (move shortRegister .quiet (Migrations.routeSchema .mysql))
          (startingAfter .quiet (Migrations.routeSchema .mysql) [] ⟨2000000000, false⟩)
          refreshedRun).world).1 = .ok loaded ∧
      ∃ x ∈ loaded, x.key = shortRegister.route.key ∧
        (x.ttl, x.logGuid) = (shortRegister.route.ttl, shortRegister.route.logGuid) :=
  self_route_stays_listed "10.0.0.1" 3000 "log" "example.com" 4000000000 shortRegister .quiet .mysql
    [] ⟨2000000000, false⟩ refreshedRun constructRouteRegister_short (by decide) Env.quiet_uuids
    Env.quiet_faultless (fun _ => ⟨_, rfl⟩) (by decide +kernel) (by decide +kernel)
    (by decide +kernel)

end Punctual
end RoutingApi.Startup.RouteRegister
