import RoutingApi.Handlers.FrontendTLS
import RoutingApi.Models.Duration

/-! What the documentation says of a stored TCP mapping, over all requests and prune passes. The
time of the last upsert of a row is a history variable, read off the writes that committed. -/
namespace RoutingApi.Handlers
open Relational Gorm Models Process Program Database Migrations Duration

section Statements

/-- A request with any list, a prune pass, or time that passes. -/
inductive Traffic where
  | upsert (req : Request TcpRouteMapping)
  | delete (req : Request TcpRouteMapping)
  | prune
  | tick (d : ℕ)

def serve (env : Env) (s : Schema TcpColumn) (maxTTL : ℤ) (w : World tcpKind) :
    Traffic → World tcpKind
  | .upsert req => ((TcpRouteMappingsHandler.upsert maxTTL req).run (handler env s) w).2
  | .delete req => ((TcpRouteMappingsHandler.delete req).run (handler env s) w).2
  | .prune => (pruneTcpRoutes.run (handler env s) w).2
  | .tick d => w.tick d

/-- The row with this guid was inserted or updated. -/
def wrote (g : String) : Write TcpColumn → Bool
  | .insert x => decide ((TcpRouteMapping.ofRow x).guid = g)
  | .update x => decide ((TcpRouteMapping.ofRow x).guid = g)
  | .remove _ => false

/-- The history variable: for each guid the time of its last insert or update. -/
def upsertTimes (env : Env) (s : Schema TcpColumn) (maxTTL : ℤ) (w : World tcpKind) (a : Traffic)
    (last : String → ℤ) : String → ℤ := fun g =>
  if ((serve env s maxTTL w a).writes.drop w.writes.length).any (wrote g) then w.now else last g

/-- The documented schema of a row that was last upserted at the given time. -/
structure Documented (maxTTL lastUpsert : ℤ) (y : TcpRouteMapping) : Prop where
  routerGroupGuid : y.routerGroupGuid ≠ ""
  hostIP : y.hostIP ≠ ""
  externalPort : 1 ≤ y.externalPort.toNat
  backendPort : 1 ≤ y.hostPort.toNat ∨ 1 ≤ y.hostTLSPort
  tlsPort : 0 ≤ y.hostTLSPort ∧ y.hostTLSPort ≤ 65535
  ttl : ∃ ttl, y.ttl = some ttl ∧ 1 ≤ ttl ∧ ttl ≤ maxTTL ∧
    y.expiresAt = lastUpsert + ttl * second
  alpns : y.terminateFrontendTLS = false → y.alpns = ""

/-- Every stored row is as documented. -/
def RowsDocumented (maxTTL : ℤ) (p : World tcpKind × (String → ℤ)) : Prop :=
  ∀ y ∈ p.1.stored, Documented maxTTL (p.2 y.guid) y

/-- What the checks of a mapping let through beside what is documented: a negative port for TLS,
and a TTL whose nanoseconds do not fit in an int64. -/
def Regular (m : TcpRouteMapping) : Prop := 0 ≤ m.hostTLSPort ∧ m.ttl.getD 0 ≤ 9223372036

instance : DecidablePred Regular := fun _ => inferInstanceAs (Decidable (_ ∧ _))

/-- An Upsert whose mappings all pass their checks has regular ones only. -/
def Sensible (maxTTL : ℤ) : Traffic → Prop
  | .upsert req => ∀ ms, req = ⟨.ok (), .ok ms⟩ →
    (∀ m ∈ ms.map (TcpRouteMapping.setDefaults maxTTL),
      validateTcpRouteMapping m true maxTTL = .ok none) →
    ∀ m ∈ ms.map (TcpRouteMapping.setDefaults maxTTL), Regular m
  | _ => True

end Statements

section Rows
variable {maxTTL now t : ℤ} {m x e : TcpRouteMapping}

/-- A mapping that passed its checks and is regular. -/
structure Checked (maxTTL : ℤ) (m : TcpRouteMapping) : Prop where
  valid : validateTcpRouteMapping m true maxTTL = .ok none
  regular : Regular m

theorem Checked.ttl (h : Checked maxTTL m) :
    ∃ ttl, m.ttl = some ttl ∧ 1 ≤ ttl ∧ ttl ≤ maxTTL ∧ ttlDuration ttl = ttl * second := by
  obtain ⟨-, ⟨ttl, httl, hpos, hle⟩, -⟩ := validateTcpRouteMapping_accepts.mp h.valid
  have hfits := h.regular.2
  rw [httl] at hfits
  exact ⟨ttl, httl, hpos, hle, ttlDuration_exact (by omega) hfits⟩

theorem Checked.withModel (h : Checked maxTTL m) {g : String} {tag : ModificationTag}
    (he : m.withModel g now = some e) : Documented maxTTL now (tcpKind.setTag tag e) := by
  obtain ⟨ttl, httl, hpos, hle, hexact⟩ := h.ttl
  obtain ⟨hbackend, -, halpns⟩ := validateTcpRouteMapping_accepts.mp h.valid
  obtain ⟨hgroup, hport, hip, hbackend, htls⟩ := validateBackend_accepts.mp hbackend
  have hport : 1 ≤ m.externalPort.toNat := Nat.one_le_iff_ne_zero.mpr fun hzero =>
    hport (UInt16.toNat_inj.mp hzero)
  have hbackend : 1 ≤ m.hostPort.toNat ∨ 1 ≤ m.hostTLSPort := hbackend.imp_left fun hne =>
    Nat.one_le_iff_ne_zero.mpr fun hzero => hne (UInt16.toNat_inj.mp hzero)
  simp only [TcpRouteMapping.withModel, httl, Option.map_some, Option.some.injEq] at he
  subst he
  exact ⟨hgroup, hip, hport, hbackend, ⟨h.regular.1, htls⟩,
    ⟨ttl, rfl, hpos, hle, congrArg (now + ·) hexact⟩, validateALPNs_accepts.mp halpns⟩

/-- An update keeps the fields that are checked, and takes the TTL of the request. -/
theorem Checked.update (h : Checked maxTTL m) (hx : Documented maxTTL t x)
    (he : TcpRouteMapping.updateTcpRouteMapping now x m = some e) : Documented maxTTL now e := by
  obtain ⟨ttl, httl, hpos, hle, hexact⟩ := h.ttl
  simp only [TcpRouteMapping.updateTcpRouteMapping, httl, Option.map_some, Option.some.injEq] at he
  subst he
  exact ⟨hx.routerGroupGuid, hx.hostIP, hx.externalPort, hx.backendPort, hx.tlsPort,
    ⟨ttl, rfl, hpos, hle, congrArg (now + ·) hexact⟩, hx.alpns⟩

end Rows

section Requests
variable {d : Dialect} {env : Env} {maxTTL : ℤ} {m : TcpRouteMapping} {last : String → ℤ}
  {w w₁ w₂ : World tcpKind}

/-- Where a request that started in `w` has come: the rows are as documented, those that it wrote
with the time of `w`. -/
structure Underway (maxTTL : ℤ) (last : String → ℤ) (w w₁ : World tcpKind) : Prop where
  now : w₁.now = w.now
  rows : ∃ writes, w₁.writes = w.writes ++ writes ∧ ∀ y ∈ w₁.stored,
    Documented maxTTL (if writes.any (wrote y.guid) then w.now else last y.guid) y

namespace Underway

theorem start (h : RowsDocumented maxTTL (w, last)) : Underway maxTTL last w w :=
  ⟨rfl, [], (List.append_nil _).symm, h⟩

/-- Rows that are left are as they were. -/
theorem shrink (h : Underway maxTTL last w w₁) (hnow : w₂.now = w₁.now) {rest : List (Row TcpColumn)}
    (hwrites : w₂.writes = w₁.writes ++ rest.map .remove)
    (hstored : ∀ y ∈ w₂.stored, y ∈ w₁.stored) : Underway maxTTL last w w₂ := by
  obtain ⟨writes, hws, hrows⟩ := h.rows
  refine ⟨hnow.trans h.now, writes ++ rest.map .remove, ?_, fun y hy => ?_⟩
  · rw [hwrites, hws, List.append_assoc]
  · have hnone : (rest.map Write.remove).any (wrote y.guid) = false := by
      simp [List.any_map, Function.comp_def, wrote]
    rw [List.any_append, hnone, Bool.or_false]
    exact hrows y (hstored y hy)

theorem emits {evs : List (Event TcpRouteMapping)} (h : Underway maxTTL last w w₁)
    (hw : w₁.Emits w₂ evs) : Underway maxTTL last w w₂ := by
  have hwrites : w₂.writes = w₁.writes ++ [].map Write.remove := by simp [hw.writes]
  exact h.shrink hw.now hwrites fun y hy => hw.stored ▸ hy

theorem removes {p : String → Bool} (h : Underway maxTTL last w w₁) (hw : w₁.Removes w₂ p) :
    Underway maxTTL last w w₂ :=
  h.shrink hw.now hw.writes fun _ hy => (hw.mem_stored.mp hy).1

/-- A row that is written gets the time of the request; the others have other guids. -/
theorem writes {e : TcpRouteMapping} {write : Write TcpColumn} (h : Underway maxTTL last w w₁)
    (hnow : w₂.now = w₁.now) (hwrites : w₂.writes = w₁.writes ++ [write])
    (hwrote : ∀ g, wrote g write = decide (e.guid = g)) (he : Documented maxTTL w.now e)
    (hstored : ∀ y ∈ w₂.stored, (y ∈ w₁.stored ∧ y.guid ≠ e.guid) ∨ y = e) :
    Underway maxTTL last w w₂ := by
  obtain ⟨writes, hws, hrows⟩ := h.rows
  refine ⟨hnow.trans h.now, writes ++ [write], by rw [hwrites, hws, List.append_assoc], ?_⟩
  intro y hy
  rcases hstored y hy with ⟨hy, hne⟩ | rfl
  · have hother : wrote y.guid write = false := by simpa [hwrote] using hne.symm
    simpa [List.any_append, hother] using hrows y hy
  · have hthis : wrote y.guid write = true := by simp [hwrote]
    simpa [List.any_append, hthis] using he

theorem saved (h : Underway maxTTL last w w₁) (hm : Checked maxTTL m)
    {r : Except Err Unit × World tcpKind} (hr : Saved env (tcpSchema d) m w₁ r) :
    Underway maxTTL last w r.2 := by
  cases hr with
  | failed _ _ hw _ => exact h.emits hw
  | duplicated _ hw _ => exact h.emits hw
  | panicked _ hw _ => exact h.emits hw
  | refused _ hw _ => exact h.emits hw
  | updated x e w₂ _ hx hu _ hup hev =>
    obtain ⟨_, _, hrows⟩ := h.rows
    have hdoc : Documented maxTTL w.now e := by
      rw [h.now] at hu
      exact hm.update (hrows _ (List.mem_map_of_mem hx.mem)) hu
    have hread : TcpRouteMapping.ofRow e.toRow = e := TcpRouteMapping.ofRow_toRow e
    refine (h.writes hup.now hup.writes (fun g => ?_) hdoc fun y hy => ?_).emits hev
    · show decide ((TcpRouteMapping.ofRow e.toRow).guid = g) = _
      rw [hread]
    · exact hup.mem_stored.mp hy
  | created i j g u e₀ w₂ _ _ _ _ _ _ _ he hins hev =>
    have hdoc : Documented maxTTL w.now (tcpKind.setTag ⟨u, 0⟩ e₀) := by
      rw [h.now] at he
      exact hm.withModel he
    have hread : TcpRouteMapping.ofRow (TcpRouteMapping.model.insertRow (tcpSchema d)
        (tcpKind.setTag ⟨u, 0⟩ e₀)) = tcpKind.setTag ⟨u, 0⟩ e₀ := StoredAs.ofRow (.inl rfl)
    refine (h.writes hins.now hins.writes (fun g => ?_) hdoc fun y hy => ?_).emits hev
    · show decide ((TcpRouteMapping.ofRow (TcpRouteMapping.model.insertRow _ _)).guid = g) = _
      rw [hread]
    · rw [hins.stored] at hy
      rcases List.mem_append.mp hy with hy | hy
      · refine .inl ⟨hy, fun hguid => ?_⟩
        obtain ⟨x, hx, rfl⟩ := World.mem_stored.mp hy
        have hfree := (Table.insert_some hins.insert).2.1
        rw [tcpKind.insertRow_pk] at hfree
        exact hfree ⟨x, hx, by rw [(w₁.typed x hx).pk]; exact congrArg Cell.text hguid⟩
      · exact .inr ((List.mem_singleton.mp hy).trans hread)

theorem deleted (h : Underway maxTTL last w w₁) {r : Except Err Unit × World tcpKind}
    (hr : Deleted env m w₁ r) : Underway maxTTL last w r.2 := by
  cases hr with
  | failed _ _ hw _ => exact h.emits hw
  | duplicated _ hw _ => exact h.emits hw
  | notFound _ hw _ => exact h.emits hw
  | keyless _ _ hw _ _ => exact h.emits hw
  | deleted x w₂ _ _ _ hrm hev => exact (h.removes hrm).emits hev

theorem pruned (h : Underway maxTTL last w w₁) {r : Except Err Unit × World tcpKind}
    (hr : Pruned env w₁ r) : Underway maxTTL last w r.2 := by
  cases hr with
  | failed _ _ hw _ => exact h.emits hw
  | pruned w₂ _ hrm hev => exact (h.removes hrm).emits hev

end Underway

theorem upsert_underway {req : Request TcpRouteMapping} (h : RowsDocumented maxTTL (w, last))
    (hreq : Sensible maxTTL (.upsert req)) :
    Underway maxTTL last w (serve env (tcpSchema d) maxTTL w (.upsert req)) := by
  have hserve : serve env (tcpSchema d) maxTTL w (.upsert req) =
      ((TcpRouteMappingsHandler.upsert maxTTL req).run (handler env (tcpSchema d)) w).2 := rfl
  have hrun := run_upsert env (tcpSchema d) maxTTL req w
  rw [hserve]
  generalize (TcpRouteMappingsHandler.upsert maxTTL req).run (handler env (tcpSchema d)) w = result
    at hrun
  have hstart := Underway.start h
  cases hrun with
  | refused _ w₁ hw _ _ => exact hstart.emits hw
  | saving ms n w₁ heq hw hadmitted =>
    have hvalid : ∀ m ∈ ms.map (TcpRouteMapping.setDefaults maxTTL),
        validateTcpRouteMapping m true maxTTL = .ok none := by
      intro m hm
      exact (validateCreateTcpRouteMapping_accepts.mp (hadmitted m hm)).1
    have hregular := hreq ms heq hvalid
    have httl := setDefaults_ttl_tcp maxTTL ms
    exact (run_saveAll (fun m hm => timed_tcp (httl m hm))
      (fun m hm _ _ hw hr => hw.saved ⟨hvalid m hm, hregular m hm⟩ hr) (hstart.emits hw)).1

theorem delete_underway (req : Request TcpRouteMapping) (h : RowsDocumented maxTTL (w, last)) :
    Underway maxTTL last w (serve env (tcpSchema d) maxTTL w (.delete req)) := by
  have hstart := Underway.start h
  unfold serve TcpRouteMappingsHandler.delete Request.decode
  simp only
  split
  next => exact hstart
  next => exact hstart
  next _ ms _ _ =>
    obtain ⟨err, herr⟩ := validateDeleteTcpRouteMapping_returns ms
    simp only [herr, ofExcept_ok, ret_bind]
    cases err with
    | some err => exact hstart
    | none => exact (run_deleteAll (fun _ _ _ hw hr => hw.deleted hr) hstart ms).1

/-- At the end of a request the history variable has the times of its writes. -/
theorem Underway.documented {a : Traffic}
    (h : Underway maxTTL last w (serve env (tcpSchema d) maxTTL w a)) :
    RowsDocumented maxTTL
      (observed (serve env (tcpSchema d) maxTTL) (upsertTimes env (tcpSchema d) maxTTL)
        (w, last) a) := by
  obtain ⟨writes, hwrites, hrows⟩ := h.rows
  intro y hy
  have htime : upsertTimes env (tcpSchema d) maxTTL w a last y.guid =
      if writes.any (wrote y.guid) then w.now else last y.guid := by
    rw [upsertTimes, hwrites, List.drop_left]
  show Documented maxTTL (upsertTimes env (tcpSchema d) maxTTL w a last y.guid) y
  rw [htime]
  exact hrows y hy

/-- One request or prune pass keeps the rows as documented. -/
theorem documented_serve {p : World tcpKind × (String → ℤ)} {a : Traffic}
    (h : RowsDocumented maxTTL p) (ha : Sensible maxTTL a) :
    RowsDocumented maxTTL
      (observed (serve env (tcpSchema d) maxTTL) (upsertTimes env (tcpSchema d) maxTTL) p a) := by
  obtain ⟨w, last⟩ := p
  cases a with
  | upsert req => exact (upsert_underway h ha).documented
  | delete req => exact (delete_underway req h).documented
  | prune => exact ((Underway.start h).pruned (run_pruneEntities w)).documented
  | tick n =>
    intro y hy
    have htime : upsertTimes env (tcpSchema d) maxTTL w (.tick n) last y.guid = last y.guid := by
      simp [upsertTimes, serve, World.tick]
    show Documented maxTTL (upsertTimes env (tcpSchema d) maxTTL w (.tick n) last y.guid) y
    rw [htime]
    exact h y hy

end Requests

/-- Upserts and deletes with any lists, prune passes and the passing of time, from an empty table:
as long as the mappings that pass their checks are regular, every stored row is as documented in
every state. -/
theorem stored_rows_documented (d : Dialect) (env : Env) (maxTTL : ℤ) (last : String → ℤ)
    (traffic : List Traffic) (htraffic : ∀ a ∈ traffic, Sensible maxTTL a) :
    Always (observed (serve env (tcpSchema d) maxTTL) (upsertTimes env (tcpSchema d) maxTTL))
      (RowsDocumented maxTTL) (World.initial tcpKind, last) traffic := by
  have hstart : RowsDocumented maxTTL (World.initial tcpKind, last) := by
    intro y hy
    cases hy
  exact always_of_meets (fun _ _ => documented_serve) hstart (meets_of_forall htraffic)

/-- A backend with a port, and a negative one for TLS. -/
def negativePort : List Traffic :=
  [.upsert ⟨.ok (), .ok [{ mappingTo "10.0.0.1" none false 60 with hostTLSPort := -1 }]⟩]

/-- It passes the validation and is stored. -/
theorem negative_port_stored :
    let p := play (observed (serve groupEnv (tcpSchema .mysql) 120)
      (upsertTimes groupEnv (tcpSchema .mysql) 120)) (World.initial tcpKind, fun _ => 0) negativePort
    p.1.stored.map (fun m => (m.hostIP, m.hostPort, m.hostTLSPort)) = [("10.0.0.1", 80, -1)] ∧
      ¬RowsDocumented 120 p := by
  intro p
  have hstored : p.1.stored.map (fun m => (m.hostIP, m.hostPort, m.hostTLSPort)) =
      [("10.0.0.1", 80, -1)] := by decide +kernel
  refine ⟨hstored, fun h => ?_⟩
  have hmem : ("10.0.0.1", 80, -1) ∈ p.1.stored.map fun m => (m.hostIP, m.hostPort, m.hostTLSPort) := by
    rw [hstored]
    exact List.mem_singleton_self _
  obtain ⟨y, hy, hport⟩ := List.mem_map.mp hmem
  have hneg : y.hostTLSPort = -1 := congrArg (fun t => t.2.2) hport
  have hnonneg := (h y hy).tlsPort.1
  omega

/-- Two backends at once, one of which is refreshed later, and one that is refused. -/
def regularTraffic : List Traffic :=
  [.upsert ⟨.ok (), .ok [mappingTo "10.0.0.1" none false 60,
      { mappingTo "10.0.0.2" none false 60 with ttl := none }]⟩,
    .tick 30000000000, .upsert ⟨.ok (), .ok [mappingTo "10.0.0.2" none false 90]⟩,
    .upsert ⟨.ok (), .ok [mappingTo "10.0.0.3" none false 600]⟩, .tick 40000000000, .prune]

theorem stored_rows_documented_refreshed :
    (play (serve groupEnv (tcpSchema .mysql) 120) (World.initial tcpKind) regularTraffic).stored.map
        (fun m => (m.hostIP, m.ttl, m.expiresAt)) = [("10.0.0.2", some 90, 120000000000)] ∧
      Always (observed (serve groupEnv (tcpSchema .mysql) 120)
        (upsertTimes groupEnv (tcpSchema .mysql) 120)) (RowsDocumented 120)
        (World.initial tcpKind, fun _ => 0) regularTraffic := by
  refine ⟨by decide +kernel, stored_rows_documented .mysql groupEnv 120 _ _ ?_⟩
  have hregular : ∀ ms : List TcpRouteMapping,
      (∀ m ∈ ms.map (TcpRouteMapping.setDefaults 120), Regular m) →
      Sensible 120 (.upsert ⟨.ok (), .ok ms⟩) := by
    intro ms hms ms' heq _
    cases heq
    exact hms
  simp only [regularTraffic, List.forall_mem_cons]
  exact ⟨hregular _ (by decide), trivial, hregular _ (by decide), hregular _ (by decide), trivial,
    trivial, List.forall_mem_nil _⟩

end RoutingApi.Handlers
