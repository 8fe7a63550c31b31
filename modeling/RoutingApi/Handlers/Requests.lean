import RoutingApi.Handlers.Validator
import RoutingApi.Database.KeyLookup

/-! The Upsert and Delete requests of both handlers. Everything is validated before the
first write, and from there on each element is written and announced on its own. -/
namespace RoutingApi.Handlers
open Relational Gorm Models Process Program Database Migrations

section Requests
variable {E C : Type}

/-- What the token validator says of a request, and what its body decodes to. -/
structure Request (E : Type) where
  token : Except String Unit
  body : Except String (List E)

/-- The beginning that all four handlers share. -/
def Request.decode (req : Request E) (handle : List E → DB E C Response) : DB E C Response :=
  match req.token, req.body with
  | .error err, _ => pure (handleUnauthorizedError err)
  | .ok (), .error err => pure (handleProcessRequestError err)
  | .ok (), .ok routes => handle routes

/-- The loop of an Upsert, up to the first error. -/
def saveAll (save : E → DB E C Unit) : List E → DB E C Response
  | [] => pure ⟨.created, none⟩
  | m :: ms => do
    match ← (save m).attempt Err.recoverable with
    | .error err => pure (handleDBCommunicationError err)
    | .ok () => saveAll save ms

/-- A `DBError` of type `KeyNotFound`. -/
def Err.isKeyNotFound : Err → Bool
  | .db type _ => type = "KeyNotFound"
  | _ => false

/-- The loop of a Delete, which goes on where a key is not found. -/
def deleteAll (delete : E → DB E C Unit) : List E → DB E C Response
  | [] => pure ⟨.noContent, none⟩
  | m :: ms => do
    match ← (delete m).attempt Err.recoverable with
    | .error err =>
      if Err.isKeyNotFound err then deleteAll delete ms else pure (handleDBCommunicationError err)
    | .ok () => deleteAll delete ms

end Requests

namespace RoutesHandler
variable (parse : String → Except String String) (maxTTL : ℤ)

def upsert (req : Request Route) : RouteDB Response := req.decode fun routes => do
  let routes := routes.map (Route.setDefaults maxTTL)
  match ← ofExcept (validateCreate parse maxTTL routes) with
  | some apiErr => pure (handleApiError apiErr)
  | none => saveAll saveRoute routes

def delete (req : Request Route) : RouteDB Response := req.decode fun routes =>
  match validateDelete parse routes with
  | some apiErr => pure (handleApiError apiErr)
  | none => deleteAll deleteRoute routes

end RoutesHandler

namespace TcpRouteMappingsHandler
variable (maxTTL : ℤ)

/-- The loop that looks for similar mappings and validates; a response ends the request. -/
def validateAll (routerGroups : List RouterGroup) : List TcpRouteMapping → TcpDB (Option Response)
  | [] => pure none
  | m :: ms => do
    let similar ← (findSimilarTcpRouteMappings (m.sniHostname.getD "") m.externalPort).attempt
      Err.recoverable
    match similar with
    | .error err => pure (some (handleDBCommunicationError err))
    | .ok similar =>
      match ← ofExcept (validateCreateTcpRouteMapping m similar routerGroups maxTTL) with
      | some apiErr => pure (some (handleProcessRequestError apiErr.message))
      | none => validateAll routerGroups ms

def upsert (req : Request TcpRouteMapping) : TcpDB Response := req.decode fun tcpMappings => do
  let tcpMappings := tcpMappings.map (TcpRouteMapping.setDefaults maxTTL)
  match ← readRouterGroups.attempt Err.recoverable with
  | .error err => pure (handleDBCommunicationError err)
  | .ok routerGroups =>
    match ← validateAll maxTTL routerGroups tcpMappings with
    | some response => pure response
    | none => saveAll saveTcpRouteMapping tcpMappings

def delete (req : Request TcpRouteMapping) : TcpDB Response := req.decode fun tcpMappings => do
  match ← ofExcept (validateDeleteTcpRouteMapping tcpMappings) with
  | some apiErr => pure (handleProcessRequestError apiErr.message)
  | none => deleteAll deleteTcpRouteMapping tcpMappings

end TcpRouteMappingsHandler

section Accounts
variable {E C κ : Type} {K : Kind E C κ} {w w₁ w₂ : World K}

/-- The event that announces a row write. -/
def announces (K : Kind E C κ) : Write C → Event E
  | .insert r => ⟨.create, K.model.ofRow r⟩
  | .update r => ⟨.update, K.model.ofRow r⟩
  | .remove r => ⟨.delete, K.model.ofRow r⟩

/-- From `w` to `w₁` the events are those of the committed writes, one each and in order. -/
def Accounted (w w₁ : World K) : Prop :=
  ∃ writes, w₁.writes = w.writes ++ writes ∧ w₁.log = w.log ++ writes.map (announces K)

theorem Accounted.trans (h : Accounted w w₁) (h' : Accounted w₁ w₂) : Accounted w w₂ := by
  obtain ⟨ws, hw, hl⟩ := h
  obtain ⟨ws', hw', hl'⟩ := h'
  refine ⟨ws ++ ws', ?_, ?_⟩
  · rw [hw', hw, List.append_assoc]
  · rw [hl', hl, List.map_append, List.append_assoc]

theorem Accounted.of_emits (h : w.Emits w₁ []) : Accounted w w₁ :=
  ⟨[], by simp [h.writes], by simp [h.log]⟩

variable {env : Env} {s : Schema C} {m : E} {r : Except Err Unit × World K}

/-- A save announces what it wrote, as the row reads back. -/
theorem Saved.accounted (hread : ∀ e, K.model.ofRow (K.model.insertRow s e) = e)
    (h : Saved env s m w r) : Accounted w r.2 := by
  cases h with
  | failed _ _ hw _ => exact .of_emits hw
  | duplicated _ hw _ => exact .of_emits hw
  | panicked _ hw _ => exact .of_emits hw
  | refused _ hw _ => exact .of_emits hw
  | updated x e w₁ w' _ _ _ hup hev =>
    refine ⟨[.update (K.model.toRow e)], by rw [hev.writes, hup.writes], ?_⟩
    simp [hev.log, hup.log, announces, K.ofRow_toRow]
  | created i j g u e₀ w₁ w' _ _ _ _ _ _ _ hins hev =>
    refine ⟨[.insert (K.model.insertRow s (K.setTag ⟨u, 0⟩ e₀))], by rw [hev.writes, hins.writes],
      ?_⟩
    simp [hev.log, hins.log, announces, hread]

theorem Deleted.accounted (h : Deleted env m w r) : Accounted w r.2 := by
  cases h with
  | failed _ _ hw _ => exact .of_emits hw
  | duplicated _ hw _ => exact .of_emits hw
  | notFound _ hw _ => exact .of_emits hw
  | keyless _ _ hw _ _ => exact .of_emits hw
  | deleted x w₁ w' hx _ hr hev =>
    refine ⟨[.remove x], ?_, by simp [hev.log, hr.log, announces]⟩
    have hfilter := World.filter_guid w hx.mem
    simp only [hev.writes, hr.writes, World.remove, hfilter, List.map_singleton]

end Accounts

section Loops
variable {E C κ : Type} {K : Kind E C κ} {env : Env} {s : Schema C} {w w₁ : World K}

/-- Saving the struct dereferences no nil pointer. -/
def Timed (K : Kind E C κ) (m : E) : Prop :=
  (∀ now existing, K.update now existing m ≠ none) ∧ ∀ g now, K.withModel g now m ≠ none

variable {r : Except Err Unit × World K} {m : E}

theorem Saved.recoverable (hm : Timed K m) (h : Saved env s m w r) :
    ∀ e, r.1 = .error e → e.recoverable = true := by
  intro e he
  cases h with
  | panicked _ _ hwhy =>
    rcases hwhy with ⟨x, -, hu⟩ | ⟨-, g, hn⟩
    · exact absurd hu (hm.1 _ _)
    · exact absurd hn (hm.2 _ _)
  | updated => cases he
  | created => cases he
  | _ =>
    cases he
    rfl

theorem Deleted.recoverable (h : Deleted env m w r) :
    ∀ e, r.1 = .error e → e.recoverable = true := by
  intro e he
  cases h with
  | deleted => cases he
  | _ =>
    cases he
    rfl

/-- Answered with the writes accounted for, and not with 4xx. -/
def Served (w : World K) (result : Except Err Response × World K) : Prop :=
  Accounted w result.2 ∧ ∃ r, result.1 = .ok r ∧ r.status.code / 100 ≠ 4

theorem Served.after {result : Except Err Response × World K} (hw : Accounted w w₁)
    (h : Served w₁ result) : Served w result := ⟨hw.trans h.1, h.2⟩

variable [DecidableEq E]

/-- The loop of an Upsert is answered, and keeps what every save keeps. -/
theorem run_saveAll {I : World K → Prop} {ms : List E} (hms : ∀ m ∈ ms, Timed K m)
    (hstep : ∀ m ∈ ms, ∀ w r, I w → Saved env s m w r → I r.2) {w : World K} (hw : I w) :
    I ((saveAll (saveEntity K) ms).run (handler env s) w).2 ∧
      ∃ r, ((saveAll (saveEntity K) ms).run (handler env s) w).1 = .ok r ∧
        r.status.code / 100 ≠ 4 := by
  induction ms generalizing w with
  | nil => exact ⟨hw, _, rfl, by decide⟩
  | cons m ms ih =>
    have hsaved : Saved env s m w ((saveEntity K m).run (handler env s) w) := run_saveEntity m w
    have hnext := hstep m List.mem_cons_self w _ hw hsaved
    have hcaught := Saved.recoverable (hms m List.mem_cons_self) hsaved
    rw [saveAll, run_bind_ok (run_attempt_caught hcaught)]
    cases ((saveEntity K m).run (handler env s) w).1 with
    | ok _ =>
      exact ih (fun a ha => hms a (List.mem_cons_of_mem _ ha))
        (fun a ha => hstep a (List.mem_cons_of_mem _ ha)) hnext
    | error e => exact ⟨hnext, _, rfl, by simp [handleDBCommunicationError, Status.code]⟩

/-- The same for the loop of a Delete. -/
theorem run_deleteAll {I : World K → Prop} (hstep : ∀ m w r, I w → Deleted env m w r → I r.2)
    {w : World K} (hw : I w) (ms : List E) :
    I ((deleteAll (deleteEntity K) ms).run (handler env s) w).2 ∧
      ∃ r, ((deleteAll (deleteEntity K) ms).run (handler env s) w).1 = .ok r ∧
        r.status.code / 100 ≠ 4 := by
  induction ms generalizing w with
  | nil => exact ⟨hw, _, rfl, by decide⟩
  | cons m ms ih =>
    have hdeleted : Deleted env m w ((deleteEntity K m).run (handler env s) w) :=
      run_deleteEntity m w
    have hnext := hstep m w _ hw hdeleted
    rw [deleteAll, run_bind_ok (run_attempt_caught (Deleted.recoverable hdeleted))]
    cases ((deleteEntity K m).run (handler env s) w).1 with
    | ok _ => exact ih hnext
    | error e =>
      cases hkey : Err.isKeyNotFound e with
      | true =>
        simp only [hkey, if_true]
        exact ih hnext
      | false =>
        simp only [hkey, Bool.false_eq_true, if_false]
        exact ⟨hnext, _, rfl, by simp [handleDBCommunicationError, Status.code]⟩

theorem saveAll_served (hread : ∀ e, K.model.ofRow (K.model.insertRow s e) = e) {ms : List E}
    (hms : ∀ m ∈ ms, Timed K m) (w : World K) :
    Served w ((saveAll (saveEntity K) ms).run (handler env s) w) :=
  run_saveAll (I := Accounted w) hms
    (fun _ _ _ _ hw hr => hw.trans (Saved.accounted hread hr)) (.of_emits (.refl w))

theorem deleteAll_served (ms : List E) (w : World K) :
    Served w ((deleteAll (deleteEntity K) ms).run (handler env s) w) :=
  run_deleteAll (I := Accounted w) (fun _ _ _ hw hr => hw.trans (Deleted.accounted hr))
    (.of_emits (.refl w)) ms

/-- A loop over one element leaves what its save left. -/
theorem saveAll_single {m : E} (hm : Timed K m) (w : World K) :
    ((saveAll (saveEntity K) [m]).run (handler env s) w).2 =
      ((saveEntity K m).run (handler env s) w).2 := by
  have hsaved : Saved env s m w ((saveEntity K m).run (handler env s) w) := run_saveEntity m w
  rw [saveAll, run_bind_ok (run_attempt_caught (Saved.recoverable hm hsaved))]
  cases ((saveEntity K m).run (handler env s) w).1 <;> rfl

end Loops

section Reads
variable (env : Env) (s : Schema TcpColumn)

/-- The rows that a mapping is compared with. -/
def similarTo (m : TcpRouteMapping) (now : ℤ) : List (Cond TcpColumn) :=
  [.eq .sniHostname (.text (m.sniHostname.getD "")), .eq .externalPort (.int m.externalPort.toNat),
    .after .expiresAt now]

theorem run_findSimilar (m : TcpRouteMapping) (w : World tcpKind) :
    let r := (findSimilarTcpRouteMappings (m.sniHostname.getD "") m.externalPort).run
      (handler env s) w
    (∃ msg, env.fault w.calls = some msg ∧ r = (.error (.client msg), w.called)) ∨
      r = (.ok ((w.table.select (similarTo m w.now)).map TcpRouteMapping.ofRow), w.called) := by
  intro r
  have hr : r = w.client env fun w' =>
      (.ok ((w'.table.select (similarTo m w.now)).map TcpRouteMapping.ofRow), w') := by
    show (findSimilarTcpRouteMappings _ _).run (handler env s) w = _
    rw [findSimilarTcpRouteMappings, run_bind_ok (run_timeNow env s w), run_find]
    rfl
  rw [hr]
  rcases w.client_cases env fun w' =>
      (.ok ((w'.table.select (similarTo m w.now)).map TcpRouteMapping.ofRow), w')
    with ⟨msg, hfault, hc⟩ | ⟨-, hc⟩
  · exact .inl ⟨msg, hfault, hc⟩
  · exact .inr hc

theorem run_readRouterGroups (w : World tcpKind) :
    ∃ w₁, w.Emits w₁ [] ∧
      ((∃ err, (readRouterGroups.attempt Err.recoverable).run (handler env s) w =
          (.ok (.error err), w₁) ∧ ∃ n, env.fault n ≠ none ∨ env.readLocked n = true) ∨
        ∃ n, (readRouterGroups.attempt Err.recoverable).run (handler env s) w =
          (.ok (.ok ((env.routerGroups n).map RouterGroupDB.toRouterGroup)), w₁)) := by
  have hread : (readRouterGroups.attempt Err.recoverable).run (handler env s) w =
      Program.run (handler env s) (Program.attempt Err.recoverable
        (if env.readLocked w.calls = true then .fail (.plain backupError) else do
          let groups ← ofExcept (← perform .findRouterGroups)
          pure (groups.map RouterGroupDB.toRouterGroup))) w := rfl
  rw [hread]
  split
  next hlocked => exact ⟨w, .refl w, .inl ⟨_, rfl, w.calls, .inr hlocked⟩⟩
  next =>
    refine ⟨w.called, w.emits_called, ?_⟩
    rcases w.client_cases env fun w' => (.ok (env.routerGroups w'.calls), w')
      with ⟨msg, hfault, hc⟩ | ⟨-, hc⟩
    · refine .inl ⟨.client msg, ?_, w.calls, .inl (by simp [hfault])⟩
      simp [run_attempt, handler, hc, Err.recoverable]
    · refine .inr ⟨w.called.calls, ?_⟩
      simp [run_attempt, handler, hc]

variable {maxTTL : ℤ}

/-- The mapping passes the validation when it is compared with the rows that are similar now. -/
def Admitted (maxTTL : ℤ) (routerGroups : List RouterGroup) (w : World tcpKind)
    (m : TcpRouteMapping) : Prop :=
  validateCreateTcpRouteMapping m ((w.table.select (similarTo m w.now)).map TcpRouteMapping.ofRow)
    routerGroups maxTTL = .ok none

theorem Admitted.emits {routerGroups : List RouterGroup} {w w₁ : World tcpKind}
    {m : TcpRouteMapping} (hw : w.Emits w₁ []) :
    Admitted maxTTL routerGroups w₁ m ↔ Admitted maxTTL routerGroups w m := by
  rw [Admitted, Admitted, hw.table, hw.now]

/-- Validation writes nothing, and passes if no call fails and every mapping is admitted. -/
theorem run_validateAll (routerGroups : List RouterGroup) {ms : List TcpRouteMapping}
    (hms : ∀ m ∈ ms, m.ttl ≠ none) (w : World tcpKind) :
    ∃ w₁, w.Emits w₁ [] ∧
      ((∃ response, (TcpRouteMappingsHandler.validateAll maxTTL routerGroups ms).run
          (handler env s) w = (.ok (some response), w₁) ∧ response.status ≠ .created ∧
          ((∃ n, env.fault n ≠ none) ∨ ∃ m ∈ ms, ¬Admitted maxTTL routerGroups w m)) ∨
        ((TcpRouteMappingsHandler.validateAll maxTTL routerGroups ms).run (handler env s) w =
          (.ok none, w₁) ∧ ∀ m ∈ ms, Admitted maxTTL routerGroups w m)) := by
  induction ms generalizing w with
  | nil => exact ⟨w, .refl w, .inr ⟨rfl, by simp⟩⟩
  | cons m ms ih =>
    have hw : w.Emits w.called [] := w.emits_called
    have hattempt := run_attempt (handler env s) Err.recoverable
      (findSimilarTcpRouteMappings (m.sniHostname.getD "") m.externalPort) w
    unfold TcpRouteMappingsHandler.validateAll
    rcases run_findSimilar env s m w with ⟨msg, hfault, hr⟩ | hr
    · rw [hr] at hattempt
      rw [run_bind_ok hattempt]
      exact ⟨_, hw, .inl ⟨_, rfl, nofun, .inl ⟨w.calls, by simp [hfault]⟩⟩⟩
    · rw [hr] at hattempt
      obtain ⟨err, herr⟩ := validateCreateTcpRouteMapping_returns
        ((w.table.select (similarTo m w.now)).map TcpRouteMapping.ofRow) routerGroups maxTTL
        (hms m List.mem_cons_self)
      rw [run_bind_ok hattempt]
      simp only [herr, ofExcept_ok, ret_bind]
      cases err with
      | some err =>
        refine ⟨_, hw, .inl ⟨_, rfl, nofun, .inr ⟨m, List.mem_cons_self, ?_⟩⟩⟩
        rw [Admitted, herr]
        nofun
      | none =>
        obtain ⟨w₁, hw₁, hrun⟩ := ih (fun m hm => hms m (List.mem_cons_of_mem _ hm)) w.called
        simp only [Admitted.emits hw] at hrun
        refine ⟨w₁, hw.then hw₁, ?_⟩
        rcases hrun with ⟨response, hrun, hstatus, hwhy⟩ | ⟨hrun, hadmitted⟩
        · refine .inl ⟨response, hrun, hstatus, hwhy.imp_right ?_⟩
          rintro ⟨a, ha, hrefused⟩
          exact ⟨a, List.mem_cons_of_mem m ha, hrefused⟩
        · exact .inr ⟨hrun, List.forall_mem_cons.mpr ⟨herr, hadmitted⟩⟩

end Reads
section Defaults

theorem timed_route {r : Route} (h : r.ttl ≠ none) : Timed routeKind r := by
  obtain ⟨ttl, httl⟩ := Option.ne_none_iff_exists'.mp h
  constructor <;> intros <;> simp [routeKind, Route.updateRoute, Route.withModel, httl]

theorem timed_tcp {m : TcpRouteMapping} (h : m.ttl ≠ none) : Timed tcpKind m := by
  obtain ⟨ttl, httl⟩ := Option.ne_none_iff_exists'.mp h
  constructor <;> intros <;>
    simp [tcpKind, TcpRouteMapping.updateTcpRouteMapping, TcpRouteMapping.withModel, httl]

variable (maxTTL : ℤ)

theorem setDefaults_ttl_routes (routes : List Route) :
    ∀ r ∈ routes.map (Route.setDefaults maxTTL), r.ttl ≠ none := by
  intro r hr
  obtain ⟨r₀, -, rfl⟩ := List.mem_map.mp hr
  obtain ⟨ttl, h⟩ := r₀.setDefaults_eq maxTTL
  simp [h]

theorem setDefaults_ttl_tcp (ms : List TcpRouteMapping) :
    ∀ m ∈ ms.map (TcpRouteMapping.setDefaults maxTTL), m.ttl ≠ none := by
  intro m hm
  obtain ⟨m₀, -, rfl⟩ := List.mem_map.mp hm
  obtain ⟨ttl, h⟩ := m₀.setDefaults_eq maxTTL
  simp [h]

end Defaults

section Upserts
variable (env : Env) (s : Schema TcpColumn) (maxTTL : ℤ)

/-- How an Upsert of mappings can go on: it ends before the first write, or every mapping is
admitted and the loop over them starts. -/
inductive Upserted (req : Request TcpRouteMapping) (w : World tcpKind) :
    Except Err Response × World tcpKind → Prop
  | refused (response : Response) (w₁ : World tcpKind) : w.Emits w₁ [] →
      response.status ≠ .created →
      (∀ ms, req = ⟨.ok (), .ok ms⟩ → (∃ n, env.fault n ≠ none ∨ env.readLocked n = true) ∨
        ∃ n, ∃ m ∈ ms.map (TcpRouteMapping.setDefaults maxTTL), ¬Admitted maxTTL
          ((env.routerGroups n).map RouterGroupDB.toRouterGroup) w m) →
      Upserted req w (.ok response, w₁)
  | saving (ms : List TcpRouteMapping) (n : ℕ) (w₁ : World tcpKind) : req = ⟨.ok (), .ok ms⟩ →
      w.Emits w₁ [] →
      (∀ m ∈ ms.map (TcpRouteMapping.setDefaults maxTTL), Admitted maxTTL
        ((env.routerGroups n).map RouterGroupDB.toRouterGroup) w m) →
      Upserted req w ((saveAll saveTcpRouteMapping
        (ms.map (TcpRouteMapping.setDefaults maxTTL))).run (handler env s) w₁)

theorem run_upsert (req : Request TcpRouteMapping) (w : World tcpKind) :
    Upserted env s maxTTL req w
      ((TcpRouteMappingsHandler.upsert maxTTL req).run (handler env s) w) := by
  obtain ⟨token, body⟩ := req
  unfold TcpRouteMappingsHandler.upsert Request.decode
  cases token with
  | error err => exact .refused _ w (.refl w) nofun nofun
  | ok _ =>
    cases body with
    | error err => exact .refused _ w (.refl w) nofun nofun
    | ok ms =>
      have httl := setDefaults_ttl_tcp maxTTL ms
      obtain ⟨w₁, hw₁, hgroups⟩ := run_readRouterGroups env s w
      simp only
      rcases hgroups with ⟨err, hgroups, hwhy⟩ | ⟨n, hgroups⟩
      · rw [run_bind_ok hgroups]
        exact .refused _ w₁ hw₁ nofun fun _ _ => .inl hwhy
      · rw [run_bind_ok hgroups]
        obtain ⟨w₂, hw₂, hval⟩ := run_validateAll env s
          ((env.routerGroups n).map RouterGroupDB.toRouterGroup) httl w₁
        simp only [Admitted.emits hw₁] at hval
        have hw := hw₁.then hw₂
        rcases hval with ⟨response, hval, hstatus, hwhy⟩ | ⟨hval, hadmitted⟩
        · simp only
          rw [run_bind_ok hval]
          refine .refused response w₂ hw hstatus ?_
          rintro ms' hms'
          cases hms'
          rcases hwhy with ⟨i, hi⟩ | hrefused
          · exact .inl ⟨i, .inl hi⟩
          · exact .inr ⟨n, hrefused⟩
        · simp only
          rw [run_bind_ok hval]
          exact .saving ms n w₂ rfl hw hadmitted

variable {env s maxTTL}

/-- An Upsert of one mapping writes nothing, or saves it after a comparison with the rows
similar to it. -/
theorem run_upsert_single (token : Except String Unit) (m : TcpRouteMapping) (w : World tcpKind) :
    let w' := ((TcpRouteMappingsHandler.upsert maxTTL ⟨token, .ok [m]⟩).run (handler env s) w).2
    w.Emits w' [] ∨ ∃ w₁ r, w.Emits w₁ [] ∧ Saved env s (m.setDefaults maxTTL) w₁ r ∧ w' = r.2 ∧
      ∀ y ∈ w.table.select (similarTo (m.setDefaults maxTTL) w.now),
        (TcpRouteMapping.ofRow y).terminateFrontendTLS =
          (m.setDefaults maxTTL).terminateFrontendTLS := by
  have httl : ∀ a ∈ [m.setDefaults maxTTL], a.ttl ≠ none := setDefaults_ttl_tcp maxTTL [m]
  have hmem := List.mem_singleton_self (m.setDefaults maxTTL)
  have hrun := run_upsert env s maxTTL ⟨token, .ok [m]⟩ w
  generalize (TcpRouteMappingsHandler.upsert maxTTL ⟨token, .ok [m]⟩).run (handler env s) w = result
    at hrun
  cases hrun with
  | refused response w₁ hw _ _ => exact .inl hw
  | saving ms n w₁ hreq hw hadmitted =>
    cases hreq
    refine .inr ⟨w₁, _, hw, run_saveEntity (m.setDefaults maxTTL) w₁,
      saveAll_single (timed_tcp (httl _ hmem)) w₁, fun y hy => ?_⟩
    exact validateCreateTcpRouteMapping_similar (hadmitted _ hmem) _ (List.mem_map_of_mem hy)

end Upserts

section Answers
variable {E C κ : Type} {K : Kind E C κ} {env : Env} {s : Schema C} {w w₁ : World K}

/-- The request is answered; its events account for its writes, and if the answer is 4xx
the table and the log are as before. -/
structure Answered (w : World K) (result : Except Err Response × World K) : Prop where
  accounted : Accounted w result.2
  response : ∃ r, result.1 = .ok r ∧
    (r.status.code / 100 = 4 → result.2.table = w.table ∧ result.2.log = w.log)

theorem Answered.of_emits (hw : w.Emits w₁ []) (r : Response) : Answered w (.ok r, w₁) :=
  ⟨.of_emits hw, r, rfl, fun _ => ⟨hw.table, hw.log.trans (List.append_nil _)⟩⟩

theorem Answered.of_served {result : Except Err Response × World K} (hw : w.Emits w₁ [])
    (h : Served w₁ result) : Answered w result := by
  obtain ⟨hacc, r, hr, hcode⟩ := h.after (.of_emits hw)
  exact ⟨hacc, r, hr, fun h4 => absurd h4 hcode⟩

theorem decode_answered (req : Request E) {handle : List E → DB E C Response}
    (h : ∀ routes, Answered w ((handle routes).run (handler env s) w)) :
    Answered w ((req.decode handle).run (handler env s) w) := by
  unfold Request.decode
  split
  next => exact .of_emits (.refl w) _
  next => exact .of_emits (.refl w) _
  next => exact h _

end Answers

section Handlers
variable (d : Dialect) (env : Env) (maxTTL : ℤ)

theorem routes_upsert_answered (parse : String → Except String String) (w : World routeKind)
    (req : Request Route) :
    Answered w ((RoutesHandler.upsert parse maxTTL req).run (handler env (routeSchema d)) w) := by
  refine decode_answered req fun routes => ?_
  have httl := setDefaults_ttl_routes maxTTL routes
  obtain ⟨err, herr⟩ := validateCreate_returns parse maxTTL httl
  simp only [herr, ofExcept_ok, ret_bind]
  cases err with
  | some err => exact .of_emits (.refl w) _
  | none =>
    have hread : ∀ e : Route, Route.ofRow (Route.model.insertRow (routeSchema d) e) = e := by
      intro e
      rw [Route.model.insertRow_exact (Route.model_exact _)]
      exact Route.ofRow_toRow e
    exact .of_served (.refl w) (saveAll_served hread (fun m hm => timed_route (httl m hm)) w)

theorem routes_delete_answered (parse : String → Except String String) (w : World routeKind)
    (req : Request Route) :
    Answered w ((RoutesHandler.delete parse req).run (handler env (routeSchema d)) w) := by
  refine decode_answered req fun routes => ?_
  split
  next => exact .of_emits (.refl w) _
  next => exact .of_served (.refl w) (deleteAll_served routes w)

theorem tcp_upsert_answered (w : World tcpKind) (req : Request TcpRouteMapping) :
    Answered w ((TcpRouteMappingsHandler.upsert maxTTL req).run
      (handler env (tcpSchema d)) w) := by
  have hrun := run_upsert env (tcpSchema d) maxTTL req w
  generalize (TcpRouteMappingsHandler.upsert maxTTL req).run (handler env (tcpSchema d)) w = result
    at hrun
  cases hrun with
  | refused response w₁ hw _ _ => exact .of_emits hw response
  | saving ms n w₁ _ hw _ =>
    have httl := setDefaults_ttl_tcp maxTTL ms
    have hread : ∀ e : TcpRouteMapping,
        TcpRouteMapping.ofRow (TcpRouteMapping.model.insertRow (tcpSchema d) e) = e :=
      fun e => StoredAs.ofRow (.inl rfl)
    exact .of_served hw (saveAll_served hread (fun m hm => timed_tcp (httl m hm)) w₁)

theorem tcp_delete_answered (w : World tcpKind) (req : Request TcpRouteMapping) :
    Answered w ((TcpRouteMappingsHandler.delete req).run (handler env (tcpSchema d)) w) := by
  refine decode_answered req fun mappings => ?_
  obtain ⟨err, herr⟩ := validateDeleteTcpRouteMapping_returns mappings
  simp only [herr, ofExcept_ok, ret_bind]
  cases err with
  | some err => exact .of_emits (.refl w) _
  | none => exact .of_served (.refl w) (deleteAll_served mappings w)

end Handlers

/-- Every Upsert and Delete of both handlers, on any table and with any `Client` calls
failing, is answered; the events are those of the committed writes, and a 4xx answer leaves
the table and the log as they were. -/
theorem requests_answered (d : Dialect) (env : Env) (parse : String → Except String String)
    (maxTTL : ℤ) (w : World routeKind) (t : World tcpKind) (routes : Request Route)
    (mappings : Request TcpRouteMapping) :
    Answered w ((RoutesHandler.upsert parse maxTTL routes).run (handler env (routeSchema d)) w) ∧
    Answered w ((RoutesHandler.delete parse routes).run (handler env (routeSchema d)) w) ∧
    Answered t ((TcpRouteMappingsHandler.upsert maxTTL mappings).run
      (handler env (tcpSchema d)) t) ∧
    Answered t ((TcpRouteMappingsHandler.delete mappings).run (handler env (tcpSchema d)) t) :=
  ⟨routes_upsert_answered d env maxTTL parse w routes, routes_delete_answered d env parse w routes,
    tcp_upsert_answered d env maxTTL t mappings, tcp_delete_answered d env t mappings⟩

end RoutingApi.Handlers
