import RoutingApi.Handlers.Requests

/-! Delete requests on a table whose rows are stored as they were written: they remove the rows
whose keys the list names, in whatever order and however often it names them. -/
namespace RoutingApi.Handlers
open Relational Gorm Models Process Program Database Migrations

section Clean
variable {E C κ : Type} {K : Kind E C κ} {ms : List E} {m : E} {w : World K}

/-- Rows are stored as they were written and no two have one key. A row without a guid is not
deleted by the client but refused, so the rows that the list names have one. -/
structure Clean (K : Kind E C κ) (ms : List E) (w : World K) : Prop where
  exact : ∀ x ∈ w.table.rows, K.model.toRow (K.model.ofRow x) = x
  keys : (w.stored.map K.key).Nodup
  guids : ∀ y ∈ w.stored, K.key y ∈ ms.map K.key → K.guid y ≠ ""

theorem Clean.mono {ms' : List E} (h : Clean K ms w) (hsub : ∀ a ∈ ms', a ∈ ms) :
    Clean K ms' w where
  exact := h.exact
  keys := h.keys
  guids y hy hkey := by
    obtain ⟨a, ha, hay⟩ := List.mem_map.mp hkey
    exact h.guids y hy (List.mem_map.mpr ⟨a, hsub a ha, hay⟩)

theorem Clean.eq_of_key (h : Clean K ms w) {x y : Row C} (hx : x ∈ w.table.rows)
    (hy : y ∈ w.table.rows) (hkey : K.key (K.model.ofRow x) = K.key (K.model.ofRow y)) : x = y := by
  have hstored := List.inj_on_of_nodup_map h.keys (List.mem_map_of_mem hx) (List.mem_map_of_mem hy)
    hkey
  rw [← h.exact x hx, ← h.exact y hy, hstored]

/-- The lookup of a struct finds the row with its key. -/
theorem Clean.holds_iff (h : Clean K ms w) {x : Row C} (hx : x ∈ w.table.rows) :
    holdsAll (K.lookup m) x = true ↔ K.key (K.model.ofRow x) = K.key m := by
  constructor
  · exact K.key_of_lookup m x
  · intro hkey
    rw [← h.exact x hx]
    exact K.lookup_toRow m _ hkey

end Clean

section Purge
variable {E C κ : Type} [DecidableEq κ] {K : Kind E C κ} {ms : List E} {m : E} {w w₁ w₂ : World K}

/-- The key of the struct occurs in the list. -/
def named (K : Kind E C κ) (ms : List E) (y : E) : Bool := decide (K.key y ∈ ms.map K.key)

/-- The rows that the list names are gone, with one Delete event for each. -/
structure Purged (ms : List E) (w w' : World K) : Prop where
  rows : w'.table.rows = w.table.rows.filter fun x => !named K ms (K.model.ofRow x)
  log : ∃ evs, w'.log = w.log ++ evs ∧
    evs.Perm ((w.stored.filter (named K ms)).map (Event.mk .delete))

theorem named_cons (m : E) (ms : List E) (y : E) :
    named K (m :: ms) y = (named K [m] y || named K ms y) := by
  simp [named]

theorem Purged.stored (h : Purged ms w w₁) :
    w₁.stored = w.stored.filter fun y => !named K ms y := by
  rw [World.stored, h.rows, World.stored, List.filter_map]
  rfl

/-- One row after the other is the whole list. -/
theorem Purged.trans (h : Purged [m] w w₁) (h' : Purged ms w₁ w₂) : Purged (m :: ms) w w₂ := by
  constructor
  · rw [h'.rows, h.rows, List.filter_filter]
    apply List.filter_congr
    intro x _
    rw [named_cons m ms, Bool.not_or, Bool.and_comm]
  · obtain ⟨evs, hlog, hevs⟩ := h.log
    obtain ⟨evs', hlog', hevs'⟩ := h'.log
    refine ⟨evs ++ evs', by rw [hlog', hlog, List.append_assoc], ?_⟩
    have hfirst : (w.stored.filter (named K (m :: ms))).filter (named K [m]) =
        w.stored.filter (named K [m]) := by
      rw [List.filter_filter]
      apply List.filter_congr
      intro y _
      rw [named_cons m ms]
      cases named K [m] y <;> simp
    have hrest : (w.stored.filter (named K (m :: ms))).filter (fun y => !named K [m] y) =
        w₁.stored.filter (named K ms) := by
      rw [h.stored, List.filter_filter, List.filter_filter]
      apply List.filter_congr
      intro y _
      rw [named_cons m ms]
      cases named K [m] y <;> simp
    have hsplit := List.filter_append_perm (named K [m]) (w.stored.filter (named K (m :: ms)))
    rw [hfirst, hrest] at hsplit
    refine (hevs.append hevs').trans ?_
    rw [← List.map_append]
    exact hsplit.map _

theorem Clean.purged {ms' : List E} (h : Clean K ms w) (hp : Purged ms' w w₁) : Clean K ms w₁ := by
  have hrows : w₁.table.rows.Sublist w.table.rows := by
    rw [hp.rows]
    exact List.filter_sublist
  have hstored : w₁.stored.Sublist w.stored := hrows.map _
  exact ⟨fun x hx => h.exact x (hrows.subset hx), h.keys.sublist (hstored.map _),
    fun y hy => h.guids y (hstored.subset hy)⟩

variable {env : Env} {s : Schema C} {r : Except Err Unit × World K}

/-- One delete: the row with the key is removed and announced, or there is none. -/
theorem Deleted.purged (hw : Clean K [m] w) (henv : env.Faultless) (h : Deleted env m w r) :
    Purged [m] w r.2 ∧ (r.1 = .ok () ∨ r.1 = .error deleteRouteError) := by
  by_cases hex : ∃ x ∈ w.table.rows, K.key (K.model.ofRow x) = K.key m
  · obtain ⟨x, hx, hkey⟩ := hex
    have hguid : K.guid (K.model.ofRow x) ≠ "" :=
      hw.guids _ (List.mem_map_of_mem hx) (by simp [hkey])
    have hmatched : w.Matched m x := by
      refine ⟨Table.select_eq_singleton fun y => ⟨?_, ?_⟩, ?_⟩
      · rintro ⟨hy, hm⟩
        exact hw.eq_of_key hy hx (((hw.holds_iff hy).mp hm).trans hkey.symm)
      · rintro rfl
        exact ⟨hx, (hw.holds_iff hx).mpr hkey⟩
      · intro hzero
        exact hguid (hzero ▸ K.guid_zero)
    have hguids {y : Row C} (hy : y ∈ w.table.rows) :
        K.guid (K.model.ofRow y) = K.guid (K.model.ofRow x) ↔ K.key (K.model.ofRow y) = K.key m := by
      constructor
      · intro hg
        rw [Table.eq_of_pk hy hx (by rw [(w.typed y hy).pk, (w.typed x hx).pk, hg]), hkey]
      · intro hk
        rw [hw.eq_of_key hy hx (hk.trans hkey.symm)]
    obtain ⟨w₁, hok, hr, hev⟩ := Deleted.of_matched hmatched henv hguid h
    refine ⟨⟨?_, [⟨.delete, K.model.ofRow x⟩], by rw [hev.log, hr.log], ?_⟩, .inl hok⟩
    · rw [hev.table, hr.table]
      apply List.filter_congr
      intro y hy
      simp [named, hguids hy]
    · have hfilter : w.stored.filter (named K [m]) = [K.model.ofRow x] := by
        rw [World.stored, List.filter_map, ← List.map_singleton, ← World.filter_guid w hx]
        congr 1
        apply List.filter_congr
        intro y hy
        simp [named, hguids hy]
      rw [hfilter]
      exact .refl _
  · have hnone : ∀ y ∈ w.table.rows, named K [m] (K.model.ofRow y) = false := by
      intro y hy
      simpa [named] using fun hk => hex ⟨y, hy, hk⟩
    have hsel : w.table.select (K.lookup m) = [] := by
      apply List.filter_eq_nil_iff.mpr
      intro y hy hm
      exact hex ⟨y, hy, (hw.holds_iff hy).mp hm⟩
    obtain ⟨herr, hev⟩ := Deleted.of_select_nil hsel henv h
    refine ⟨⟨?_, [], hev.log, ?_⟩, .inr herr⟩
    · rw [hev.table]
      exact (List.filter_eq_self.mpr fun y hy => by rw [hnone y hy]; rfl).symm
    · have hfilter : w.stored.filter (named K [m]) = [] := by
        apply List.filter_eq_nil_iff.mpr
        intro y hy
        obtain ⟨x, hx, rfl⟩ := World.mem_stored.mp hy
        simp [hnone x hx]
      rw [hfilter]
      exact .refl _

variable [DecidableEq E]

/-- The loop of a Delete goes through, whatever it finds. -/
theorem deleteAll_purged (henv : env.Faultless) (hw : Clean K ms w) :
    ∃ w', (deleteAll (deleteEntity K) ms).run (handler env s) w = (.ok ⟨.noContent, none⟩, w') ∧
      Purged ms w w' := by
  induction ms generalizing w with
  | nil =>
    refine ⟨w, rfl, ?_, [], by simp, by simp [named]⟩
    simp [named]
  | cons m ms ih =>
    have hdeleted : Deleted env m w ((deleteEntity K m).run (handler env s) w) :=
      run_deleteEntity m w
    obtain ⟨hpurged, hresult⟩ := Deleted.purged (hw.mono (by simp)) henv hdeleted
    obtain ⟨w', hrun, hrest⟩ := ih ((hw.mono fun a ha => List.mem_cons_of_mem m ha).purged hpurged)
    refine ⟨w', ?_, hpurged.trans hrest⟩
    rw [deleteAll, run_bind_ok (run_attempt_caught (Deleted.recoverable hdeleted))]
    rcases hresult with hok | herr
    · rw [hok]
      exact hrun
    · rw [herr]
      exact hrun

end Purge

section Requests
variable {E C κ : Type} [DecidableEq κ] {K : Kind E C κ}

/-- What a Delete request with a valid list does: it answers 204 and removes what the list names,
in any order, and a second time nothing. -/
structure Deletes (delete : List E → World K → Except Err Response × World K) (ms : List E)
    (w : World K) : Prop where
  answered : (delete ms w).1 = .ok ⟨.noContent, none⟩
  purged : Purged ms w (delete ms w).2
  order : ∀ ms', ms'.Perm ms →
    (delete ms' w).1 = .ok ⟨.noContent, none⟩ ∧ (delete ms' w).2.table = (delete ms w).2.table
  again : (delete ms (delete ms w).2).1 = .ok ⟨.noContent, none⟩ ∧
    (delete ms (delete ms w).2).2.table = (delete ms w).2.table ∧
    (delete ms (delete ms w).2).2.log = (delete ms w).2.log

theorem named_perm {ms ms' : List E} (h : ms'.Perm ms) : named K ms' = named K ms := by
  funext y
  simp only [named, (h.map K.key).mem_iff]

/-- A request that comes down to the loop does all of this. -/
theorem deletes_of_loop [DecidableEq E] {env : Env} {s : Schema C} (henv : env.Faultless)
    {delete : List E → World K → Except Err Response × World K} (Valid : List E → Prop)
    (hloop : ∀ ms w, Valid ms →
      delete ms w = (deleteAll (deleteEntity K) ms).run (handler env s) w)
    (hperm : ∀ ms ms', ms'.Perm ms → Valid ms → Valid ms')
    {ms : List E} {w : World K} (hw : Clean K ms w) (hms : Valid ms) : Deletes delete ms w := by
  have hdelete {ms : List E} {w : World K} (hw : Clean K ms w) (hms : Valid ms) :
      (delete ms w).1 = .ok ⟨.noContent, none⟩ ∧ Purged ms w (delete ms w).2 := by
    obtain ⟨w', hrun, hpurged⟩ := deleteAll_purged (s := s) henv hw
    rw [hloop ms w hms, hrun]
    exact ⟨rfl, hpurged⟩
  obtain ⟨hok, hpurged⟩ := hdelete hw hms
  refine ⟨hok, hpurged, ?_, ?_⟩
  · intro ms' hms'
    obtain ⟨hok', hpurged'⟩ := hdelete (hw.mono fun a => hms'.mem_iff.mp) (hperm ms ms' hms' hms)
    refine ⟨hok', Table.eq_of_rows ?_⟩
    rw [hpurged'.rows, hpurged.rows, named_perm hms']
  · obtain ⟨hok', hpurged'⟩ := hdelete (hw.purged hpurged) hms
    -- nothing that the list names is left
    have hgone : ∀ y ∈ (delete ms w).2.stored, named K ms y = false := by
      intro y hy
      rw [hpurged.stored] at hy
      simpa using (List.mem_filter.mp hy).2
    refine ⟨hok', Table.eq_of_rows ?_, ?_⟩
    · rw [hpurged'.rows, List.filter_eq_self]
      intro x hx
      rw [hgone _ (List.mem_map_of_mem hx)]
      rfl
    · obtain ⟨evs, hlog, hevs⟩ := hpurged'.log
      rw [List.filter_eq_nil_iff.mpr fun y hy => by simp [hgone y hy]] at hevs
      rw [hlog, hevs.eq_nil, List.append_nil]

end Requests

section Handlers
variable {env : Env} (henv : env.Faultless)

def deleteRoutes (parse : String → Except String String) (env : Env) (s : Schema RouteColumn)
    (routes : List Route) (w : World routeKind) : Except Err Response × World routeKind :=
  (RoutesHandler.delete parse ⟨.ok (), .ok routes⟩).run (handler env s) w

def deleteMappings (env : Env) (s : Schema TcpColumn) (mappings : List TcpRouteMapping)
    (w : World tcpKind) : Except Err Response × World tcpKind :=
  (TcpRouteMappingsHandler.delete ⟨.ok (), .ok mappings⟩).run (handler env s) w

include henv

theorem routes_delete {parse : String → Except String String} (s : Schema RouteColumn)
    {routes : List Route} {w : World routeKind} (hw : Clean routeKind routes w)
    (hvalid : validateDelete parse routes = none) :
    Deletes (deleteRoutes parse env s) routes w := by
  refine deletes_of_loop henv (s := s) (fun ms => validateDelete parse ms = none)
    (fun ms w hms => ?_) (fun ms ms' hperm hms => ?_) hw hvalid
  · unfold deleteRoutes RoutesHandler.delete Request.decode
    simp only [hms]
    rfl
  · rw [validateDelete_accepts] at hms ⊢
    exact fun r hr => hms r (hperm.mem_iff.mp hr)

theorem tcp_delete (s : Schema TcpColumn) {mappings : List TcpRouteMapping} {w : World tcpKind}
    (hw : Clean tcpKind mappings w)
    (hvalid : validateDeleteTcpRouteMapping mappings = .ok none) :
    Deletes (deleteMappings env s) mappings w := by
  refine deletes_of_loop henv (s := s) (fun ms => validateDeleteTcpRouteMapping ms = .ok none)
    (fun ms w hms => ?_) (fun ms ms' hperm hms => ?_) hw hvalid
  · unfold deleteMappings TcpRouteMappingsHandler.delete Request.decode
    simp only [hms, ofExcept_ok, ret_bind]
    rfl
  · rw [validateDeleteTcpRouteMapping_accepts] at hms ⊢
    exact fun m hm => hms m (hperm.mem_iff.mp hm)

end Handlers

/-- Delete requests of both handlers are idempotent and do not depend on the order of the list. -/
theorem delete_idempotent (parse : String → Except String String) {env : Env}
    (henv : env.Faultless) (s : Schema RouteColumn) (s' : Schema TcpColumn) :
    (∀ (routes : List Route) (w : World routeKind), Clean routeKind routes w →
      validateDelete parse routes = none → Deletes (deleteRoutes parse env s) routes w) ∧
    ∀ (mappings : List TcpRouteMapping) (w : World tcpKind), Clean tcpKind mappings w →
      validateDeleteTcpRouteMapping mappings = .ok none →
      Deletes (deleteMappings env s') mappings w :=
  ⟨fun _ _ hw hvalid => routes_delete henv s hw hvalid,
    fun _ _ hw hvalid => tcp_delete henv s' hw hvalid⟩

/-- One stored route and one stored mapping, and lists that name them twice. -/
theorem delete_idempotent_twice :
    let r : Route := { guid := "r", route := "a.example.com", port := 80, ip := "10.0.0.1" }
    let m : TcpRouteMapping :=
      { guid := "m", routerGroupGuid := "tcp", externalPort := 1024, hostIP := "10.0.0.1",
        hostPort := 80, ttl := some 60 }
    let w : World routeKind :=
      ⟨⟨[r.toRow], by simp⟩, fun x hx => List.mem_singleton.mp hx ▸ routeKind.typed_toRow r,
        [], [], 0, 0, 0⟩
    let t : World tcpKind :=
      ⟨⟨[m.toRow], by simp⟩, fun x hx => List.mem_singleton.mp hx ▸ tcpKind.typed_toRow m,
        [], [], 0, 0, 0⟩
    Deletes (deleteRoutes Except.ok Env.quiet (routeSchema .mysql)) [r.entity, r] w ∧
    Deletes (deleteMappings Env.quiet (tcpSchema .mysql)) [m, m.entity] t := by
  intro r m w t
  obtain ⟨hroutes, hmappings⟩ := delete_idempotent Except.ok Env.quiet_faultless
    (routeSchema .mysql) (tcpSchema .mysql)
  constructor
  · refine hroutes _ w ⟨?_, ?_, ?_⟩ (by decide)
    · intro x hx
      rw [List.mem_singleton.mp hx]
      exact congrArg Route.toRow (Route.ofRow_toRow r)
    · exact List.nodup_singleton _
    · intro y hy _
      rw [List.mem_singleton.mp hy]
      decide
  · refine hmappings _ t ⟨?_, ?_, ?_⟩ (by decide)
    · intro x hx
      rw [List.mem_singleton.mp hx]
      exact congrArg TcpRouteMapping.toRow (TcpRouteMapping.ofRow_toRow m)
    · exact List.nodup_singleton _
    · intro y hy _
      rw [List.mem_singleton.mp hy]
      decide

end RoutingApi.Handlers
