import RoutingApi.Migration.Migrations

/-! The upgrade of a database that holds data, from V7 to the last version. V8 rewrites a
nullable column of the unique index while that index is still there. -/
namespace RoutingApi.Migrations
open Relational Gorm Models

section Upgrade
variable (d : Dialect)

/-- The index that V7 leaves on `tcp_routes`. -/
def idxV7 : UniqueIndex TcpColumn :=
  idxTcpRoute d [(.sniHostname, textPrefix d), (.hostTLSPort, none)]

/-- A database as V7 leaves it, with any rows that its index admits and whatever columns
beyond the indexed ones the table has. -/
structure AtV7 (db : Database) : Prop where
  indexes : db.tcpRoutes.schema.indexes = [idxV7 d]
  columns : ∀ p ∈ (idxV7 d).columns, p.1 ∈ db.tcpRoutes.schema.columns
  admitted : Relation.violates (idxV7 d) db.tcpRoutes.table.rows = false

/-- The migrations that are left to do at version 7. -/
def upgrade (db : Database) : Except MigrationError (ℤ × Database) :=
  runMigrations [v8HostTLSPortTCPDefaultZero, v9TerminateFrontendTLS d, v10SniRewriteHostname d,
    v11EnableBackendMTLS d] 7 db

/-- What `UPDATE tcp_routes SET host_tls_port = 0 WHERE host_tls_port IS NULL` makes of a row. -/
def zeroTLSPort (x : Row TcpColumn) : Row TcpColumn :=
  if x .hostTLSPort = .null then Function.update x .hostTLSPort (.int 0) else x

/-- `x'` is `x` in all the given columns, but for a NULL TLS port. -/
def KeptRow (columns : List TcpColumn) (x x' : Row TcpColumn) : Prop :=
  ∀ c ∈ columns, x' c = zeroTLSPort x c

/-- Every row is still there, and nothing else has changed in the columns that were there. -/
structure Kept (db db' : Database) : Prop where
  rows : List.Forall₂ (KeptRow db.tcpRoutes.schema.columns) db.tcpRoutes.table.rows
    db'.tcpRoutes.table.rows
  routerGroups : db'.routerGroups = db.routerGroups
  routes : db'.routes = db.routes

/-- A database on the way, in which the index of V7 would still be respected. -/
structure OnTheWay (db db' : Database) : Prop extends Kept db db' where
  columns : db.tcpRoutes.schema.columns ⊆ db'.tcpRoutes.schema.columns
  unviolated : Relation.violates (idxV7 d) db'.tcpRoutes.table.rows = false

theorem runMigrations_ok {m : Migration} {ms : List Migration} {v : ℤ} {db db' : Database}
    (hv : m.version > v) (h : m.run db = .ok db') :
    runMigrations (m :: ms) v db = runMigrations ms m.version db' := by
  simp only [runMigrations, if_pos hv, h]
  rfl

theorem runMigrations_error {m : Migration} {ms : List Migration} {v : ℤ} {db : Database}
    {e : MigrationError} (hv : m.version > v) (h : m.run db = .error e) :
    runMigrations (m :: ms) v db = .error e := by
  simp only [runMigrations, if_pos hv, h]
  rfl

/-- V8 fails if the rewritten rows violate the index that is still there. -/
theorem v8_error {db : Database} (h : AtV7 d db)
    (hv : Relation.violates (idxV7 d) (db.tcpRoutes.table.rows.map zeroTLSPort) = true) :
    v8HostTLSPortTCPDefaultZero.run db = .error .sql := by
  have hfill : db.tcpRoutes.fillNull .hostTLSPort (.int 0) (by decide) = none :=
    Relation.fillNull_none (f := zeroTLSPort) (by decide) rfl (by simp [h.indexes]) hv
  simp only [v8HostTLSPortTCPDefaultZero, hfill]
  rfl

theorem v8_ok {db : Database} (h : AtV7 d db)
    (hv : Relation.violates (idxV7 d) (db.tcpRoutes.table.rows.map zeroTLSPort) = false) :
    ∃ db', v8HostTLSPortTCPDefaultZero.run db = .ok db' ∧ OnTheWay d db db' := by
  obtain ⟨tcp, htcp, hrows, hschema⟩ := Relation.fillNull_some (c := .hostTLSPort) (v := .int 0)
    (r := db.tcpRoutes) (f := zeroTLSPort) (by decide) rfl (by simpa [h.indexes] using hv)
  simp only [v8HostTLSPortTCPDefaultZero, htcp]
  refine ⟨_, rfl, ⟨?_, rfl, rfl⟩, ?_, ?_⟩
  · change List.Forall₂ _ _ tcp.table.rows
    rw [hrows, List.forall₂_map_right_iff]
    exact List.forall₂_same.mpr fun x _ c _ => rfl
  · intro c hc
    change c ∈ tcp.schema.columns
    rwa [hschema]
  · change Relation.violates (idxV7 d) tcp.table.rows = false
    rwa [hrows]

/-- The tags ask for no index, so `AutoMigrate` only adds columns and resets defaults. -/
theorem autoMigrate_tcp (r : Relation TcpColumn.guid) : ∃ r' : Relation TcpColumn.guid,
    TcpRouteMapping.model.autoMigrate r = some r' ∧
      (∃ missing : List TcpColumn, (∀ c ∈ missing, c ∉ r.schema.columns) ∧ r'.table.rows = r.table.rows.map
        fun x c => if c ∈ missing ∧ c ≠ .guid then TcpRouteMapping.model.tagDefault c else x c) ∧
      r.schema.columns ⊆ r'.schema.columns := by
  have htags : TcpRouteMapping.model.tagIndexes = [] := by decide
  unfold Model.autoMigrate
  simp only [htags, List.filter_nil, List.foldlM_nil]
  refine ⟨_, rfl, ⟨_, ?_, rfl⟩, ?_⟩
  · intro c hc
    simpa using (List.mem_filter.mp hc).2
  · exact List.subset_append_left _ _

section Remake
variable {d} {db₀ db : Database} (h₀ : AtV7 d db₀) (h : OnTheWay d db₀ db)
include h₀ h

/-- Each later migration succeeds: its index has the columns of V7 and more. -/
theorem remake_ok {more : List (TcpColumn × Option ℕ)}
    (hmore : [(.sniHostname, textPrefix d), (.hostTLSPort, none)] ⊆ more) :
    ∃ db', remake d more db = .ok db' ∧ OnTheWay d db₀ db' := by
  obtain ⟨tcp, htcp, ⟨missing, hmissing, hrows⟩, hcols⟩ :=
    autoMigrate_tcp (dropIdxTcpRoute db).tcpRoutes
  change ∀ c ∈ missing, c ∉ db.tcpRoutes.schema.columns at hmissing
  change tcp.table.rows = db.tcpRoutes.table.rows.map _ at hrows
  -- a column that was there at the outset is not one of those added
  have hold : ∀ c ∈ db₀.tcpRoutes.schema.columns, ¬(c ∈ missing ∧ c ≠ .guid) :=
    fun c hc hm => hmissing c hm.1 (h.columns hc)
  have hviolates : Relation.violates (idxV7 d) tcp.table.rows = false := by
    rw [hrows, Relation.violates_map]
    · exact h.unviolated
    · intro x _ p hp
      exact if_neg (hold p.1 (h₀.columns p hp))
  have hsub : (idxV7 d).columns ⊆ (idxTcpRoute d more).columns := by
    intro p hp
    rw [idxV7, idxTcpRoute, List.mem_append] at hp
    rw [idxTcpRoute, List.mem_append]
    exact hp.imp_right fun hp => hmore hp
  have hcreate : tcp.createUniqueIndex (idxTcpRoute d more) = some { tcp with
      schema := { tcp.schema with indexes := tcp.schema.indexes ++ [idxTcpRoute d more] } } := by
    unfold Relation.createUniqueIndex
    rw [Relation.violates_mono hsub hviolates]
    rfl
  simp only [remake, autoMigrateTcp, htcp, createIdxTcpRoute]
  refine ⟨{ db with tcpRoutes := { tcp with
    schema := { tcp.schema with indexes := tcp.schema.indexes ++ [idxTcpRoute d more] } } }, ?_,
    ⟨?_, h.routerGroups, h.routes⟩, ?_, hviolates⟩
  · change (do
      let created ← orSqlError (tcp.createUniqueIndex (idxTcpRoute d more))
      pure { db with tcpRoutes := created } : Except MigrationError Database) = _
    rw [hcreate]
    rfl
  · rw [hrows, List.forall₂_map_right_iff]
    apply h.rows.imp
    intro x y hxy c hc
    exact (if_neg (hold c hc)).trans (hxy c hc)
  · exact fun c hc => hcols (h.columns hc)

end Remake

/-- The upgrade goes through and keeps the data exactly if no two rows come to clash on the
index of V7 once their NULL TLS ports are zero. -/
theorem upgrade_keeps_iff {db : Database} (h : AtV7 d db) :
    (∃ db', upgrade d db = .ok (11, db') ∧ Kept db db') ↔
      Relation.violates (idxV7 d) (db.tcpRoutes.table.rows.map zeroTLSPort) = false := by
  constructor
  · rintro ⟨db', hok, -⟩
    by_contra hv
    have herror := v8_error d h (eq_true_of_ne_false hv)
    unfold upgrade at hok
    rw [runMigrations_error (by decide) herror] at hok
    cases hok
  · intro hv
    obtain ⟨db₈, h₈, hway₈⟩ := v8_ok d h hv
    obtain ⟨db₉, h₉, hway₉⟩ := remake_ok h hway₈ (List.subset_append_left _
      [(.terminateFrontendTLS, none)])
    obtain ⟨db₁₀, h₁₀, hway₁₀⟩ := remake_ok h hway₉ (List.subset_append_left _
      [(.terminateFrontendTLS, none)])
    obtain ⟨db₁₁, h₁₁, hway₁₁⟩ := remake_ok h hway₁₀ (List.subset_append_left _
      [(.terminateFrontendTLS, none), (.enableBackendMTLS, none)])
    refine ⟨db₁₁, ?_, hway₁₁.toKept⟩
    have h₉ : (v9TerminateFrontendTLS d).run db₈ = .ok db₉ := h₉
    have h₁₀ : (v10SniRewriteHostname d).run db₉ = .ok db₁₀ := h₁₀
    have h₁₁ : (v11EnableBackendMTLS d).run db₁₀ = .ok db₁₁ := h₁₁
    calc upgrade d db
        = runMigrations [v9TerminateFrontendTLS d, v10SniRewriteHostname d,
            v11EnableBackendMTLS d] 8 db₈ := runMigrations_ok (by decide) h₈
      _ = runMigrations [v10SniRewriteHostname d, v11EnableBackendMTLS d] 9 db₉ :=
          runMigrations_ok (show (8 : ℤ) < 9 by decide) h₉
      _ = runMigrations [v11EnableBackendMTLS d] 10 db₁₀ :=
          runMigrations_ok (show (9 : ℤ) < 10 by decide) h₁₀
      _ = .ok (11, db₁₁) := runMigrations_ok (show (10 : ℤ) < 11 by decide) h₁₁

/-- A `tcp_routes` table of version 7, without the columns that came later. -/
def databaseV7 (t : Table TcpColumn.guid) : Database :=
  { Database.fresh d with tcpRoutes := ⟨⟨[.guid, .expiresAt, .routerGroupGuid, .hostPort, .hostTLSPort,
    .hostIP, .sniHostname, .instanceId, .externalPort, .modificationGuid, .modificationIndex, .ttl,
    .isolationSegment], fun _ => .null, [idxV7 d], d.conflictTarget⟩, t⟩ }

end Upgrade

/-- A mapping that was saved without a TLS port, which is stored as NULL. -/
def plainRow (guid hostIP : String) : Row TcpColumn
  | .guid => .text guid
  | .routerGroupGuid => .text "rg"
  | .hostPort => .int 80
  | .hostIP => .text hostIP
  | .sniHostname => .text "sni.example.com"
  | .externalPort => .int 1024
  | .ttl => .int 60
  | _ => .null

/-- One backend saved twice: the index of V7 takes the NULL ports for different. -/
theorem upgrade_refused :
    let db := databaseV7 .mysql ⟨[plainRow "a" "10.0.0.1", plainRow "b" "10.0.0.1"], by decide⟩
    AtV7 .mysql db ∧ upgrade .mysql db = .error .sql :=
  ⟨⟨rfl, by decide, by decide +kernel⟩, by rfl⟩

/-- Two backends go through. -/
theorem upgrade_keeps_backends :
    let db := databaseV7 .mysql ⟨[plainRow "a" "10.0.0.1", plainRow "b" "10.0.0.2"], by decide⟩
    AtV7 .mysql db ∧ ∃ db', upgrade .mysql db = .ok (11, db') ∧ Kept db db' := by
  intro db
  have h : AtV7 .mysql db := ⟨rfl, by decide, by decide +kernel⟩
  exact ⟨h, (upgrade_keeps_iff .mysql h).mpr (by decide +kernel)⟩

end RoutingApi.Migrations
