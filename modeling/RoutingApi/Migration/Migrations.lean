import RoutingApi.Models.RouterGroup
import RoutingApi.Models.TcpRoute

/-! The migrations, run in order on a database, and the schema they leave on a fresh
one. Every `AutoMigrate` uses the current structs, whatever the version. -/
namespace RoutingApi.Migrations
open Relational Gorm Models

inductive Dialect where
  | mysql
  | postgres
  deriving DecidableEq, Repr

structure Database where
  routerGroups : Relation RouterGroupColumn.guid
  tcpRoutes : Relation TcpColumn.guid
  routes : Relation RouteColumn.guid

/-- MySQL has `ON DUPLICATE KEY UPDATE`, which looks at every unique key; on PostgreSQL gorm names
the primary key in `ON CONFLICT`. -/
def Dialect.conflictTarget : Dialect → ConflictTarget
  | .mysql => .anyKey
  | .postgres => .primaryKey

def Database.fresh (d : Dialect) : Database :=
  ⟨.absent d.conflictTarget, .absent d.conflictTarget, .absent d.conflictTarget⟩

inductive MigrationError where
  | sql
  | plain (msg : String)
  deriving DecidableEq, Repr

def orSqlError {α : Type} : Option α → Except MigrationError α
  | some a => .ok a
  | none => .error .sql

structure Migration where
  version : ℤ
  run : Database → Except MigrationError Database

section Versions
variable (d : Dialect)

/-- MySQL indexes the first 191 characters of a text column. -/
def textPrefix : Option ℕ :=
  match d with
  | .mysql => some 191
  | .postgres => none

/-- `CREATE UNIQUE INDEX idx_tcp_route` on the four columns of V4 and the given ones. -/
def idxTcpRoute (more : List (TcpColumn × Option ℕ)) : UniqueIndex TcpColumn :=
  ⟨"idx_tcp_route", [(.routerGroupGuid, textPrefix d), (.hostPort, none),
    (.hostIP, textPrefix d), (.externalPort, none)] ++ more⟩

def createIdxTcpRoute (more : List (TcpColumn × Option ℕ)) (db : Database) :
    Except MigrationError Database := do
  let tcp ← orSqlError (db.tcpRoutes.createUniqueIndex (idxTcpRoute d more))
  pure { db with tcpRoutes := tcp }

def dropIdxTcpRoute (db : Database) : Database :=
  { db with tcpRoutes := db.tcpRoutes.dropIndex "idx_tcp_route" }

def autoMigrateTcp (db : Database) : Except MigrationError Database := do
  let tcp ← orSqlError (TcpRouteMapping.model.autoMigrate db.tcpRoutes)
  pure { db with tcpRoutes := tcp }

/-- The body V5, V6, V9, V10 and V11 share: drop the index, migrate, create it anew. -/
def remake (more : List (TcpColumn × Option ℕ)) (db : Database) :
    Except MigrationError Database := do
  let db ← autoMigrateTcp (dropIdxTcpRoute db)
  createIdxTcpRoute d more db

def v0InitMigration : Migration where
  version := 0
  run db := do
    let groups ← orSqlError (RouterGroupDB.model.autoMigrate db.routerGroups)
    let db ← autoMigrateTcp { db with routerGroups := groups }
    let routes ← orSqlError (Route.model.autoMigrate db.routes)
    pure { db with routes := routes }

/-- Go reports one of the names that occur twice; which one depends on its map order. -/
def v2UpdateRgMigration : Migration where
  version := 2
  run db :=
    let names := db.routerGroups.table.rows.map fun x => (RouterGroupDB.ofRow x).name
    match names.find? fun n => decide (1 < names.count n) with
    | some name => .error (.plain ("cannot create unique index: router group name '" ++ name ++
        "' appears " ++ toString (names.count name) ++ " times"))
    | none => do
      let groups ← orSqlError ((db.routerGroups.dropIndex "idx_rg_name").createUniqueIndex
        ⟨"idx_rg_name", [(.name, textPrefix d)]⟩)
      pure { db with routerGroups := groups }

def v3UpdateTcpRouteMigration : Migration where
  version := 3
  run := autoMigrateTcp

def v4AddRgUniqIdxTCPRoute : Migration where
  version := 4
  run db := createIdxTcpRoute d [] (dropIdxTcpRoute db)

def v5SniHostnameMigration : Migration where
  version := 5
  run := remake d [(.sniHostname, textPrefix d)]

def v6TCPTLSRoutes : Migration where
  version := 6
  run := remake d [(.sniHostname, textPrefix d), (.hostTLSPort, none)]

def v7TCPTLSRoutes : Migration where
  version := 7
  run db := createIdxTcpRoute d [(.sniHostname, textPrefix d), (.hostTLSPort, none)]
    (dropIdxTcpRoute { db with tcpRoutes := db.tcpRoutes.setDefault .instanceId .null })

def v8HostTLSPortTCPDefaultZero : Migration where
  version := 8
  run db := do
    let tcp ← orSqlError (db.tcpRoutes.fillNull .hostTLSPort (.int 0) (by decide))
    let db := dropIdxTcpRoute { db with tcpRoutes := tcp }
    pure { db with tcpRoutes := db.tcpRoutes.setDefault .hostTLSPort (.int 0) }

def v9TerminateFrontendTLS : Migration where
  version := 9
  run := remake d [(.sniHostname, textPrefix d), (.hostTLSPort, none),
    (.terminateFrontendTLS, none)]

def v10SniRewriteHostname : Migration where
  version := 10
  run := remake d [(.sniHostname, textPrefix d), (.hostTLSPort, none),
    (.terminateFrontendTLS, none)]

def v11EnableBackendMTLS : Migration where
  version := 11
  run := remake d [(.sniHostname, textPrefix d), (.hostTLSPort, none),
    (.terminateFrontendTLS, none), (.enableBackendMTLS, none)]

def initializeMigrations : List Migration :=
  [v0InitMigration, v2UpdateRgMigration d, v3UpdateTcpRouteMigration,
    v4AddRgUniqIdxTCPRoute d, v5SniHostnameMigration d, v6TCPTLSRoutes d, v7TCPTLSRoutes d,
    v8HostTLSPortTCPDefaultZero, v9TerminateFrontendTLS d, v10SniRewriteHostname d,
    v11EnableBackendMTLS d]

/-- The loop of `RunMigrations`: run what is newer than the current version. -/
def runMigrations : List Migration → ℤ → Database → Except MigrationError (ℤ × Database)
  | [], current, db => .ok (current, db)
  | m :: ms, current, db =>
    if m.version > current then do
      let db ← m.run db
      runMigrations ms m.version db
    else runMigrations ms current db

/-- The database that the migrations make of nothing; a new database starts at -1. -/
def migrated : Except MigrationError (ℤ × Database) :=
  runMigrations (initializeMigrations d) (-1) (.fresh d)

/-- The schema of `tcp_routes` on a migrated database. -/
def tcpSchema : Schema TcpColumn :=
  match migrated d with
  | .ok (_, db) => db.tcpRoutes.schema
  | .error _ => .absent d.conflictTarget

/-- The schema of `routes` on a migrated database. -/
def routeSchema : Schema RouteColumn :=
  match migrated d with
  | .ok (_, db) => db.routes.schema
  | .error _ => .absent d.conflictTarget

/-- The schema of `router_groups` on a migrated database. -/
def routerGroupSchema : Schema RouterGroupColumn :=
  match migrated d with
  | .ok (_, db) => db.routerGroups.schema
  | .error _ => .absent d.conflictTarget

end Versions

/-- A fresh database goes through all migrations, and its tables are still empty. -/
theorem migrated_fresh (d : Dialect) :
    ∃ db, migrated d = .ok (11, db) ∧ db.tcpRoutes = ⟨tcpSchema d, .empty⟩ ∧
      db.routes = ⟨routeSchema d, .empty⟩ := by
  cases d <;> exact ⟨_, rfl, rfl, rfl⟩

/-- The index of V11 is the only one on `tcp_routes`. -/
theorem tcpSchema_indexes (d : Dialect) : (tcpSchema d).indexes =
    [idxTcpRoute d [(.sniHostname, textPrefix d), (.hostTLSPort, none),
      (.terminateFrontendTLS, none), (.enableBackendMTLS, none)]] := by
  cases d <;> rfl

/-- The last `AutoMigrate` undoes the default of V8: every column is back at its tag. -/
theorem tcpSchema_default (d : Dialect) :
    (tcpSchema d).default = TcpRouteMapping.model.tagDefault := by
  cases d <;> rfl

theorem tcpSchema_default_null (d : Dialect) {c : TcpColumn}
    (hc : TcpRouteMapping.model.omitsZero c = true) : (tcpSchema d).default c = .null := by
  rw [tcpSchema_default]
  rcases TcpRouteMapping.omitsZero_iff.mp hc with rfl | rfl | rfl | rfl <;> rfl

/-- No tag of `Route` is one that gorm v2 makes an index of. -/
theorem routeSchema_indexes (d : Dialect) : (routeSchema d).indexes = [] := by
  cases d <;> rfl

-- from here on the schemas are known by these lemmas only
attribute [irreducible] tcpSchema routeSchema

end RoutingApi.Migrations
