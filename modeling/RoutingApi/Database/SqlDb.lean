import RoutingApi.Database.Client

/-! The operations of `SqlDB` on routes and TCP route mappings. The two families are
one text over a `Kind`; each member is that text at its own struct, WHERE clause and
error message. -/
namespace RoutingApi.Database
open Relational Gorm Models Process Program

section Calls
variable {E C : Type}

def find (q : List (Cond C)) : DB E C (List E) := do ofExcept (← perform (.find q))

def create (e : E) : DB E C Unit := do ofExcept (← perform (.create e))

def save (e : E) : DB E C Unit := do ofExcept (← perform (.save e))

def delete (e : E) : DB E C Unit := do ofExcept (← perform (.delete e))

def deleteIn (guids : List String) : DB E C Unit := do ofExcept (← perform (.deleteIn guids))

/-- `NewEventFromInterface` and the hub's `Emit`; encoding a row does not fail. -/
def emitEvent (type : EventType) (e : E) : DB E C Unit := perform (Call.emit ⟨type, e⟩)

def newV4 : DB E C String := do ofExcept (← perform .newV4)

def timeNow : DB E C ℤ := perform Call.now

/-- The value of an expression that dereferences a pointer. -/
def deref {α : Type} : Option α → DB E C α
  | some a => .ret a
  | none => .fail .nilDereference

/-- `uuid.NewV4` with index zero. -/
def newModificationTag : DB E C ModificationTag := do
  let guid ← newV4
  pure ⟨guid, 0⟩

end Calls

def deleteRouteError : Err := .db "KeyNotFound" "Delete Fails: Route does not exist"

section Generic
variable {E C κ : Type} (K : Kind E C κ)

/-- What `readRoute` and `FindExistingTcpRouteMapping` make of the rows they found. -/
def single (routes : List E) : DB E C E :=
  if routes.length > 1 then .fail (.plain K.duplicates)
  else match routes with
    | [r] => pure r
    | _ => pure K.model.zero

/-- The row with the key of `m`, or the zero struct if there is none. -/
def findExisting (m : E) : DB E C E := do
  let routes ← find (K.lookup m)
  single K routes

def newWithModel (m : E) : DB E C E := do
  let guid ← newV4
  let now ← timeNow
  deref (K.withModel guid now m)

/-- The update path of a save. -/
def updateExisting (existing m : E) : DB E C Unit := do
  let now ← timeNow
  let new ← deref (K.update now existing m)
  save new
  emitEvent .update new

/-- The create path of a save. -/
def createNew (m : E) : DB E C Unit := do
  let new ← newWithModel K m
  let tag ← newModificationTag
  let new := K.setTag tag new
  create new
  emitEvent .create new

variable [DecidableEq E]

def saveEntity (m : E) : DB E C Unit := do
  let existing ← findExisting K m
  if existing ≠ K.model.zero then updateExisting K existing m else createNew K m

def deleteEntity (m : E) : DB E C Unit := do
  let existing ← findExisting K m
  if existing = K.model.zero then .fail deleteRouteError
  else
    delete existing
    emitEvent .delete existing

end Generic

section Pruning
variable {E C κ : Type} (K : Kind E C κ)

/-- `FindExpiredRoutes`: the second subtracted is a margin for the rounding of stored times. -/
def findExpiredRoutes : DB E C (List E) := do
  let now ← timeNow
  find [.before K.expiry (now - second)]

def emitExpired : List E → DB E C Unit
  | [] => pure ()
  | r :: rest => do
    emitEvent .expire r
    emitExpired rest

/-- `make([]string, len(routes))` followed by one `append` a route. -/
def prunedGuids (routes : List E) : List String :=
  List.replicate routes.length "" ++ routes.map K.guid

/-- One pass of `CleanupRoutes`. -/
def pruneEntities : DB E C Unit := do
  let routes ← findExpiredRoutes K
  deleteIn (prunedGuids K routes)
  emitExpired routes

/-- The rows that have not expired. -/
def readEntities : DB E C (List E) := do
  let now ← timeNow
  find [.after K.expiry now]

end Pruning

/-- `route = ? and ip = ? and port = ? and route_service_url = ?` -/
def routeLookup (r : Route) : List (Cond RouteColumn) :=
  [.eq .route (.text r.route), .eq .ip (.text r.ip), .eq .port (.int r.port.toNat),
    .eq .routeServiceUrl (.text r.routeServiceUrl)]

/-- A nil hostname is looked up with `IS NULL`, the other six columns with `=`. -/
def tcpLookup (m : TcpRouteMapping) : List (Cond TcpColumn) :=
  [.eq .routerGroupGuid (.text m.routerGroupGuid), .eq .hostIP (.text m.hostIP),
    .eq .hostPort (.int m.hostPort.toNat), .eq .externalPort (.int m.externalPort.toNat),
    .eq .hostTLSPort (.int m.hostTLSPort),
    match m.sniHostname with
    | none => .isNull .sniHostname
    | some h => .eq .sniHostname (.text h),
    .eq .enableBackendMTLS (.bool m.enableBackendMTLS)]

theorem holds_routeLookup {r : Route} {x : Row RouteColumn} :
    holdsAll (routeLookup r) x = true ↔ x .route = .text r.route ∧ x .ip = .text r.ip ∧
      x .port = .int r.port.toNat ∧ x .routeServiceUrl = .text r.routeServiceUrl := by
  simp only [holdsAll, routeLookup, List.all_cons, List.all_nil, Bool.and_true, Cond.holds,
    Bool.and_eq_true, Cell.eqv_iff]
  aesop

theorem holds_tcpLookup {m : TcpRouteMapping} {x : Row TcpColumn} :
    holdsAll (tcpLookup m) x = true ↔ x .routerGroupGuid = .text m.routerGroupGuid ∧
      x .hostIP = .text m.hostIP ∧ x .hostPort = .int m.hostPort.toNat ∧
      x .externalPort = .int m.externalPort.toNat ∧ x .hostTLSPort = .int m.hostTLSPort ∧
      x .sniHostname = textPtr m.sniHostname ∧
      x .enableBackendMTLS = .bool m.enableBackendMTLS := by
  have hsni : (match m.sniHostname with
      | none => Cond.isNull TcpColumn.sniHostname
      | some h => Cond.eq TcpColumn.sniHostname (Cell.text h)).holds x = true ↔
        x .sniHostname = textPtr m.sniHostname := by
    cases m.sniHostname with
    | none => simp [Cond.holds, textPtr]
    | some h =>
      simp only [Cond.holds, textPtr, Cell.eqv_iff]
      exact ⟨fun hh => hh.2, fun hh => ⟨by simp [hh], hh⟩⟩
  simp only [holdsAll, tcpLookup, List.all_cons, List.all_nil, Bool.and_true, Bool.and_eq_true,
    hsni]
  simp only [Cond.holds, Cell.eqv_iff]
  aesop

def routeKind : Kind Route RouteColumn Route.Key where
  model := Route.model
  pk := .guid
  expiry := .expiresAt
  guid := Route.guid
  expiresAt := Route.expiresAt
  tag := Route.modificationTag
  key := Route.key
  entity := Route.entity
  keyColumns := [.route, .ip, .port, .routeServiceUrl]
  lookup := routeLookup
  duplicates := "have duplicate routes"
  withModel := Route.withModel
  setTag t r := { r with modificationTag := t }
  update := Route.updateRoute
  ofRow_toRow := Route.ofRow_toRow
  toRow_pk _ := rfl
  toRow_expiry _ := rfl
  primary_pk := by decide
  primary_expiry := by decide
  omits_pk := by decide
  omits_expiry := by decide
  guid_ofRow _ := rfl
  expiresAt_ofRow _ := rfl
  key_of_lookup m x h := by
    obtain ⟨h1, h2, h3, h4⟩ := holds_routeLookup.mp h
    simp [Route.model, Route.key, Route.ofRow, h1, h2, h3, h4, textOf, intOf]
  lookup_congr m n h := by
    simp only [Route.key, Route.Key.mk.injEq] at h
    simp [routeLookup, h]
  holds_lookup m x := by
    rw [holds_routeLookup]
    simp [Route.model, Route.toRow]
  key_ofRow x y h := by
    simp only [List.forall_mem_cons] at h
    simp [Route.model, Route.key, Route.ofRow, h]
  entity_key _ := rfl
  entity_tag _ := rfl
  guid_zero := rfl
  withModel_guid g t m e h := by
    obtain ⟨ttl, -, rfl⟩ := Option.map_eq_some_iff.mp h
    rfl
  withModel_key g t m e h := by
    obtain ⟨ttl, -, rfl⟩ := Option.map_eq_some_iff.mp h
    rfl
  setTag_guid _ _ := rfl
  setTag_key _ _ := rfl
  setTag_tag _ _ := rfl
  update_guid t x m e h := by
    obtain ⟨ttl, -, rfl⟩ := Option.map_eq_some_iff.mp h
    rfl
  update_key t x m e h := by
    obtain ⟨ttl, -, rfl⟩ := Option.map_eq_some_iff.mp h
    rfl
  update_tag t x m e h := by
    obtain ⟨ttl, -, rfl⟩ := Option.map_eq_some_iff.mp h
    rfl

def tcpKind : Kind TcpRouteMapping TcpColumn TcpRouteMapping.Key where
  model := TcpRouteMapping.model
  pk := .guid
  expiry := .expiresAt
  guid := TcpRouteMapping.guid
  expiresAt := TcpRouteMapping.expiresAt
  tag := TcpRouteMapping.modificationTag
  key := TcpRouteMapping.key
  entity := TcpRouteMapping.entity
  keyColumns := [.routerGroupGuid, .hostIP, .hostPort, .externalPort, .hostTLSPort, .sniHostname,
    .enableBackendMTLS]
  lookup := tcpLookup
  duplicates := "have duplicate tcp route mappings"
  withModel := TcpRouteMapping.withModel
  setTag t m := { m with modificationTag := t }
  update := TcpRouteMapping.updateTcpRouteMapping
  ofRow_toRow := TcpRouteMapping.ofRow_toRow
  toRow_pk _ := rfl
  toRow_expiry _ := rfl
  primary_pk := by decide
  primary_expiry := by decide
  omits_pk := by decide
  omits_expiry := by decide
  guid_ofRow _ := rfl
  expiresAt_ofRow _ := rfl
  key_of_lookup m x h := by
    obtain ⟨h1, h2, h3, h4, h5, h6, h7⟩ := holds_tcpLookup.mp h
    simp [TcpRouteMapping.model, TcpRouteMapping.key, TcpRouteMapping.ofRow, h1, h2, h3, h4, h5,
      h6, h7, textOf, intOf, boolOf]
  lookup_congr m n h := by
    simp only [TcpRouteMapping.key, TcpRouteMapping.Key.mk.injEq] at h
    simp [tcpLookup, h]
  holds_lookup m x := by
    rw [holds_tcpLookup]
    simp [TcpRouteMapping.model, TcpRouteMapping.toRow]
  key_ofRow x y h := by
    simp only [List.forall_mem_cons] at h
    simp [TcpRouteMapping.model, TcpRouteMapping.key, TcpRouteMapping.ofRow, h]
  entity_key _ := rfl
  entity_tag _ := rfl
  guid_zero := rfl
  withModel_guid g t m e h := by
    obtain ⟨ttl, -, rfl⟩ := Option.map_eq_some_iff.mp h
    rfl
  withModel_key g t m e h := by
    obtain ⟨ttl, -, rfl⟩ := Option.map_eq_some_iff.mp h
    rfl
  setTag_guid _ _ := rfl
  setTag_key _ _ := rfl
  setTag_tag _ _ := rfl
  update_guid t x m e h := by
    obtain ⟨ttl, -, rfl⟩ := Option.map_eq_some_iff.mp h
    rfl
  update_key t x m e h := by
    obtain ⟨ttl, -, rfl⟩ := Option.map_eq_some_iff.mp h
    rfl
  update_tag t x m e h := by
    obtain ⟨ttl, -, rfl⟩ := Option.map_eq_some_iff.mp h
    rfl

abbrev RouteDB := DB Route RouteColumn
abbrev TcpDB := DB TcpRouteMapping TcpColumn

def readRoute : Route → RouteDB Route := findExisting routeKind
def saveRoute : Route → RouteDB Unit := saveEntity routeKind
def deleteRoute : Route → RouteDB Unit := deleteEntity routeKind
def readRoutes : RouteDB (List Route) := readEntities routeKind
def pruneRoutes : RouteDB Unit := pruneEntities routeKind

def findExistingTcpRouteMapping : TcpRouteMapping → TcpDB TcpRouteMapping := findExisting tcpKind
def saveTcpRouteMapping : TcpRouteMapping → TcpDB Unit := saveEntity tcpKind
def deleteTcpRouteMapping : TcpRouteMapping → TcpDB Unit := deleteEntity tcpKind
def readTcpRouteMappings : TcpDB (List TcpRouteMapping) := readEntities tcpKind
def pruneTcpRoutes : TcpDB Unit := pruneEntities tcpKind

/-- `sni_hostname = ? and external_port = ?` among the rows that have not expired; the
hostname is a plain string, so this never asks for `IS NULL`. -/
def findSimilarTcpRouteMappings (sniHostname : String) (externalPort : UInt16) :
    TcpDB (List TcpRouteMapping) := do
  let now ← timeNow
  find [.eq .sniHostname (.text sniHostname), .eq .externalPort (.int externalPort.toNat),
    .after .expiresAt now]

def backupError : String := "database unavailable due to backup or restore"

def readRouterGroups : TcpDB (List RouterGroup) := do
  if ← perform .isReadLocked then .fail (.plain backupError)
  else
    let groups ← ofExcept (← perform .findRouterGroups)
    pure (groups.map RouterGroupDB.toRouterGroup)

end RoutingApi.Database
