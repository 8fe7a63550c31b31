import RoutingApi.Models.Route

/-! TCP route mappings: the struct, its columns and tags, and the update that
`SaveTcpRouteMapping` applies to a row that is already stored. -/
namespace RoutingApi.Models
open Relational Gorm

structure TcpRouteMapping where
  guid : String := ""
  expiresAt : ℤ := 0
  routerGroupGuid : String := ""
  hostPort : UInt16 := 0
  hostTLSPort : ℤ := 0
  hostIP : String := ""
  sniHostname : Option String := none
  sniRewriteHostname : Option String := none
  instanceId : String := ""
  externalPort : UInt16 := 0
  modificationTag : ModificationTag := ⟨"", 0⟩
  ttl : Option ℤ := none
  isolationSegment : String := ""
  terminateFrontendTLS : Bool := false
  alpns : String := ""
  enableBackendMTLS : Bool := false
  deriving DecidableEq, Repr

inductive TcpColumn where
  | guid | expiresAt | routerGroupGuid | hostPort | hostTLSPort | hostIP | sniHostname
  | sniRewriteHostname | instanceId | externalPort | modificationGuid | modificationIndex
  | ttl | isolationSegment | terminateFrontendTLS | alpns | enableBackendMTLS
  deriving DecidableEq, Repr

namespace TcpRouteMapping

/-- `models.TcpRouteMapping{}`. -/
def zero : TcpRouteMapping := {}

def entity (m : TcpRouteMapping) : TcpRouteMapping := { m with guid := "", expiresAt := 0 }

/-- The columns that `FindExistingTcpRouteMapping` filters on. -/
structure Key where
  routerGroupGuid : String
  hostIP : String
  hostPort : UInt16
  externalPort : UInt16
  hostTLSPort : ℤ
  sniHostname : Option String
  enableBackendMTLS : Bool
  deriving DecidableEq, Repr

def key (m : TcpRouteMapping) : Key :=
  ⟨m.routerGroupGuid, m.hostIP, m.hostPort, m.externalPort, m.hostTLSPort, m.sniHostname,
    m.enableBackendMTLS⟩

/-- `"%s:%d<->%s:%d"` of the router group, external port, host ip and host port. -/
def string (m : TcpRouteMapping) : String :=
  m.routerGroupGuid ++ ":" ++ toString m.externalPort.toNat ++ "<->" ++ m.hostIP ++ ":" ++
    toString m.hostPort.toNat

def setDefaults (maxTTL : ℤ) (m : TcpRouteMapping) : TcpRouteMapping :=
  match m.ttl with
  | none => { m with ttl := some maxTTL }
  | some _ => m

theorem setDefaults_eq (maxTTL : ℤ) (m : TcpRouteMapping) :
    ∃ ttl, m.setDefaults maxTTL = { m with ttl := some ttl } := by
  unfold setDefaults
  split
  next => exact ⟨_, rfl⟩
  next ttl h => exact ⟨ttl, by rw [← h]⟩

/-- `NewTcpRouteMappingWithModel` once the guid has been drawn. -/
def withModel (guid : String) (now : ℤ) (m : TcpRouteMapping) : Option TcpRouteMapping :=
  m.ttl.map fun ttl => { m with guid := guid, expiresAt := now + ttlDuration ttl }

/-- `updateTcpRouteMapping`: of the fields outside the key only the TTL, the isolation
segment and the rewrite hostname are taken from the request. -/
def updateTcpRouteMapping (now : ℤ) (existing current : TcpRouteMapping) :
    Option TcpRouteMapping :=
  let ttl := match current.ttl with
    | some t => some t
    | none => existing.ttl
  ttl.map fun t =>
    { existing with
      modificationTag := existing.modificationTag.increment
      ttl := some t
      isolationSegment := current.isolationSegment
      sniRewriteHostname := current.sniRewriteHostname
      expiresAt := now + ttlDuration t }

def toRow (m : TcpRouteMapping) : Row TcpColumn
  | .guid => .text m.guid
  | .expiresAt => .time m.expiresAt
  | .routerGroupGuid => .text m.routerGroupGuid
  | .hostPort => .int m.hostPort.toNat
  | .hostTLSPort => .int m.hostTLSPort
  | .hostIP => .text m.hostIP
  | .sniHostname => textPtr m.sniHostname
  | .sniRewriteHostname => textPtr m.sniRewriteHostname
  | .instanceId => .text m.instanceId
  | .externalPort => .int m.externalPort.toNat
  | .modificationGuid => .text m.modificationTag.guid
  | .modificationIndex => .int m.modificationTag.index.toNat
  | .ttl => intPtr m.ttl
  | .isolationSegment => .text m.isolationSegment
  | .terminateFrontendTLS => .bool m.terminateFrontendTLS
  | .alpns => .text m.alpns
  | .enableBackendMTLS => .bool m.enableBackendMTLS

def ofRow (x : Row TcpColumn) : TcpRouteMapping where
  guid := textOf (x .guid)
  expiresAt := timeOf (x .expiresAt)
  routerGroupGuid := textOf (x .routerGroupGuid)
  hostPort := UInt16.ofNat (intOf (x .hostPort)).toNat
  hostTLSPort := intOf (x .hostTLSPort)
  hostIP := textOf (x .hostIP)
  sniHostname := textPtrOf (x .sniHostname)
  sniRewriteHostname := textPtrOf (x .sniRewriteHostname)
  instanceId := textOf (x .instanceId)
  externalPort := UInt16.ofNat (intOf (x .externalPort)).toNat
  modificationTag := ⟨textOf (x .modificationGuid), UInt32.ofNat (intOf (x .modificationIndex)).toNat⟩
  ttl := intPtrOf (x .ttl)
  isolationSegment := textOf (x .isolationSegment)
  terminateFrontendTLS := boolOf (x .terminateFrontendTLS)
  alpns := textOf (x .alpns)
  enableBackendMTLS := boolOf (x .enableBackendMTLS)

@[simp] theorem ofRow_toRow (m : TcpRouteMapping) : ofRow (toRow m) = m := by
  simp [ofRow, toRow, textOf, intOf, timeOf, boolOf]

/-- The tags of `TcpMappingEntity` and of the embedded `Model` and `ModificationTag`. -/
def settings : TcpColumn → List Setting
  | .guid => [.primary_key]
  | .routerGroupGuid => [.not_null, .unique_index "idx_tcp_route"]
  | .hostPort => [.not_null, .unique_index "idx_tcp_route", .type "int", .size 32]
  | .hostTLSPort => [.default .null, .unique_index "idx_tcp_route", .type "int"]
  | .hostIP => [.not_null, .unique_index "idx_tcp_route"]
  | .sniHostname => [.default .null, .unique_index "idx_tcp_route"]
  | .sniRewriteHostname => [.default .null]
  | .instanceId => [.null, .default .null]
  | .externalPort => [.not_null, .unique_index "idx_tcp_route", .type "int", .size 32]
  | .modificationGuid => [.column "modification_guid"]
  | .modificationIndex => [.column "modification_index"]
  | .terminateFrontendTLS => [.default (.bool false)]
  | .enableBackendMTLS => [.default (.bool false), .unique_index "idx_tcp_route"]
  | .expiresAt | .ttl | .isolationSegment | .alpns => []

def model : Model TcpRouteMapping TcpColumn where
  columns := [.guid, .expiresAt, .routerGroupGuid, .hostPort, .hostTLSPort, .hostIP,
    .sniHostname, .sniRewriteHostname, .instanceId, .externalPort, .modificationGuid,
    .modificationIndex, .ttl, .isolationSegment, .terminateFrontendTLS, .alpns,
    .enableBackendMTLS]
  toRow := toRow
  ofRow := ofRow
  settings := settings
  zero := zero

/-- The four columns that `Create` may leave to the database. -/
theorem omitsZero_iff {c : TcpColumn} : model.omitsZero c = true ↔
    c = .hostTLSPort ∨ c = .sniHostname ∨ c = .sniRewriteHostname ∨ c = .instanceId := by
  cases c <;> decide

/-- Scanning NULL gives the zero value back, so a schema whose defaults are NULL
loses nothing that a reader of the struct can see. -/
theorem ofRow_insertRow {s : Schema TcpColumn}
    (h : ∀ c, model.omitsZero c = true → s.default c = .null) (m : TcpRouteMapping) :
    ofRow (model.insertRow s m) = m := by
  have hcell (c : TcpColumn) : model.insertRow s m c = toRow m c ∨
      (model.insertRow s m c = .null ∧ toRow m c = toRow zero c) := by
    unfold Model.insertRow
    split
    next hc => exact .inr ⟨h c hc.1, hc.2⟩
    next => exact .inl rfl
  have hfix (c : TcpColumn) (hc : ¬model.omitsZero c = true) :
      model.insertRow s m c = toRow m c := if_neg fun hh => hc hh.1
  have htls : intOf (model.insertRow s m .hostTLSPort) = m.hostTLSPort := by
    rcases hcell .hostTLSPort with he | ⟨hn, hz⟩
    · rw [he]; rfl
    · rw [hn, show m.hostTLSPort = 0 from Cell.int.inj hz]; rfl
  have hinst : textOf (model.insertRow s m .instanceId) = m.instanceId := by
    rcases hcell .instanceId with he | ⟨hn, hz⟩
    · rw [he]; rfl
    · rw [hn, show m.instanceId = "" from Cell.text.inj hz]; rfl
  have hsni : textPtrOf (model.insertRow s m .sniHostname) = m.sniHostname := by
    rcases hcell .sniHostname with he | ⟨hn, hz⟩
    · rw [he]; simp [toRow]
    · rw [hn, show m.sniHostname = none from textPtr_inj.mp hz]; rfl
  have hrew : textPtrOf (model.insertRow s m .sniRewriteHostname) = m.sniRewriteHostname := by
    rcases hcell .sniRewriteHostname with he | ⟨hn, hz⟩
    · rw [he]; simp [toRow]
    · rw [hn, show m.sniRewriteHostname = none from textPtr_inj.mp hz]; rfl
  have hfixed : ∀ c, c ∈ [TcpColumn.guid, .expiresAt, .routerGroupGuid, .hostPort, .hostIP,
      .externalPort, .modificationGuid, .modificationIndex, .ttl, .isolationSegment,
      .terminateFrontendTLS, .alpns, .enableBackendMTLS] →
      model.insertRow s m c = toRow m c := by
    intro c hc
    apply hfix
    rw [omitsZero_iff]
    rintro (rfl | rfl | rfl | rfl) <;> simp at hc
  simp only [List.forall_mem_cons, List.not_mem_nil, false_implies, implies_true, and_true]
    at hfixed
  obtain ⟨h1, h2, h3, h4, h5, h6, h7, h8, h9, h10, h11, h12, h13⟩ := hfixed
  conv_rhs => rw [← ofRow_toRow m]
  simp only [ofRow, htls, hinst, hsni, hrew, h1, h2, h3, h4, h5, h6, h7, h8, h9, h10, h11, h12,
    h13]
  simp [toRow, intOf, textOf]

end TcpRouteMapping
end RoutingApi.Models
