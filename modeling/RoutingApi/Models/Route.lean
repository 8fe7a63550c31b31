import RoutingApi.Database.Gorm

/-! Modification tags and HTTP routes. Times are nanoseconds since Go's zero time;
the embedded structs are flattened, and `CreatedAt` and `UpdatedAt` are left out. -/
namespace RoutingApi.Models
open Relational Gorm

/-- `time.Second`. -/
def second : ℤ := 1000000000

/-- `time.Duration(ttl) * time.Second`, a product of two `int64`. -/
def ttlDuration (ttl : ℤ) : ℤ := (ttl * second).bmod (2 ^ 64)

structure ModificationTag where
  guid : String
  index : UInt32
  deriving DecidableEq, Repr

namespace ModificationTag

def increment (t : ModificationTag) : ModificationTag := { t with index := t.index + 1 }

/-- The receiver is a pointer; `none` is nil. -/
def succeededBy (m : Option ModificationTag) (other : ModificationTag) : Bool :=
  match m with
  | none => true
  | some m =>
    if m.guid = "" ∨ other.guid = "" then true
    else decide (m.guid ≠ other.guid ∨ m.index < other.index)

@[simp] theorem increment_guid (t : ModificationTag) : t.increment.guid = t.guid := rfl

@[simp] theorem increment_index (t : ModificationTag) : t.increment.index = t.index + 1 := rfl

theorem succeededBy_of_guid {t u : ModificationTag} (h : t.guid ≠ u.guid) :
    succeededBy (some t) u = true := by
  simp [succeededBy, h]

theorem succeededBy_of_index {t u : ModificationTag} (h : t.index < u.index) :
    succeededBy (some t) u = true := by
  simp [succeededBy, h]

/-- Short of the wrap-around, an update makes the index one larger. -/
theorem increment_toNat {t : ModificationTag} (h : t.index.toNat + 1 < 2 ^ 32) :
    t.increment.index.toNat = t.index.toNat + 1 := by
  have h1 : (1 : UInt32).toNat = 1 := rfl
  rw [increment_index, UInt32.toNat_add, h1, Nat.mod_eq_of_lt h]

theorem lt_increment {t : ModificationTag} (h : t.index.toNat + 1 < 2 ^ 32) :
    t.index < t.increment.index := by
  rw [UInt32.lt_iff_toNat_lt, increment_toNat h]
  omega

theorem increment_iterate_toNat (t : ModificationTag) (n : ℕ) :
    (increment^[n] t).index.toNat = (t.index.toNat + n) % 2 ^ 32 := by
  induction n with
  | zero => simp [Nat.mod_eq_of_lt t.index.toNat_lt]
  | succ n ih =>
    have h1 : (1 : UInt32).toNat = 1 := rfl
    rw [Function.iterate_succ_apply', increment_index, UInt32.toNat_add, ih, h1]
    omega

end ModificationTag

structure Route where
  guid : String := ""
  expiresAt : ℤ := 0
  route : String := ""
  port : UInt16 := 0
  ip : String := ""
  ttl : Option ℤ := none
  logGuid : String := ""
  routeServiceUrl : String := ""
  modificationTag : ModificationTag := ⟨"", 0⟩
  deriving DecidableEq, Repr

namespace Route

/-- `models.Route{}`. -/
def zero : Route := {}

/-- What JSON shows of a route: `Guid` and `ExpiresAt` are tagged `json:"-"`. -/
def entity (r : Route) : Route := { r with guid := "", expiresAt := 0 }

/-- The columns that `readRoute` filters on. -/
structure Key where
  route : String
  ip : String
  port : UInt16
  routeServiceUrl : String
  deriving DecidableEq, Repr

def key (r : Route) : Key := ⟨r.route, r.ip, r.port, r.routeServiceUrl⟩

def setDefaults (defaultTTL : ℤ) (r : Route) : Route :=
  match r.ttl with
  | none => { r with ttl := some defaultTTL }
  | some _ => r

/-- After the defaults there is a TTL, and nothing else has changed. -/
theorem setDefaults_eq (defaultTTL : ℤ) (r : Route) :
    ∃ ttl, r.setDefaults defaultTTL = { r with ttl := some ttl } := by
  unfold setDefaults
  split
  next => exact ⟨_, rfl⟩
  next ttl h => exact ⟨ttl, by rw [← h]⟩

/-- `NewRouteWithModel` once the guid has been drawn; a nil TTL is dereferenced. -/
def withModel (guid : String) (now : ℤ) (r : Route) : Option Route :=
  r.ttl.map fun ttl => { r with guid := guid, expiresAt := now + ttlDuration ttl }

/-- `updateRoute`; nil when neither struct has a TTL to dereference. -/
def updateRoute (now : ℤ) (existing current : Route) : Option Route :=
  let ttl := match current.ttl with
    | some t => some t
    | none => existing.ttl
  ttl.map fun t =>
    { existing with
      modificationTag := existing.modificationTag.increment
      ttl := some t
      logGuid := if current.logGuid ≠ "" then current.logGuid else existing.logGuid
      expiresAt := now + ttlDuration t }

end Route

inductive RouteColumn where
  | guid | expiresAt | route | port | ip | ttl | logGuid | routeServiceUrl
  | modificationGuid | modificationIndex
  deriving DecidableEq, Repr

/-- Scanning NULL into a field that is not a pointer leaves the zero value. -/
def textOf : Cell → String
  | .text s => s
  | _ => ""

def intOf : Cell → ℤ
  | .int n => n
  | _ => 0

def boolOf : Cell → Bool
  | .bool b => b
  | _ => false

def timeOf : Cell → ℤ
  | .time t => t
  | _ => 0

def intPtrOf : Cell → Option ℤ
  | .int n => some n
  | _ => none

def textPtrOf : Cell → Option String
  | .text s => some s
  | _ => none

def intPtr : Option ℤ → Cell
  | some n => .int n
  | none => .null

def textPtr : Option String → Cell
  | some s => .text s
  | none => .null

@[simp] theorem intPtrOf_intPtr (p : Option ℤ) : intPtrOf (intPtr p) = p := by cases p <;> rfl

@[simp] theorem textPtrOf_textPtr (p : Option String) : textPtrOf (textPtr p) = p := by
  cases p <;> rfl

@[simp] theorem textPtr_inj {p q : Option String} : textPtr p = textPtr q ↔ p = q := by
  cases p <;> cases q <;> simp [textPtr]

namespace Route

def toRow (r : Route) : Row RouteColumn
  | .guid => .text r.guid
  | .expiresAt => .time r.expiresAt
  | .route => .text r.route
  | .port => .int r.port.toNat
  | .ip => .text r.ip
  | .ttl => intPtr r.ttl
  | .logGuid => .text r.logGuid
  | .routeServiceUrl => .text r.routeServiceUrl
  | .modificationGuid => .text r.modificationTag.guid
  | .modificationIndex => .int r.modificationTag.index.toNat

def ofRow (x : Row RouteColumn) : Route where
  guid := textOf (x .guid)
  expiresAt := timeOf (x .expiresAt)
  route := textOf (x .route)
  port := UInt16.ofNat (intOf (x .port)).toNat
  ip := textOf (x .ip)
  ttl := intPtrOf (x .ttl)
  logGuid := textOf (x .logGuid)
  routeServiceUrl := textOf (x .routeServiceUrl)
  modificationTag := ⟨textOf (x .modificationGuid), UInt32.ofNat (intOf (x .modificationIndex)).toNat⟩

@[simp] theorem ofRow_toRow (r : Route) : ofRow (toRow r) = r := by
  simp [ofRow, toRow, textOf, intOf, timeOf]

/-- The tags of `RouteEntity` and of the embedded `Model` and `ModificationTag`. -/
def settings : RouteColumn → List Setting
  | .guid => [.primary_key]
  | .route => [.not_null, .unique_index "idx_route"]
  | .port => [.not_null, .unique_index "idx_route", .size 32]
  | .ip => [.not_null, .unique_index "idx_route"]
  | .routeServiceUrl => [.not_null, .unique_index "idx_route"]
  | .modificationGuid => [.column "modification_guid"]
  | .modificationIndex => [.column "modification_index"]
  | .expiresAt | .ttl | .logGuid => []

def model : Model Route RouteColumn where
  columns := [.guid, .expiresAt, .route, .port, .ip, .ttl, .logGuid, .routeServiceUrl,
    .modificationGuid, .modificationIndex]
  toRow := toRow
  ofRow := ofRow
  settings := settings
  zero := zero

/-- No field of a route has a default, so routes are stored exactly by any schema. -/
theorem model_exact (s : Schema RouteColumn) : model.Exact s := by
  intro c hc
  cases c <;> simp [Model.omitsZero, model, settings] at hc

end Route
end RoutingApi.Models
