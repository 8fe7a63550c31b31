import RoutingApi.Models.Route

/-! Router groups, as far as the migrations and the TCP route handlers look at them. -/
namespace RoutingApi.Models
open Relational Gorm

structure RouterGroupDB where
  guid : String := ""
  name : String := ""
  type : String := ""
  reservablePorts : String := ""
  deriving DecidableEq, Repr

structure RouterGroup where
  modelGuid : String
  guid : String
  name : String
  type : String
  reservablePorts : String
  deriving DecidableEq, Repr

inductive RouterGroupColumn where
  | guid | name | type | reservablePorts
  deriving DecidableEq, Repr

namespace RouterGroupDB

def toRouterGroup (rg : RouterGroupDB) : RouterGroup :=
  ⟨rg.guid, rg.guid, rg.name, rg.type, rg.reservablePorts⟩

def toRow (rg : RouterGroupDB) : Row RouterGroupColumn
  | .guid => .text rg.guid
  | .name => .text rg.name
  | .type => .text rg.type
  | .reservablePorts => .text rg.reservablePorts

def ofRow (x : Row RouterGroupColumn) : RouterGroupDB where
  guid := textOf (x .guid)
  name := textOf (x .name)
  type := textOf (x .type)
  reservablePorts := textOf (x .reservablePorts)

def settings : RouterGroupColumn → List Setting
  | .guid => [.primary_key]
  | .name | .type | .reservablePorts => []

def model : Model RouterGroupDB RouterGroupColumn where
  columns := [.guid, .name, .type, .reservablePorts]
  toRow := toRow
  ofRow := ofRow
  settings := settings
  zero := {}

end RouterGroupDB
end RoutingApi.Models
