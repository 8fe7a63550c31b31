import RoutingApi.Relational.Schema

/-! The parts of the vendored gorm v2 that decide what a struct looks like in the
database: tag settings, the values `Create` writes, and `AutoMigrate`. -/
namespace RoutingApi.Gorm
open Relational

/-- The settings of a `gorm:"…"` tag, under the spelling of the tag. The v1
spelling `unique_index` is parsed like any other key but read by nothing. -/
inductive Setting where
  | primary_key
  | not_null
  | null
  | unique_index (name : String)
  | uniqueIndex (name : String)
  | default (v : Cell)
  | type (name : String)
  | size (n : ℕ)
  | column (name : String)
  deriving DecidableEq, Repr

/-- A struct as gorm sees it: its columns, how a value is written to and scanned
from a row, and the tags. -/
structure Model (E C : Type) where
  columns : List C
  toRow : E → Row C
  ofRow : Row C → E
  settings : C → List Setting
  zero : E

namespace Model
variable {E C : Type} (M : Model E C)

/-- A field with `default:null` has a default that is not a value, so `Create`
leaves the column out when the field is zero. -/
def omitsZero (c : C) : Bool := decide (Setting.default .null ∈ M.settings c)

/-- The row that `Create` inserts. -/
def insertRow (s : Schema C) (e : E) : Row C := fun c =>
  if M.omitsZero c = true ∧ M.toRow e c = M.toRow M.zero c then s.default c else M.toRow e c

theorem insertRow_of_ne {s : Schema C} {e : E} {c : C}
    (h : M.omitsZero c = true → M.toRow e c ≠ M.toRow M.zero c) :
    M.insertRow s e c = M.toRow e c :=
  if_neg fun hc => h hc.1 hc.2

def isPrimary (c : C) : Bool := decide (Setting.primary_key ∈ M.settings c)

/-- A row that an INSERT with `OnConflict{UpdateAll: true}` overwrites: the columns that `Create`
would insert are written, except the primary key. -/
def overwriteRow (e : E) (x : Row C) : Row C := fun c =>
  if M.isPrimary c = true ∨ M.omitsZero c = true ∧ M.toRow e c = M.toRow M.zero c then x c
  else M.toRow e c

theorem overwriteRow_primary {e : E} {x : Row C} {c : C} (h : M.isPrimary c = true) :
    M.overwriteRow e x c = x c := if_pos (.inl h)

theorem overwriteRow_of_ne {e : E} {x : Row C} {c : C} (hp : M.isPrimary c = false)
    (h : M.omitsZero c = true → M.toRow e c ≠ M.toRow M.zero c) :
    M.overwriteRow e x c = M.toRow e c := by
  refine if_neg ?_
  rintro (hprimary | hzero)
  · rw [hp] at hprimary
    cases hprimary
  · exact h hzero.1 hzero.2

/-- A schema under which `Create` stores every struct exactly. -/
def Exact (s : Schema C) : Prop := ∀ c, M.omitsZero c = true → s.default c = M.toRow M.zero c

theorem insertRow_exact {s : Schema C} (h : M.Exact s) (e : E) : M.insertRow s e = M.toRow e := by
  funext c
  unfold insertRow
  split
  next hc => rw [h c hc.1, hc.2]
  next => rfl

/-- The default a tag asks for; NULL when it asks for none. -/
def tagDefault (c : C) : Cell :=
  ((M.settings c).findSome? fun
    | .default v => some v
    | _ => none).getD .null

/-- The unique indexes that the tags ask for; only `uniqueIndex` is looked at. -/
def tagIndexes : List (UniqueIndex C) :=
  let named := M.columns.flatMap fun c => (M.settings c).filterMap fun
    | .uniqueIndex n => some (n, c)
    | _ => none
  (named.map Prod.fst).dedup.map fun n =>
    ⟨n, (named.filter fun p => decide (p.1 = n)).map fun p => (p.2, none)⟩

variable {pk : C} [DecidableEq C]

/-- `AutoMigrate`: add the missing columns with their default, reset the defaults
of all columns to the tags, and create the missing indexes of the tags. -/
def autoMigrate (r : Relation pk) : Option (Relation pk) :=
  let missing := M.columns.filter fun c => decide (c ∉ r.schema.columns)
  let grown := r.addColumns missing M.tagDefault
  let reset : Relation pk := { grown with schema := { grown.schema with default := M.tagDefault } }
  (M.tagIndexes.filter fun ix => decide (ix.name ∉ r.schema.indexes.map (·.name))).foldlM
    (fun r ix => r.createUniqueIndex ix) reset

end Model
end RoutingApi.Gorm
